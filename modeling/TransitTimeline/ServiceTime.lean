import TransitTimeline.Failure
import TransitTimeline.Text.Piece
import TransitTimeline.Zone

/-! The clocks of a service day. Planned times count from twelve hours before local noon; dispatch times count
on the wall clock from local midnight; vehicle reports carry seconds of universal time. -/
namespace TransitTimeline

namespace ServiceTime

/-- The longest duration, in seconds, that time arithmetic takes. -/
def longest : Int := 9223372036854775

def duration (seconds : Int) : Except Failure Int :=
  if -longest ≤ seconds ∧ seconds ≤ longest then .ok seconds else .error .outOfRange

def nanoseconds (seconds : Int) : Except Failure Int := do return (← duration seconds) * Instant.perSecond

def within (t : Instant) : Except Failure Instant :=
  if t.InRange then .ok t else .error .outOfRange

def atWall? (z : Zone) (wall : Int) : Option Instant :=
  (z.earliest? wall).bind fun second => (Instant.ofSeconds second).inRange?

def midnight (d : Day) : Int := d.number * 86400

/-- Seconds from twelve hours before local noon, counted in real time. -/
def planned (d : Day) (seconds : Int) (z : Zone) : Except Failure (Option Instant) :=
  match atWall? z (midnight d + 43200) with
  | none => .ok none
  | some noon => do
    let origin ← within (noon.plusSeconds (-43200))
    let seconds ← duration seconds
    let t ← within (origin.plusSeconds seconds)
    return some t

/-- Seconds on the wall clock from local midnight. A reading that the clock skips is taken one hour later. -/
def dispatched (d : Day) (seconds : Int) (z : Zone) : Except Failure (Option Instant) := do
  let seconds ← duration seconds
  let wall := midnight d + seconds
  let _ ← within (Instant.ofSeconds wall)
  match atWall? z wall with
  | some t => return some t
  | none =>
    let _ ← within (Instant.ofSeconds (wall + 3600))
    return atWall? z (wall + 3600)

def reported? (seconds : Int) : Option Instant := (Instant.ofSeconds seconds).inRange?

def ofText? (s : String) : Option Int :=
  match Text.pieces ':' (Text.trimChars s.toList) with
  | [h, m, s] => do
    let h ← Text.integerIn 10 .signed64 h
    let m ← Text.integerIn 10 .signed64 m
    let s ← Text.integerIn 10 .signed64 s
    if 0 ≤ h ∧ 0 ≤ m ∧ m < 60 ∧ 0 ≤ s ∧ s < 60 then some (Text.Bounds.signed64.wrap (h * 3600 + m * 60 + s)) else none
  | _ => none

end ServiceTime

end TransitTimeline
