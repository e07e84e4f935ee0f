import TransitTimeline.Calendar
import TransitTimeline.Text.Piece

/-! Instants of universal time, in nanoseconds from 1970-01-01T00:00:00Z, and their range. -/
namespace TransitTimeline

structure Instant where
  nanos : Int
  deriving DecidableEq, Repr

namespace Instant

instance : LE Instant := ⟨fun a b => a.nanos ≤ b.nanos⟩
instance : LT Instant := ⟨fun a b => a.nanos < b.nanos⟩
instance (a b : Instant) : Decidable (a ≤ b) := inferInstanceAs (Decidable (a.nanos ≤ b.nanos))
instance (a b : Instant) : Decidable (a < b) := inferInstanceAs (Decidable (a.nanos < b.nanos))
instance : Ord Instant := ⟨compareOn Instant.nanos⟩
instance : Max Instant := maxOfLe
instance : Min Instant := minOfLe

def perSecond : Int := 1000000000

def ofSeconds (s : Int) : Instant := ⟨s * perSecond⟩

def plus (t : Instant) (nanos : Int) : Instant := ⟨t.nanos + nanos⟩

def plusSeconds (t : Instant) (s : Int) : Instant := t.plus (s * perSecond)

def secondsSince (later earlier : Instant) : Int := (later.nanos - earlier.nanos).tdiv perSecond

def InRange (t : Instant) : Prop :=
  Day.first.number * 86400 * perSecond ≤ t.nanos ∧ t.nanos < (Day.last.number + 1) * 86400 * perSecond
instance (t : Instant) : Decidable t.InRange := by unfold InRange; infer_instance

def inRange? (t : Instant) : Option Instant := if t.InRange then some t else none

theorem secondsSinceWhole (a b : Int) : (ofSeconds a).secondsSince (ofSeconds b) = a - b := by
  unfold secondsSince ofSeconds perSecond
  have : a * 1000000000 - b * 1000000000 = 1000000000 * (a - b) := by omega
  simp only [this]
  exact Int.mul_tdiv_cancel_left _ (by decide)

def fractionText (nanos : Nat) : String :=
  if nanos = 0 then ""
  else if nanos % 1000000 = 0 then "." ++ Text.padded 3 (nanos / 1000000)
  else if nanos % 1000 = 0 then "." ++ Text.padded 6 (nanos / 1000)
  else "." ++ Text.padded 9 nanos

def textWith (separator zone : String) (t : Instant) : String :=
  let seconds := t.nanos / perSecond
  let ofDay := (seconds % 86400).toNat
  (Day.mk (seconds / 86400)).text ++ separator ++
    Text.padded 2 (ofDay / 3600) ++ ":" ++ Text.padded 2 (ofDay / 60 % 60) ++ ":" ++ Text.padded 2 (ofDay % 60) ++
    fractionText (t.nanos % perSecond).toNat ++ zone

def text (t : Instant) : String := t.textWith "T" "Z"

def longText (t : Instant) : String := t.textWith " " " UTC"

def readFraction : List Char → Option (Nat × List Char)
  | '.' :: rest => do
    let (run, rest) := Text.takeDigits none rest
    if 9 < run.length then none else
    let n ← Text.digits? 10 run
    some (n * Nat.pow 10 (9 - run.length), rest)
  | cs => some (0, cs)

def readOffset : List Char → Option Int
  | ['Z'] => some 0
  | [sign, h1, h2, ':', m1, m2] => do
    let hours ← Text.digits? 10 [h1, h2]
    let minutes ← Text.digits? 10 [m1, m2]
    let distance : Int := hours * 3600 + minutes * 60
    if sign = '+' then some distance else if sign = '-' then some (-distance) else none
  | _ => none

def ofText? (s : String) : Option Instant :=
  match Text.pieces 'T' s.toList with
  | [date, h1 :: h2 :: ':' :: m1 :: m2 :: ':' :: s1 :: s2 :: rest] => do
    let day ← Day.ofDashed? (String.ofList date)
    let hours ← Text.digits? 10 [h1, h2]
    let minutes ← Text.digits? 10 [m1, m2]
    let seconds ← Text.digits? 10 [s1, s2]
    let (nanos, rest) ← readFraction rest
    let offset ← readOffset rest
    if 23 < hours ∨ 59 < minutes ∨ 59 < seconds then none else
    inRange? ⟨(day.number * 86400 + hours * 3600 + minutes * 60 + seconds - offset) * perSecond + nanos⟩
  | _ => none

end Instant

end TransitTimeline
