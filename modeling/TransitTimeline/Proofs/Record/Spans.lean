import TransitTimeline.Proofs.Record.LastKnown
import TransitTimeline.Proofs.Record.Raised
import TransitTimeline.Proofs.Record.Sound
import TransitTimeline.Proofs.Record.Telescope

/-! Durations of a journey's records. Each counts from the last departure known before the stop, so none is negative, and on
every beginning of the journey they add up to the time between its first arrival and its last departure. -/
namespace TransitTimeline
open LastKnown

theorem Instant.plusSecondsWhole (a s : Int) : (ofSeconds a).plusSeconds s = ofSeconds (a + s) := by
  show Instant.mk (a * perSecond + s * perSecond) = ⟨(a + s) * perSecond⟩
  rw [Int.add_mul]

theorem LastKnown.lastKnownCons {ρ α : Type} (value : ρ → Option α) (r : ρ) (rows : List ρ) :
    lastKnown value (r :: rows) = (lastKnown value rows).or (value r) := by
  cases own : value r <;> simp [lastKnown, List.findSome?_append, own]

namespace Stay
open Instant (Whole)

theorem Times.Stands.whole {t : Times} (stands : t.Stands) : Whole t.arrival ∧ Whole t.departure := by
  cases stands with
  | unknown => exact ⟨Instant.wholeNone, Instant.wholeNone⟩
  | known a d _ => exact ⟨Instant.wholeSeconds a, Instant.wholeSeconds d⟩

variable {previous : Option Instant} {times : List Times}

theorem secondsKnown {start finish : Option Instant} :
    (seconds start finish).isSome ↔ finish.isSome ∧ start.isSome := by
  cases start <;> cases finish <;> simp [seconds]

theorem secondsOf {start finish : Option Instant} {s : Int} (known : seconds start finish = some s) :
    ∃ a ∈ start, ∃ d ∈ finish, s = d.secondsSince a := by
  cases start with
  | none => cases finish <;> simp [seconds] at known
  | some a =>
    cases finish with
    | none => simp [seconds] at known
    | some d => exact ⟨a, rfl, d, rfl, (Option.some.inj known).symm⟩

theorem alongAt {before after : List Stay} {s : Stay} (shape : along previous times = before ++ s :: after) :
    s = ofTimes ((lastKnown (·.departure) before).or previous) ⟨s.arrival, s.departure⟩ := by
  induction times generalizing previous before with
  | nil => simp [along] at shape
  | cons t rest ih =>
    cases before with
    | nil =>
      obtain ⟨rfl, _⟩ := List.cons.inj shape
      rfl
    | cons first before =>
      obtain ⟨rfl, rest⟩ := List.cons.inj shape
      rw [lastKnownCons, Option.or_assoc]
      exact ih rest

theorem alongTake (previous : Option Instant) (times : List Times) (n : Nat) :
    (along previous times).take n = along previous (times.take n) := by
  induction times generalizing previous n with
  | nil => cases n <;> rfl
  | cons t rest ih =>
    cases n with
    | zero => rfl
    | succ n => exact congrArg (List.cons _) (ih _ n)

end Stay

namespace StopRecord
variable {events : List StopEvent}

theorem journeyAlong (events : List StopEvent) :
    (ofJourney events).map (·.stay) = Stay.along none (Stay.settle (Stay.estimates events)) := by
  rw [journeyStays, Stay.ofEventsAlong]

theorem journeyStay {before after : List StopRecord} {r : StopRecord} (shape : ofJourney events = before ++ r :: after) :
    r.stay = Stay.ofTimes (lastKnown (·.stay.departure) before) r.times := by
  have stays := journeyAlong events
  rw [shape, List.map_append, List.map_cons] at stays
  have own := Stay.alongAt stays.symm
  rw [lastKnownMap, Option.or_none] at own
  exact own

theorem departureBefore {before : List StopRecord} :
    (lastKnown (·.stay.departure) before).isSome ↔ ∃ s ∈ before, s.stay.departure.isSome := by
  simp [lastKnown]

theorem journeyTravelled : ∀ r ∈ ofJourney events, ∀ s ∈ r.stay.travelled, 0 ≤ s := by
  intro r member s own
  obtain ⟨before, after, shape⟩ := List.append_of_mem member
  rw [journeyStay shape] at own
  obtain ⟨d, leaves, a, arrives, rfl⟩ := Stay.secondsOf own
  obtain ⟨earlier, known, departs⟩ := List.mem_filterMap.mp (lastKnownMem leaves)
  have ordered := journeyNeverBack events
  rw [shape] at ordered
  have behind := (List.pairwise_append.mp ordered).2.2 earlier known r List.mem_cons_self
  exact Instant.secondsNonnegative (behind d a (.inr departs) (.inl arrives))

theorem journeyStopped : ∀ r ∈ ofJourney events, ∀ s ∈ r.stay.stopped, 0 ≤ s := by
  intro r member s own
  obtain ⟨before, after, shape⟩ := List.append_of_mem member
  rw [journeyStay shape] at own
  obtain ⟨a, arrives, d, leaves, rfl⟩ := Stay.secondsOf own
  exact Instant.secondsNonnegative ((journeyInOrder r member).stays a arrives d leaves)

theorem beginningAlong {shown : List StopRecord} (begun : shown <+: ofJourney events) :
    shown.map (·.stay) = Stay.along none ((Stay.settle (Stay.estimates events)).take shown.length) := by
  rw [← Stay.alongTake, ← journeyAlong, ← List.map_take, ← List.prefix_iff_eq_take.mp begun]

structure AddsUp (rows : List StopRecord) : Prop where
  travelled : ∀ r ∈ rows, ∀ s ∈ r.stay.travelled, 0 ≤ s
  stopped : ∀ r ∈ rows, ∀ s ∈ r.stay.stopped, 0 ≤ s
  known : ∀ before r after, rows = before ++ r :: after →
    (r.stay.travelled.isSome ↔ r.stay.arrival.isSome ∧ ∃ s ∈ before, s.stay.departure.isSome)
  spans : ∀ shown, shown <+: rows → ∀ first ∈ (shown.filterMap (·.stay.arrival)).head?,
    ∀ last ∈ (shown.filterMap (·.stay.departure)).getLast?, first.plusSeconds (elapsed shown) = last
  timeless : ∀ shown, shown <+: rows → shown.filterMap (·.stay.arrival) = [] →
    shown.filterMap (·.stay.departure) = [] ∧ elapsed shown = 0

theorem beginningSpans (whole : ∀ e ∈ events, e.Whole) {shown : List StopRecord} (begun : shown <+: ofJourney events) :
    ∀ first ∈ (shown.filterMap (·.stay.arrival)).head?, ∀ last ∈ (shown.filterMap (·.stay.departure)).getLast?,
      first.plusSeconds (elapsed shown) = last := by
  have stands : ∀ t ∈ (Stay.settle (Stay.estimates events)).take shown.length, t.Stands :=
    fun t member => Stay.settledStand whole t (List.mem_of_mem_take member)
  have stays := beginningAlong begun
  have column {α : Type} (get : Stay → Option α) : shown.filterMap (fun r => get r.stay) =
      (Stay.along none ((Stay.settle (Stay.estimates events)).take shown.length)).filterMap get := by
    rw [← stays, List.filterMap_map]
    rfl
  have seconds : ∀ r ∈ shown, r.times.Stands := by
    intro r member
    have known : r.stay ∈ shown.map (·.stay) := List.mem_map_of_mem member
    rw [stays] at known
    exact stands _ (Stay.alongTimes none r.stay known)
  -- The stays tell the sum in truncated seconds; both ends are whole, so nothing is cut off.
  intro first arrives last leaves
  have sums : elapsed shown = last.secondsSince first := by
    rw [column (·.arrival)] at arrives
    rw [column (·.departure)] at leaves
    rw [elapsed, column (·.travelled), column (·.stopped)]
    exact Stay.durationsTelescope stands first arrives last leaves
  obtain ⟨r, inside, own⟩ := List.mem_filterMap.mp (List.mem_of_head? arrives)
  obtain ⟨s, also, departs⟩ := List.mem_filterMap.mp (List.mem_of_getLast? leaves)
  obtain ⟨a, rfl⟩ := (seconds r inside).whole.1 first own
  obtain ⟨d, rfl⟩ := (seconds s also).whole.2 last departs
  rw [sums, Instant.secondsSinceWhole, Instant.plusSecondsWhole]
  exact congrArg Instant.ofSeconds (by omega)

theorem beginningTimeless {shown : List StopRecord} (begun : shown <+: ofJourney events)
    (unknown : shown.filterMap (·.stay.arrival) = []) : shown.filterMap (·.stay.departure) = [] ∧ elapsed shown = 0 := by
  rw [List.filterMap_eq_nil_iff] at unknown
  have stays : ∀ r ∈ shown, r.stay = ⟨none, none, none, none⟩ := by
    intro r inside
    have member := begun.subset inside
    have bare : r.times = ⟨none, none⟩ := (journeyInOrder r member).neither (unknown r inside)
    obtain ⟨before, after, shape⟩ := List.append_of_mem member
    have own := journeyStay shape
    rw [bare] at own
    rw [own]
    cases lastKnown (·.stay.departure) before <;> rfl
  have none {α : Type} (get : Stay → Option α) (gap : get ⟨none, none, none, none⟩ = none) :
      shown.filterMap (fun r => get r.stay) = [] := by
    rw [List.filterMap_eq_nil_iff]
    intro r inside
    rw [stays r inside, gap]
  constructor
  · exact none (·.departure) rfl
  · rw [elapsed, none (·.travelled) rfl, none (·.stopped) rfl]
    rfl

theorem journeyAddsUp (events : List StopEvent) (whole : ∀ e ∈ events, e.Whole) : AddsUp (ofJourney events) := by
  constructor
  case travelled => exact journeyTravelled
  case stopped => exact journeyStopped
  case known =>
    intro before r after shape
    rw [← departureBefore, journeyStay shape]
    exact Stay.secondsKnown
  case spans => exact fun shown begun => beginningSpans whole begun
  case timeless => exact fun shown begun => beginningTimeless begun

/- The sensor missed the first, third and last stop, and the fourth arrival is stale. -/
theorem journeyAddsUpOverGaps :
    let e (arrival departure : Option Int) : StopEvent :=
      { tm := some { arrival := arrival.map .ofSeconds, departure := departure.map .ofSeconds } }
    let events := [e none none, e (some 0) (some 10), e none none, e (some 5) (some 20), e none none]
    (∀ e ∈ events, e.Whole) ∧
      (ofJourney events).map (·.stay.travelled) = [none, none, none, some 0, none] ∧
      (Instant.ofSeconds 0).plusSeconds (elapsed (ofJourney events)) = .ofSeconds 20 := by
  intro e events
  have each (arrival departure : Option Int) : (e arrival departure).Whole := by
    have whole (seconds : Option Int) : Instant.Whole (seconds.map .ofSeconds) := by
      cases seconds with
      | none => exact Instant.wholeNone
      | some s => exact Instant.wholeSeconds s
    exact ⟨Instant.wholeNone, Instant.wholeNone, whole arrival, whole departure⟩
  have whole : ∀ e ∈ events, e.Whole := by simp [events, each]
  refine ⟨whole, by decide, ?_⟩
  have adds := journeyAddsUp events whole
  exact adds.spans (ofJourney events) (List.prefix_refl _) (.ofSeconds 0) (by decide) (.ofSeconds 20) (by decide)

end StopRecord

end TransitTimeline
