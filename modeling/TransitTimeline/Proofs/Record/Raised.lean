import Mathlib.Data.List.Forall2
import Mathlib.Data.List.Infix
import TransitTimeline.Proofs.Column
import TransitTimeline.Proofs.Record.Settle

/-! A journey's times are its estimates, each raised to the greatest one before it. At a stop both times are known or
neither is, and of all times that never go back and are not before their estimates these are the least. -/
namespace TransitTimeline

namespace Instant
variable {top : Option Instant} {u v w : Instant}

def runningMax (instants : List Instant) : List Instant := instants.inits.filterMap (·.max?)

def reach (top : Option Instant) (v : Instant) : Instant := top.elim v (max · v)

def climb : Option Instant → List Instant → List Instant
  | _, [] => []
  | top, v :: rest => reach top v :: climb (some (reach top v)) rest

theorem reachOwn (top : Option Instant) (v : Instant) : v ≤ reach top v := by
  cases top with
  | none => exact leRefl v
  | some t => exact leMaxRight t v

theorem reachTop (v : Instant) : ∀ t ∈ top, t ≤ reach top v := by
  intro t own
  cases own
  exact leMaxLeft t v

theorem reachLeast (own : v ≤ w) (before : ∀ t ∈ top, t ≤ w) : reach top v ≤ w := by
  cases top with
  | none => exact own
  | some t => exact maxAtMost (before t rfl) own

theorem reachGrows (le : v ≤ w) : reach top v ≤ reach top w :=
  reachLeast (leTrans le (reachOwn top w)) (reachTop w)

theorem reachEither (top : Option Instant) (v : Instant) : reach top v = v ∨ top = some (reach top v) := by
  cases top with
  | none => exact .inl rfl
  | some t =>
    rcases leTotal t v with le | ge
    · exact .inl (maxOfLe le)
    · exact .inr (congrArg some (leAntisymm (leMaxLeft t v) (maxAtMost (leRefl t) ge)))

theorem reachAgain (le : v ≤ w) : reach (some (reach top v)) w = reach top w := by
  apply leAntisymm
  · apply reachLeast (reachOwn top w)
    intro t own
    cases own
    exact reachGrows le
  · apply reachLeast (reachOwn _ w)
    intro t own
    exact leTrans (reachTop v t own) (reachTop w _ rfl)

theorem climbInits (top : Option Instant) (instants : List Instant) :
    climb top instants = instants.inits.tail.filterMap fun begun => (top.toList ++ begun).max? := by
  induction instants generalizing top with
  | nil => rfl
  | cons v rest ih =>
    have first : rest.inits = [] :: rest.inits.tail := by cases rest <;> rfl
    have onward : (fun begun : List Instant => (top.toList ++ v :: begun).max?) =
        fun begun => ([reach top v] ++ begun).max? := by
      cases top <;> rfl
    rw [climb, ih, List.inits, List.tail_cons, List.filterMap_map, Function.comp_def, onward]
    conv => rhs; rw [first]
    rfl

theorem runningMaxClimb (instants : List Instant) : runningMax instants = climb none instants := by
  have first : instants.inits = [] :: instants.inits.tail := by cases instants <;> rfl
  rw [climbInits, runningMax, first]
  rfl

theorem climbAscends (top : Option Instant) (instants : List Instant) :
    (climb top instants).Pairwise (· ≤ ·) ∧ ∀ t ∈ top, ∀ v ∈ climb top instants, t ≤ v := by
  induction instants generalizing top with
  | nil => simp [climb]
  | cons v rest ih =>
    obtain ⟨ordered, above⟩ := ih (some (reach top v))
    constructor
    · exact List.pairwise_cons.mpr ⟨above _ rfl, ordered⟩
    · intro t own w member
      rcases List.mem_cons.mp member with rfl | later
      · exact reachTop v t own
      · exact leTrans (reachTop v t own) (above _ rfl w later)

theorem climbAbove (top : Option Instant) (instants : List Instant) :
    List.Forall₂ (· ≤ ·) instants (climb top instants) := by
  induction instants generalizing top with
  | nil => exact .nil
  | cons v rest ih => exact .cons (reachOwn top v) (ih _)

theorem climbLeast {instants others : List Instant} (above : List.Forall₂ (· ≤ ·) instants others)
    (ordered : others.Pairwise (· ≤ ·)) (before : ∀ t ∈ top, ∀ o ∈ others, t ≤ o) :
    List.Forall₂ (· ≤ ·) (climb top instants) others := by
  induction above generalizing top with
  | nil => exact .nil
  | @cons v o rest others own _ ih =>
    obtain ⟨first, ordered⟩ := List.pairwise_cons.mp ordered
    have least : reach top v ≤ o := reachLeast own fun t held => before t held o List.mem_cons_self
    apply List.Forall₂.cons least
    apply ih ordered
    intro t held p member
    cases held
    exact leTrans least (first p member)

theorem climbChanged {instants : List Instant} {i : Nat} (known : instants[i]? = some v)
    (raised : (climb top instants)[i]? = some w) (changed : w ≠ v) :
    (∃ t ∈ top, v < t) ∨ ∃ j < i, ∃ u ∈ instants[j]?, v < u := by
  induction instants generalizing top i with
  | nil => simp at known
  | cons first rest ih =>
    cases i with
    | zero =>
      cases known
      cases raised
      refine .inl ⟨_, (reachEither top v).resolve_left changed, Classical.byContradiction fun below => ?_⟩
      exact changed (leAntisymm (notLt.mp below) (reachOwn top v))
    | succ i =>
      rcases ih known raised with ⟨t, held, less⟩ | ⟨j, before, u, own, less⟩
      · cases held
        rcases reachEither top first with same | stood
        · exact .inr ⟨0, Nat.succ_pos i, first, rfl, same ▸ less⟩
        · exact .inl ⟨_, stood, less⟩
      · exact .inr ⟨j + 1, Nat.succ_lt_succ before, u, own, less⟩

end Instant

namespace Stay
open Instant (reach climb)

inductive Times.InOrder : Times → Prop
  | unknown : InOrder ⟨none, none⟩
  | known (a d : Instant) (order : a ≤ d) : InOrder ⟨some a, some d⟩

theorem Times.InOrder.together {t : Times} (inOrder : t.InOrder) : t.arrival.isSome = t.departure.isSome := by
  cases inOrder with
  | unknown => rfl
  | known => rfl

theorem Times.InOrder.neither {t : Times} (inOrder : t.InOrder) (unknown : t.arrival = none) : t = ⟨none, none⟩ := by
  cases inOrder with
  | unknown => rfl
  | known => cases unknown

theorem Times.InOrder.stays {t : Times} (inOrder : t.InOrder) : ∀ a ∈ t.arrival, ∀ d ∈ t.departure, a ≤ d := by
  intro u arrives v leaves
  cases inOrder with
  | unknown => cases arrives
  | known a d order =>
    cases arrives
    cases leaves
    exact order

def Times.moments (t : Times) : List Instant := t.arrival.toList ++ t.departure.toList

def moments (times : List Times) : List Instant := times.flatMap Times.moments

section Estimate
variable {latest departure : Option Instant}

theorem sameInOrder (latest : Option Instant) : (Times.complete ⟨latest, latest⟩).InOrder := by
  cases latest with
  | none => exact .unknown
  | some v => exact .known v v (Instant.leRefl v)

theorem cutInOrder (latest departure : Option Instant) :
    (Times.complete ⟨Column.minPresent latest departure, departure⟩).InOrder := by
  cases latest with
  | none =>
    cases departure with
    | none => exact .unknown
    | some d => exact .known d d (Instant.leRefl d)
  | some a =>
    cases departure with
    | none => exact .known a a (Instant.leRefl a)
    | some d => exact .known (min a d) d (Instant.minLeRight a d)

theorem estimateInOrder (count index : Nat) (e : StopEvent) (departure : Option Instant) :
    (estimate count index e departure).complete.InOrder := by
  unfold estimate
  dsimp only
  split
  · exact cutInOrder _ _
  · split
    · exact sameInOrder _
    · exact cutInOrder _ _

theorem estimatesInOrder (events : List StopEvent) : ∀ t ∈ estimates events, t.InOrder := by
  intro t member
  obtain ⟨⟨⟨e, departure⟩, index⟩, _, rfl⟩ := List.mem_map.mp member
  exact estimateInOrder events.length index e departure

end Estimate

section Settle
variable {floor running : Option Instant} {times : List Times}

theorem raiseReach (floor : Option Instant) (v : Instant) : Times.raise floor (some v) = some (reach floor v) := by
  cases floor with
  | none => rfl
  | some f =>
    show (if v < f then some f else some v) = some (if f ≤ v then v else f)
    by_cases below : v < f
    · rw [if_pos below, if_neg fun above => Instant.notLt.mpr above below]
    · rw [if_neg below, if_pos (Instant.notLt.mp below)]

theorem raiseNone (floor : Option Instant) : Times.raise floor none = none := by
  cases floor <;> rfl

theorem raisedInOrder {t : Times} (inOrder : t.InOrder) (floor : Option Instant) : (t.raiseTo floor).InOrder := by
  cases inOrder with
  | unknown =>
    rw [Times.raiseTo, raiseNone]
    exact .unknown
  | known a d order =>
    rw [Times.raiseTo, raiseReach, raiseReach]
    exact .known _ _ (Instant.reachGrows order)

theorem settledInOrderFrom (inOrder : ∀ t ∈ times, t.InOrder) (running : Option Instant) :
    ∀ t ∈ List.zipWith Times.raiseTo (Column.maxBeforeFrom running (times.map (·.latest))) times, t.InOrder := by
  induction times generalizing running with
  | nil => simp [Column.maxBeforeFrom]
  | cons first rest ih =>
    obtain ⟨own, later⟩ := List.forall_mem_cons.mp inOrder
    exact List.forall_mem_cons.mpr ⟨raisedInOrder own running, ih later _⟩

/- The running floor is the greatest departure so far; since no departure is before its arrival, it is the greatest of all
times so far. -/
theorem settledClimb (inOrder : ∀ t ∈ times, t.InOrder) (running : Option Instant) :
    moments (List.zipWith Times.raiseTo (Column.maxBeforeFrom running (times.map (·.latest))) times) =
      climb running (moments times) := by
  induction times generalizing running with
  | nil => rfl
  | cons first rest ih =>
    obtain ⟨own, later⟩ := List.forall_mem_cons.mp inOrder
    have onward := ih later (Column.maxPresent running first.latest)
    cases own with
    | unknown =>
      have same : Column.maxPresent running (Times.latest ⟨none, none⟩) = running := by cases running <;> rfl
      have none : Times.raiseTo running ⟨none, none⟩ = ⟨none, none⟩ := by rw [Times.raiseTo, raiseNone]
      rw [same] at onward
      rw [List.map_cons, Column.maxBeforeFrom, List.zipWith_cons_cons, same, none]
      exact onward
    | known a d order =>
      have top : Column.maxPresent running (Times.latest ⟨some a, some d⟩) = some (reach running d) := by
        rw [Times.latest, Column.maxPresent, Instant.maxOfLe order]
        cases running <;> rfl
      have raised : Times.raiseTo running ⟨some a, some d⟩ = ⟨some (reach running a), some (reach running d)⟩ := by
        rw [Times.raiseTo, raiseReach, raiseReach]
      rw [top] at onward
      rw [List.map_cons, Column.maxBeforeFrom, List.zipWith_cons_cons, top, raised]
      show reach running a :: reach running d :: moments _ = climb running (a :: d :: moments rest)
      rw [climb, climb, Instant.reachAgain order, onward]

def Times.known (t : Times) : Bool × Bool := (t.arrival.isSome, t.departure.isSome)

theorem raisedKnows (floor : Option Instant) (t : Times) : (t.raiseTo floor).known = t.known := by
  have each (value : Option Instant) : (Times.raise floor value).isSome = value.isSome := by
    cases value with
    | none => rw [raiseNone]
    | some v => rw [raiseReach, Option.isSome_some, Option.isSome_some]
  exact Prod.ext (each t.arrival) (each t.departure)

theorem settledKnownFrom (running : Option Instant) (times : List Times) :
    (List.zipWith Times.raiseTo (Column.maxBeforeFrom running (times.map (·.latest))) times).map Times.known =
      times.map Times.known := by
  induction times generalizing running with
  | nil => rfl
  | cons first rest ih => exact congrArg₂ List.cons (raisedKnows running first) (ih _)

end Settle

end Stay

namespace StopRecord
open Stay (moments)

def times (r : StopRecord) : Stay.Times := ⟨r.stay.arrival, r.stay.departure⟩

theorem journeySettled (events : List StopEvent) : (ofJourney events).map times = Stay.settle (Stay.estimates events) := by
  have shown := congrArg (List.map fun s : Stay => Stay.Times.mk s.arrival s.departure) (journeyStays events)
  rw [List.map_map, Stay.ofEventsTimes] at shown
  exact shown

theorem journeyInOrder {events : List StopEvent} : ∀ r ∈ ofJourney events, r.times.InOrder := by
  intro r member
  have known : r.times ∈ (ofJourney events).map times := List.mem_map_of_mem member
  rw [journeySettled] at known
  exact Stay.settledInOrderFrom (Stay.estimatesInOrder events) none _ known

theorem journeyNeverBack (events : List StopEvent) : (ofJourney events).Pairwise fun r s => r.times.Before s.times := by
  have before := Stay.settledBefore (Stay.estimates events)
  rw [← journeySettled] at before
  exact List.pairwise_map.mp before

theorem journeyMoments (events : List StopEvent) :
    moments ((ofJourney events).map times) = Instant.runningMax (moments (Stay.estimates events)) := by
  rw [journeySettled, Instant.runningMaxClimb]
  exact Stay.settledClimb (Stay.estimatesInOrder events) none

structure Filled (came left : Option Instant) (t : Stay.Times) : Prop where
  arrival : t.arrival = came.or left
  departure : t.departure = left.or came

def came (e : StopEvent) : Option Instant := Option.merge max (e.gtfs.bind (·.arrival)) (e.tm.bind (·.arrival))

/- The crossing's departure, and when the vehicle was first seen on its way to the stop behind. -/
def left (e : StopEvent) : Option Instant := e.tm.bind (·.departure)
def onward (events : List StopEvent) (i : Nat) : Option Instant := events[i + 1]?.bind fun e => e.gtfs.bind (·.travelTo)

def Departs (departure : Option Instant) (e : StopEvent) (t : Stay.Times) : Prop :=
  Filled (Option.merge min (came e) departure) departure t

/- The times of each stop by itself, by the rules of the first stop, the last one and those in between. -/
structure Reconciles (events : List StopEvent) (times : List Stay.Times) : Prop where
  length : times.length = events.length
  first : ∀ e ∈ events[0]?, ∀ t ∈ times[0]?, Departs ((onward events 0).or (left e)) e t
  between : ∀ i, 0 < i → i + 1 < events.length → ∀ e ∈ events[i]?, ∀ t ∈ times[i]?,
    Departs (Option.merge min (left e) (onward events i)) e t
  last : ∀ i, 0 < i → i + 1 = events.length → ∀ e ∈ events[i]?, ∀ t ∈ times[i]?, Filled (came e) (came e) t

theorem estimateAt {events : List StopEvent} {i : Nat} {e : StopEvent} {t : Stay.Times} (known : events[i]? = some e)
    (shown : (Stay.estimates events)[i]? = some t) :
    t = (Stay.estimate events.length i e (onward events i)).complete := by
  rw [Stay.estimates, List.getElem?_map, List.getElem?_zipIdx, Nat.zero_add, Option.map_map] at shown
  obtain ⟨⟨f, departure⟩, both, rfl⟩ := Option.map_eq_some_iff.mp shown
  obtain ⟨own, next⟩ := List.getElem?_zip_eq_some.mp both
  have same : f = e := Option.some.inj (own.symm.trans known)
  have travel : departure = onward events i := by
    rw [show departure = _ from Column.nextAt next, List.getElem?_map, onward]
    cases events[i + 1]? <;> rfl
  rw [Function.comp_apply, same, travel]

theorem estimatesReconcile (events : List StopEvent) : Reconciles events (Stay.estimates events) := by
  have filled (departure : Option Instant) (e : StopEvent) :
      Departs departure e (Stay.Times.complete ⟨Column.minPresent (came e) departure, departure⟩) := by
    rw [Column.minMerges]
    exact ⟨rfl, rfl⟩
  have latest (e : StopEvent) : Column.maxPresent (Stay.gtfsArrival e) (Stay.tmArrival e) = came e := Column.maxMerges _ _
  constructor
  case length => simp [Stay.estimates, Stay.gtfsDepartures, Column.nextLength]
  case first =>
    intro e known t shown
    rw [estimateAt known shown, Stay.estimate, if_pos rfl, latest]
    exact filled _ e
  case between =>
    intro i behind ahead e known t shown
    rw [estimateAt known shown, Stay.estimate, if_neg (by omega), if_neg (by omega), latest, Column.minMerges (Stay.tmDeparture e)]
    exact filled _ e
  case last =>
    intro i behind ends e known t shown
    rw [estimateAt known shown, Stay.estimate, if_neg (by omega), if_pos ends, latest]
    exact ⟨rfl, rfl⟩

structure Raised (reconciled : List Stay.Times) (rows : List StopRecord) : Prop where
  together : ∀ r ∈ rows, r.stay.arrival.isSome = r.stay.departure.isSome
  known : rows.map (fun r => r.times.known) = reconciled.map Stay.Times.known
  running : moments (rows.map times) = Instant.runningMax (moments reconciled)
  stays : ∀ r ∈ rows, ∀ a ∈ r.stay.arrival, ∀ d ∈ r.stay.departure, a ≤ d
  onward : rows.Pairwise fun r s => ∀ d ∈ r.stay.departure, ∀ a ∈ s.stay.arrival, d ≤ a
  changed : ∀ (i : Nat) (v w : Instant), (moments reconciled)[i]? = some v → (moments (rows.map times))[i]? = some w →
    w ≠ v → ∃ j < i, ∃ u ∈ (moments reconciled)[j]?, v < u
  ascends : (moments (rows.map times)).Pairwise (· ≤ ·)
  above : List.Forall₂ (· ≤ ·) (moments reconciled) (moments (rows.map times))
  least : ∀ others, List.Forall₂ (· ≤ ·) (moments reconciled) others → others.Pairwise (· ≤ ·) →
    List.Forall₂ (· ≤ ·) (moments (rows.map times)) others

theorem raisedEstimates (events : List StopEvent) : Raised (Stay.estimates events) (ofJourney events) := by
  have climbs := journeyMoments events
  rw [Instant.runningMaxClimb] at climbs
  constructor
  case together => exact fun r member => (journeyInOrder r member).together
  case known =>
    have known := Stay.settledKnownFrom none (Stay.estimates events)
    have shown := congrArg (List.map Stay.Times.known) (journeySettled events)
    rw [List.map_map] at shown
    exact shown.trans known
  case running => exact journeyMoments events
  case stays => exact fun r member => (journeyInOrder r member).stays
  case onward =>
    refine (journeyNeverBack events).imp fun before d leaves a arrives => ?_
    exact before d a (.inr leaves) (.inl arrives)
  case changed =>
    intro i v w own raised changed
    rw [climbs] at raised
    exact (Instant.climbChanged own raised changed).resolve_left (by simp)
  case ascends =>
    rw [climbs]
    exact (Instant.climbAscends none _).1
  case above =>
    rw [climbs]
    exact Instant.climbAbove none _
  case least =>
    intro others above ordered
    rw [climbs]
    exact Instant.climbLeast above ordered (by simp)

theorem journeyRaised (events : List StopEvent) :
    ∃ reconciled, Reconciles events reconciled ∧ Raised reconciled (ofJourney events) :=
  ⟨Stay.estimates events, estimatesReconcile events, raisedEstimates events⟩

section Stale

def seenAt (travelTo arrival sensed left : Option Int) : StopEvent where
  gtfs := some { travelTo := travelTo.map .ofSeconds, arrival := arrival.map .ofSeconds }
  tm := some { arrival := sensed.map .ofSeconds, departure := left.map .ofSeconds }

/- The second departure and the last arrival are before times that were known earlier, and the third stop has no departure. -/
def staleTimes : List StopEvent :=
  [seenAt none (some 0) (some 5) (some 30), seenAt (some 20) (some 40) (some 45) (some 15),
    seenAt (some 50) (some 60) none none, seenAt none (some 55) (some 58) none]

theorem Filled.only {came left : Option Instant} {t : Stay.Times} (filled : Filled came left t) :
    t = ⟨came.or left, left.or came⟩ := by
  rw [← filled.arrival, ← filled.departure]

theorem journeyRaisedOverStale : ∃ reconciled, Reconciles staleTimes reconciled ∧ Raised reconciled (ofJourney staleTimes) ∧
    moments reconciled = [5, 20, 15, 15, 60, 60, 58, 58].map Instant.ofSeconds ∧
    moments ((ofJourney staleTimes).map times) = [5, 20, 20, 20, 60, 60, 60, 60].map Instant.ofSeconds := by
  obtain ⟨reconciled, rules, raised⟩ := journeyRaised staleTimes
  have known : moments reconciled = [5, 20, 15, 15, 60, 60, 58, 58].map Instant.ofSeconds := by
    match reconciled, rules, rules.length with
    | [t, u, v, w], rules, _ =>
      rw [(rules.first _ rfl t rfl).only, (rules.between 1 (by decide) (by decide) _ rfl u rfl).only,
        (rules.between 2 (by decide) (by decide) _ rfl v rfl).only, (rules.last 3 (by decide) rfl _ rfl w rfl).only]
      decide
  refine ⟨reconciled, rules, raised, known, ?_⟩
  rw [raised.running, known]
  decide

end Stale

end StopRecord

end TransitTimeline
