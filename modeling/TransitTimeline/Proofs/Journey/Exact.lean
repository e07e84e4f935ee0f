import TransitTimeline.Proofs.Gathering
import TransitTimeline.Proofs.Journey.Attached
import TransitTimeline.Proofs.Journey.Unmatched

/-! Observations at a row with their very sequence. A row at the stop that its source does not number goes by its position,
so one that stands earlier and whose position happens to be that sequence takes the observation. -/
namespace TransitTimeline.Journey
open Std

def sequenceDistance (sequenceOf : SkeletonRow → Option Int) (sequence : Int) (r : SkeletonRow) : Nat :=
  (((sequenceOf r).getD r.position) - sequence).natAbs

section Nearest
variable {skeleton : List SkeletonRow} {sequenceOf : SkeletonRow → Option Int} {stopId : String} {sequence : Int}

structure NearestRow (skeleton : List SkeletonRow) (sequenceOf : SkeletonRow → Option Int) (stopId : String) (sequence : Int)
    (place : Nat) (r : SkeletonRow) : Prop where
  row : skeleton[place]? = some r
  stop : r.stopId = stopId
  least : ∀ other s, skeleton[other]? = some s → s.stopId = stopId →
    sequenceDistance sequenceOf sequence r < sequenceDistance sequenceOf sequence s ∨
      sequenceDistance sequenceOf sequence r = sequenceDistance sequenceOf sequence s ∧ place ≤ other

theorem nearestRow {place : Nat} (found : nearest? skeleton sequenceOf stopId sequence = some place) :
    ∃ r, NearestRow skeleton sequenceOf stopId sequence place r := by
  obtain ⟨⟨r, _⟩, first, rfl⟩ := Option.map_eq_some_iff.mp found
  obtain ⟨known, own⟩ := List.mem_filter.mp (firstLeastMem first)
  refine ⟨r, List.mem_zipIdx_iff_getElem?.mp known, of_decide_eq_true own, ?_⟩
  intro other s there stop
  have listed : (s, other) ∈ skeleton.zipIdx := List.mem_zipIdx_iff_getElem?.mpr there
  have behind := firstLeastLeast first (s, other) (List.mem_filter.mpr ⟨listed, decide_eq_true stop⟩)
  simpa [sequenceDistance, comparePair, Ordering.isLE_then_iff_or, Nat.compare_eq_lt, Nat.compare_eq_eq, Nat.isLE_compare]
    using behind

def Exact (sequenceOf : SkeletonRow → Option Int) (stopId : String) (sequence : Int) (r : SkeletonRow) : Prop :=
  r.stopId = stopId ∧ sequenceOf r = some sequence

/- A row that the source does not number is at the stop, and no row before it is exact. -/
def Displaced (skeleton : List SkeletonRow) (sequenceOf : SkeletonRow → Option Int) (stopId : String) (sequence : Int) : Prop :=
  ∃ (place : Nat) (r : SkeletonRow), skeleton[place]? = some r ∧ r.stopId = stopId ∧ sequenceOf r = none ∧
    r.position = sequence ∧ ∀ other < place, ∀ s, skeleton[other]? = some s → ¬Exact sequenceOf stopId sequence s

theorem Exact.distance {r : SkeletonRow} (exact' : Exact sequenceOf stopId sequence r) :
    sequenceDistance sequenceOf sequence r = 0 := by
  rw [sequenceDistance, exact'.2]
  simp

def ExactUnlessDisplaced (skeleton : List SkeletonRow) (sequenceOf : SkeletonRow → Option Int) (stopId : String)
    (sequence : Int) (r : SkeletonRow) : Prop :=
  (∃ e ∈ skeleton, Exact sequenceOf stopId sequence e) →
    (Exact sequenceOf stopId sequence r ↔ ¬Displaced skeleton sequenceOf stopId sequence)

theorem NearestRow.exactUnlessDisplaced {place : Nat} {r : SkeletonRow}
    (nearest : NearestRow skeleton sequenceOf stopId sequence place r) :
    ExactUnlessDisplaced skeleton sequenceOf stopId sequence r := by
  intro known
  obtain ⟨e, member, own⟩ := known
  obtain ⟨spot, there⟩ := List.getElem?_of_mem member
  have zero : sequenceDistance sequenceOf sequence r = 0 := by
    have against := nearest.least spot e there own.1
    rw [own.distance] at against
    omega
  constructor
  · intro numbered displaced
    obtain ⟨p, s, here, stop, unnumbered, position, before⟩ := displaced
    -- the other row is as near, so it does not stand before this one, which is exact and so not before it either
    have same : sequenceDistance sequenceOf sequence s = 0 := by simp [sequenceDistance, unnumbered, position]
    have against := nearest.least p s here stop
    have behind : ¬place < p := fun earlier => before place earlier r nearest.row numbered
    have equal : place = p := by omega
    rw [← equal] at here
    cases here.symm.trans nearest.row
    cases unnumbered.symm.trans numbered.2
  · intro fits
    cases numbered : sequenceOf r with
    | some n =>
      rw [sequenceDistance, numbered] at zero
      have equal : n = sequence := by simpa [Int.sub_eq_zero] using zero
      exact ⟨nearest.stop, numbered.trans (congrArg some equal)⟩
    | none =>
      rw [sequenceDistance, numbered] at zero
      have position : r.position = sequence := by simpa [Int.sub_eq_zero] using zero
      refine absurd ⟨place, r, nearest.row, nearest.stop, numbered, position, ?_⟩ fits
      intro other earlier s here exact'
      have against := nearest.least other s here exact'.1
      rw [exact'.distance] at against
      omega

theorem nearestKnown (known : ∃ e ∈ skeleton, e.stopId = stopId) :
    ∃ (place : Nat) (r : SkeletonRow), nearest? skeleton sequenceOf stopId sequence = some place ∧ skeleton[place]? = some r ∧
      ExactUnlessDisplaced skeleton sequenceOf stopId sequence r := by
  obtain ⟨e, member, own⟩ := known
  cases found : nearest? skeleton sequenceOf stopId sequence with
  | none => exact absurd own (nearestNone.mp found e member)
  | some place =>
    obtain ⟨r, nearest⟩ := nearestRow found
    exact ⟨place, r, rfl, nearest.row, nearest.exactUnlessDisplaced⟩

theorem nearestPlaced {place : Nat} {r : SkeletonRow} (found : nearest? skeleton sequenceOf stopId sequence = some place)
    (row : skeleton[place]? = some r) : ExactUnlessDisplaced skeleton sequenceOf stopId sequence r := by
  obtain ⟨s, nearest⟩ := nearestRow found
  cases row.symm.trans nearest.row
  exact nearest.exactUnlessDisplaced

end Nearest

section Join
variable {date : Day} {schedule : List SkeletonRow} {gtfs : List GtfsObservation} {tm : List TmObservation}

theorem joinedExact {e : StopEvent} (member : e ∈ (join date schedule gtfs tm).events) :
    ∃ skeleton, skeletonOf schedule gtfs tm e.key = some skeleton ∧ e.row ∈ skeleton ∧
      (∀ o ∈ e.gtfs, ExactUnlessDisplaced skeleton (·.gtfsSequence) o.stopId o.sequence e.row) ∧
      ∀ o ∈ e.tm, ExactUnlessDisplaced skeleton (·.tmSequence) o.stopId o.sequence e.row := by
  obtain ⟨j, known, same, skeleton, chosen, along⟩ := eventAlong member
  obtain ⟨a, kept, rfl⟩ := List.mem_map.mp along
  obtain ⟨place, stands⟩ := (attachedStands skeleton j).1 a ((keptSublist j skeleton).subset kept)
  refine ⟨skeleton, ?_, List.mem_of_getElem? stands.row, fun o shown => ?_, fun o shown => ?_⟩
  · rw [skeletonOf, ← same, ← observedOf known, same]
    exact chosen
  · exact nearestPlaced (stands.gtfs o shown).2 stands.row
  · exact nearestPlaced (stands.tm o shown).2 stands.row

theorem joinExactUnlessDisplaced (date : Day) (schedule : List SkeletonRow) (gtfs : List GtfsObservation)
    (tm : List TmObservation) :
    (∀ o ∈ gtfs, ∀ skeleton, skeletonOf schedule gtfs tm (o.tripId, o.vehicleLabel) = some skeleton →
      (∃ r ∈ skeleton, r.stopId = o.stopId) → ∃ (place : Nat) (r : SkeletonRow), gtfsPlace? skeleton o = some place ∧
        skeleton[place]? = some r ∧ ExactUnlessDisplaced skeleton (·.gtfsSequence) o.stopId o.sequence r) ∧
    (∀ o ∈ tm, ∀ skeleton, skeletonOf schedule gtfs tm (o.tripId, o.vehicleLabel) = some skeleton →
      (∃ r ∈ skeleton, r.stopId = o.stopId) → ∃ (place : Nat) (r : SkeletonRow), tmPlace? skeleton o = some place ∧
        skeleton[place]? = some r ∧ ExactUnlessDisplaced skeleton (·.tmSequence) o.stopId o.sequence r) ∧
    ∀ e ∈ (join date schedule gtfs tm).events, ∃ skeleton, skeletonOf schedule gtfs tm e.key = some skeleton ∧
      e.row ∈ skeleton ∧ (∀ o ∈ e.gtfs, ExactUnlessDisplaced skeleton (·.gtfsSequence) o.stopId o.sequence e.row) ∧
        ∀ o ∈ e.tm, ExactUnlessDisplaced skeleton (·.tmSequence) o.stopId o.sequence e.row := by
  constructor
  · intro o _ skeleton _ known
    exact nearestKnown known
  constructor
  · intro o _ skeleton _ known
    exact nearestKnown known
  · intro e member
    exact joinedExact member

end Join

/- GTFS passes the stop b twice, the pullout only once, and the pullout's number of it is the position of the first time. -/
section Loop

def loopStops : List PlannedStop := [("a", 1, 0), ("x", 2, 60), ("b", 3, 120), ("c", 4, 300), ("b", 5, 600)].map
  fun (stopId, sequence, seconds) => { tripId := "1", stopId, sequence, departure := some (.ofSeconds seconds) }

def loopPullout : List PulloutStop := [("a", 1, 0), ("c", 2, 300), ("b", 3, 600)].map
  fun (stopId, sequence, seconds) => { tripId := "1", pullout := 7, stopId, sequence, departure := some (.ofSeconds seconds) }

def loopCrossings : List TmObservation := [("c", 2), ("b", 3)].map fun (stopId, sequence) =>
  { tripId := "1", stopId, sequence, vehicleLabel := "9", pullout := some 7, arrival := some (.ofSeconds 600) }

def loopSeen (m : Skeleton.Merged) :
    Option (List (String × Option Int) × List (Option (Option Int))) × List (Int × Option Int) :=
  ((skeletonOf m.rows [] loopCrossings ("1", "9")).map fun skeleton => (skeleton.map fun r => (r.stopId, r.tmSequence),
      loopCrossings.map fun o => ((tmPlace? skeleton o).bind fun place => skeleton[place]?).map (·.tmSequence)),
    (join ⟨0⟩ m.rows [] loopCrossings).events.map fun e => (e.row.position, e.tm.map (·.sequence)))

theorem loopEvaluated : ((Skeleton.merge loopStops loopPullout Skeleton.halfHour).map loopSeen).toOption =
    some (some ([("a", some 1), ("x", none), ("b", none), ("c", some 2), ("b", some 3)], [some (some 2), some none]),
      [(3, some 3), (4, some 2)]) := by
  cbv

theorem loopMerged : ∃ m skeleton, Skeleton.merge loopStops loopPullout Skeleton.halfHour = .ok m ∧
    skeletonOf m.rows [] loopCrossings ("1", "9") = some skeleton ∧
    skeleton.map (fun r => (r.stopId, r.tmSequence)) = [("a", some 1), ("x", none), ("b", none), ("c", some 2), ("b", some 3)] ∧
    loopCrossings.map (fun o => ((tmPlace? skeleton o).bind fun place => skeleton[place]?).map (·.tmSequence)) =
      [some (some 2), some none] ∧
    (join ⟨0⟩ m.rows [] loopCrossings).events.map (fun e => (e.row.position, e.tm.map (·.sequence))) =
      [(3, some 3), (4, some 2)] := by
  have evaluated := loopEvaluated
  cases ok : Skeleton.merge loopStops loopPullout Skeleton.halfHour with
  | error e => rw [ok] at evaluated; cases evaluated
  | ok m =>
    rw [ok] at evaluated
    obtain ⟨seen, events⟩ := Prod.mk.inj (Option.some.inj evaluated)
    obtain ⟨skeleton, chosen, shape⟩ := Option.map_eq_some_iff.mp seen
    obtain ⟨rows, places⟩ := Prod.mk.inj shape
    exact ⟨m, skeleton, rfl, chosen, rows, places, events⟩

theorem joinExactOffLoop : ∃ m skeleton, Skeleton.merge loopStops loopPullout Skeleton.halfHour = .ok m ∧
    skeletonOf m.rows [] loopCrossings ("1", "9") = some skeleton ∧
    ∃ (o : TmObservation) (place : Nat) (r : SkeletonRow), o ∈ loopCrossings ∧ tmPlace? skeleton o = some place ∧
      skeleton[place]? = some r ∧ Exact (·.tmSequence) "c" 2 r := by
  obtain ⟨m, skeleton, ok, chosen, rows, _⟩ := loopMerged
  have member : ("c", some 2) ∈ skeleton.map fun r => (r.stopId, r.tmSequence) := by rw [rows]; decide
  obtain ⟨e, inside, own⟩ := List.mem_map.mp member
  obtain ⟨stop, number⟩ := Prod.mk.inj own
  have fits : ¬Displaced skeleton (·.tmSequence) "c" 2 := by
    intro displaced
    obtain ⟨_, r, here, stop, unnumbered, _⟩ := displaced
    change r.tmSequence = none at unnumbered
    have known : (r.stopId, r.tmSequence) ∈ skeleton.map fun r => (r.stopId, r.tmSequence) :=
      List.mem_map_of_mem (List.mem_of_getElem? here)
    rw [rows, stop, unnumbered] at known
    revert known
    decide
  obtain ⟨place, r, found, here, exactly⟩ := (joinExactUnlessDisplaced ⟨0⟩ m.rows [] loopCrossings).2.1 _ List.mem_cons_self
    skeleton chosen ⟨e, inside, stop⟩
  exact ⟨m, skeleton, ok, chosen, _, place, r, List.mem_cons_self, found, here, (exactly ⟨e, inside, stop, number⟩).mpr fits⟩

/- The crossing at the second time is put to the first one, though the row of the second time has its number. -/
theorem exactDisplacedOnLoop : ∃ m skeleton, Skeleton.merge loopStops loopPullout Skeleton.halfHour = .ok m ∧
    skeletonOf m.rows [] loopCrossings ("1", "9") = some skeleton ∧
    (∃ o ∈ loopCrossings, (∃ r ∈ skeleton, r.stopId = o.stopId ∧ r.tmSequence = some o.sequence) ∧
      ∃ (place : Nat) (r : SkeletonRow), tmPlace? skeleton o = some place ∧ skeleton[place]? = some r ∧
        r.tmSequence ≠ some o.sequence) ∧
    (join ⟨0⟩ m.rows [] loopCrossings).events.map (fun e => (e.row.position, e.tm.map (·.sequence))) =
      [(3, some 3), (4, some 2)] := by
  obtain ⟨m, skeleton, ok, chosen, rows, places, events⟩ := loopMerged
  have member : ("b", some 3) ∈ skeleton.map fun r => (r.stopId, r.tmSequence) := by rw [rows]; decide
  obtain ⟨e, inside, own⟩ := List.mem_map.mp member
  obtain ⟨stop, number⟩ := Prod.mk.inj own
  obtain ⟨_, second⟩ := List.cons.inj places
  obtain ⟨assigned, _⟩ := List.cons.inj second
  obtain ⟨r, found, unnumbered⟩ := Option.map_eq_some_iff.mp assigned
  obtain ⟨place, found, here⟩ := Option.bind_eq_some_iff.mp found
  have other : r.tmSequence ≠ some 3 := by simp [unnumbered]
  exact ⟨m, skeleton, ok, chosen,
    ⟨_, List.mem_cons_of_mem _ List.mem_cons_self, ⟨e, inside, stop, number⟩, place, r, found, here, other⟩, events⟩

end Loop

end TransitTimeline.Journey
