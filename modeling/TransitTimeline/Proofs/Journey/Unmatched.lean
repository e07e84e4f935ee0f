import TransitTimeline.Proofs.Journey.Choice
import TransitTimeline.Proofs.Journey.Feeds

/-! Observations that find no row. A trip that is planned has a skeleton for every vehicle, with all planned stops of the
trip in it, so only an observation of an unplanned trip or at a stop that the skeleton passes nowhere is unmatched. -/
namespace TransitTimeline.Journey
open Skeleton (partitionOf)

section Counts

theorem firstLeastNone {ρ κ : Type} [Ord κ] (key : ρ → κ) (rows : List ρ) : firstLeast key rows = none ↔ rows = [] := by
  constructor
  · intro none
    by_contra some
    have known := firstLeastIsSome key some
    rw [none] at known
    cases known
  · rintro rfl
    rfl

theorem nearestNone {skeleton : List SkeletonRow} {sequenceOf : SkeletonRow → Option Int} {stopId : String}
    {sequence : Int} : nearest? skeleton sequenceOf stopId sequence = none ↔ ∀ r ∈ skeleton, r.stopId ≠ stopId := by
  rw [nearest?, Option.map_eq_none_iff, firstLeastNone, List.filter_eq_nil_iff]
  conv => rhs; rw [← List.zipIdx_map_fst 0 skeleton]
  simp only [List.forall_mem_map, decide_eq_true_eq, ne_eq]

def findsNothing (rows : List SkeletonRow) (gtfs : List GtfsObservation) (tm : List TmObservation) (o : GtfsObservation) : Bool :=
  (skeletonOf rows gtfs tm (o.tripId, o.vehicleLabel)).all fun skeleton => skeleton.all fun r => r.stopId ≠ o.stopId

theorem joinedUnmatched (date : Day) (rows : List SkeletonRow) (gtfs : List GtfsObservation) (tm : List TmObservation) :
    (join date rows gtfs tm).counts.unmatchedGtfs = gtfs.countP (findsNothing rows gtfs tm) := by
  apply ((Feed.gtfsHandled gtfs tm).joinedUnmatched date rows).trans
  apply List.countP_congr
  intro o _
  show ((skeletonOf rows gtfs tm (o.tripId, o.vehicleLabel)).bind fun skeleton => gtfsPlace? skeleton o).isNone ↔ _
  rw [findsNothing]
  cases skeletonOf rows gtfs tm (o.tripId, o.vehicleLabel) with
  | none => simp
  | some skeleton => simp [gtfsPlace?, nearestNone]

end Counts

section Merged
variable {planned : List PlannedStop} {stops : List PulloutStop} {tolerance : Int} {m : Skeleton.Merged}

theorem skeletonSome {pullouts : Pullouts} (some : pullouts ≠ []) (j : Journey) : (skeleton? pullouts j).isSome := by
  unfold skeleton?
  split
  · contradiction
  · rfl
  · split
    · rename_i pullout named
      obtain ⟨o, first, own⟩ := Option.bind_eq_some_iff.mp named
      have names := (List.mem_filter.mp (firstLeastMem first)).2
      rw [own] at names
      exact names
    · split
      · rfl
      · rw [Option.isSome_map]
        exact firstLeastIsSome _ (List.cons_ne_nil _ _)

theorem plannedListed (ok : Skeleton.merge planned stops tolerance = .ok m) {g : PlannedStop} (member : g ∈ planned) :
    pulloutsOf (m.rows.filter (·.tripId = g.tripId)) ≠ [] := by
  have several : (Skeleton.partitionKeys planned stops).filter (·.1 = g.tripId) ≠ [] := by
    rw [Skeleton.keysOfTrip member, ne_eq, List.map_eq_nil_iff, ← List.length_eq_zero_iff, Skeleton.pulloutsLength]
    omega
  obtain ⟨⟨trip, pullout⟩, inside⟩ := List.exists_mem_of_ne_nil _ several
  obtain ⟨known, own⟩ := List.mem_filter.mp inside
  cases of_decide_eq_true own
  obtain ⟨r, first, _⟩ := (Skeleton.mergedPartition ok known).starts
  have filled : partitionOf m.rows g.tripId pullout ≠ [] := fun empty => by simp [empty] at first
  exact List.ne_nil_of_mem ((memMerged ok).mpr ⟨rfl, filled⟩)

theorem skeletonOfPlanned (ok : Skeleton.merge planned stops tolerance = .ok m) {g : PlannedStop}
    (member : g ∈ planned) (gtfs : List GtfsObservation) (tm : List TmObservation) (label : String) :
    ∃ pullout, skeletonOf m.rows gtfs tm (g.tripId, label) = some (partitionOf m.rows g.tripId pullout) ∧
      Skeleton.Partition (planned.filter (·.tripId = g.tripId)) g.tripId pullout (partitionOf m.rows g.tripId pullout) := by
  obtain ⟨skeleton, chosen⟩ := Option.isSome_iff_exists.mp
    (skeletonSome (plannedListed ok member) (observed gtfs tm (g.tripId, label)))
  obtain ⟨pullout, known⟩ := skeletonKnown chosen
  obtain ⟨rfl, filled⟩ := (memMerged ok).mp known
  exact ⟨pullout, chosen, Skeleton.filledPartition ok filled⟩

theorem skeletonOfUnplanned (ok : Skeleton.merge planned stops tolerance = .ok m) {trip : String}
    (unplanned : ∀ g ∈ planned, g.tripId ≠ trip) (gtfs : List GtfsObservation) (tm : List TmObservation) (label : String) :
    skeletonOf m.rows gtfs tm (trip, label) = none := by
  have nothing : m.rows.filter (·.tripId = trip) = [] := by
    refine List.filter_eq_nil_iff.mpr fun r member own => ?_
    have filled : partitionOf m.rows trip r.pullout ≠ [] :=
      List.ne_nil_of_mem (List.mem_filter.mpr ⟨member, by simpa using own⟩)
    obtain ⟨_, _, g, first, _⟩ := (Skeleton.filledPartition ok filled).starts
    obtain ⟨known, own⟩ := List.mem_filter.mp (List.mem_of_mem_head? first)
    exact unplanned g known (of_decide_eq_true own)
  rw [skeletonOf, nothing]
  rfl

def Unmatched (planned : List PlannedStop) (rows : List SkeletonRow) (gtfs : List GtfsObservation) (tm : List TmObservation)
    (o : GtfsObservation) : Prop :=
  (∀ g ∈ planned, g.tripId ≠ o.tripId) ∨
    ∃ skeleton, skeletonOf rows gtfs tm (o.tripId, o.vehicleLabel) = some skeleton ∧ ∀ r ∈ skeleton, r.stopId ≠ o.stopId

theorem findsNothingMerged (ok : Skeleton.merge planned stops tolerance = .ok m) (gtfs : List GtfsObservation)
    (tm : List TmObservation) (o : GtfsObservation) :
    findsNothing m.rows gtfs tm o = true ↔ Unmatched planned m.rows gtfs tm o := by
  unfold findsNothing Unmatched
  by_cases unplanned : ∀ g ∈ planned, g.tripId ≠ o.tripId
  · rw [skeletonOfUnplanned ok unplanned]
    exact iff_of_true rfl (.inl unplanned)
  · obtain ⟨g, member, own⟩ : ∃ g ∈ planned, g.tripId = o.tripId := by simpa using unplanned
    obtain ⟨pullout, chosen, _⟩ := skeletonOfPlanned ok member gtfs tm o.vehicleLabel
    rw [own] at chosen
    simp only [chosen, unplanned, false_or]
    simp

open Classical in
theorem unmatchedExactly (planned : List PlannedStop) (stops : List PulloutStop) (tolerance : Int) (m : Skeleton.Merged)
    (ok : Skeleton.merge planned stops tolerance = .ok m) (date : Day) (gtfs : List GtfsObservation)
    (tm : List TmObservation) :
    (join date m.rows gtfs tm).counts.unmatchedGtfs = gtfs.countP (fun o => decide (Unmatched planned m.rows gtfs tm o)) ∧
    (∀ g ∈ planned, ∀ label, (skeletonOf m.rows gtfs tm (g.tripId, label)).isSome) ∧
    ∀ o ∈ gtfs, (∃ g ∈ planned, g.tripId = o.tripId ∧ g.stopId = o.stopId) → ¬Unmatched planned m.rows gtfs tm o := by
  refine ⟨?_, fun g member label => ?_, ?_⟩
  · rw [joinedUnmatched]
    exact List.countP_congr fun o _ => by simp [findsNothingMerged ok]
  · obtain ⟨pullout, chosen, _⟩ := skeletonOfPlanned ok member gtfs tm label
    simp [chosen]
  · rintro o _ ⟨g, member, trip, stop⟩ (unplanned | ⟨skeleton, chosen, nowhere⟩)
    · exact unplanned g member trip
    · obtain ⟨pullout, whole, partition⟩ := skeletonOfPlanned ok member gtfs tm o.vehicleLabel
      rw [trip] at whole
      cases chosen.symm.trans whole
      have own : g ∈ planned.filter (·.tripId = g.tripId) := List.mem_filter.mpr ⟨member, by simp⟩
      obtain ⟨r, inside, shows⟩ := pairedMem partition.shows own
      exact nowhere r (trip ▸ List.mem_of_mem_filter inside) (shows.stopId.trans stop)

/- The pullout passes the stop y before the planned trip starts; its row there is trimmed. The observations are at the
planned stop with a foreign sequence, at y and of another trip. -/
theorem unmatchedAtTrimmedStop :
    let g : PlannedStop := { tripId := "1", stopId := "a", sequence := 1, departure := some ⟨0⟩ }
    let stops : List PulloutStop := [("y", 1), ("a", 2)].map fun (stopId, sequence) =>
      { tripId := "1", pullout := 7, stopId, sequence, departure := some ⟨0⟩ }
    let gtfs : List GtfsObservation := [("1", "a"), ("1", "y"), ("2", "a")].map fun (tripId, stopId) =>
      { tripId, stopId, sequence := 40, vehicleLabel := "9" }
    ∃ m, Skeleton.merge [g] stops 0 = .ok m ∧ (join ⟨0⟩ m.rows gtfs []).counts.unmatchedGtfs = 2 ∧
      ∀ o ∈ gtfs, o.tripId = "1" → o.stopId = "a" → ¬Unmatched [g] m.rows gtfs [] o := by
  intro g stops gtfs
  have counted : ((Skeleton.merge [g] stops 0).map fun m => (join ⟨0⟩ m.rows gtfs []).counts.unmatchedGtfs) = .ok 2 := by
    cbv
  cases ok : Skeleton.merge [g] stops 0 with
  | error e => rw [ok] at counted; cases counted
  | ok m =>
    obtain ⟨_, _, planned⟩ := unmatchedExactly [g] stops 0 m ok ⟨0⟩ gtfs []
    rw [ok] at counted
    refine ⟨m, rfl, Except.ok.inj counted, fun o member trip stop => planned o member ⟨g, List.mem_singleton_self g, ?_⟩⟩
    exact ⟨trip.symm, stop.symm⟩

end Merged

end TransitTimeline.Journey
