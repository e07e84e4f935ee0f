import TransitTimeline.Proofs.Gathering
import TransitTimeline.Proofs.Schedule.Accounts
import TransitTimeline.Proofs.ServiceTime

/-! Trips that are merged by themselves. The merged schedule of many trips holds of each what merging this trip alone gives,
its counts are the sums of theirs, and it fails only where one of them fails. -/
namespace TransitTimeline.Skeleton
open Std

section Trips
variable {planned : List PlannedStop} {stops : List PulloutStop} {tolerance : Int} {trip : String} {m : Merged}

def plannedTrips (planned : List PlannedStop) : List String := (Groups.ofRows (·.tripId) planned).keys

theorem memPlannedTrips : trip ∈ plannedTrips planned ↔ planned.filter (·.tripId = trip) ≠ [] := by
  rw [plannedTrips, TreeMap.mem_keys, Groups.memKeys, ne_eq, List.filter_eq_nil_iff]
  simp

theorem plannedTripsDistinct (planned : List PlannedStop) : (plannedTrips planned).Nodup :=
  orderedDistinct TreeMap.ordered_keys

theorem tripOfOwn {other : String} (filled : (planned.filter (·.tripId = trip)).filter (·.tripId = other) ≠ []) :
    other = trip := by
  obtain ⟨g, inside⟩ := List.exists_mem_of_ne_nil _ filled
  obtain ⟨inside, own⟩ := List.mem_filter.mp inside
  exact (of_decide_eq_true own).symm.trans (of_decide_eq_true (List.mem_filter.mp inside).2)

theorem plannedTripsOfOne (some : planned.filter (·.tripId = trip) ≠ []) :
    plannedTrips (planned.filter (·.tripId = trip)) = [trip] := by
  have known (other : String) : other ∈ plannedTrips (planned.filter (·.tripId = trip)) ↔ other ∈ [trip] := by
    rw [memPlannedTrips, List.mem_singleton]
    constructor
    · exact tripOfOwn
    · intro same
      simpa [same] using some
  exact List.perm_singleton.mp ((List.perm_ext_iff_of_nodup (plannedTripsDistinct _) (List.nodup_singleton trip)).mpr known)

def mergeOwn (tolerance : Int) (planned : List PlannedStop) (stops : List PulloutStop) (trip : String) :
    Except Failure Merged :=
  mergeTrip tolerance trip (planned.filter (·.tripId = trip)) (stops.filter (·.tripId = trip))

def ofTrip (planned : List PlannedStop) (stops : List PulloutStop) (tolerance : Int) (trip : String) :
    Except Failure Merged :=
  merge (planned.filter (·.tripId = trip)) (stops.filter (·.tripId = trip)) tolerance

theorem containsKnown (planned : List PlannedStop) (t : PulloutStop) :
    (Groups.ofRows (·.tripId) planned).contains t.tripId = isKnown planned t := by
  rw [Bool.eq_iff_iff, TreeMap.contains_iff_mem, Groups.memKeys, isKnown]
  simp

theorem mergeByTrip (planned : List PlannedStop) (stops : List PulloutStop) (tolerance : Int) :
    merge planned stops tolerance =
      ((plannedTrips planned).mapM (mergeOwn tolerance planned stops)).map fun merged =>
        ⟨(Merged.concat merged).rows,
          (Merged.concat merged).counts.plus { excluded := stops.countP fun t => !isKnown planned t }⟩ := by
  have each : ((Groups.ofRows (·.tripId) planned).toList.mapM fun group =>
      mergeTrip tolerance group.1 group.2 ((Groups.ofRows (·.tripId) stops).rows group.1)) =
      (plannedTrips planned).mapM (mergeOwn tolerance planned stops) := by
    rw [Groups.listed, List.mapM_map]
    simp only [Function.comp_def, Groups.rowsOfKey]
    rfl
  unfold merge
  simp only [containsKnown, each, bind, Except.bind]
  cases (plannedTrips planned).mapM (mergeOwn tolerance planned stops) <;> rfl

theorem ofTripPlanned (stops : List PulloutStop) (tolerance : Int) (known : trip ∈ plannedTrips planned) :
    ofTrip planned stops tolerance trip = mergeOwn tolerance planned stops trip := by
  obtain ⟨g, member⟩ := List.exists_mem_of_ne_nil _ (memPlannedTrips.mp known)
  have all : (stops.filter (·.tripId = trip)).countP (fun t => !isKnown (planned.filter (·.tripId = trip)) t) = 0 := by
    apply List.countP_eq_zero.mpr
    intro t inside
    have trips : g.tripId = t.tripId :=
      (of_decide_eq_true (List.mem_filter.mp member).2).trans (of_decide_eq_true (List.mem_filter.mp inside).2).symm
    have known : isKnown (planned.filter (·.tripId = trip)) t = true := List.any_eq_true.mpr ⟨g, member, by simpa using trips⟩
    simp [known]
  have own : mergeOwn tolerance (planned.filter (·.tripId = trip)) (stops.filter (·.tripId = trip)) trip =
      mergeOwn tolerance planned stops trip := by
    simp [mergeOwn]
  rw [ofTrip, mergeByTrip, plannedTripsOfOne (memPlannedTrips.mp known), all, List.mapM_cons, own]
  cases mergeOwn tolerance planned stops trip with
  | error e => rfl
  | ok part => simp [bind, Except.bind, pure, Except.pure, Except.map, Merged.concat, Counts.sum, Counts.plus]

theorem ofTripUnplanned (stops : List PulloutStop) (tolerance : Int) (unknown : trip ∉ plannedTrips planned) :
    ofTrip planned stops tolerance trip = .ok ⟨[], { excluded := (stops.filter (·.tripId = trip)).length }⟩ := by
  have none : planned.filter (·.tripId = trip) = [] := by_contra fun some => unknown (memPlannedTrips.mpr some)
  have nothing : plannedTrips [] = [] := List.eq_nil_iff_forall_not_mem.mpr fun other known => by
    simpa using memPlannedTrips.mp known
  have all : (stops.filter (·.tripId = trip)).countP (fun t => !isKnown [] t) = (stops.filter (·.tripId = trip)).length :=
    List.countP_eq_length.mpr fun t _ => rfl
  rw [ofTrip, none, mergeByTrip, nothing, all]
  simp [pure, Except.pure, Except.map, Merged.concat, Counts.sum, Counts.plus]

theorem ofTripRows (ok : ofTrip planned stops tolerance trip = .ok m) : ∀ r ∈ m.rows, r.tripId = trip := by
  intro r member
  have listed := (mergedSections ok).keyKnown (fun _ _ partition => partition.key) r member
  exact tripOfOwn (keyPlanned listed)

end Trips

namespace Counts

theorem plusComm (a b : Counts) : a.plus b = b.plus a := by
  simp [plus, Nat.add_comm]

theorem sumReordered {xs ys : List Counts} (perm : xs.Perm ys) : sum xs = sum ys := by
  induction perm with
  | nil => rfl
  | cons c _ ih => exact congrArg c.plus ih
  | swap a b rest =>
    have swapped := congrArg (plus · (sum rest)) (plusComm b a)
    simpa [sum, plusAssoc] using swapped
  | trans _ _ first second => exact first.trans second

theorem sumExcluded {κ : Type} (keys : List κ) (size : κ → Nat) :
    sum (keys.map fun k => { excluded := size k }) = { excluded := (keys.map size).sum } := by
  induction keys with
  | nil => rfl
  | cons k rest ih => simpa [sum, plus] using congrArg (plus { excluded := size k }) ih

end Counts

def tripIds (planned : List PlannedStop) (stops : List PulloutStop) : List String :=
  (planned.map (·.tripId) ++ stops.map (·.tripId)).dedup

section Apart
variable {planned : List PlannedStop} {stops : List PulloutStop} {tolerance : Int} {m : Merged}

theorem mergedAlone (planned : List PlannedStop) (stops : List PulloutStop) (tolerance : Int) :
    (∃ m, merge planned stops tolerance = .ok m) ↔ ∀ trip, ∃ m, ofTrip planned stops tolerance trip = .ok m := by
  have whole : (∃ m, merge planned stops tolerance = .ok m) ↔
      ∃ parts, (plannedTrips planned).mapM (mergeOwn tolerance planned stops) = .ok parts := by
    rw [mergeByTrip]
    cases (plannedTrips planned).mapM (mergeOwn tolerance planned stops) <;> simp [Except.map]
  rw [whole, mapMReturns]
  constructor
  · intro returns trip
    by_cases known : trip ∈ plannedTrips planned
    · rw [ofTripPlanned stops tolerance known]
      exact returns trip known
    · exact ⟨_, ofTripUnplanned stops tolerance known⟩
  · intro returns trip known
    rw [← ofTripPlanned stops tolerance known]
    exact returns trip

theorem concatMap {κ : Type} (alone : κ → Merged) (keys : List κ) : Merged.concat (keys.map alone) =
    ⟨keys.flatMap fun k => (alone k).rows, .sum (keys.map fun k => (alone k).counts)⟩ := by
  simp [Merged.concat, List.flatMap_map, Function.comp_def]

theorem mergedTrips (ok : merge planned stops tolerance = .ok m) {alone : String → Merged}
    (each : ∀ trip, ofTrip planned stops tolerance trip = .ok (alone trip)) :
    m.rows = (plannedTrips planned).flatMap (fun trip => (alone trip).rows) ∧
      m.counts = (Counts.sum ((plannedTrips planned).map fun trip => (alone trip).counts)).plus
        { excluded := stops.countP fun t => !isKnown planned t } := by
  have parts : (plannedTrips planned).mapM (mergeOwn tolerance planned stops) = .ok ((plannedTrips planned).map alone) := by
    apply mapMExactly.mpr
    rw [List.map_map]
    exact List.map_congr_left fun trip known => (ofTripPlanned stops tolerance known).symm.trans (each trip)
  rw [mergeByTrip, parts] at ok
  cases ok
  dsimp only
  rw [concatMap]
  exact ⟨rfl, rfl⟩

theorem memTripIds {trip : String} :
    trip ∈ tripIds planned stops ↔ (∃ g ∈ planned, g.tripId = trip) ∨ ∃ t ∈ stops, t.tripId = trip := by
  simp [tripIds]

theorem tripIdsSplit (planned : List PlannedStop) (stops : List PulloutStop) : (plannedTrips planned ++
    (tripIds planned stops).filter fun trip => !decide (trip ∈ plannedTrips planned)).Perm (tripIds planned stops) := by
  have distinct : (tripIds planned stops).Nodup := List.nodup_dedup _
  have known : (plannedTrips planned).Perm
      ((tripIds planned stops).filter fun trip => decide (trip ∈ plannedTrips planned)) := by
    apply (List.perm_ext_iff_of_nodup (plannedTripsDistinct planned) (distinct.filter _)).mpr
    intro trip
    rw [List.mem_filter, decide_eq_true_eq]
    constructor
    · intro known
      obtain ⟨g, member⟩ := List.exists_mem_of_ne_nil _ (memPlannedTrips.mp known)
      obtain ⟨member, own⟩ := List.mem_filter.mp member
      exact ⟨memTripIds.mpr (.inl ⟨g, member, of_decide_eq_true own⟩), known⟩
    · exact fun both => both.2
  exact (known.append_right _).trans (List.filter_append_perm _ _)

theorem excludedTrips (planned : List PlannedStop) (stops : List PulloutStop) :
    (((tripIds planned stops).filter fun trip => !decide (trip ∈ plannedTrips planned)).map fun trip =>
      (stops.filter (·.tripId = trip)).length).sum = stops.countP fun t => !isKnown planned t := by
  have distinct : ((tripIds planned stops).filter fun trip => !decide (trip ∈ plannedTrips planned)).Nodup :=
    (List.nodup_dedup _).filter _
  have own : ∀ t ∈ stops, (!isKnown planned t) = true ↔
      t.tripId ∈ (tripIds planned stops).filter fun trip => !decide (trip ∈ plannedTrips planned) := by
    intro t member
    have listed : t.tripId ∈ tripIds planned stops := memTripIds.mpr (.inr ⟨t, member, rfl⟩)
    have known : t.tripId ∈ plannedTrips planned ↔ isKnown planned t := by
      rw [← containsKnown, TreeMap.contains_iff_mem, plannedTrips, TreeMap.mem_keys]
    rw [List.mem_filter]
    simp [listed, known]
  have all := (gathered distinct own).length_eq
  rwa [List.length_flatMap, ← List.countP_eq_length_filter] at all

theorem mergedFromAlone (ok : merge planned stops tolerance = .ok m) {alone : String → Merged}
    (each : ∀ trip, ofTrip planned stops tolerance trip = .ok (alone trip)) :
    (∀ trip, m.rows.filter (·.tripId = trip) = (alone trip).rows) ∧
      m.counts = Counts.sum ((tripIds planned stops).map fun trip => (alone trip).counts) := by
  obtain ⟨rows, counts⟩ := mergedTrips ok each
  have only {trip : String} (unknown : trip ∉ plannedTrips planned) :
      alone trip = ⟨[], { excluded := (stops.filter (·.tripId = trip)).length }⟩ :=
    Except.ok.inj ((each trip).symm.trans (ofTripUnplanned stops tolerance unknown))
  constructor
  · intro trip
    have sections : Sections (fun trip rows => rows = (alone trip).rows) (plannedTrips planned) m.rows := by
      have listed : Sections (fun trip rows => rows = (alone trip).rows) ((plannedTrips planned).map id)
          ((plannedTrips planned).flatMap fun trip => (alone trip).rows) :=
        .ofPaired (List.forall₂_same.mpr fun _ _ => rfl)
      rwa [List.map_id, ← rows] at listed
    have own : ∀ trip rows, rows = (alone trip).rows → ∀ r ∈ rows, r.tripId = trip := by
      intro trip _ same
      rw [same]
      exact ofTripRows (each trip)
    by_cases known : trip ∈ plannedTrips planned
    · exact sections.filterOwn own (plannedTripsDistinct planned) known
    · rw [sections.filterOther own known, only known]
  · have unplanned : ∀ trip ∈ (tripIds planned stops).filter fun trip => !decide (trip ∈ plannedTrips planned),
        (alone trip).counts = { excluded := (stops.filter (·.tripId = trip)).length } := by
      intro trip member
      have unknown := (List.mem_filter.mp member).2
      rw [only (by simpa using unknown)]
    rw [counts, ← Counts.sumReordered ((tripIdsSplit planned stops).map _), List.map_append, Counts.sumAppend,
      List.map_congr_left unplanned, Counts.sumExcluded, excludedTrips]

end Apart

section Interleaved
variable {planned others : List PlannedStop} {stops otherStops : List PulloutStop} {tolerance : Int}

theorem plannedTripsAlike (alike : Alike (·.tripId) planned others) : plannedTrips others = plannedTrips planned := by
  rw [plannedTrips, plannedTrips, ← TreeMap.map_fst_toList_eq_keys, ← TreeMap.map_fst_toList_eq_keys, alike.groups]

theorem mergeTripAlike (alike : Alike (·.pullout) stops otherStops) (trip : String) (rows : List PlannedStop) :
    mergeTrip tolerance trip rows otherStops = mergeTrip tolerance trip rows stops := by
  rw [mergeTrip, mergeTrip, alike.groups, alike.perm.isEmpty_eq]

theorem mergeOwnAlike (alike : Alike (·.tripId) planned others)
    (alikeStops : Alike (fun t => (t.tripId, t.pullout)) stops otherStops) (trip : String) :
    mergeOwn tolerance others otherStops trip = mergeOwn tolerance planned stops trip := by
  have pullouts : Alike (·.pullout) (stops.filter (·.tripId = trip)) (otherStops.filter (·.tripId = trip)) := by
    intro pullout
    have same := alikeStops (trip, pullout)
    simpa [List.filter_filter, Bool.and_comm] using same
  rw [mergeOwn, mergeOwn, ← alike trip, mergeTripAlike pullouts]

theorem mergeAlike (alike : Alike (·.tripId) planned others)
    (alikeStops : Alike (fun t => (t.tripId, t.pullout)) stops otherStops) :
    merge others otherStops tolerance = merge planned stops tolerance := by
  have known : isKnown others = isKnown planned := funext fun t => alike.perm.symm.any_eq
  have own : mergeOwn tolerance others otherStops = mergeOwn tolerance planned stops :=
    funext (mergeOwnAlike alike alikeStops)
  rw [mergeByTrip, mergeByTrip, plannedTripsAlike alike, own, known, alikeStops.perm.countP_eq]

end Interleaved

theorem mergedTripByTrip (planned : List PlannedStop) (stops : List PulloutStop) (tolerance : Int) :
    ((∃ m, merge planned stops tolerance = .ok m) ↔ ∀ trip, ∃ m, ofTrip planned stops tolerance trip = .ok m) ∧
    (∀ m, merge planned stops tolerance = .ok m → ∃ alone : String → Merged,
      (∀ trip, ofTrip planned stops tolerance trip = .ok (alone trip) ∧ m.rows.filter (·.tripId = trip) = (alone trip).rows) ∧
        m.counts = Counts.sum ((tripIds planned stops).map fun trip => (alone trip).counts)) ∧
    ∀ others otherStops, Alike (·.tripId) planned others → Alike (fun t => (t.tripId, t.pullout)) stops otherStops →
      merge others otherStops tolerance = merge planned stops tolerance := by
  have apart := mergedAlone planned stops tolerance
  constructor
  · exact apart
  constructor
  · intro m ok
    choose alone each using apart.mp ⟨m, ok⟩
    obtain ⟨rows, counts⟩ := mergedFromAlone ok each
    exact ⟨alone, fun trip => ⟨each trip, rows trip⟩, counts⟩
  · intro others otherStops
    exact mergeAlike

/- Two planned trips, and a third one that only its pullout knows. -/
theorem mergedTripByTripMixed :
    let g (tripId : String) : PlannedStop := { tripId, stopId := "a", sequence := 1, departure := some ⟨0⟩ }
    let t (tripId : String) : PulloutStop := { tripId, pullout := 7, stopId := "a", sequence := 1, departure := some ⟨0⟩ }
    let planned := [g "1", g "2"]
    let stops := [t "1", t "3", t "2"]
    (∃ m, ∃ alone : String → Merged, merge planned stops 0 = .ok m ∧
      (∀ trip, ofTrip planned stops 0 trip = .ok (alone trip)) ∧
        m.counts = Counts.sum (["1", "3", "2"].map fun trip => (alone trip).counts)) ∧
      merge [g "2", g "1"] [t "2", t "3", t "1"] 0 = merge planned stops 0 := by
  intro g t planned stops
  obtain ⟨_, apart, mixed⟩ := mergedTripByTrip planned stops 0
  constructor
  · have merges : (merge planned stops 0).isOk = true := by cbv
    cases ok : merge planned stops 0 with
    | error e => rw [ok] at merges; cases merges
    | ok m =>
      obtain ⟨alone, each, counts⟩ := apart m ok
      have trips : tripIds planned stops = ["1", "3", "2"] := by decide
      rw [trips] at counts
      exact ⟨m, alone, rfl, fun trip => (each trip).1, counts⟩
  · apply mixed
    · exact .ofDistinct (by decide) (by decide)
    · exact .ofDistinct (by decide) (by decide)

end TransitTimeline.Skeleton
