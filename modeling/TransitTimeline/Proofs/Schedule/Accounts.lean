import TransitTimeline.Proofs.Schedule.Merged
import TransitTimeline.Proofs.Schedule.Nearest

/-! Where the pullouts' stops go. Those of unplanned trips are excluded. Of the others each is one row of its partition, in
the merged order; the rows before the first planned stop are trimmed, and they stand for pullouts' stops alone. -/
namespace TransitTimeline
open Std

structure SkeletonRow.ShowsStop (r : SkeletonRow) (t : PulloutStop) : Prop where
  tripId : r.tripId = t.tripId
  pullout : r.pullout = some t.pullout
  stopId : r.stopId = t.stopId
  sequence : r.tmSequence = some t.sequence
  timepoint : r.timepoint = t.timepoint
  departure : r.dispatched = t.departure
  facts : (TripFacts.ofStops none (some t)).Extends r.facts

theorem showsStopOfStops {g : Option PlannedStop} {t : PulloutStop} (trip : ∀ s ∈ g, s.tripId = t.tripId)
    (stop : ∀ s ∈ g, s.stopId = t.stopId) : SkeletonRow.ShowsStop (.ofStops g (some t) (some t.pullout)) t where
  tripId := by
    cases g with
    | none => rfl
    | some s => exact trip s rfl
  pullout := rfl
  stopId := by
    cases g with
    | none => rfl
    | some s => exact stop s rfl
  sequence := rfl
  timepoint := rfl
  departure := rfl
  facts := by
    constructor
    case tmPatternId | tmBlockId | tmRunId => exact fun v own => own
    all_goals simp [TripFacts.ofStops]

namespace Skeleton

def hasStop (r : SkeletonRow) : Bool := r.tmSequence.isSome

theorem Kept.hasStop {r s : SkeletonRow} (kept : Kept r s) : hasStop r = hasStop s := by
  rw [kept.rest]
  rfl

/- Every stop is in one row of the merged order; the partition is what is left of that order when the rows before the first
planned stop are dropped. -/
structure Accounted (stops : List PulloutStop) (order rows : List SkeletonRow) : Prop where
  once : ∃ shown, List.Forall₂ SkeletonRow.ShowsStop (order.filter hasStop) shown ∧ shown.Perm stops
  trimmed : ∃ lead rest, order = lead ++ rest ∧ (∀ r ∈ lead, isPlanned r = false) ∧ (∃ r ∈ rest.head?, isPlanned r) ∧
    List.Forall₂ Kept rest rows

section Order
variable {planned : List PlannedStop} {stops : List PulloutStop} {pullout : Int}

theorem orderOnce (w : Window) (pullout : Int) (planned : List PlannedStop) {trip : String}
    (plannedTrip : ∀ g ∈ planned, g.tripId = trip)
    (own : ∀ t ∈ stops, t.tripId = trip ∧ t.pullout = pullout) :
    ∃ shown, List.Forall₂ SkeletonRow.ShowsStop ((mergedOrder w pullout planned stops).filter hasStop) shown ∧
      shown.Perm stops := by
  have stopsOf := Pairing.alongStops w (Visit.ofStops planned) 0 stops
  have matching := Pairing.alongMatching planned w stops
  unfold mergedOrder
  generalize Pairing.along w (Visit.ofStops planned) 0 stops = pairings at stopsOf matching
  have sorted := ((sortOnPerm (·.key) (placed (Visit.ofStops planned) pairings pullout)).map (·.row)).filter hasStop
  have stopRows : (((placed (Visit.ofStops planned) pairings pullout).map (·.row)).filter hasStop) =
      pairings.map fun p => .ofStops (p.visit.map (·.stop)) (some p.stop) (some pullout) := by
    simp [placed, List.filter_map, Function.comp_def, hasStop, SkeletonRow.ofStops]
  rw [stopRows] at sorted
  have shows : List.Forall₂ SkeletonRow.ShowsStop
      (pairings.map fun p => .ofStops (p.visit.map (·.stop)) (some p.stop) (some pullout)) stops := by
    rw [← stopsOf]
    refine List.forall₂_map_left_iff.mpr (List.forall₂_map_right_iff.mpr (List.forall₂_same.mpr fun p member => ?_))
    obtain ⟨trip, rfl⟩ := own p.stop (stopsOf ▸ List.mem_map_of_mem member)
    refine showsStopOfStops ?_ ?_
    · intro s named
      obtain ⟨v, taken, rfl⟩ := Option.map_eq_some_iff.mp named
      have known := matching.known p member v taken
      exact (plannedTrip _ (List.mem_of_getElem? known)).trans trip.symm
    · intro s named
      obtain ⟨v, taken, rfl⟩ := Option.map_eq_some_iff.mp named
      exact matching.sameStop p member v taken
  exact List.perm_comp_forall₂ sorted shows

theorem finishTrimmed {rows : List SkeletonRow} (some : ∃ r ∈ rows, isPlanned r) : ∃ lead rest, rows = lead ++ rest ∧
    (∀ r ∈ lead, isPlanned r = false) ∧ (∃ r ∈ rest.head?, isPlanned r) ∧ List.Forall₂ Kept rest (finish rows).rows := by
  obtain ⟨lead, split, without, head⟩ := trimSplit some
  exact ⟨lead, _, split, without, head, finishKept rows⟩

theorem finishBalance {keys : Option Int} {rows : List SkeletonRow} (interleaved : Interleaved planned stops keys rows) :
    (finish rows).rows.countP hasStop + (finish rows).counts.trimmed = rows.countP hasStop := by
  have kept : (finish rows).rows.countP hasStop = (trim isPlanned rows).countP hasStop := by
    have paired := pairedFilter (finishKept rows) fun _ _ => Kept.hasStop
    rw [List.countP_eq_length_filter, List.countP_eq_length_filter, paired.length_eq]
  obtain ⟨lead, split⟩ := trimSuffix isPlanned rows
  have unplanned : ∀ r ∈ lead, isPlanned r = false := by
    have same : (trim isPlanned rows).filter isPlanned = rows.filter isPlanned := trimFilter
    conv at same => rhs; rw [← split, List.filter_append]
    have none := List.self_eq_append_left.mp same
    exact fun r member => by simpa using List.filter_eq_nil_iff.mp none r member
  have all : lead.countP hasStop = lead.length := List.countP_eq_length.mpr fun r member => by
    obtain ⟨g, t, comes⟩ := interleaved.comes r (split ▸ List.mem_append_left _ member)
    exact (comes.pulloutOnly (unplanned r member)).1
  have dropped : (finish rows).counts.trimmed = lead.length := by
    show rows.length - (trim isPlanned rows).length = _
    have lengths := congrArg List.length split
    rw [List.length_append] at lengths
    omega
  rw [kept, dropped]
  conv => rhs; rw [← split, List.countP_append, all]
  omega

theorem pulloutAccounted (trip : String) (w : Window) (some : planned ≠ []) (plannedTrip : ∀ g ∈ planned, g.tripId = trip)
    (own : ∀ t ∈ stops, t.tripId = trip ∧ t.pullout = pullout) (sorted : stops.Pairwise fun a b => a.sequence ≤ b.sequence) :
    Accounted stops (mergedOrder w pullout planned stops) (finish (mergedOrder w pullout planned stops)).rows where
  once := orderOnce w pullout planned plannedTrip own
  trimmed := finishTrimmed ((interleavedOrder w pullout planned sorted).plannedRow some)

end Order

section Counts

theorem sumCounts {f : Counts → Nat} (empty : f {} = 0) (plus : ∀ a b, f (a.plus b) = f a + f b) (counts : List Counts) :
    f (Counts.sum counts) = (counts.map f).sum := by
  induction counts with
  | nil => exact empty
  | cons c rest ih => exact (plus c _).trans (congrArg (f c + ·) ih)

theorem pairedSum {α β : Type} {f : α → Nat} {g : β → Nat} {xs : List α} {ys : List β}
    (paired : List.Forall₂ (fun a b => g b = f a) xs ys) : (ys.map g).sum = (xs.map f).sum := by
  induction paired with
  | nil => rfl
  | cons head _ ih => simp [head, ih]

theorem sumOnes {α : Type} (p : α → Bool) (xs : List α) : (xs.map fun a => if p a then 1 else 0).sum = xs.countP p := by
  induction xs with
  | nil => rfl
  | cons x rest ih =>
    rw [List.map_cons, List.sum_cons, ih, List.countP_cons, Nat.add_comm]

end Counts

def keyOf (t : PulloutStop) : String × Option Int := (t.tripId, some t.pullout)

section Schedules
variable {planned : List PlannedStop} {stops : List PulloutStop} {tolerance : Int} {m : Merged}

theorem keyListed {t : PulloutStop} (member : t ∈ stops) :
    keyOf t ∈ partitionKeys planned stops ↔ ∃ g ∈ planned, g.tripId = t.tripId := by
  constructor
  · intro known
    obtain ⟨g, inside⟩ := List.exists_mem_of_ne_nil _ (keyPlanned known)
    obtain ⟨inside, own⟩ := List.mem_filter.mp inside
    exact ⟨g, inside, of_decide_eq_true own⟩
  · rintro ⟨g, known, own⟩
    have inside : t ∈ stops.filter (·.tripId = g.tripId) := List.mem_filter.mpr ⟨member, by simpa using own.symm⟩
    have named : some t.pullout ∈ pulloutsOf (stops.filter (·.tripId = g.tripId)) := by
      rw [pulloutsOf, if_neg (by simpa using List.ne_nil_of_mem inside)]
      exact List.mem_map.mpr ⟨(t.pullout, _), Groups.memToList.mpr ⟨⟨t, inside, rfl⟩, rfl⟩, rfl⟩
    have listed : keyOf t ∈ (partitionKeys planned stops).filter (·.1 = g.tripId) := by
      rw [keysOfTrip known]
      exact List.mem_map.mpr ⟨_, named, by rw [own]; rfl⟩
    exact List.mem_of_mem_filter listed

theorem keyNames {trip : String} {pullout : Int} (known : (trip, some pullout) ∈ partitionKeys planned stops) :
    ∃ t ∈ stops, t.tripId = trip ∧ t.pullout = pullout := by
  obtain ⟨⟨_, _⟩, _, known⟩ := List.mem_flatMap.mp known
  obtain ⟨named, inside, same⟩ := List.mem_map.mp known
  obtain ⟨rfl, rfl⟩ := Prod.mk.inj same
  unfold pulloutsOf at inside
  split at inside
  · simp at inside
  · obtain ⟨⟨_, _⟩, group, same⟩ := List.mem_map.mp inside
    obtain ⟨⟨t, member, own⟩, _⟩ := Groups.memToList.mp group
    obtain ⟨member, trip⟩ := List.mem_filter.mp member
    exact ⟨t, member, of_decide_eq_true trip, own.trans (Option.some.inj same)⟩

theorem stopsOfKey (stops : List PulloutStop) (trip : String) (pullout : Int) :
    (stops.filter (·.tripId = trip)).filter (·.pullout = pullout) = stops.filter (keyOf · = (trip, some pullout)) := by
  rw [List.filter_filter]
  exact List.filter_congr fun t _ => by simp [keyOf, Bool.and_comm]

theorem stopsSorted (rows : List PulloutStop) : (sortOn (·.sequence) rows).Pairwise fun a b => a.sequence ≤ b.sequence :=
  (sortOnSorted (·.sequence) rows).imp Std.isLE_compare.mp

theorem keyBalance {key : String × Option Int} {part : Merged} (ok : mergeKey tolerance planned stops key = .ok part) :
    part.rows.countP hasStop + part.counts.trimmed = (stops.filter (keyOf · = key)).length ∧
      part.counts.excluded = 0 ∧ part.counts.pullouts = if key.2.isSome then 1 else 0 := by
  obtain ⟨trip, pullout⟩ := key
  cases pullout with
  | none =>
    cases ok
    have nothing : stops.filter (keyOf · = (trip, none)) = [] := List.filter_eq_nil_iff.mpr fun t _ => by simp [keyOf]
    rw [finishBalance (interleavedAlone _), nothing]
    refine ⟨List.countP_eq_zero.mpr fun r member => ?_, rfl, rfl⟩
    obtain ⟨g, _, rfl⟩ := List.mem_map.mp member
    exact Bool.false_ne_true
  | some pullout =>
    obtain ⟨w, _, rows, counts⟩ := pulloutOrder ok
    rw [rows, counts]
    refine ⟨?_, rfl, rfl⟩
    have sorted := stopsSorted ((stops.filter (·.tripId = trip)).filter (·.pullout = pullout))
    have stopsOwn : ∀ t ∈ sortOn (·.sequence) ((stops.filter (·.tripId = trip)).filter (·.pullout = pullout)),
        t.tripId = trip ∧ t.pullout = pullout := fun t member => by
      rw [memSortOn, stopsOfKey] at member
      simpa [keyOf] using (List.mem_filter.mp member).2
    have plannedOwn : ∀ g ∈ planned.filter (·.tripId = trip), g.tripId = trip := fun g member => by
      simpa using (List.mem_filter.mp member).2
    obtain ⟨shown, shows, all⟩ := orderOnce w pullout (planned.filter (·.tripId = trip)) plannedOwn stopsOwn
    have balance := finishBalance (interleavedOrder w pullout (planned.filter (·.tripId = trip)) sorted)
    rw [← stopsOfKey, ← (sortOnPerm (·.sequence) _).length_eq, ← all.length_eq, ← shows.length_eq, ← List.countP_eq_length_filter]
    exact balance

theorem keyAccounted {trip : String} {pullout : Int} {part : Merged} (filled : planned.filter (·.tripId = trip) ≠ [])
    (ok : mergeKey tolerance planned stops (trip, some pullout) = .ok part) :
    ∃ w, Window.ofPullout tolerance trip pullout (sortOn (·.sequence) (stops.filter (keyOf · = (trip, some pullout)))) = .ok w ∧
      Accounted (stops.filter (keyOf · = (trip, some pullout)))
        (mergedOrder w pullout (planned.filter (·.tripId = trip))
          (sortOn (·.sequence) (stops.filter (keyOf · = (trip, some pullout))))) part.rows := by
  obtain ⟨w, window, rows, _⟩ := pulloutOrder ok
  rw [stopsOfKey] at window rows
  refine ⟨w, window, ?_⟩
  rw [rows]
  have accounted := pulloutAccounted trip w filled
    (fun g member => by simpa using (List.mem_filter.mp member).2) (fun t member => by
      rw [memSortOn] at member
      simpa [keyOf] using (List.mem_filter.mp member).2) (stopsSorted (stops.filter (keyOf · = (trip, some pullout))))
  obtain ⟨shown, shows, all⟩ := accounted.once
  exact ⟨⟨shown, shows, all.trans (sortOnPerm _ _)⟩, accounted.trimmed⟩

def isKnown (planned : List PlannedStop) (t : PulloutStop) : Bool := planned.any (·.tripId = t.tripId)

theorem balance (ok : merge planned stops tolerance = .ok m) :
    m.rows.countP hasStop + m.counts.trimmed = stops.countP (isKnown planned) := by
  obtain ⟨parts, own, rows, counts⟩ := mergedParts ok
  have each := pairedSum (f := fun key => (stops.filter (keyOf · = key)).length)
    (g := fun (part : Merged) => part.rows.countP hasStop + part.counts.trimmed) (own.imp fun _ _ ok => (keyBalance ok).1)
  have listed : ∀ t ∈ stops, isKnown planned t ↔ keyOf t ∈ partitionKeys planned stops := fun t member => by
    rw [keyListed member, isKnown]
    simp
  have all := (gathered (orderedDistinct (keysOrdered planned stops)) listed).length_eq
  rw [List.length_flatMap, ← each, ← List.countP_eq_length_filter] at all
  rw [← all, rows, counts, List.countP_flatMap, List.sum_map_add]
  show _ + ((Counts.sum (parts.map (·.counts))).trimmed + 0) = _
  rw [sumCounts (f := Counts.trimmed) rfl (fun _ _ => rfl), List.map_map]
  rfl

theorem excludedCount (ok : merge planned stops tolerance = .ok m) :
    m.counts.excluded = stops.countP fun t => !isKnown planned t := by
  obtain ⟨parts, own, _, counts⟩ := mergedParts ok
  have none := pairedSum (f := fun _ => 0) (g := fun (part : Merged) => part.counts.excluded)
    (own.imp fun _ _ ok => (keyBalance ok).2.1)
  rw [counts]
  show (Counts.sum (parts.map (·.counts))).excluded + _ = _
  rw [sumCounts (f := Counts.excluded) rfl (fun _ _ => rfl), List.map_map]
  have zero : (parts.map (Counts.excluded ∘ fun (part : Merged) => part.counts)).sum = 0 := none.trans (by simp)
  rw [zero, Nat.zero_add]
  refine List.countP_congr fun t _ => ?_
  have known : (Groups.ofRows (·.tripId) planned).contains t.tripId = isKnown planned t := by
    rw [Bool.eq_iff_iff, TreeMap.contains_iff_mem, Groups.memKeys, isKnown]
    simp
  rw [known]

theorem pulloutsCounted (ok : merge planned stops tolerance = .ok m) :
    m.counts.pullouts = ((stops.filter (isKnown planned)).map fun t => (t.tripId, t.pullout)).dedup.length := by
  obtain ⟨parts, own, _, counts⟩ := mergedParts ok
  have ones := pairedSum (f := fun (key : String × Option Int) => if key.2.isSome then 1 else 0)
    (g := fun (part : Merged) => part.counts.pullouts) (own.imp fun _ _ ok => (keyBalance ok).2.2)
  have summed : m.counts.pullouts = ((partitionKeys planned stops).filter (·.2.isSome)).length := by
    rw [counts]
    show (Counts.sum (parts.map (·.counts))).pullouts + 0 = _
    rw [sumCounts (f := Counts.pullouts) rfl (fun _ _ => rfl), List.map_map, Nat.add_zero]
    exact ones.trans ((sumOnes _ _).trans List.countP_eq_length_filter)
  have pairs : (((stops.filter (isKnown planned)).map fun t => (t.tripId, t.pullout)).dedup.map fun pair =>
      (pair.1, some pair.2)).Perm ((partitionKeys planned stops).filter (·.2.isSome)) := by
    have distinct := (orderedDistinct (keysOrdered planned stops)).filter (·.2.isSome)
    have injective : Function.Injective fun (pair : String × Int) => (pair.1, some pair.2) := fun a b same => by
      cases a
      cases b
      simpa using same
    refine (List.perm_ext_iff_of_nodup ((List.nodup_dedup _).map injective) distinct).mpr fun key => ?_
    simp only [List.mem_map, List.mem_dedup, List.mem_filter]
    constructor
    · rintro ⟨_, ⟨t, ⟨member, known⟩, rfl⟩, rfl⟩
      exact ⟨(keyListed member).mpr (by simpa [isKnown] using known), rfl⟩
    · obtain ⟨trip, pullout⟩ := key
      rintro ⟨listed, named⟩
      obtain ⟨pullout, rfl⟩ := Option.isSome_iff_exists.mp named
      obtain ⟨t, member, rfl, rfl⟩ := keyNames listed
      exact ⟨_, ⟨t, ⟨member, by simpa [isKnown] using (keyListed member).mp listed⟩, rfl⟩, rfl⟩
  rw [summed, ← pairs.length_eq, List.length_map]

theorem stopsAccounted (planned : List PlannedStop) (stops : List PulloutStop) (tolerance : Int) (m : Merged)
    (ok : merge planned stops tolerance = .ok m) :
    (∀ trip pullout, (∃ g ∈ planned, g.tripId = trip) → (∃ t ∈ stops, t.tripId = trip ∧ t.pullout = pullout) →
      let own := stops.filter fun t => keyOf t = (trip, some pullout)
      ∃ w, Window.ofPullout tolerance trip pullout (sortOn (·.sequence) own) = .ok w ∧
        Accounted own (mergedOrder w pullout (planned.filter (·.tripId = trip)) (sortOn (·.sequence) own))
          (partitionOf m.rows trip (some pullout))) ∧
    m.counts.excluded = stops.countP (fun t => !isKnown planned t) ∧
    m.rows.countP hasStop + m.counts.trimmed + m.counts.excluded = stops.length ∧
    m.counts.pullouts = ((stops.filter (isKnown planned)).map fun t => (t.tripId, t.pullout)).dedup.length ∧
    ∀ r ∈ m.rows, (∀ t ∈ stops, t.tripId ≠ r.tripId) → r.pullout = none := by
  refine ⟨fun trip pullout ⟨g, known, trips⟩ ⟨t, member, own, pullouts⟩ => ?_, excludedCount ok, ?_, pulloutsCounted ok,
    fun r member alone => ?_⟩
  · have sections := sectionsBy (fun key rows =>
        Partition (planned.filter (·.tripId = key.1)) key.1 key.2 rows ∧ ∀ pullout, key.2 = some pullout →
          let own := stops.filter fun t => keyOf t = (key.1, some pullout)
          ∃ w, Window.ofPullout tolerance key.1 pullout (sortOn (·.sequence) own) = .ok w ∧
            Accounted own (mergedOrder w pullout (planned.filter (·.tripId = key.1)) (sortOn (·.sequence) own)) rows)
      (fun key part filled ok => ⟨keyPartition filled ok, fun pullout named => by
        obtain ⟨trip, _⟩ := key
        cases named
        exact keyAccounted filled ok⟩) ok
    have listed : (trip, some pullout) ∈ partitionKeys planned stops := by
      have listed : keyOf t ∈ partitionKeys planned stops := (keyListed member).mpr ⟨g, known, trips.trans own.symm⟩
      rwa [keyOf, own, pullouts] at listed
    exact (sections.filterOwn (fun _ _ both => both.1.key) (orderedDistinct (keysOrdered planned stops)) listed).2 pullout rfl
  · rw [balance ok, excludedCount ok]
    simp [List.length_eq_countP_add_countP (isKnown planned) (l := stops)]
  · have listed := (mergedSections ok).keyKnown (fun _ _ partition => partition.key) r member
    cases named : r.pullout with
    | none => rfl
    | some pullout =>
      rw [named] at listed
      obtain ⟨t, inside, trip, _⟩ := keyNames listed
      exact absurd trip (alone t inside)

/- A stop before the planned trip, a stop of both, one of the pullout alone, and one of a trip that is not planned. -/
theorem stopsAccountedOneTrimmed :
    let g : PlannedStop := { tripId := "1", stopId := "a", sequence := 1, departure := some ⟨0⟩ }
    let stops : List PulloutStop := [("1", "y", 1), ("1", "a", 2), ("1", "z", 3), ("2", "a", 1)].map
      fun (tripId, stopId, sequence) => { tripId, pullout := 7, stopId, sequence, departure := some ⟨0⟩ }
    ∃ m, merge [g] stops 0 = .ok m ∧ m.counts.trimmed = 1 ∧ m.counts.excluded = 1 ∧ m.rows.countP hasStop = 2 ∧
      m.counts.pullouts = 1 := by
  intro g stops
  have counted : ((merge [g] stops 0).map fun m => m.counts.trimmed) = .ok 1 := by cbv
  cases ok : merge [g] stops 0 with
  | error e => rw [ok] at counted; cases counted
  | ok m =>
    obtain ⟨_, excluded, all, pullouts, _⟩ := stopsAccounted [g] stops 0 m ok
    rw [ok] at counted
    have trimmed : m.counts.trimmed = 1 := Except.ok.inj counted
    have unknown : stops.countP (fun t => !isKnown [g] t) = 1 := by decide
    have known : ((stops.filter (isKnown [g])).map fun t => (t.tripId, t.pullout)).dedup.length = 1 := by decide
    have four : stops.length = 4 := rfl
    exact ⟨m, rfl, trimmed, excluded.trans unknown, by omega, pullouts.trans known⟩

end Schedules

end Skeleton

end TransitTimeline
