import Mathlib
import TransitTimeline.Proofs.Schedule.Finish
import TransitTimeline.Proofs.Schedule.Interleaving
import TransitTimeline.Proofs.Sections

/-! The merged schedule: one partition for each pullout of each planned trip, each an interleaving of both
schedules. -/
namespace TransitTimeline.Skeleton
open Std

structure Partition (planned : List PlannedStop) (trip : String) (pullout : Option Int) (rows : List SkeletonRow) :
    Prop where
  tripId : ∀ r ∈ rows, r.tripId = trip
  pullout : ∀ r ∈ rows, r.pullout = pullout
  positions : rows.map (·.position) = (List.range rows.length).map fun (i : Nat) => (i : Int) + 1
  shows : List.Forall₂ SkeletonRow.Shows (rows.filter isPlanned) planned
  sequences : (rows.filterMap (·.tmSequence)).Pairwise (· ≤ ·)
  starts : ∃ r ∈ rows.head?, ∃ g ∈ planned.head?, r.Shows g
  pulloutOnly : ∀ r ∈ rows, isPlanned r = false → r.tmSequence.isSome ∧ r.planned = none

theorem Comes.tripId {planned : List PlannedStop} {stops : List PulloutStop} {pullout : Option Int}
    {g : Option PlannedStop} {t : Option PulloutStop} {r : SkeletonRow} (comes : Comes planned stops pullout g t r)
    {trip : String} (plannedTrip : ∀ g ∈ planned, g.tripId = trip) (stopsTrip : ∀ t ∈ stops, t.tripId = trip) :
    r.tripId = trip := by
  obtain ⟨rfl, known, own, some⟩ := comes
  cases g with
  | some g => exact plannedTrip g (known g rfl)
  | none =>
    cases t with
    | some t => exact stopsTrip t (own t rfl)
    | none => simp at some

theorem Comes.pulloutOnly {planned : List PlannedStop} {stops : List PulloutStop} {pullout : Option Int}
    {g : Option PlannedStop} {t : Option PulloutStop} {r : SkeletonRow} (comes : Comes planned stops pullout g t r)
    (unplanned : isPlanned r = false) : r.tmSequence.isSome ∧ r.planned = none := by
  obtain ⟨rfl, _, _, some⟩ := comes
  rw [isPlannedOfStops] at unplanned
  cases g with
  | some g => cases unplanned
  | none => exact ⟨by simpa [SkeletonRow.ofStops] using some, rfl⟩

section Finish
variable {planned : List PlannedStop} {stops : List PulloutStop} {pullout : Option Int} {rows : List SkeletonRow}

theorem finishPositions (rows : List SkeletonRow) : (finish rows).rows.map (·.position) =
    (List.range (finish rows).rows.length).map fun (i : Nat) => (i : Int) + 1 := by
  have numbered := numberPositions (fillFacts (trim isPlanned rows))
  have same : (number (fillFacts (trim isPlanned rows))).length = (fillFacts (trim isPlanned rows)).length := by
    simp [number]
  rw [← same] at numbered
  exact numbered

theorem finishComes (interleaved : Interleaved planned stops pullout rows) :
    ∀ r ∈ (finish rows).rows, ∃ g t s, Comes planned stops pullout g t s ∧ Kept s r := by
  intro r member
  obtain ⟨s, inside, kept⟩ := pairedMem (finishKept rows) member
  obtain ⟨g, t, comes⟩ := interleaved.comes s ((trimSuffix isPlanned rows).subset inside)
  exact ⟨g, t, s, comes, kept⟩

theorem finishShows (interleaved : Interleaved planned stops pullout rows) :
    List.Forall₂ SkeletonRow.Shows ((finish rows).rows.filter isPlanned) planned := by
  have shown := interleaved.shows
  rw [← trimFilter] at shown
  have finished := pairedFilter (finishKept rows) fun _ _ => Kept.isPlanned
  refine pairedTrans (R := flip Kept) finished.flip shown fun s r g kept source => ?_
  obtain ⟨t, rfl⟩ := source
  exact Kept.shows kept (showsOfStops g t pullout)

theorem finishSequences (interleaved : Interleaved planned stops pullout rows) :
    ((finish rows).rows.filterMap (·.tmSequence)).Pairwise (· ≤ ·) := by
  have same : (trim isPlanned rows).filterMap (·.tmSequence) = (finish rows).rows.filterMap (·.tmSequence) :=
    pairedColumn (finishKept rows) fun r s kept => by rw [kept.rest]
  rw [← same]
  exact interleaved.sequences.sublist ((trimSuffix isPlanned rows).sublist.filterMap _)

theorem finishStarts (interleaved : Interleaved planned stops pullout rows) (some : planned ≠ []) :
    ∃ r ∈ (finish rows).rows.head?, ∃ g ∈ planned.head?, r.Shows g := by
  obtain ⟨r, first, own⟩ := trimHead (interleaved.plannedRow some)
  have kept := finishKept rows
  have shows := finishShows interleaved
  generalize trim isPlanned rows = before at kept first
  generalize (finish rows).rows = after at kept shows
  cases kept with
  | nil => simp at first
  | @cons _ s _ _ head _ =>
    cases first
    rw [List.filter_cons_of_pos (head.isPlanned ▸ own)] at shows
    cases shows with
    | @cons _ g _ _ shown _ => exact ⟨s, rfl, g, rfl, shown⟩

theorem finishPartition {trip : String} (interleaved : Interleaved planned stops pullout rows) (some : planned ≠ [])
    (plannedTrip : ∀ g ∈ planned, g.tripId = trip) (stopsTrip : ∀ t ∈ stops, t.tripId = trip) :
    Partition planned trip pullout (finish rows).rows where
  tripId := by
    intro r member
    obtain ⟨g, t, s, comes, kept⟩ := finishComes interleaved r member
    rw [kept.rest]
    exact comes.tripId plannedTrip stopsTrip
  pullout := by
    intro r member
    obtain ⟨g, t, s, comes, kept⟩ := finishComes interleaved r member
    rw [kept.rest, comes.row]
    rfl
  positions := finishPositions rows
  shows := finishShows interleaved
  sequences := finishSequences interleaved
  starts := finishStarts interleaved some
  pulloutOnly := by
    intro r member unplanned
    obtain ⟨g, t, s, comes, kept⟩ := finishComes interleaved r member
    rw [← kept.isPlanned] at unplanned
    rw [kept.rest]
    exact comes.pulloutOnly unplanned

end Finish

def mergedOrder (w : Window) (pullout : Int) (planned : List PlannedStop) (stops : List PulloutStop) : List SkeletonRow :=
  (sortOn (·.key) (placed (Visit.ofStops planned) (Pairing.along w (Visit.ofStops planned) 0 stops) pullout)).map (·.row)

section Trip
variable {planned : List PlannedStop} {stops : List PulloutStop} {trip : String} {tolerance pullout : Int} {m : Merged}

theorem pulloutOrder (ok : mergePullout tolerance trip pullout planned stops = .ok m) :
    ∃ w, Window.ofPullout tolerance trip pullout stops = .ok w ∧ m.rows = (finish (mergedOrder w pullout planned stops)).rows ∧
      m.counts = (finish (mergedOrder w pullout planned stops)).counts.plus
        { pullouts := 1, ambiguous := (Pairing.along w (Visit.ofStops planned) 0 stops).countP (·.isAmbiguous) } := by
  obtain ⟨w, window, ok⟩ := okBind ok
  dsimp only at ok
  split at ok
  · cases ok
  · cases ok
    exact ⟨w, window, rfl, rfl⟩

theorem interleavedOrder (w : Window) (pullout : Int) (planned : List PlannedStop)
    (sorted : stops.Pairwise fun a b => a.sequence ≤ b.sequence) :
    Interleaved planned stops (some pullout) (mergedOrder w pullout planned stops) := by
  have forward : Pairing.Forward (Visit.ofStops planned) (Pairing.along w (Visit.ofStops planned) 0 stops) :=
    Pairing.alongForward sorted
  have interleaved := interleavedPullout pullout forward
  rwa [Pairing.alongStops] at interleaved

theorem mergedPullout (ok : mergePullout tolerance trip pullout planned stops = .ok m)
    (sorted : stops.Pairwise fun a b => a.sequence ≤ b.sequence) (some : planned ≠ [])
    (plannedTrip : ∀ g ∈ planned, g.tripId = trip) (stopsTrip : ∀ t ∈ stops, t.tripId = trip) :
    Partition planned trip (.some pullout) m.rows := by
  obtain ⟨w, _, rows, _⟩ := pulloutOrder ok
  rw [rows]
  exact finishPartition (interleavedOrder w pullout planned sorted) some plannedTrip stopsTrip

end Trip

namespace Counts

theorem plusAssoc (a b c : Counts) : (a.plus b).plus c = a.plus (b.plus c) := by
  simp [plus, Nat.add_assoc]

theorem sumAppend (xs ys : List Counts) : sum (xs ++ ys) = (sum xs).plus (sum ys) := by
  induction xs with
  | nil => simp [sum, plus]
  | cons c rest ih => exact (congrArg c.plus ih).trans (plusAssoc c _ _).symm

end Counts

theorem concatParts {κ σ : Type} (keys : κ → List σ) {holds : σ → Merged → Prop} {ks : List κ} {parts : List Merged}
    (each : List.Forall₂ (fun k part => ∃ inner, List.Forall₂ holds (keys k) inner ∧ part = .concat inner) ks parts) :
    ∃ inner, List.Forall₂ holds (ks.flatMap keys) inner ∧ Merged.concat parts = .concat inner := by
  induction each with
  | nil => exact ⟨[], .nil, rfl⟩
  | @cons k part ks rest head _ ih =>
    obtain ⟨first, own, rfl⟩ := head
    obtain ⟨others, later, same⟩ := ih
    obtain ⟨rows, counts⟩ := Merged.mk.inj same
    refine ⟨first ++ others, List.rel_append own later, ?_⟩
    simp only [Merged.concat, List.flatMap_append, List.map_append, Counts.sumAppend, ← rows, ← counts]
    rfl

def pulloutsOf (stops : List PulloutStop) : List (Option Int) :=
  if stops.isEmpty then [none] else (Groups.ofRows (·.pullout) stops).toList.map fun group => some group.1

def mergePart (tolerance : Int) (trip : String) (planned : List PlannedStop) (stops : List PulloutStop) :
    Option Int → Except Failure Merged
  | none => .ok (finish (planned.map fun g => .ofStops (some g) none none))
  | some pullout => mergePullout tolerance trip pullout planned (sortOn (·.sequence) (stops.filter (·.pullout = pullout)))

def partitionKeys (planned : List PlannedStop) (stops : List PulloutStop) : List (String × Option Int) :=
  (Groups.ofRows (·.tripId) planned).toList.flatMap fun group =>
    (pulloutsOf (stops.filter (·.tripId = group.1))).map fun pullout => (group.1, pullout)

def mergeKey (tolerance : Int) (planned : List PlannedStop) (stops : List PulloutStop) (key : String × Option Int) :
    Except Failure Merged :=
  mergePart tolerance key.1 (planned.filter (·.tripId = key.1)) (stops.filter (·.tripId = key.1)) key.2

section Schedules
variable {planned : List PlannedStop} {stops : List PulloutStop} {trip : String} {tolerance : Int} {m : Merged}

theorem tripParts (ok : mergeTrip tolerance trip planned stops = .ok m) : ∃ parts,
    List.Forall₂ (fun pullout part => mergePart tolerance trip planned stops pullout = .ok part) (pulloutsOf stops) parts ∧
      m = .concat parts := by
  unfold mergeTrip at ok
  unfold pulloutsOf
  split at ok
  · rename_i empty
    cases ok
    rw [if_pos empty]
    exact ⟨_, .cons rfl .nil, by simp [Merged.concat, Counts.sum, Counts.plus]⟩
  · rename_i filled
    rw [if_neg filled]
    obtain ⟨parts, each, ok⟩ := okBind ok
    cases ok
    have paired := (List.forall₂_and_left _ _).mpr ⟨fun _ member => member, pairedMapM each⟩
    refine ⟨parts, List.forall₂_map_left_iff.mpr (paired.imp ?_), rfl⟩
    rintro ⟨pullout, group⟩ part ⟨member, ok⟩
    obtain ⟨_, rfl⟩ := Groups.memToList.mp member
    exact ok

theorem mergedParts (ok : merge planned stops tolerance = .ok m) : ∃ parts,
    List.Forall₂ (fun key part => mergeKey tolerance planned stops key = .ok part) (partitionKeys planned stops) parts ∧
      m.rows = parts.flatMap (·.rows) ∧ m.counts = (Counts.sum (parts.map (·.counts))).plus
        { excluded := stops.countP fun t => !(Groups.ofRows (·.tripId) planned).contains t.tripId } := by
  obtain ⟨trips, each, ok⟩ := okBind ok
  cases ok
  have paired := (List.forall₂_and_left _ _).mpr ⟨fun _ member => member, pairedMapM each⟩
  obtain ⟨parts, own, same⟩ : ∃ inner, List.Forall₂ (fun key part => mergeKey tolerance planned stops key = .ok part)
      (partitionKeys planned stops) inner ∧ Merged.concat trips = .concat inner := concatParts
    (fun group => (pulloutsOf (stops.filter (·.tripId = group.1))).map fun pullout => (group.1, pullout))
    (paired.imp (by
      rintro ⟨trip, rows⟩ part ⟨member, ok⟩
      obtain ⟨_, rfl⟩ := Groups.memToList.mp member
      simp only [Groups.rowsOfKey] at ok
      obtain ⟨inner, own, rfl⟩ := tripParts ok
      exact ⟨inner, List.forall₂_map_left_iff.mpr own, rfl⟩))
  exact ⟨parts, own, congrArg Merged.rows same, congrArg (fun all : Merged => all.counts.plus _) same⟩

theorem keyPlanned {key : String × Option Int} (member : key ∈ partitionKeys planned stops) :
    planned.filter (·.tripId = key.1) ≠ [] := by
  obtain ⟨⟨trip, rows⟩, inside, member⟩ := List.mem_flatMap.mp member
  obtain ⟨_, _, rfl⟩ := List.mem_map.mp member
  obtain ⟨⟨g, known, own⟩, _⟩ := Groups.memToList.mp inside
  exact List.ne_nil_of_mem (List.mem_filter.mpr ⟨known, by simpa using own⟩)

theorem sectionsBy (holds : String × Option Int → List SkeletonRow → Prop)
    (each : ∀ key part, planned.filter (·.tripId = key.1) ≠ [] → mergeKey tolerance planned stops key = .ok part →
      holds key part.rows)
    (ok : merge planned stops tolerance = .ok m) : Sections holds (partitionKeys planned stops) m.rows := by
  obtain ⟨parts, own, rows, _⟩ := mergedParts ok
  have paired := (List.forall₂_and_left _ _).mpr ⟨fun _ member => member, own⟩
  have sections : Sections holds ((partitionKeys planned stops).map id) (parts.flatMap Merged.rows) := Sections.ofPaired
    (paired.imp fun key part ⟨member, ok⟩ => each key part (keyPlanned member) ok)
  rwa [List.map_id, ← rows] at sections

theorem keyPartition {key : String × Option Int} {part : Merged} (some : planned.filter (·.tripId = key.1) ≠ [])
    (ok : mergeKey tolerance planned stops key = .ok part) :
    Partition (planned.filter (·.tripId = key.1)) key.1 key.2 part.rows := by
  obtain ⟨trip, pullout⟩ := key
  have plannedTrip : ∀ g ∈ planned.filter (·.tripId = trip), g.tripId = trip := fun g member => by
    simpa using (List.mem_filter.mp member).2
  cases pullout with
  | none =>
    cases ok
    exact finishPartition (interleavedAlone _) some plannedTrip (by simp)
  | some pullout =>
    have sorted := (sortOnSorted (·.sequence) ((stops.filter (·.tripId = trip)).filter (·.pullout = pullout))).imp
      Std.isLE_compare.mp
    refine mergedPullout ok sorted some plannedTrip fun t member => ?_
    simpa using (List.mem_filter.mp (List.mem_of_mem_filter (memSortOn.mp member))).2

theorem mergedSections (ok : merge planned stops tolerance = .ok m) :
    Sections (fun key => Partition (planned.filter (·.tripId = key.1)) key.1 key.2) (partitionKeys planned stops)
      m.rows :=
  sectionsBy _ (fun _ _ => keyPartition) ok

theorem pulloutsOrdered (stops : List PulloutStop) : (pulloutsOf stops).Pairwise fun a b => compare a b = .lt := by
  unfold pulloutsOf
  split
  · exact List.pairwise_singleton _ _
  · exact List.pairwise_map.mpr (Groups.ofRows (·.pullout) stops).ordered_keys_toList

theorem keysOrdered (planned : List PlannedStop) (stops : List PulloutStop) :
    (partitionKeys planned stops).Pairwise fun a b => compare a b = .lt := by
  refine List.pairwise_flatMap.mpr ⟨fun group _ => ?_, ?_⟩
  · refine List.pairwise_map.mpr ((pulloutsOrdered _).imp fun {a b} less => ?_)
    simpa [comparePair] using less
  · refine (Groups.ofRows (·.tripId) planned).ordered_keys_toList.imp ?_
    intro a b less x hx y hy
    obtain ⟨_, _, rfl⟩ := List.mem_map.mp hx
    obtain ⟨_, _, rfl⟩ := List.mem_map.mp hy
    rw [comparePair, less]
    rfl

def pulloutCount (stops : List PulloutStop) : Nat := (stops.map (·.pullout)).dedup.length

theorem pulloutsLength (stops : List PulloutStop) : (pulloutsOf stops).length = max 1 (pulloutCount stops) := by
  unfold pulloutsOf
  split
  · rename_i empty
    rw [List.isEmpty_iff.mp empty]
    rfl
  · rename_i filled
    have same : ((Groups.ofRows (·.pullout) stops).toList.map Prod.fst).Perm (stops.map (·.pullout)).dedup := by
      refine (List.perm_ext_iff_of_nodup (Groups.keysDistinct _ _) (List.nodup_dedup _)).mpr fun pullout => ?_
      simp [Groups.memKeys]
    have some : stops.map (·.pullout) ≠ [] := by simpa using filled
    have positive : 0 < pulloutCount stops :=
      List.length_pos_iff.mpr fun empty => some ((List.dedup_eq_nil _).mp empty)
    rw [List.length_map, ← List.length_map (f := Prod.fst), same.length_eq]
    exact (Nat.max_eq_right positive).symm

theorem keysOfTrip {g : PlannedStop} (member : g ∈ planned) :
    (partitionKeys planned stops).filter (·.1 = g.tripId) =
      (pulloutsOf (stops.filter (·.tripId = g.tripId))).map fun pullout => (g.tripId, pullout) := by
  have byTrip : Sections (fun trip keys => keys =
        (pulloutsOf (stops.filter (·.tripId = trip))).map fun pullout => (trip, pullout))
      ((Groups.ofRows (·.tripId) planned).toList.map Prod.fst) (partitionKeys planned stops) :=
    .ofPaired (List.forall₂_same.mpr fun _ _ => rfl)
  have known : g.tripId ∈ (Groups.ofRows (·.tripId) planned).toList.map Prod.fst := by
    rw [TreeMap.map_fst_toList_eq_keys, TreeMap.mem_keys]
    exact Groups.memKeys.mpr ⟨g, member, rfl⟩
  refine byTrip.filterOwn ?_ (Groups.keysDistinct _ _) known
  rintro trip _ rfl key inside
  obtain ⟨_, _, rfl⟩ := List.mem_map.mp inside
  rfl

theorem countOverKeys (keys : List (String × Option Int)) (g : PlannedStop) :
    (keys.flatMap fun key => planned.filter (·.tripId = key.1)).count g =
      (keys.filter (·.1 = g.tripId)).length * planned.count g := by
  induction keys with
  | nil => simp
  | cons key rest ih =>
    rw [List.flatMap_cons, List.count_append, ih]
    by_cases own : key.1 = g.tripId
    · have all : (planned.filter (·.tripId = key.1)).count g = planned.count g :=
        List.count_filter (by simpa using own.symm)
      rw [all, List.filter_cons_of_pos (by simpa using own), List.length_cons, Nat.succ_mul, Nat.add_comm]
    · have none : (planned.filter (·.tripId = key.1)).count g = 0 :=
        List.count_eq_zero.mpr fun member => own (Eq.symm (by simpa using (List.mem_filter.mp member).2))
      rw [none, List.filter_cons_of_neg (by simpa using own), Nat.zero_add]

theorem copies (g : PlannedStop) :
    ((partitionKeys planned stops).flatMap fun key => planned.filter (·.tripId = key.1)).count g =
      max 1 (pulloutCount (stops.filter (·.tripId = g.tripId))) * planned.count g := by
  rw [countOverKeys]
  by_cases member : g ∈ planned
  · rw [keysOfTrip member, List.length_map, pulloutsLength]
  · rw [List.count_eq_zero.mpr member, Nat.mul_zero, Nat.mul_zero]

end Schedules

section Partition
variable {planned : List PlannedStop} {trip : String} {pullout : Option Int} {rows : List SkeletonRow}

theorem Partition.ascending (partition : Partition planned trip pullout rows) :
    rows.Pairwise fun a b => a.position < b.position := by
  refine List.pairwise_map.mp ?_
  rw [partition.positions]
  exact List.pairwise_map.mpr (List.pairwise_lt_range.imp fun {a b} less => by omega)

theorem Partition.ordered (partition : Partition planned trip pullout rows) : rows.Pairwise fun a b =>
    compare (a.tripId, a.pullout, a.position) (b.tripId, b.pullout, b.position) = .lt := by
  refine partition.ascending.imp_of_mem fun {a b} ha hb less => ?_
  rw [partition.tripId a ha, partition.tripId b hb, partition.pullout a ha, partition.pullout b hb]
  simpa [comparePair] using Int.compare_eq_lt.mpr less

theorem Partition.key (partition : Partition planned trip pullout rows) :
    ∀ r ∈ rows, (r.tripId, r.pullout) = (trip, pullout) :=
  fun r member => Prod.ext (partition.tripId r member) (partition.pullout r member)

end Partition

def partitionOf (rows : List SkeletonRow) (trip : String) (pullout : Option Int) : List SkeletonRow :=
  rows.filter fun r => (r.tripId, r.pullout) = (trip, pullout)

section Schedules
variable {planned : List PlannedStop} {stops : List PulloutStop} {tolerance : Int} {m : Merged}

theorem partitionBy (holds : String × Option Int → List SkeletonRow → Prop)
    (each : ∀ key part, planned.filter (·.tripId = key.1) ≠ [] → mergeKey tolerance planned stops key = .ok part →
      holds key part.rows)
    (ok : merge planned stops tolerance = .ok m) {trip : String} {pullout : Option Int}
    (known : (trip, pullout) ∈ partitionKeys planned stops) : holds (trip, pullout) (partitionOf m.rows trip pullout) := by
  have sections := sectionsBy (fun key rows => Partition (planned.filter (·.tripId = key.1)) key.1 key.2 rows ∧ holds key rows)
    (fun key part filled ok => ⟨keyPartition filled ok, each key part filled ok⟩) ok
  exact (sections.filterOwn (fun _ _ both => both.1.key) (orderedDistinct (keysOrdered planned stops)) known).2

theorem mergedPartition (ok : merge planned stops tolerance = .ok m) {trip : String} {pullout : Option Int}
    (known : (trip, pullout) ∈ partitionKeys planned stops) :
    Partition (planned.filter (·.tripId = trip)) trip pullout (partitionOf m.rows trip pullout) :=
  partitionBy (fun key => Partition (planned.filter (·.tripId = key.1)) key.1 key.2) (fun _ _ => keyPartition) ok known

theorem mergedNothing (ok : merge planned stops tolerance = .ok m) {trip : String} {pullout : Option Int}
    (unknown : (trip, pullout) ∉ partitionKeys planned stops) : partitionOf m.rows trip pullout = [] :=
  (mergedSections ok).filterOther (fun _ _ partition => partition.key) unknown

theorem filledKnown (ok : merge planned stops tolerance = .ok m) {trip : String} {pullout : Option Int}
    (filled : partitionOf m.rows trip pullout ≠ []) : (trip, pullout) ∈ partitionKeys planned stops := by
  by_contra unknown
  exact filled (mergedNothing ok unknown)

theorem filledPartition (ok : merge planned stops tolerance = .ok m) {trip : String} {pullout : Option Int}
    (filled : partitionOf m.rows trip pullout ≠ []) :
    Partition (planned.filter (·.tripId = trip)) trip pullout (partitionOf m.rows trip pullout) :=
  mergedPartition ok (filledKnown ok filled)

theorem mergedOnlyPullouts (ok : merge planned stops tolerance = .ok m) {trip : String} {pullout : Int}
    (filled : partitionOf m.rows trip (some pullout) ≠ []) : partitionOf m.rows trip none = [] := by
  refine mergedNothing ok fun alone => ?_
  have paired := filledKnown ok filled
  obtain ⟨⟨_, _⟩, _, alone⟩ := List.mem_flatMap.mp alone
  obtain ⟨⟨_, _⟩, _, paired⟩ := List.mem_flatMap.mp paired
  simp only [List.mem_map, Prod.mk.injEq] at alone paired
  obtain ⟨_, alone, rfl, rfl⟩ := alone
  obtain ⟨_, paired, rfl, rfl⟩ := paired
  unfold pulloutsOf at alone paired
  split at alone
  · simp_all
  · simp at alone

end Schedules

theorem mergedInterleaves (planned : List PlannedStop) (stops : List PulloutStop) (tolerance : Int) (m : Merged)
    (ok : merge planned stops tolerance = .ok m) :
    (m.rows.Pairwise fun a b =>
      compare (a.tripId, a.pullout, a.position) (b.tripId, b.pullout, b.position) = .lt) ∧
    (∀ trip pullout, partitionOf m.rows trip pullout = [] ∨
      Partition (planned.filter (·.tripId = trip)) trip pullout (partitionOf m.rows trip pullout)) ∧
    ∃ shown, List.Forall₂ SkeletonRow.Shows (m.rows.filter isPlanned) shown ∧
      ∀ g, shown.count g = max 1 (pulloutCount (stops.filter (·.tripId = g.tripId))) * planned.count g := by
  have sections := mergedSections ok
  refine ⟨?_, fun trip pullout => ?_, _, sections.pairedFilter fun _ _ partition => partition.shows, copies⟩
  · exact sections.pairwise (fun _ _ partition => partition.key) (fun _ _ partition => partition.ordered)
      (keysOrdered planned stops) fun a b less => compareMore less a.position b.position
  · by_cases empty : partitionOf m.rows trip pullout = []
    · exact .inl empty
    · exact .inr (filledPartition ok empty)

def halfHour : Int := 1800 * Instant.perSecond

def throughTrip : List PlannedStop := [("a", 5, 0), ("b", 6, 60), ("c", 8, 120), ("d", 9, 300)].map
  fun (stopId, sequence, seconds) => { tripId := "1", stopId, sequence, departure := some (.ofSeconds seconds) }

def throughPullouts : List PulloutStop :=
  [(7, "a", 1, 0), (7, "d", 4, 300), (7, "t", 3, 200), (8, "t", 1, 0), (8, "b", 2, 60), (8, "c", 3, 120)].map
    fun (pullout, stopId, sequence, seconds) =>
      { tripId := "1", pullout, stopId, sequence, departure := some (.ofSeconds seconds) }

def throughSeen (m : Merged) : List (List (Int × String × Option Int × Option Int)) :=
  [7, 8].map fun pullout =>
    (partitionOf m.rows "1" (some pullout)).map fun r => (r.position, r.stopId, r.gtfsSequence, r.tmSequence)

/- The first pullout passes a timepoint between two visits that it leaves out and the last; the other one passes it before its
first twin, which is not the first stop, and ends early. -/
theorem mergedInterleavesTwice : ∃ m, merge throughTrip throughPullouts halfHour = .ok m ∧
    throughSeen m =
      [[(1, "a", some 5, some 1), (2, "b", some 6, none), (3, "c", some 8, none), (4, "t", none, some 3), (5, "d", some 9, some 4)],
       [(1, "a", some 5, none), (2, "b", some 6, some 2), (3, "c", some 8, some 3), (4, "d", some 9, none)]] ∧
    (∀ pullout ∈ [7, 8], Partition throughTrip "1" (some pullout) (partitionOf m.rows "1" (some pullout))) ∧
    ∃ shown, List.Forall₂ SkeletonRow.Shows (m.rows.filter isPlanned) shown ∧ ∀ g ∈ throughTrip, shown.count g = 2 := by
  have evaluated : ((merge throughTrip throughPullouts halfHour).map throughSeen).toOption = some
      [[(1, "a", some 5, some 1), (2, "b", some 6, none), (3, "c", some 8, none), (4, "t", none, some 3), (5, "d", some 9, some 4)],
       [(1, "a", some 5, none), (2, "b", some 6, some 2), (3, "c", some 8, some 3), (4, "d", some 9, none)]] := by cbv
  cases ok : merge throughTrip throughPullouts halfHour with
  | error e => rw [ok] at evaluated; cases evaluated
  | ok m =>
    rw [ok] at evaluated
    have seen := Option.some.inj evaluated
    obtain ⟨_, partitions, shown, shows, count⟩ := mergedInterleaves throughTrip throughPullouts halfHour m ok
    refine ⟨m, rfl, seen, fun pullout known => ?_, shown, shows, fun g known => (count g).trans ?_⟩
    · have own : throughTrip.filter (·.tripId = "1") = throughTrip := by decide
      refine own ▸ (partitions "1" (some pullout)).resolve_left fun empty => ?_
      have along : (partitionOf m.rows "1" (some pullout)).map
          (fun r => (r.position, r.stopId, r.gtfsSequence, r.tmSequence)) ∈ throughSeen m :=
        List.mem_map_of_mem (f := fun pullout => (partitionOf m.rows "1" (some pullout)).map
          fun r => (r.position, r.stopId, r.gtfsSequence, r.tmSequence)) known
      rw [empty, seen] at along
      simp at along
    · revert g
      decide

end TransitTimeline.Skeleton
