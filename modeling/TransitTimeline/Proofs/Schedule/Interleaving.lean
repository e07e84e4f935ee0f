import TransitTimeline.Proofs.Column
import TransitTimeline.Proofs.Paired
import TransitTimeline.Proofs.Schedule.Pairing

/-! A merged pullout is one interleaving of its stops with the planned trip: read in order, its rows show every
planned stop once, in the order of the trip, and the pullout's stops in the order of their sequences. -/
namespace TransitTimeline.Skeleton
open Pairing (Forward)
open Std

inductive Placing (planned : List PlannedStop) (stops : List PulloutStop) (keys : List (Option Int)) (pullout : Int) :
    Placed → Prop
  | joined {g t i} (known : planned[i]? = some g) (own : t ∈ stops) (key : keys[i]? = some (some t.sequence)) :
      Placing planned stops keys pullout ⟨(some t.sequence, some i), .ofStops (some g) (some t) (some pullout)⟩
  | unpaired {t} (own : t ∈ stops) :
      Placing planned stops keys pullout ⟨(some t.sequence, none), .ofStops none (some t) (some pullout)⟩
  | left {g i last} (known : planned[i]? = some g) (key : keys[i]? = some last) :
      Placing planned stops keys pullout ⟨(last, some i), .ofStops (some g) none (some pullout)⟩

def keysOf (planned : List PlannedStop) (pairings : List Pairing) : List (Option Int) :=
  Column.fill ((Visit.ofStops planned).map (takenAt pairings))

def sourceOf (planned : List PlannedStop) (x : Placed) : Option PlannedStop := x.key.2.bind (planned[·]?)

section Placing
variable {planned : List PlannedStop} {pairings : List Pairing} {stops : List PulloutStop} {pullout : Int}

theorem placing (forward : Forward (Visit.ofStops planned) pairings) {x : Placed}
    (member : x ∈ placed (Visit.ofStops planned) pairings pullout) :
    Placing planned (pairings.map (·.stop)) (keysOf planned pairings) pullout x := by
  rcases List.mem_append.mp member with stop | rest
  · obtain ⟨p, hp, rfl⟩ := List.mem_map.mp stop
    cases own : p.visit with
    | none => exact .unpaired (List.mem_map_of_mem hp)
    | some v =>
      have known := forward.known p hp v own
      have place := Visit.memOfStops.mp known
      refine .joined place (List.mem_map_of_mem hp) (Column.fillKeeps ?_)
      rw [List.getElem?_map, Visit.ofStopsAt, place, Option.map_some, Option.map_some]
      exact congrArg some (takenAtOf forward hp own)
  · obtain ⟨⟨v, key⟩, inside, rfl⟩ := List.mem_map.mp rest
    obtain ⟨i, at?⟩ := List.mem_iff_getElem?.mp (List.mem_of_mem_filter inside)
    obtain ⟨hv, hkey⟩ := List.getElem?_zip_eq_some.mp at?
    rw [Visit.ofStopsAt] at hv
    obtain ⟨g, known, rfl⟩ := Option.map_eq_some_iff.mp hv
    exact .left known hkey

theorem keysSorted (forward : Forward (Visit.ofStops planned) pairings) :
    (keysOf planned pairings).Pairwise fun a b => (compare a b).isLE :=
  Column.fillSorted ((takenAtOrdered forward (Visit.ofStopsOrdered planned)).imp Std.isLE_compare.mpr)

theorem keysAt {keys : List (Option Int)} {x : Placed} (known : Placing planned stops keys pullout x) {i : Nat}
    (place : x.key.2 = some i) : keys[i]? = some x.key.1 := by
  cases known with
  | joined _ _ key => cases place; exact key
  | unpaired => cases place
  | left _ key => cases place; exact key

/- Where the filled keys tie, the place along the trip decides. -/
theorem placesOrdered (forward : Forward (Visit.ofStops planned) pairings) {x y : Placed}
    (hx : Placing planned stops (keysOf planned pairings) pullout x)
    (hy : Placing planned stops (keysOf planned pairings) pullout y)
    (le : (compare x.key y.key).isLE) : ∀ i ∈ x.key.2, ∀ j ∈ y.key.2, i ≤ j := by
  intro i hi j hj
  by_contra behind
  have swapped : (compare y.key.1 x.key.1).isLE := by
    obtain ⟨insideI, ownI⟩ := List.getElem?_eq_some_iff.mp (keysAt hx hi)
    obtain ⟨insideJ, ownJ⟩ := List.getElem?_eq_some_iff.mp (keysAt hy hj)
    rw [← ownI, ← ownJ]
    exact List.pairwise_iff_getElem.mp (keysSorted forward) j i insideJ insideI (by omega)
  rw [comparePair, Ordering.isLE_then_iff_and] at le
  have tie : compare x.key.1 y.key.1 = .eq := OrientedCmp.isLE_antisymm le.1 swapped
  rcases le.2 with less | places
  · rw [tie] at less
    cases less
  · rw [Option.mem_def.mp hi, Option.mem_def.mp hj] at places
    have below : i ≤ j := Std.isLE_compare.mp places
    omega

theorem takenVisits (forward : Forward (Visit.ofStops planned) pairings) : (pairings.filterMap (·.visit)).Perm
    ((Visit.ofStops planned).filter fun v => (takenAt pairings v).isSome) := by
  refine (List.perm_ext_iff_of_nodup (Visit.orderedDistinct (List.pairwise_filterMap.mpr forward.places))
    (Visit.orderedDistinct ((Visit.ofStopsOrdered planned).filter _))).mpr fun v => ?_
  rw [List.mem_filterMap, List.mem_filter]
  constructor
  · rintro ⟨p, member, own⟩
    exact ⟨forward.known p member v own, by simp [takenAtOf forward member own]⟩
  · rintro ⟨_, known⟩
    obtain ⟨sequence, known⟩ := Option.isSome_iff_exists.mp known
    obtain ⟨p, member, own, _⟩ := takenAtSome known
    exact ⟨p, member, own⟩

theorem leftVisits (planned : List PlannedStop) (pairings : List Pairing) :
    (((Visit.ofStops planned).zip (keysOf planned pairings)).filter
        fun x => (takenAt pairings x.1).isNone).map (·.1.place) =
      ((Visit.ofStops planned).filter fun v => !(takenAt pairings v).isSome).map (·.place) := by
  have firsts : ((Visit.ofStops planned).zip (keysOf planned pairings)).map Prod.fst = Visit.ofStops planned :=
    List.map_fst_zip (by simp [keysOf, Column.fillLength])
  conv => rhs; rw [← firsts]
  simp [List.filter_map, Function.comp_def]

theorem placesOnce (forward : Forward (Visit.ofStops planned) pairings) :
    ((placed (Visit.ofStops planned) pairings pullout).filterMap (·.key.2)).Perm (List.range planned.length) := by
  have all := ((takenVisits forward).append_right _).trans (List.filter_append_perm _ (Visit.ofStops planned))
  have places := all.map (·.place)
  rw [Visit.ofStopsPlaces, List.map_append, ← leftVisits] at places
  simpa [placed, keysOf, List.filterMap_map, List.map_filterMap, Function.comp_def] using places

theorem placesSorted (pullout : Int) (forward : Forward (Visit.ofStops planned) pairings) :
    (sortOn (·.key) (placed (Visit.ofStops planned) pairings pullout)).filterMap (·.key.2) =
      List.range planned.length := by
  have sorted := sortOnSorted (·.key) (placed (Visit.ofStops planned) pairings pullout)
  have ordered : ((sortOn (·.key) (placed (Visit.ofStops planned) pairings pullout)).filterMap (·.key.2)).Pairwise
      (· ≤ ·) := by
    refine List.pairwise_filterMap.mpr (sorted.imp_of_mem fun {x y} hx hy le => ?_)
    exact placesOrdered forward (placing forward (memSortOn.mp hx)) (placing forward (memSortOn.mp hy)) le
  have once := ((sortOnPerm (·.key) (placed (Visit.ofStops planned) pairings pullout)).filterMap (·.key.2)).trans
    (placesOnce forward)
  exact once.eq_of_pairwise (fun _ _ _ _ => Nat.le_antisymm) ordered List.pairwise_le_range

theorem eachPlace (planned : List PlannedStop) : (List.range planned.length).filterMap (planned[·]?) = planned := by
  induction planned with
  | nil => rfl
  | cons g rest ih => simpa [List.range_succ_eq_map, List.filterMap_map, Function.comp_def] using ih

theorem sourcesSorted (pullout : Int) (forward : Forward (Visit.ofStops planned) pairings) :
    (sortOn (·.key) (placed (Visit.ofStops planned) pairings pullout)).filterMap (sourceOf planned) = planned := by
  have places := congrArg (List.filterMap (planned[·]?)) (placesSorted pullout forward)
  rw [List.filterMap_filterMap] at places
  exact places.trans (eachPlace planned)

end Placing

structure Comes (planned : List PlannedStop) (stops : List PulloutStop) (pullout : Option Int)
    (g : Option PlannedStop) (t : Option PulloutStop) (r : SkeletonRow) : Prop where
  row : r = .ofStops g t pullout
  planned : ∀ s ∈ g, s ∈ planned
  stops : ∀ s ∈ t, s ∈ stops
  known : g.isSome ∨ t.isSome

theorem Placing.comes {planned : List PlannedStop} {stops : List PulloutStop} {keys : List (Option Int)} {pullout : Int}
    {x : Placed} (known : Placing planned stops keys pullout x) :
    ∃ t, Comes planned stops (some pullout) (sourceOf planned x) t x.row := by
  cases known with
  | @joined g t i known own key => exact ⟨some t, by constructor <;> simp [sourceOf, known, own, List.mem_of_getElem? known]⟩
  | @unpaired t own => exact ⟨some t, by constructor <;> simp [sourceOf, own]⟩
  | @left g i last known _ => exact ⟨none, by constructor <;> simp [sourceOf, known, List.mem_of_getElem? known]⟩

structure Interleaved (planned : List PlannedStop) (stops : List PulloutStop) (pullout : Option Int)
    (rows : List SkeletonRow) : Prop where
  comes : ∀ r ∈ rows, ∃ g t, Comes planned stops pullout g t r
  shows : List.Forall₂ (fun r g => ∃ t, r = .ofStops (some g) t pullout) (rows.filter isPlanned) planned
  sequences : (rows.filterMap (·.tmSequence)).Pairwise (· ≤ ·)

theorem Interleaved.plannedRow {planned : List PlannedStop} {stops : List PulloutStop} {pullout : Option Int}
    {rows : List SkeletonRow} (interleaved : Interleaved planned stops pullout rows) (some : planned ≠ []) :
    ∃ r ∈ rows, isPlanned r := by
  obtain ⟨g, member⟩ := List.exists_mem_of_ne_nil planned some
  obtain ⟨r, inside, _⟩ := pairedMem interleaved.shows member
  exact ⟨r, List.mem_of_mem_filter inside, (List.mem_filter.mp inside).2⟩

theorem isPlannedOfStops (g : Option PlannedStop) (t : Option PulloutStop) (pullout : Option Int) :
    isPlanned (.ofStops g t pullout) = g.isSome := by
  cases g <;> rfl

theorem interleavedAlone (planned : List PlannedStop) :
    Interleaved planned [] none (planned.map fun g => .ofStops (some g) none none) where
  comes := by
    intro r member
    obtain ⟨g, known, rfl⟩ := List.mem_map.mp member
    exact ⟨some g, none, by constructor <;> simp [known]⟩
  shows := by
    have all : (planned.map fun g => SkeletonRow.ofStops (some g) none none).filter isPlanned =
        planned.map fun g => SkeletonRow.ofStops (some g) none none :=
      List.filter_eq_self.mpr fun r member => by
        obtain ⟨g, _, rfl⟩ := List.mem_map.mp member
        exact isPlannedOfStops (some g) none none
    rw [all]
    exact List.forall₂_map_left_iff.mpr (List.forall₂_same.mpr fun g _ => ⟨none, rfl⟩)
  sequences := by
    have none : (planned.map fun g => SkeletonRow.ofStops (some g) none none).filterMap (·.tmSequence) = [] := by
      simp [SkeletonRow.ofStops]
    rw [none]
    exact .nil

theorem Placing.sequence {planned : List PlannedStop} {stops : List PulloutStop} {keys : List (Option Int)} {pullout : Int}
    {x : Placed} (known : Placing planned stops keys pullout x) : ∀ s ∈ x.row.tmSequence, x.key.1 = some s := by
  intro s hs
  cases known with
  | joined _ _ _ => exact hs
  | unpaired _ => exact hs
  | left _ _ => cases hs

theorem interleavedPullout {planned : List PlannedStop} {pairings : List Pairing} (pullout : Int)
    (forward : Forward (Visit.ofStops planned) pairings) :
    Interleaved planned (pairings.map (·.stop)) (some pullout)
      ((sortOn (·.key) (placed (Visit.ofStops planned) pairings pullout)).map (·.row)) := by
  have known : ∀ x ∈ sortOn (·.key) (placed (Visit.ofStops planned) pairings pullout),
      Placing planned (pairings.map (·.stop)) (keysOf planned pairings) pullout x :=
    fun x member => placing forward (memSortOn.mp member)
  have sorted := sortOnSorted (·.key) (placed (Visit.ofStops planned) pairings pullout)
  have sources := sourcesSorted pullout forward
  generalize sortOn (·.key) (placed (Visit.ofStops planned) pairings pullout) = rows at known sorted sources
  refine ⟨?_, ?_, ?_⟩
  · intro r member
    obtain ⟨x, hx, rfl⟩ := List.mem_map.mp member
    exact ⟨_, (known x hx).comes⟩
  · have own : rows.filter (isPlanned ·.row) = rows.filter fun x => (sourceOf planned x).isSome :=
      List.filter_congr fun x hx => by
        obtain ⟨t, comes⟩ := (known x hx).comes
        rw [comes.row, isPlannedOfStops]
    have defined := pairedDefined (sourceOf planned) rows
    rw [sources, ← own] at defined
    rw [List.filter_map, List.forall₂_map_left_iff]
    have inside : ∀ x ∈ rows.filter (isPlanned ·.row), x ∈ rows := fun x hx => List.mem_of_mem_filter hx
    refine ((List.forall₂_and_left _ _).mpr ⟨inside, defined⟩).imp fun x g ⟨hx, source⟩ => ?_
    obtain ⟨t, comes⟩ := (known x hx).comes
    exact ⟨t, by rw [comes.row, source]⟩
  · rw [List.filterMap_map]
    refine List.pairwise_filterMap.mpr (sorted.imp_of_mem fun {x y} hx hy le => ?_)
    intro s hs t ht
    rw [comparePair, Ordering.isLE_then_iff_and, (known x hx).sequence s hs, (known y hy).sequence t ht] at le
    exact Std.isLE_compare.mp le.1

end TransitTimeline.Skeleton
