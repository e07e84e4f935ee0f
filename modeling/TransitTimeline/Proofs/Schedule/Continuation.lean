import Mathlib.Algebra.Order.BigOperators.Group.List
import Mathlib.Algebra.Order.Ring.Int
import TransitTimeline.Proofs.Blocks
import TransitTimeline.Proofs.Order
import TransitTimeline.Proofs.Paired
import TransitTimeline.Schedule.Planned

/-! Numbers that continue along split trips: along a canonical trip the sequences of the planned stops never decrease,
as each part starts behind the numbers of the part before it. -/
namespace TransitTimeline.PlannedStop
open Std

def Ascending (rows : List PlannedStop) : Prop := rows.Pairwise fun a b => a.sequence ≤ b.sequence

section Parts
variable {part : List PlannedStop} {parts : List (List PlannedStop)} {offset : Int}

def greatest (part : List PlannedStop) : Int := (part.map (·.sequence)).max?.getD 0

def highest (parts : List (List PlannedStop)) : Int := (parts.map greatest).sum

def reached (offset : Int) (part : List PlannedStop) : Int :=
  ((part.map (shift offset)).map (·.sequence)).max?.getD offset

theorem continueCons (offset : Int) : (continueParts offset (part :: parts)).rows =
    part.map (shift offset) ++ (continueParts (reached offset part) parts).rows := rfl

theorem highestCons (part : List PlannedStop) (parts : List (List PlannedStop)) :
    highest (part :: parts) = greatest part + highest parts := rfl

theorem greatestOwn (filled : part ≠ []) :
    (∃ top ∈ part, top.sequence = greatest part) ∧ ∀ r ∈ part, r.sequence ≤ greatest part := by
  unfold greatest
  cases known : (part.map (·.sequence)).max? with
  | none => exact absurd (by simpa using List.max?_eq_none_iff.mp known) filled
  | some n =>
    obtain ⟨inside, most⟩ := List.max?_eq_some_iff.mp known
    obtain ⟨top, member, rfl⟩ := List.mem_map.mp inside
    exact ⟨⟨top, member, rfl⟩, fun r also => most _ (List.mem_map_of_mem also)⟩

theorem greatestMost : ∀ r ∈ part, r.sequence ≤ greatest part := fun r member =>
  (greatestOwn (List.ne_nil_of_mem member)).2 r member

theorem greatestPositive (positive : ∀ r ∈ part, 0 ≤ r.sequence) : 0 ≤ greatest part := by
  by_cases empty : part = []
  · rw [empty]
    exact Int.le_refl 0
  · obtain ⟨⟨top, member, own⟩, _⟩ := greatestOwn empty
    exact own ▸ positive top member

theorem highestPositive (positive : ∀ part ∈ parts, ∀ r ∈ part, 0 ≤ r.sequence) : 0 ≤ highest parts := by
  induction parts with
  | nil => exact Int.le_refl 0
  | cons part rest ih =>
    have own := greatestPositive (positive part List.mem_cons_self)
    have later := ih fun p member => positive p (List.mem_cons_of_mem _ member)
    rw [highestCons]
    omega

theorem greatestBelowSum (positive : ∀ r ∈ part, 0 ≤ r.sequence) : greatest part ≤ (part.map (·.sequence)).sum := by
  by_cases empty : part = []
  · rw [empty]
    exact Int.le_refl 0
  · obtain ⟨⟨top, member, own⟩, _⟩ := greatestOwn empty
    exact own ▸ List.single_le_sum (by simpa using positive) _ (List.mem_map_of_mem member)

theorem highestBelowSum (positive : ∀ part ∈ parts, ∀ r ∈ part, 0 ≤ r.sequence) :
    highest parts ≤ (parts.flatten.map (·.sequence)).sum := by
  induction parts with
  | nil => exact Int.le_refl 0
  | cons part rest ih =>
    obtain ⟨own, later⟩ := List.forall_mem_cons.mp positive
    rw [highestCons, List.flatten_cons, List.map_append, List.sum_append]
    exact Int.add_le_add (greatestBelowSum own) (ih later)

theorem shiftFits {r : PlannedStop} (low : 0 ≤ r.sequence + offset) (high : r.sequence + offset ≤ Text.Bounds.unsigned32.high) :
    (shift offset r).sequence = r.sequence + offset := Text.Bounds.wrapFits low high

structure Room (offset : Int) (part : List PlannedStop) : Prop where
  least : 0 ≤ offset
  positive : ∀ r ∈ part, 0 ≤ r.sequence
  most : offset + greatest part ≤ Text.Bounds.unsigned32.high

theorem Room.shifted (room : Room offset part) : ∀ r ∈ part, (shift offset r).sequence = r.sequence + offset := by
  intro r member
  have positive := room.positive r member
  have least := room.least
  have most := room.most
  have below := greatestMost r member
  exact shiftFits (by omega) (by omega)

theorem Room.reached (room : Room offset part) : reached offset part = offset + greatest part := by
  by_cases empty : part = []
  · rw [empty]
    exact (Int.add_zero offset).symm
  · obtain ⟨⟨top, member, own⟩, most⟩ := greatestOwn empty
    have greatest : ((part.map (shift offset)).map (·.sequence)).max? = some (offset + greatest part) := by
      apply List.max?_eq_some_iff.mpr
      constructor
      · apply List.mem_map.mpr
        refine ⟨shift offset top, List.mem_map_of_mem member, ?_⟩
        rw [room.shifted top member, own, Int.add_comm]
      · intro n inside
        obtain ⟨s, shifted, rfl⟩ := List.mem_map.mp inside
        obtain ⟨r, known, rfl⟩ := List.mem_map.mp shifted
        have below := most r known
        rw [room.shifted r known]
        omega
    rw [PlannedStop.reached, greatest, Option.getD_some]

theorem Room.shiftPairwise (room : Room offset part) {less : Int → Int → Prop}
    (moves : ∀ a b, less a b → less (a + offset) (b + offset)) (ordered : part.Pairwise fun a b => less a.sequence b.sequence) :
    (part.map (shift offset)).Pairwise fun a b => less a.sequence b.sequence := by
  refine List.pairwise_map.mpr (ordered.imp_of_mem fun {a b} ha hb known => ?_)
  rw [room.shifted a ha, room.shifted b hb]
  exact moves _ _ known

theorem continueAscending (offset : Int) (least : 0 ≤ offset) (positive : ∀ part ∈ parts, ∀ r ∈ part, 0 ≤ r.sequence)
    (room : offset + highest parts ≤ Text.Bounds.unsigned32.high) (ascending : ∀ part ∈ parts, Ascending part) :
    Ascending (continueParts offset parts).rows ∧ ∀ r ∈ (continueParts offset parts).rows, offset ≤ r.sequence := by
  induction parts generalizing offset with
  | nil => exact ⟨.nil, by simp [continueParts]⟩
  | cons part rest ih =>
    obtain ⟨own, later⟩ := List.forall_mem_cons.mp positive
    have grows := greatestPositive own
    have onward := highestPositive later
    rw [highestCons] at room
    have fits : Room offset part := ⟨least, own, by omega⟩
    obtain ⟨ordered, behind⟩ := ih (offset + greatest part) (by omega) later (by omega)
      fun p member => ascending p (List.mem_cons_of_mem _ member)
    rw [continueCons, fits.reached]
    constructor
    · refine List.pairwise_append.mpr ⟨fits.shiftPairwise (fun _ _ le => Int.add_le_add_right le offset)
        (ascending part List.mem_cons_self), ordered, ?_⟩
      intro a ha b hb
      obtain ⟨r, member, rfl⟩ := List.mem_map.mp ha
      have most := greatestMost r member
      have above := behind b hb
      rw [fits.shifted r member]
      omega
    · intro r member
      rcases List.mem_append.mp member with here | there
      · obtain ⟨s, inside, rfl⟩ := List.mem_map.mp here
        have above := own s inside
        rw [fits.shifted s inside]
        omega
      · exact Int.le_trans (by omega) (behind r there)

theorem continueFrom (offset : Int) : ∀ r ∈ (continueParts offset parts).rows, ∃ part ∈ parts, ∃ s ∈ part, r.tripId = s.tripId := by
  induction parts generalizing offset with
  | nil => simp [continueParts]
  | cons part rest ih =>
    intro r member
    simp only [continueParts] at member
    rcases List.mem_append.mp member with own | later
    · obtain ⟨s, inside, rfl⟩ := List.mem_map.mp own
      exact ⟨part, List.mem_cons_self, s, inside, rfl⟩
    · obtain ⟨p, inside, found⟩ := ih _ r later
      exact ⟨p, List.mem_cons_of_mem _ inside, found⟩

end Parts

section Trips
variable {rows : List PlannedStop}

theorem inOrderSorted (rows : List PlannedStop) : ∃ departure : String → Option Instant, (inOrder rows).Pairwise fun a b =>
    (compare (a.tripId, departure a.tripIdGtfs, a.tripIdGtfs, a.sequence)
      (b.tripId, departure b.tripIdGtfs, b.tripIdGtfs, b.sequence)).isLE :=
  ⟨firstDeparture (Groups.ofRows (·.tripIdGtfs) rows), sortOnSorted _ rows⟩

theorem partsAscending {trip part : List PlannedStop} (known : trip ∈ trips (inOrder rows)) (member : part ∈ parts trip) :
    Ascending part := by
  obtain ⟨departure, sorted⟩ := inOrderSorted rows
  have insideTrip : part.Sublist trip := splitSublist member
  have insideRows : trip.Sublist (inOrder rows) := splitSublist known
  refine (sorted.sublist (insideTrip.trans insideRows)).imp_of_mem fun {a b} ha hb le => ?_
  have sameTrip : a.tripId = b.tripId :=
    splitUniform (·.tripId) _ known a (insideTrip.subset ha) b (insideTrip.subset hb)
  have samePart : a.tripIdGtfs = b.tripIdGtfs := splitUniform (·.tripIdGtfs) _ member a ha b hb
  rw [sameTrip, samePart] at le
  simp only [comparePair, ReflCmp.compare_self, Ordering.eq_then] at le
  exact Std.isLE_compare.mp le

theorem tripsGrouped (rows : List PlannedStop) : Grouped (·.tripId) (inOrder rows) := by
  obtain ⟨departure, sorted⟩ := inOrderSorted rows
  refine groupedOfSorted (sorted.imp fun {a b} le => ?_)
  rw [comparePair, Ordering.isLE_then_iff_and] at le
  exact le.1

theorem continuedOfTrip (rows : List PlannedStop) (trip : String) :
    (continueTrips (inOrder rows)).rows.filter (·.tripId = trip) =
      (continueParts 0 (parts ((inOrder rows).filter (·.tripId = trip)))).rows := by
  have own : ∀ block, ∀ r ∈ (continueParts 0 (parts block)).rows, ∃ s ∈ block, r.tripId = s.tripId := by
    intro block r member
    obtain ⟨part, inside, s, known, same⟩ := continueFrom 0 r member
    exact ⟨s, (splitSublist inside).subset known, same⟩
  have blocks := (tripsGrouped rows).blocks
  have all := blocks.flatMapFilter (f := fun block => (continueParts 0 (parts block)).rows) own trip
  rw [List.flatten_splitBy] at all
  rw [continueTrips, List.flatMap_map]
  exact all

theorem tripPartsAscending {trip : String} {part : List PlannedStop}
    (member : part ∈ parts ((inOrder rows).filter (·.tripId = trip))) : Ascending part := by
  rcases (tripsGrouped rows).blocks.filterAny trip with empty | known
  · rw [List.flatten_splitBy] at empty
    rw [empty] at member
    cases member
  · rw [List.flatten_splitBy] at known
    exact partsAscending known member

/- No sum of the numbers along a trip leaves its bounds. -/
def NumbersFit (planned : List PlannedStop) : Prop :=
  ∀ trip, highest (parts (planned.filter (·.tripId = trip))) ≤ Text.Bounds.unsigned32.high

theorem numbersFitOfSum (positive : ∀ r ∈ rows, 0 ≤ r.sequence)
    (small : (rows.map (·.sequence)).sum ≤ Text.Bounds.unsigned32.high) : NumbersFit rows := by
  intro trip
  have own : (rows.filter (·.tripId = trip)).Sublist rows := List.filter_sublist
  have all : (parts (rows.filter (·.tripId = trip))).flatten = rows.filter (·.tripId = trip) := List.flatten_splitBy ..
  have below : highest (parts (rows.filter (·.tripId = trip))) ≤ _ := highestBelowSum fun part member r inside =>
    positive r (own.subset ((splitSublist member).subset inside))
  rw [all] at below
  exact below.trans (((own.map _).sum_le_sum (by simpa using positive)).trans small)

theorem continuedAscending (positive : ∀ r ∈ rows, 0 ≤ r.sequence) (fit : NumbersFit (inOrder rows)) (trip : String) :
    Ascending ((continueTrips (inOrder rows)).rows.filter (·.tripId = trip)) := by
  have known : ∀ part ∈ parts ((inOrder rows).filter (·.tripId = trip)), ∀ r ∈ part, 0 ≤ r.sequence := by
    intro part inside r own
    exact positive r (memSortOn.mp (List.mem_of_mem_filter ((splitSublist inside).subset own)))
  have room := fit trip
  rw [continuedOfTrip]
  exact (continueAscending 0 (Int.le_refl 0) known (by omega) fun part inside => tripPartsAscending inside).1

end Trips

theorem ofStopTimeMade {date : Day} {z : Zone} {lookup : Lookup} {st : Gtfs.StopTime} {r : PlannedStop}
    (made : ofStopTime date z lookup st = .ok (some r)) : ∃ trip, lookup.trips.find? st.tripId = some trip ∧
      r.tripIdGtfs = trip.tripId ∧ r.tripId = TripId.canonicalOf trip.tripId ∧ r.sequence = st.sequence := by
  unfold ofStopTime at made
  split at made
  · cases made
  · rename_i trip found
    obtain ⟨departure, _, made⟩ := okBind made
    rw [← Option.some.inj (Except.ok.inj made)]
    exact ⟨trip, found, rfl, rfl, rfl⟩

theorem ofStopTimeSequence {date : Day} {z : Zone} {lookup : Lookup} {st : Gtfs.StopTime} {r : PlannedStop}
    (made : ofStopTime date z lookup st = .ok (some r)) : r.sequence = st.sequence := by
  obtain ⟨_, _, _, _, sequence⟩ := ofStopTimeMade made
  exact sequence

section Tables
variable {date : Day} {z : Zone} {t : Gtfs.Tables} {rows : List PlannedStop}

theorem plannedFrom (ok : ofTables date z t = .ok rows) : ∃ stops, rows = inOrder stops ∧
    ∀ r ∈ stops, ∃ st ∈ t.stopTimes, ofStopTime date z (.ofTables date t) st = .ok (some r) := by
  obtain ⟨found, each, ok⟩ := okBind ok
  refine ⟨_, (Except.ok.inj ok).symm, fun r member => ?_⟩
  obtain ⟨known, inside, own⟩ := List.mem_filterMap.mp member
  obtain ⟨st, source, made⟩ := pairedMem (pairedMapM each) inside
  cases own
  exact ⟨st, source, made⟩

theorem plannedPositive (positive : ∀ st ∈ t.stopTimes, 0 ≤ st.sequence) (ok : ofTables date z t = .ok rows) :
    ∃ stops, rows = inOrder stops ∧ ∀ r ∈ stops, 0 ≤ r.sequence := by
  obtain ⟨stops, order, made⟩ := plannedFrom ok
  refine ⟨stops, order, fun r member => ?_⟩
  obtain ⟨st, source, made⟩ := made r member
  rw [ofStopTimeSequence made]
  exact positive st source

end Tables

end TransitTimeline.PlannedStop
