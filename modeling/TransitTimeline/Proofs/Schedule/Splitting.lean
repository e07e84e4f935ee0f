import Mathlib
import TransitTimeline.Proofs.Schedule.Continuation

/-! Where the numbers along a split trip strictly increase. A part behind another one continues at the greatest number
before it, so its first stop stands past that number exactly when its own number is above zero and the sum keeps to its
32 bits; one that wraps around stands before it. -/
namespace TransitTimeline.PlannedStop
open Std

def Increasing (rows : List PlannedStop) : Prop := rows.Pairwise fun a b => a.sequence < b.sequence

section Parts
variable {part : List PlannedStop} {parts : List (List PlannedStop)} {offset : Int}

def Numbered (part : List PlannedStop) : Prop :=
  ∀ r ∈ part, 0 ≤ r.sequence ∧ r.sequence ≤ Text.Bounds.unsigned32.high

theorem Numbered.greatest (numbered : Numbered part) : PlannedStop.greatest part ≤ Text.Bounds.unsigned32.high := by
  by_cases empty : part = []
  · rw [empty]
    decide
  · obtain ⟨⟨top, member, own⟩, _⟩ := greatestOwn empty
    exact own ▸ (numbered top member).2

theorem wrapPast {n : Int} (past : Text.Bounds.unsigned32.high < n + offset) (bounded : n ≤ Text.Bounds.unsigned32.high) :
    Text.Bounds.unsigned32.wrap (n + offset) < offset := by
  unfold Text.Bounds.wrap
  simp only [Text.Bounds.unsigned32] at past bounded ⊢
  omega

theorem increasingCons (room : Room offset part) (filled : part ≠ []) (increasing : Increasing part) :
    Increasing (continueParts offset (part :: parts)).rows ↔
      Increasing (continueParts (offset + greatest part) parts).rows ∧
        ∀ r ∈ (continueParts (offset + greatest part) parts).rows, offset + greatest part < r.sequence := by
  obtain ⟨⟨top, member, own⟩, most⟩ := greatestOwn filled
  rw [continueCons, room.reached, Increasing, List.pairwise_append]
  constructor
  · rintro ⟨_, later, across⟩
    refine ⟨later, fun r behind => ?_⟩
    have less := across (shift offset top) (List.mem_map_of_mem member) r behind
    rwa [room.shifted top member, own, Int.add_comm] at less
  · rintro ⟨later, behind⟩
    refine ⟨room.shiftPairwise (fun _ _ less => Int.add_lt_add_right less offset) increasing, later, ?_⟩
    intro a ha b hb
    obtain ⟨r, inside, rfl⟩ := List.mem_map.mp ha
    have below := most r inside
    have above := behind b hb
    rw [room.shifted r inside]
    omega

theorem continueIncreasing (offset : Int) (least : 0 ≤ offset) (bounded : offset ≤ Text.Bounds.unsigned32.high)
    (filled : [] ∉ parts) (numbered : ∀ part ∈ parts, Numbered part) (increasing : ∀ part ∈ parts, Increasing part) :
    (Increasing (continueParts offset parts).rows ∧ ∀ r ∈ (continueParts offset parts).rows, offset < r.sequence) ↔
      (∀ part ∈ parts, ∀ r ∈ part, 0 < r.sequence) ∧ offset + highest parts ≤ Text.Bounds.unsigned32.high := by
  induction parts generalizing offset with
  | nil => simpa [continueParts, Increasing, highest] using bounded
  | cons part rest ih =>
    have own : part ≠ [] := fun empty => filled (empty ▸ List.mem_cons_self)
    obtain ⟨numbers, numbersLater⟩ := List.forall_mem_cons.mp numbered
    obtain ⟨⟨top, known, greatest⟩, most⟩ := greatestOwn own
    have grows := greatestPositive fun r member => (numbers r member).1
    have onward := highestPositive fun p member r inside => (numbersLater p member r inside).1
    rw [highestCons]
    by_cases fits : offset + PlannedStop.greatest part ≤ Text.Bounds.unsigned32.high
    · have room : Room offset part := ⟨least, fun r member => (numbers r member).1, fits⟩
      have later := ih (offset + PlannedStop.greatest part) (by omega) fits
        (fun member => filled (List.mem_cons_of_mem _ member)) numbersLater
        fun p member => increasing p (List.mem_cons_of_mem _ member)
      have shifted : (∀ r ∈ part.map (shift offset), offset < r.sequence) ↔ ∀ r ∈ part, 0 < r.sequence := by
        rw [List.forall_mem_map]
        refine forall₂_congr fun r member => ?_
        rw [room.shifted r member]
        omega
      rw [increasingCons room own (increasing part List.mem_cons_self), later, continueCons, room.reached,
        List.forall_mem_append, shifted, List.forall_mem_cons, Int.add_assoc]
      constructor
      · rintro ⟨⟨rest, high⟩, here, _⟩
        exact ⟨⟨here, rest⟩, high⟩
      · rintro ⟨⟨here, rest⟩, high⟩
        refine ⟨⟨rest, high⟩, here, fun r member => ?_⟩
        have above := (later.mpr ⟨rest, by omega⟩).2 r member
        omega
    · -- the greatest number of the part wraps around to one below what is added
      have past : Text.Bounds.unsigned32.high < top.sequence + offset := by omega
      have back := wrapPast past (numbers top known).2
      constructor
      · rintro ⟨_, above⟩
        have less := above (shift offset top) (by rw [continueCons]; exact List.mem_append_left _ (List.mem_map_of_mem known))
        exact absurd less (Int.not_lt.mpr (Int.le_of_lt back))
      · rintro ⟨_, high⟩
        omega

/- Parts of one trip increase together where every stop behind the first part has a number of its own above zero, and the
greatest numbers of the parts add up to one of 32 bits. -/
theorem increasingTogether (blocks : Blocks (·.tripIdGtfs) parts) (numbered : ∀ part ∈ parts, Numbered part)
    (increasing : ∀ part ∈ parts, Increasing part) :
    Increasing (continueParts 0 parts).rows ↔
      (∀ first ∈ parts.flatten.head?, ∀ r ∈ parts.flatten, r.tripIdGtfs ≠ first.tripIdGtfs → 0 < r.sequence) ∧
        highest parts ≤ Text.Bounds.unsigned32.high := by
  cases parts with
  | nil => simp [continueParts, Increasing, highest, Text.Bounds.unsigned32]
  | cons part rest =>
    obtain ⟨first, others, rfl⟩ := List.exists_cons_of_ne_nil fun empty => blocks.filled (empty ▸ List.mem_cons_self)
    obtain ⟨numbers, numbersLater⟩ := List.forall_mem_cons.mp numbered
    have grows := greatestPositive fun r member => (numbers r member).1
    have most := numbers.greatest
    have behind (r : PlannedStop) := blocks.memTail (a := first) (r := r) List.mem_cons_self
    have head : ((first :: others) :: rest).flatten.head? = some first := rfl
    rw [increasingCons ⟨Int.le_refl 0, fun r member => (numbers r member).1, by omega⟩ (List.cons_ne_nil _ _)
        (increasing _ List.mem_cons_self),
      continueIncreasing _ (by omega) (by omega) blocks.tail.filled numbersLater
        fun p member => increasing p (List.mem_cons_of_mem _ member), head, highestCons, Int.zero_add]
    refine and_congr_left fun _ => ?_
    constructor
    · rintro positive _ ⟨⟩ r member other
      obtain ⟨p, known, inside⟩ := (behind r).mpr ⟨member, other⟩
      exact positive p known r inside
    · intro positive p known r inside
      obtain ⟨member, other⟩ := (behind r).mp ⟨p, known, inside⟩
      exact positive first rfl r member other

end Parts

section Trips
variable {rows : List PlannedStop} {trip : String}

theorem partsGrouped (rows : List PlannedStop) (trip : String) :
    Grouped (·.tripIdGtfs) ((inOrder rows).filter (·.tripId = trip)) := by
  obtain ⟨departure, sorted⟩ := inOrderSorted rows
  have finer : Grouped (fun r : PlannedStop => (departure r.tripIdGtfs, r.tripIdGtfs))
      ((inOrder rows).filter (·.tripId = trip)) := by
    refine groupedOfSorted ((sorted.filter _).imp_of_mem fun {a b} ha hb le => ?_)
    have tripA : a.tripId = trip := of_decide_eq_true (List.mem_filter.mp ha).2
    have tripB : b.tripId = trip := of_decide_eq_true (List.mem_filter.mp hb).2
    rw [tripA, tripB] at le
    simp only [comparePair, ReflCmp.compare_self, Ordering.eq_then] at le ⊢
    rw [← Ordering.then_assoc] at le
    exact (Ordering.isLE_then_iff_and.mp le).1
  have same : (fun a b : PlannedStop => decide ((departure a.tripIdGtfs, a.tripIdGtfs) = (departure b.tripIdGtfs, b.tripIdGtfs))) =
      fun a b => decide (a.tripIdGtfs = b.tripIdGtfs) := by
    funext a b
    exact decide_eq_decide.mpr ⟨fun same => (Prod.mk.inj same).2, fun same => by rw [same]⟩
  unfold Grouped at finer ⊢
  rw [same] at finer
  exact finer.imp fun apart a ha b hb (same : a.tripIdGtfs = b.tripIdGtfs) => apart a ha b hb (by simp only [same])

def Distinct (rows : List PlannedStop) : Prop :=
  rows.Pairwise fun a b => a.tripIdGtfs = b.tripIdGtfs → a.sequence ≠ b.sequence

theorem partsIncreasing (distinct : Distinct (inOrder rows)) {part : List PlannedStop}
    (member : part ∈ parts ((inOrder rows).filter (·.tripId = trip))) : Increasing part := by
  have apart := distinct.sublist ((splitSublist member).trans List.filter_sublist)
  refine ((tripPartsAscending member).and apart).imp_of_mem fun {a b} ha hb both => ?_
  have different := both.2 (splitUniform (·.tripIdGtfs) _ member a ha b hb)
  omega

theorem continuedIncreasing (distinct : Distinct (inOrder rows)) (numbered : Numbered (inOrder rows)) (trip : String) :
    Increasing ((continueTrips (inOrder rows)).rows.filter (·.tripId = trip)) ↔
      (∀ first ∈ ((inOrder rows).filter (·.tripId = trip)).head?, ∀ r ∈ (inOrder rows).filter (·.tripId = trip),
        r.tripIdGtfs ≠ first.tripIdGtfs → 0 < r.sequence) ∧
        highest (parts ((inOrder rows).filter (·.tripId = trip))) ≤ Text.Bounds.unsigned32.high := by
  have numbers : ∀ part ∈ parts ((inOrder rows).filter (·.tripId = trip)), Numbered part := by
    intro part member r inside
    exact numbered r (List.mem_of_mem_filter ((splitSublist member).subset inside))
  have together := increasingTogether (partsGrouped rows trip).blocks numbers fun part member => partsIncreasing distinct member
  rw [List.flatten_splitBy] at together
  rw [continuedOfTrip]
  exact together

end Trips

section Tables
variable {date : Day} {z : Zone} {t : Gtfs.Tables} {planned : List PlannedStop}

theorem ofStopTimeTrip {st : Gtfs.StopTime} {r : PlannedStop}
    (made : ofStopTime date z (.ofTables date t) st = .ok (some r)) : r.tripIdGtfs = st.tripId := by
  obtain ⟨trip, found, own, _, _⟩ := ofStopTimeMade made
  rw [own]
  exact Index.keyOfFound found

theorem plannedDistinct (distinct : t.stopTimes.Pairwise fun a b => a.tripId = b.tripId → a.sequence ≠ b.sequence)
    (ok : ofTables date z t = .ok planned) : ∃ stops, planned = inOrder stops ∧ Distinct planned := by
  obtain ⟨found, each, ok⟩ := okBind ok
  have order := (Except.ok.inj ok).symm
  have kept : Distinct (found.filterMap id) := by
    refine List.pairwise_filterMap.mpr (pairedPairwise (pairedMapM each) distinct ?_)
    rintro a b _ _ madeA madeB apart r rfl s rfl same
    rw [ofStopTimeSequence madeA, ofStopTimeSequence madeB]
    rw [ofStopTimeTrip madeA, ofStopTimeTrip madeB] at same
    exact apart same
  refine ⟨_, order, ?_⟩
  rw [order]
  exact ((sortOnPerm _ _).pairwise_iff fun apart same => (apart same.symm).symm).mpr kept

theorem plannedNumbered (numbered : ∀ st ∈ t.stopTimes, 0 ≤ st.sequence ∧ st.sequence ≤ 4294967295)
    (ok : ofTables date z t = .ok planned) : Numbered planned := by
  obtain ⟨stops, rfl, made⟩ := plannedFrom ok
  intro r member
  obtain ⟨st, source, made⟩ := made r (memSortOn.mp member)
  rw [ofStopTimeSequence made]
  exact numbered st source

theorem continuedIncreasesExactly (date : Day) (z : Zone) (t : Gtfs.Tables) (planned : List PlannedStop)
    (numbered : ∀ st ∈ t.stopTimes, 0 ≤ st.sequence ∧ st.sequence ≤ 4294967295)
    (distinct : t.stopTimes.Pairwise fun a b => a.tripId = b.tripId → a.sequence ≠ b.sequence)
    (ok : ofTables date z t = .ok planned) (trip : String) :
    Increasing ((continueTrips planned).rows.filter (·.tripId = trip)) ↔
      (∀ first ∈ (planned.filter (·.tripId = trip)).head?, ∀ r ∈ planned.filter (·.tripId = trip),
        r.tripIdGtfs ≠ first.tripIdGtfs → 0 < r.sequence) ∧
        highest (parts (planned.filter (·.tripId = trip))) ≤ 4294967295 := by
  have numbers := plannedNumbered numbered ok
  obtain ⟨stops, rfl, distinct⟩ := plannedDistinct distinct ok
  exact continuedIncreasing distinct numbers trip

end Tables

section TwoParts

def twoParts (second : List Int) : Gtfs.Tables where
  trips := ["100_1", "100_2"].map fun tripId => { routeId := "r", serviceId := "s", tripId }
  routes := [{ routeId := "r", routeType := 3 }]
  exceptions := [{ serviceId := "s", date := "19700101", kind := 1 }]
  stopTimes := ([1, 2].map fun sequence => { tripId := "100_1", stopId := "a", sequence }) ++
    second.map fun sequence => { tripId := "100_2", stopId := "b", sequence }

theorem twoServices (second : List Int) : Gtfs.activeServices ⟨0⟩ (twoParts second).weeks (twoParts second).exceptions =
    (∅ : TreeSet String).insert "s" := by
  have day : Day.ofCompact? "19700101" = some ⟨0⟩ := by cbv
  simp [Gtfs.activeServices, Gtfs.Exception.apply, Gtfs.weeklyServices, twoParts, day]

theorem countedPlanned : ((ofTables ⟨0⟩ ⟨"UTC", 0, []⟩ (twoParts [1, 3])).map fun planned =>
    (planned.map (·.sequence), highest (parts (planned.filter (·.tripId = "100"))))).toOption = some ([1, 2, 1, 3], 5) := by
  unfold ofTables Lookup.ofTables
  rw [twoServices]
  cbv

theorem continuedIncreasesFromOne :
    (∀ st ∈ (twoParts [1, 3]).stopTimes, 0 ≤ st.sequence ∧ st.sequence ≤ 4294967295) ∧
    ((twoParts [1, 3]).stopTimes.Pairwise fun a b => a.tripId = b.tripId → a.sequence ≠ b.sequence) ∧
      ∃ planned, ofTables ⟨0⟩ ⟨"UTC", 0, []⟩ (twoParts [1, 3]) = .ok planned ∧
        Increasing ((continueTrips planned).rows.filter (·.tripId = "100")) := by
  have numbered : ∀ st ∈ (twoParts [1, 3]).stopTimes, 0 ≤ st.sequence ∧ st.sequence ≤ 4294967295 := by simp [twoParts]
  have distinct : (twoParts [1, 3]).stopTimes.Pairwise fun a b => a.tripId = b.tripId → a.sequence ≠ b.sequence := by
    simp [twoParts]
  have evaluated := countedPlanned
  cases ok : ofTables ⟨0⟩ ⟨"UTC", 0, []⟩ (twoParts [1, 3]) with
  | error e => rw [ok] at evaluated; cases evaluated
  | ok planned =>
    rw [ok] at evaluated
    obtain ⟨numbers, sum⟩ := Prod.mk.inj (Option.some.inj evaluated)
    refine ⟨numbered, distinct, planned, rfl, ?_⟩
    refine (continuedIncreasesExactly ⟨0⟩ ⟨"UTC", 0, []⟩ (twoParts [1, 3]) planned numbered distinct ok "100").mpr
      ⟨?_, by rw [sum]; decide⟩
    intro first _ r member _
    have known : r.sequence ∈ planned.map (·.sequence) := List.mem_map_of_mem (List.mem_of_mem_filter member)
    rw [numbers] at known
    revert known
    generalize r.sequence = n
    simp
    omega

theorem zeroContinued : ((ofTables ⟨0⟩ ⟨"UTC", 0, []⟩ (twoParts [0, 1])).map fun planned =>
    ((continueTrips planned).rows.filter (·.tripId = "100")).map (·.sequence)).toOption = some [1, 2, 2, 3] := by
  unfold ofTables Lookup.ofTables
  rw [twoServices]
  cbv

/- The second part starts at zero, and its first stop repeats the last number of the first part. -/
theorem continuedRepeatsFromZero :
    ((twoParts [0, 1]).stopTimes.Pairwise fun a b => a.tripId = b.tripId → a.sequence ≠ b.sequence) ∧
      ∃ planned, ofTables ⟨0⟩ ⟨"UTC", 0, []⟩ (twoParts [0, 1]) = .ok planned ∧
        ¬Increasing ((continueTrips planned).rows.filter (·.tripId = "100")) := by
  have evaluated := zeroContinued
  cases ok : ofTables ⟨0⟩ ⟨"UTC", 0, []⟩ (twoParts [0, 1]) with
  | error e => rw [ok] at evaluated; cases evaluated
  | ok planned =>
    rw [ok] at evaluated
    have numbers : ((continueTrips planned).rows.filter (·.tripId = "100")).map (·.sequence) = [1, 2, 2, 3] :=
      Option.some.inj evaluated
    refine ⟨by simp [twoParts], planned, rfl, fun increasing => ?_⟩
    have ordered := List.pairwise_map.mpr increasing
    rw [numbers] at ordered
    revert ordered
    decide

end TwoParts

end TransitTimeline.PlannedStop
