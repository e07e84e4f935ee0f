import Mathlib
import TransitTimeline.Observation.Gtfs
import TransitTimeline.Proofs.Schedule.Splitting
import TransitTimeline.Proofs.TripId

/-! One shift for each published trip. What is added to the numbers of its planned stops is also what the returned
offsets add to the observations of the trip and of its overload vehicles. Both additions are of 32 bits, so where the one
wraps around the other does. -/
namespace TransitTimeline.PlannedStop

def Continued.added (c : Continued) (id : String) : Int := ((c.index.find? id).map Prod.snd).getD 0

def Continued.append (a b : Continued) : Continued := ⟨a.rows ++ b.rows, a.offsets ++ b.offsets⟩

structure Renumbers (rows : List PlannedStop) (c : Continued) : Prop where
  shifted : c.rows = rows.map fun r => shift (c.added r.tripIdGtfs) r
  known : ∀ entry ∈ c.offsets, ∃ r ∈ rows, r.tripIdGtfs = entry.1

namespace Renumbers
variable {xs ys rows part : List PlannedStop} {a b c : Continued} {id : String}

theorem absent (renumbers : Renumbers rows c) (other : ∀ r ∈ rows, r.tripIdGtfs ≠ id) : c.index.find? id = none := by
  rw [Continued.index, Index.findOfRows, List.find?_eq_none]
  intro entry member
  obtain ⟨r, inside, own⟩ := renumbers.known entry (List.mem_reverse.mp member)
  simpa [← own] using other r inside

theorem findAppend (id : String) : (a.append b).index.find? id = (b.index.find? id).or (a.index.find? id) := by
  simp only [Continued.index, Continued.append, Index.findOfRows, List.reverse_append, List.find?_append]

theorem append (first : Renumbers xs a) (second : Renumbers ys b)
    (apart : ∀ r ∈ xs, ∀ s ∈ ys, r.tripIdGtfs ≠ s.tripIdGtfs) : Renumbers (xs ++ ys) (a.append b) where
  shifted := by
    have front : a.rows = xs.map fun r => shift ((a.append b).added r.tripIdGtfs) r := by
      rw [first.shifted]
      refine List.map_congr_left fun r member => ?_
      have none := second.absent fun s inside => (apart r member s inside).symm
      simp only [Continued.added, findAppend, none, Option.none_or]
    have back : b.rows = ys.map fun s => shift ((a.append b).added s.tripIdGtfs) s := by
      rw [second.shifted]
      refine List.map_congr_left fun s member => ?_
      have none := first.absent fun r inside => apart r inside s member
      simp only [Continued.added, findAppend, none, Option.or_none]
    rw [List.map_append, ← front, ← back]
    rfl
  known := by
    intro entry member
    rcases List.mem_append.mp member with own | later
    · obtain ⟨r, inside, same⟩ := first.known entry own
      exact ⟨r, List.mem_append_left _ inside, same⟩
    · obtain ⟨r, inside, same⟩ := second.known entry later
      exact ⟨r, List.mem_append_right _ inside, same⟩

theorem ofPart {offset : Int} (least : 0 ≤ offset) (filled : part ≠ [])
    (uniform : ∀ r ∈ part, ∀ s ∈ part, r.tripIdGtfs = s.tripIdGtfs) :
    Renumbers part ⟨part.map (shift offset),
      if 0 < offset then (part.head?.map fun r => (r.tripIdGtfs, offset)).toList else []⟩ := by
  obtain ⟨first, others, rfl⟩ := List.exists_cons_of_ne_nil filled
  by_cases positive : 0 < offset
  · rw [if_pos positive]
    constructor
    · refine List.map_congr_left fun r member => ?_
      have same := uniform r member first List.mem_cons_self
      simp [Continued.added, Continued.index, Index.findOfRows, same]
    · intro entry member
      simp at member
      exact ⟨first, List.mem_cons_self, by rw [member]⟩
  · obtain rfl : offset = 0 := by omega
    rw [if_neg positive]
    constructor
    · exact List.map_congr_left fun r _ => by simp [Continued.added, Continued.index, Index.findOfRows]
    · simp

theorem reachedPositive {offset : Int} (least : 0 ≤ offset) (part : List PlannedStop) : 0 ≤ reached offset part := by
  unfold reached
  cases known : ((part.map (shift offset)).map (·.sequence)).max? with
  | none => exact least
  | some n =>
    obtain ⟨inside, _⟩ := List.max?_eq_some_iff.mp known
    obtain ⟨_, shifted, rfl⟩ := List.mem_map.mp inside
    obtain ⟨r, _, rfl⟩ := List.mem_map.mp shifted
    exact (Text.Bounds.wrapBounded (by decide) (r.sequence + offset)).1

theorem ofParts {parts : List (List PlannedStop)} {offset : Int} (least : 0 ≤ offset) (blocks : Blocks (·.tripIdGtfs) parts) :
    Renumbers parts.flatten (continueParts offset parts) := by
  induction parts generalizing offset with
  | nil => exact ⟨rfl, by simp [continueParts]⟩
  | cons part rest ih =>
    have filled : part ≠ [] := fun empty => blocks.filled (empty ▸ List.mem_cons_self)
    have own := ofPart least filled (blocks.uniform part List.mem_cons_self)
    have later := ih (reachedPositive least part) blocks.tail
    refine own.append later fun r member s inside => ?_
    obtain ⟨other, known, inside⟩ := List.mem_flatten.mp inside
    exact (List.pairwise_cons.mp blocks.apart).1 other known r member s inside

theorem ofBlocks {blocks : List (List PlannedStop)} {f : List PlannedStop → Continued}
    (each : ∀ block ∈ blocks, Renumbers block (f block))
    (apart : blocks.Pairwise fun x y => ∀ r ∈ x, ∀ s ∈ y, r.tripIdGtfs ≠ s.tripIdGtfs) :
    Renumbers blocks.flatten ⟨(blocks.map f).flatMap (·.rows), (blocks.map f).flatMap (·.offsets)⟩ := by
  induction blocks with
  | nil => exact ⟨rfl, by simp⟩
  | cons block rest ih =>
    obtain ⟨first, later⟩ := List.pairwise_cons.mp apart
    refine (each block List.mem_cons_self).append (ih (fun b member => each b (List.mem_cons_of_mem _ member)) later) ?_
    intro r member s inside
    obtain ⟨other, known, inside⟩ := List.mem_flatten.mp inside
    exact first other known r member s inside

theorem ofTrips (canonical : ∀ r ∈ rows, r.tripId = TripId.canonicalOf r.tripIdGtfs) :
    Renumbers (inOrder rows) (continueTrips (inOrder rows)) := by
  have known : ∀ block ∈ trips (inOrder rows), ∀ r ∈ block, r ∈ rows :=
    fun block member r inside => memSortOn.mp ((splitSublist member).subset inside)
  have blocks := (tripsGrouped rows).blocks
  have each : ∀ block ∈ trips (inOrder rows), Renumbers block (continueParts 0 (parts block)) := by
    intro block member
    obtain ⟨first, inside⟩ := List.exists_mem_of_ne_nil block fun empty => blocks.filled (empty ▸ member)
    have own := blocks.filterKey member inside
    rw [List.flatten_splitBy] at own
    have grouped := partsGrouped rows first.tripId
    rw [own] at grouped
    have shifted := ofParts (Int.le_refl 0) grouped.blocks
    rw [List.flatten_splitBy] at shifted
    exact shifted
  have apart : (trips (inOrder rows)).Pairwise fun x y => ∀ r ∈ x, ∀ s ∈ y, r.tripIdGtfs ≠ s.tripIdGtfs := by
    refine blocks.apart.imp_of_mem fun {x y} hx hy apart r hr s hs same => apart r hr s hs ?_
    rw [canonical r (known x hx r hr), canonical s (known y hy s hs), same]
  have all := ofBlocks each apart
  rw [trips, List.flatten_splitBy] at all
  exact all

end Renumbers

section Tables
variable {date : Day} {z : Zone} {t : Gtfs.Tables} {planned : List PlannedStop}

theorem ofStopTimeCanonical {lookup : Lookup} {st : Gtfs.StopTime} {r : PlannedStop}
    (made : ofStopTime date z lookup st = .ok (some r)) : r.tripId = TripId.canonicalOf r.tripIdGtfs := by
  obtain ⟨trip, _, own, canonical, _⟩ := ofStopTimeMade made
  rw [own, canonical]

theorem plannedRenumbered (ok : ofTables date z t = .ok planned) : Renumbers planned (continueTrips planned) := by
  obtain ⟨stops, rfl, made⟩ := plannedFrom ok
  apply Renumbers.ofTrips
  intro r member
  obtain ⟨st, _, made⟩ := made r member
  exact ofStopTimeCanonical made

theorem wrapModulo (n : Int) : Text.Bounds.unsigned32.wrap n = n % 4294967296 := by
  simp [Text.Bounds.wrap, Text.Bounds.unsigned32]

theorem continuedAdded (c : Continued) {o : GtfsObservation} (numbered : 0 ≤ o.sequence ∧ o.sequence ≤ 4294967295) :
    o.continued c.index =
      { o with sequence := (o.sequence + c.added (TripId.scheduled o.tripIdGtfs)) % 4294967296 } := by
  rw [GtfsObservation.continued, Continued.added]
  cases c.index.find? (TripId.scheduled o.tripIdGtfs) with
  | none =>
    have same : (o.sequence + 0) % 4294967296 = o.sequence := by omega
    rw [Option.map_none, Option.getD_none, same]
  | some entry =>
    rw [← wrapModulo]
    rfl

/- An observation of a published trip or of its overload vehicles, where the trip is not the overload of another one. -/
structure ObservedOn (r : String) (o : GtfsObservation) : Prop where
  numbered : 0 ≤ o.sequence ∧ o.sequence ≤ 4294967295
  trimmed : Text.trim r = r
  plain : TripId.Plain r
  published : TripId.Published r o.tripIdGtfs

theorem shiftedAlike (date : Day) (z : Zone) (t : Gtfs.Tables) (planned : List PlannedStop)
    (numbered : ∀ st ∈ t.stopTimes, 0 ≤ st.sequence ∧ st.sequence ≤ 4294967295) (ok : ofTables date z t = .ok planned) :
    ∃ k : String → Int,
      (continueTrips planned).rows =
        planned.map (fun r => { r with sequence := (r.sequence + k r.tripIdGtfs) % 4294967296 }) ∧
      (∀ r o, ObservedOn r o →
        o.continued (continueTrips planned).index = { o with sequence := (o.sequence + k r) % 4294967296 }) ∧
      (∀ o : GtfsObservation, Text.trim o.tripIdGtfs = o.tripIdGtfs → (∀ r ∈ planned, ¬TripId.Published r.tripIdGtfs o.tripIdGtfs) →
        o.continued (continueTrips planned).index = o) ∧
      ∀ r ∈ planned, ∀ o, ObservedOn r.tripIdGtfs o →
        ((o.continued (continueTrips planned).index).sequence = (r.sequence + k r.tripIdGtfs) % 4294967296 ↔
          o.sequence = r.sequence) := by
  have renumbers := plannedRenumbered ok
  have alike : ∀ r o, ObservedOn r o → o.continued (continueTrips planned).index =
      { o with sequence := (o.sequence + (continueTrips planned).added r) % 4294967296 } := by
    intro r o observed
    rw [continuedAdded _ observed.numbered, TripId.scheduledPublished observed.trimmed observed.plain observed.published]
  have rows := renumbers.shifted
  simp only [shift, wrapModulo] at rows
  refine ⟨(continueTrips planned).added, rows, alike, ?_, ?_⟩
  · intro o trimmed elsewhere
    have published := TripId.publishedScheduled trimmed
    have absent : ∀ r ∈ planned, r.tripIdGtfs ≠ TripId.scheduled o.tripIdGtfs :=
      fun r member same => elsewhere r member (same ▸ published)
    rw [GtfsObservation.continued, renumbers.absent absent]
  · intro r member o observed
    have own := plannedNumbered numbered ok r member
    have seen := observed.numbered
    simp only [Text.Bounds.unsigned32] at own
    rw [alike r.tripIdGtfs o observed]
    dsimp only
    omega

theorem shiftedAlikeBehind : (∀ st ∈ (twoParts [1, 3]).stopTimes, 0 ≤ st.sequence ∧ st.sequence ≤ 4294967295) ∧
    ∃ planned, ofTables ⟨0⟩ ⟨"UTC", 0, []⟩ (twoParts [1, 3]) = .ok planned ∧
      (continueTrips planned).rows.map (fun r => (r.tripIdGtfs, r.sequence)) =
        [("100_1", 1), ("100_1", 2), ("100_2", 3), ("100_2", 5)] ∧
      (({ tripIdGtfs := "100_2-OL1", sequence := 3 } : GtfsObservation).continued (continueTrips planned).index).sequence = 5 := by
  have numbered : ∀ st ∈ (twoParts [1, 3]).stopTimes, 0 ≤ st.sequence ∧ st.sequence ≤ 4294967295 := by simp [twoParts]
  have evaluated : ((ofTables ⟨0⟩ ⟨"UTC", 0, []⟩ (twoParts [1, 3])).map fun planned =>
      (planned.map fun r => (r.tripIdGtfs, r.sequence),
        (continueTrips planned).rows.map fun r => (r.tripIdGtfs, r.sequence))).toOption =
      some ([("100_1", 1), ("100_1", 2), ("100_2", 1), ("100_2", 3)],
        [("100_1", 1), ("100_1", 2), ("100_2", 3), ("100_2", 5)]) := by
    unfold ofTables Lookup.ofTables
    rw [twoServices]
    cbv
  have beside : ObservedOn "100_2" { tripIdGtfs := "100_2-OL1", sequence := 3 } :=
    ⟨by decide, by decide, TripId.plainWithout (by decide), .overload (some 1) (by simp) (by decide)⟩
  cases ok : ofTables ⟨0⟩ ⟨"UTC", 0, []⟩ (twoParts [1, 3]) with
  | error e => rw [ok] at evaluated; cases evaluated
  | ok planned =>
    rw [ok] at evaluated
    obtain ⟨before, after⟩ := Prod.mk.inj (Option.some.inj evaluated)
    obtain ⟨k, rows, alike, _, _⟩ := shiftedAlike ⟨0⟩ ⟨"UTC", 0, []⟩ (twoParts [1, 3]) planned numbered ok
    have numbers : (planned.map fun r => (r.tripIdGtfs, r.sequence)).map (fun stop => (stop.1, (stop.2 + k stop.1) % 4294967296)) =
        [("100_1", 1), ("100_1", 2), ("100_2", 3), ("100_2", 5)] := by
      rw [← after, rows, List.map_map, List.map_map]
      rfl
    have two : (1 + k "100_2") % 4294967296 = 3 := by
      simp [before] at numbers
      exact numbers.2.2.1
    refine ⟨numbered, planned, rfl, after, ?_⟩
    rw [alike "100_2" _ beside]
    dsimp only
    omega

def plannedOverload : Gtfs.Tables :=
  { twoParts [] with
    trips := ["100", "100-OL1"].map fun tripId => { routeId := "r", serviceId := "s", tripId }
    stopTimes := [("100", 1), ("100", 2), ("100-OL1", 1)].map fun (tripId, sequence) => { tripId, stopId := "a", sequence } }

/- The planned overload is numbered on behind the trip, and what is observed on it keeps its numbers as the trip's does. -/
theorem plannedOverloadApart : ∃ planned, ofTables ⟨0⟩ ⟨"UTC", 0, []⟩ plannedOverload = .ok planned ∧
    (∃ r ∈ planned, r.tripIdGtfs = "100-OL1") ∧
    ¬∃ k : Int, (continueTrips planned).rows.filter (·.tripIdGtfs = "100-OL1") =
        (planned.filter (·.tripIdGtfs = "100-OL1")).map (fun r => { r with sequence := (r.sequence + k) % 4294967296 }) ∧
      ∀ o : GtfsObservation, TripId.Published "100-OL1" o.tripIdGtfs → 0 ≤ o.sequence ∧ o.sequence ≤ 4294967295 →
        o.continued (continueTrips planned).index = { o with sequence := (o.sequence + k) % 4294967296 } := by
  have services : Gtfs.activeServices ⟨0⟩ plannedOverload.weeks plannedOverload.exceptions = (∅ : Std.TreeSet String).insert "s" :=
    twoServices []
  let ride : GtfsObservation := { tripIdGtfs := "100-OL1", sequence := 1 }
  have evaluated : ((ofTables ⟨0⟩ ⟨"UTC", 0, []⟩ plannedOverload).map fun planned =>
      ((planned.filter (·.tripIdGtfs = "100-OL1")).map (·.sequence),
        ((continueTrips planned).rows.filter (·.tripIdGtfs = "100-OL1")).map (·.sequence),
        (ride.continued (continueTrips planned).index).sequence)).toOption = some ([1], [3], 1) := by
    unfold ofTables Lookup.ofTables
    rw [services]
    cbv
  cases ok : ofTables ⟨0⟩ ⟨"UTC", 0, []⟩ plannedOverload with
  | error e => rw [ok] at evaluated; cases evaluated
  | ok planned =>
    rw [ok] at evaluated
    obtain ⟨before, after⟩ := Prod.mk.inj (Option.some.inj evaluated)
    obtain ⟨after, observed⟩ := Prod.mk.inj after
    refine ⟨planned, rfl, ?_, ?_⟩
    · have filled : planned.filter (·.tripIdGtfs = "100-OL1") ≠ [] := fun empty => by simp [empty] at before
      obtain ⟨r, member⟩ := List.exists_mem_of_ne_nil _ filled
      exact ⟨r, List.mem_of_mem_filter member, of_decide_eq_true (List.mem_filter.mp member).2⟩
    · rintro ⟨k, rows, alike⟩
      have none : (1 : Int) = (1 + k) % 4294967296 := by
        have same := congrArg GtfsObservation.sequence (alike ride .plain (by decide))
        rwa [observed] at same
      have two : [(3 : Int)] = [(1 + k) % 4294967296] := by
        have numbers : ((planned.filter (·.tripIdGtfs = "100-OL1")).map (·.sequence)).map (fun n => (n + k) % 4294967296) =
            [(1 + k) % 4294967296] := by
          rw [before]
          rfl
        rw [← after, rows, ← numbers, List.map_map, List.map_map]
        rfl
      rw [← none] at two
      simp at two

end Tables

end TransitTimeline.PlannedStop
