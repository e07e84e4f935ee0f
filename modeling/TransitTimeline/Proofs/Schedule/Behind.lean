import TransitTimeline.Proofs.Schedule.Merged

/-! Planned stops that no stop of a pullout takes. Each follows the planned stop before it, with nothing of the pullout's
in between. -/
namespace TransitTimeline.Skeleton
open Pairing (Forward)
open Std

section Placed
variable {planned : List PlannedStop} {pairings : List Pairing} {pullout : Int} {x y : Placed} {p : Nat}

theorem leftGap (member : y ∈ placed (Visit.ofStops planned) pairings pullout) (left : y.row.tmSequence = none) :
    ∃ p, y.key.2 = some p ∧ ((Visit.ofStops planned).map (takenAt pairings))[p]? = some none := by
  rcases List.mem_append.mp member with stop | rest
  · obtain ⟨q, _, rfl⟩ := List.mem_map.mp stop
    cases left
  · obtain ⟨⟨v, key⟩, inside, rfl⟩ := List.mem_map.mp rest
    obtain ⟨inside, gap⟩ := List.mem_filter.mp inside
    have known := Visit.memOfStops.mp (List.of_mem_zip inside).1
    refine ⟨v.place, rfl, ?_⟩
    rw [List.getElem?_map, Visit.ofStopsAt, known]
    exact congrArg some (Option.isNone_iff_eq_none.mp gap)

theorem takenPlaced {sequence : Int} {q : Nat} (pullout : Int)
    (taken : ((Visit.ofStops planned).map (takenAt pairings))[q]? = some (some sequence)) :
    ∃ z ∈ placed (Visit.ofStops planned) pairings pullout, z.key = (some sequence, some q) := by
  rw [List.getElem?_map, Visit.ofStopsAt] at taken
  cases known : planned[q]? with
  | none => rw [known] at taken; cases taken
  | some g =>
    rw [known] at taken
    obtain ⟨pairing, member, own, rfl⟩ := takenAtSome (Option.some.inj taken)
    refine ⟨_, List.mem_append_left _ (List.mem_map_of_mem member), ?_⟩
    rw [own]
    rfl

variable {before after : List Placed}

theorem unpairedApart {z : Placed} (zx : (compare z.key x.key).isLE) (xy : (compare x.key y.key).isLE)
    (unpaired : x.key.2 = none) (place : z.key.2.isSome) : z.key.1 ≠ y.key.1 := by
  intro same
  rw [comparePair, Ordering.isLE_then_iff_and] at zx xy
  rw [same] at zx
  have tie : compare y.key.1 x.key.1 = .eq := OrientedCmp.isLE_antisymm zx.1 xy.1
  obtain ⟨q, own⟩ := Option.isSome_iff_exists.mp place
  rcases zx.2 with less | places
  · rw [tie] at less
    cases less
  · rw [unpaired, own] at places
    cases places

theorem placesAscend (pullout : Int) (forward : Forward (Visit.ofStops planned) pairings) :
    (sortOn (·.key) (placed (Visit.ofStops planned) pairings pullout)).Pairwise fun a b =>
      ∀ i ∈ a.key.2, ∀ j ∈ b.key.2, i < j := by
  apply List.pairwise_filterMap.mp
  rw [placesSorted pullout forward]
  exact List.pairwise_lt_range

/- In order, a visit that is left stands right behind a stop that takes none only if no visit stands before both. -/
theorem leftBehind (forward : Forward (Visit.ofStops planned) pairings)
    (shape : sortOn (·.key) (placed (Visit.ofStops planned) pairings pullout) = before ++ x :: y :: after)
    (unpaired : x.key.2 = none) (left : y.row.tmSequence = none) : ∀ z ∈ before, z.key.2 = none := by
  have sorted := sortOnSorted (·.key) (placed (Visit.ofStops planned) pairings pullout)
  have places := placesAscend pullout forward
  have member {z : Placed} : z ∈ placed (Visit.ofStops planned) pairings pullout ↔ z ∈ before ++ x :: y :: after := by
    rw [← shape, memSortOn]
  rw [shape] at sorted places
  obtain ⟨_, placesBehind, placesBefore⟩ := List.pairwise_append.mp places
  obtain ⟨_, placesBehind⟩ := List.pairwise_cons.mp placesBehind
  obtain ⟨_, sortedBehind, sortedBefore⟩ := List.pairwise_append.mp sorted
  have keys {z : Placed} (inside : z ∈ before ++ x :: y :: after) {i : Nat} (place : z.key.2 = some i) :
      (keysOf planned pairings)[i]? = some z.key.1 := keysAt (placing forward (member.mpr inside)) place
  have apart {z : Placed} (inside : z ∈ before) (place : z.key.2.isSome) : z.key.1 ≠ y.key.1 :=
    unpairedApart (sortedBefore z inside x (by simp)) ((List.pairwise_cons.mp sortedBehind).1 y (by simp)) unpaired place
  obtain ⟨p, own, gap⟩ := leftGap (member.mpr (by simp)) left
  have filled := keys (by simp) own
  intro z inside
  by_contra some
  obtain ⟨i, place⟩ := Option.ne_none_iff_exists'.mp some
  rcases Column.fillGap gap with ⟨q, sequence, below, taken, last⟩ | same
  · -- The stop that takes the visit before the gap has the gap's key, so it stands before x.
    obtain ⟨u, placed, key⟩ := takenPlaced pullout taken
    have ahead : u ∈ before := by
      rcases List.mem_append.mp (member.mp placed) with ahead | behind
      · exact ahead
      · rcases List.mem_cons.mp behind with rfl | behind
        · rw [key] at unpaired
          cases unpaired
        · rcases List.mem_cons.mp behind with rfl | behind
          · rw [key] at own
            cases own
            exact absurd below (Nat.lt_irrefl _)
          · have later := (List.pairwise_cons.mp placesBehind).1 u behind p own q (by rw [key]; rfl)
            exact absurd below (Nat.lt_asymm later)
    refine apart ahead (by rw [key]; rfl) ?_
    rw [key]
    exact Option.some.inj (last.symm.trans filled)
  · -- Without one all visits up to the gap share its key.
    have le := Nat.le_of_lt (placesBefore z inside y (by simp) i place p own)
    have first := keys (List.mem_append_left _ inside) place
    exact apart inside (by rw [place]; rfl) (Option.some.inj (first.symm.trans ((same i le).trans filled)))

end Placed

theorem Placing.isPlanned {planned : List PlannedStop} {stops : List PulloutStop} {keys : List (Option Int)} {pullout : Int}
    {x : Placed} (known : Placing planned stops keys pullout x) : isPlanned x.row = x.key.2.isSome := by
  cases known <;> rfl

def Trails (rows : List SkeletonRow) : Prop := rows.IsChain fun a b => b.tmSequence = none → isPlanned a

theorem Trails.kept {rows others : List SkeletonRow} (trails : Trails rows) (kept : List.Forall₂ Kept rows others) :
    Trails others := by
  apply pairedChain kept trails
  intro a b c d first second holds left
  rw [second.rest] at left
  rw [← first.isPlanned]
  exact holds left

section Order
variable {planned : List PlannedStop} {stops : List PulloutStop}

theorem trimTrails (w : Window) (pullout : Int) (planned : List PlannedStop)
    (sorted : stops.Pairwise fun a b => a.sequence ≤ b.sequence) :
    Trails (trim isPlanned (mergedOrder w pullout planned stops)) := by
  have forward : Forward (Visit.ofStops planned) (Pairing.along w (Visit.ofStops planned) 0 stops) :=
    Pairing.alongForward sorted
  apply List.isChain_iff_forall_rel_of_append_cons_cons.mpr
  intro a b before after shape left
  by_contra unplanned
  obtain ⟨lead, split⟩ := trimSuffix isPlanned (mergedOrder w pullout planned stops)
  rw [shape, ← List.append_assoc, mergedOrder] at split
  obtain ⟨early, rest, order, ahead, rows⟩ := List.map_eq_append_iff.mp split.symm
  obtain ⟨x, others, rfl, rfl, next⟩ := List.map_eq_cons_iff.mp rows
  obtain ⟨y, late, rfl, rfl, rfl⟩ := List.map_eq_cons_iff.mp next
  have member {z : Placed} (inside : z ∈ early ++ x :: y :: late) :
      z ∈ placed (Visit.ofStops planned) (Pairing.along w (Visit.ofStops planned) 0 stops) pullout :=
    memSortOn.mp (by rw [order]; exact inside)
  have shown {z : Placed} (inside : z ∈ early ++ x :: y :: late) : isPlanned z.row = z.key.2.isSome :=
    (placing forward (member inside)).isPlanned
  have unpaired : x.key.2 = none := by
    rw [shown (by simp)] at unplanned
    simpa using unplanned
  have nothing := leftBehind forward order unpaired left
  -- So the first row that is kept is not planned, though a planned row is there.
  have unknown : ∀ r ∈ before, isPlanned r = false := by
    intro r inside
    have listed : r ∈ early.map (·.row) := by
      rw [ahead]
      exact List.mem_append_right _ inside
    obtain ⟨z, early, rfl⟩ := List.mem_map.mp listed
    rw [shown (List.mem_append_left _ early), nothing z early]
    rfl
  obtain ⟨p, place, _⟩ := leftGap (member (z := y) (by simp)) left
  have known : isPlanned y.row := by
    rw [shown (by simp), place]
    rfl
  have inside : y.row ∈ mergedOrder w pullout planned stops := by
    rw [mergedOrder, order]
    simp
  obtain ⟨r, first, own⟩ := trimHead ⟨y.row, inside, known⟩
  rw [shape] at first
  cases before with
  | nil =>
    cases first
    exact unplanned own
  | cons _ _ =>
    cases first
    rw [unknown r List.mem_cons_self] at own
    cases own

end Order

section Schedules
variable {planned : List PlannedStop} {stops : List PulloutStop} {tolerance : Int} {m : Merged}

structure Trailing (planned : List PlannedStop) (trip : String) (pullout : Option Int) (rows : List SkeletonRow) :
    Prop where
  partition : Partition planned trip pullout rows
  trails : Trails rows
  provenance : ∀ r ∈ rows, r.provenance = .ofSequences r.gtfsSequence r.tmSequence

theorem finishProvenance {keys : Option Int} {rows : List SkeletonRow} (interleaved : Interleaved planned stops keys rows) :
    ∀ r ∈ (finish rows).rows, r.provenance = .ofSequences r.gtfsSequence r.tmSequence := by
  intro r member
  obtain ⟨g, t, s, comes, kept⟩ := finishComes interleaved r member
  rw [kept.rest, comes.row]
  rfl

theorem keyTrailing {key : String × Option Int} {part : Merged} (filled : planned.filter (·.tripId = key.1) ≠ [])
    (ok : mergeKey tolerance planned stops key = .ok part) :
    Trailing (planned.filter (·.tripId = key.1)) key.1 key.2 part.rows := by
  have partition := keyPartition filled ok
  obtain ⟨trip, pullout⟩ := key
  cases pullout with
  | none =>
    cases ok
    refine ⟨partition, ?_, finishProvenance (interleavedAlone _)⟩
    apply List.Pairwise.isChain
    apply List.pairwise_of_forall_mem_list
    intro a member b _ _
    obtain ⟨g, t, s, comes, kept⟩ := finishComes (interleavedAlone _) a member
    rw [← kept.isPlanned, comes.row, isPlannedOfStops]
    cases t with
    | none => simpa using comes.known
    | some t => cases comes.stops t rfl
  | some pullout =>
    obtain ⟨w, _, rows, _⟩ := pulloutOrder ok
    have sorted := (sortOnSorted (·.sequence) ((stops.filter (·.tripId = trip)).filter (·.pullout = pullout))).imp
      Std.isLE_compare.mp
    have kept := finishKept (mergedOrder w pullout (planned.filter (·.tripId = trip))
      (sortOn (·.sequence) ((stops.filter (·.tripId = trip)).filter (·.pullout = pullout))))
    rw [← rows] at kept
    refine ⟨partition, (trimTrails w pullout _ sorted).kept kept, ?_⟩
    rw [rows]
    exact finishProvenance (interleavedOrder w pullout _ sorted)

theorem mergedTrailing (ok : merge planned stops tolerance = .ok m) {trip : String} {pullout : Option Int}
    (filled : partitionOf m.rows trip pullout ≠ []) :
    Trailing (planned.filter (·.tripId = trip)) trip pullout (partitionOf m.rows trip pullout) :=
  partitionBy (fun key => Trailing (planned.filter (·.tripId = key.1)) key.1 key.2) (fun _ _ => keyTrailing) ok
    (filledKnown ok filled)

theorem mergedTogether (ok : merge planned stops tolerance = .ok m) {before after : List SkeletonRow} {b : SkeletonRow}
    (shape : m.rows = before ++ b :: after) : partitionOf before b.tripId b.pullout = [] ∨
      ∃ earlier a, before = earlier ++ [a] ∧ (a.tripId, a.pullout) = (b.tripId, b.pullout) := by
  have sorted : m.rows.Pairwise fun a b => (compare (a.tripId, a.pullout) (b.tripId, b.pullout)).isLE := by
    apply (mergedSections ok).pairwise (fun _ _ partition => partition.key) _ (keysOrdered planned stops)
    · intro a b less
      rw [less]
      rfl
    · intro key rows partition
      apply List.pairwise_of_forall_mem_list
      intro a ha b hb
      rw [partition.key a ha, partition.key b hb]
      exact ReflCmp.isLE_rfl
  rw [shape] at sorted
  rcases List.eq_nil_or_concat' before with rfl | ⟨earlier, a, rfl⟩
  · exact .inl rfl
  · by_cases own : (a.tripId, a.pullout) = (b.tripId, b.pullout)
    · exact .inr ⟨earlier, a, rfl, own⟩
    · -- A row of the same trip and pullout before a would have a between itself and b.
      apply Or.inl
      apply List.filter_eq_nil_iff.mpr
      intro c member same
      obtain ⟨front, _, last⟩ := List.pairwise_append.mp sorted
      obtain ⟨_, _, between⟩ := List.pairwise_append.mp front
      rcases List.mem_append.mp member with early | only
      · have le := between c early a List.mem_cons_self
        rw [of_decide_eq_true same] at le
        have ge := last a (by simp) b List.mem_cons_self
        exact own (LawfulEqOrd.eq_of_compare (OrientedCmp.isLE_antisymm ge le))
      · rw [List.mem_singleton.mp only] at same
        exact own (of_decide_eq_true same)

structure Follows (planned : List PlannedStop) (number : Nat) (a b : SkeletonRow) : Prop where
  key : (a.tripId, a.pullout) = (b.tripId, b.pullout)
  own : ∃ g, planned[number]? = some g ∧ b.Shows g
  previous : ∃ i g, i + 1 = number ∧ planned[i]? = some g ∧ a.Shows g

section Trailing
variable {trip : String} {pullout : Option Int} {rows before after : List SkeletonRow} {a b : SkeletonRow}

theorem Trailing.plannedBefore (trailing : Trailing planned trip pullout rows) (shape : rows = before ++ a :: b :: after)
    (left : b.provenance = .gtfs) : isPlanned a ∧ isPlanned b := by
  have inside : b ∈ rows := by simp [shape]
  have alone : b.tmSequence = none := by
    rw [trailing.provenance b inside] at left
    cases known : b.tmSequence with
    | none => rfl
    | some _ => cases plan : b.gtfsSequence <;> simp [known, plan, Provenance.ofSequences] at left
  have trails := trailing.trails
  rw [shape] at trails
  refine ⟨(List.isChain_append_cons_cons.mp trails).2.1 alone, ?_⟩
  by_contra unplanned
  have pulloutOnly := trailing.partition.pulloutOnly b inside (by simpa using unplanned)
  simp [alone] at pulloutOnly

theorem Trailing.follows (trailing : Trailing planned trip pullout rows) (shape : rows = before ++ a :: b :: after)
    (left : b.provenance = .gtfs) : Follows planned ((before ++ [a]).filter isPlanned).length a b := by
  obtain ⟨knownA, knownB⟩ := trailing.plannedBefore shape left
  have shows := trailing.partition.shows
  have key := trailing.partition.key
  rw [shape] at shows key
  rw [List.filter_append, List.filter_cons_of_pos knownA, List.filter_cons_of_pos knownB] at shows
  have number : ((before ++ [a]).filter isPlanned).length = (before.filter isPlanned).length + 1 := by
    simp [knownA]
  rw [number]
  constructor
  · rw [key a (by simp), key b (by simp)]
  · have own := pairedAt shows (i := (before.filter isPlanned).length + 1) (x := b) (by simp)
    exact own
  · obtain ⟨g, known, shown⟩ := pairedAt shows (i := (before.filter isPlanned).length) (x := a) (by simp)
    exact ⟨_, g, rfl, known, shown⟩

end Trailing

theorem mergedNeighbours (ok : merge planned stops tolerance = .ok m) {before after : List SkeletonRow}
    {a b : SkeletonRow} (shape : m.rows = before ++ a :: b :: after) (same : (a.tripId, a.pullout) = (b.tripId, b.pullout)) :
    ∃ rows, Trailing (planned.filter (·.tripId = b.tripId)) b.tripId b.pullout rows ∧
      rows = partitionOf before b.tripId b.pullout ++ a :: b :: partitionOf after b.tripId b.pullout := by
  have split : partitionOf m.rows b.tripId b.pullout =
      partitionOf before b.tripId b.pullout ++ a :: b :: partitionOf after b.tripId b.pullout := by
    obtain ⟨trips, pullouts⟩ := Prod.mk.inj same
    rw [shape]
    simp [partitionOf, trips, pullouts]
  exact ⟨_, mergedTrailing ok (by rw [split]; simp), split⟩

theorem leftStopsFollow (planned : List PlannedStop) (stops : List PulloutStop) (tolerance : Int) (m : Merged)
    (ok : merge planned stops tolerance = .ok m) :
    (∀ before a b after, m.rows = before ++ a :: b :: after → (a.tripId, a.pullout) = (b.tripId, b.pullout) →
      a.provenance = .tm → b.provenance ≠ .gtfs) ∧
    ∀ before b after, m.rows = before ++ b :: after → b.provenance = .gtfs →
      let ahead := partitionOf before b.tripId b.pullout
      ahead = [] ∨ ∃ a, before.getLast? = some a ∧
        Follows (planned.filter (·.tripId = b.tripId)) (ahead.filter isPlanned).length a b := by
  constructor
  · intro before a b after shape same timepoint left
    obtain ⟨rows, trailing, split⟩ := mergedNeighbours ok shape same
    obtain ⟨known, _⟩ := trailing.plannedBefore split left
    rw [trailing.provenance a (by simp [split])] at timepoint
    obtain ⟨sequence, number⟩ := Option.isSome_iff_exists.mp known
    cases known : a.tmSequence <;> simp [number, known, Provenance.ofSequences] at timepoint
  · intro before b after shape left
    rcases mergedTogether ok shape with first | ⟨earlier, a, rfl, same⟩
    · exact .inl first
    · obtain ⟨rows, trailing, split⟩ := mergedNeighbours ok (by simpa using shape) same
      have follows := trailing.follows split left
      have ahead : partitionOf (earlier ++ [a]) b.tripId b.pullout = partitionOf earlier b.tripId b.pullout ++ [a] := by
        simpa [partitionOf] using same
      refine .inr ⟨a, List.getLast?_concat, ?_⟩
      rw [ahead]
      exact follows

/- The pullout passes b between two timepoints of its own. Stop a before it and stop c behind it are not taken. -/
theorem leftStopsFollowAround :
    let planned : List PlannedStop := [("a", 1, 0), ("b", 2, 300), ("c", 3, 600)].map fun (stopId, sequence, seconds) =>
      { tripId := "1", stopId, sequence, departure := some (.ofSeconds seconds) }
    let stops : List PulloutStop := [("x", 1, 60), ("b", 2, 300), ("y", 3, 360)].map fun (stopId, sequence, seconds) =>
      { tripId := "1", pullout := 7, stopId, sequence, departure := some (.ofSeconds seconds) }
    ∃ m a b c d, merge planned stops halfHour = .ok m ∧ m.rows = [a, b, c, d] ∧
      m.rows.map (·.provenance) = [.gtfs, .join, .gtfs, .tm] ∧ Follows planned 2 b c := by
  intro planned stops
  have evaluated : ((merge planned stops halfHour).map fun m =>
      m.rows.map fun r => (r.tripId, r.pullout, isPlanned r, r.provenance)) = .ok [("1", some 7, true, .gtfs),
        ("1", some 7, true, .join), ("1", some 7, true, .gtfs), ("1", some 7, false, .tm)] := by cbv
  cases ok : merge planned stops halfHour with
  | error e => rw [ok] at evaluated; cases evaluated
  | ok m =>
    obtain ⟨_, follows⟩ := leftStopsFollow planned stops halfHour m ok
    rw [ok] at evaluated
    have rows := Except.ok.inj evaluated
    simp only [List.map_eq_cons_iff, List.map_eq_nil_iff, Prod.mk.injEq] at rows
    obtain ⟨a, _, rows, ⟨tripA, pulloutA, knownA, a1⟩, b, _, rfl, ⟨tripB, pulloutB, knownB, b1⟩, c, _, rfl,
      ⟨tripC, pulloutC, knownC, c1⟩, d, _, rfl, ⟨tripD, pulloutD, knownD, d1⟩, rfl⟩ := rows
    refine ⟨m, a, b, c, d, rfl, rows, by simp [rows, a1, b1, c1, d1], ?_⟩
    rcases follows [a, b] c [d] rows c1 with none | ⟨x, last, follows⟩
    · simp [partitionOf, tripA, tripC, pulloutA, pulloutC] at none
    · cases last
      simpa [partitionOf, tripA, tripB, tripC, pulloutA, pulloutB, pulloutC, knownA, knownB, planned] using follows

end Schedules

end TransitTimeline.Skeleton
