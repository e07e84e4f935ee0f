import TransitTimeline.Proofs.Schedule.Accounts

/-! Trip facts in the merged schedule. Each fact is filled by itself, along the rows of a trip and a pullout that are left after
trimming; all else that a row holds stays as its two stops have it. -/
namespace TransitTimeline

inductive TripFact where
  | tripIdGtfs
  | routeId
  | directionId
  | direction
  | destination
  | serviceId
  | blockId
  | patternId
  | tmPatternId
  | tmBlockId
  | tmRunId
  deriving DecidableEq

namespace TripFact

def Value : TripFact → Type
  | directionId | tmPatternId => Int
  | _ => String

def get : (fact : TripFact) → TripFacts → Option fact.Value
  | tripIdGtfs, f => f.tripIdGtfs
  | routeId, f => f.routeId
  | directionId, f => f.directionId
  | direction, f => f.direction
  | destination, f => f.destination
  | serviceId, f => f.serviceId
  | blockId, f => f.blockId
  | patternId, f => f.patternId
  | tmPatternId, f => f.tmPatternId
  | tmBlockId, f => f.tmBlockId
  | tmRunId, f => f.tmRunId

def put : (fact : TripFact) → TripFacts → Option fact.Value → TripFacts
  | tripIdGtfs, f, v => { f with tripIdGtfs := v }
  | routeId, f, v => { f with routeId := v }
  | directionId, f, v => { f with directionId := v }
  | direction, f, v => { f with direction := v }
  | destination, f, v => { f with destination := v }
  | serviceId, f, v => { f with serviceId := v }
  | blockId, f, v => { f with blockId := v }
  | patternId, f, v => { f with patternId := v }
  | tmPatternId, f, v => { f with tmPatternId := v }
  | tmBlockId, f, v => { f with tmBlockId := v }
  | tmRunId, f, v => { f with tmRunId := v }

def all : List TripFact :=
  [tripIdGtfs, routeId, directionId, direction, destination, serviceId, blockId, patternId, tmPatternId, tmBlockId, tmRunId]

theorem getPut (fact : TripFact) (f : TripFacts) (v : Option fact.Value) : fact.get (fact.put f v) = v := by
  cases fact <;> rfl

theorem getPutOther {fact other : TripFact} (apart : other ≠ fact) (f : TripFacts) (v : Option fact.Value) :
    other.get (fact.put f v) = other.get f := by
  cases fact <;> cases other <;> first | rfl | exact absurd rfl apart

theorem allDistinct : all.Nodup := by decide

theorem memAll (fact : TripFact) : fact ∈ all := by cases fact <;> decide

theorem decides {f g : TripFacts} (same : ∀ fact : TripFact, fact.get f = fact.get g) : f = g := by
  cases f
  cases g
  simp only [TripFacts.mk.injEq]
  exact ⟨same tripIdGtfs, same routeId, same directionId, same direction, same destination, same serviceId, same blockId,
    same patternId, same tmPatternId, same tmBlockId, same tmRunId⟩

end TripFact

namespace TripFacts

def fillOne (facts : List TripFacts) (fact : TripFact) : List TripFacts := Column.fillField fact.get fact.put facts

theorem fillAll (facts : List TripFacts) : fill facts = TripFact.all.foldl fillOne facts := rfl

theorem fillEach (fact : TripFact) {order : List TripFact} (distinct : order.Nodup) (facts : List TripFacts) :
    (order.foldl fillOne facts).map fact.get = if fact ∈ order then Column.fill (facts.map fact.get) else facts.map fact.get := by
  induction order generalizing facts with
  | nil => rfl
  | cons first rest ih =>
    obtain ⟨fresh, distinct⟩ := List.nodup_cons.mp distinct
    rw [List.foldl_cons, ih distinct]
    by_cases own : fact = first
    · subst own
      rw [if_neg fresh, if_pos List.mem_cons_self]
      exact Column.fillFieldOwn fact.getPut facts
    · have other : (fillOne facts first).map fact.get = facts.map fact.get :=
        Column.fillFieldOther (TripFact.getPutOther own) facts
      simp [other, own]

theorem fillColumn (fact : TripFact) (facts : List TripFacts) : (fill facts).map fact.get = Column.fill (facts.map fact.get) := by
  rw [fillAll, fillEach fact TripFact.allDistinct, if_pos fact.memAll]

theorem columnsDecide {facts others : List TripFacts} (same : ∀ fact : TripFact, facts.map fact.get = others.map fact.get) :
    facts = others := by
  have long : facts.length = others.length := by simpa using congrArg List.length (same .routeId)
  refine List.ext_getElem long fun i first second => TripFact.decides fun fact => ?_
  have place := congrArg (·[i]?) (same fact)
  simpa [first, second] using place

theorem fillAgain (facts : List TripFacts) : fill (fill facts) = fill facts := by
  apply columnsDecide
  intro fact
  rw [fillColumn, fillColumn, Column.fillAgain]

end TripFacts

namespace Skeleton

structure Completed (own rows : List SkeletonRow) : Prop where
  kept : List.Forall₂ (fun r s => s = { r with position := s.position, place := s.place, facts := s.facts }) own rows
  filled : ∀ (fact : TripFact) (i : Nat) (r : SkeletonRow), rows[i]? = some r →
    Column.Filled (own.map fun s => fact.get s.facts) i (fact.get r.facts)
  together : ∀ fact : TripFact, (∀ r ∈ rows, (fact.get r.facts).isSome) ∨ ∀ r ∈ rows, fact.get r.facts = none
  again : fillFacts rows = rows

theorem fillFactsFacts (rows : List SkeletonRow) : (fillFacts rows).map (·.facts) = TripFacts.fill (rows.map (·.facts)) := by
  have long : (TripFacts.fill (rows.map (·.facts))).length ≤ rows.length := by simp [TripFacts.fillLength]
  rw [fillFacts, List.map_zipWith, ← List.map_uncurry_zip_eq_zipWith]
  conv => rhs; rw [← List.map_snd_zip long]
  rfl

theorem fillFactsWhole {rows : List SkeletonRow} (whole : TripFacts.fill (rows.map (·.facts)) = rows.map (·.facts)) :
    fillFacts rows = rows := by
  rw [fillFacts, whole, List.zipWith_map_right, List.zipWith_self]
  exact List.map_id rows

theorem numberFacts (rows : List SkeletonRow) : (number rows).map (·.facts) = rows.map (·.facts) := by
  conv => rhs; rw [← List.zipIdx_map_fst 0 rows]
  rw [number, List.map_map, List.map_map]
  rfl

theorem finishFacts (rows : List SkeletonRow) :
    (finish rows).rows.map (·.facts) = TripFacts.fill ((trim isPlanned rows).map (·.facts)) :=
  (numberFacts _).trans (fillFactsFacts _)

theorem finishColumn (fact : TripFact) (rows : List SkeletonRow) : ((finish rows).rows.map fun r => fact.get r.facts) =
    Column.fill ((trim isPlanned rows).map fun s => fact.get s.facts) := by
  have facts := congrArg (List.map fact.get) (finishFacts rows)
  rw [TripFacts.fillColumn, List.map_map, List.map_map] at facts
  exact facts

theorem finishCompleted (rows : List SkeletonRow) : Completed (trim isPlanned rows) (finish rows).rows where
  kept := (finishKept rows).imp fun _ _ kept => kept.rest
  filled fact i r place := by
    apply Column.fillFilled
    rw [← finishColumn, List.getElem?_map, place]
    rfl
  together fact := by
    have together := Column.fillTogether ((trim isPlanned rows).map fun s => fact.get s.facts)
    rw [← finishColumn] at together
    simpa using together
  again := by
    apply fillFactsWhole
    rw [finishFacts, TripFacts.fillAgain]

inductive Ordered (tolerance : Int) (trip : String) (planned : List PlannedStop) :
    List PulloutStop → Option Int → List SkeletonRow → Prop
  | alone : Ordered tolerance trip planned [] none (planned.map fun g => .ofStops (some g) none none)
  | merged {stops pullout w} (window : Window.ofPullout tolerance trip pullout (sortOn (·.sequence) stops) = .ok w) :
      Ordered tolerance trip planned stops (some pullout) (mergedOrder w pullout planned (sortOn (·.sequence) stops))

/- What merging makes of a trip and a pullout: rows of their stops, in order, without those before the first planned one, and
with the facts of each row completed. -/
structure Merges (tolerance : Int) (trip : String) (planned : List PlannedStop) (stops : List PulloutStop)
    (pullout : Option Int) (lead own rows : List SkeletonRow) : Prop where
  ordered : Ordered tolerance trip planned stops pullout (lead ++ own)
  comes : ∀ r ∈ lead ++ own, ∃ g t, Comes planned stops pullout g t r
  trimmed : ∀ r ∈ lead, isPlanned r = false
  first : ∃ r ∈ own.head?, isPlanned r
  completed : Completed own rows

section Schedules
variable {planned : List PlannedStop} {stops : List PulloutStop} {tolerance : Int} {m : Merged}

theorem Ordered.interleaved {trip : String} {pullout : Option Int} {rows : List SkeletonRow}
    (ordered : Ordered tolerance trip planned stops pullout rows) :
    Interleaved planned (sortOn (·.sequence) stops) pullout rows := by
  cases ordered with
  | alone =>
    have none : sortOn (·.sequence) ([] : List PulloutStop) = [] := (sortOnPerm _ _).eq_nil
    rw [none]
    exact interleavedAlone planned
  | merged window => exact interleavedOrder _ _ planned (stopsSorted stops)

theorem keyOrdered {key : String × Option Int} {part : Merged} (ok : mergeKey tolerance planned stops key = .ok part) :
    ∃ rows, Ordered tolerance key.1 (planned.filter (·.tripId = key.1)) (stops.filter (keyOf · = key)) key.2 rows ∧
      part.rows = (finish rows).rows := by
  obtain ⟨trip, pullout⟩ := key
  cases pullout with
  | none =>
    cases ok
    have nothing : stops.filter (keyOf · = (trip, none)) = [] := List.filter_eq_nil_iff.mpr fun t _ => by simp [keyOf]
    rw [nothing]
    exact ⟨_, .alone, rfl⟩
  | some pullout =>
    obtain ⟨w, window, rows, _⟩ := pulloutOrder ok
    rw [stopsOfKey] at window rows
    exact ⟨_, .merged window, rows⟩

theorem keyMerges {key : String × Option Int} {part : Merged} (filled : planned.filter (·.tripId = key.1) ≠ [])
    (ok : mergeKey tolerance planned stops key = .ok part) : ∃ lead own,
      Merges tolerance key.1 (planned.filter (·.tripId = key.1)) (stops.filter (keyOf · = key)) key.2 lead own part.rows := by
  obtain ⟨rows, ordered, finished⟩ := keyOrdered ok
  have interleaved := ordered.interleaved
  obtain ⟨lead, split, trimmed, first⟩ := trimSplit (interleaved.plannedRow filled)
  rw [finished]
  refine ⟨lead, trim isPlanned rows, by rwa [← split], fun r member => ?_, trimmed, first, finishCompleted rows⟩
  rw [← split] at member
  obtain ⟨g, t, comes⟩ := interleaved.comes r member
  exact ⟨g, t, { comes with stops := fun s own => memSortOn.mp (comes.stops s own) }⟩

theorem tripFactsCompleted (planned : List PlannedStop) (stops : List PulloutStop) (tolerance : Int) (m : Merged)
    (ok : merge planned stops tolerance = .ok m) (trip : String) (pullout : Option Int) :
    partitionOf m.rows trip pullout = [] ∨ ∃ lead own, Merges tolerance trip (planned.filter (·.tripId = trip))
      (stops.filter (keyOf · = (trip, pullout))) pullout lead own (partitionOf m.rows trip pullout) := by
  by_cases empty : partitionOf m.rows trip pullout = []
  · exact .inl empty
  · exact .inr (partitionBy (fun key rows => ∃ lead own, Merges tolerance key.1 (planned.filter (·.tripId = key.1))
      (stops.filter (keyOf · = key)) key.2 lead own rows) (fun _ _ => keyMerges) ok (filledKnown ok empty))

/- The pullout reaches stop a behind a timepoint that is trimmed, and is relieved at a timepoint of its own. Stops a and c are
not taken: a takes the run from behind, since the timepoint before it is gone. -/
theorem tripFactsCompletedAround :
    let planned : List PlannedStop := [("a", 1, 0), ("b", 2, 300), ("c", 3, 600)].map fun (stopId, sequence, seconds) =>
      { tripId := "1", stopId, sequence, routeId := "66", departure := some (.ofSeconds seconds) }
    let stops : List PulloutStop := [("x", 1, 60, "r0"), ("b", 2, 300, "r1"), ("y", 3, 360, "r2")].map
      fun (stopId, sequence, seconds, run) =>
        { tripId := "1", pullout := 7, stopId, sequence, runId := some run, departure := some (.ofSeconds seconds) }
    ∃ m lead own, merge planned stops halfHour = .ok m ∧
      Merges halfHour "1" planned stops (some 7) lead own (partitionOf m.rows "1" (some 7)) ∧
      (partitionOf m.rows "1" (some 7)).map (fun r => (r.stopId, r.facts.tmRunId, r.facts.routeId)) =
        [("a", some "r1", some "66"), ("b", some "r1", some "66"), ("c", some "r1", some "66"), ("y", some "r2", some "66")] := by
  intro planned stops
  have evaluated : ((merge planned stops halfHour).map fun m => (partitionOf m.rows "1" (some 7)).map
      fun r => (r.stopId, r.facts.tmRunId, r.facts.routeId)) = .ok
        [("a", some "r1", some "66"), ("b", some "r1", some "66"), ("c", some "r1", some "66"), ("y", some "r2", some "66")] := by cbv
  cases ok : merge planned stops halfHour with
  | error e => rw [ok] at evaluated; cases evaluated
  | ok m =>
    rw [ok] at evaluated
    have rows := Except.ok.inj evaluated
    rcases tripFactsCompleted planned stops halfHour m ok "1" (some 7) with empty | ⟨lead, own, merges⟩
    · simp [empty] at rows
    · exact ⟨m, lead, own, rfl, merges, rows⟩

end Schedules

end Skeleton

end TransitTimeline
