import TransitTimeline.Column
import TransitTimeline.Schedule.Pairing

/-! The merged schedule. Every pullout of a trip is merged with the whole planned trip; the pullout's stops are
the finer order, and planned stops without a twin follow the planned stop before them. -/
namespace TransitTimeline

namespace TripFacts

def fill (facts : List TripFacts) : List TripFacts :=
  facts
  |> Column.fillField (·.tripIdGtfs) (fun f v => { f with tripIdGtfs := v })
  |> Column.fillField (·.routeId) (fun f v => { f with routeId := v })
  |> Column.fillField (·.directionId) (fun f v => { f with directionId := v })
  |> Column.fillField (·.direction) (fun f v => { f with direction := v })
  |> Column.fillField (·.destination) (fun f v => { f with destination := v })
  |> Column.fillField (·.serviceId) (fun f v => { f with serviceId := v })
  |> Column.fillField (·.blockId) (fun f v => { f with blockId := v })
  |> Column.fillField (·.patternId) (fun f v => { f with patternId := v })
  |> Column.fillField (·.tmPatternId) (fun f v => { f with tmPatternId := v })
  |> Column.fillField (·.tmBlockId) (fun f v => { f with tmBlockId := v })
  |> Column.fillField (·.tmRunId) (fun f v => { f with tmRunId := v })

theorem fillLength (facts : List TripFacts) : (fill facts).length = facts.length := by
  simp [fill, Column.fillFieldLength]

def ofStops (g : Option PlannedStop) (t : Option PulloutStop) : TripFacts where
  tripIdGtfs := g.map (·.tripIdGtfs)
  routeId := g.map (·.routeId)
  directionId := g.map (·.directionId)
  direction := g.bind (·.direction)
  destination := g.bind (·.destination)
  serviceId := g.map (·.serviceId)
  blockId := g.bind (·.blockId)
  patternId := g.bind (·.patternId)
  tmPatternId := t.map (·.patternId)
  tmBlockId := t.bind (·.blockId)
  tmRunId := t.bind (·.runId)

end TripFacts

namespace SkeletonRow

def ofStops (g : Option PlannedStop) (t : Option PulloutStop) (pullout : Option Int) : SkeletonRow where
  tripId := ((g.map (·.tripId)).or (t.map (·.tripId))).getD ""
  pullout
  stopId := ((g.map (·.stopId)).or (t.map (·.stopId))).getD ""
  stopName := g.bind (·.stopName)
  parent := g.bind (·.parent)
  gtfsSequence := g.map (·.sequence)
  tmSequence := t.map (·.sequence)
  provenance := .ofSequences (g.map (·.sequence)) (t.map (·.sequence))
  timepoint := (t.map (·.timepoint)).getD {}
  planned := g.bind (·.departure)
  dispatched := t.bind (·.departure)
  facts := .ofStops g t

end SkeletonRow

namespace Skeleton

structure Counts where
  pullouts : Nat := 0
  ambiguous : Nat := 0
  trimmed : Nat := 0
  excluded : Nat := 0
  deriving DecidableEq, Repr

namespace Counts

def plus (a b : Counts) : Counts :=
  ⟨a.pullouts + b.pullouts, a.ambiguous + b.ambiguous, a.trimmed + b.trimmed, a.excluded + b.excluded⟩

def sum (counts : List Counts) : Counts := counts.foldr plus {}

end Counts

structure Merged where
  rows : List SkeletonRow
  counts : Counts
  deriving DecidableEq, Repr

def Merged.concat (parts : List Merged) : Merged :=
  ⟨parts.flatMap (·.rows), .sum (parts.map (·.counts))⟩

/-- Drops what stands before the first row that GTFS knows, if it knows any. -/
def trim {ρ : Type} (isPlanned : ρ → Bool) (rows : List ρ) : List ρ :=
  if rows.any isPlanned then rows.dropWhile fun r => !isPlanned r else rows

theorem trimSuffix {ρ : Type} (isPlanned : ρ → Bool) (rows : List ρ) : trim isPlanned rows <:+ rows := by
  unfold trim
  split
  · exact List.dropWhile_suffix _
  · exact List.suffix_refl _

def isPlanned (r : SkeletonRow) : Bool := r.gtfsSequence.isSome

def fillFacts (rows : List SkeletonRow) : List SkeletonRow :=
  List.zipWith (fun r facts => { r with facts }) rows (TripFacts.fill (rows.map (·.facts)))

/-- The only row of a partition is its start. -/
def placeOf (count index : Nat) : Place :=
  if index = 0 then .start else if index + 1 = count then .finish else .mid

def number (rows : List SkeletonRow) : List SkeletonRow :=
  rows.zipIdx.map fun (r, index) => { r with position := index + 1, place := placeOf rows.length index }

def finish (rows : List SkeletonRow) : Merged :=
  let kept := trim isPlanned rows
  ⟨number (fillFacts kept), { trimmed := rows.length - kept.length }⟩

def takenAt (pairings : List Pairing) (v : Visit) : Option Int :=
  (pairings.find? fun p => p.visit = some v).map (·.stop.sequence)

structure Placed where
  key : Option Int × Option Nat
  row : SkeletonRow

/-- The rows of the pullout's stops, then those of the visits that none of them takes. A visit that is not
taken stands at the sequence of the last one taken before it. -/
def placed (visits : List Visit) (pairings : List Pairing) (pullout : Int) : List Placed :=
  let keys := Column.fill (visits.map (takenAt pairings))
  let stops := pairings.map fun p =>
    ⟨(some p.stop.sequence, p.visit.map (·.place)),
      .ofStops (p.visit.map (·.stop)) (some p.stop) (some pullout)⟩
  let left := (visits.zip keys).filter fun (v, _) => (takenAt pairings v).isNone
  stops ++ left.map fun (v, key) => ⟨(key, some v.place), .ofStops (some v.stop) none (some pullout)⟩

def mergePullout (tolerance : Int) (trip : String) (pullout : Int) (planned : List PlannedStop)
    (stops : List PulloutStop) : Except Failure Merged := do
  let window ← Window.ofPullout tolerance trip pullout stops
  let visits := Visit.ofStops planned
  if ¬visits.any window.holds then .error (.noCandidates trip pullout window.start window.finish) else
  let pairings := Pairing.along window visits 0 stops
  let merged := finish ((sortOn (·.key) (placed visits pairings pullout)).map (·.row))
  return { merged with counts := merged.counts.plus { pullouts := 1, ambiguous := pairings.countP (·.isAmbiguous) } }

def mergeTrip (tolerance : Int) (trip : String) (planned : List PlannedStop) (stops : List PulloutStop) :
    Except Failure Merged :=
  if stops.isEmpty then .ok (finish (planned.map fun g => .ofStops (some g) none none)) else do
  let pullouts := (Groups.ofRows (·.pullout) stops).toList
  let merged ← pullouts.mapM fun (pullout, stops) =>
    mergePullout tolerance trip pullout planned (sortOn (·.sequence) stops)
  return .concat merged

/-- Merges all trips that GTFS plans; the pullouts of other trips are left out and counted. The tolerance is
in nanoseconds. -/
def merge (planned : List PlannedStop) (stops : List PulloutStop) (tolerance : Int) : Except Failure Merged := do
  let trips := Groups.ofRows (·.tripId) planned
  let pullouts := Groups.ofRows (·.tripId) stops
  let merged ← trips.toList.mapM fun (trip, rows) => mergeTrip tolerance trip rows (pullouts.rows trip)
  let all := Merged.concat merged
  let excluded := stops.countP fun t => !trips.contains t.tripId
  return { all with counts := all.counts.plus { excluded } }

def ofSchedules (planned : List PlannedStop) (stops : List PulloutStop) (seconds : Int) : Except Failure Merged := do
  merge planned stops (← ServiceTime.nanoseconds seconds)

end Skeleton

end TransitTimeline
