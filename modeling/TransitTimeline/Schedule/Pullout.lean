import TransitTimeline.Order
import TransitTimeline.Schedule.Row
import TransitTimeline.ServiceTime
import TransitTimeline.Table.TransitMaster
import TransitTimeline.TripId

/-! Stops that the pullouts of a service date pass. -/
namespace TransitTimeline.PulloutStop

structure Lookup where
  trips : Index Int Tm.Trip
  nodes : Index Int Tm.GeoNode
  patternNodes : Index (Int × Int) Tm.PatternNode
  timePoints : Index Int Tm.TimePoint
  workPieces : Index Int Tm.WorkPiece

def Lookup.ofTables (t : Tm.Tables) : Lookup :=
  ⟨.ofRows (·.tripId) t.trips, .ofRows (·.nodeId) t.nodes,
    .ofRows (fun p => (p.patternId, p.sequence)) t.patternNodes, .ofRows (·.timePointId) t.timePoints,
    .ofRows (·.pulloutId) t.workPieces⟩

def Lookup.resolve (l : Lookup) (p : Tm.Passing) : Option (Tm.Trip × Tm.PatternNode × Tm.GeoNode) := do
  let trip ← l.trips.find? p.tripId
  let position ← l.patternNodes.find? (trip.patternId, p.sequence)
  let node ← l.nodes.find? position.nodeId
  return (trip, position, node)

def timeOf (date : Day) (z : Zone) : Option Int → Except Failure (Option Instant)
  | some seconds => ServiceTime.dispatched date seconds z
  | none => .ok none

def ofPassing (date : Day) (z : Zone) (l : Lookup) (p : Tm.Passing) : Except Failure (Option PulloutStop) :=
  match l.resolve p with
  | none => .ok none
  | some (trip, position, node) => do
    let timePoint := position.timePointId.bind l.timePoints.find?
    let work := l.workPieces.find? p.pulloutId
    let departure ← timeOf date z p.scheduled
    return some {
      tripId := TripId.canonicalOf (toString trip.serial)
      pullout := p.pulloutId
      stopId := node.abbreviation
      sequence := p.sequence
      patternId := trip.patternId
      timepoint := ⟨position.timePointId, timePoint.map (·.abbreviation), timePoint.bind (·.name)⟩
      blockId := work.bind (·.blockId)
      runId := work.bind (·.runId)
      departure }

def key (r : PulloutStop) : String × Int × Int := (r.tripId, r.pullout, r.sequence)

/-- By trip, pullout and position; of several passings of a position the first counts. -/
def inOrder (rows : List PulloutStop) : List PulloutStop :=
  (sortOn key rows).eraseRepsBy fun a b => a.key = b.key

def ofTables (date : Day) (z : Zone) (t : Tm.Tables) : Except Failure (List PulloutStop) := do
  let rows ← t.passings.mapM (ofPassing date z (.ofTables t))
  return inOrder (rows.filterMap id)

end TransitTimeline.PulloutStop
