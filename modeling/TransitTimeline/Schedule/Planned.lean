import TransitTimeline.Column
import TransitTimeline.Schedule.Row
import TransitTimeline.Schedule.Service
import TransitTimeline.ServiceTime
import TransitTimeline.TripId

/-! Planned stops of the buses of a service date, and the numbers that continue along split trips. -/
namespace TransitTimeline.PlannedStop

structure Lookup where
  trips : Index String Gtfs.Trip
  directions : Index (String × Int) Gtfs.Direction
  stops : Index String Gtfs.Stop

def Lookup.ofTables (date : Day) (t : Gtfs.Tables) : Lookup :=
  let services := Gtfs.activeServices date t.weeks t.exceptions
  let routes := Gtfs.busRoutes t.routes
  let running := t.trips.filter fun trip => services.contains trip.serviceId && routes.contains trip.routeId
  ⟨.ofRows (·.tripId) running, .ofRows (fun d => (d.routeId, d.directionId)) t.directions,
    .ofRows (·.stopId) t.stops⟩

def timeOf (date : Day) (z : Zone) (st : Gtfs.StopTime) : Except Failure (Option Instant) :=
  match (st.departure.or st.arrival).bind ServiceTime.ofText? with
  | some seconds => ServiceTime.planned date seconds z
  | none => .ok none

def ofStopTime (date : Day) (z : Zone) (lookup : Lookup) (st : Gtfs.StopTime) :
    Except Failure (Option PlannedStop) :=
  match lookup.trips.find? st.tripId with
  | none => .ok none
  | some trip => do
    let direction := lookup.directions.find? (trip.routeId, trip.directionId)
    let stop := lookup.stops.find? st.stopId
    let departure ← timeOf date z st
    return some {
      tripId := TripId.canonicalOf trip.tripId
      tripIdGtfs := trip.tripId
      stopId := st.stopId
      stopName := stop.bind (·.name)
      parent := stop.bind (·.parent)
      sequence := st.sequence
      timepoint := st.timepoint = some 1
      routeId := trip.routeId
      directionId := trip.directionId
      direction := direction.map (·.name)
      destination := direction.map (·.destination)
      serviceId := trip.serviceId
      blockId := trip.blockId
      patternId := trip.patternId
      departure }

def firstDeparture (trips : Groups String PlannedStop) (published : String) : Option Instant :=
  ((trips.rows published).filterMap (·.departure)).min?

/-- By canonical trip; the parts of a split trip stay together, the part that departs first comes first. -/
def inOrder (rows : List PlannedStop) : List PlannedStop :=
  let trips := Groups.ofRows (·.tripIdGtfs) rows
  sortOn (fun r => (r.tripId, firstDeparture trips r.tripIdGtfs, r.tripIdGtfs, r.sequence)) rows

def ofTables (date : Day) (z : Zone) (t : Gtfs.Tables) : Except Failure (List PlannedStop) := do
  let rows ← t.stopTimes.mapM (ofStopTime date z (.ofTables date t))
  return inOrder (rows.filterMap id)

/- Parts of a split trip number their stops on their own. Along the canonical trip each part continues behind
the numbers of the part before it. -/

abbrev Offsets := Index String (String × Int)

structure Continued where
  rows : List PlannedStop
  offsets : List (String × Int)
  deriving DecidableEq, Repr

/-- Numbers are of 32 bits and wrap around. -/
def shift (offset : Int) (r : PlannedStop) : PlannedStop :=
  { r with sequence := Text.Bounds.unsigned32.wrap (r.sequence + offset) }

/-- Shifts a part by the greatest number before it; the first part and parts behind number zero stay. -/
def continueParts (offset : Int) : List (List PlannedStop) → Continued
  | [] => ⟨[], []⟩
  | part :: rest =>
    let shifted := part.map (shift offset)
    let greatest := ((shifted.map (·.sequence)).max?).getD offset
    let later := continueParts greatest rest
    let own := if 0 < offset then (part.head?.map fun r => (r.tripIdGtfs, offset)).toList else []
    ⟨shifted ++ later.rows, own ++ later.offsets⟩

def parts (rows : List PlannedStop) : List (List PlannedStop) :=
  rows.splitBy fun a b => a.tripIdGtfs = b.tripIdGtfs

def trips (rows : List PlannedStop) : List (List PlannedStop) :=
  rows.splitBy fun a b => a.tripId = b.tripId

def continueTrips (rows : List PlannedStop) : Continued :=
  let continued := (trips rows).map fun trip => continueParts 0 (parts trip)
  ⟨continued.flatMap (·.rows), continued.flatMap (·.offsets)⟩

def Continued.index (c : Continued) : Offsets := .ofRows Prod.fst c.offsets

end TransitTimeline.PlannedStop
