import TransitTimeline.Observation.Row
import TransitTimeline.Order
import TransitTimeline.ServiceTime
import TransitTimeline.Table.Realtime
import TransitTimeline.Table.TransitMaster
import TransitTimeline.TripId

/-! Sensor crossings in terms of the ids that GTFS knows. -/
namespace TransitTimeline.TmObservation

structure Lookup where
  nodes : Index Int Tm.GeoNode
  routes : Index Int Tm.Route
  trips : Index Int Tm.Trip
  vehicles : Index Int Tm.Vehicle

def Lookup.ofTables (t : Tm.Tables) : Lookup :=
  ⟨.ofRows (·.nodeId) t.nodes, .ofRows (·.routeId) t.routes, .ofRows (·.tripId) t.trips,
    .ofRows (·.vehicleId) t.vehicles⟩

def isUsable (date : Day) (c : Crossing) : Bool :=
  c.calendarId = date.dispatchId && (Text.trimChars c.isRevenue.toList).map Char.toUpper = ['R']

def Lookup.resolve (l : Lookup) (c : Crossing) : Option (Tm.GeoNode × Tm.Route × Tm.Trip × Tm.Vehicle) := do
  let node ← l.nodes.find? c.nodeId
  let route ← l.routes.find? (← c.routeId)
  let trip ← l.trips.find? c.tripId
  let vehicle ← l.vehicles.find? c.vehicleId
  return (node, route, trip, vehicle)

def timeOf (date : Day) (z : Zone) : Option Int → Except Failure (Option Instant)
  | some seconds => ServiceTime.dispatched date seconds z
  | none => .ok none

def ofCrossing (date : Day) (z : Zone) (l : Lookup) (c : Crossing) : Except Failure (Option TmObservation) :=
  if ¬isUsable date c then .ok none else
  match l.resolve c with
  | none => .ok none
  | some (node, route, trip, vehicle) => do
    let o : TmObservation := {
      tripId := TripId.canonicalOf (toString trip.serial)
      routeId := routeOfAbbreviation route.abbreviation
      stopId := node.abbreviation
      sequence := c.sequence
      vehicleLabel := vehicle.propertyTag
      pullout := c.pulloutId
      scheduled := ← timeOf date z c.scheduled
      arrival := ← timeOf date z c.arrival
      departure := ← timeOf date z c.departure }
    return if o.firstSeen.isSome then some o else none

def key (o : TmObservation) : String × String × Int × String := (o.tripId, o.vehicleLabel, o.sequence, o.stopId)

def distinct (observations : List TmObservation) : List TmObservation :=
  (Groups.ofRows key observations).toList.filterMap fun (_, group) => firstLeast (·.firstSeen) group

def ofCrossings (date : Day) (z : Zone) (t : Tm.Tables) (crossings : List Crossing) :
    Except Failure (List TmObservation) := do
  let observations ← crossings.mapM (ofCrossing date z (.ofTables t))
  return distinct (observations.filterMap id)

end TransitTimeline.TmObservation
