import TransitTimeline.Observation.Row
import TransitTimeline.Observation.Status
import TransitTimeline.Schedule.Planned
import TransitTimeline.Table.Realtime

/-! Position reports gathered by stop. -/
namespace TransitTimeline
open Std

structure UsablePing where
  tripIdGtfs : String
  directionId : Option Int
  stopId : String
  sequence : Int
  vehicleLabel : String
  status : StopStatus
  time : Instant
  ping : Ping
  deriving DecidableEq, Repr

namespace UsablePing

/-- A ping without a start date, or with a blank one, belongs to every date. -/
def isOfDate (date : Day) (p : Ping) : Bool :=
  match p.startDate with
  | none => true
  | some s => (Text.trimChars s.toList).isEmpty || Day.ofCompact? s = some date

def ofPing? (date : Day) (busRoutes : TreeSet String) (p : Ping) : Option UsablePing := do
  if ¬busRoutes.contains (← p.routeId) then none else
  if ¬isOfDate date p then none else
  return {
    tripIdGtfs := ← p.tripId
    directionId := p.directionId
    stopId := ← p.stopId
    sequence := ← p.stopSequence
    vehicleLabel := ← p.vehicleLabel.or p.vehicleId
    status := ← StopStatus.ofText? p.status
    time := ← ServiceTime.reported? p.timestamp
    ping := p }

abbrev Key := String × Option Int × String × Int × String

def key (r : UsablePing) : Key := (r.tripIdGtfs, r.directionId, r.stopId, r.sequence, r.vehicleLabel)

end UsablePing

namespace GtfsObservation

def earliest (status : StopStatus) (group : List UsablePing) : Option UsablePing :=
  firstLeast (·.time) (group.filter (·.status = status))

def ofGroup (key : UsablePing.Key) (group : List UsablePing) : GtfsObservation :=
  let (tripIdGtfs, directionId, stopId, sequence, vehicleLabel) := key
  let travelling := earliest .inTransit group
  { tripId := TripId.canonicalOf tripIdGtfs
    tripIdGtfs
    routeId := group.findSome? (·.ping.routeId)
    directionId
    stopId
    sequence
    vehicleId := group.findSome? (·.ping.vehicleId)
    vehicleLabel
    travelTo := travelling.map (·.time)
    arrival := (earliest .stopped group).map (·.time)
    latitude := travelling.bind (·.ping.latitude)
    longitude := travelling.bind (·.ping.longitude) }

def ofPings (date : Day) (busRoutes : TreeSet String) (pings : List Ping) : List GtfsObservation :=
  (Groups.ofRows UsablePing.key (pings.filterMap (UsablePing.ofPing? date busRoutes))).toList.map fun (key, group) =>
    ofGroup key group

def continued (offsets : PlannedStop.Offsets) (o : GtfsObservation) : GtfsObservation :=
  match offsets.find? (TripId.scheduled o.tripIdGtfs) with
  | some (_, offset) => { o with sequence := Text.Bounds.unsigned32.wrap (o.sequence + offset) }
  | none => o

end GtfsObservation

end TransitTimeline
