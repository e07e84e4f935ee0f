import TransitTimeline.Column
import TransitTimeline.Table.Field

/-! What the two realtime feeds saw of a vehicle at a stop. -/
namespace TransitTimeline

structure GtfsObservation where
  tripId : String := ""
  tripIdGtfs : String := ""
  routeId : Option String := none
  directionId : Option Int := none
  stopId : String := ""
  sequence : Int := 0
  vehicleId : Option String := none
  vehicleLabel : String := ""
  travelTo : Option Instant := none
  arrival : Option Instant := none
  latitude : Option Binary64 := none
  longitude : Option Binary64 := none
  deriving DecidableEq, Repr, Inhabited

namespace GtfsObservation

def fields : List (Field GtfsObservation) :=
  [.text "trip_id" (·.tripId) (fun r v => { r with tripId := v }),
   .text "trip_id_gtfs" (·.tripIdGtfs) (fun r v => { r with tripIdGtfs := v }),
   .text? "route_id" (·.routeId) (fun r v => { r with routeId := v }),
   .integer? "direction_id" .unsigned8 (·.directionId) (fun r v => { r with directionId := v }),
   .text "stop_id" (·.stopId) (fun r v => { r with stopId := v }),
   .integer "stop_sequence" .unsigned32 (·.sequence) (fun r v => { r with sequence := v }),
   .text? "vehicle_id" (·.vehicleId) (fun r v => { r with vehicleId := v }),
   .text "vehicle_label" (·.vehicleLabel) (fun r v => { r with vehicleLabel := v }),
   .instant? "gtfs_travel_to_dt" (·.travelTo) (fun r v => { r with travelTo := v }),
   .instant? "gtfs_arrival_dt" (·.arrival) (fun r v => { r with arrival := v }),
   .real? "latitude" (·.latitude) (fun r v => { r with latitude := v }),
   .real? "longitude" (·.longitude) (fun r v => { r with longitude := v })]

def firstSeen (o : GtfsObservation) : Option Instant := Column.minPresent o.travelTo o.arrival

end GtfsObservation

structure TmObservation where
  tripId : String := ""
  routeId : String := ""
  stopId : String := ""
  sequence : Int := 0
  vehicleLabel : String := ""
  pullout : Option Int := none
  scheduled : Option Instant := none
  arrival : Option Instant := none
  departure : Option Instant := none
  deriving DecidableEq, Repr, Inhabited

namespace TmObservation

def fields : List (Field TmObservation) :=
  [.text "trip_id" (·.tripId) (fun r v => { r with tripId := v }),
   .text "route_id" (·.routeId) (fun r v => { r with routeId := v }),
   .text "stop_id" (·.stopId) (fun r v => { r with stopId := v }),
   .integer "tm_stop_sequence" .unsigned32 (·.sequence) (fun r v => { r with sequence := v }),
   .text "vehicle_label" (·.vehicleLabel) (fun r v => { r with vehicleLabel := v }),
   .integer? "tm_pullout_id" .signed64 (·.pullout) (fun r v => { r with pullout := v }),
   .instant? "tm_scheduled_dt" (·.scheduled) (fun r v => { r with scheduled := v }),
   .instant? "tm_arrival_dt" (·.arrival) (fun r v => { r with arrival := v }),
   .instant? "tm_departure_dt" (·.departure) (fun r v => { r with departure := v })]

def firstSeen (o : TmObservation) : Option Instant := Column.minPresent o.arrival o.departure

end TmObservation

end TransitTimeline
