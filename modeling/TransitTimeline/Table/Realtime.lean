import TransitTimeline.Table.Field

/-! Raw realtime rows, as vehicles and sensors report them. -/
namespace TransitTimeline

structure Ping where
  vehicleId : Option String := none
  vehicleLabel : Option String := none
  tripId : Option String := none
  routeId : Option String := none
  directionId : Option Int := none
  startDate : Option String := none
  stopId : Option String := none
  stopSequence : Option Int := none
  status : Option String := none
  timestamp : Int := 0
  latitude : Option Binary64 := none
  longitude : Option Binary64 := none
  deriving DecidableEq, Repr, Inhabited

def Ping.fields : List (Field Ping) :=
  [.text? "vehicle_id" (·.vehicleId) (fun r v => { r with vehicleId := v }),
   .text? "vehicle_label" (·.vehicleLabel) (fun r v => { r with vehicleLabel := v }),
   .text? "trip_id" (·.tripId) (fun r v => { r with tripId := v }),
   .text? "route_id" (·.routeId) (fun r v => { r with routeId := v }),
   .integer? "direction_id" .unsigned8 (·.directionId) (fun r v => { r with directionId := v }),
   .text? "start_date" (·.startDate) (fun r v => { r with startDate := v }),
   .text? "stop_id" (·.stopId) (fun r v => { r with stopId := v }),
   .integer? "current_stop_sequence" .unsigned32 (·.stopSequence) (fun r v => { r with stopSequence := v }),
   .text? "current_status" (·.status) (fun r v => { r with status := v }),
   .integer "timestamp" .signed64 (·.timestamp) (fun r v => { r with timestamp := v }),
   .real? "latitude" (·.latitude) (fun r v => { r with latitude := v }),
   .real? "longitude" (·.longitude) (fun r v => { r with longitude := v })]

/-- A stop crossing that a sensor recorded. Times are seconds after local midnight. -/
structure Crossing where
  calendarId : Int := 0
  isRevenue : String := ""
  routeId : Option Int := none
  nodeId : Int := 0
  tripId : Int := 0
  vehicleId : Int := 0
  pulloutId : Option Int := none
  sequence : Int := 0
  scheduled : Option Int := none
  arrival : Option Int := none
  departure : Option Int := none
  deriving DecidableEq, Repr, Inhabited

def Crossing.fields : List (Field Crossing) :=
  [.integer "CALENDAR_ID" .signed64 (·.calendarId) (fun r v => { r with calendarId := v }),
   .text "IS_REVENUE" (·.isRevenue) (fun r v => { r with isRevenue := v }),
   .integer? "ROUTE_ID" .signed64 (·.routeId) (fun r v => { r with routeId := v }),
   .integer "GEO_NODE_ID" .signed64 (·.nodeId) (fun r v => { r with nodeId := v }),
   .integer "TRIP_ID" .signed64 (·.tripId) (fun r v => { r with tripId := v }),
   .integer "VEHICLE_ID" .signed64 (·.vehicleId) (fun r v => { r with vehicleId := v }),
   .integer? "PULLOUT_ID" .signed64 (·.pulloutId) (fun r v => { r with pulloutId := v }),
   .integer "PATTERN_GEO_NODE_SEQ" .unsigned32 (·.sequence) (fun r v => { r with sequence := v }),
   .integer? "SCHEDULED_TIME" .signed64 (·.scheduled) (fun r v => { r with scheduled := v }),
   .integer? "ACT_ARRIVAL_TIME" .signed64 (·.arrival) (fun r v => { r with arrival := v }),
   .integer? "ACT_DEPARTURE_TIME" .signed64 (·.departure) (fun r v => { r with departure := v })]

end TransitTimeline
