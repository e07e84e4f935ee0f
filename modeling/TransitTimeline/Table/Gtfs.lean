import TransitTimeline.Table.Field

/-! The tables of a static GTFS feed. -/
namespace TransitTimeline.Gtfs

structure Trip where
  routeId : String := ""
  serviceId : String := ""
  tripId : String := ""
  directionId : Int := 0
  blockId : Option String := none
  patternId : Option String := none
  headsign : Option String := none
  deriving DecidableEq, Repr, Inhabited

def Trip.fields : List (Field Trip) :=
  [.text "route_id" (·.routeId) (fun r v => { r with routeId := v }),
   .text "service_id" (·.serviceId) (fun r v => { r with serviceId := v }),
   .text "trip_id" (·.tripId) (fun r v => { r with tripId := v }),
   .integer "direction_id" .unsigned8 (·.directionId) (fun r v => { r with directionId := v }),
   .text? "block_id" (·.blockId) (fun r v => { r with blockId := v }),
   .text? "route_pattern_id" (·.patternId) (fun r v => { r with patternId := v }),
   .text? "trip_headsign" (·.headsign) (fun r v => { r with headsign := v })]

/-- Times count from twelve hours before local noon. -/
structure StopTime where
  tripId : String := ""
  arrival : Option String := none
  departure : Option String := none
  stopId : String := ""
  sequence : Int := 0
  timepoint : Option Int := none
  deriving DecidableEq, Repr, Inhabited

def StopTime.fields : List (Field StopTime) :=
  [.text "trip_id" (·.tripId) (fun r v => { r with tripId := v }),
   .text? "arrival_time" (·.arrival) (fun r v => { r with arrival := v }),
   .text? "departure_time" (·.departure) (fun r v => { r with departure := v }),
   .text "stop_id" (·.stopId) (fun r v => { r with stopId := v }),
   .integer "stop_sequence" .unsigned32 (·.sequence) (fun r v => { r with sequence := v }),
   .integer? "timepoint" .unsigned8 (·.timepoint) (fun r v => { r with timepoint := v })]

structure Route where
  routeId : String := ""
  routeType : Int := 0
  shortName : Option String := none
  deriving DecidableEq, Repr, Inhabited

def Route.fields : List (Field Route) :=
  [.text "route_id" (·.routeId) (fun r v => { r with routeId := v }),
   .integer "route_type" .unsigned16 (·.routeType) (fun r v => { r with routeType := v }),
   .text? "route_short_name" (·.shortName) (fun r v => { r with shortName := v })]

structure Direction where
  routeId : String := ""
  directionId : Int := 0
  name : String := ""
  destination : String := ""
  deriving DecidableEq, Repr, Inhabited

def Direction.fields : List (Field Direction) :=
  [.text "route_id" (·.routeId) (fun r v => { r with routeId := v }),
   .integer "direction_id" .unsigned8 (·.directionId) (fun r v => { r with directionId := v }),
   .text "direction" (·.name) (fun r v => { r with name := v }),
   .text "direction_destination" (·.destination) (fun r v => { r with destination := v })]

structure RoutePattern where
  patternId : String := ""
  routeId : String := ""
  directionId : Int := 0
  typicality : Option Int := none
  deriving DecidableEq, Repr, Inhabited

def RoutePattern.fields : List (Field RoutePattern) :=
  [.text "route_pattern_id" (·.patternId) (fun r v => { r with patternId := v }),
   .text "route_id" (·.routeId) (fun r v => { r with routeId := v }),
   .integer "direction_id" .unsigned8 (·.directionId) (fun r v => { r with directionId := v }),
   .integer? "route_pattern_typicality" .unsigned8 (·.typicality) (fun r v => { r with typicality := v })]

structure Stop where
  stopId : String := ""
  name : Option String := none
  parent : Option String := none
  deriving DecidableEq, Repr, Inhabited

def Stop.fields : List (Field Stop) :=
  [.text "stop_id" (·.stopId) (fun r v => { r with stopId := v }),
   .text? "stop_name" (·.name) (fun r v => { r with name := v }),
   .text? "parent_station" (·.parent) (fun r v => { r with parent := v })]

structure Week where
  serviceId : String := ""
  monday : Int := 0
  tuesday : Int := 0
  wednesday : Int := 0
  thursday : Int := 0
  friday : Int := 0
  saturday : Int := 0
  sunday : Int := 0
  start : String := ""
  finish : String := ""
  deriving DecidableEq, Repr, Inhabited

def Week.fields : List (Field Week) :=
  [.text "service_id" (·.serviceId) (fun r v => { r with serviceId := v }),
   .integer "monday" .unsigned8 (·.monday) (fun r v => { r with monday := v }),
   .integer "tuesday" .unsigned8 (·.tuesday) (fun r v => { r with tuesday := v }),
   .integer "wednesday" .unsigned8 (·.wednesday) (fun r v => { r with wednesday := v }),
   .integer "thursday" .unsigned8 (·.thursday) (fun r v => { r with thursday := v }),
   .integer "friday" .unsigned8 (·.friday) (fun r v => { r with friday := v }),
   .integer "saturday" .unsigned8 (·.saturday) (fun r v => { r with saturday := v }),
   .integer "sunday" .unsigned8 (·.sunday) (fun r v => { r with sunday := v }),
   .text "start_date" (·.start) (fun r v => { r with start := v }),
   .text "end_date" (·.finish) (fun r v => { r with finish := v })]

/-- A service is added to a date by type 1 and removed from it by type 2. -/
structure Exception where
  serviceId : String := ""
  date : String := ""
  kind : Int := 0
  deriving DecidableEq, Repr, Inhabited

def Exception.fields : List (Field Exception) :=
  [.text "service_id" (·.serviceId) (fun r v => { r with serviceId := v }),
   .text "date" (·.date) (fun r v => { r with date := v }),
   .integer "exception_type" .unsigned8 (·.kind) (fun r v => { r with kind := v })]

structure Tables where
  trips : List Trip := []
  stopTimes : List StopTime := []
  routes : List Route := []
  directions : List Direction := []
  patterns : List RoutePattern := []
  stops : List Stop := []
  weeks : List Week := []
  exceptions : List Exception := []
  deriving DecidableEq, Repr, Inhabited

end TransitTimeline.Gtfs
