import TransitTimeline.Table.Field

/-! The tables of TransitMaster, the dispatch system that schedules pullouts of vehicles. -/
namespace TransitTimeline.Tm

structure GeoNode where
  nodeId : Int := 0
  abbreviation : String := ""
  name : Option String := none
  deriving DecidableEq, Repr, Inhabited

def GeoNode.fields : List (Field GeoNode) :=
  [.integer "GEO_NODE_ID" .signed64 (·.nodeId) (fun r v => { r with nodeId := v }),
   .text "GEO_NODE_ABBR" (·.abbreviation) (fun r v => { r with abbreviation := v }),
   .text? "GEO_NODE_NAME" (·.name) (fun r v => { r with name := v })]

structure Route where
  routeId : Int := 0
  abbreviation : String := ""
  deriving DecidableEq, Repr, Inhabited

def Route.fields : List (Field Route) :=
  [.integer "ROUTE_ID" .signed64 (·.routeId) (fun r v => { r with routeId := v }),
   .text "ROUTE_ABBR" (·.abbreviation) (fun r v => { r with abbreviation := v })]

/-- The serial number is the trip id that GTFS knows. -/
structure Trip where
  tripId : Int := 0
  serial : Int := 0
  patternId : Int := 0
  routeId : Option Int := none
  deriving DecidableEq, Repr, Inhabited

def Trip.fields : List (Field Trip) :=
  [.integer "TRIP_ID" .signed64 (·.tripId) (fun r v => { r with tripId := v }),
   .integer "TRIP_SERIAL_NUMBER" .signed64 (·.serial) (fun r v => { r with serial := v }),
   .integer "PATTERN_ID" .signed64 (·.patternId) (fun r v => { r with patternId := v }),
   .integer? "ROUTE_ID" .signed64 (·.routeId) (fun r v => { r with routeId := v })]

structure Vehicle where
  vehicleId : Int := 0
  propertyTag : String := ""
  deriving DecidableEq, Repr, Inhabited

def Vehicle.fields : List (Field Vehicle) :=
  [.integer "VEHICLE_ID" .signed64 (·.vehicleId) (fun r v => { r with vehicleId := v }),
   .text "PROPERTY_TAG" (·.propertyTag) (fun r v => { r with propertyTag := v })]

structure PatternNode where
  patternId : Int := 0
  sequence : Int := 0
  nodeId : Int := 0
  timePointId : Option Int := none
  deriving DecidableEq, Repr, Inhabited

def PatternNode.fields : List (Field PatternNode) :=
  [.integer "PATTERN_ID" .signed64 (·.patternId) (fun r v => { r with patternId := v }),
   .integer "PATTERN_GEO_NODE_SEQ" .unsigned32 (·.sequence) (fun r v => { r with sequence := v }),
   .integer "GEO_NODE_ID" .signed64 (·.nodeId) (fun r v => { r with nodeId := v }),
   .integer? "TIME_POINT_ID" .signed64 (·.timePointId) (fun r v => { r with timePointId := v })]

structure TimePoint where
  timePointId : Int := 0
  abbreviation : String := ""
  name : Option String := none
  deriving DecidableEq, Repr, Inhabited

def TimePoint.fields : List (Field TimePoint) :=
  [.integer "TIME_POINT_ID" .signed64 (·.timePointId) (fun r v => { r with timePointId := v }),
   .text "TIME_POINT_ABBR" (·.abbreviation) (fun r v => { r with abbreviation := v }),
   .text? "TIME_POINT_NAME" (·.name) (fun r v => { r with name := v })]

structure WorkPiece where
  pulloutId : Int := 0
  blockId : Option String := none
  runId : Option String := none
  operatorId : Option String := none
  deriving DecidableEq, Repr, Inhabited

def WorkPiece.fields : List (Field WorkPiece) :=
  [.integer "PULLOUT_ID" .signed64 (·.pulloutId) (fun r v => { r with pulloutId := v }),
   .text? "BLOCK_ID" (·.blockId) (fun r v => { r with blockId := v }),
   .text? "RUN_ID" (·.runId) (fun r v => { r with runId := v }),
   .text? "OPERATOR_ID" (·.operatorId) (fun r v => { r with operatorId := v })]

structure Passing where
  pulloutId : Int := 0
  tripId : Int := 0
  sequence : Int := 0
  scheduled : Option Int := none
  deriving DecidableEq, Repr, Inhabited

def Passing.fields : List (Field Passing) :=
  [.integer "PULLOUT_ID" .signed64 (·.pulloutId) (fun r v => { r with pulloutId := v }),
   .integer "TRIP_ID" .signed64 (·.tripId) (fun r v => { r with tripId := v }),
   .integer "PATTERN_GEO_NODE_SEQ" .unsigned32 (·.sequence) (fun r v => { r with sequence := v }),
   .integer? "SCHEDULED_TIME" .signed64 (·.scheduled) (fun r v => { r with scheduled := v })]

structure Tables where
  nodes : List GeoNode := []
  routes : List Route := []
  trips : List Trip := []
  vehicles : List Vehicle := []
  patternNodes : List PatternNode := []
  timePoints : List TimePoint := []
  workPieces : List WorkPiece := []
  passings : List Passing := []
  deriving DecidableEq, Repr, Inhabited

end TransitTimeline.Tm
