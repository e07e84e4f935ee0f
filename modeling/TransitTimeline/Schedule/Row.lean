import TransitTimeline.Table.Field

/-! Stops that a trip is scheduled to make: as GTFS plans them, as a TransitMaster pullout passes them, and the
skeleton rows that hold both. -/
namespace TransitTimeline

structure PlannedStop where
  tripId : String := ""
  tripIdGtfs : String := ""
  stopId : String := ""
  stopName : Option String := none
  parent : Option String := none
  sequence : Int := 0
  timepoint : Bool := false
  routeId : String := ""
  directionId : Int := 0
  direction : Option String := none
  destination : Option String := none
  serviceId : String := ""
  blockId : Option String := none
  patternId : Option String := none
  departure : Option Instant := none
  deriving DecidableEq, Repr, Inhabited

def PlannedStop.fields : List (Field PlannedStop) :=
  [.text "trip_id" (·.tripId) (fun r v => { r with tripId := v }),
   .text "trip_id_gtfs" (·.tripIdGtfs) (fun r v => { r with tripIdGtfs := v }),
   .text "stop_id" (·.stopId) (fun r v => { r with stopId := v }),
   .text? "stop_name" (·.stopName) (fun r v => { r with stopName := v }),
   .text? "parent_station" (·.parent) (fun r v => { r with parent := v }),
   .integer "gtfs_stop_sequence" .unsigned32 (·.sequence) (fun r v => { r with sequence := v }),
   .flag "timepoint" (·.timepoint) (fun r v => { r with timepoint := v }),
   .text "route_id" (·.routeId) (fun r v => { r with routeId := v }),
   .integer "direction_id" .unsigned8 (·.directionId) (fun r v => { r with directionId := v }),
   .text? "direction" (·.direction) (fun r v => { r with direction := v }),
   .text? "direction_destination" (·.destination) (fun r v => { r with destination := v }),
   .text "service_id" (·.serviceId) (fun r v => { r with serviceId := v }),
   .text? "block_id" (·.blockId) (fun r v => { r with blockId := v }),
   .text? "route_pattern_id" (·.patternId) (fun r v => { r with patternId := v }),
   .instant? "plan_stop_departure_dt" (·.departure) (fun r v => { r with departure := v })]

structure Timepoint where
  id : Option Int := none
  abbreviation : Option String := none
  name : Option String := none
  deriving DecidableEq, Repr, Inhabited

def Timepoint.fields : List (Field Timepoint) :=
  [.integer? "timepoint_id" .signed64 (·.id) (fun r v => { r with id := v }),
   .text? "timepoint_abbr" (·.abbreviation) (fun r v => { r with abbreviation := v }),
   .text? "timepoint_name" (·.name) (fun r v => { r with name := v })]

structure PulloutStop where
  tripId : String := ""
  pullout : Int := 0
  stopId : String := ""
  sequence : Int := 0
  patternId : Int := 0
  timepoint : Timepoint := {}
  blockId : Option String := none
  runId : Option String := none
  departure : Option Instant := none
  deriving DecidableEq, Repr, Inhabited

def PulloutStop.fields : List (Field PulloutStop) :=
  [.text "trip_id" (·.tripId) (fun r v => { r with tripId := v }),
   .integer "tm_pullout_id" .signed64 (·.pullout) (fun r v => { r with pullout := v }),
   .text "stop_id" (·.stopId) (fun r v => { r with stopId := v }),
   .integer "tm_stop_sequence" .unsigned32 (·.sequence) (fun r v => { r with sequence := v }),
   .integer "tm_pattern_id" .signed64 (·.patternId) (fun r v => { r with patternId := v }),
   .text? "tm_block_id" (·.blockId) (fun r v => { r with blockId := v }),
   .text? "tm_run_id" (·.runId) (fun r v => { r with runId := v }),
   .instant? "tm_stop_departure_dt" (·.departure) (fun r v => { r with departure := v })] ++
  Timepoint.fields.map (.within (·.timepoint) (fun r v => { r with timepoint := v }))

inductive Provenance where
  | gtfs
  | tm
  | join
  deriving DecidableEq, Repr, Inhabited

namespace Provenance

/-- A row that neither schedule numbers counts as planned. -/
def ofSequences : Option Int → Option Int → Provenance
  | _, none => gtfs
  | none, some _ => tm
  | some _, some _ => join

def word : Provenance → String
  | gtfs => "GTFS"
  | tm => "TM"
  | join => "JOIN"

def ofWord? (s : String) : Option Provenance := [gtfs, tm, join].find? (·.word = s)

end Provenance

inductive Place where
  | start
  | mid
  | finish
  deriving DecidableEq, Repr, Inhabited

namespace Place

def word : Place → String
  | start => "start"
  | mid => "mid"
  | finish => "end"

def ofWord? (s : String) : Option Place := [start, mid, finish].find? (·.word = s)

end Place

structure TripFacts where
  tripIdGtfs : Option String := none
  routeId : Option String := none
  directionId : Option Int := none
  direction : Option String := none
  destination : Option String := none
  serviceId : Option String := none
  blockId : Option String := none
  patternId : Option String := none
  tmPatternId : Option Int := none
  tmBlockId : Option String := none
  tmRunId : Option String := none
  deriving DecidableEq, Repr, Inhabited

namespace TripFacts

def tripIdField : Field TripFacts :=
  .text? "trip_id_gtfs" (·.tripIdGtfs) (fun r v => { r with tripIdGtfs := v })

def otherFields : List (Field TripFacts) :=
  [.text? "route_id" (·.routeId) (fun r v => { r with routeId := v }),
   .integer? "direction_id" .unsigned8 (·.directionId) (fun r v => { r with directionId := v }),
   .text? "direction" (·.direction) (fun r v => { r with direction := v }),
   .text? "direction_destination" (·.destination) (fun r v => { r with destination := v }),
   .text? "service_id" (·.serviceId) (fun r v => { r with serviceId := v }),
   .text? "block_id" (·.blockId) (fun r v => { r with blockId := v }),
   .text? "route_pattern_id" (·.patternId) (fun r v => { r with patternId := v }),
   .integer? "tm_pattern_id" .signed64 (·.tmPatternId) (fun r v => { r with tmPatternId := v }),
   .text? "tm_block_id" (·.tmBlockId) (fun r v => { r with tmBlockId := v }),
   .text? "tm_run_id" (·.tmRunId) (fun r v => { r with tmRunId := v })]

end TripFacts

structure SkeletonRow where
  tripId : String := ""
  pullout : Option Int := none
  position : Int := 0
  stopId : String := ""
  stopName : Option String := none
  parent : Option String := none
  gtfsSequence : Option Int := none
  tmSequence : Option Int := none
  provenance : Provenance := .gtfs
  place : Place := .mid
  timepoint : Timepoint := {}
  planned : Option Instant := none
  dispatched : Option Instant := none
  facts : TripFacts := {}
  deriving DecidableEq, Repr, Inhabited

namespace SkeletonRow

def tripIdField : Field SkeletonRow := .text "trip_id" (·.tripId) (fun r v => { r with tripId := v })

def pulloutField : Field SkeletonRow :=
  .integer? "tm_pullout_id" .signed64 (·.pullout) (fun r v => { r with pullout := v })

def factFields (fields : List (Field TripFacts)) : List (Field SkeletonRow) :=
  fields.map (.within (·.facts) (fun r v => { r with facts := v }))

def stopFields : List (Field SkeletonRow) :=
  [.integer "stop_sequence" .unsigned32 (·.position) (fun r v => { r with position := v }),
   .text "stop_id" (·.stopId) (fun r v => { r with stopId := v }),
   .text? "stop_name" (·.stopName) (fun r v => { r with stopName := v }),
   .text? "parent_station" (·.parent) (fun r v => { r with parent := v }),
   .integer? "gtfs_stop_sequence" .unsigned32 (·.gtfsSequence) (fun r v => { r with gtfsSequence := v }),
   .integer? "tm_stop_sequence" .unsigned32 (·.tmSequence) (fun r v => { r with tmSequence := v }),
   .choice "provenance" Provenance.word Provenance.ofWord? (·.provenance)
     (fun r v => { r with provenance := v }),
   .choice "point_type" Place.word Place.ofWord? (·.place) (fun r v => { r with place := v })] ++
  Timepoint.fields.map (.within (·.timepoint) (fun r v => { r with timepoint := v })) ++
  [.instant? "plan_stop_departure_dt" (·.planned) (fun r v => { r with planned := v }),
   .instant? "tm_stop_departure_dt" (·.dispatched) (fun r v => { r with dispatched := v })]

def fields : List (Field SkeletonRow) :=
  tripIdField :: pulloutField :: factFields (TripFacts.tripIdField :: TripFacts.otherFields) ++ stopFields

def scheduled (r : SkeletonRow) : Option Instant := r.planned.or r.dispatched

end SkeletonRow

end TransitTimeline
