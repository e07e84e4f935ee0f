import TransitTimeline.Journey.Event

/-! Published rows: a vehicle's stop with its schedule, both observations, and the times worked out of them. -/
namespace TransitTimeline

/-- What the feeds reported of a stop. GTFS reports no departure; it is the travelling toward the next stop. -/
structure Reported where
  gtfsTravelTo : Option Instant := none
  gtfsArrival : Option Instant := none
  gtfsDeparture : Option Instant := none
  latitude : Option Binary64 := none
  longitude : Option Binary64 := none
  tmScheduled : Option Instant := none
  tmArrival : Option Instant := none
  tmDeparture : Option Instant := none
  deriving DecidableEq, Repr, Inhabited

def Reported.fields : List (Field Reported) :=
  [.instant? "gtfs_travel_to_dt" (·.gtfsTravelTo) (fun r v => { r with gtfsTravelTo := v }),
   .instant? "gtfs_arrival_dt" (·.gtfsArrival) (fun r v => { r with gtfsArrival := v }),
   .instant? "gtfs_departure_dt" (·.gtfsDeparture) (fun r v => { r with gtfsDeparture := v }),
   .real? "latitude" (·.latitude) (fun r v => { r with latitude := v }),
   .real? "longitude" (·.longitude) (fun r v => { r with longitude := v }),
   .instant? "tm_scheduled_dt" (·.tmScheduled) (fun r v => { r with tmScheduled := v }),
   .instant? "tm_arrival_dt" (·.tmArrival) (fun r v => { r with tmArrival := v }),
   .instant? "tm_departure_dt" (·.tmDeparture) (fun r v => { r with tmDeparture := v })]

structure Stay where
  arrival : Option Instant := none
  departure : Option Instant := none
  travelled : Option Int := none
  stopped : Option Int := none
  deriving DecidableEq, Repr, Inhabited

def Stay.fields : List (Field Stay) :=
  [.instant? "stop_arrival_dt" (·.arrival) (fun r v => { r with arrival := v }),
   .instant? "stop_departure_dt" (·.departure) (fun r v => { r with departure := v }),
   .integer? "travel_time_seconds" .signed64 (·.travelled) (fun r v => { r with travelled := v }),
   .integer? "stopped_duration_seconds" .signed64 (·.stopped) (fun r v => { r with stopped := v })]

structure StopRecord where
  date : Day := default
  vehicleLabel : String := ""
  vehicleId : Option String := none
  row : SkeletonRow := {}
  reported : Reported := {}
  stay : Stay := {}
  routeHeadway : Option Int := none
  destinationHeadway : Option Int := none
  isFullTrip : Bool := false
  deriving DecidableEq, Repr, Inhabited

namespace StopRecord

def ofRow (fields : List (Field SkeletonRow)) : List (Field StopRecord) :=
  fields.map (.within (·.row) (fun r v => { r with row := v }))

def fields : List (Field StopRecord) :=
  [.day "service_date" (·.date) (fun r v => { r with date := v })] ++
  ofRow (SkeletonRow.tripIdField :: SkeletonRow.factFields [TripFacts.tripIdField] ++ [SkeletonRow.pulloutField]) ++
  [.text "vehicle_label" (·.vehicleLabel) (fun r v => { r with vehicleLabel := v }),
   .text? "vehicle_id" (·.vehicleId) (fun r v => { r with vehicleId := v })] ++
  ofRow (SkeletonRow.factFields TripFacts.otherFields ++ SkeletonRow.stopFields) ++
  Reported.fields.map (.within (·.reported) (fun r v => { r with reported := v })) ++
  Stay.fields.map (.within (·.stay) (fun r v => { r with stay := v })) ++
  [.integer? "route_direction_headway_seconds" .signed64 (·.routeHeadway)
     (fun r v => { r with routeHeadway := v }),
   .integer? "direction_destination_headway_seconds" .signed64 (·.destinationHeadway)
     (fun r v => { r with destinationHeadway := v }),
   .flag "is_full_trip" (·.isFullTrip) (fun r v => { r with isFullTrip := v })]

theorem fieldsLength : fields.length = 44 := rfl

def journey (r : StopRecord) : String × String := (r.row.tripId, r.vehicleLabel)

def partitions (rows : List StopRecord) : List (List StopRecord) :=
  rows.splitBy fun a b => a.journey = b.journey

end StopRecord

end TransitTimeline
