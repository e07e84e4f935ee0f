import TransitTimeline.Record.Stay

/-! Headways: at each stop, the time since the bus before departed from it. -/
namespace TransitTimeline.Headway
variable {κ : Type} [Ord κ]

structure Departure where
  place : Nat
  time : Instant
  record : StopRecord
  deriving DecidableEq, Repr

def departures (rows : List StopRecord) : List Departure :=
  rows.zipIdx.filterMap fun (record, place) => record.stay.departure.map fun time => ⟨place, time, record⟩

def order (d : Departure) : Instant × String × String := (d.time, d.record.row.tripId, d.record.vehicleLabel)

def gaps : List Departure → List (Nat × Int)
  | [] => []
  | [_] => []
  | previous :: d :: rest => (d.place, d.time.secondsSince previous.time) :: gaps (d :: rest)

/-- The headway of every row among the rows with its key; the first to depart has none. -/
def among (key : StopRecord → κ) (rows : List StopRecord) : List (Option Int) :=
  let groups := Groups.ofRows (fun d => key d.record) (departures rows)
  let found := Index.ofRows Prod.fst (groups.toList.flatMap fun (_, group) => gaps (sortOn order group))
  (List.range rows.length).map fun place => (found.find? place).map (·.2)

def routeKey (r : StopRecord) : Day × String × Option Int × Option String :=
  (r.date, r.row.stopId, r.row.facts.directionId, r.row.facts.routeId)

def destinationKey (r : StopRecord) : Day × String × Option String :=
  (r.date, r.row.stopId, r.row.facts.destination)

def fill (rows : List StopRecord) : List StopRecord :=
  (rows.zip ((among routeKey rows).zip (among destinationKey rows))).map fun (r, route, destination) =>
    { r with routeHeadway := route, destinationHeadway := destination }

end TransitTimeline.Headway

namespace TransitTimeline.StopRecord

def derive (events : List StopEvent) : List StopRecord := Headway.fill (ofEvents events)

end TransitTimeline.StopRecord
