import TransitTimeline.Record.Basic

/-! One arrival and one departure for each stop, worked out of both observations, and the durations between
them. -/
namespace TransitTimeline.Stay

structure Times where
  arrival : Option Instant
  departure : Option Instant
  deriving DecidableEq, Repr

namespace Times

def complete (t : Times) : Times := ⟨t.arrival.or t.departure, t.departure.or t.arrival⟩

def latest (t : Times) : Option Instant := Column.maxPresent t.arrival t.departure

def raise (floor value : Option Instant) : Option Instant :=
  match value, floor with
  | some v, some f => if v < f then some f else some v
  | value, _ => value

def raiseTo (floor : Option Instant) (t : Times) : Times := ⟨raise floor t.arrival, raise floor t.departure⟩

end Times

def travelTo (e : StopEvent) : Option Instant := e.gtfs.bind (·.travelTo)
def gtfsArrival (e : StopEvent) : Option Instant := e.gtfs.bind (·.arrival)
def tmArrival (e : StopEvent) : Option Instant := e.tm.bind (·.arrival)
def tmDeparture (e : StopEvent) : Option Instant := e.tm.bind (·.departure)

/-- A vehicle leaves a stop when it is first seen travelling toward the next one. -/
def gtfsDepartures (events : List StopEvent) : List (Option Instant) := Column.next (events.map travelTo)

/-- The times of one stop by itself: the latest arrival, but no later than the departure. At the first stop the
departure is the feed's own before the sensor's, along the way the earlier of the two, and at the last stop the
arrival. -/
def estimate (count index : Nat) (e : StopEvent) (gtfsDeparture : Option Instant) : Times :=
  let latest := Column.maxPresent (gtfsArrival e) (tmArrival e)
  if index = 0 then
    let departure := gtfsDeparture.or (tmDeparture e)
    ⟨Column.minPresent latest departure, departure⟩
  else if index + 1 = count then ⟨latest, latest⟩
  else
    let departure := Column.minPresent (tmDeparture e) gtfsDeparture
    ⟨Column.minPresent latest departure, departure⟩

def estimates (events : List StopEvent) : List Times :=
  (events.zip (gtfsDepartures events)).zipIdx.map fun ((e, departure), index) =>
    (estimate events.length index e departure).complete

/-- No time is earlier than a time at a stop before it. -/
def settle (times : List Times) : List Times :=
  List.zipWith Times.raiseTo (Column.maxBefore (times.map (·.latest))) times

theorem settleLength (times : List Times) : (settle times).length = times.length := by
  simp [settle, Column.maxBefore, Column.maxBeforeFromLength]

def previousDepartures (times : List Times) : List (Option Instant) :=
  Column.forward (none :: times.map (·.departure)).dropLast

def seconds (start finish : Option Instant) : Option Int := do
  return (← finish).secondsSince (← start)

def ofTimes (previous : Option Instant) (t : Times) : Stay :=
  ⟨t.arrival, t.departure, seconds previous t.arrival, seconds t.arrival t.departure⟩

def ofEvents (events : List StopEvent) : List Stay :=
  let times := settle (estimates events)
  List.zipWith ofTimes (previousDepartures times) times

end TransitTimeline.Stay

namespace TransitTimeline.StopRecord

def reportedOf (e : StopEvent) (gtfsDeparture : Option Instant) : Reported where
  gtfsTravelTo := Stay.travelTo e
  gtfsArrival := Stay.gtfsArrival e
  gtfsDeparture
  latitude := e.gtfs.bind (·.latitude)
  longitude := e.gtfs.bind (·.longitude)
  tmScheduled := e.tm.bind (·.scheduled)
  tmArrival := Stay.tmArrival e
  tmDeparture := Stay.tmDeparture e

def factsOf (e : StopEvent) : TripFacts :=
  { e.row.facts with
    tripIdGtfs := e.tripIdGtfs
    routeId := e.row.facts.routeId.or (e.tm.map (·.routeId)) }

def ofEvent (isFullTrip : Bool) (e : StopEvent) (gtfsDeparture : Option Instant) (stay : Stay) : StopRecord where
  date := e.date
  vehicleLabel := e.vehicleLabel
  vehicleId := e.vehicleId
  row := { e.row with facts := factsOf e }
  reported := reportedOf e gtfsDeparture
  stay
  isFullTrip

def isFull (events : List StopEvent) : Bool :=
  events.any (·.row.place = .start) && events.any (·.row.place = .finish)

def ofJourney (events : List StopEvent) : List StopRecord :=
  (events.zip ((Stay.gtfsDepartures events).zip (Stay.ofEvents events))).map fun (e, departure, stay) =>
    ofEvent (isFull events) e departure stay

def ofEvents (events : List StopEvent) : List StopRecord :=
  (events.splitBy fun a b => a.row.tripId = b.row.tripId && a.vehicleLabel = b.vehicleLabel).flatMap ofJourney

end TransitTimeline.StopRecord
