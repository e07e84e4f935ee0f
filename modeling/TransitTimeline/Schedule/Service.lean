import TransitTimeline.Order
import TransitTimeline.Table.Gtfs

/-! The services that run on a date, and the routes that buses run on. -/
namespace TransitTimeline.Gtfs
open Std

def busType : Int := 3

def busRoutes (routes : List Route) : TreeSet String :=
  (routes.filter (·.routeType = busType)).foldl (fun ids r => ids.insert r.routeId) {}

def Week.flag (w : Week) : Day.Weekday → Int
  | .monday => w.monday
  | .tuesday => w.tuesday
  | .wednesday => w.wednesday
  | .thursday => w.thursday
  | .friday => w.friday
  | .saturday => w.saturday
  | .sunday => w.sunday

/-- The date is inside the week's range and its weekday is flagged. Without two readable dates there is no
range. -/
def Week.runsOn (w : Week) (date : Day) : Bool :=
  match Day.ofCompact? w.start, Day.ofCompact? w.finish with
  | some start, some finish => start ≤ date && date ≤ finish && w.flag date.weekday = 1
  | _, _ => false

/-- An exception of the date adds or removes its service; any other one is without effect. -/
def Exception.apply (date : Day) (active : TreeSet String) (e : Exception) : TreeSet String :=
  if Day.ofCompact? e.date ≠ some date then active
  else if e.kind = 1 then active.insert e.serviceId
  else if e.kind = 2 then active.erase e.serviceId
  else active

def weeklyServices (date : Day) (weeks : List Week) : TreeSet String :=
  (weeks.filter (·.runsOn date)).foldl (fun ids w => ids.insert w.serviceId) {}

def activeServices (date : Day) (weeks : List Week) (exceptions : List Exception) : TreeSet String :=
  exceptions.foldl (Exception.apply date) (weeklyServices date weeks)

end TransitTimeline.Gtfs
