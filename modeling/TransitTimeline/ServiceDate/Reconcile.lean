import TransitTimeline.Observation.Gtfs
import TransitTimeline.Observation.Tm
import TransitTimeline.Record.Headway
import TransitTimeline.Report.Text
import TransitTimeline.Schedule.Planned
import TransitTimeline.Schedule.Pullout
import TransitTimeline.Zone.Known

/-! A whole service date: both schedules merged, both feeds gathered, joined, timed and checked. -/
namespace TransitTimeline

structure Inputs where
  gtfs : Gtfs.Tables := {}
  tm : Tm.Tables := {}
  crossings : List Crossing := []
  pings : List Ping := []
  deriving DecidableEq, Repr, Inhabited

namespace ServiceDate

def zoneIn (zones : String → Option Zone) (name : String) : Except Failure Zone :=
  match zones name with
  | some z => .ok z
  | none => .error (.unknownZone name)

structure Schedule where
  merged : Skeleton.Merged
  offsets : PlannedStop.Offsets

def schedule (date : Day) (z : Zone) (i : Inputs) (tolerance : Int) : Except Failure Schedule := do
  let planned ← PlannedStop.ofTables date z i.gtfs
  let continued := PlannedStop.continueTrips planned
  let stops ← PulloutStop.ofTables date z i.tm
  let merged ← Skeleton.ofSchedules continued.rows stops tolerance
  return ⟨merged, continued.index⟩

def gtfsObservations (date : Day) (i : Inputs) (offsets : PlannedStop.Offsets) : List GtfsObservation :=
  (GtfsObservation.ofPings date (Gtfs.busRoutes i.gtfs.routes) i.pings).map (GtfsObservation.continued offsets)

def report (date : Day) (merged : Skeleton.Merged) (joined : Journey.Joined) : Report :=
  let outcome := Validation.run (StopRecord.derive joined.events)
  ⟨outcome.valid, outcome.rejected, .ofOutcome date merged joined outcome⟩

/-- The tolerance is in seconds. -/
def reconcileIn (zones : String → Option Zone) (date : Day) (i : Inputs) (zoneName : String) (tolerance : Int) :
    Except Failure Report := do
  let z ← zoneIn zones zoneName
  let s ← schedule date z i tolerance
  let tm ← TmObservation.ofCrossings date z i.tm i.crossings
  return report date s.merged (Journey.join date s.merged.rows (gtfsObservations date i s.offsets) tm)

def reconcile : Day → Inputs → String → Int → Except Failure Report := reconcileIn Zone.named?

end ServiceDate

end TransitTimeline
