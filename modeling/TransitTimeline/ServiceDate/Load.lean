import TransitTimeline.ServiceDate.Reconcile
import TransitTimeline.Source.Manifest
import TransitTimeline.Source.Reads
import TransitTimeline.Table.File

/-! The tables of a service date in four groups, which are read at once: the static tables of either feed, the crossings, the
positions. In a group one table is read after the other. -/
namespace TransitTimeline

namespace Reads
variable {ρ : Type} [Inhabited ρ]

def table (fields : List (Field ρ)) (location : String) : ExceptT Failure Reads (List ρ) :=
  ExceptT.mk (.read location fun
    | .ok bytes => .done (Table.ofFile fields default location bytes)
    | .error _ => .done (.error (.unreadable location)))

def tables (fields : List (Field ρ)) : List String → ExceptT Failure Reads (List ρ)
  | [] => return []
  | location :: rest => do
    let rows ← table fields location
    return rows ++ (← tables fields rest)

end Reads

namespace ServiceDate
open Reads (table tables beside)

def loadGtfs (f : Manifest) : ExceptT Failure Reads Gtfs.Tables := do
  return {
    trips := ← table Gtfs.Trip.fields (f.gtfsTable "trips")
    stopTimes := ← table Gtfs.StopTime.fields (f.gtfsTable "stop_times")
    routes := ← table Gtfs.Route.fields (f.gtfsTable "routes")
    directions := ← table Gtfs.Direction.fields (f.gtfsTable "directions")
    patterns := ← table Gtfs.RoutePattern.fields (f.gtfsTable "route_patterns")
    stops := ← table Gtfs.Stop.fields (f.gtfsTable "stops")
    weeks := ← table Gtfs.Week.fields (f.gtfsTable "calendar")
    exceptions := ← table Gtfs.Exception.fields (f.gtfsTable "calendar_dates") }

def loadTm (f : Manifest) : ExceptT Failure Reads Tm.Tables := do
  return {
    nodes := ← table Tm.GeoNode.fields (f.tmTable "GEO_NODE")
    routes := ← table Tm.Route.fields (f.tmTable "ROUTE")
    trips := ← table Tm.Trip.fields (f.tmTable "TRIP")
    vehicles := ← table Tm.Vehicle.fields (f.tmTable "VEHICLE")
    patternNodes := ← table Tm.PatternNode.fields (f.tmTable "PATTERN_GEO_NODE_XREF")
    timePoints := ← table Tm.TimePoint.fields (f.tmTable "TIME_POINT")
    workPieces := ← table Tm.WorkPiece.fields (f.tmTable "DAILY_WORK_PIECE")
    passings := ← table Tm.Passing.fields (f.tmTable "DAILY_SCHEDULE_STOP") }

def loadCrossings (f : Manifest) : ExceptT Failure Reads (List Crossing) := tables Crossing.fields f.crossingFiles

def loadPings (f : Manifest) : ExceptT Failure Reads (List Ping) :=
  tables Ping.fields (PartitionFile.distinct f.positionFiles)

/-- Whether the GTFS tables come next or another group, then whether the TransitMaster tables do, then the crossings. -/
structure Turns where
  gtfs : List Bool := []
  tm : List Bool := []
  crossings : List Bool := []

def readGroup {α : Type} (source : Source Reads) (group : ExceptT Failure Reads α) : Reads (Except Failure α) :=
  group.run.through source Reads.pause

def readGroups (turns : Turns) (source : Source Reads) (f : Manifest) :
    Reads (Except Failure (Gtfs.Tables × Tm.Tables × List Crossing × List Ping)) :=
  beside turns.gtfs (readGroup source (loadGtfs f)) <|
    beside turns.tm (readGroup source (loadTm f)) <|
      beside turns.crossings (readGroup source (loadCrossings f)) (readGroup source (loadPings f))

def load (turns : Turns) (source : Source Reads) (f : Manifest) : ExceptT Failure Reads Inputs := do
  let (gtfs, tm, crossings, pings) ← ExceptT.mk (readGroups turns source f)
  return { gtfs, tm, crossings, pings }

def runIn (zones : String → Option Zone) (turns : Turns) (source : Source Reads) (f : Manifest) (date : Day)
    (zoneName : String) (tolerance : Int) : ExceptT Failure Reads Report := do
  let inputs ← load turns source f
  ExceptT.mk (pure (reconcileIn zones date inputs zoneName tolerance))

def run {m : Type → Type} [Monad m] (source : Source m) (f : Manifest) (date : Day) (zoneName : String) (tolerance : Int) :
    ExceptT Failure m Report :=
  ExceptT.mk ((runIn Zone.named? {} Source.asked f date zoneName tolerance).run.through source fun _ => pure ())

end ServiceDate

def Source.ofFiles (root : Path) : Source Script := fun location => do
  match ← Script.contents (root.below (Path.ofText location)) with
  | some bytes => return .ok bytes
  | none => return .error ⟨.notFound, "no such file"⟩

end TransitTimeline
