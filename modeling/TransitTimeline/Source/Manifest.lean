import TransitTimeline.Files.Script
import TransitTimeline.Table.PartitionFile
import TransitTimeline.Calendar
import TransitTimeline.Text.Piece

/-! Where the tables of a service date are: static tables by name, crossings by the date's number, positions by
day. Service runs past midnight, so the positions of the next day belong to a date too. -/
namespace TransitTimeline

structure Manifest where
  gtfsDirectory : String
  tmDirectory : String
  extension : String
  crossingFiles : List String
  positionFiles : List String
  deriving DecidableEq, Repr

namespace Manifest

def endsWith (ending s : String) : Bool := ending.toList.isSuffixOf s.toList

def isTable (path : String) : Bool := endsWith ".csv" path || endsWith ".csv.gz" path

def fileName (path : String) : List Char := ((Text.pieces '/' path.toList).getLast?).getD []

def isOfDate (date : Day) (path : String) : Bool := (toString date.dispatchId).toList.isPrefixOf (fileName path)

def crossingDirectory : String := "tm/STOP_CROSSING"

def dayDirectory (d : Day) : String :=
  let c := d.civil
  "vehicle_positions/year=" ++ Day.yearText c.year ++ "/month=" ++ Text.padded 2 c.month ++ "/day=" ++
    Text.padded 2 c.day

def days (date : Day) : List Day := date :: date.next?.toList

def inOrder (paths : List String) : List String := paths.mergeSort fun a b => decide (a ≤ b)

def ofFound (date : Day) (isGzipped : Bool) (crossings positions : List String) : Manifest where
  gtfsDirectory := "gtfs"
  tmDirectory := "tm"
  extension := if isGzipped then ".csv.gz" else ".csv"
  crossingFiles := (inOrder (crossings.filter isTable)).filter (isOfDate date)
  positionFiles := PartitionFile.distinct (positions.filter isTable)

def listAll (root : Path) : List String → Script (List String)
  | [] => return []
  | directory :: rest => do
    let found ← Script.filesBelow (root.below (Path.ofText directory)) directory
    return found ++ (← listAll root rest)

/-- Finds the tables of a date below a root. The static tables are gzipped when the trips are. -/
def discover (root : Path) (date : Day) : Script Manifest := do
  let isGzipped ← Script.isThere (root.below ["gtfs", "trips.csv.gz"])
  let crossings ← listAll root [crossingDirectory]
  let positions ← listAll root ((days date).map dayDirectory)
  return ofFound date isGzipped crossings positions

def gtfsTable (m : Manifest) (name : String) : String := m.gtfsDirectory ++ "/" ++ name ++ m.extension

def tmTable (m : Manifest) (name : String) : String := m.tmDirectory ++ "/" ++ name ++ m.extension

end Manifest

end TransitTimeline
