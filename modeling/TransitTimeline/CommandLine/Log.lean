import TransitTimeline.Calendar
import TransitTimeline.CommandLine.Variables
import TransitTimeline.Files.Script

/-! Where a run keeps its log: one file a day, below a directory that is made if it is not there. -/
namespace TransitTimeline.CommandLine

structure LogPlace where
  directory : Path
  name : String
  deriving DecidableEq, Repr

namespace LogPlace

def variableName : String := "LOG_FILE_PATH"

def usual : LogPlace := ⟨["logs"], "bus_performance.log"⟩

def isStill (piece : String) : Bool := piece = "" || piece = "."

def ofText (s : String) : LogPlace :=
  let pieces := Path.ofText s
  let place (above : Path) (name : String) : LogPlace := ⟨(above.dropWhile isStill).reverse, name⟩
  match pieces.reverse.dropWhile isStill with
  | [] => if pieces.head? = some "." then ⟨[], usual.name⟩ else usual
  | ".." :: above => place above usual.name
  | name :: above => place above name

def ofEnvironment (e : Variables.Environment) : LogPlace := ((e.lookup variableName).map ofText).getD usual

def fileName (place : LogPlace) (day : Day) : String := place.name ++ "." ++ day.text

/-- All days of years with four digits have names of one length. -/
def mayHold (place : LogPlace) : Bool :=
  let name := place.fileName ⟨0⟩
  Path.mayName name && (place.directory.child name).isUsable

def prepare (place : LogPlace) : Script Bool := do
  if ← Script.perform (.makeAll place.directory) then return place.mayHold else return false

end LogPlace

end TransitTimeline.CommandLine
