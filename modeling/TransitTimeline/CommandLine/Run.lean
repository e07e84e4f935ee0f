import TransitTimeline.CommandLine.Arguments
import TransitTimeline.CommandLine.Log
import TransitTimeline.CommandLine.Variables
import TransitTimeline.Publication.Publish
import TransitTimeline.ServiceDate.Load
import TransitTimeline.Settings

/-! The program as a script: settings are read, dates are worked out and published, and an exit code says how it
went. -/
namespace TransitTimeline.CommandLine
open Variables (Environment)

structure Surroundings where
  zones : String → Option Zone := Zone.named?
  turns : Day → ServiceDate.Turns := fun _ => {}

variable (around : Surroundings)

def publishDate (s : Settings) (input output : String) (date : Day) : Script (Except Failure String) := do
  let manifest ← Manifest.discover (Path.ofText input) date
  let asked := Source.asked.retrying (.ofSettings s.readAttempts.toNat s.readBackoff.toNat) Reads.pause
  let work := ServiceDate.runIn around.zones (around.turns date) asked manifest date s.timezone s.matchTolerance
  match ← work.run.through (Source.ofFiles (Path.ofText input)) Script.pause with
  | .error failure => return .error failure
  | .ok report =>
    if ← Script.perform (.makeAll (Path.ofText output)) then Publication.publishReport output report
    else return .error (.unpublished output)

/-- Time out of range stops the program where one date is asked for. -/
def exitCode : Except Failure String → UInt32
  | .ok _ => 0
  | .error .outOfRange => 101
  | .error _ => 1

/-- The days of a range. The calendar's last day has no successor and is not reached. -/
def daysBetween (start finish : Day) : List Day :=
  ((List.range (finish.number - start.number + 1).toNat).map fun (n : Nat) => Day.mk (start.number + n)).filter
    fun d => d.next?.isSome

def publishDates (s : Settings) (input output : String) : List Day → Script (List (Except Failure String))
  | [] => return []
  | date :: rest => do
    let result ← publishDate around s input output date
    return result :: (← publishDates s input output rest)

/-- No more dates than this can be worked on at once. -/
def mostAtOnce : Int := 2305843009213693951

def backfill (s : Settings) (input output : String) (start finish : Day) : Script UInt32 := do
  if finish < start then return 1
  else if mostAtOnce < s.concurrency then return 101
  else
    let results ← publishDates around s input output (daysBetween start finish)
    return if results.all (·.isOk) then 0 else 1

def perform (s : Settings) : Command → Script UInt32
  | .process date input output => return exitCode (← publishDate around s input output date)
  | .backfill start finish input output concurrency =>
    backfill around { s with concurrency := concurrency.getD s.concurrency } input output start finish

def settingsOf (e : Environment) (config : Option String) : Script (Except Failure Settings) := do
  let valueOf (name : String) := e.lookup name
  match config with
  | none => return Settings.ofEnvironmentIn around.zones valueOf
  | some path => return Settings.ofFileIn around.zones path (← Script.contents (Path.ofText path)) valueOf

def variablesFile : Path := [".env"]

def assignments : Script (List Variables.Assignment) := do
  return ((← Script.contents variablesFile).map Variables.ofFile).getD []

/-- The number of threads to work with. The file of variables cannot set it any more. -/
def threadsVariable : String := "TOKIO_WORKER_THREADS"

def mostThreads : Int := 1152921504606846975

def mayBegin (e : Environment) : Bool :=
  match e.lookup threadsVariable with
  | none => true
  | some asked =>
    match Text.integer? .unsigned64 asked with
    | some n => 0 < n && n ≤ mostThreads
    | none => false

def variableNames (assignments : List Variables.Assignment) : List String :=
  threadsVariable :: LogPlace.variableName :: Setting.all.map (·.variableName) ++ Variables.names assignments

def follow (e : Environment) (arguments : List String) : Script UInt32 := do
  match read arguments with
  | .help => return 0
  | .mistaken => return 2
  | .read invocation =>
    match ← settingsOf around e invocation.config with
    | .error _ => return 1
    | .ok s => perform around s invocation.command

def runIn (e : Environment) (arguments : List String) : Script UInt32 := do
  if ¬mayBegin e then return 101
  match Variables.apply e (← assignments) with
  | none => return 101
  | some e => if ← (LogPlace.ofEnvironment e).prepare then follow around e arguments else return 101

def run : Environment → List String → Script UInt32 := runIn {}

end TransitTimeline.CommandLine
