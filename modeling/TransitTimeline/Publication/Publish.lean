import TransitTimeline.Failure
import TransitTimeline.Files.Script
import TransitTimeline.Report.Text

/-! Publishing a service date. Its files are written to a staging directory and renamed into place together; an
earlier publication is set aside until then. -/
namespace TransitTimeline.Publication

structure Place where
  target : Path
  staging : Path
  aside : Path
  deriving DecidableEq, Repr

def targetName (date : Day) : String := "service_date=" ++ date.text

def Place.of (directory : Path) (date : Day) : Place :=
  ⟨directory.child (targetName date), directory.child ("." ++ targetName date ++ ".tmp"),
    directory.child ("." ++ targetName date ++ ".old")⟩

def andThen (s : FileStep) (rest : Script Bool) : Script Bool := do
  if ← Script.perform s then rest else return false

def writeFiles (directory : Path) : List (String × String) → Script Bool
  | [] => return true
  | (name, text) :: rest => andThen (.write (directory.child name) text.toUTF8.toList) (writeFiles directory rest)

def stage (staging : Path) (files : List (String × String)) : Script Bool := do
  let fill := andThen (.makeAll staging) (writeFiles staging files)
  if ← Script.isThere staging then andThen (.removeAll staging) fill else fill

/-- A publication left aside by an interrupted run goes back to the target; beside a target it is removed. -/
def recover (p : Place) : Script Bool := do
  if ← Script.isThere p.aside then
    if ← Script.isThere p.target then Script.perform (.removeAll p.aside)
    else Script.perform (.rename p.aside p.target)
  else return true

/-- Sets the target aside, puts the staging directory in its place, and drops what was set aside. Where the
staging directory cannot be put in place the target comes back. -/
def replace (p : Place) : Script Bool :=
  andThen (.rename p.target p.aside) do
    if ← Script.perform (.rename p.staging p.target) then
      let _ ← Script.perform (.removeAll p.aside)
      return true
    else
      let _ ← Script.perform (.rename p.aside p.target)
      return false

def putInPlace (p : Place) : Script Bool := do
  if ← recover p then
    if ← Script.isThere p.target then replace p
    else Script.perform (.rename p.staging p.target)
  else return false

def publish (p : Place) (files : List (String × String)) : Script Bool := do
  let published ← do
    if ← stage p.staging files then putInPlace p else pure false
  if published then return true
  else
    let _ ← Script.perform (.removeAll p.staging)
    return false

def targetText (directory : String) (date : Day) : String := ((Path.ofText directory).child (targetName date)).text

def publishReport (directory : String) (r : Report) : Script (Except Failure String) := do
  let date := r.summary.date
  let target := targetText directory date
  if ← publish (.of (Path.ofText directory) date) r.files then return .ok target
  else return .error (.unpublished target)

end TransitTimeline.Publication
