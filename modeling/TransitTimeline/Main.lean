import TransitTimeline.CommandLine.Run

/-! The program on real files: it is the script of the command line, with each request answered by the system. -/
namespace TransitTimeline.OnDisk

def succeeds (action : IO Unit) : IO Bool := do
  try
    action
    return true
  catch _ => return false

def perform : FileStep → IO Unit
  | .makeAll p => unless p.isEmpty do IO.FS.createDirAll p.text
  | .removeAll p => IO.FS.removeDirAll p.text
  | .write p bytes => IO.FS.writeBinFile p.text ⟨bytes.toArray⟩
  | .rename source target => IO.FS.rename source.text target.text

def contents (p : Path) : IO (Option (List UInt8)) := do
  try return some (← IO.FS.readBinFile p.text).toList
  catch _ => return none

def isThere (p : Path) : IO Bool := do return ← ((← IO.currentDir) / p.text).pathExists

partial def filesBelow (directory shown : String) : IO (List String) := do
  let here := (← IO.currentDir) / directory
  if ← here.isDir then
    let found ← (← here.readDir).toList.mapM fun entry => do
      let name := shown ++ "/" ++ entry.fileName
      if ← entry.path.isDir then filesBelow (directory ++ "/" ++ entry.fileName) name else return [name]
    return found.flatten
  else return []

def pause (milliseconds : Nat) : IO Unit := IO.sleep (min milliseconds 4294967295).toUInt32

def run {α : Type} : Script α → IO α
  | .done a => return a
  | .ask p next => do run (next (← isThere p))
  | .read p next => do run (next (← contents p))
  | .list directory shown next => do run (next (← filesBelow directory.text shown))
  | .step s next => do run (next (← succeeds (perform s)))
  | .wait milliseconds next => do
    pause milliseconds
    run (next ())

def environment : IO Variables.Environment := do
  let names := CommandLine.variableNames (← run CommandLine.assignments)
  return (← names.mapM fun name => do return (← IO.getEnv name).map fun value => (name, value)).filterMap id

end TransitTimeline.OnDisk

def main (arguments : List String) : IO UInt32 := do
  TransitTimeline.OnDisk.run (TransitTimeline.CommandLine.run (← TransitTimeline.OnDisk.environment) arguments)
