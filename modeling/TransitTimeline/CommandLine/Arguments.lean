import TransitTimeline.Calendar

/-! The command line: `process` for one service date, `backfill` for a range of them. -/
namespace TransitTimeline.CommandLine

inductive Command where
  | process (date : Day) (input output : String)
  | backfill (start finish : Day) (input output : String) (concurrency : Option Int)
  deriving DecidableEq, Repr

structure Invocation where
  config : Option String
  command : Command
  deriving DecidableEq, Repr

inductive Reading (α : Type) where
  | read (value : α)
  | help
  | mistaken
  deriving DecidableEq, Repr

structure Flag where
  long : String
  short : Option Char
  accepts : String → Bool

abbrev Values := List (String × String)

namespace Flag

def config : Flag := ⟨"config", none, fun _ => true⟩

def date (long : String) : Flag := ⟨long, none, fun s => (Day.ofDashed? s).isSome⟩

def path (long : String) (short : Char) : Flag := ⟨long, some short, fun s => !s.isEmpty⟩

def concurrency : Flag := ⟨"concurrency", some 'c', fun s => (Text.integer? .unsigned64 s).isSome⟩

def paths : List Flag := [path "input-dir" 'i', path "output-dir" 'o']

def ofProcess : List Flag := config :: date "service-date" :: paths

def ofBackfill : List Flag := config :: date "start" :: date "end" :: paths ++ [concurrency]

def add (values : Values) (f : Flag) (value : String) : Option Values :=
  if (values.lookup f.long).isSome ∨ ¬f.accepts value then none else some ((f.long, value) :: values)

end Flag

inductive Token where
  | help
  | attached (f : Flag) (value : String)
  | awaiting (f : Flag)
  | word (s : String)
  | unknown

def splitEquals (cs : List Char) : List Char × Option (List Char) :=
  match cs.dropWhile (· ≠ '=') with
  | _ :: value => (cs.takeWhile (· ≠ '='), some value)
  | [] => (cs, none)

def longToken (flags : List Flag) (cs : List Char) : Token :=
  let (name, value) := splitEquals cs
  let name := String.ofList name
  match flags.find? (·.long = name), value with
  | some f, some value => .attached f (String.ofList value)
  | some f, none => .awaiting f
  | none, none => if name = "help" then .help else .unknown
  | none, some _ => .unknown

def shortToken (flags : List Flag) (c : Char) (rest : List Char) : Token :=
  if c = 'h' then .help else
  match flags.find? (·.short = some c), rest with
  | some f, [] => .awaiting f
  | some f, '=' :: value => .attached f (String.ofList value)
  | some f, value => .attached f (String.ofList value)
  | none, _ => .unknown

/-- Two dashes alone announce words only, and no command takes any. -/
def token (flags : List Flag) (argument : String) : Token :=
  match argument.toList with
  | ['-', '-'] => .word argument
  | '-' :: '-' :: long => longToken flags long
  | '-' :: c :: rest => shortToken flags c rest
  | _ => .word argument

def isValue (argument : String) : Bool :=
  match argument.toList with
  | '-' :: _ :: _ => false
  | _ => true

def readFlags (flags : List Flag) (values : Values) : List String → Reading (Values × List String)
  | [] => .read (values, [])
  | argument :: rest =>
    match token flags argument with
    | .help => .help
    | .unknown => .mistaken
    | .word _ => .read (values, argument :: rest)
    | .attached f value =>
      match f.add values value with
      | some values => readFlags flags values rest
      | none => .mistaken
    | .awaiting f =>
      match rest with
      | [] => .mistaken
      | value :: rest =>
        if isValue value then
          match f.add values value with
          | some values => readFlags flags values rest
          | none => .mistaken
        else .mistaken

def readAll (flags : List Flag) (arguments : List String) : Reading Values :=
  match readFlags flags [] arguments with
  | .read (values, []) => .read values
  | .read (values, ["--"]) => .read values
  | .read _ => .mistaken
  | .help => .help
  | .mistaken => .mistaken

def dateOf (values : Values) (name : String) : Option Day := (values.lookup name).bind Day.ofDashed?

def pathOf (values : Values) (name fallback : String) : String := (values.lookup name).getD fallback

def processOf (values : Values) : Option Command := do
  return .process (← dateOf values "service-date") (pathOf values "input-dir" "data")
    (pathOf values "output-dir" "output")

def backfillOf (values : Values) : Option Command := do
  return .backfill (← dateOf values "start") (← dateOf values "end") (pathOf values "input-dir" "data")
    (pathOf values "output-dir" "output") ((values.lookup "concurrency").bind (Text.integer? .unsigned64))

/-- The settings file named behind the command counts before the one named in front of it. -/
def readCommand (outer : Values) (flags : List Flag) (commandOf : Values → Option Command)
    (arguments : List String) : Reading Invocation :=
  match readAll flags arguments with
  | .help => .help
  | .mistaken => .mistaken
  | .read values =>
    match commandOf values with
    | some command => .read ⟨(values.lookup "config").or (outer.lookup "config"), command⟩
    | none => .mistaken

def readHelp (arguments : List String) : Reading Invocation :=
  match arguments with
  | [] => .help
  | [name] => if ["process", "backfill", "help"].contains name then .help else .mistaken
  | _ => .mistaken

def read (arguments : List String) : Reading Invocation :=
  match readFlags [Flag.config] [] arguments with
  | .help => .help
  | .mistaken => .mistaken
  | .read (outer, "process" :: rest) => readCommand outer Flag.ofProcess processOf rest
  | .read (outer, "backfill" :: rest) => readCommand outer Flag.ofBackfill backfillOf rest
  | .read (_, "help" :: rest) => readHelp rest
  | .read _ => .mistaken

end TransitTimeline.CommandLine
