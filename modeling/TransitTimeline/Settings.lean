import TransitTimeline.Failure
import TransitTimeline.Json.Reader
import TransitTimeline.Text.Blank
import TransitTimeline.Zone.Known

/-! Settings: defaults, overridden by a file, overridden by environment variables. -/
namespace TransitTimeline

structure Settings where
  timezone : String := "America/New_York"
  /-- Attempts at each read, the first one included. -/
  readAttempts : Int := 3
  readBackoff : Int := 250
  /-- Seconds by which a planned departure may lie outside a pullout's own. -/
  matchTolerance : Int := 1800
  concurrency : Int := 4
  deriving DecidableEq, Repr, Inhabited

structure Setting where
  name : String
  variableName : String
  ofJson? : Json → Settings → Option Settings
  ofText? : String → Settings → Option Settings

namespace Setting

def integer (name variableName : String) (bounds : Text.Bounds) (put : Settings → Int → Settings) : Setting where
  name
  variableName
  ofJson? := fun v s => (v.integer?.bind bounds.fit?).map (put s)
  ofText? := fun v s => (Text.integerIn 10 bounds (Text.trimChars v.toList)).map (put s)

/-- In the order of a file that lists the values without names. -/
def all : List Setting :=
  [⟨"timezone", "BUS_PERF_TIMEZONE", fun v s => v.text?.map fun name => { s with timezone := name },
     fun v s => some { s with timezone := v }⟩,
   integer "read_attempts" "BUS_PERF_READ_ATTEMPTS" .unsigned32 (fun s n => { s with readAttempts := n }),
   integer "read_backoff_ms" "BUS_PERF_READ_BACKOFF_MS" .unsigned64 (fun s n => { s with readBackoff := n }),
   integer "match_tolerance_secs" "BUS_PERF_MATCH_TOLERANCE_SECS" .signed64
     (fun s n => { s with matchTolerance := n }),
   integer "concurrency" "BUS_PERF_CONCURRENCY" .unsigned64 (fun s n => { s with concurrency := n })]

end Setting

namespace Settings

def ofMember? (members : List (String × Json)) (s : Settings) (setting : Setting) : Option Settings :=
  match members.filter (·.1 = setting.name) with
  | [] => some s
  | [(_, value)] => setting.ofJson? value s
  | _ => none

def ofJson? : Json → Option Settings
  | .object members => Setting.all.foldlM (ofMember? members) {}
  | .array items =>
    if Setting.all.length < items.length then none
    else (Setting.all.zip items).foldlM (fun s (setting, value) => setting.ofJson? value s) {}
  | _ => none

def override (environment : String → Option String) (s : Settings) (setting : Setting) : Except Failure Settings :=
  match environment setting.variableName with
  | none => .ok s
  | some value =>
    match setting.ofText? value s with
    | some s => .ok s
    | none => .error (.invalidValue setting.variableName value)

section Zones
variable (zones : String → Option Zone)

def withEnvironment (environment : String → Option String) (s : Settings) : Except Failure Settings := do
  let s ← Setting.all.foldlM (override environment) s
  if (zones s.timezone).isSome then return s else throw (.unknownZone s.timezone)

def ofFileIn (path : String) (content : Option (List UInt8)) (environment : String → Option String) :
    Except Failure Settings := do
  match content.bind fun bytes => String.fromUTF8? ⟨bytes.toArray⟩ with
  | none => throw (.settingsUnread path)
  | some text =>
    match (Json.ofText? text).bind ofJson? with
    | none => throw (.settingsMalformed path)
    | some s => s.withEnvironment zones environment

def ofEnvironmentIn (environment : String → Option String) : Except Failure Settings :=
  ({} : Settings).withEnvironment zones environment

end Zones

def ofFile : String → Option (List UInt8) → (String → Option String) → Except Failure Settings := ofFileIn Zone.named?

def ofEnvironment : (String → Option String) → Except Failure Settings := ofEnvironmentIn Zone.named?

end Settings

end TransitTimeline
