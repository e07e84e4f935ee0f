import TransitTimeline.Table.Csv
import TransitTimeline.Table.Field
import TransitTimeline.Text.Blank

/-! Rows of a table file. Columns are found by the names in the first record, or by their places where the
names are no text. -/
namespace TransitTimeline.Table
variable {ρ : Type}

def fieldText? (bytes : List UInt8) : Option String :=
  (String.fromUTF8? ⟨bytes.toArray⟩).map Text.trim

def recordText? (record : List (List UInt8)) : Option (List String) := record.mapM fieldText?

def column? (names record : List String) (name : String) : Option (Option String) :=
  match (names.zip record).filter (·.1 = name) with
  | [] => some none
  | [(_, text)] => some (some text)
  | _ => none

def putText (row : ρ) (field : Field ρ) (text : String) : Option ρ := do
  if text.isEmpty ∧ ¬field.required then some row
  else field.put (← field.kind.read? text) row

def readField (names record : List String) (row : ρ) (field : Field ρ) : Option ρ := do
  match ← column? names record field.name with
  | none => if field.required then none else some row
  | some text => putText row field text

def readPlaces (fields : List (Field ρ)) (blank : ρ) (record : List String) : Option ρ :=
  if record.length < fields.length then none
  else (fields.zip record).foldlM (fun row (field, text) => putText row field text) blank

def readRow (fields : List (Field ρ)) (blank : ρ) : Option (List String) → List String → Option ρ
  | some names, record => fields.foldlM (readField names record) blank
  | none, record => readPlaces fields blank record

/-- Every record has as many texts as the first one. Names that are not UTF-8 are not known. -/
def readRows (fields : List (Field ρ)) (blank : ρ) : List (List (List UInt8)) → Option (List ρ)
  | [] => some []
  | header :: rest =>
    let names? := recordText? header
    rest.mapM fun record =>
      if record.length ≠ header.length then none
      else do readRow fields blank names? (← recordText? record)

def dropMark : List UInt8 → List UInt8
  | 0xEF :: 0xBB :: 0xBF :: rest => rest
  | bytes => bytes

def rows? (fields : List (Field ρ)) (blank : ρ) (bytes : List UInt8) : Option (List ρ) :=
  readRows fields blank (Csv.records Csv.byteMark? (dropMark bytes))

end TransitTimeline.Table
