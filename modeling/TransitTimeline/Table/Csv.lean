/-! Comma separated records, over any alphabet that has the four marks. A quote opens a quoted field only at
the field's start and stands for itself elsewhere; inside quotes it is written twice. -/
namespace TransitTimeline.Csv
variable {β : Type}

inductive Mark where
  | comma
  | quote
  | lineFeed
  | carriageReturn
  deriving DecidableEq, Repr

def charMark? : Char → Option Mark
  | ',' => some .comma
  | '"' => some .quote
  | '\n' => some .lineFeed
  | '\r' => some .carriageReturn
  | _ => none

def byteMark? (b : UInt8) : Option Mark :=
  if b = 44 then some .comma
  else if b = 34 then some .quote
  else if b = 10 then some .lineFeed
  else if b = 13 then some .carriageReturn
  else none

/-- Where reading stands: at a record's or a field's first character, inside a plain or a quoted field, or
behind a quote that ends the field unless a second one follows. -/
inductive Position where
  | recordStart
  | fieldStart
  | plain
  | quoted
  | quoteSeen
  deriving DecidableEq, Repr

/-- Reads on with the current field and the earlier fields of the record, both in reverse. An empty line is
no record, and the end of the text closes whatever is open. -/
def scan (mark? : β → Option Mark) (position : Position) (field : List β) (fields : List (List β)) :
    List β → List (List (List β))
  | [] => if position = .recordStart then [] else [(field.reverse :: fields).reverse]
  | c :: rest =>
    match position, mark? c with
    | .quoted, some .quote => scan mark? .quoteSeen field fields rest
    | .quoted, _ => scan mark? .quoted (c :: field) fields rest
    | .quoteSeen, some .quote => scan mark? .quoted (c :: field) fields rest
    | .recordStart, some .lineFeed => scan mark? .recordStart [] [] rest
    | .recordStart, some .carriageReturn => scan mark? .recordStart [] [] rest
    | .recordStart, some .quote => scan mark? .quoted [] [] rest
    | .fieldStart, some .quote => scan mark? .quoted [] fields rest
    | _, some .comma => scan mark? .fieldStart [] (field.reverse :: fields) rest
    | _, some .lineFeed => (field.reverse :: fields).reverse :: scan mark? .recordStart [] [] rest
    | _, some .carriageReturn => (field.reverse :: fields).reverse :: scan mark? .recordStart [] [] rest
    | _, _ => scan mark? .plain (c :: field) fields rest

def records (mark? : β → Option Mark) (text : List β) : List (List (List β)) :=
  scan mark? .recordStart [] [] text

def needsQuotes (field : List Char) : Bool := field.any fun c => (charMark? c).isSome

def doubled (field : List Char) : List Char := field.flatMap fun c => if c = '"' then ['"', '"'] else [c]

def written (field : List Char) : List Char :=
  if needsQuotes field then '"' :: doubled field ++ ['"'] else field

def line (fields : List String) : List Char :=
  [','].intercalate (fields.map fun field => written field.toList) ++ ['\n']

end TransitTimeline.Csv
