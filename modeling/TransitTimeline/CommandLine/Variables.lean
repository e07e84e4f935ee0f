import TransitTimeline.Text.Alphanumeric
import TransitTimeline.Text.Blank

/-! Files of environment variables: lines `NAME=value` with comments, quotes and references to variables. A bad
line ends the file. -/
namespace TransitTimeline.Variables

inductive Piece where
  | char (c : Char)
  | reference (name : List Char)
  deriving DecidableEq, Repr

structure Assignment where
  name : String
  value : List Piece
  deriving DecidableEq, Repr

inductive Quoting where
  | plain
  | escaped
  | strong
  | strongEscaped
  | weak
  | weakEscaped
  | blank
  deriving DecidableEq, Repr

def Quoting.after : Quoting → Char → Option Quoting
  | plain, c =>
    if Text.isBlank c ∧ c ≠ '\n' ∧ c ≠ '\r' then some blank
    else if c = '\\' then some escaped
    else if c = '"' then some weak
    else if c = '\'' then some strong
    else some plain
  | blank, c =>
    if c = '#' then none
    else if c = '\\' then some escaped
    else if c = '"' then some weak
    else if c = '\'' then some strong
    else some plain
  | escaped, _ => some plain
  | weak, c => some (if c = '\\' then weakEscaped else if c = '"' then plain else weak)
  | weakEscaped, _ => some weak
  | strong, c => some (if c = '\\' then strongEscaped else if c = '\'' then plain else strong)
  | strongEscaped, _ => some strong

def scan (q : Quoting) : List Char → List Char × Option Quoting
  | [] => ([], some q)
  | c :: rest =>
    match q.after c with
    | none => ([], none)
    | some q => let (before, last) := scan q rest; (c :: before, last)

def dropLineEnd (cs : List Char) : List Char :=
  match cs.reverse with
  | '\n' :: '\r' :: rest => rest.reverse
  | '\n' :: rest => rest.reverse
  | _ => cs

/-- Lines of assignments from the lines of the file; none stands for one that cannot be read. What is read of
an assignment is kept in reverse. -/
def joinLines (q : Quoting) (before : List Char) : List (Option (List Char)) → List (Option (List Char))
  | [] => if q = .plain then [] else [none]
  | none :: _ => [none]
  | some line :: rest =>
    if before.isEmpty ∧ (Text.trimStart line).head? = some '#' then some [] :: joinLines .plain [] rest
    else match scan q line with
      | (uncommented, none) => some (before.reverse ++ uncommented) :: joinLines .plain [] rest
      | (_, some .plain) => some (dropLineEnd (before.reverse ++ line)) :: joinLines .plain [] rest
      | (_, some q) => joinLines q (line.reverse ++ before) rest

def cut : List UInt8 → List (List UInt8)
  | [] => []
  | b :: rest =>
    if b = 10 then [b] :: cut rest
    else match cut rest with
      | [] => [[b]]
      | line :: others => (b :: line) :: others

def decode (line : List UInt8) : Option (List Char) := (String.fromUTF8? ⟨line.toArray⟩).map String.toList

def isNameStart (c : Char) : Bool := c.isAlpha || c = '_'
def isNamePart (c : Char) : Bool := c.isAlphanum || c = '_' || c = '.'

def readName (cs : List Char) : Option (List Char × List Char) :=
  if (cs.head?.map isNameStart).getD false then some (cs.takeWhile isNamePart, cs.dropWhile isNamePart) else none

inductive Position where
  | plain
  | escaped (quoted : Bool)
  | strong
  | weak
  | behind
  | reference (braced quoted : Bool) (name : List Char)
  deriving DecidableEq, Repr

def outside (quoted : Bool) : Position := if quoted then .weak else .plain

def readValue : Position → List Char → Option (List Piece)
  | .plain, [] => some []
  | .behind, [] => some []
  | .escaped quoted, [] => if quoted then none else some []
  | .reference braced quoted name, [] => if braced ∨ quoted then none else some [.reference name.reverse]
  | .strong, [] => none
  | .weak, [] => none
  | .behind, c :: rest =>
    if c = ' ' ∨ c = '\t' then readValue .behind rest else if c = '#' then some [] else none
  | .escaped quoted, c :: rest =>
    if c = '\\' ∨ c = '\'' ∨ c = '"' ∨ c = '$' ∨ c = ' ' then (readValue (outside quoted) rest).map (.char c :: ·)
    else if c = 'n' then (readValue (outside quoted) rest).map (.char '\n' :: ·)
    else none
  | .strong, c :: rest =>
    if c = '\'' then readValue .plain rest else (readValue .strong rest).map (.char c :: ·)
  | .reference braced quoted name, c :: rest =>
    if Text.isAlphanumeric c then readValue (.reference braced quoted (c :: name)) rest
    else if braced then
      if c = '\x7d' then (readValue (outside quoted) rest).map (.reference name.reverse :: ·)
      else readValue (.reference braced quoted (c :: name)) rest
    else if c = '\x7b' ∧ name.isEmpty then readValue (.reference true quoted name) rest
    else if c = '$' then (readValue (.reference false quoted []) rest).map (.reference name.reverse :: ·)
    else (readValue (outside quoted) rest).map fun pieces => .reference name.reverse :: .char c :: pieces
  | .weak, c :: rest =>
    if c = '$' then readValue (.reference false true []) rest
    else if c = '"' then readValue .plain rest
    else if c = '\\' then readValue (.escaped true) rest
    else (readValue .weak rest).map (.char c :: ·)
  | .plain, c :: rest =>
    if c = '$' then readValue (.reference false false []) rest
    else if c = '\'' then readValue .strong rest
    else if c = '"' then readValue .weak rest
    else if c = '\\' then readValue (.escaped false) rest
    else if c = ' ' ∨ c = '\t' then readValue .behind rest
    else (readValue .plain rest).map (.char c :: ·)

def readEquals (cs : List Char) : Option (List Char) :=
  match cs with
  | '=' :: rest => some rest
  | _ => none

def readTarget (cs : List Char) : Option (List Char × List Char) := do
  let (name, rest) ← readName cs
  let rest := Text.trimStart rest
  match readEquals rest with
  | some rest => some (name, rest)
  | none =>
    if name ≠ "export".toList then none else
    let (name, rest) ← readName rest
    some (name, ← readEquals (Text.trimStart rest))

def readLine (line : List Char) : Option (Option Assignment) :=
  let cs := Text.trimStart (Text.trimChars line)
  if cs.isEmpty ∨ cs.head? = some '#' then some none else do
  let (name, rest) ← readTarget cs
  let rest := Text.trimStart rest
  let value ← if rest.isEmpty ∨ rest.head? = some '#' then some [] else readValue .plain rest
  some (some ⟨String.ofList name, value⟩)

def untilBad : List (Option (List Char)) → List Assignment
  | [] => []
  | none :: _ => []
  | some line :: rest =>
    match readLine line with
    | none => []
    | some none => untilBad rest
    | some (some a) => a :: untilBad rest

def dropMark : List UInt8 → List UInt8
  | 0xEF :: 0xBB :: 0xBF :: rest => rest
  | bytes => bytes

def ofFile (bytes : List UInt8) : List Assignment :=
  untilBad (joinLines .plain [] ((cut (dropMark bytes)).map decode))

def ownName (reference : List Char) : String := String.ofList (reference.takeWhile (· ≠ '='))

def names (assignments : List Assignment) : List String :=
  assignments.flatMap fun a => a.name :: a.value.filterMap fun
    | .reference name => some (ownName name)
    | .char _ => none

abbrev Environment := List (String × String)

/-- What a reference stands for. A variable is kept as its name, an equals sign and its value, and a reference goes
up to an equals sign there: one with an equals sign of its own reaches into the value. -/
def find (e : Environment) (reference : List Char) : Option String := do
  let value ← e.lookup (ownName reference)
  match reference.dropWhile (· ≠ '=') with
  | [] => some value
  | _ :: rest =>
    let start := rest ++ ['=']
    if start.isPrefixOf value.toList then some (String.ofList (value.toList.drop start.length)) else none

def valueOf (e : Environment) (pieces : List Piece) : String :=
  String.join (pieces.map fun
    | .char c => c.toString
    | .reference name => (find e name).getD "")

def terminator : Char := '\x00'

def apply (e : Environment) (assignments : List Assignment) : Option Environment :=
  assignments.foldlM (fun e a =>
    if (e.lookup a.name).isSome then some e
    else
      let value := valueOf e a.value
      if value.toList.contains terminator then none else some ((a.name, value) :: e)) e

end TransitTimeline.Variables
