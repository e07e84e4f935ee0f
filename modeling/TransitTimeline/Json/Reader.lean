import TransitTimeline.Json.Basic
import TransitTimeline.Text.Numeral

/-! Reading JSON by its strict grammar: one value, blanks around it, nothing else. -/
namespace TransitTimeline.Json

def isBlank (c : Char) : Bool := c = ' ' || c = '\n' || c = '\r' || c = '\t'

def skip : List Char → List Char := List.dropWhile isBlank

inductive Written where
  | char (c : Char)
  | codeUnit (n : Nat)
  deriving DecidableEq, Repr

def isHigh (n : Nat) : Bool := 0xD800 ≤ n && n < 0xDC00
def isLow (n : Nat) : Bool := 0xDC00 ≤ n && n < 0xE000

def characters? : List Written → Option (List Char)
  | [] => some []
  | .char c :: rest => (characters? rest).map (c :: ·)
  | .codeUnit high :: .codeUnit low :: rest =>
    if isHigh high then
      if isLow low then
        (characters? rest).map (Char.ofNat (0x10000 + (high - 0xD800) * 0x400 + (low - 0xDC00)) :: ·)
      else none
    else if isLow high then none
    else (characters? (.codeUnit low :: rest)).map (Char.ofNat high :: ·)
  | .codeUnit n :: rest =>
    if isHigh n || isLow n then none else (characters? rest).map (Char.ofNat n :: ·)

def shortEscape? : Char → Option Char
  | '"' => some '"'
  | '\\' => some '\\'
  | '/' => some '/'
  | 'b' => some '\x08'
  | 'f' => some '\x0c'
  | 'n' => some '\n'
  | 'r' => some '\r'
  | 't' => some '\t'
  | _ => none

def readWritten : List Char → Option (List Written × List Char)
  | [] => none
  | '"' :: rest => some ([], rest)
  | '\\' :: 'u' :: a :: b :: c :: d :: rest => do
    let n ← Text.digits? 16 [a, b, c, d]
    let (written, rest) ← readWritten rest
    some (.codeUnit n :: written, rest)
  | '\\' :: e :: rest => do
    let c ← shortEscape? e
    let (written, rest) ← readWritten rest
    some (.char c :: written, rest)
  | c :: rest => do
    if c.toNat < 0x20 ∨ c = '\\' then none else
    let (written, rest) ← readWritten rest
    some (.char c :: written, rest)

def takeRun (cs : List Char) : List Char × List Char := Text.takeDigits none cs

def readFraction : List Char → Option (List Char × List Char)
  | '.' :: rest =>
    let (run, rest) := takeRun rest
    if run.isEmpty then none else some (run, rest)
  | cs => some ([], cs)

def readPower (cs : List Char) : Option (Int × List Char) :=
  let (negative, cs) := match cs with
    | '-' :: rest => (true, rest)
    | '+' :: rest => (false, rest)
    | cs => (false, cs)
  let (run, rest) := takeRun cs
  (Text.digits? 10 run).map fun n => (if negative then -(n : Int) else n, rest)

def readExponent : List Char → Option (Option Int × List Char)
  | 'e' :: rest | 'E' :: rest => (readPower rest).map fun (n, rest) => (some n, rest)
  | cs => some (none, cs)

/-- Reads a number behind its sign. Minus zero is no integer. -/
def readNumber (negative : Bool) (cs : List Char) : Option (Json × List Char) := do
  let (whole, rest) := takeRun cs
  if whole.isEmpty ∨ (1 < whole.length ∧ whole.head? = some '0') then none else
  let (fraction, rest) ← readFraction rest
  let (exponent, rest) ← readExponent rest
  let digits ← Text.digits? 10 (whole ++ fraction)
  if fraction.isEmpty ∧ exponent.isNone ∧ ¬(negative ∧ digits = 0) then
    some (integer (if negative then -(digits : Int) else digits), rest)
  else some (real ⟨negative, digits, exponent.getD 0 - fraction.length⟩, rest)

def textOf (written : List Written) : Json :=
  match characters? written with
  | some cs => text (String.ofList cs)
  | none => unpaired

def objectOf (members : List (List Written × Json)) : Json :=
  match members.mapM fun (name, value) => (characters? name).map fun cs => (String.ofList cs, value) with
  | some members => object members
  | none => unpaired

/- Every call takes a character or starts a nested item, so the length of the text bounds the calls. -/
mutual

def readValue : Nat → List Char → Option (Json × List Char)
  | 0, _ => none
  | fuel + 1, cs =>
    match skip cs with
    | 'n' :: 'u' :: 'l' :: 'l' :: rest => some (null, rest)
    | 't' :: 'r' :: 'u' :: 'e' :: rest => some (bool true, rest)
    | 'f' :: 'a' :: 'l' :: 's' :: 'e' :: rest => some (bool false, rest)
    | '"' :: rest => (readWritten rest).map fun (written, rest) => (textOf written, rest)
    | '[' :: rest =>
      match skip rest with
      | ']' :: rest => some (array [], rest)
      | rest => (readItems fuel rest).map fun (items, rest) => (array items, rest)
    | '\x7b' :: rest =>
      match skip rest with
      | '\x7d' :: rest => some (object [], rest)
      | rest => (readMembers fuel rest).map fun (members, rest) => (objectOf members, rest)
    | '-' :: rest => readNumber true rest
    | rest => readNumber false rest

def readItems : Nat → List Char → Option (List Json × List Char)
  | 0, _ => none
  | fuel + 1, cs => do
    let (item, rest) ← readValue fuel cs
    match skip rest with
    | ',' :: rest =>
      let (items, rest) ← readItems fuel rest
      some (item :: items, rest)
    | ']' :: rest => some ([item], rest)
    | _ => none

def readMembers : Nat → List Char → Option (List (List Written × Json) × List Char)
  | 0, _ => none
  | fuel + 1, cs =>
    match skip cs with
    | '"' :: rest => do
      let (name, rest) ← readWritten rest
      match skip rest with
      | ':' :: rest =>
        let (value, rest) ← readValue fuel rest
        match skip rest with
        | ',' :: rest =>
          let (members, rest) ← readMembers fuel rest
          some ((name, value) :: members, rest)
        | '\x7d' :: rest => some ([(name, value)], rest)
        | _ => none
      | _ => none
    | _ => none

end

def ofText? (s : String) : Option Json := do
  let cs := s.toList
  let (value, rest) ← readValue (2 * cs.length + 2) cs
  if (skip rest).isEmpty then some value else none

end TransitTimeline.Json
