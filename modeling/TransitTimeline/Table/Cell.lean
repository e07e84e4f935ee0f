import TransitTimeline.Decimal
import TransitTimeline.Instant
import TransitTimeline.Json.Writer

/-! What a field of a table row may hold, and the written forms of it. -/
namespace TransitTimeline

inductive Kind where
  | text
  | integer (bounds : Text.Bounds)
  | real
  | flag
  | day
  | instant
  deriving DecidableEq, Repr

inductive Cell where
  | text (value : String)
  | integer (value : Int)
  | real (value : Binary64)
  | flag (value : Bool)
  | day (value : Day)
  | instant (value : Instant)
  deriving DecidableEq, Repr

namespace Kind

def mantissa? (cs : List Char) : Option (List Char × List Char × List Char) :=
  let (whole, rest) := Text.takeDigits none cs
  let (fraction, rest) := match rest with
    | '.' :: rest => Text.takeDigits none rest
    | rest => ([], rest)
  if whole.isEmpty ∧ fraction.isEmpty then none else some (whole, fraction, rest)

/-- From here on an exponent takes no more digits: those that follow have to be digits and change nothing. -/
def exponentLimit : Nat := 65536

def exponentDigits? (cs : List Char) : Option Nat :=
  if cs.isEmpty then none else
  cs.foldlM (fun total c => (Text.digit? 10 c).map fun d => if total < exponentLimit then total * 10 + d else total) 0

def exponent? : List Char → Option Int
  | [] => some 0
  | 'e' :: '-' :: rest | 'E' :: '-' :: rest => (exponentDigits? rest).map fun n => -(n : Int)
  | 'e' :: '+' :: rest | 'E' :: '+' :: rest => (exponentDigits? rest).map fun n => (n : Int)
  | 'e' :: rest | 'E' :: rest => (exponentDigits? rest).map fun n => (n : Int)
  | _ => none

def realOf (negative : Bool) (cs : List Char) : Option Binary64 :=
  let word := String.ofList (cs.map Char.toLower)
  if word = "inf" ∨ word = "infinity" then some (.infinity negative)
  else if word = "nan" then some .nan
  else do
    let (whole, fraction, rest) ← mantissa? cs
    let exponent ← exponent? rest
    let digits ← Text.digits? 10 (whole ++ fraction)
    some (Decimal.toBinary ⟨negative, digits, exponent - fraction.length⟩)

def real? : List Char → Option Binary64
  | '-' :: rest => realOf true rest
  | '+' :: rest => realOf false rest
  | cs => realOf false cs

def number? (bounds : Text.Bounds) : List Char → Option Int
  | '0' :: 'x' :: rest => Text.integerIn 16 bounds rest
  | cs => Text.integerIn 10 bounds cs

def flag? (s : String) : Option Bool :=
  if s = "true" then some true else if s = "false" then some false else none

def read? (s : String) : Kind → Option Cell
  | text => some (.text s)
  | integer bounds => (number? bounds s.toList).map .integer
  | real => (real? s.toList).map .real
  | flag => (flag? s).map .flag
  | day => (Day.ofDashed? s).map .day
  | instant => (Instant.ofText? s).map .instant

end Kind

namespace Cell

def numbers : Decimal.Layout := ⟨""⟩

def plain : Cell → String
  | text value => value
  | integer value => toString value
  | real value =>
    if value.isNan then "NaN"
    else if value.isFinite then (Decimal.shortest value).text numbers
    else if value.isNegative then "-inf" else "inf"
  | flag value => if value then "true" else "false"
  | day value => value.text
  | instant value => value.text

def json : Cell → Json
  | text value => .text value
  | integer value => .integer value
  | real value => if value.isFinite then .real (Decimal.shortest value) else .null
  | flag value => .bool value
  | day value => .text value.text
  | instant value => .text value.text

end Cell

end TransitTimeline
