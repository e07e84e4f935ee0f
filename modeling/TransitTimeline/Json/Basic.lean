import TransitTimeline.Decimal

/-! JSON values. Numbers without fraction and exponent are exact integers; all others are exact decimals. -/
namespace TransitTimeline

inductive Json where
  | null
  | bool (value : Bool)
  | integer (value : Int)
  | real (value : Decimal)
  | text (value : String)
  | array (items : List Json)
  | object (members : List (String × Json))
  /-- A text, or an object with a name, whose escapes hold half of a pair and so stand for no characters. -/
  | unpaired
  deriving Repr, Inhabited

namespace Json

def member? (name : String) : Json → Option Json
  | object members => (members.find? (·.1 = name)).map (·.2)
  | _ => none

def text? : Json → Option String
  | text value => some value
  | _ => none

def integer? : Json → Option Int
  | integer value => some value
  | _ => none

def decimal? : Json → Option Decimal
  | integer value => some ⟨value < 0, value.natAbs, 0⟩
  | real value => some value
  | _ => none

def items? : Json → Option (List Json)
  | array items => some items
  | _ => none

def members? : Json → Option (List (String × Json))
  | object members => some members
  | _ => none

end Json

end TransitTimeline
