import TransitTimeline.Text.Blank
import TransitTimeline.Text.Piece

/-! Trip ids. A published id is a base, perhaps with `_N` for the N-th part of a split trip, and behind that
perhaps with `-OL` or `-OLN` for an overload vehicle. The base alone is the canonical id. -/
namespace TransitTimeline

inductive TripSuffix where
  | split (digit : Nat)
  | overload (digit : Option Nat)
  deriving DecidableEq, Repr

namespace TripSuffix

def digitText (digit : Nat) : List Char := Nat.toDigits 10 digit

def text : TripSuffix → List Char
  | split digit => '_' :: digitText digit
  | overload none => "-OL".toList
  | overload (some digit) => "-OL".toList ++ digitText digit

def isOverload : TripSuffix → Bool
  | overload _ => true
  | split _ => false

end TripSuffix

structure TripId where
  raw : String
  canonical : String
  suffixes : List TripSuffix
  deriving DecidableEq, Repr

namespace TripId

def lastDigit? (cs : List Char) : Option (List Char × Nat) :=
  match cs.getLast? with
  | some c => if c.isDigit then some (cs.dropLast, c.toNat - 48) else none
  | none => none

def nonempty? (cs : List Char) : Option (List Char) := if cs.isEmpty then none else some cs

def overload? (cs : List Char) : Option (List Char × Option Nat) :=
  match Text.before? "-OL".toList cs with
  | some head => (nonempty? head).map fun head => (head, none)
  | none => do
    let (front, digit) ← lastDigit? cs
    let head ← Text.before? "-OL".toList front
    let head ← nonempty? head
    some (head, some digit)

def split? (cs : List Char) : Option (List Char × Nat) := do
  let (front, digit) ← lastDigit? cs
  let head ← Text.before? ['_'] front
  let head ← nonempty? head
  some (head, digit)

def withoutOverload (cs : List Char) : List Char × List TripSuffix :=
  match overload? cs with
  | some (head, digit) => (head, [.overload digit])
  | none => (cs, [])

def withoutSplit (cs : List Char) : List Char × List TripSuffix :=
  match split? cs with
  | some (head, digit) => (head, [.split digit])
  | none => (cs, [])

def ofText (raw : String) : TripId :=
  let (part, overload) := withoutOverload (Text.trimChars raw.toList)
  let (base, split) := withoutSplit part
  ⟨raw, String.ofList base, overload ++ split⟩

def isOverload (t : TripId) : Bool := t.suffixes.any (·.isOverload)

def canonicalOf (raw : String) : String := (ofText raw).canonical

def scheduled (raw : String) : String :=
  String.ofList (withoutOverload (Text.trimChars raw.toList)).1

end TripId

def routeOfAbbreviation (abbreviation : String) : String :=
  let cs := Text.trimChars abbreviation.toList
  let bare := cs.dropWhile (· = '0')
  if bare.isEmpty ∧ ¬cs.isEmpty then "0" else String.ofList bare

end TransitTimeline
