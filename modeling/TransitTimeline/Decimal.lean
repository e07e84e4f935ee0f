/-! Decimal numbers, and numbers of IEEE 754 binary64 by their bits: the nearest binary number to a decimal,
and the shortest decimal that is nearest to a binary number again. All of it is exact arithmetic on naturals. -/
namespace TransitTimeline

/-- A number `digits * 10 ^ exponent`, with a sign of its own so that zero has one too. -/
structure Decimal where
  negative : Bool
  digits : Nat
  exponent : Int
  deriving DecidableEq, Repr

structure Binary64 where
  bits : UInt64
  deriving DecidableEq, Repr

namespace Binary64

def fractionSize : Nat := 4503599627370496
def signBit : Nat := 9223372036854775808
def infiniteBits : Nat := 2047 * fractionSize

def ofMagnitude (negative : Bool) (magnitude : Nat) : Binary64 :=
  ⟨UInt64.ofNat (magnitude + if negative then signBit else 0)⟩

def infinity (negative : Bool) : Binary64 := ofMagnitude negative infiniteBits
def nan : Binary64 := ofMagnitude false (infiniteBits + fractionSize / 2)

def isNegative (x : Binary64) : Bool := signBit ≤ x.bits.toNat
def magnitude (x : Binary64) : Nat := x.bits.toNat % signBit
def isFinite (x : Binary64) : Bool := x.magnitude < infiniteBits
def isNan (x : Binary64) : Bool := infiniteBits < x.magnitude

def significand (x : Binary64) : Nat :=
  let fraction := x.magnitude % fractionSize
  if x.magnitude < fractionSize then fraction else fraction + fractionSize

def scale (x : Binary64) : Int := (max 1 (x.magnitude / fractionSize) : Nat) - 1075

def roundHalfEven (num den : Nat) : Nat :=
  let whole := num / den
  let twice := 2 * (num % den)
  if twice < den then whole else if den < twice then whole + 1 else whole + whole % 2

def descale (num den : Nat) (scale : Int) : Nat × Nat :=
  (num * Nat.pow 2 (-scale).toNat, den * Nat.pow 2 scale.toNat)

def scaleOf (num den : Nat) : Int :=
  let guess : Int := (Nat.log2 num : Int) - Nat.log2 den - 52
  let (n, d) := descale num den guess
  max (-1074) (if n < fractionSize * d then guess - 1 else guess)

def nearest (num den : Nat) : Nat :=
  let scale := scaleOf num den
  let (n, d) := descale num den scale
  min ((scale + 1074).toNat * fractionSize + roundHalfEven n d) infiniteBits

end Binary64

namespace Decimal

def places (d : Decimal) : Nat := Nat.log2 d.digits * 30103 / 100000

def toBinary (d : Decimal) : Binary64 :=
  let size := d.places + d.exponent
  .ofMagnitude d.negative <|
    if d.digits = 0 ∨ size < -330 then 0
    else if 310 < size then Binary64.infiniteBits
    else Binary64.nearest (d.digits * Nat.pow 10 d.exponent.toNat) (Nat.pow 10 (-d.exponent).toNat)

/-- The points that round to a number, in quarters of its last binary place; both ends belong to an even one. -/
structure Interval where
  low : Nat
  middle : Nat
  high : Nat
  closed : Bool
  scale : Int
  deriving DecidableEq, Repr

def intervalOf (x : Binary64) : Interval :=
  let m := x.significand
  let below := if m = Binary64.fractionSize ∧ -1074 < x.scale then 1 else 2
  ⟨4 * m - below, 4 * m, 4 * m + 2, m % 2 = 0, x.scale - 2⟩

namespace Interval

def pointFactor (i : Interval) (exponent : Int) : Nat := Nat.pow 2 i.scale.toNat * Nat.pow 10 (-exponent).toNat
def gridFactor (i : Interval) (exponent : Int) : Nat := Nat.pow 2 (-i.scale).toNat * Nat.pow 10 exponent.toNat

def holds (i : Interval) (exponent : Int) (digits : Nat) : Bool :=
  let point := digits * i.gridFactor exponent
  let low := i.low * i.pointFactor exponent
  let high := i.high * i.pointFactor exponent
  if i.closed then low ≤ point && point ≤ high else low < point && point < high

def gridPoint? (i : Interval) (exponent : Int) : Option Nat :=
  let unit := i.gridFactor exponent
  let middle := i.middle * i.pointFactor exponent
  let below := middle / unit
  let down := middle - below * unit
  let up := (below + 1) * unit - middle
  let nearer := if down < up ∨ (down = up ∧ below % 2 = 0) then below else below + 1
  let other := if nearer = below then below + 1 else below
  if i.holds exponent nearer then some nearer
  else if i.holds exponent other then some other
  else none

def leading (i : Interval) : Int :=
  let reaches (e : Int) : Bool := i.gridFactor e ≤ i.middle * i.pointFactor e
  let guess := ((Nat.log2 i.middle : Int) + i.scale) * 30103 / 100000
  if reaches (guess + 1) then guess + 1 else if reaches guess then guess else guess - 1

end Interval

def stripZeros : Nat → Nat → Int → Nat × Int
  | 0, digits, exponent => (digits, exponent)
  | fuel + 1, digits, exponent =>
    if digits ≠ 0 ∧ digits % 10 = 0 then stripZeros fuel (digits / 10) (exponent + 1) else (digits, exponent)

/-- The fewest digits that round to the number, of those the nearest; a finite number needs at most 17. -/
def shortest (x : Binary64) : Decimal :=
  if x.significand = 0 then ⟨x.isNegative, 0, 0⟩ else
  let i := intervalOf x
  let found := (List.range 17).findSome? fun (n : Nat) =>
    let exponent := i.leading - n
    (i.gridPoint? exponent).map fun digits => (digits, exponent)
  let (digits, exponent) := found.getD (0, 0)
  let (digits, exponent) := stripZeros 20 digits exponent
  ⟨x.isNegative, digits, exponent⟩

structure Layout where
  positiveExponent : String
  deriving DecidableEq, Repr

def zeros (n : Nat) : List Char := List.replicate n '0'

def text (layout : Layout) (d : Decimal) : String :=
  let digits := Nat.toDigits 10 d.digits
  let point := digits.length + d.exponent
  let body :=
    if d.digits = 0 then "0.0".toList
    else if 0 ≤ d.exponent ∧ point ≤ 16 then digits ++ zeros d.exponent.toNat ++ ".0".toList
    else if 0 < point ∧ point ≤ 16 then digits.take point.toNat ++ '.' :: digits.drop point.toNat
    else if -5 < point ∧ point ≤ 0 then "0.".toList ++ zeros (-point).toNat ++ digits
    else
      let front := match digits with
        | lead :: [] => [lead]
        | lead :: rest => lead :: '.' :: rest
        | [] => []
      let power := point - 1
      front ++ 'e' :: ((if power < 0 then "-" else layout.positiveExponent) ++ toString power.natAbs).toList
  (if d.negative then "-" else "") ++ String.ofList body

end Decimal

end TransitTimeline
