/-! Bits of a byte sequence, the lowest of each byte first. -/
namespace TransitTimeline.Gzip

structure Bits where
  opened : List Bool
  rest : List UInt8
  deriving DecidableEq, Repr

namespace Bits

def ofBytes (bytes : List UInt8) : Bits := ⟨[], bytes⟩

def byteBits (byte : UInt8) : List Bool := (List.range 8).map fun n => byte.toNat.testBit n

def take (b : Bits) : Option (Bool × Bits) :=
  match b.opened, b.rest with
  | bit :: opened, rest => some (bit, ⟨opened, rest⟩)
  | [], byte :: rest => some (byte.toNat.testBit 0, ⟨(byteBits byte).tail, rest⟩)
  | [], [] => none

def takeNumber : Nat → Bits → Option (Nat × Bits)
  | 0, b => some (0, b)
  | n + 1, b => do
    let (bit, b) ← b.take
    let (rest, b) ← takeNumber n b
    some (rest * 2 + (if bit then 1 else 0), b)

def align (b : Bits) : List UInt8 := b.rest

end Bits

end TransitTimeline.Gzip
