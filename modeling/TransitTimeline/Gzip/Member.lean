import TransitTimeline.Gzip.Checksum
import TransitTimeline.Gzip.Inflate

/-! Members of a gzip file: a header with optional parts, deflated data, its checksum and its length. -/
namespace TransitTimeline.Gzip

def littleEndian : List UInt8 → Nat
  | [] => 0
  | byte :: rest => byte.toNat + 256 * littleEndian rest

def skipText : Nat → List UInt8 → Option (List UInt8)
  | _, [] => none
  | limit, byte :: rest =>
    if byte = 0 then some rest
    else match limit with
      | 0 => none
      | limit + 1 => skipText limit rest

def textLimit : Nat := 65535

def skipExtra : List UInt8 → Option (List UInt8)
  | low :: high :: rest =>
    let length := low.toNat + 256 * high.toNat
    if rest.length < length then none else some (rest.drop length)
  | _ => none

def skipIf (flags : Nat) (flag : Nat) (skip : List UInt8 → Option (List UInt8)) (bytes : List UInt8) :
    Option (List UInt8) :=
  if flags.testBit flag then skip bytes else some bytes

/-- The header's own check is the low half of the checksum of all bytes before it. -/
def checkHeader (whole bytes : List UInt8) : Option (List UInt8) :=
  match bytes with
  | low :: high :: rest =>
    let header := whole.take (whole.length - bytes.length)
    if (checksum header).toNat % 65536 = low.toNat + 256 * high.toNat then some rest else none
  | _ => none

def afterHeader (whole : List UInt8) : Option (List UInt8) :=
  match whole with
  | 0x1F :: 0x8B :: 8 :: flags :: _ :: _ :: _ :: _ :: _ :: _ :: rest => do
    let flags := flags.toNat
    if 32 ≤ flags then none else
    let rest ← skipIf flags 2 skipExtra rest
    let rest ← skipIf flags 3 (skipText textLimit) rest
    let rest ← skipIf flags 4 (skipText textLimit) rest
    skipIf flags 1 (checkHeader whole) rest
  | _ => none

def firstMember? (bytes : List UInt8) : Option (List UInt8) := do
  let (data, rest) ← inflate (← afterHeader bytes)
  let trailer := rest.take 8
  if trailer.length = 8 ∧ littleEndian (trailer.take 4) = (checksum data).toNat ∧
      littleEndian (trailer.drop 4) = data.length % 4294967296 then
    some data
  else none

end TransitTimeline.Gzip
