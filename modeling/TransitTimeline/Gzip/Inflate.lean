import TransitTimeline.Gzip.Code

/-! Deflated data: stored blocks, and blocks of literals and copies of earlier output. The output is taken to
stand behind 32768 zeros, as far as a copy can reach. -/
namespace TransitTimeline.Gzip

def copyLengths : List (Nat × Nat) :=
  [(3, 0), (4, 0), (5, 0), (6, 0), (7, 0), (8, 0), (9, 0), (10, 0), (11, 1), (13, 1), (15, 1), (17, 1),
   (19, 2), (23, 2), (27, 2), (31, 2), (35, 3), (43, 3), (51, 3), (59, 3), (67, 4), (83, 4), (99, 4), (115, 4),
   (131, 5), (163, 5), (195, 5), (227, 5), (258, 0)]

def copyDistances : List (Nat × Nat) :=
  [(1, 0), (2, 0), (3, 0), (4, 0), (5, 1), (7, 1), (9, 2), (13, 2), (17, 3), (25, 3), (33, 4), (49, 4),
   (65, 5), (97, 5), (129, 6), (193, 6), (257, 7), (385, 7), (513, 8), (769, 8), (1025, 9), (1537, 9),
   (2049, 10), (3073, 10), (4097, 11), (6145, 11), (8193, 12), (12289, 12), (16385, 13), (24577, 13)]

def lengthOrder : List Nat := [16, 17, 18, 0, 8, 7, 9, 6, 10, 5, 11, 4, 12, 3, 13, 2, 14, 1, 15]

def readExtra (table : List (Nat × Nat)) (n : Nat) (b : Bits) : Option (Nat × Bits) := do
  let (base, extra) ← table[n]?
  let (more, b) ← b.takeNumber extra
  some (base + more, b)

/-- Copies bytes from a distance behind the end. A copy may run into its own output, and before the start
there are zeros. -/
def copy (distance : Nat) : Nat → Array UInt8 → Array UInt8
  | 0, out => out
  | length + 1, out =>
    let byte := if out.size < distance then 0 else out[out.size - distance]?.getD 0
    copy distance length (out.push byte)

/-- Reads symbols up to the end of the block. Every symbol takes a bit, so the bits bound the symbols. -/
def readSymbols (literals distances : Code) : Nat → Bits → Array UInt8 → Option (Bits × Array UInt8)
  | 0, _, _ => none
  | fuel + 1, b, out => do
    let (n, b) ← literals.read b
    if n < 256 then readSymbols literals distances fuel b (out.push (UInt8.ofNat n))
    else if n = 256 then some (b, out)
    else
      let (length, b) ← readExtra copyLengths (n - 257) b
      let (d, b) ← distances.read b
      let (distance, b) ← readExtra copyDistances d b
      readSymbols literals distances fuel b (copy distance length out)

def fixedLengths : List Nat :=
  List.replicate 144 8 ++ List.replicate 112 9 ++ List.replicate 24 7 ++ List.replicate 8 8

def readLengths (code : Code) (count : Nat) : Nat → Bits → List Nat → Option (List Nat × Bits)
  | 0, _, _ => none
  | fuel + 1, b, lengths => do
    if count < lengths.length then none
    else if count = lengths.length then some (lengths.reverse, b)
    else
      let (n, b) ← code.read b
      if n < 16 then readLengths code count fuel b (n :: lengths)
      else if n = 16 then
        let (more, b) ← b.takeNumber 2
        readLengths code count fuel b (List.replicate (more + 3) (← lengths.head?) ++ lengths)
      else if n = 17 then
        let (more, b) ← b.takeNumber 3
        readLengths code count fuel b (List.replicate (more + 3) 0 ++ lengths)
      else
        let (more, b) ← b.takeNumber 7
        readLengths code count fuel b (List.replicate (more + 11) 0 ++ lengths)

def takeNumbers (width : Nat) : Nat → Bits → Option (List Nat × Bits)
  | 0, b => some ([], b)
  | n + 1, b => do
    let (value, b) ← b.takeNumber width
    let (rest, b) ← takeNumbers width n b
    some (value :: rest, b)

def readCodes (b : Bits) : Option (Code × Code × Bits) := do
  let (literalCount, b) ← b.takeNumber 5
  let (distanceCount, b) ← b.takeNumber 5
  let (lengthCount, b) ← b.takeNumber 4
  if 29 < literalCount ∨ 29 < distanceCount then none else
  let (written, b) ← takeNumbers 3 (lengthCount + 4) b
  let given := lengthOrder.zip written
  let lengthCode ← Code.complete? ((List.range 19).map fun n => ((given.find? (·.1 = n)).map (·.2)).getD 0)
  let total := literalCount + 257 + (distanceCount + 1)
  let (lengths, b) ← readLengths lengthCode total (total + 1) b []
  let literals ← Code.ofLengths (lengths.take (literalCount + 257))
  let distances ← Code.ofLengths (lengths.drop (literalCount + 257))
  some (literals, distances, b)

def readStored (b : Bits) (out : Array UInt8) : Option (Bits × Array UInt8) :=
  match b.align with
  | low :: high :: lowComplement :: highComplement :: rest =>
    let length := low.toNat + 256 * high.toNat
    let data := rest.take length
    if lowComplement ≠ ~~~low ∨ highComplement ≠ ~~~high ∨ data.length < length then none
    else some (Bits.ofBytes (rest.drop length), out ++ data)
  | _ => none

def readBlock (size : Nat) (kind : Nat) (b : Bits) (out : Array UInt8) : Option (Bits × Array UInt8) :=
  match kind with
  | 0 => readStored b out
  | 1 => do
    let literals ← Code.ofLengths fixedLengths
    let distances ← Code.ofLengths (List.replicate 32 5)
    readSymbols literals distances size b out
  | 2 => do
    let (literals, distances, b) ← readCodes b
    readSymbols literals distances size b out
  | _ => none

def readBlocks (size : Nat) : Nat → Bits → Array UInt8 → Option (List UInt8 × List UInt8)
  | 0, _, _ => none
  | fuel + 1, b, out => do
    let (last, b) ← b.take
    let (kind, b) ← b.takeNumber 2
    let (b, out) ← readBlock size kind b out
    if last then some (out.toList, b.align) else readBlocks size fuel b out

def inflate (bytes : List UInt8) : Option (List UInt8 × List UInt8) :=
  let size := 8 * bytes.length + 1
  readBlocks size size (Bits.ofBytes bytes) #[]

end TransitTimeline.Gzip
