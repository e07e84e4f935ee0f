import TransitTimeline.Gzip.Bits

/-! Canonical codes: the length of every symbol's code word fixes all code words. -/
namespace TransitTimeline.Gzip

inductive Code where
  | unused
  | symbol (n : Nat)
  | branch (zero one : Code)
  deriving Repr

namespace Code

def insert (n : Nat) : List Bool → Code → Option Code
  | [], unused => some (symbol n)
  | false :: word, unused => (insert n word unused).map (branch · unused)
  | true :: word, unused => (insert n word unused).map (branch unused ·)
  | false :: word, branch zero one => (insert n word zero).map (branch · one)
  | true :: word, branch zero one => (insert n word one).map (branch zero ·)
  | _, _ => none

def isComplete : Code → Bool
  | unused => false
  | symbol _ => true
  | branch zero one => zero.isComplete && one.isComplete

def word (length value : Nat) : List Bool := ((List.range length).map value.testBit).reverse

def ordered (lengths : List Nat) : List (Nat × Nat) :=
  (List.range 16).tail.flatMap fun length =>
    (lengths.zipIdx.filter fun entry => entry.1 = length)

def assign : List (Nat × Nat) → (previous : Nat) → (value : Nat) → Code → Option Code
  | [], _, _, code => some code
  | (length, n) :: rest, previous, value, code => do
    let value := value * Nat.pow 2 (length - previous)
    if Nat.pow 2 length ≤ value then none else
    assign rest length (value + 1) (← insert n (word length value) code)

def complete? (lengths : List Nat) : Option Code := do
  let code ← assign (ordered lengths) 0 0 unused
  if code.isComplete then some code else none

/-- The code of the given lengths. It is complete, or has no word at all, or a single word of one bit. -/
def ofLengths (lengths : List Nat) : Option Code :=
  match ordered lengths with
  | [] => some unused
  | [(1, n)] => some (branch (symbol n) unused)
  | _ => complete? lengths

def read : Code → Bits → Option (Nat × Bits)
  | unused, _ => none
  | symbol n, b => some (n, b)
  | branch zero one, b => do
    let (bit, b) ← b.take
    if bit then one.read b else zero.read b

end Code

end TransitTimeline.Gzip
