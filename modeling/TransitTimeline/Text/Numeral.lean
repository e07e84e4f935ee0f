/-! Whole numbers in decimal or hexadecimal digits, read within bounds. -/
namespace TransitTimeline.Text

structure Bounds where
  low : Int
  high : Int
  deriving DecidableEq, Repr

namespace Bounds

def signed64 : Bounds := ⟨-9223372036854775808, 9223372036854775807⟩
def signed32 : Bounds := ⟨-2147483648, 2147483647⟩
def unsigned64 : Bounds := ⟨0, 18446744073709551615⟩
def unsigned32 : Bounds := ⟨0, 4294967295⟩
def unsigned16 : Bounds := ⟨0, 65535⟩
def unsigned8 : Bounds := ⟨0, 255⟩

def isSigned (b : Bounds) : Bool := b.low < 0

def fit? (b : Bounds) (n : Int) : Option Int := if b.low ≤ n ∧ n ≤ b.high then some n else none

theorem fitBounded {b : Bounds} {n m : Int} (h : b.fit? n = some m) :
    m = n ∧ b.low ≤ m ∧ m ≤ b.high := by
  unfold fit? at h
  split at h
  · cases h; exact ⟨rfl, by assumption⟩
  · cases h

def wrap (b : Bounds) (n : Int) : Int := (n - b.low) % (b.high - b.low + 1) + b.low

theorem wrapFits {b : Bounds} {n : Int} (low : b.low ≤ n) (high : n ≤ b.high) : b.wrap n = n := by
  unfold wrap
  rw [Int.emod_eq_of_lt (by omega) (by omega)]
  omega

theorem wrapBounded {b : Bounds} (filled : b.low ≤ b.high) (n : Int) : b.low ≤ b.wrap n ∧ b.wrap n ≤ b.high := by
  have least := Int.emod_nonneg (n - b.low) (show b.high - b.low + 1 ≠ 0 by omega)
  have most := Int.emod_lt_of_pos (n - b.low) (show 0 < b.high - b.low + 1 by omega)
  unfold wrap
  omega

/- A sum may wrap around at every step or at the end. -/
theorem wrapAdd (b : Bounds) (n m : Int) : b.wrap (b.wrap n + m) = b.wrap (n + m) := by
  unfold wrap
  rw [show (n - b.low) % (b.high - b.low + 1) + b.low + m - b.low = (n - b.low) % (b.high - b.low + 1) + m by omega,
    Int.emod_add_emod, show n - b.low + m = n + m - b.low by omega]

end Bounds

def digit? (radix : Nat) (c : Char) : Option Nat :=
  let value? :=
    if c.isDigit then some (c.toNat - 48)
    else if 'a' ≤ c ∧ c ≤ 'z' then some (c.toNat - 87)
    else if 'A' ≤ c ∧ c ≤ 'Z' then some (c.toNat - 55)
    else none
  value?.filter (· < radix)

def horner (radix : Nat) (digits : List Nat) : Nat := digits.foldl (fun total d => total * radix + d) 0

theorem hornerAppend (radix : Nat) (high low : List Nat) :
    horner radix (high ++ low) = horner radix high * Nat.pow radix low.length + horner radix low := by
  have shift : ∀ (low : List Nat) (n : Nat), low.foldl (fun total d => total * radix + d) n =
      n * Nat.pow radix low.length + low.foldl (fun total d => total * radix + d) 0 := by
    intro low
    induction low with
    | nil => intro n; simp
    | cons d rest ih =>
      intro n
      simp only [List.foldl_cons, List.length_cons]
      rw [ih (n * radix + d), ih (0 * radix + d)]
      simp only [Nat.pow_eq, Nat.pow_succ, Nat.zero_mul, Nat.zero_add, Nat.add_mul, Nat.mul_assoc,
        Nat.mul_comm radix, Nat.add_assoc]
  unfold horner
  rw [List.foldl_append]
  exact shift low _

/-- The same number, the halves of a long run read apart so that the work stays small. -/
def number (radix : Nat) : Nat → List Nat → Nat
  | 0, digits => horner radix digits
  | depth + 1, digits =>
    if digits.length ≤ 32 then horner radix digits else
    let (high, low) := digits.splitAt (digits.length / 2)
    number radix depth high * Nat.pow radix low.length + number radix depth low

theorem numberHorner (radix depth : Nat) (digits : List Nat) :
    number radix depth digits = horner radix digits := by
  induction depth generalizing digits with
  | zero => rfl
  | succ depth ih =>
    unfold number
    split
    · rfl
    · simp only [ih, List.splitAt_eq]
      rw [← hornerAppend, List.take_append_drop]

def digits? (radix : Nat) (cs : List Char) : Option Nat :=
  if cs.isEmpty then none
  else (cs.mapM (digit? radix)).map fun digits => number radix (Nat.log2 digits.length) digits

theorem digitsHorner (radix : Nat) (cs : List Char) :
    digits? radix cs = if cs.isEmpty then none else (cs.mapM (digit? radix)).map (horner radix) := by
  unfold digits?
  simp only [numberHorner]
def integerIn (radix : Nat) (b : Bounds) (cs : List Char) : Option Int :=
  match cs with
  | '+' :: rest => (digits? radix rest).bind fun n => b.fit? n
  | '-' :: rest =>
    if b.isSigned then (digits? radix rest).bind fun n => b.fit? (-(n : Int)) else none
  | cs => (digits? radix cs).bind fun n => b.fit? n

def integer? (b : Bounds) (s : String) : Option Int := integerIn 10 b s.toList

theorem integerBounded {radix b cs n} (h : integerIn radix b cs = some n) : b.low ≤ n ∧ n ≤ b.high := by
  have fitted : ∃ m, b.fit? m = some n := by
    unfold integerIn at h
    split at h
    · obtain ⟨m, -, hm⟩ := Option.bind_eq_some_iff.mp h; exact ⟨_, hm⟩
    · split at h
      · obtain ⟨m, -, hm⟩ := Option.bind_eq_some_iff.mp h; exact ⟨_, hm⟩
      · cases h
    · obtain ⟨m, -, hm⟩ := Option.bind_eq_some_iff.mp h; exact ⟨_, hm⟩
  obtain ⟨m, hm⟩ := fitted
  exact (Bounds.fitBounded hm).2

def padded (width n : Nat) : String :=
  let digits := Nat.toDigits 10 n
  String.ofList (List.replicate (width - digits.length) '0' ++ digits)

def takeDigits (limit : Option Nat) (cs : List Char) : List Char × List Char :=
  let run := cs.takeWhile Char.isDigit
  let taken := match limit with
    | some n => run.take n
    | none => run
  (taken, cs.drop taken.length)

theorem takeDigitsWhole (limit : Option Nat) (cs : List Char) :
    (takeDigits limit cs).1 ++ (takeDigits limit cs).2 = cs := by
  have whole : cs.takeWhile Char.isDigit ++ cs.dropWhile Char.isDigit = cs := List.takeWhile_append_dropWhile
  have front : (takeDigits limit cs).1 <+: cs := by
    unfold takeDigits
    cases limit with
    | none => exact ⟨_, whole⟩
    | some n => exact (List.take_prefix n _).trans ⟨_, whole⟩
  exact List.prefix_iff_eq_append.mp front

end TransitTimeline.Text
