import TransitTimeline.Proofs.Instant.Text
import TransitTimeline.Proofs.Table.Real

/-! Every cell that its kind admits is read back out of its plain text. -/
namespace TransitTimeline

namespace Kind
open Text

def Admits : Kind → Cell → Prop
  | text, .text _ => True
  | integer bounds, .integer n => bounds.low ≤ n ∧ n ≤ bounds.high
  | real, .real _ => True
  | flag, .flag _ => True
  | day, .day d => Day.first ≤ d ∧ d ≤ Day.last
  | instant, .instant t => t.InRange
  | _, _ => False

instance (kind : Kind) (cell : Cell) : Decidable (kind.Admits cell) := by
  unfold Admits
  split <;> infer_instance

section Integer
variable {bounds : Bounds} {n : Int}

theorem fitOwn (low : bounds.low ≤ n) (high : n ≤ bounds.high) : bounds.fit? n = some n := if_pos ⟨low, high⟩

theorem numberDigits (n : Nat) : number? bounds (Nat.toDigits 10 n) = bounds.fit? n := by
  have digits := allDigitsNumber n
  have value := toDigitsValue n
  cases run : Nat.toDigits 10 n with
  | nil => exact absurd run Nat.toDigits_ne_nil
  | cons c rest =>
    rw [run] at digits value
    obtain ⟨minus, plus⟩ := digitUnsigned (digits c List.mem_cons_self)
    have decimal : integerIn 10 bounds (c :: rest) = bounds.fit? n := by
      simp [integerIn, minus, plus, value]
    unfold number?
    split
    · rename_i behind same
      obtain ⟨_, rfl⟩ := List.cons.inj same
      have letter := digits 'x' (by simp)
      cases letter
    · exact decimal

theorem integerReads (low : bounds.low ≤ n) (high : n ≤ bounds.high) : number? bounds (toString n).toList = some n := by
  cases n with
  | ofNat k =>
    have text : (toString (Int.ofNat k)).toList = Nat.toDigits 10 k := Nat.toList_repr
    rw [text, numberDigits]
    exact fitOwn low high
  | negSucc k =>
    have text : (toString (Int.negSucc k)).toList = '-' :: Nat.toDigits 10 (k + 1) := by
      have sign : toString (Int.negSucc k) = "-" ++ (k + 1).repr := rfl
      rw [sign, String.toList_append, Nat.toList_repr]
      rfl
    have signed : bounds.isSigned = true := decide_eq_true (by omega)
    have own : -((k + 1 : Nat) : Int) = Int.negSucc k := (Int.negSucc_eq k).symm
    rw [text]
    show integerIn 10 bounds ('-' :: _) = _
    simp only [integerIn, signed, if_true, toDigitsValue, Option.bind_some, own]
    exact fitOwn low high

end Integer

theorem plainReads {kind : Kind} {cell : Cell} (admits : kind.Admits cell) (finite : ∀ x, cell = .real x → x.isFinite) :
    kind.read? cell.plain = some cell := by
  unfold Admits at admits
  split at admits
  · rfl
  · simp only [read?, Cell.plain, integerReads admits.1 admits.2, Option.map_some]
  · rw [read?, Binary64.plainReads (finite _ rfl), Option.map_some]
  · rename_i value
    cases value <;> rfl
  · simp only [read?, Cell.plain, Day.textReads admits.1 admits.2, Option.map_some]
  · simp only [read?, Cell.plain, Instant.textReads admits, Option.map_some]
  · exact admits.elim

theorem emptyReads {kind : Kind} {cell : Cell} (read : kind.read? "" = some cell) : cell = .text "" := by
  cases kind with
  | text => exact (Option.some.inj read).symm
  | integer bounds =>
    have none : (integer bounds).read? "" = none := rfl
    rw [none] at read
    cases read
  | real | flag | day | instant => cases read

theorem plainEmpty {kind : Kind} {cell : Cell} (admits : kind.Admits cell) (finite : ∀ x, cell = .real x → x.isFinite)
    (empty : cell.plain = "") : cell = .text "" := by
  have read := plainReads admits finite
  rw [empty] at read
  exact emptyReads read

end Kind
end TransitTimeline
