import TransitTimeline.Proofs.Calendar
import TransitTimeline.Proofs.TripId
import TransitTimeline.Text.Numeral

/-! Runs of decimal digits, and the numbers that they read as. -/
namespace TransitTimeline.Text
variable {cs run rest : List Char} {c : Char} {n width : Nat}

def AllDigits (cs : List Char) : Prop := ∀ c ∈ cs, c.isDigit

theorem allDigitsAppend (front : AllDigits cs) (back : AllDigits run) : AllDigits (cs ++ run) :=
  List.forall_mem_append.mpr ⟨front, back⟩

theorem allDigitsNumber (n : Nat) : AllDigits (Nat.toDigits 10 n) :=
  fun _ => Nat.isDigit_of_mem_toDigits (by decide) (by decide)

theorem allDigitsZeros (n : Nat) : AllDigits (List.replicate n '0') := by
  intro c member
  rw [(List.mem_replicate.mp member).2]
  rfl

theorem digitValue (digit : c.isDigit) : digit? 10 c = some (c.toNat - 48) := by
  have bounds := TripId.digitBounds digit
  have small : c.toNat - 48 < 10 := by omega
  simp only [digit?, if_pos digit, Option.filter_some, decide_eq_true small, if_true]

theorem digitCharValue (small : n < 10) : digit? 10 n.digitChar = some n := by
  rw [digitValue (TripId.isDigitOf small), Nat.toNat_digitChar_of_lt_ten small, Nat.add_sub_cancel_left]

theorem digitUnsigned (digit : c.isDigit) : c ≠ '-' ∧ c ≠ '+' := by
  constructor
  · rintro rfl
    cases digit
  · rintro rfl
    cases digit

theorem digitsValue (filled : cs ≠ []) (digits : AllDigits cs) : digits? 10 cs = some (Nat.ofDigitChars 10 cs 0) := by
  have values : cs.mapM (digit? 10) = some (cs.map fun c => c.toNat - 48) := by
    clear filled
    induction cs with
    | nil => rfl
    | cons c cs ih =>
      obtain ⟨first, others⟩ := List.forall_mem_cons.mp digits
      rw [List.mapM_cons, digitValue first, ih others]
      rfl
  have horner : horner 10 (cs.map fun c => c.toNat - 48) = Nat.ofDigitChars 10 cs 0 := by
    simp only [horner, Nat.ofDigitChars_eq_foldl, List.foldl_map, Nat.mul_comm]
    rfl
  rw [digitsHorner, if_neg (by simpa using filled), values, Option.map_some, horner]

theorem toDigitsValue (n : Nat) : digits? 10 (Nat.toDigits 10 n) = some n := by
  rw [digitsValue Nat.toDigits_ne_nil (allDigitsNumber n), Nat.ofDigitChars_ten_toDigits]

theorem paddedFilled (width n : Nat) : (padded width n).toList ≠ [] := by
  rw [padded, String.toList_ofList]
  exact List.append_ne_nil_of_right_ne_nil _ Nat.toDigits_ne_nil

theorem paddedAll (width n : Nat) : AllDigits (padded width n).toList := fun _ => Day.paddedDigits

theorem paddedValue (width n : Nat) : digits? 10 (padded width n).toList = some n := by
  rw [digitsValue (paddedFilled width n) (paddedAll width n), Day.paddedNumber]

theorem paddedLengthOf (filled : 0 < width) (small : n < 10 ^ width) : (padded width n).toList.length = width := by
  have few : (Nat.toDigits 10 n).length ≤ width := (Nat.length_toDigits_le_iff (by decide) filled).mpr small
  rw [padded, String.toList_ofList, List.length_append, List.length_replicate, Nat.sub_add_cancel few]

def Stops (rest : List Char) : Prop := ∀ c ∈ rest.head?, c.isDigit = false

theorem takeWhileStops (digits : AllDigits run) (stops : Stops rest) : (run ++ rest).takeWhile Char.isDigit = run := by
  rw [List.takeWhile_append_of_pos digits]
  cases rest with
  | nil => exact List.append_nil run
  | cons c rest =>
    have other : ¬c.isDigit = true := by simp [stops c rfl]
    rw [List.takeWhile_cons_of_neg other, List.append_nil]

theorem takeDigitsStops (digits : AllDigits run) (stops : Stops rest) : takeDigits none (run ++ rest) = (run, rest) := by
  simp only [takeDigits, takeWhileStops digits stops, List.drop_left]

theorem takeDigitsExactly (digits : AllDigits run) (rest : List Char) :
    takeDigits (some run.length) (run ++ rest) = (run, rest) := by
  have taken : ((run ++ rest).takeWhile Char.isDigit).take run.length = run := by
    rw [List.takeWhile_append_of_pos digits, List.take_left]
  simp only [takeDigits, taken, List.drop_left]

end TransitTimeline.Text
