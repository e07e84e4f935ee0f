import TransitTimeline.Proofs.Decimal.Shortest
import TransitTimeline.Proofs.Text.Digits
import TransitTimeline.Table.Cell

/-! The plain text of a finite number is read as this number again, whichever layout its digits have. -/
namespace TransitTimeline

namespace Kind
open Text

section Exponent

theorem exponentDigitsAppend (cs : List Char) {n d : Nat} (below : n < exponentLimit) (small : d < 10)
    (front : exponentDigits? cs = some n) : exponentDigits? (cs ++ [d.digitChar]) = some (n * 10 + d) := by
  have filled : cs ≠ [] := by
    rintro rfl
    cases front
  unfold exponentDigits? at *
  rw [if_neg (by simpa using filled)] at front
  rw [if_neg (by simp), List.foldlM_append, front]
  simp [digitCharValue small, below]

theorem exponentDigitsNumber {n : Nat} (small : n < exponentLimit) : exponentDigits? (Nat.toDigits 10 n) = some n := by
  induction n using Nat.strong_induction_on with
  | _ n ih =>
    rcases Nat.lt_or_ge n 10 with one | more
    · rw [Nat.toDigits_of_lt_base one]
      simp [exponentDigits?, digitCharValue one, exponentLimit]
    · have less : n / 10 < n := Nat.div_lt_self (by omega) (by decide)
      have whole : n / 10 * 10 + n % 10 = n := by omega
      rw [Nat.toDigits_of_base_le (by decide) more,
        exponentDigitsAppend _ (less.trans small) (Nat.mod_lt n (by decide)) (ih _ less (less.trans small)), whole]

def powerText (power : Int) : List Char := 'e' :: ((if power < 0 then "-" else "") ++ toString power.natAbs).toList

theorem exponentPower {power : Int} (small : power.natAbs < exponentLimit) : exponent? (powerText power) = some power := by
  have digits : (toString power.natAbs).toList = Nat.toDigits 10 power.natAbs := Nat.toList_repr
  have read := exponentDigitsNumber small
  unfold powerText
  rw [String.toList_append, digits]
  split
  · rename_i below
    have sign : "-".toList = ['-'] := rfl
    simp [sign, exponent?, read, abs_of_neg below]
  · have own : (power.natAbs : Int) = power := by omega
    cases run : Nat.toDigits 10 power.natAbs with
    | nil => exact absurd run Nat.toDigits_ne_nil
    | cons c rest =>
      have digit : c.isDigit := allDigitsNumber power.natAbs c (run ▸ List.mem_cons_self)
      obtain ⟨minus, plus⟩ := digitUnsigned digit
      rw [run] at read
      simp [exponent?, minus, plus, read, own]

end Exponent

section Mantissa
variable {whole fraction tail : List Char}

theorem mantissaPoint (filled : whole ≠ []) (digits : AllDigits whole) (behind : AllDigits fraction) (stops : Stops tail) :
    mantissa? (whole ++ '.' :: (fraction ++ tail)) = some (whole, fraction, tail) := by
  have point : Stops ('.' :: (fraction ++ tail)) := by
    rintro c ⟨⟩
    rfl
  unfold mantissa?
  simp [takeDigitsStops digits point, takeDigitsStops behind stops, filled]

theorem mantissaPlain (filled : whole ≠ []) (digits : AllDigits whole) (stops : Stops tail)
    (other : tail.head? ≠ some '.') : mantissa? (whole ++ tail) = some (whole, [], tail) := by
  unfold mantissa?
  rw [takeDigitsStops digits stops]
  dsimp only
  split
  · exact absurd rfl other
  · simp [filled]

end Mantissa

section Real
variable {whole fraction tail : List Char} {negative : Bool} {exponent : Int}

theorem lowerDigit {c : Char} (digit : c.isDigit) : c.toLower = c := by
  have bounds := TripId.digitBounds digit
  have small : ¬('A'.val ≤ c.val ∧ c.val ≤ 'Z'.val) := by
    rw [UInt32.le_iff_toNat_le]
    show ¬(65 ≤ c.toNat ∧ _)
    omega
  exact dif_neg small

theorem realOfDigits (negative : Bool) {cs : List Char} {c : Char} (digit : c.isDigit)
    (parts : mantissa? (c :: cs) = some (whole, fraction, tail)) (power : exponent? tail = some exponent)
    (filled : whole ++ fraction ≠ []) (digits : AllDigits (whole ++ fraction)) :
    realOf negative (c :: cs) = some
      (Decimal.toBinary ⟨negative, Nat.ofDigitChars 10 (whole ++ fraction) 0, exponent - fraction.length⟩) := by
  have word {w : String} {d : Char} {ds : List Char} (own : w.toList = d :: ds) (letter : d.isDigit = false) :
      String.ofList ((c :: cs).map Char.toLower) ≠ w := by
    rintro rfl
    rw [String.toList_ofList, List.map_cons, lowerDigit digit] at own
    rw [← (List.cons.inj own).1, digit] at letter
    cases letter
  have inf := word (w := "inf") rfl rfl
  have infinity := word (w := "infinity") rfl rfl
  have nan := word (w := "nan") rfl rfl
  unfold realOf
  dsimp only
  rw [if_neg (not_or.mpr ⟨inf, infinity⟩), if_neg nan, parts]
  simp [power, digitsValue filled digits]

def ReadsAs (negative : Bool) (body : List Char) (v : ℚ) : Prop := ∃ (digits : Nat) (exponent : Int),
  (∃ c ∈ body.head?, c.isDigit) ∧ realOf negative body = some (Decimal.toBinary ⟨negative, digits, exponent⟩) ∧
    (digits : ℚ) * 10 ^ exponent = v ∧ digits < 2 ^ 64

theorem readsPoint (negative : Bool) (filled : whole ≠ []) (digits : AllDigits (whole ++ fraction))
    (power : exponent? tail = some exponent) (stops : Stops tail)
    (few : Nat.ofDigitChars 10 (whole ++ fraction) 0 < 2 ^ 64) :
    ReadsAs negative (whole ++ '.' :: (fraction ++ tail))
      (Nat.ofDigitChars 10 (whole ++ fraction) 0 * 10 ^ (exponent - fraction.length)) := by
  obtain ⟨front, behind⟩ := List.forall_mem_append.mp digits
  have parts := mantissaPoint filled front behind stops
  cases whole with
  | nil => exact absurd rfl filled
  | cons c whole =>
    have digit := front c List.mem_cons_self
    exact ⟨_, _, ⟨c, rfl, digit⟩, realOfDigits negative digit parts power (by simp) digits, rfl, few⟩

theorem readsPlain (negative : Bool) (filled : whole ≠ []) (digits : AllDigits whole) (power : exponent? tail = some exponent)
    (stops : Stops tail) (other : tail.head? ≠ some '.') (few : Nat.ofDigitChars 10 whole 0 < 2 ^ 64) :
    ReadsAs negative (whole ++ tail) (Nat.ofDigitChars 10 whole 0 * 10 ^ exponent) := by
  have parts := mantissaPlain filled digits stops other
  cases whole with
  | nil => exact absurd rfl filled
  | cons c whole =>
    have digit := digits c List.mem_cons_self
    have read := realOfDigits negative digit parts power (by simp) (by rwa [List.append_nil])
    rw [List.append_nil, List.length_nil, Nat.cast_zero, Int.sub_zero] at read
    exact ⟨_, _, ⟨c, rfl, digit⟩, read, rfl, few⟩

theorem ReadsAs.signed {body : List Char} {v : ℚ} (reads : ReadsAs negative body v) : ∃ (digits : Nat) (exponent : Int),
    real? ((if negative then "-" else "") ++ String.ofList body).toList =
      some (Decimal.toBinary ⟨negative, digits, exponent⟩) ∧ (digits : ℚ) * 10 ^ exponent = v ∧ digits < 2 ^ 64 := by
  obtain ⟨digits, exponent, ⟨c, first, digit⟩, read, value, few⟩ := reads
  refine ⟨digits, exponent, ?_, value, few⟩
  rw [String.toList_append, String.toList_ofList]
  cases negative with
  | true => exact read
  | false =>
    cases body with
    | nil => cases first
    | cons d body =>
      obtain rfl : d = c := Option.some.inj first
      obtain ⟨minus, plus⟩ := digitUnsigned digit
      have none : (if false = true then "-" else "").toList = [] := rfl
      rw [none, List.nil_append, ← read]
      simp [real?, minus, plus]

section Layouts
variable {d : Decimal}

theorem stopsNil : Stops [] := nofun

theorem noPower : exponent? [] = some 0 := rfl

theorem stopsPower (power : Int) : Stops (powerText power) := by
  rintro c ⟨⟩
  rfl

theorem readsWhole (exponent : Nat) (short : (Nat.toDigits 10 d.digits).length + exponent ≤ 16)
    (own : d.exponent = exponent) :
    ReadsAs negative (Nat.toDigits 10 d.digits ++ Decimal.zeros exponent ++ ".0".toList) (d.digits * 10 ^ d.exponent) := by
  have value : Nat.ofDigitChars 10 (Nat.toDigits 10 d.digits ++ Decimal.zeros exponent ++ ['0']) 0 =
      d.digits * 10 ^ exponent * 10 := by
    rw [Nat.ofDigitChars_append, Nat.ofDigitChars_append, Nat.ofDigitChars_ten_toDigits, Decimal.zeros,
      Nat.ofDigitChars_replicate_zero, Nat.ofDigitChars_cons, Nat.ofDigitChars_nil]
    simp
    ring
  have digits : AllDigits (Nat.toDigits 10 d.digits ++ Decimal.zeros exponent ++ ['0']) :=
    allDigitsAppend (allDigitsAppend (allDigitsNumber _) (allDigitsZeros _)) (allDigitsZeros 1)
  have small : d.digits < 10 ^ (Nat.toDigits 10 d.digits).length :=
    (Nat.length_toDigits_le_iff (by decide) Nat.length_toDigits_pos).mp (Nat.le_refl _)
  have few : d.digits * 10 ^ exponent * 10 < 2 ^ 64 := by
    calc d.digits * 10 ^ exponent * 10 < 10 ^ (Nat.toDigits 10 d.digits).length * 10 ^ exponent * 10 := by gcongr
      _ = 10 ^ ((Nat.toDigits 10 d.digits).length + exponent + 1) := by rw [Nat.pow_succ, Nat.pow_add]
      _ ≤ 10 ^ 17 := Nat.pow_le_pow_right (by decide) (by omega)
      _ < 2 ^ 64 := by decide
  have filled : Nat.toDigits 10 d.digits ++ Decimal.zeros exponent ≠ [] :=
    List.append_ne_nil_of_left_ne_nil Nat.toDigits_ne_nil _
  have read := readsPoint negative filled digits noPower stopsNil (by rwa [value])
  rw [value] at read
  have same : ((d.digits * 10 ^ exponent * 10 : Nat) : ℚ) * 10 ^ ((0 : Int) - (['0'].length : Nat)) =
      d.digits * 10 ^ d.exponent := by
    rw [own]
    norm_num
    ring
  rw [same] at read
  exact read

theorem readsInside {front : Nat} (inside : 0 < front) (few : d.digits < 2 ^ 64)
    (own : ((Nat.toDigits 10 d.digits).drop front).length = -d.exponent) :
    ReadsAs negative ((Nat.toDigits 10 d.digits).take front ++ '.' :: (Nat.toDigits 10 d.digits).drop front)
      (d.digits * 10 ^ d.exponent) := by
  have whole : (Nat.toDigits 10 d.digits).take front ++ (Nat.toDigits 10 d.digits).drop front = Nat.toDigits 10 d.digits :=
    List.take_append_drop _ _
  have filled : (Nat.toDigits 10 d.digits).take front ≠ [] := by
    rw [Ne, List.take_eq_nil_iff, not_or]
    exact ⟨by omega, Nat.toDigits_ne_nil⟩
  have read := readsPoint negative filled (by rw [whole]; exact allDigitsNumber _) noPower stopsNil
    (by rwa [whole, Nat.ofDigitChars_ten_toDigits])
  rw [whole, Nat.ofDigitChars_ten_toDigits, own, List.append_nil, Int.zero_sub, Int.neg_neg] at read
  exact read

theorem readsSmall {lead : Nat} (few : d.digits < 2 ^ 64)
    (own : (lead : Int) + (Nat.toDigits 10 d.digits).length = -d.exponent) :
    ReadsAs negative ("0.".toList ++ Decimal.zeros lead ++ Nat.toDigits 10 d.digits) (d.digits * 10 ^ d.exponent) := by
  have value : Nat.ofDigitChars 10 (['0'] ++ (Decimal.zeros lead ++ Nat.toDigits 10 d.digits)) 0 = d.digits := by
    rw [Nat.ofDigitChars_append, Nat.ofDigitChars_append, Nat.ofDigitChars_cons, Nat.ofDigitChars_nil, Decimal.zeros,
      Nat.ofDigitChars_replicate_zero]
    simp
  have digits : AllDigits (['0'] ++ (Decimal.zeros lead ++ Nat.toDigits 10 d.digits)) :=
    allDigitsAppend (allDigitsZeros 1) (allDigitsAppend (allDigitsZeros _) (allDigitsNumber _))
  have read := readsPoint negative (List.cons_ne_nil '0' []) digits noPower stopsNil (by rwa [value])
  have length : ((Decimal.zeros lead ++ Nat.toDigits 10 d.digits).length : Int) = -d.exponent := by
    rw [List.length_append, Decimal.zeros, List.length_replicate, Nat.cast_add, own]
  rw [value, length, Int.zero_sub, Int.neg_neg, List.append_nil] at read
  rw [List.append_assoc]
  exact read

theorem readsPower {lead : Char} {rest : List Char} (run : Nat.toDigits 10 d.digits = lead :: rest) (few : d.digits < 2 ^ 64)
    (small : (d.exponent + rest.length).natAbs < exponentLimit) :
    ReadsAs negative ((if rest = [] then [lead] else lead :: '.' :: rest) ++ powerText (d.exponent + rest.length))
      (d.digits * 10 ^ d.exponent) := by
  have digits : AllDigits (lead :: rest) := run ▸ allDigitsNumber d.digits
  have value : Nat.ofDigitChars 10 (lead :: rest) 0 = d.digits := by rw [← run, Nat.ofDigitChars_ten_toDigits]
  have power := exponentPower small
  have stops := stopsPower (d.exponent + rest.length)
  cases rest with
  | nil =>
    have read := readsPlain negative (List.cons_ne_nil lead []) digits power stops nofun (by rwa [value])
    rw [value, List.length_nil, Nat.cast_zero, Int.add_zero] at read
    rw [List.length_nil, Nat.cast_zero, Int.add_zero]
    exact read
  | cons c rest =>
    have value : Nat.ofDigitChars 10 ([lead] ++ c :: rest) 0 = d.digits := value
    have read := readsPoint negative (List.cons_ne_nil lead []) digits power stops
      (by rwa [value])
    rw [value, Int.add_sub_cancel] at read
    exact read

theorem readsText (few : d.digits < 2 ^ 64) (range : d.exponent.natAbs < 1000) : ∃ (digits : Nat) (exponent : Int),
    real? (d.text Cell.numbers).toList = some (Decimal.toBinary ⟨d.negative, digits, exponent⟩) ∧
      (digits : ℚ) * 10 ^ exponent = d.digits * 10 ^ d.exponent ∧ digits < 2 ^ 64 := by
  unfold Decimal.text
  extract_lets digits point front power body
  refine ReadsAs.signed (v := d.digits * 10 ^ d.exponent) ?_
  have long : digits.length ≤ 20 :=
    (Nat.length_toDigits_le_iff (by decide) (by decide)).mpr (few.trans (by decide))
  have some : 0 < digits.length := Nat.length_toDigits_pos
  have count : (Nat.toDigits 10 d.digits).length = digits.length := rfl
  have last : front ++ 'e' :: ((if power < 0 then "-" else Cell.numbers.positiveExponent) ++ toString power.natAbs).toList =
      front ++ powerText power := rfl
  simp only [body, last]
  split_ifs with zero whole inside small
  · have zeros : AllDigits (['0'] ++ ['0']) := allDigitsZeros 2
    have read := readsPoint d.negative (List.cons_ne_nil '0' []) zeros noPower stopsNil (by decide)
    rw [zero, Nat.cast_zero, zero_mul]
    have none : Nat.ofDigitChars 10 (['0'] ++ ['0']) 0 = 0 := rfl
    rw [none, Nat.cast_zero, zero_mul] at read
    exact read
  · exact readsWhole d.exponent.toNat (by omega) (by omega)
  · refine readsInside (by omega) few ?_
    rw [List.length_drop]
    omega
  · exact readsSmall few (by omega)
  · obtain ⟨lead, rest, run⟩ := List.exists_cons_of_ne_nil (Nat.toDigits_ne_nil (n := d.digits) (b := 10))
    have length : digits.length = rest.length + 1 := by
      rw [← count, run, List.length_cons]
    have own : power = d.exponent + rest.length := by omega
    have first : front = if rest = [] then [lead] else lead :: '.' :: rest := by
      simp only [front, digits, run]
      cases rest <;> rfl
    rw [own, first]
    exact readsPower run few (by unfold exponentLimit; omega)

end Layouts

end Real

end Kind

namespace Binary64
open Decimal

theorem ofMagnitudeOwn (x : Binary64) : ofMagnitude x.isNegative x.magnitude = x := by
  have bits := x.bits.toNat_lt
  have whole : x.magnitude + (if x.isNegative then signBit else 0) = x.bits.toNat := by
    unfold magnitude isNegative signBit
    by_cases high : 9223372036854775808 ≤ x.bits.toNat
    · rw [decide_eq_true high, if_pos rfl]
      omega
    · rw [decide_eq_false high, if_neg (by decide), Nat.mod_eq_of_lt (by omega)]
      rfl
  rw [ofMagnitude, whole, UInt64.ofNat_toNat]

theorem shortestExponent {x : Binary64} (finite : x.isFinite) (some : x.significand ≠ 0) :
    (shortest x).exponent.natAbs < 1000 := by
  obtain ⟨_, few, spans⟩ := shortestSpans finite some
  obtain ⟨low, high⟩ := spansRange finite some spans
  have mono {a b : Int} (lt : (10 : ℚ) ^ a < 10 ^ b) : a < b := (zpow_lt_zpow_iff_right₀ (by norm_num)).mp lt
  have grid : (0 : ℚ) < 10 ^ (shortest x).exponent := zpow_pos (by norm_num) _
  have one : (1 : ℚ) ≤ (shortest x).digits := by
    have positive : (0 : ℚ) < (shortest x).digits :=
      pos_of_mul_pos_left ((zpow_pos (by norm_num) _).trans low) grid.le
    exact_mod_cast positive
  have most : ((shortest x).digits : ℚ) < 10 ^ (20 : Int) := by
    have wide : (shortest x).digits < 10 ^ 20 := few.trans (by decide)
    exact_mod_cast wide
  have upper : (shortest x).exponent < 309 := mono ((le_mul_of_one_le_left grid.le one).trans_lt high)
  have lower : -324 < 20 + (shortest x).exponent := by
    refine mono (low.trans ?_)
    rw [zpow_add₀ (by norm_num)]
    exact mul_lt_mul_of_pos_right most grid
  omega

theorem plainReads {x : Binary64} (finite : x.isFinite) : Kind.real? (Cell.real x).plain.toList = some x := by
  have bounded : x.magnitude < infiniteBits := of_decide_eq_true finite
  have number : x.isNan = false := decide_eq_false (Nat.not_lt.mpr bounded.le)
  have plain : (Cell.real x).plain = (shortest x).text Cell.numbers := by
    rw [Cell.plain, if_neg (by rw [number]; decide), if_pos finite]
  rw [plain]
  by_cases none : x.significand = 0
  · have parts := partsOf finite
    have zero : x.magnitude = 0 := by
      have size : fractionSize = 4503599627370496 := rfl
      have least := parts.normal.resolve_right (by omega)
      rw [← parts.whole, none, least]
      rfl
    have own : shortest x = ⟨x.isNegative, 0, 0⟩ := by rw [shortest, if_pos none]
    have range : (0 : Int).natAbs < 1000 := by decide
    obtain ⟨digits, exponent, read, value, _⟩ := Kind.readsText (d := ⟨x.isNegative, 0, 0⟩) (Nat.two_pow_pos 64) range
    have nothing : digits = 0 := by
      have grid : (10 : ℚ) ^ exponent ≠ 0 := zpow_ne_zero _ (by norm_num)
      rw [Nat.cast_zero, zero_mul] at value
      exact_mod_cast (mul_eq_zero.mp value).resolve_right grid
    rw [own, read, nothing, toBinary, if_pos (.inl rfl), ← zero, ofMagnitudeOwn]
  · obtain ⟨negative, few, spans⟩ := shortestSpans finite none
    obtain ⟨digits, exponent, read, value, short⟩ := Kind.readsText few (shortestExponent finite none)
    rw [read, toBinaryOfSpans finite none short (by rwa [value]), negative, ofMagnitudeOwn]

end Binary64
end TransitTimeline
