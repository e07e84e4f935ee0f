import TransitTimeline.Proofs.Decimal.Nearest

/-! The search for the shortest decimal finds one: on the grid of the seventeenth digit at the latest a neighbour of the
number lies in its interval. -/
namespace TransitTimeline.Decimal
open Binary64

section Points
variable {i : Interval} {exponent : Int} {digits n : Nat}

theorem gridFactorPositive (i : Interval) (exponent : Int) : 0 < i.gridFactor exponent :=
  Nat.mul_pos (Nat.pow_pos (by decide)) (Nat.pow_pos (by decide))

theorem pointFactorPositive (i : Interval) (exponent : Int) : 0 < i.pointFactor exponent :=
  Nat.mul_pos (Nat.pow_pos (by decide)) (Nat.pow_pos (by decide))

theorem factorRatio (i : Interval) (exponent : Int) :
    (i.pointFactor exponent : ℚ) * 10 ^ exponent = 2 ^ i.scale * i.gridFactor exponent := by
  have ten : (10 : ℚ) ≠ 0 := by norm_num
  simp only [Interval.pointFactor, Interval.gridFactor, Nat.pow_eq, Nat.cast_mul, Nat.cast_pow, Nat.cast_ofNat]
  rw [powerParts ten exponent, powerParts two_ne_zero i.scale]
  field_simp

/- Points of the interval and of the grid are multiples of one number, so they compare as what they stand for. -/
def common (i : Interval) (exponent : Int) : ℚ := i.pointFactor exponent / 2 ^ i.scale

theorem commonPositive (i : Interval) (exponent : Int) : 0 < common i exponent :=
  div_pos (by exact_mod_cast pointFactorPositive i exponent) (zpow_pos two_pos _)

theorem pointValue (n : Nat) :
    ((n * i.pointFactor exponent : Nat) : ℚ) = common i exponent * (n * 2 ^ i.scale) := by
  have unit : (2 : ℚ) ^ i.scale ≠ 0 := zpow_ne_zero _ two_ne_zero
  rw [common, Nat.cast_mul]
  field_simp

theorem gridValue (digits : Nat) :
    ((digits * i.gridFactor exponent : Nat) : ℚ) = common i exponent * (digits * 10 ^ exponent) := by
  have unit : (2 : ℚ) ^ i.scale ≠ 0 := zpow_ne_zero _ two_ne_zero
  rw [common, Nat.cast_mul, div_mul_eq_mul_div, eq_div_iff unit]
  linear_combination (-(digits : ℚ)) * factorRatio i exponent

theorem pointLe : n * i.pointFactor exponent ≤ digits * i.gridFactor exponent ↔
    (n : ℚ) * 2 ^ i.scale ≤ digits * 10 ^ exponent := by
  rw [← Nat.cast_le (α := ℚ), pointValue, gridValue, mul_le_mul_iff_of_pos_left (commonPositive i exponent)]

theorem gridLe : digits * i.gridFactor exponent ≤ n * i.pointFactor exponent ↔
    (digits : ℚ) * 10 ^ exponent ≤ n * 2 ^ i.scale := by
  rw [← Nat.cast_le (α := ℚ), pointValue, gridValue, mul_le_mul_iff_of_pos_left (commonPositive i exponent)]

theorem holdsSpans (holds : i.holds exponent digits) : i.Spans (digits * 10 ^ exponent) := by
  unfold Interval.holds at holds
  dsimp only at holds
  split at holds
  · rename_i closed
    simp only [Bool.and_eq_true, decide_eq_true_eq, pointLe, gridLe] at holds
    refine ⟨holds.1, holds.2, ?_⟩
    rw [closed]
    nofun
  · simp only [Bool.and_eq_true, decide_eq_true_eq, ← Nat.not_le, pointLe, gridLe, not_le] at holds
    exact ⟨holds.1.le, holds.2.le, fun _ => holds⟩

theorem holdsInside (low : i.low * i.pointFactor exponent < digits * i.gridFactor exponent)
    (high : digits * i.gridFactor exponent < i.high * i.pointFactor exponent) : i.holds exponent digits := by
  unfold Interval.holds
  simp [low, high, low.le, high.le]

theorem gridPointHolds (found : i.gridPoint? exponent = some digits) : i.holds exponent digits := by
  unfold Interval.gridPoint? at found
  extract_lets unit middle below down up nearer other at found
  split at found
  · rename_i holds
    exact Option.some.inj found ▸ holds
  · split at found
    · rename_i holds
      exact Option.some.inj found ▸ holds
    · cases found

theorem nearerHalf {unit middle below down up nearer : Nat} (start : below * unit + down = middle)
    (ends : middle + up = (below + 1) * unit)
    (own : nearer = if down < up ∨ down = up ∧ below % 2 = 0 then below else below + 1) :
    2 * (nearer * unit) ≤ 2 * middle + unit ∧ 2 * middle ≤ 2 * (nearer * unit) + unit := by
  have next : (below + 1) * unit = below * unit + unit := Nat.succ_mul below unit
  split at own <;> subst own <;> omega

theorem gridPointFound {step : Nat} (low : i.low + step = i.middle) (high : i.middle + step ≤ i.high)
    (fine : i.gridFactor exponent < 2 * (step * i.pointFactor exponent)) : (i.gridPoint? exponent).isSome := by
  have lowEnd : i.low * i.pointFactor exponent + step * i.pointFactor exponent = i.middle * i.pointFactor exponent := by
    rw [← Nat.add_mul, low]
  have highEnd : i.middle * i.pointFactor exponent + step * i.pointFactor exponent ≤ i.high * i.pointFactor exponent := by
    rw [← Nat.add_mul]
    exact Nat.mul_le_mul_right _ high
  unfold Interval.gridPoint?
  extract_lets unit middle below down up nearer other
  have start : below * unit + down = middle := Nat.add_sub_cancel' (Nat.div_mul_le_self middle unit)
  have ends : middle + up = (below + 1) * unit := by
    have beyond : middle < (below + 1) * unit := by
      rw [Nat.mul_comm]
      exact Nat.lt_mul_div_succ middle (gridFactorPositive i exponent)
    exact Nat.add_sub_cancel' beyond.le
  have half : 2 * (nearer * i.gridFactor exponent) ≤ 2 * (i.middle * i.pointFactor exponent) + i.gridFactor exponent ∧
      2 * (i.middle * i.pointFactor exponent) ≤ 2 * (nearer * i.gridFactor exponent) + i.gridFactor exponent :=
    nearerHalf start ends rfl
  clear_value nearer
  have holds : i.holds exponent nearer := holdsInside (by omega) (by omega)
  rw [if_pos holds]
  rfl

end Points

section Leading

theorem tensAbove : ∀ l < 1024, 10 ^ (l * 30103 / 100000) ≤ 10 * 2 ^ l ∧ 2 ^ (l + 1) ≤ 10 ^ (l * 30103 / 100000 + 2) := by
  decide +kernel

theorem tensBelow : ∀ l < 1075, 2 ^ l ≤ 10 ^ ((l * 30103 + 99999) / 100000 + 1) ∧
    10 ^ ((l * 30103 + 99999) / 100000) * 2 ≤ 100 * 2 ^ l := by
  decide +kernel

/- The exponent of ten is guessed out of the one of two, within one. -/
theorem tensGuess {l : Int} (low : -1074 ≤ l) (high : l < 1024) :
    (10 : ℚ) ^ (l * 30103 / 100000 - 1) ≤ 2 ^ l ∧ (2 : ℚ) ^ (l + 1) ≤ 10 ^ (l * 30103 / 100000 + 2) := by
  have ten : (10 : ℚ) ≠ 0 := by norm_num
  rcases Int.le_total 0 l with up | down
  · obtain ⟨n, rfl⟩ := Int.eq_ofNat_of_zero_le up
    obtain ⟨below, above⟩ := tensAbove n (by omega)
    have own : (n : Int) * 30103 / 100000 = (n * 30103 / 100000 : Nat) := by push_cast; rfl
    rw [own]
    generalize n * 30103 / 100000 = g at below above
    constructor
    · rw [zpow_sub_one₀ ten, zpow_natCast, zpow_natCast, ← div_eq_mul_inv, div_le_iff₀ (by norm_num), mul_comm]
      exact_mod_cast below
    · exact_mod_cast above
  · obtain ⟨n, rfl⟩ : ∃ n : Nat, l = -n := ⟨l.natAbs, by omega⟩
    obtain ⟨above, below⟩ := tensBelow n (by omega)
    have own : -(n : Int) * 30103 / 100000 = -((n * 30103 + 99999) / 100000 : Nat) := by omega
    rw [own]
    generalize (n * 30103 + 99999) / 100000 = g at below above
    constructor
    · have shape : -(g : Int) - 1 = -((g + 1 : Nat) : Int) := by push_cast; ring
      rw [shape, zpow_neg, zpow_neg, zpow_natCast, zpow_natCast]
      exact inv_anti₀ (by positivity) (by exact_mod_cast above)
    · rw [zpow_add_one₀ two_ne_zero, zpow_add₀ ten, zpow_neg, zpow_neg, zpow_natCast, zpow_natCast,
        inv_mul_eq_div, inv_mul_eq_div, div_le_div_iff₀ (by positivity) (by positivity)]
      have below : (10 : ℚ) ^ g * 2 ≤ 100 * 2 ^ n := by exact_mod_cast below
      linarith

theorem leadingBounds {i : Interval} (positive : 0 < i.middle) (low : -1074 ≤ (Nat.log2 i.middle : Int) + i.scale)
    (high : (Nat.log2 i.middle : Int) + i.scale < 1024) :
    (10 : ℚ) ^ i.leading ≤ i.middle * 2 ^ i.scale ∧ (i.middle * 2 ^ i.scale : ℚ) < 10 ^ (i.leading + 1) := by
  have unit : (0 : ℚ) < 2 ^ i.scale := zpow_pos two_pos _
  have reaches (e : Int) : i.gridFactor e ≤ i.middle * i.pointFactor e ↔ (10 : ℚ) ^ e ≤ i.middle * 2 ^ i.scale := by
    have one : 1 * i.gridFactor e ≤ i.middle * i.pointFactor e ↔ ((1 : Nat) : ℚ) * 10 ^ e ≤ i.middle * 2 ^ i.scale := gridLe
    rwa [Nat.one_mul, Nat.cast_one, one_mul] at one
  obtain ⟨below, above⟩ := tensGuess low high
  have least : (2 : ℚ) ^ ((Nat.log2 i.middle : Int) + i.scale) ≤ i.middle * 2 ^ i.scale := by
    rw [zpow_add₀ two_ne_zero]
    exact mul_le_mul_of_nonneg_right (logBelow positive) unit.le
  have most : (i.middle * 2 ^ i.scale : ℚ) < 2 ^ ((Nat.log2 i.middle : Int) + i.scale + 1) := by
    rw [Int.add_right_comm, zpow_add₀ two_ne_zero]
    exact mul_lt_mul_of_pos_right (logAbove i.middle) unit
  unfold Interval.leading
  dsimp only
  generalize ((Nat.log2 i.middle : Int) + i.scale) * 30103 / 100000 = guess at *
  simp only [decide_eq_true_eq, reaches]
  split_ifs with second first
  · exact ⟨second, most.trans_le (by rwa [show guess + 1 + 1 = guess + 2 by ring])⟩
  · exact ⟨first, not_le.mp second⟩
  · exact ⟨below.trans least, by rw [Int.sub_add_cancel]; exact not_le.mp first⟩

end Leading

theorem stripZerosValue (fuel digits : Nat) (exponent : Int) :
    ((stripZeros fuel digits exponent).1 : ℚ) * 10 ^ (stripZeros fuel digits exponent).2 = digits * 10 ^ exponent ∧
      (stripZeros fuel digits exponent).1 ≤ digits := by
  induction fuel generalizing digits exponent with
  | zero => exact ⟨rfl, Nat.le_refl _⟩
  | succ fuel ih =>
    unfold stripZeros
    split
    · rename_i more
      obtain ⟨value, less⟩ := ih (digits / 10) (exponent + 1)
      have whole : digits = digits / 10 * 10 := by omega
      refine ⟨?_, by omega⟩
      rw [value, zpow_add_one₀ (by norm_num), ← mul_assoc, mul_right_comm]
      congr 1
      exact_mod_cast whole.symm
    · exact ⟨rfl, Nat.le_refl _⟩

section Search
variable {x : Binary64}

theorem intervalSteps (some : x.significand ≠ 0) :
    (intervalOf x).low + stepBelow x = (intervalOf x).middle ∧ (intervalOf x).middle + stepBelow x ≤ (intervalOf x).high ∧
      0 < (intervalOf x).low := by
  show 4 * x.significand - stepBelow x + stepBelow x = 4 * x.significand ∧
    4 * x.significand + stepBelow x ≤ 4 * x.significand + 2 ∧ 0 < 4 * x.significand - stepBelow x
  have few := stepBelowLe x
  omega

theorem intervalLeading (finite : x.isFinite) (some : x.significand ≠ 0) :
    (10 : ℚ) ^ (intervalOf x).leading ≤ (intervalOf x).middle * 2 ^ (intervalOf x).scale ∧
      ((intervalOf x).middle * 2 ^ (intervalOf x).scale : ℚ) < 10 ^ ((intervalOf x).leading + 1) := by
  obtain ⟨_, least, most, small, _⟩ := partsOf finite
  have middle : (intervalOf x).middle = 4 * x.significand := rfl
  have scale : (intervalOf x).scale = x.scale - 2 := rfl
  have nonzero : 4 * x.significand ≠ 0 := by omega
  have atLeast : 2 ≤ Nat.log2 (4 * x.significand) := (Nat.le_log2 nonzero).mpr (by omega)
  have atMost : Nat.log2 (4 * x.significand) < 55 := (Nat.log2_lt nonzero).mpr (by unfold fractionSize at small; omega)
  apply leadingBounds <;> rw [middle]
  · omega
  all_goals rw [scale]; omega

theorem lastGridFine (finite : x.isFinite) (some : x.significand ≠ 0) :
    (intervalOf x).gridFactor ((intervalOf x).leading - 16) <
      2 * (stepBelow x * (intervalOf x).pointFactor ((intervalOf x).leading - 16)) := by
  obtain ⟨reaches, _⟩ := intervalLeading finite some
  have small := (partsOf finite).small
  have shift : ((10 ^ 16 : Nat) : ℚ) * 10 ^ ((intervalOf x).leading - 16) = 10 ^ (intervalOf x).leading := by
    rw [zpow_sub₀ (by norm_num)]
    norm_num
    ring
  have grid : 10 ^ 16 * (intervalOf x).gridFactor ((intervalOf x).leading - 16) ≤
      4 * x.significand * (intervalOf x).pointFactor ((intervalOf x).leading - 16) := by
    refine gridLe.mpr ?_
    rw [shift]
    exact reaches
  have positive := pointFactorPositive (intervalOf x) ((intervalOf x).leading - 16)
  generalize (intervalOf x).pointFactor _ = point at *
  generalize (intervalOf x).gridFactor _ = unit at *
  unfold stepBelow
  split
  · rename_i power
    rw [power.1] at grid
    unfold fractionSize at grid
    omega
  · have most : 4 * x.significand * point ≤ 4 * (2 * fractionSize) * point :=
      Nat.mul_le_mul_right point (Nat.mul_le_mul_left 4 small.le)
    unfold fractionSize at most
    omega

theorem searchFound (finite : x.isFinite) (some : x.significand ≠ 0) : ∃ (n : Nat) (digits : Nat), n < 17 ∧
    (intervalOf x).holds ((intervalOf x).leading - n) digits ∧
    shortest x = ⟨x.isNegative, (stripZeros 20 digits ((intervalOf x).leading - n)).1,
      (stripZeros 20 digits ((intervalOf x).leading - n)).2⟩ := by
  obtain ⟨low, high, _⟩ := intervalSteps some
  have last : (16 : Nat) ∈ List.range 17 := List.mem_range.mpr (by decide)
  have found : ((List.range 17).findSome? fun (n : Nat) => ((intervalOf x).gridPoint? ((intervalOf x).leading - n)).map
      fun digits => (digits, (intervalOf x).leading - n)).isSome := by
    rw [List.findSome?_isSome_iff]
    refine ⟨16, last, ?_⟩
    rw [Option.isSome_map]
    exact gridPointFound low high (lastGridFine finite some)
  obtain ⟨⟨digits, exponent⟩, first⟩ := Option.isSome_iff_exists.mp found
  obtain ⟨n, member, own⟩ := List.exists_of_findSome?_eq_some first
  obtain ⟨point, grid, same⟩ := Option.map_eq_some_iff.mp own
  obtain ⟨rfl, rfl⟩ := Prod.mk.inj same
  refine ⟨n, point, List.mem_range.mp member, gridPointHolds grid, ?_⟩
  unfold shortest
  rw [if_neg some]
  dsimp only
  rw [first]
  rfl

theorem searchDigits {n digits : Nat} (finite : x.isFinite) (some : x.significand ≠ 0) (few : n < 17)
    (holds : (intervalOf x).holds ((intervalOf x).leading - n) digits) : digits < 2 ^ 64 := by
  obtain ⟨_, below⟩ := intervalLeading finite some
  have spans := (holdsSpans holds).high
  have high : ((intervalOf x).high : ℚ) ≤ 3 / 2 * (intervalOf x).middle := by
    have one : (1 : ℚ) ≤ x.significand := by exact_mod_cast Nat.one_le_iff_ne_zero.mpr some
    show ((4 * x.significand + 2 : Nat) : ℚ) ≤ 3 / 2 * ((4 * x.significand : Nat) : ℚ)
    push_cast
    linarith
  have unit : (0 : ℚ) < 2 ^ (intervalOf x).scale := zpow_pos two_pos _
  have grid : (0 : ℚ) < 10 ^ ((intervalOf x).leading - n) := zpow_pos (by norm_num) _
  have power : (10 : ℚ) ^ ((intervalOf x).leading + 1) = 10 ^ (n + 1) * 10 ^ ((intervalOf x).leading - n) := by
    rw [← zpow_natCast, ← zpow_add₀ (by norm_num)]
    congr 1
    push_cast
    ring
  have bound : (digits : ℚ) < 3 / 2 * 10 ^ (n + 1) := by
    rw [← mul_lt_mul_iff_of_pos_right grid, mul_assoc, ← power]
    calc (digits : ℚ) * 10 ^ ((intervalOf x).leading - n) ≤ (intervalOf x).high * 2 ^ (intervalOf x).scale := spans
      _ ≤ 3 / 2 * (intervalOf x).middle * 2 ^ (intervalOf x).scale := mul_le_mul_of_nonneg_right high unit.le
      _ < 3 / 2 * 10 ^ ((intervalOf x).leading + 1) := by linarith
  have most : (10 : ℚ) ^ (n + 1) ≤ 10 ^ 17 := pow_le_pow_right₀ (by norm_num) few
  have wide : (digits : ℚ) < 2 ^ 64 := by
    refine bound.trans_le ?_
    calc (3 / 2 * 10 ^ (n + 1) : ℚ) ≤ 3 / 2 * 10 ^ 17 := by linarith
      _ ≤ 2 ^ 64 := by norm_num
  exact_mod_cast wide

theorem shortestSpans (finite : x.isFinite) (some : x.significand ≠ 0) :
    (shortest x).negative = x.isNegative ∧ (shortest x).digits < 2 ^ 64 ∧
      (intervalOf x).Spans ((shortest x).digits * 10 ^ (shortest x).exponent) := by
  obtain ⟨n, digits, few, holds, own⟩ := searchFound finite some
  obtain ⟨value, less⟩ := stripZerosValue 20 digits ((intervalOf x).leading - n)
  rw [own]
  refine ⟨rfl, less.trans_lt (searchDigits finite some few holds), ?_⟩
  rw [value]
  exact holdsSpans holds

end Search

section Read
variable {x : Binary64} {d : Decimal}

theorem placesBounds (some : d.digits ≠ 0) (few : d.digits < 2 ^ 64) :
    10 ^ d.places ≤ 10 * d.digits ∧ d.digits < 10 ^ (d.places + 2) := by
  have short : Nat.log2 d.digits < 64 := (Nat.log2_lt some).mpr few
  obtain ⟨below, above⟩ := tensAbove (Nat.log2 d.digits) (by omega)
  have least := Nat.log2_self_le some
  exact ⟨below.trans (Nat.mul_le_mul_left 10 least), Nat.lt_log2_self.trans_le above⟩

theorem spansRange {v : ℚ} (finite : x.isFinite) (some : x.significand ≠ 0) (spans : (intervalOf x).Spans v) :
    (10 : ℚ) ^ (-324 : Int) < v ∧ v < 10 ^ (309 : Int) := by
  obtain ⟨_, least, most, small, _⟩ := partsOf finite
  obtain ⟨_, _, positive⟩ := intervalSteps some
  have scale : (intervalOf x).scale = x.scale - 2 := rfl
  have high : (intervalOf x).high = 4 * x.significand + 2 := rfl
  constructor
  · have tiny : (10 : ℚ) ^ (-324 : Int) < 2 ^ (-1076 : Int) := by
      have powers : 2 ^ 1076 < 10 ^ 324 := by decide +kernel
      have powers : (2 : ℚ) ^ 1076 < 10 ^ 324 := by exact_mod_cast powers
      rw [zpow_neg, zpow_neg]
      exact inv_strictAnti₀ (by positivity) powers
    calc (10 : ℚ) ^ (-324 : Int) < 2 ^ (-1076 : Int) := tiny
      _ ≤ 2 ^ (intervalOf x).scale := zpow_le_zpow_right₀ one_le_two (by omega)
      _ ≤ (intervalOf x).low * 2 ^ (intervalOf x).scale :=
          le_mul_of_one_le_left (zpow_pos two_pos _).le (by exact_mod_cast positive)
      _ ≤ v := spans.low
  · have large : (2 : ℚ) ^ 1024 < 10 ^ 309 := by
      have powers : 2 ^ 1024 < 10 ^ 309 := by decide +kernel
      exact_mod_cast powers
    have wide : (intervalOf x).high ≤ 2 ^ 55 := by
      rw [high]
      unfold fractionSize at small
      omega
    calc v ≤ (intervalOf x).high * 2 ^ (intervalOf x).scale := spans.high
      _ ≤ 2 ^ (55 : Int) * 2 ^ (969 : Int) :=
          mul_le_mul (by exact_mod_cast wide) (zpow_le_zpow_right₀ one_le_two (by omega)) (zpow_pos two_pos _).le
            (by positivity)
      _ = 2 ^ 1024 := by rw [← zpow_add₀ two_ne_zero]; rfl
      _ < 10 ^ 309 := large

theorem toBinaryOfSpans (finite : x.isFinite) (some : x.significand ≠ 0) (few : d.digits < 2 ^ 64)
    (spans : (intervalOf x).Spans (d.digits * 10 ^ d.exponent)) : d.toBinary = ofMagnitude d.negative x.magnitude := by
  have ten : (10 : ℚ) ≠ 0 := by norm_num
  have mono {a b : Int} (lt : (10 : ℚ) ^ a < 10 ^ b) : a < b := (zpow_lt_zpow_iff_right₀ (by norm_num)).mp lt
  have grid : (0 : ℚ) < 10 ^ d.exponent := zpow_pos (by norm_num) _
  obtain ⟨low, high⟩ := spansRange finite some spans
  have nonzero : d.digits ≠ 0 := by
    intro none
    rw [none, Nat.cast_zero, zero_mul] at low
    exact absurd low (not_lt.mpr (zpow_pos (by norm_num) _).le)
  obtain ⟨least, most⟩ := placesBounds nonzero few
  have upper : (d.places : Int) + d.exponent < 310 := by
    refine mono ?_
    calc (10 : ℚ) ^ ((d.places : Int) + d.exponent) = 10 ^ d.places * 10 ^ d.exponent := by
          rw [zpow_add₀ ten, zpow_natCast]
      _ ≤ 10 * d.digits * 10 ^ d.exponent := mul_le_mul_of_nonneg_right (by exact_mod_cast least) grid.le
      _ = 10 * (d.digits * 10 ^ d.exponent) := mul_assoc _ _ _
      _ < 10 * 10 ^ (309 : Int) := mul_lt_mul_of_pos_left high (by norm_num)
      _ = 10 ^ (310 : Int) := (zpow_one_add₀ ten 309).symm
  have lower : -324 < (d.places : Int) + 2 + d.exponent := by
    refine mono (low.trans ?_)
    calc (d.digits * 10 ^ d.exponent : ℚ) < 10 ^ (d.places + 2) * 10 ^ d.exponent :=
          mul_lt_mul_of_pos_right (by exact_mod_cast most) grid
      _ = 10 ^ ((d.places : Int) + 2 + d.exponent) := by
          rw [zpow_add₀ ten, ← zpow_natCast]
          push_cast
          rfl
  have ratio : ((d.digits * Nat.pow 10 d.exponent.toNat : Nat) : ℚ) / (Nat.pow 10 (-d.exponent).toNat : Nat) =
      d.digits * 10 ^ d.exponent := by
    rw [powerParts ten, Nat.pow_eq, Nat.pow_eq]
    push_cast
    rw [mul_div_assoc]
  have positive : 0 < Nat.pow 10 (-d.exponent).toNat := Nat.pow_pos (by decide)
  unfold toBinary
  dsimp only
  rw [if_neg (by omega), if_neg (by omega), nearestOfSpans finite some positive (by rwa [ratio])]

end Read

end TransitTimeline.Decimal
