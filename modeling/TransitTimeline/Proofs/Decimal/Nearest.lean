import Mathlib
import TransitTimeline.Decimal

/-! Every ratio among the points that round to a binary number is read as this number. -/
namespace TransitTimeline
namespace Binary64

theorem powerParts {base : ℚ} (nonzero : base ≠ 0) (exponent : Int) :
    base ^ exponent = base ^ exponent.toNat / base ^ (-exponent).toNat := by
  have parts : exponent = (exponent.toNat : Int) - (-exponent).toNat := by omega
  conv_lhs => rw [parts, zpow_sub₀ nonzero, zpow_natCast, zpow_natCast]

theorem descaleRatio (num den : Nat) (scale : Int) :
    ((descale num den scale).1 : ℚ) / (descale num den scale).2 = num / den / 2 ^ scale := by
  simp only [descale, Nat.pow_eq, Nat.cast_mul, Nat.cast_pow, Nat.cast_ofNat]
  rw [powerParts two_ne_zero scale, div_div_eq_mul_div, mul_comm (num / den : ℚ), mul_div_assoc', div_div,
    mul_comm (num : ℚ)]

theorem descalePositive {num den : Nat} (positive : 0 < den) (scale : Int) : 0 < (descale num den scale).2 :=
  Nat.mul_pos positive (Nat.pow_pos (by decide))

theorem roundOfNat {n d m : Nat} (positive : 0 < d) (low : 2 * m * d ≤ 2 * n + d) (high : 2 * n ≤ 2 * m * d + d)
    (inner : m % 2 = 1 → 2 * m * d < 2 * n + d ∧ 2 * n < 2 * m * d + d) : roundHalfEven n d = m := by
  have whole := Nat.div_add_mod n d
  have rest := Nat.mod_lt n positive
  unfold roundHalfEven
  generalize n / d = q at *
  generalize n % d = r at *
  have above : q ≤ m := by
    by_contra beyond
    have := Nat.mul_le_mul_left d (show m + 1 ≤ q by omega)
    have : d * (m + 1) = m * d + d := by ring
    have : 2 * m * d = 2 * (m * d) := by ring
    omega
  have below : m ≤ q + 1 := by
    by_contra beyond
    have := Nat.mul_le_mul_left d (show q + 2 ≤ m by omega)
    have : d * (q + 2) = d * q + 2 * d := by ring
    have : d * m = m * d := Nat.mul_comm d m
    have : 2 * m * d = 2 * (m * d) := by ring
    omega
  obtain rfl | rfl : m = q ∨ m = q + 1 := by omega
  · have : 2 * m * d = 2 * (d * m) := by ring
    dsimp only
    split
    · rfl
    · split <;> omega
  · have : 2 * (q + 1) * d = 2 * (d * q) + 2 * d := by ring
    dsimp only
    split
    · omega
    · split <;> omega

theorem roundOfRatio {n d m : Nat} (positive : 0 < d) (low : (m : ℚ) - 1 / 2 ≤ n / d) (high : (n / d : ℚ) ≤ m + 1 / 2)
    (inner : m % 2 = 1 → (m : ℚ) - 1 / 2 < n / d ∧ (n / d : ℚ) < m + 1 / 2) : roundHalfEven n d = m := by
  have positive' : (0 : ℚ) < d := by exact_mod_cast positive
  rw [le_div_iff₀ positive'] at low
  rw [div_le_iff₀ positive'] at high
  rw [lt_div_iff₀ positive', div_lt_iff₀ positive'] at inner
  apply roundOfNat positive
  · have : (2 * m * d : ℚ) ≤ 2 * n + d := by linarith
    exact_mod_cast this
  · have : (2 * n : ℚ) ≤ 2 * m * d + d := by linarith
    exact_mod_cast this
  · intro odd
    obtain ⟨low, high⟩ := inner odd
    constructor
    · have : (2 * m * d : ℚ) < 2 * n + d := by linarith
      exact_mod_cast this
    · have : (2 * n : ℚ) < 2 * m * d + d := by linarith
      exact_mod_cast this

section Scale
variable {num den : Nat}

theorem fractionPower : (fractionSize : ℚ) = 2 ^ (52 : Int) := by norm_num [fractionSize]

theorem logBelow {n : Nat} (positive : 0 < n) : (2 : ℚ) ^ (Nat.log2 n : Int) ≤ n := by
  rw [zpow_natCast]
  exact_mod_cast Nat.log2_self_le positive.ne'

theorem logAbove (n : Nat) : (n : ℚ) < 2 ^ ((Nat.log2 n : Int) + 1) := by
  have above : n < 2 ^ (Nat.log2 n + 1) := Nat.lt_log2_self
  have cast : ((Nat.log2 n : Int) + 1) = ((Nat.log2 n + 1 : Nat) : Int) := by push_cast; rfl
  rw [cast, zpow_natCast]
  exact_mod_cast above

theorem guessBounds (some : 0 < num) (positive : 0 < den) {guess : Int}
    (own : guess = (Nat.log2 num : Int) - Nat.log2 den - 52) :
    (2 : ℚ) ^ (guess + 51) < num / den ∧ (num / den : ℚ) < 2 ^ (guess + 53) := by
  have positive' : (0 : ℚ) < den := by exact_mod_cast positive
  have power (e : Int) : (0 : ℚ) < 2 ^ e := zpow_pos two_pos e
  constructor
  · rw [lt_div_iff₀ positive']
    calc (2 : ℚ) ^ (guess + 51) * den < 2 ^ (guess + 51) * 2 ^ ((Nat.log2 den : Int) + 1) :=
          mul_lt_mul_of_pos_left (logAbove den) (power _)
      _ = 2 ^ (Nat.log2 num : Int) := by rw [← zpow_add₀ two_ne_zero]; congr 1; omega
      _ ≤ num := logBelow some
  · rw [div_lt_iff₀ positive']
    calc (num : ℚ) < 2 ^ ((Nat.log2 num : Int) + 1) := logAbove num
      _ = 2 ^ (guess + 53) * 2 ^ (Nat.log2 den : Int) := by rw [← zpow_add₀ two_ne_zero]; congr 1; omega
      _ ≤ 2 ^ (guess + 53) * den := mul_le_mul_of_nonneg_left (logBelow positive) (power _).le

theorem scaleNormal (some : 0 < num) (positive : 0 < den) {scale : Int} (least : -1074 ≤ scale)
    (below : (num / den : ℚ) < 2 ^ (scale + 53)) (normal : scale = -1074 ∨ (2 : ℚ) ^ (scale + 52) ≤ num / den) :
    scaleOf num den = scale := by
  have mono {a b : Int} (lt : (2 : ℚ) ^ a < 2 ^ b) : a < b := (zpow_lt_zpow_iff_right₀ one_lt_two).mp lt
  obtain ⟨low, high⟩ := guessBounds some positive rfl
  unfold scaleOf
  generalize guessed : (Nat.log2 num : Int) - Nat.log2 den - 52 = guess at *
  have split : (descale num den guess).1 < fractionSize * (descale num den guess).2 ↔
      (num / den : ℚ) < 2 ^ (guess + 52) := by
    have wide : (0 : ℚ) < (descale num den guess).2 := by exact_mod_cast descalePositive positive guess
    have unit : (num / den : ℚ) < 2 ^ (guess + 52) ↔ (num / den / 2 ^ guess : ℚ) < fractionSize := by
      rw [div_lt_iff₀ (zpow_pos two_pos guess), fractionPower, ← zpow_add₀ two_ne_zero, Int.add_comm]
    rw [unit, ← descaleRatio, div_lt_iff₀ wide]
    norm_cast
  simp only [split]
  have bounds {r : Int} (front : (2 : ℚ) ^ (r + 52) ≤ num / den) (back : (num / den : ℚ) < 2 ^ (r + 53)) :
      max (-1074) r = scale := by
    have under := mono (front.trans_lt below)
    rcases normal with rfl | normal
    · omega
    · have within := mono (normal.trans_lt back)
      omega
  split_ifs with short
  · have shift : guess - 1 + 53 = guess + 52 := by omega
    have shift' : guess - 1 + 52 = guess + 51 := by omega
    exact bounds (by rw [shift']; exact low.le) (by rw [shift]; exact short)
  · exact bounds (not_lt.mp short) high

end Scale

structure Parts (x : Binary64) : Prop where
  whole : (x.scale + 1074).toNat * fractionSize + x.significand = x.magnitude
  least : -1074 ≤ x.scale
  most : x.scale ≤ 971
  small : x.significand < 2 * fractionSize
  normal : x.scale = -1074 ∨ fractionSize ≤ x.significand

theorem partsOf {x : Binary64} (finite : x.isFinite) : Parts x := by
  have bounded : x.magnitude < 2047 * fractionSize := of_decide_eq_true finite
  have split := Nat.div_add_mod x.magnitude fractionSize
  have rest := Nat.mod_lt x.magnitude (show 0 < fractionSize by decide)
  have steps : x.magnitude / fractionSize < 2047 := Nat.div_lt_of_lt_mul (by rwa [Nat.mul_comm])
  by_cases tiny : x.magnitude < fractionSize
  · have none : x.magnitude / fractionSize = 0 := Nat.div_eq_of_lt tiny
    have scale : x.scale = -1074 := by simp [Binary64.scale, none]
    have significand : x.significand = x.magnitude := by
      simp only [significand, if_pos tiny, Nat.mod_eq_of_lt tiny]
    have exponent : (x.scale + 1074).toNat = 0 := by omega
    refine ⟨?_, ?_, ?_, ?_, .inl scale⟩
    · rw [exponent, Nat.zero_mul, Nat.zero_add, significand]
    all_goals omega
  · have some : 1 ≤ x.magnitude / fractionSize := (Nat.one_le_div_iff (by decide)).mpr (Nat.not_lt.mp tiny)
    have scale : x.scale = (x.magnitude / fractionSize : Nat) - 1075 := by
      rw [Binary64.scale, max_eq_right some]
    have significand : x.significand = x.magnitude % fractionSize + fractionSize := by
      simp only [Binary64.significand, if_neg tiny]
    have exponent : (x.scale + 1074).toNat = x.magnitude / fractionSize - 1 := by omega
    have stairs : (x.magnitude / fractionSize - 1) * fractionSize + fractionSize =
        fractionSize * (x.magnitude / fractionSize) := by
      rw [← Nat.succ_mul, Nat.succ_eq_add_one, Nat.sub_add_cancel some, Nat.mul_comm]
    refine ⟨?_, ?_, ?_, ?_, .inr ?_⟩
    · rw [exponent, significand]
      omega
    all_goals omega

end Binary64

namespace Decimal

structure Interval.Spans (i : Interval) (v : ℚ) : Prop where
  low : i.low * (2 : ℚ) ^ i.scale ≤ v
  high : v ≤ i.high * (2 : ℚ) ^ i.scale
  inner : i.closed = false → i.low * (2 : ℚ) ^ i.scale < v ∧ v < i.high * (2 : ℚ) ^ i.scale

end Decimal

namespace Binary64
open Decimal

variable {x : Binary64} {v : ℚ}

def stepBelow (x : Binary64) : Nat := if x.significand = fractionSize ∧ -1074 < x.scale then 1 else 2

theorem stepBelowLe (x : Binary64) : stepBelow x ≤ 2 := by
  unfold stepBelow
  split <;> omega

structure Around (x : Binary64) (w : ℚ) : Prop where
  low : (x.significand : ℚ) - stepBelow x / 4 ≤ w
  high : w ≤ x.significand + 1 / 2
  inner : x.significand % 2 = 1 → (x.significand : ℚ) - stepBelow x / 4 < w ∧ w < x.significand + 1 / 2

theorem around (some : x.significand ≠ 0) (spans : (intervalOf x).Spans v) : Around x (v / 2 ^ x.scale) := by
  have unit : (0 : ℚ) < 2 ^ x.scale := zpow_pos two_pos _
  have quarter : (2 : ℚ) ^ (intervalOf x).scale = 2 ^ x.scale / 4 := by
    show (2 : ℚ) ^ (x.scale - 2) = _
    rw [zpow_sub₀ two_ne_zero]
    norm_num
  have highEnd : ((intervalOf x).high : ℚ) = 4 * x.significand + 2 := by
    simp [intervalOf]
  have lowEnd : ((intervalOf x).low : ℚ) = 4 * x.significand - stepBelow x := by
    have enough : stepBelow x ≤ 4 * x.significand := (stepBelowLe x).trans (by omega)
    exact Nat.cast_sub enough |>.trans (by push_cast; rfl)
  have closed : (intervalOf x).closed = decide (x.significand % 2 = 0) := rfl
  obtain ⟨low, high, inner⟩ := spans
  rw [highEnd, quarter] at high
  rw [lowEnd, quarter] at low
  rw [highEnd, lowEnd, quarter, closed] at inner
  refine ⟨?_, ?_, ?_⟩
  · rw [le_div_iff₀ unit]
    linarith
  · rw [div_le_iff₀ unit]
    linarith
  · intro odd
    obtain ⟨low, high⟩ := inner (decide_eq_false (by omega))
    rw [lt_div_iff₀ unit, div_lt_iff₀ unit]
    exact ⟨by linarith, by linarith⟩

theorem nearestAt {num den m : Nat} {scale : Int} (finite : x.isFinite) (own : scaleOf num den = scale)
    (rounds : roundHalfEven (descale num den scale).1 (descale num den scale).2 = m)
    (whole : (scale + 1074).toNat * fractionSize + m = x.magnitude) : nearest num den = x.magnitude := by
  have bounded : x.magnitude < infiniteBits := of_decide_eq_true finite
  unfold nearest
  rw [own]
  dsimp only
  rw [rounds, whole, Nat.min_eq_left bounded.le]

section Spanned
variable {num den : Nat}

theorem placesPower (x : Binary64) (e : Int) : (2 : ℚ) ^ (x.scale + e) = 2 ^ e * 2 ^ x.scale := by
  rw [zpow_add₀ two_ne_zero, mul_comm]

theorem spannedPositive (some : x.significand ≠ 0) (points : Around x (num / den / 2 ^ x.scale)) : 0 < num := by
  have unit : (0 : ℚ) < 2 ^ x.scale := zpow_pos two_pos _
  have steps : (stepBelow x : ℚ) ≤ 2 := by exact_mod_cast stepBelowLe x
  have one : (1 : ℚ) ≤ x.significand := by exact_mod_cast Nat.one_le_iff_ne_zero.mpr some
  have low := points.low
  have ratio : (0 : ℚ) < num / den := (div_pos_iff_of_pos_right unit).mp (by linarith)
  rcases Nat.eq_zero_or_pos num with rfl | more
  · simp at ratio
  · exact more

theorem nearestOwn (finite : x.isFinite) (numerator : 0 < num) (positive : 0 < den)
    (points : Around x (num / den / 2 ^ x.scale)) (own : x.scale = -1074 ∨ (2 : ℚ) ^ (x.scale + 52) ≤ num / den) :
    nearest num den = x.magnitude := by
  obtain ⟨whole, least, _, small, _⟩ := partsOf finite
  obtain ⟨low, high, inner⟩ := points
  have steps : (stepBelow x : ℚ) ≤ 2 := by exact_mod_cast stepBelowLe x
  have atMost : (x.significand : ℚ) + 1 ≤ 2 * fractionSize := by exact_mod_cast small
  have below : (num / den : ℚ) < 2 ^ (x.scale + 53) := by
    rw [placesPower, ← div_lt_iff₀ (zpow_pos two_pos _), show (2 : ℚ) ^ (53 : Int) = 2 * 2 ^ (52 : Int) by norm_num,
      ← fractionPower]
    linarith
  refine nearestAt finite (scaleNormal numerator positive least below own) ?_ whole
  apply roundOfRatio (descalePositive positive _) <;> rw [descaleRatio]
  · linarith
  · exact high
  · intro odd
    obtain ⟨low, high⟩ := inner odd
    exact ⟨by linarith, high⟩

theorem nearestBefore (finite : x.isFinite) (numerator : 0 < num) (positive : 0 < den)
    (points : Around x (num / den / 2 ^ x.scale)) (higher : x.scale ≠ -1074)
    (under : (num / den : ℚ) < 2 ^ (x.scale + 52)) : nearest num den = x.magnitude := by
  obtain ⟨whole, least, _, _, normal⟩ := partsOf finite
  have unit : (0 : ℚ) < 2 ^ x.scale := zpow_pos two_pos _
  have low := points.low
  have steps : (stepBelow x : ℚ) ≤ 2 := by exact_mod_cast stepBelowLe x
  rw [placesPower, ← div_lt_iff₀ unit, ← fractionPower] at under
  have power : x.significand = fractionSize := by
    have atLeast := normal.resolve_left higher
    have atMost : (x.significand : ℚ) < fractionSize + 1 := by linarith
    have atMost : x.significand < fractionSize + 1 := by exact_mod_cast atMost
    omega
  have step : stepBelow x = 1 := if_pos ⟨power, by omega⟩
  rw [power, step] at low
  have halved : (2 : ℚ) ^ (x.scale - 1) = 2 ^ x.scale / 2 := by rw [zpow_sub_one₀ two_ne_zero, div_eq_mul_inv]
  have scale : scaleOf num den = x.scale - 1 := by
    refine scaleNormal numerator positive (by omega) ?_ (.inr ?_)
    · rw [show x.scale - 1 + 53 = x.scale + 52 by omega, placesPower, ← div_lt_iff₀ unit, ← fractionPower]
      exact under
    · rw [show x.scale - 1 + 52 = x.scale + 51 by omega, placesPower, ← le_div_iff₀ unit]
      refine le_trans ?_ low
      norm_num [fractionSize]
  refine nearestAt (m := 2 * fractionSize) finite scale ?_ ?_
  · apply roundOfRatio (descalePositive positive _) <;> rw [descaleRatio, halved, div_div_eq_mul_div, mul_div_right_comm]
    · push_cast at low ⊢
      linarith
    · push_cast
      linarith
    · intro odd
      exact absurd odd (by decide)
  · have less : (x.scale + 1074).toNat = (x.scale - 1 + 1074).toNat + 1 := by omega
    rw [← whole, power, less]
    ring

theorem nearestOfSpans (finite : x.isFinite) (some : x.significand ≠ 0) (positive : 0 < den)
    (spans : (intervalOf x).Spans (num / den)) : nearest num den = x.magnitude := by
  have points := around some spans
  have numerator := spannedPositive some points
  by_cases own : x.scale = -1074 ∨ (2 : ℚ) ^ (x.scale + 52) ≤ num / den
  · exact nearestOwn finite numerator positive points own
  · obtain ⟨higher, under⟩ := not_or.mp own
    exact nearestBefore finite numerator positive points higher (not_le.mp under)

end Spanned

end Binary64
end TransitTimeline
