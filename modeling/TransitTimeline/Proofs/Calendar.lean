import Mathlib.Data.List.Basic
import TransitTimeline.Calendar

/-! A day is known by its text: year, month and day of the month come from no other day, and no other numbers are written
the same. -/
namespace TransitTimeline

section Cycle

/- Days and years of a century are counted on from its start; `g` leap days are left out, `k` came before the year `y`. -/
theorem yearOfCentury {e s g y k : Nat} (early : e ≤ 3) (inside : s < 36524) (leaps : 1460 * g ≤ 24 * e + s)
    (next : 24 * e + s < 1460 * g + 1460) (begun : 365 * y ≤ s - g) (ends : s - g < 365 * y + 365) (cycles : 4 * k ≤ y)
    (last : y < 4 * k + 4) : y ≤ 99 ∧ 365 * y + k ≤ s ∧ s ≤ 365 * y + k + 366 := by
  have few : g ≤ 25 := by omega
  have before : k ≤ g := by omega
  exact ⟨by omega, by omega, by omega⟩

theorem yearOfCycle {r y : Nat} (inside : r < 146097) (year : y = (r - r / 1460 + r / 36524 - r / 146096) / 365) :
    y ≤ 399 ∧ 365 * y + y / 4 - y / 100 ≤ r ∧ r - (365 * y + y / 4 - y / 100) ≤ 366 := by
  by_cases last : r = 146096
  · subst last
    subst year
    decide
  · have none : r / 146096 = 0 := by omega
    rw [none] at year
    generalize century : r / 36524 = e at year
    generalize leaps : r / 1460 = g at year
    have late := yearOfCentury (e := e) (s := r - 36524 * e) (g := g - 25 * e) (y := y - 100 * e) (k := y / 4 - 25 * e)
      (by omega) (by omega) (by omega) (by omega) (by omega) (by omega) (by omega) (by omega)
    omega

theorem monthOfYear {n m : Nat} (inside : n ≤ 366) (month : m = (5 * n + 2) / 153) :
    m ≤ 11 ∧ (153 * m + 2) / 5 ≤ n ∧ n - (153 * m + 2) / 5 ≤ 31 := by
  omega

end Cycle

namespace Day

def monthOf (m : Nat) : Nat := if m < 10 then m + 3 else m - 9

theorem civilParts (d : Day) : ∃ (cycle : Int) (y m n : Nat), y ≤ 399 ∧ m ≤ 11 ∧ (153 * m + 2) / 5 ≤ n ∧
    n - (153 * m + 2) / 5 ≤ 31 ∧ d.number = cycle * 146097 + (365 * y + y / 4 - y / 100 + n : Nat) - 719468 ∧
    d.civil = ⟨cycle * 400 + y + (if monthOf m ≤ 2 then 1 else 0), monthOf m, n - (153 * m + 2) / 5 + 1⟩ := by
  have small : ((d.number + 719468) % 146097).toNat < 146097 := by omega
  have whole : d.number = (d.number + 719468) / 146097 * 146097 + ((d.number + 719468) % 146097).toNat - 719468 := by omega
  obtain ⟨few, begun, short⟩ := yearOfCycle small rfl
  obtain ⟨late, before, days⟩ := monthOfYear short rfl
  refine ⟨(d.number + 719468) / 146097, _, _, _, few, late, before, days, ?_, rfl⟩
  rw [Nat.add_sub_cancel' begun]
  exact whole

theorem civilBounds (d : Day) : d.civil.month < 100 ∧ d.civil.day < 100 := by
  obtain ⟨cycle, y, m, n, _, late, _, days, _, parts⟩ := d.civilParts
  rw [parts]
  constructor
  · show monthOf m < 100
    unfold monthOf
    split <;> omega
  · show n - (153 * m + 2) / 5 + 1 < 100
    omega

theorem civilNumber (d : Day) : d.civil.number = d.number := by
  obtain ⟨cycle, y, m, n, few, late, before, _, whole, parts⟩ := d.civilParts
  rw [parts, whole]
  have march : Civil.marchYear ⟨cycle * 400 + y + (if monthOf m ≤ 2 then 1 else 0), monthOf m, n - (153 * m + 2) / 5 + 1⟩ =
      cycle * 400 + y := by
    unfold Civil.marchYear
    split <;> simp_all
  have days : Civil.daysFromMarch ⟨cycle * 400 + y + (if monthOf m ≤ 2 then 1 else 0), monthOf m, n - (153 * m + 2) / 5 + 1⟩ =
      n := by
    have place : (monthOf m + 9) % 12 = m := by
      unfold monthOf
      split <;> omega
    unfold Civil.daysFromMarch
    dsimp only
    rw [place]
    omega
  have cycles : (cycle * 400 + (y : Int)) / 400 = cycle := by omega
  have years : (cycle * 400 + (y : Int)) % 400 = y := by omega
  simp only [Civil.number, march, days, cycles, years]
  omega

theorem paddedLength {n : Nat} (small : n < 100) : (Text.padded 2 n).toList.length = 2 := by
  unfold Text.padded
  have few : (Nat.toDigits 10 n).length ≤ 2 := (Nat.length_toDigits_le_iff (by decide) (by decide)).mpr (by simpa using small)
  simp only [String.toList_ofList, List.length_append, List.length_replicate]
  omega

theorem paddedNumber (width n : Nat) : Nat.ofDigitChars 10 (Text.padded width n).toList 0 = n := by
  unfold Text.padded
  simp [Nat.ofDigitChars_append]

theorem paddedInjective {width n m : Nat} (same : Text.padded width n = Text.padded width m) : n = m := by
  rw [← paddedNumber width n, same, paddedNumber]

theorem paddedDigits {width n : Nat} {c : Char} (member : c ∈ (Text.padded width n).toList) : c.isDigit := by
  rw [Text.padded, String.toList_ofList] at member
  rcases List.mem_append.mp member with zero | digit
  · rw [(List.mem_replicate.mp zero).2]
    rfl
  · exact Nat.isDigit_of_mem_toDigits (b := 10) (by decide) (by decide) digit

def yearSign (year : Int) : String := if 0 ≤ year ∧ year ≤ 9999 then "" else if year < 0 then "-" else "+"

theorem yearTextSign (year : Int) : yearText year = yearSign year ++ Text.padded 4 year.natAbs := by
  unfold yearText yearSign
  split
  · rename_i four
    rw [String.empty_append, show year.toNat = year.natAbs by omega]
  · rfl

theorem yearInjective {a b : Int} (same : yearText a = yearText b) : a = b := by
  have signOf (year : Int) : (yearText year).toList.takeWhile (fun c => !c.isDigit) = (yearSign year).toList := by
    have none : (Text.padded 4 year.natAbs).toList.takeWhile (fun c => !c.isDigit) = [] := by
      cases digits : (Text.padded 4 year.natAbs).toList with
      | nil => rfl
      | cons c rest =>
        have first : c ∈ (Text.padded 4 year.natAbs).toList := digits ▸ List.mem_cons_self
        have digit := paddedDigits first
        simp [digit]
    have whole : ∀ c ∈ (yearSign year).toList, !c.isDigit := by
      unfold yearSign
      split
      · simp
      · split <;> simp
    rw [yearTextSign, String.toList_append, List.takeWhile_append_of_pos whole, none, List.append_nil]
  have signs : (yearSign a).toList = (yearSign b).toList := by rw [← signOf, ← signOf, same]
  have size : a.natAbs = b.natAbs := by
    have lists := congrArg String.toList same
    rw [yearTextSign, yearTextSign, String.toList_append, String.toList_append, signs] at lists
    exact paddedInjective (String.toList_inj.mp (List.append_cancel_left lists))
  unfold yearSign at signs
  repeat' split at signs
  all_goals first | omega | simp at signs

theorem textInjective {a b : Day} (same : a.text = b.text) : a = b := by
  have lists := congrArg String.toList same
  simp only [text, textWith, String.toList_append] at lists
  obtain ⟨monthA, dayA⟩ := a.civilBounds
  obtain ⟨monthB, dayB⟩ := b.civilBounds
  obtain ⟨lists, days⟩ := List.append_inj' lists (by rw [paddedLength dayA, paddedLength dayB])
  obtain ⟨lists, _⟩ := List.append_inj' lists rfl
  obtain ⟨lists, months⟩ := List.append_inj' lists (by rw [paddedLength monthA, paddedLength monthB])
  obtain ⟨years, _⟩ := List.append_inj' lists rfl
  have civil : a.civil = b.civil := by
    have year := yearInjective (String.toList_inj.mp years)
    have month := paddedInjective (String.toList_inj.mp months)
    have day := paddedInjective (String.toList_inj.mp days)
    cases h : a.civil
    cases k : b.civil
    simp_all
  have number : a.number = b.number := by rw [← civilNumber a, civil, civilNumber]
  cases a
  cases b
  exact congrArg Day.mk number

end Day

end TransitTimeline
