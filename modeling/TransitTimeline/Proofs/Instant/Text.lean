import TransitTimeline.Proofs.Instant
import TransitTimeline.Proofs.Text.Digits

/-! Dates of the calendar and instants are read back out of their texts. -/
namespace TransitTimeline

namespace Day

section Year

theorem cycleParts {r : Nat} (inside : r < 146096) :
    ∃ e c t, e ≤ 3 ∧ t ≤ 1460 ∧ 1461 * c + t < 36524 ∧ r = 36524 * e + 1461 * c + t :=
  ⟨r / 36524, r % 36524 / 1461, r % 36524 % 1461, by omega, by omega, by omega, by omega⟩

theorem yearOfParts {e c t : Nat} (early : e ≤ 3) (few : t ≤ 1460) (inside : 1461 * c + t < 36524) :
    (36524 * e + 1461 * c + t - (36524 * e + 1461 * c + t) / 1460 + e) / 365 = 100 * e + 4 * c + min (t / 365) 3 := by
  have late : c ≤ 24 := by omega
  have leaps : (36524 * e + 1461 * c + t) / 1460 = 25 * e + c + (24 * e + c + t) / 1460 := by omega
  have bounded : 24 * e + c + t < 2920 := by omega
  rcases Nat.lt_or_ge (24 * e + c + t) 1460 with short | long
  · have none : (24 * e + c + t) / 1460 = 0 := by omega
    omega
  · have one : (24 * e + c + t) / 1460 = 1 := by omega
    omega

/- A year that begins in March has 365 days, and one more when it ends in a leap year. -/
theorem yearEnds {r y : Nat} (inside : r < 146097) (year : y = (r - r / 1460 + r / 36524 - r / 146096) / 365) :
    365 * y + y / 4 - y / 100 ≤ r ∧ (r - (365 * y + y / 4 - y / 100) ≤ 364 ∨
      r - (365 * y + y / 4 - y / 100) = 365 ∧ y % 4 = 3 ∧ (y % 100 ≠ 99 ∨ y = 399)) := by
  by_cases last : r = 146096
  · subst last
    subst year
    decide
  · obtain ⟨e, c, t, early, few, short, rfl⟩ := cycleParts (by omega : r < 146096)
    have none : (36524 * e + 1461 * c + t) / 146096 = 0 := by omega
    have century : (36524 * e + 1461 * c + t) / 36524 = e := by omega
    rw [none, century, Nat.sub_zero, yearOfParts early few short] at year
    have late : c ≤ 24 := by omega
    generalize place : min (t / 365) 3 = k at year
    have hundreds : y / 100 = e := by omega
    have fours : y / 4 = 25 * e + c := by omega
    rw [hundreds, fours]
    omega

end Year

section Valid

theorem monthEnds {n m : Nat} (inside : n ≤ 365) (month : m = (5 * n + 2) / 153) :
    m ≤ 11 ∧ (153 * m + 2) / 5 ≤ n ∧ n < (153 * (m + 1) + 2) / 5 := by
  omega

theorem marchLength {year : Int} {n m : Nat} (last : m ≤ 11) (begun : (153 * m + 2) / 5 ≤ n) (ends : n < (153 * (m + 1) + 2) / 5)
    (short : n ≤ 364 ∨ n = 365 ∧ Civil.isLeap year) : n - (153 * m + 2) / 5 + 1 ≤ Civil.monthLength year (monthOf m) := by
  by_cases winter : m = 11
  · subst winter
    show n - 337 + 1 ≤ if Civil.isLeap year then 29 else 28
    rcases short with early | ⟨late, leap⟩
    · split <;> omega
    · rw [if_pos leap]
      omega
  · have earlier : m ≤ 10 := by omega
    have length : (153 * (m + 1) + 2) / 5 - (153 * m + 2) / 5 ≤ Civil.monthLength year (monthOf m) := by
      interval_cases m <;> simp [monthOf, Civil.monthLength]
    omega

theorem civilEnds (d : Day) : ∃ (cycle : Int) (y m n : Nat), y ≤ 399 ∧ m ≤ 11 ∧ (153 * m + 2) / 5 ≤ n ∧
    n < (153 * (m + 1) + 2) / 5 ∧ (n ≤ 364 ∨ n = 365 ∧ y % 4 = 3 ∧ (y % 100 ≠ 99 ∨ y = 399)) ∧
    d.number = cycle * 146097 + (365 * y + y / 4 - y / 100 + n : Nat) - 719468 ∧
    d.civil = ⟨cycle * 400 + y + (if monthOf m ≤ 2 then 1 else 0), monthOf m, n - (153 * m + 2) / 5 + 1⟩ := by
  have small : ((d.number + 719468) % 146097).toNat < 146097 := by omega
  have whole : d.number = (d.number + 719468) / 146097 * 146097 + ((d.number + 719468) % 146097).toNat - 719468 := by omega
  obtain ⟨few, _, _⟩ := yearOfCycle small rfl
  obtain ⟨begun, ends⟩ := yearEnds small rfl
  have inside := ends.elim (fun early => early.trans (by decide : 364 ≤ 365)) fun last => last.1.le
  obtain ⟨late, before, after⟩ := monthEnds inside rfl
  refine ⟨(d.number + 719468) / 146097, _, _, _, few, late, before, after, ends, ?_, rfl⟩
  rw [Nat.add_sub_cancel' begun]
  exact whole

theorem civilValid {d : Day} (begun : first ≤ d) (ends : d ≤ last) : d.civil.Valid := by
  obtain ⟨cycle, y, m, n, few, late, before, after, short, whole, parts⟩ := d.civilEnds
  have lowest : -96465292 ≤ d.number := begun
  have highest : d.number ≤ 95026236 := ends
  have winter : monthOf m ≤ 2 ↔ 306 ≤ n := by
    unfold monthOf
    split <;> omega
  have months : 1 ≤ monthOf m ∧ monthOf m ≤ 12 := by
    unfold monthOf
    split <;> omega
  rw [parts]
  refine ⟨?_, ?_, months.1, months.2, Nat.le_add_left 1 _, marchLength late before after ?_⟩
  · show -262143 ≤ cycle * 400 + y + (if monthOf m ≤ 2 then 1 else 0)
    split <;> omega
  · show cycle * 400 + y + (if monthOf m ≤ 2 then 1 else 0) ≤ 262142
    have least : cycle ≤ 655 := by omega
    rcases Int.lt_or_eq_of_le least with earlier | rfl
    · split <;> omega
    · have growing : 142 ≤ y → 51864 ≤ 365 * y + y / 4 - y / 100 := by omega
      split <;> omega
  · refine short.imp_right fun ⟨last, fours, hundreds⟩ => ⟨last, ?_⟩
    rw [if_pos (winter.mpr (by omega))]
    simp only [Civil.isLeap, Bool.or_eq_true, Bool.and_eq_true, decide_eq_true_eq]
    omega

end Valid

section Read
open Text

variable {rest : List Char}

theorem yearReads (year : Int) (stops : Stops rest) : readYear ((yearText year).toList ++ rest) = some (year, rest) := by
  unfold yearText
  split
  · rename_i four
    have digits := paddedAll 4 year.toNat
    have value := paddedValue 4 year.toNat
    have length : (padded 4 year.toNat).toList.length = 4 := paddedLengthOf (by decide) (by omega)
    have taken := takeDigitsExactly digits rest
    have own : (year.toNat : Int) = year := by omega
    cases run : (padded 4 year.toNat).toList with
    | nil => exact absurd run (paddedFilled 4 _)
    | cons c cs =>
      rw [run] at digits value length taken
      have digit := digits c List.mem_cons_self
      have kept : trimStart (c :: (cs ++ rest)) = c :: (cs ++ rest) := trimStartKeeps (by
        rintro _ ⟨⟩
        exact TripId.digitFilled digit)
      obtain ⟨minus, plus⟩ := digitUnsigned digit
      rw [length, List.cons_append] at taken
      rw [List.cons_append, readYear, kept]
      simp [minus, plus, taken, value, own]
  · have digits := paddedAll 4 year.natAbs
    have value := paddedValue 4 year.natAbs
    have taken := takeDigitsStops digits stops
    split
    · rename_i below
      have sign : "-".toList = ['-'] := rfl
      have kept : trimStart ('-' :: ((padded 4 year.natAbs).toList ++ rest)) = _ := trimStartKeeps (by
        rintro _ ⟨⟩
        decide)
      rw [String.toList_append, sign, List.append_assoc, List.singleton_append, readYear, kept]
      simp [taken, value, abs_of_neg below]
    · rename_i above
      have sign : "+".toList = ['+'] := rfl
      have kept : trimStart ('+' :: ((padded 4 year.natAbs).toList ++ rest)) = _ := trimStartKeeps (by
        rintro _ ⟨⟩
        decide)
      rw [String.toList_append, sign, List.append_assoc, List.singleton_append, readYear, kept]
      simp [taken, value, abs_of_nonneg (not_lt.mp above)]

theorem twoReads {n : Nat} (small : n < 100) (rest : List Char) : readTwo ((padded 2 n).toList ++ rest) = some (n, rest) := by
  have digits := paddedAll 2 n
  have taken := takeDigitsExactly digits rest
  have kept : trimStart ((padded 2 n).toList ++ rest) = (padded 2 n).toList ++ rest := trimStartKeeps (by
    rw [List.head?_append_of_ne_nil _ (paddedFilled 2 n)]
    intro c head
    exact TripId.digitFilled (digits c (List.mem_of_mem_head? head)))
  rw [paddedLength small] at taken
  rw [readTwo, kept, taken]
  simp only [paddedValue, Option.map_some]

theorem dashReads (rest : List Char) : readDash ('-' :: rest) = some rest := by
  have kept : trimStart ('-' :: rest) = '-' :: rest := trimStartKeeps (by
    rintro _ ⟨⟩
    decide)
  rw [readDash, kept]
  rfl

theorem textReads {d : Day} (begun : first ≤ d) (ends : d ≤ last) : ofDashed? d.text = some d := by
  obtain ⟨month, day⟩ := d.civilBounds
  have dash : "-".toList = ['-'] := rfl
  have stops : Stops ('-' :: ((padded 2 d.civil.month).toList ++ '-' :: (padded 2 d.civil.day).toList)) := by
    rintro _ ⟨⟩
    rfl
  have shape : d.text.toList = (yearText d.civil.year).toList ++
      '-' :: ((padded 2 d.civil.month).toList ++ '-' :: (padded 2 d.civil.day).toList) := by
    simp only [text, textWith, String.toList_append, dash, List.append_assoc, List.cons_append, List.nil_append]
  have lastTwo := twoReads day []
  rw [List.append_nil] at lastTwo
  have own : ofCivil? d.civil = some d := by
    rw [ofCivil?, if_pos (civilValid begun ends), civilNumber]
  have blank : (trimStart []).isEmpty := rfl
  simp only [ofDashed?, shape, yearReads _ stops, twoReads month, dashReads, lastTwo, Option.bind_eq_bind, Option.bind_some,
    blank, if_true]
  exact own

end Read

end Day

namespace Text

theorem piecesPlain {separator : Char} {cs : List Char} (missing : separator ∉ cs) : pieces separator cs = [cs] := by
  induction cs with
  | nil => rfl
  | cons c cs ih =>
    obtain ⟨other, behind⟩ := not_or.mp (mt List.mem_cons.mpr missing)
    rw [pieces, if_neg (Ne.symm other), ih behind]

theorem piecesTwo {separator : Char} {front back : List Char} (missing : separator ∉ front) (behind : separator ∉ back) :
    pieces separator (front ++ separator :: back) = [front, back] := by
  induction front with
  | nil => rw [List.nil_append, pieces, if_pos rfl, piecesPlain behind]
  | cons c front ih =>
    obtain ⟨other, others⟩ := not_or.mp (mt List.mem_cons.mpr missing)
    rw [List.cons_append, pieces, if_neg (Ne.symm other), ih others]

end Text

namespace Instant
open Text

section Read
variable {t : Instant} {n : Nat}

theorem fractionReads (small : n < 1000000000) : readFraction ((fractionText n).toList ++ ['Z']) = some (n, ['Z']) := by
  have point : ".".toList = ['.'] := rfl
  have stops : Stops ['Z'] := by
    rintro _ ⟨⟩
    rfl
  have digits (width k : Nat) (few : width ≤ 9) (filled : 0 < width) (inside : k < 10 ^ width)
      (whole : k * 10 ^ (9 - width) = n) :
      readFraction (("." ++ padded width k).toList ++ ['Z']) = some (n, ['Z']) := by
    have taken := takeDigitsStops (paddedAll width k) stops
    have length := paddedLengthOf filled inside
    rw [String.toList_append, point, List.append_assoc, List.singleton_append, readFraction, taken]
    simp [length, few, paddedValue, whole]
  unfold fractionText
  split
  · rename_i none
    rw [none]
    rfl
  · split
    · exact digits 3 _ (by decide) (by decide) (by omega) (by omega)
    · split
      · exact digits 6 _ (by decide) (by decide) (by omega) (by omega)
      · exact digits 9 _ (by decide) (by decide) small (by omega)

theorem paddedWithout {c : Char} (other : c.isDigit = false) (width k : Nat) : c ∉ (padded width k).toList := by
  intro member
  rw [Day.paddedDigits member] at other
  cases other

theorem fractionWithout : 'T' ∉ (fractionText n).toList := by
  have parts (width k : Nat) : 'T' ∉ ("." ++ padded width k).toList := by
    rw [String.toList_append, List.mem_append, not_or]
    exact ⟨by decide, paddedWithout rfl width k⟩
  unfold fractionText
  split
  · simp
  · split
    · exact parts _ _
    · split
      · exact parts _ _
      · exact parts _ _

theorem dateWithout (d : Day) : 'T' ∉ d.text.toList := by
  have sign : 'T' ∉ (Day.yearSign d.civil.year).toList := by
    unfold Day.yearSign
    split
    · simp
    · split <;> decide
  simp only [Day.text, Day.textWith, Day.yearTextSign, String.toList_append, List.mem_append, not_or]
  exact ⟨⟨⟨⟨⟨sign, paddedWithout rfl 4 _⟩, by decide⟩, paddedWithout rfl 2 _⟩, by decide⟩, paddedWithout rfl 2 _⟩

theorem paddedPair (small : n < 100) : ∃ a b, (padded 2 n).toList = [a, b] ∧ digits? 10 [a, b] = some n := by
  obtain ⟨a, b, pair⟩ := List.length_eq_two.mp (Day.paddedLength small)
  exact ⟨a, b, pair, by rw [← pair, paddedValue]⟩

theorem textReads (inside : t.InRange) : ofText? t.text = some t := by
  obtain ⟨begun, ends⟩ := inside
  unfold perSecond at begun ends
  have date : Day.ofDashed? (Day.mk (t.nanos / perSecond / 86400)).text = some ⟨t.nanos / perSecond / 86400⟩ := by
    refine Day.textReads ?_ ?_
    · show Day.first.number ≤ t.nanos / 1000000000 / 86400
      omega
    · show t.nanos / 1000000000 / 86400 ≤ Day.last.number
      omega
  generalize clock : (t.nanos / perSecond % 86400).toNat = ofDay
  generalize behind : (t.nanos % perSecond).toNat = fraction
  have inDay : ofDay < 86400 := by omega
  have inSecond : fraction < 1000000000 := by
    unfold perSecond at behind
    omega
  obtain ⟨h1, h2, hours, hoursRead⟩ := paddedPair (n := ofDay / 3600) (by omega)
  obtain ⟨m1, m2, minutes, minutesRead⟩ := paddedPair (n := ofDay / 60 % 60) (by omega)
  obtain ⟨s1, s2, seconds, secondsRead⟩ := paddedPair (n := ofDay % 60) (by omega)
  have shape : t.text.toList = (Day.mk (t.nanos / perSecond / 86400)).text.toList ++
      'T' :: ([h1, h2] ++ ':' :: ([m1, m2] ++ ':' :: ([s1, s2] ++ ((fractionText fraction).toList ++ ['Z'])))) := by
    have marks : "T".toList = ['T'] ∧ ":".toList = [':'] ∧ "Z".toList = ['Z'] := ⟨rfl, rfl, rfl⟩
    simp only [text, textWith, clock, behind, String.toList_append, hours, minutes, seconds, marks.1, marks.2.1, marks.2.2,
      List.append_assoc, List.cons_append, List.nil_append]
  have plain : 'T' ∉ [h1, h2] ++ ':' :: ([m1, m2] ++ ':' :: ([s1, s2] ++ ((fractionText fraction).toList ++ ['Z']))) := by
    simp only [← hours, ← minutes, ← seconds, List.mem_append, List.mem_cons, List.not_mem_nil, not_or, or_false]
    exact ⟨paddedWithout rfl 2 _, by decide, paddedWithout rfl 2 _, by decide, paddedWithout rfl 2 _, fractionWithout, by decide⟩
  have offset : readOffset ['Z'] = some 0 := rfl
  have early : ¬(23 < ofDay / 3600 ∨ 59 < ofDay / 60 % 60 ∨ 59 < ofDay % 60) := by omega
  have whole : (t.nanos / perSecond / 86400 * 86400 + (ofDay / 3600 : Nat) * 3600 + (ofDay / 60 % 60 : Nat) * 60 +
      (ofDay % 60 : Nat) - 0) * perSecond + fraction = t.nanos := by
    have seconds : t.nanos / perSecond / 86400 * 86400 + (ofDay / 3600 : Nat) * 3600 + (ofDay / 60 % 60 : Nat) * 60 +
        (ofDay % 60 : Nat) - 0 = t.nanos / perSecond := by omega
    rw [seconds]
    unfold perSecond at *
    omega
  rw [ofText?, shape, piecesTwo (dateWithout _) plain]
  simp only [List.cons_append, List.nil_append, String.ofList_toList, date, hoursRead, minutesRead, secondsRead,
    fractionReads inSecond, offset, Option.bind_eq_bind, Option.bind_some, if_neg early, whole]
  exact if_pos ⟨begun, ends⟩

end Read

end Instant
end TransitTimeline
