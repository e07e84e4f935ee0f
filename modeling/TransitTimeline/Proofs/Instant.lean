import TransitTimeline.Column
import TransitTimeline.Instant

/-! The order of instants, and the ones without a fraction of a second, which the feeds report. -/
namespace TransitTimeline.Instant

theorem leRefl (a : Instant) : a ≤ a := Int.le_refl a.nanos

theorem leTrans {a b c : Instant} (first : a ≤ b) (second : b ≤ c) : a ≤ c := Int.le_trans first second

theorem leTotal (a b : Instant) : a ≤ b ∨ b ≤ a := Int.le_total a.nanos b.nanos

theorem leAntisymm {a b : Instant} (le : a ≤ b) (ge : b ≤ a) : a = b := by
  have nanos : a.nanos = b.nanos := Int.le_antisymm le ge
  cases a
  cases b
  simpa using nanos

instance : Std.IsLinearOrder Instant where
  le_refl := leRefl
  le_trans _ _ _ := leTrans
  le_antisymm _ _ := leAntisymm
  le_total := leTotal

theorem minReordered {instants others : List Instant} (perm : instants.Perm others) : instants.min? = others.min? := by
  apply Option.ext
  intro least
  rw [List.min?_eq_some_iff, List.min?_eq_some_iff]
  simp only [perm.mem_iff]

theorem compareLe {a b : Instant} : (compare a b).isLE ↔ a ≤ b := Int.isLE_compare

theorem secondsNonnegative {a b : Instant} (le : a ≤ b) : 0 ≤ b.secondsSince a :=
  Int.tdiv_nonneg (Int.sub_nonneg_of_le le) (by decide)

theorem notLt {a b : Instant} : ¬a < b ↔ b ≤ a := Int.not_lt

theorem leMaxLeft (a b : Instant) : a ≤ max a b := by
  show a ≤ if a ≤ b then b else a
  split
  · assumption
  · exact leRefl a

theorem leMaxRight (a b : Instant) : b ≤ max a b := by
  show b ≤ if a ≤ b then b else a
  split
  · exact leRefl b
  · rename_i above
    rcases leTotal a b with le | le
    · exact absurd le above
    · exact le

theorem maxOfLe {a b : Instant} (le : a ≤ b) : max a b = b := if_pos le

theorem maxAtMost {a b c : Instant} (first : a ≤ c) (second : b ≤ c) : max a b ≤ c := by
  show (if a ≤ b then b else a) ≤ c
  split
  · exact second
  · exact first

instance : Std.LawfulOrderMax Instant where
  max_eq_or a b := by
    rcases leTotal a b with le | ge
    · exact .inr (maxOfLe le)
    · exact .inl (leAntisymm (maxAtMost (leRefl a) ge) (leMaxLeft a b))
  max_le_iff a b c := by
    constructor
    · intro le
      exact ⟨leTrans (leMaxLeft a b) le, leTrans (leMaxRight a b) le⟩
    · intro both
      exact maxAtMost both.1 both.2

theorem minLeRight (a b : Instant) : min a b ≤ b := by
  show (if a ≤ b then a else b) ≤ b
  split
  · assumption
  · exact leRefl b

theorem ofSecondsLe {a b : Int} : ofSeconds a ≤ ofSeconds b ↔ a ≤ b := by
  show a * perSecond ≤ b * perSecond ↔ a ≤ b
  unfold perSecond
  omega

theorem ofSecondsLt {a b : Int} : ofSeconds a < ofSeconds b ↔ a < b := by
  show a * perSecond < b * perSecond ↔ a < b
  unfold perSecond
  omega

theorem minSeconds (a b : Int) : min (ofSeconds a) (ofSeconds b) = ofSeconds (min a b) := by
  show (if ofSeconds a ≤ ofSeconds b then ofSeconds a else ofSeconds b) = ofSeconds (min a b)
  rw [Int.min_def]
  simp only [ofSecondsLe]
  split <;> rfl

theorem maxSeconds (a b : Int) : max (ofSeconds a) (ofSeconds b) = ofSeconds (max a b) := by
  show (if ofSeconds a ≤ ofSeconds b then ofSeconds b else ofSeconds a) = ofSeconds (max a b)
  rw [Int.max_def]
  simp only [ofSecondsLe]
  split <;> rfl

section Whole

def Whole (t : Option Instant) : Prop := ∀ v ∈ t, ∃ s, v = .ofSeconds s

variable {a b : Option Instant}

theorem wholeNone : Whole none := by simp [Whole]

theorem wholeSeconds (s : Int) : Whole (some (ofSeconds s)) := by
  rintro _ ⟨⟩
  exact ⟨s, rfl⟩

theorem Whole.cases (whole : Whole a) : a = none ∨ ∃ s, a = some (ofSeconds s) := by
  cases a with
  | none => exact .inl rfl
  | some v =>
    obtain ⟨s, rfl⟩ := whole v rfl
    exact .inr ⟨s, rfl⟩

theorem Whole.or (first : Whole a) (second : Whole b) : Whole (a.or b) := by
  cases a with
  | none => simpa using second
  | some v => simpa using first

theorem Whole.max (first : Whole a) (second : Whole b) : Whole (Column.maxPresent a b) := by
  rcases first.cases with rfl | ⟨s, rfl⟩ <;> rcases second.cases with rfl | ⟨t, rfl⟩
  · exact wholeNone
  · exact wholeSeconds t
  · exact wholeSeconds s
  · rw [Column.maxPresent, maxSeconds]
    exact wholeSeconds _

theorem Whole.min (first : Whole a) (second : Whole b) : Whole (Column.minPresent a b) := by
  rcases first.cases with rfl | ⟨s, rfl⟩ <;> rcases second.cases with rfl | ⟨t, rfl⟩
  · exact wholeNone
  · exact wholeSeconds t
  · exact wholeSeconds s
  · rw [Column.minPresent, minSeconds]
    exact wholeSeconds _

end Whole

end TransitTimeline.Instant
