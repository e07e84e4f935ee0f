import Mathlib.Data.List.Basic
import TransitTimeline.Column
import TransitTimeline.Order

/-! Filled columns: each gap holds the nearest value before it, or else the nearest one behind it. -/
namespace TransitTimeline.Column
open Std

variable {α : Type}

theorem nextAt {values : List (Option α)} {i : Nat} {v : Option α} (known : (next values)[i]? = some v) :
    v = values[i + 1]?.join := by
  cases values with
  | nil => simp [next] at known
  | cons first rest =>
    rw [next, List.getElem?_append] at known
    rw [List.getElem?_cons_succ]
    split at known
    · rw [known]
      rfl
    · rename_i behind
      rw [List.getElem?_eq_none (Nat.not_lt.mp behind)]
      rw [List.getElem?_singleton] at known
      split at known
      · exact (Option.some.inj known).symm
      · cases known

theorem minMerges [Min α] (a b : Option α) : minPresent a b = Option.merge min a b := by
  cases a <;> cases b <;> rfl

theorem maxMerges [Max α] (a b : Option α) : maxPresent a b = Option.merge max a b := by
  cases a <;> cases b <;> rfl

theorem mergeEither {pick : α → α → α} {a b : Option α} {v : α} (either : ∀ x y, pick x y = x ∨ pick x y = y)
    (known : Option.merge pick a b = some v) : a = some v ∨ b = some v := by
  cases a with
  | none =>
    cases b with
    | none => cases known
    | some y => exact .inr known
  | some x =>
    cases b with
    | none => exact .inl known
    | some y =>
      rw [← show pick x y = v from Option.some.inj known]
      exact (either x y).imp (fun own => by rw [own]) fun own => by rw [own]

def lastValue (values : List (Option α)) : Option α := values.reverse.findSome? id

def firstValue (values : List (Option α)) : Option α := values.findSome? id

@[simp] theorem firstValueCons (v : Option α) (values : List (Option α)) :
    firstValue (v :: values) = v.or (firstValue values) := by
  cases v <;> simp [firstValue]

@[simp] theorem lastValueCons (v : Option α) (values : List (Option α)) :
    lastValue (v :: values) = (lastValue values).or v := by
  cases v <;> simp [lastValue, List.findSome?_append]

theorem lastValueReverse (values : List (Option α)) : lastValue values.reverse = firstValue values := by
  simp [lastValue, firstValue]

theorem forwardFromAppend (last : Option α) (xs ys : List (Option α)) :
    forwardFrom last (xs ++ ys) = forwardFrom last xs ++ forwardFrom ((lastValue xs).or last) ys := by
  induction xs generalizing last with
  | nil => rfl
  | cons v xs ih => simp [forwardFrom, ih, Option.or_assoc]

theorem forwardSplit (before : List (Option α)) (v : Option α) (after : List (Option α)) :
    forward (before ++ v :: after) =
      forward before ++ v.or (lastValue before) :: forwardFrom (v.or (lastValue before)) after := by
  simp [forward, forwardFromAppend, forwardFrom]

theorem backwardSplit (before : List (Option α)) (v : Option α) (after : List (Option α)) :
    backward (before ++ v :: after) =
      (forwardFrom (v.or (firstValue after)) before.reverse).reverse ++ v.or (firstValue after) :: backward after := by
  simp [backward, forwardSplit, lastValueReverse]

theorem backwardCons (v : Option α) (rest : List (Option α)) :
    backward (v :: rest) = v.or (firstValue rest) :: backward rest := backwardSplit [] v rest

theorem forwardFirst (m : Option α) (values : List (Option α)) :
    m.or (firstValue (forwardFrom m values)) = m.or (firstValue values) := by
  cases m with
  | some a => rfl
  | none =>
    induction values with
    | nil => rfl
    | cons v rest ih => cases v <;> simp_all [forwardFrom]

theorem fillSplit (before : List (Option α)) (v : Option α) (after : List (Option α)) :
    ∃ left right, fill (before ++ v :: after) = left ++ v.or ((lastValue before).or (firstValue after)) :: right ∧
      left.length = before.length := by
  rw [fill, forwardSplit, backwardSplit, forwardFirst, Option.or_assoc]
  exact ⟨_, _, rfl, by simp [forwardFromLength, forwardLength]⟩

theorem fillAt {values : List (Option α)} {i : Nat} {v : Option α} (known : values[i]? = some v) :
    (fill values)[i]? = some (v.or ((lastValue (values.take i)).or (firstValue (values.drop (i + 1))))) := by
  obtain ⟨inside, own⟩ := List.getElem?_eq_some_iff.mp known
  have shape : values = values.take i ++ v :: values.drop (i + 1) := by
    rw [← own, ← List.drop_eq_getElem_cons inside, List.take_append_drop]
  obtain ⟨left, right, filled, place⟩ := fillSplit (values.take i) v (values.drop (i + 1))
  have before : left.length = i := by rw [place, List.length_take]; omega
  rw [← shape] at filled
  rw [filled, List.getElem?_append_right (Nat.le_of_eq before), before, Nat.sub_self]
  rfl

theorem fillKeeps {values : List (Option α)} {i : Nat} {a : α} (known : values[i]? = some (some a)) :
    (fill values)[i]? = some (some a) := by
  rw [fillAt known, Option.some_or]

theorem lastValueMem {values : List (Option α)} {a : α} (last : lastValue values = some a) : some a ∈ values := by
  obtain ⟨v, member, own⟩ := List.exists_of_findSome?_eq_some last
  cases own
  exact List.mem_reverse.mp member

theorem lastValueNone {values : List (Option α)} : lastValue values = none ↔ ∀ v ∈ values, v = none := by
  simp [lastValue]

theorem firstValueNone {values : List (Option α)} : firstValue values = none ↔ ∀ v ∈ values, v = none := by
  simp [firstValue]

theorem firstValueBehind {before after : List (Option α)} (none : ∀ v ∈ before, v = .none) :
    firstValue (before ++ after) = firstValue after := by
  have nothing : before.findSome? id = .none := List.findSome?_eq_none_iff.mpr none
  rw [firstValue, List.findSome?_append, nothing, Option.none_or]
  rfl

theorem fillGap {values : List (Option α)} {p : Nat} (gap : values[p]? = some none) :
    (∃ q a, q < p ∧ values[q]? = some (some a) ∧ (fill values)[p]? = some (some a)) ∨
      ∀ i ≤ p, (fill values)[i]? = (fill values)[p]? := by
  cases last : lastValue (values.take p) with
  | some a =>
    obtain ⟨q, known⟩ := List.mem_iff_getElem?.mp (lastValueMem last)
    rw [List.getElem?_take] at known
    split at known
    · rename_i below
      exact .inl ⟨q, a, below, known, by rw [fillAt gap, last]; rfl⟩
    · cases known
  | none =>
    have whole : ∀ i ≤ p, (fill values)[i]? = some (firstValue values) := by
      intro i le
      have before : ∀ v ∈ values.take i, v = none := by
        intro v member
        exact lastValueNone.mp last v (List.take_subset_take_left values le member)
      obtain ⟨inside, _⟩ := List.getElem?_eq_some_iff.mp gap
      have known := List.getElem?_eq_getElem (Nat.lt_of_le_of_lt le inside)
      have behind : firstValue (values.take i ++ values.drop i) = firstValue (values.drop i) := firstValueBehind before
      rw [List.take_append_drop, List.drop_eq_getElem_cons (Nat.lt_of_le_of_lt le inside), firstValueCons] at behind
      rw [fillAt known, lastValueNone.mpr before, behind]
      rfl
    exact .inr fun i le => (whole i le).trans (whole p (Nat.le_refl p)).symm

theorem firstValueAt {values : List (Option α)} {a : α} (first : firstValue values = some a) :
    ∃ j : Nat, values[j]? = some (some a) ∧ ∀ k < j, values[k]? = some none := by
  obtain ⟨before, v, after, rfl, own, none⟩ := List.findSome?_eq_some_iff.mp first
  obtain rfl : v = some a := own
  refine ⟨before.length, by simp, fun k inside => ?_⟩
  have gap : before[k] = .none := none before[k] (List.getElem_mem inside)
  rw [List.getElem?_append_left inside, List.getElem?_eq_getElem inside, gap]

theorem lastValueAt {values : List (Option α)} {a : α} (last : lastValue values = some a) :
    ∃ j : Nat, values[j]? = some (some a) ∧ ∀ k : Nat, j < k → k < values.length → values[k]? = some none := by
  rw [← values.reverse_reverse, lastValueReverse] at last
  obtain ⟨j, known, gaps⟩ := firstValueAt last
  obtain ⟨inside, _⟩ := List.getElem?_eq_some_iff.mp known
  rw [List.length_reverse] at inside
  rw [List.getElem?_reverse inside] at known
  refine ⟨values.length - 1 - j, known, fun k above within => ?_⟩
  have gap := gaps (values.length - 1 - k) (by omega)
  rwa [List.getElem?_reverse (by omega), Nat.sub_sub_self (by omega)] at gap

/- What a place holds once the gaps are filled: its own value, or the nearest one before it, or, where there is none before it,
the nearest one behind it. -/
inductive Filled (values : List (Option α)) (i : Nat) : Option α → Prop
  | own {a} (known : values[i]? = some (some a)) : Filled values i (some a)
  | before {j a} (gap : values[i]? = some none) (near : j < i) (known : values[j]? = some (some a))
      (between : ∀ k, j < k → k < i → values[k]? = some none) : Filled values i (some a)
  | behind {j a} (gap : values[i]? = some none) (leading : ∀ k < i, values[k]? = some none) (near : i < j)
      (known : values[j]? = some (some a)) (between : ∀ k, i < k → k < j → values[k]? = some none) : Filled values i (some a)
  | unknown (nowhere : ∀ v ∈ values, v = none) : Filled values i none

theorem gapFilled {values : List (Option α)} {i : Nat} (gap : values[i]? = some none) :
    Filled values i ((lastValue (values.take i)).or (firstValue (values.drop (i + 1)))) := by
  obtain ⟨inside, own⟩ := List.getElem?_eq_some_iff.mp gap
  cases last : lastValue (values.take i) with
  | some a =>
    obtain ⟨j, known, gaps⟩ := lastValueAt last
    obtain ⟨near, _⟩ := List.getElem?_eq_some_iff.mp known
    rw [List.length_take] at near gaps
    rw [List.getElem?_take_of_lt (by omega)] at known
    refine .before gap (by omega) known fun k above below => ?_
    have between := gaps k above (by omega)
    rwa [List.getElem?_take_of_lt below] at between
  | none =>
    have before := lastValueNone.mp last
    cases first : firstValue (values.drop (i + 1)) with
    | some a =>
      obtain ⟨j, known, gaps⟩ := firstValueAt first
      rw [List.getElem?_drop] at known
      refine .behind gap (fun k below => ?_) (by omega) known fun k above below => ?_
      · have within : k < values.length := Nat.lt_trans below inside
        rw [List.getElem?_eq_getElem within, before _ (List.mem_take_iff_getElem.mpr ⟨k, by omega, rfl⟩)]
      · have between := gaps (k - (i + 1)) (by omega)
        rwa [List.getElem?_drop, Nat.add_sub_cancel' above] at between
    | none =>
      refine .unknown fun v member => ?_
      rw [← List.take_append_drop i values, List.drop_eq_getElem_cons inside, own] at member
      rcases List.mem_append.mp member with early | late
      · exact before v early
      · rcases List.mem_cons.mp late with rfl | late
        · rfl
        · exact firstValueNone.mp first v late

theorem fillFilled {values : List (Option α)} {i : Nat} {v : Option α} (held : (fill values)[i]? = some v) :
    Filled values i v := by
  obtain ⟨inside, _⟩ := List.getElem?_eq_some_iff.mp held
  rw [fillLength] at inside
  have place := List.getElem?_eq_getElem inside
  obtain rfl := Option.some.inj (held.symm.trans (fillAt place))
  cases own : values[i] with
  | some a => exact .own (place.trans (congrArg some own))
  | none => exact gapFilled (place.trans (congrArg some own))

theorem fillTogether (values : List (Option α)) : (∀ v ∈ fill values, v.isSome) ∨ ∀ v ∈ fill values, v = none := by
  by_cases nowhere : ∀ v ∈ values, v = none
  · refine .inr fun v member => ?_
    obtain ⟨i, held⟩ := List.mem_iff_getElem?.mp member
    have gap {j : Nat} {w : Option α} (place : values[j]? = some w) : w = none := nowhere w (List.mem_of_getElem? place)
    cases fillFilled held with
    | own known | before _ _ known _ | behind _ _ _ known _ => exact gap known
    | unknown _ => rfl
  · refine .inl fun v member => ?_
    obtain ⟨i, held⟩ := List.mem_iff_getElem?.mp member
    cases fillFilled held with
    | own | before | behind => rfl
    | unknown none => exact absurd none nowhere

theorem fillWhole {values : List (Option α)} (together : (∀ v ∈ values, v.isSome) ∨ ∀ v ∈ values, v = none) :
    fill values = values := by
  have apart {i j : Nat} {a : α} (gap : values[i]? = some none) (known : values[j]? = some (some a)) : False := by
    rcases together with all | nothing
    · cases all none (List.mem_of_getElem? gap)
    · cases nothing (some a) (List.mem_of_getElem? known)
  refine List.ext_getElem (fillLength values) fun i filled inside => ?_
  cases held : (fill values)[i] with
  | none =>
    cases fillFilled (List.getElem?_eq_some_iff.mpr ⟨filled, held⟩) with
    | unknown nowhere => exact (nowhere _ (List.getElem_mem inside)).symm
  | some a =>
    cases fillFilled (List.getElem?_eq_some_iff.mpr ⟨filled, held⟩) with
    | own known => exact (List.getElem_eq_iff inside).mpr known |>.symm
    | before gap _ known _ | behind gap _ _ known _ => exact (apart gap known).elim

theorem fillAgain (values : List (Option α)) : fill (fill values) = fill values := fillWhole (fillTogether values)

section Field
variable {β ρ : Type} {get : ρ → Option α} {put : ρ → Option α → ρ}

theorem fillFieldOwn (own : ∀ r v, get (put r v) = v) (rows : List ρ) :
    (fillField get put rows).map get = fill (rows.map get) := by
  have long : (fill (rows.map get)).length ≤ rows.length := by simp [fillLength]
  rw [fillField, List.map_zipWith, ← List.map_uncurry_zip_eq_zipWith]
  conv => rhs; rw [← List.map_snd_zip long]
  exact List.map_congr_left fun x _ => own x.1 x.2

theorem fillFieldOther {other : ρ → β} (kept : ∀ r v, other (put r v) = other r) (rows : List ρ) :
    (fillField get put rows).map other = rows.map other := by
  have long : rows.length ≤ (fill (rows.map get)).length := by simp [fillLength]
  rw [fillField, List.map_zipWith, ← List.map_uncurry_zip_eq_zipWith]
  conv => rhs; rw [← List.map_fst_zip long, List.map_map]
  exact List.map_congr_left fun x _ => kept x.1 x.2

end Field

section Sorted
variable [Ord α] [TransOrd α]

theorem forwardFromSorted {last : Option α} {values : List (Option α)}
    (sorted : (last.toList ++ values.filterMap id).Pairwise fun a b => (compare a b).isLE) :
    (last :: forwardFrom last values).Pairwise fun a b => (compare a b).isLE := by
  induction values generalizing last with
  | nil => simp [forwardFrom]
  | cons v rest ih =>
    have step : (compare last (v.or last)).isLE := by
      cases v with
      | none => simp
      | some b =>
        cases last with
        | none => rfl
        | some a => exact (List.pairwise_cons.mp sorted).1 b (by simp)
    have tail : (v.or last :: forwardFrom (v.or last) rest).Pairwise fun a b => (compare a b).isLE := by
      refine ih (sorted.sublist ?_)
      cases v <;> cases last <;> simp
    refine List.pairwise_cons.mpr ⟨?_, tail⟩
    intro x hx
    rcases List.mem_cons.mp hx with rfl | inside
    · exact step
    · exact TransCmp.isLE_trans step ((List.pairwise_cons.mp tail).1 x inside)

theorem backwardSorted {values : List (Option α)} (sorted : values.Pairwise fun a b => (compare a b).isLE) :
    (firstValue values :: backward values).Pairwise fun a b => (compare a b).isLE := by
  induction values with
  | nil => simp [backward, forward, forwardFrom]
  | cons v rest ih =>
    obtain ⟨above, sorted⟩ := List.pairwise_cons.mp sorted
    have tail := ih sorted
    have all : ∀ x ∈ backward rest, (compare (v.or (firstValue rest)) x).isLE := by
      intro x inside
      have least := (List.pairwise_cons.mp tail).1 x inside
      cases v with
      | none => exact least
      | some a =>
        cases rest with
        | nil => simp [backward, forward, forwardFrom] at inside
        | cons w rest =>
          have first := above w (by simp)
          cases w with
          | none => exact absurd first (by simp [compare])
          | some b => exact TransCmp.isLE_trans first least
    rw [backwardCons, firstValueCons]
    have head : ∀ x ∈ v.or (firstValue rest) :: backward rest, (compare (v.or (firstValue rest)) x).isLE := by
      intro x inside
      rcases List.mem_cons.mp inside with rfl | inside
      · simp
      · exact all x inside
    exact List.pairwise_cons.mpr ⟨head, List.pairwise_cons.mpr ⟨all, (List.pairwise_cons.mp tail).2⟩⟩

theorem fillSorted {values : List (Option α)}
    (sorted : (values.filterMap id).Pairwise fun a b => (compare a b).isLE) :
    (fill values).Pairwise fun a b => (compare a b).isLE :=
  (List.pairwise_cons.mp (backwardSorted (List.pairwise_cons.mp (forwardFromSorted sorted)).2)).2

end Sorted

end TransitTimeline.Column
