import Mathlib.Data.List.Basic

/-! Rows without those that repeat the last row kept before them. What is left of sorted rows ascends strictly. -/
namespace TransitTimeline

variable {ρ : Type} {same : ρ → ρ → Bool} {rows : List ρ} {r : ρ}

theorem repeatsLoop (r : ρ) (rows kept : List ρ) :
    List.eraseRepsBy.loop same r rows kept = kept.reverse ++ List.eraseRepsBy.loop same r rows [] := by
  induction rows generalizing r kept with
  | nil => simp [List.eraseRepsBy.loop]
  | cons s rest ih =>
    simp only [List.eraseRepsBy.loop]
    split
    · exact ih r kept
    · rw [ih s (r :: kept), ih s [r]]
      simp

theorem repeatsCons (r s : ρ) (rest : List ρ) : (r :: s :: rest).eraseRepsBy same =
    if same r s then (r :: rest).eraseRepsBy same else r :: (s :: rest).eraseRepsBy same := by
  simp only [List.eraseRepsBy, List.eraseRepsBy.loop]
  cases same r s with
  | true => rfl
  | false => exact repeatsLoop s rest [r]

theorem repeatsHead (r : ρ) (rows : List ρ) : r ∈ (r :: rows).eraseRepsBy same := by
  induction rows with
  | nil => exact List.mem_singleton_self r
  | cons s rest ih =>
    rw [repeatsCons]
    split
    · exact ih
    · exact List.mem_cons_self

theorem repeatsSublist : (rows.eraseRepsBy same).Sublist rows := by
  cases rows with
  | nil => exact List.nil_sublist []
  | cons r rest =>
    induction rest generalizing r with
    | nil => exact List.Sublist.refl [r]
    | cons s rest ih =>
      rw [repeatsCons]
      split
      · exact (ih r).trans ((List.sublist_cons_self s rest).cons_cons r)
      · exact (ih s).cons_cons r

theorem repeatsKept (member : r ∈ rows) : ∃ s ∈ rows.eraseRepsBy same, s = r ∨ same s r := by
  cases rows with
  | nil => cases member
  | cons first rest =>
    induction rest generalizing first r with
    | nil => exact ⟨first, List.mem_singleton_self first, .inl (List.mem_singleton.mp member).symm⟩
    | cons second rest ih =>
      rw [repeatsCons]
      split
      · rename_i repeated
        rcases List.mem_cons.mp member with rfl | later
        · exact ⟨r, repeatsHead r rest, .inl rfl⟩
        · rcases List.mem_cons.mp later with rfl | later
          · exact ⟨first, repeatsHead first rest, .inr repeated⟩
          · exact ih first (List.mem_cons_of_mem first later)
      · rcases List.mem_cons.mp member with rfl | later
        · exact ⟨r, List.mem_cons_self, .inl rfl⟩
        · obtain ⟨s, kept, stands⟩ := ih second later
          exact ⟨s, List.mem_cons_of_mem first kept, stands⟩

theorem memRepeats [DecidableEq ρ] : r ∈ rows.eraseReps ↔ r ∈ rows := by
  constructor
  · intro kept
    have left : rows.eraseReps.Sublist rows := repeatsSublist
    exact left.subset kept
  · intro member
    have stands : ∃ s ∈ rows.eraseReps, s = r ∨ s == r := repeatsKept member
    obtain ⟨s, kept, rfl | equal⟩ := stands
    · exact kept
    · rwa [eq_of_beq equal] at kept

theorem repeatsAscend {le lt : ρ → ρ → Prop} (strict : ∀ {a b}, le a b → same a b = false → lt a b)
    (onward : ∀ {a b c}, lt a b → le b c → lt a c) (sorted : rows.Pairwise le) : (rows.eraseRepsBy same).Pairwise lt := by
  cases rows with
  | nil => exact .nil
  | cons r rest =>
    induction rest generalizing r with
    | nil => exact List.pairwise_singleton lt r
    | cons s rest ih =>
      obtain ⟨first, later⟩ := List.pairwise_cons.mp sorted
      rw [repeatsCons]
      split
      · exact ih r (sorted.sublist ((List.sublist_cons_self s rest).cons_cons r))
      · rename_i other
        have less : lt r s := strict (first s List.mem_cons_self) (Bool.not_eq_true _ ▸ other)
        refine List.pairwise_cons.mpr ⟨?_, ih s later⟩
        intro t kept
        rcases List.mem_cons.mp (repeatsSublist.subset kept) with rfl | behind
        · exact less
        · exact onward less ((List.pairwise_cons.mp later).1 t behind)

theorem repeatsFirst {κ : Type} [DecidableEq κ] {key : ρ → κ} 
    (apart : (rows.eraseRepsBy fun a b => key a = key b).Pairwise fun a b => key a ≠ key b)
    (kept : r ∈ rows.eraseRepsBy fun a b => key a = key b) : rows.find? (key · = key r) = some r := by
  cases rows with
  | nil => cases kept
  | cons first rest =>
    induction rest generalizing first with
    | nil =>
      rw [List.mem_singleton.mp kept]
      simp
    | cons second rest ih =>
      rw [repeatsCons] at kept apart
      split at kept
      · rename_i same
        rw [if_pos same] at apart
        have found := ih first apart kept
        have tie : key first = key second := of_decide_eq_true same
        by_cases own : key first = key r
        · rw [List.find?_cons_of_pos (by simpa using own)] at found ⊢
          exact found
        · rw [List.find?_cons_of_neg (by simpa using own)] at found ⊢
          rwa [List.find?_cons_of_neg (by simpa [← tie] using own)]
      · rename_i other
        rw [if_neg other] at apart
        obtain ⟨later, apart⟩ := List.pairwise_cons.mp apart
        rcases List.mem_cons.mp kept with rfl | kept
        · simp
        · rw [List.find?_cons_of_neg (by simpa using later r kept)]
          exact ih second apart kept

end TransitTimeline
