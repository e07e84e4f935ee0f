import Mathlib.Data.List.Forall2

/-! Rows that come in sections, one for each of a list of keys; a section may be empty. -/
namespace TransitTimeline
variable {κ ρ σ : Type}

inductive Sections (holds : κ → List ρ → Prop) : List κ → List ρ → Prop
  | nil : Sections holds [] []
  | cons {k ks rows rest} (first : holds k rows) (next : Sections holds ks rest) :
      Sections holds (k :: ks) (rows ++ rest)

namespace Sections
variable {holds : κ → List ρ → Prop} {ks : List κ} {xs : List ρ}

theorem ofPaired {α β : Type} {keyOf : α → κ} {rows : β → List ρ} {as : List α} {bs : List β}
    (parts : List.Forall₂ (fun a b => holds (keyOf a) (rows b)) as bs) :
    Sections holds (as.map keyOf) (bs.flatMap rows) := by
  induction parts with
  | nil => exact .nil
  | cons head _ ih => exact .cons head ih

theorem pairedFilter {R : ρ → σ → Prop} {p : ρ → Bool} {f : κ → List σ} (sections : Sections holds ks xs)
    (each : ∀ k rows, holds k rows → List.Forall₂ R (rows.filter p) (f k)) :
    List.Forall₂ R (xs.filter p) (ks.flatMap f) := by
  induction sections with
  | nil => exact .nil
  | cons head _ ih =>
    rw [List.filter_append, List.flatMap_cons]
    exact List.rel_append (each _ _ head) ih

section Key
variable {key : ρ → κ}

theorem keyKnown (sections : Sections holds ks xs) (own : ∀ k rows, holds k rows → ∀ r ∈ rows, key r = k) :
    ∀ r ∈ xs, key r ∈ ks := by
  induction sections with
  | nil => simp
  | cons head _ ih =>
    intro r member
    rcases List.mem_append.mp member with first | later
    · rw [own _ _ head r first]; exact List.mem_cons_self
    · exact List.mem_cons_of_mem _ (ih r later)

theorem pairwise {R : ρ → ρ → Prop} {S : κ → κ → Prop} (sections : Sections holds ks xs)
    (own : ∀ k rows, holds k rows → ∀ r ∈ rows, key r = k) (inside : ∀ k rows, holds k rows → rows.Pairwise R)
    (ordered : ks.Pairwise S) (across : ∀ a b, S (key a) (key b) → R a b) : xs.Pairwise R := by
  induction sections with
  | nil => exact .nil
  | @cons k ks rows rest head next ih =>
    obtain ⟨before, ordered⟩ := List.pairwise_cons.mp ordered
    refine List.pairwise_append.mpr ⟨inside k rows head, ih ordered, fun a ha b hb => across a b ?_⟩
    rw [own k rows head a ha]
    exact before (key b) (next.keyKnown own b hb)

variable [DecidableEq κ]

theorem filterOther (sections : Sections holds ks xs) (own : ∀ k rows, holds k rows → ∀ r ∈ rows, key r = k) {k : κ}
    (other : k ∉ ks) : xs.filter (key · = k) = [] :=
  List.filter_eq_nil_iff.mpr fun r member => by
    have different : key r ≠ k := fun same => other (same ▸ sections.keyKnown own r member)
    simpa using different

theorem filterOwn (sections : Sections holds ks xs) (own : ∀ k rows, holds k rows → ∀ r ∈ rows, key r = k)
    (distinct : ks.Nodup) {k : κ} (member : k ∈ ks) : holds k (xs.filter (key · = k)) := by
  induction sections with
  | nil => simp at member
  | @cons first ks rows rest head next ih =>
    obtain ⟨fresh, distinct⟩ := List.nodup_cons.mp distinct
    rw [List.filter_append]
    rcases List.mem_cons.mp member with rfl | later
    · have all : rows.filter (key · = k) = rows :=
        List.filter_eq_self.mpr fun r inside => by simpa using own k rows head r inside
      rw [all, next.filterOther own fresh, List.append_nil]
      exact head
    · have none : rows.filter (key · = k) = [] :=
        List.filter_eq_nil_iff.mpr fun r inside => by
          have different : key r ≠ k := fun same => fresh (own first rows head r inside ▸ same ▸ later)
          simpa using different
      rw [none, List.nil_append]
      exact ih distinct later

end Key

end Sections

theorem gathered [DecidableEq κ] {keys : List κ} (distinct : keys.Nodup) {key : ρ → κ} {rows : List ρ} {p : ρ → Bool}
    (own : ∀ r ∈ rows, p r ↔ key r ∈ keys) : (keys.flatMap fun k => rows.filter (key · = k)).Perm (rows.filter p) := by
  induction keys generalizing p with
  | nil =>
    have none : rows.filter p = [] := List.filter_eq_nil_iff.mpr fun r member known => by simpa using (own r member).mp known
    simp [none]
  | cons first rest ih =>
    obtain ⟨fresh, distinct⟩ := List.nodup_cons.mp distinct
    have later := ih (p := fun r => p r && !decide (key r = first)) distinct fun r member => by
      have known := own r member
      by_cases same : key r = first <;> simp_all
    have here : (rows.filter p).filter (key · = first) = rows.filter (key · = first) := by
      rw [List.filter_filter]
      refine List.filter_congr fun r member => ?_
      have known := own r member
      by_cases same : key r = first <;> simp_all
    have there : (rows.filter p).filter (fun r => !decide (key r = first)) =
        rows.filter fun r => p r && !decide (key r = first) := by
      rw [List.filter_filter]
      exact List.filter_congr fun r _ => Bool.and_comm _ _
    have split := List.filter_append_perm (key · = first) (rows.filter p)
    rw [here, there] at split
    exact (later.append_left _).trans split

end TransitTimeline
