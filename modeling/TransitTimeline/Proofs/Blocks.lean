import Mathlib.Data.List.SplitBy
import TransitTimeline.Proofs.Order

/-! Rows that stand together by a key: the blocks of a list, each with its own key. -/
namespace TransitTimeline
variable {κ ρ : Type}

structure Blocks (key : ρ → κ) (blocks : List (List ρ)) : Prop where
  filled : [] ∉ blocks
  uniform : ∀ block ∈ blocks, ∀ a ∈ block, ∀ b ∈ block, key a = key b
  apart : blocks.Pairwise fun x y => ∀ a ∈ x, ∀ b ∈ y, key a ≠ key b

namespace Blocks
variable {key : ρ → κ} {blocks : List (List ρ)}

theorem tail {block : List ρ} (h : Blocks key (block :: blocks)) : Blocks key blocks where
  filled := fun member => h.filled (List.mem_cons_of_mem _ member)
  uniform := fun other member => h.uniform other (List.mem_cons_of_mem _ member)
  apart := (List.pairwise_cons.mp h.apart).2

theorem split [DecidableEq κ] (h : Blocks key blocks) :
    blocks.flatten.splitBy (fun a b => key a = key b) = blocks := by
  refine List.splitBy_flatten h.filled (fun block member => ?_) (h.apart.imp_of_mem ?_).isChain
  · refine (List.pairwise_of_forall_mem_list fun a ha b hb => ?_).isChain
    simpa using h.uniform block member a ha b hb
  · intro x y hx hy apart
    have filled : ∀ z ∈ blocks, z ≠ [] := fun z hz empty => h.filled (empty ▸ hz)
    refine ⟨filled x hx, filled y hy, ?_⟩
    simpa using apart _ (List.getLast_mem _) _ (List.head_mem _)

theorem filterKey [DecidableEq κ] (h : Blocks key blocks) {block : List ρ} (member : block ∈ blocks) {a : ρ}
    (inside : a ∈ block) : blocks.flatten.filter (key · = key a) = block := by
  induction blocks with
  | nil => simp at member
  | cons first rest ih =>
    obtain ⟨apart, _⟩ := List.pairwise_cons.mp h.apart
    rw [List.flatten_cons, List.filter_append]
    rcases List.mem_cons.mp member with rfl | member
    · have own : block.filter (key · = key a) = block :=
        List.filter_eq_self.mpr fun b hb => by simpa using h.uniform block (by simp) b hb a inside
      have others : rest.flatten.filter (key · = key a) = [] := by
        refine List.filter_eq_nil_iff.mpr fun b hb => ?_
        obtain ⟨other, ho, hb⟩ := List.mem_flatten.mp hb
        simpa using Ne.symm (apart other ho a inside b hb)
      rw [own, others, List.append_nil]
    · have others : first.filter (key · = key a) = [] :=
        List.filter_eq_nil_iff.mpr fun b hb => by simpa using apart block member b hb a inside
      rw [others, List.nil_append, ih h.tail member]

theorem filterAny [DecidableEq κ] (h : Blocks key blocks) (k : κ) :
    blocks.flatten.filter (key · = k) = [] ∨ blocks.flatten.filter (key · = k) ∈ blocks := by
  by_cases known : ∃ a ∈ blocks.flatten, key a = k
  · obtain ⟨a, ha, rfl⟩ := known
    obtain ⟨block, member, inside⟩ := List.mem_flatten.mp ha
    exact .inr (by rw [h.filterKey member inside]; exact member)
  · refine .inl (List.filter_eq_nil_iff.mpr fun a ha => ?_)
    simpa using fun same => known ⟨a, ha, same⟩

theorem flatMapFilter {σ : Type} [DecidableEq κ] (h : Blocks key blocks) {f : List ρ → List σ} {keyOf : σ → κ}
    (own : ∀ block, ∀ b ∈ f block, ∃ a ∈ block, keyOf b = key a) (k : κ) :
    (blocks.flatMap f).filter (keyOf · = k) = f (blocks.flatten.filter (key · = k)) := by
  have absent {block : List ρ} (other : ∀ a ∈ block, key a ≠ k) : (f block).filter (keyOf · = k) = [] := by
    refine List.filter_eq_nil_iff.mpr fun b hb => ?_
    obtain ⟨a, ha, same⟩ := own block b hb
    simpa [same] using other a ha
  induction blocks with
  | nil =>
    have none : f [] = [] := List.eq_nil_iff_forall_not_mem.mpr fun b hb => by simpa using own [] b hb
    simp [none]
  | cons block rest ih =>
    obtain ⟨apart, _⟩ := List.pairwise_cons.mp h.apart
    rw [List.flatMap_cons, List.filter_append]
    by_cases known : ∃ a ∈ block, key a = k
    · obtain ⟨a, inside, rfl⟩ := known
      have whole : (f block).filter (keyOf · = key a) = f block := by
        refine List.filter_eq_self.mpr fun b hb => ?_
        obtain ⟨c, hc, same⟩ := own block b hb
        simpa [same] using h.uniform block List.mem_cons_self c hc a inside
      have others : (rest.flatMap f).filter (keyOf · = key a) = [] := by
        rw [List.filter_flatMap, List.flatMap_eq_nil_iff]
        exact fun other member => absent fun b hb => Ne.symm (apart other member a inside b hb)
      rw [whole, others, List.append_nil, h.filterKey List.mem_cons_self inside]
    · have other : ∀ a ∈ block, key a ≠ k := fun a ha same => known ⟨a, ha, same⟩
      have none : block.filter (key · = k) = [] :=
        List.filter_eq_nil_iff.mpr fun a ha => by simpa using other a ha
      rw [absent other, List.nil_append, ih h.tail, List.flatten_cons, List.filter_append, none, List.nil_append]

theorem memTail {first : List ρ} (h : Blocks key (first :: blocks)) {a r : ρ} (inside : a ∈ first) :
    (∃ block ∈ blocks, r ∈ block) ↔ r ∈ (first :: blocks).flatten ∧ key r ≠ key a := by
  constructor
  · rintro ⟨block, member, own⟩
    refine ⟨List.mem_flatten.mpr ⟨block, List.mem_cons_of_mem _ member, own⟩, ?_⟩
    exact Ne.symm ((List.pairwise_cons.mp h.apart).1 block member a inside r own)
  · rintro ⟨known, other⟩
    obtain ⟨block, member, own⟩ := List.mem_flatten.mp known
    rcases List.mem_cons.mp member with rfl | later
    · exact absurd (h.uniform block List.mem_cons_self r own a inside) other
    · exact ⟨block, later, own⟩

theorem shrink [DecidableEq κ] (h : Blocks key blocks) {f : List ρ → List ρ} (part : ∀ block, f block ⊆ block) :
    Blocks key ((blocks.map f).filter (· ≠ [])) where
  filled := by simp
  uniform := by
    intro small member a ha b hb
    obtain ⟨block, hblock, rfl⟩ := List.mem_map.mp (List.mem_of_mem_filter member)
    exact h.uniform block hblock a (part _ ha) b (part _ hb)
  apart := by
    refine List.Pairwise.filter _ (List.pairwise_map.mpr (h.apart.imp fun {x y} apart a ha b hb => ?_))
    exact apart a (part _ ha) b (part _ hb)

end Blocks

theorem flattenFilled (blocks : List (List ρ)) : (blocks.filter (· ≠ [])).flatten = blocks.flatten := by
  induction blocks with
  | nil => rfl
  | cons block rest ih => cases block <;> simp_all

theorem splitSublist {same : ρ → ρ → Bool} {rows block : List ρ} (member : block ∈ rows.splitBy same) :
    block.Sublist rows := by
  have inside := List.sublist_flatten_of_mem member
  rwa [List.flatten_splitBy] at inside

section Split
variable [DecidableEq κ]

theorem splitUniform (key : ρ → κ) (rows : List ρ) {block : List ρ}
    (member : block ∈ rows.splitBy fun a b => key a = key b) : ∀ a ∈ block, ∀ b ∈ block, key a = key b := by
  have chain : block.IsChain fun a b => key a = key b :=
    (List.isChain_of_mem_splitBy member).imp fun a b same => by simpa using same
  have trans : IsTrans ρ fun a b => key a = key b := ⟨fun _ _ _ first second => first.trans second⟩
  have forward : block.Pairwise fun a b => key a = key b := chain.pairwise
  have backward : block.Pairwise (flip fun a b => key a = key b) := forward.imp Eq.symm
  have reflexive : ∀ a ∈ block, key a = key a := fun _ _ => rfl
  intro a ha b hb
  exact List.Pairwise.forall_of_forall_of_flip reflexive forward backward ha hb

def Grouped (key : ρ → κ) (rows : List ρ) : Prop :=
  (rows.splitBy fun a b => key a = key b).Pairwise fun x y => ∀ a ∈ x, ∀ b ∈ y, key a ≠ key b

theorem Grouped.blocks {key : ρ → κ} {rows : List ρ} (grouped : Grouped key rows) :
    Blocks key (rows.splitBy fun a b => key a = key b) :=
  ⟨List.nil_notMem_splitBy _ _, fun _ member => splitUniform key rows member, grouped⟩

section Sorted
open Std
variable [Ord κ] [TransOrd κ] [LawfulEqOrd κ]

omit [DecidableEq κ] in
/- Neighbouring blocks differ in their keys, so where the rows are sorted, the keys of blocks ascend. -/
theorem ascendingBlocks {key : ρ → κ} {blocks : List (List ρ)} (filled : [] ∉ blocks)
    (sorted : blocks.flatten.Pairwise fun a b => (compare (key a) (key b)).isLE)
    (uniform : ∀ block ∈ blocks, ∀ a ∈ block, ∀ b ∈ block, key a = key b)
    (differ : blocks.IsChain fun x y => ∃ a ∈ x, ∃ b ∈ y, key a ≠ key b) :
    blocks.Pairwise fun x y => ∀ a ∈ x, ∀ b ∈ y, compare (key a) (key b) = .lt := by
  induction blocks with
  | nil => exact .nil
  | cons x rest ih =>
    rw [List.flatten_cons, List.pairwise_append] at sorted
    have later := ih (fun member => filled (List.mem_cons_of_mem _ member)) sorted.2.1
      (fun block member => uniform block (List.mem_cons_of_mem _ member)) differ.tail
    refine List.pairwise_cons.mpr ⟨?_, later⟩
    cases rest with
    | nil => simp
    | cons y others =>
      have next : ∀ a ∈ x, ∀ b ∈ y, compare (key a) (key b) = .lt := by
        intro a ha b hb
        obtain ⟨a', ha', b', hb', different⟩ := (List.isChain_cons_cons.mp differ).1
        rw [← uniform x (by simp) a ha a' ha', ← uniform y (by simp) b hb b' hb'] at different
        exact lessOfDifferent (sorted.2.2 a ha b (by simp [hb])) different
      intro z hz a ha c hc
      rcases List.mem_cons.mp hz with rfl | hz
      · exact next a ha c hc
      · obtain ⟨b, hb⟩ := List.exists_mem_of_ne_nil y fun empty => filled (by simp [empty])
        exact TransCmp.lt_trans (next a ha b hb) ((List.pairwise_cons.mp later).1 z hz b hb c hc)

theorem groupedOfSorted {key : ρ → κ} {rows : List ρ}
    (sorted : rows.Pairwise fun a b => (compare (key a) (key b)).isLE) : Grouped key rows := by
  have chain : (rows.splitBy fun a b => key a = key b).IsChain fun x y => ∃ a ∈ x, ∃ b ∈ y, key a ≠ key b :=
    (List.isChain_getLast_head_splitBy _ rows).imp fun x y ⟨hx, hy, differ⟩ =>
      ⟨_, List.getLast_mem hx, _, List.head_mem hy, by simpa using differ⟩
  have ascending := ascendingBlocks (List.nil_notMem_splitBy _ rows) (by rwa [List.flatten_splitBy])
    (fun _ member => splitUniform key rows member) chain
  refine ascending.imp fun {x y} less a ha b hb same => ?_
  simpa [same] using less a ha b hb

end Sorted

end Split

end TransitTimeline
