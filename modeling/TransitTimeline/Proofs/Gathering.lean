import Mathlib.Data.List.Dedup
import Mathlib.Data.List.Nodup
import TransitTimeline.Proofs.Order
import TransitTimeline.Proofs.Sections

/-! Rows that come in another order. A look-up or a sort by a key that no two rows share does not see the order, and what
is gathered by a key sees of it only how the rows of each key follow each other. -/
namespace TransitTimeline
open Std

variable {κ ρ σ : Type}

section Keys
variable [DecidableEq κ]

/- The rows of each key in the same order; rows of different keys may be mixed in any way. -/
def Alike (key : ρ → κ) (rows others : List ρ) : Prop :=
  ∀ k, rows.filter (key · = k) = others.filter (key · = k)

namespace Alike
variable {key : ρ → κ} {rows others : List ρ}

theorem ofDistinct (distinct : (rows.map key).Nodup) (perm : rows.Perm others) : Alike key rows others := by
  intro k
  have also : (others.map key).Nodup := (perm.map key).nodup_iff.mp distinct
  have single {all : List ρ} (distinct : (all.map key).Nodup) : (all.filter (key · = k)).Pairwise fun _ _ => False := by
    apply ((List.pairwise_map.mp distinct).filter (key · = k)).imp_of_mem
    intro a b ha hb different
    have ka := (List.mem_filter.mp ha).2
    have kb := (List.mem_filter.mp hb).2
    exact different ((of_decide_eq_true ka).trans (of_decide_eq_true kb).symm)
  apply (perm.filter (key · = k)).eq_of_pairwise _ (single distinct) (single also)
  intro _ _ _ _ never
  cases never

theorem mem (alike : Alike key rows others) {r : ρ} : r ∈ rows ↔ r ∈ others := by
  have same := congrArg (r ∈ ·) (alike (key r))
  simpa using same

theorem perm (alike : Alike key rows others) : rows.Perm others := by
  have listed {all : List ρ} (within : ∀ r ∈ all, r ∈ rows) : ∀ r ∈ all, (fun _ => true) r ↔ key r ∈ (rows.map key).dedup := by
    intro r member
    simpa using ⟨r, within r member, rfl⟩
  have first := gathered (List.nodup_dedup (rows.map key)) (listed fun _ => id)
  have second := gathered (List.nodup_dedup (rows.map key)) (listed fun _ member => alike.mem.mpr member)
  rw [List.filter_true] at first second
  rw [List.flatMap_congr fun k _ => alike k] at first
  exact first.symm.trans second

end Alike

end Keys

variable [Ord κ] [TransOrd κ]

theorem firstLeastFirst (key : ρ → κ) (rows : List ρ) :
    firstLeast key rows = rows.find? fun r => rows.all fun s => (compare (key r) (key s)).isLE := by
  cases found : firstLeast key rows with
  | none =>
    cases rows with
    | nil => rfl
    | cons r rest => simpa [found] using firstLeastIsSome key (List.cons_ne_nil r rest)
  | some r =>
    obtain ⟨before, after, rfl, less, least⟩ := firstLeastSplit found
    have passed : before.find? (fun a => (before ++ r :: after).all fun s => (compare (key a) (key s)).isLE) = none := by
      apply List.find?_eq_none.mpr
      intro a member all
      have above := List.all_eq_true.mp all r (by simp)
      have swap : compare (key a) (key r) = (compare (key r) (key a)).swap := OrientedCmp.eq_swap
      rw [swap, less a member] at above
      cases above
    have own : (before ++ r :: after).all (fun s => (compare (key r) (key s)).isLE) = true := by
      apply List.all_eq_true.mpr
      intro s member
      rcases List.mem_append.mp member with early | late
      · simp [less s early]
      · rcases List.mem_cons.mp late with same | late
        · simp [same]
        · exact least s late
    rw [List.find?_append, passed, Option.none_or]
    simp only [List.find?_cons, own]

theorem firstLeastLeast {key : ρ → κ} {rows : List ρ} {r : ρ} (found : firstLeast key rows = some r) :
    ∀ s ∈ rows, (compare (key r) (key s)).isLE := by
  rw [firstLeastFirst] at found
  have all := List.find?_some found
  exact List.all_eq_true.mp all

theorem firstLeastAt {key : ρ → κ} {rows : List ρ} {p : ρ → Bool} {r : ρ} (found : firstLeast key (rows.filter p) = some r) :
    ∃ i : Nat, rows[i]? = some r ∧ ∀ (k : Nat) s, rows[k]? = some s → p s →
      compare (key r) (key s) = .lt ∨ compare (key r) (key s) = .eq ∧ i ≤ k := by
  have least := firstLeastLeast found
  rw [firstLeastFirst, List.find?_filter] at found
  obtain ⟨_, i, inside, here, before⟩ := List.find?_eq_some_iff_getElem.mp found
  refine ⟨i, by rw [List.getElem?_eq_getElem inside, here], ?_⟩
  intro k s there own
  have le := least s (List.mem_filter.mpr ⟨List.mem_of_getElem? there, own⟩)
  cases order : compare (key r) (key s) with
  | lt => exact .inl rfl
  | gt => simp [order] at le
  | eq =>
    refine .inr ⟨rfl, ?_⟩
    by_contra earlier
    obtain ⟨bound, same⟩ := List.getElem?_eq_some_iff.mp there
    have passed := before k (by omega)
    have all : ((rows.filter p).all fun t => (compare (key s) (key t)).isLE) = true := by
      apply List.all_eq_true.mpr
      intro t member
      rw [← TransCmp.congr_left order]
      exact least t member
    simp [same, own, all] at passed

section Ids
variable [LawfulEqOrd κ] {key : ρ → κ} {rows others : List ρ} {k : κ}

theorem memInserting (key : ρ → κ) (rows : List ρ) (ids : TreeSet κ) :
    k ∈ rows.foldl (fun ids r => ids.insert (key r)) ids ↔ k ∈ ids ∨ ∃ r ∈ rows, key r = k := by
  induction rows generalizing ids with
  | nil => simp
  | cons r rest ih =>
    rw [List.foldl_cons, ih, TreeSet.mem_insert, LawfulEqCmp.compare_eq_iff_eq, List.exists_mem_cons_iff]
    rw [or_assoc, or_left_comm]

theorem insertedReordered (perm : rows.Perm others) (k : κ) :
    (rows.foldl (fun ids r => ids.insert (key r)) (∅ : TreeSet κ)).contains k =
      (others.foldl (fun ids r => ids.insert (key r)) (∅ : TreeSet κ)).contains k := by
  rw [Bool.eq_iff_iff, TreeSet.contains_iff_mem, TreeSet.contains_iff_mem, memInserting, memInserting]
  simp only [perm.mem_iff]

end Ids

section Reordered
variable [LawfulEqOrd κ] {key : ρ → κ} {rows others : List ρ}

theorem sortOnReordered (distinct : (rows.map key).Nodup) (perm : rows.Perm others) : sortOn key rows = sortOn key others := by
  have same : (sortOn key rows).Perm (sortOn key others) :=
    ((sortOnPerm key rows).trans perm).trans (sortOnPerm key others).symm
  apply List.Perm.eq_of_pairwise _ (sortOnSorted key rows) (sortOnSorted key others) same
  intro a b ha hb le ge
  have equal : key a = key b := LawfulEqOrd.eq_of_compare (OrientedCmp.isLE_antisymm le ge)
  exact List.inj_on_of_nodup_map distinct (memSortOn.mp ha) (perm.mem_iff.mpr (memSortOn.mp hb)) equal

theorem Index.findAgreed (agreed : ∀ a ∈ rows, ∀ b ∈ rows, key a = key b → a = b) {k : κ} {r : ρ} :
    (ofRows key rows).find? k = some r ↔ r ∈ rows ∧ key r = k := by
  constructor
  · intro found
    refine ⟨?_, keyOfFound found⟩
    rw [findOfRows] at found
    exact List.mem_reverse.mp (List.mem_of_find?_eq_some found)
  · intro known
    obtain ⟨member, rfl⟩ := known
    cases found : (ofRows key rows).find? (key r) with
    | none =>
      rw [findOfRows, List.find?_eq_none] at found
      simpa using found r (List.mem_reverse.mpr member)
    | some s =>
      have same := keyOfFound found
      rw [findOfRows] at found
      have inside := List.mem_reverse.mp (List.mem_of_find?_eq_some found)
      rw [agreed s inside r member same]

theorem Index.findKnown (distinct : (rows.map key).Nodup) {k : κ} {r : ρ} :
    (ofRows key rows).find? k = some r ↔ r ∈ rows ∧ key r = k :=
  findAgreed fun _ ha _ hb same => List.inj_on_of_nodup_map distinct ha hb same

theorem Index.findReordered (distinct : (rows.map key).Nodup) (perm : rows.Perm others) (k : κ) :
    (ofRows key rows).find? k = (ofRows key others).find? k := by
  have also : (others.map key).Nodup := (perm.map key).nodup_iff.mp distinct
  apply Option.ext
  intro r
  rw [findKnown distinct, findKnown also, perm.mem_iff]

end Reordered

section Gathered
variable [LawfulEqOrd κ] [DecidableEq κ] {key : ρ → κ} {rows others : List ρ}

theorem Groups.listed (key : ρ → κ) (rows : List ρ) :
    (ofRows key rows).toList = (ofRows key rows).keys.map fun k => (k, rows.filter (key · = k)) := by
  have each : ∀ group ∈ (ofRows key rows).toList, id group = (group.1, rows.filter (key · = group.1)) := by
    intro group member
    exact Prod.ext rfl (memToList.mp member).2
  have whole := List.map_congr_left each
  rw [List.map_id] at whole
  rw [← TreeMap.map_fst_toList_eq_keys, List.map_map]
  exact whole

theorem Groups.keysSame (known : ∀ k, (∃ r ∈ rows, key r = k) ↔ ∃ r ∈ others, key r = k) :
    (ofRows key rows).keys = (ofRows key others).keys := by
  have perm : (ofRows key rows).keys.Perm (ofRows key others).keys := by
    apply (List.perm_ext_iff_of_nodup (orderedDistinct TreeMap.ordered_keys) (orderedDistinct TreeMap.ordered_keys)).mpr
    intro k
    rw [TreeMap.mem_keys, TreeMap.mem_keys, memKeys, memKeys, known]
  apply List.Perm.eq_of_pairwise _ TreeMap.ordered_keys TreeMap.ordered_keys perm
  intro a b _ _ less greater
  have swap : compare b a = (compare a b).swap := OrientedCmp.eq_swap
  rw [swap, less] at greater
  cases greater

theorem Groups.mapSame {f : κ × List ρ → σ} (known : ∀ k, (∃ r ∈ rows, key r = k) ↔ ∃ r ∈ others, key r = k)
    (same : ∀ k, f (k, rows.filter (key · = k)) = f (k, others.filter (key · = k))) :
    (ofRows key rows).toList.map f = (ofRows key others).toList.map f := by
  rw [listed, listed, keysSame known, List.map_map, List.map_map]
  exact List.map_congr_left fun k _ => same k

theorem Alike.groups (alike : Alike key rows others) :
    (Groups.ofRows key rows).toList = (Groups.ofRows key others).toList := by
  have same := Groups.mapSame (f := id) (fun k => by simp only [alike.mem]) fun k => congrArg (Prod.mk k) (alike k)
  rwa [List.map_id, List.map_id] at same

end Gathered

end TransitTimeline
