import Mathlib.Data.List.Basic
import TransitTimeline.Order

/-! Sorting by a key, the first of the least, and groups, each with what it says of its rows. -/
namespace TransitTimeline
open Std

variable {κ ρ : Type}

instance : LawfulEqOrd Instant where
  eq_of_compare {a b} same := by
    have nanos : a.nanos = b.nanos := LawfulEqOrd.eq_of_compare (α := Int) same
    cases a
    cases b
    simpa using nanos

instance : LawfulEqOrd Day where
  eq_of_compare {a b} same := by
    have number : a.number = b.number := LawfulEqOrd.eq_of_compare (α := Int) same
    cases a
    cases b
    simpa using number

theorem memKeyed {key : ρ → κ} {rows : List ρ} {k : κ} {r : ρ} (member : (k, r) ∈ keyed key rows) : k = key r := by
  obtain ⟨s, _, same⟩ := List.mem_map.mp member
  cases same
  rfl

theorem comparePair {α β : Type} [Ord α] [Ord β] (a b : α × β) :
    compare a b = (compare a.1 b.1).then (compare a.2 b.2) := rfl

theorem compareMore {α β γ : Type} [Ord α] [Ord β] [Ord γ] {a x : α} {b y : β} (less : compare (a, b) (x, y) = .lt)
    (c z : γ) : compare (a, b, c) (x, y, z) = .lt := by
  rw [comparePair] at less
  rw [comparePair, comparePair]
  cases first : compare a x <;> simp_all

variable [Ord κ]

theorem orderedDistinct [TransOrd κ] {keys : List κ} (ordered : keys.Pairwise fun a b => compare a b = .lt) :
    keys.Nodup :=
  ordered.imp fun {a b} less same => by simp [same] at less

theorem compareTotal [OrientedOrd κ] (a b : κ) : ((compare a b).isLE || (compare b a).isLE) = true := by
  have swap : compare a b = (compare b a).swap := OrientedCmp.eq_swap
  rw [swap]
  cases compare b a <;> rfl

theorem lessOfDifferent [LawfulEqOrd κ] {a b : κ} (le : (compare a b).isLE) (different : a ≠ b) : compare a b = .lt := by
  cases order : compare a b with
  | lt => rfl
  | eq => exact absurd (LawfulEqOrd.eq_of_compare order) different
  | gt => simp [order] at le

theorem sortOnSorted [TransOrd κ] (key : ρ → κ) (rows : List ρ) :
    (sortOn key rows).Pairwise fun a b => (compare (key a) (key b)).isLE := by
  have sorted := List.pairwise_mergeSort (fun _ _ _ => TransCmp.isLE_trans) (fun a b => compareTotal a.1 b.1) (keyed key rows)
  refine List.pairwise_map.mpr (sorted.imp_of_mem fun {a b} ha hb le => ?_)
  rw [← memKeyed (List.mem_mergeSort.mp ha), ← memKeyed (List.mem_mergeSort.mp hb)]
  exact le

theorem sortOnOfSorted {key : ρ → κ} {rows : List ρ}
    (sorted : rows.Pairwise fun a b => (compare (key a) (key b)).isLE) : sortOn key rows = rows := by
  have kept : (keyed key rows).mergeSort (fun a b => (compare a.1 b.1).isLE) = keyed key rows :=
    List.mergeSort_of_pairwise (List.pairwise_map.mpr sorted)
  rw [sortOn, kept, keyed, List.map_map]
  exact List.map_id rows

theorem sortOnFilter [TransOrd κ] {key : ρ → κ} {rows : List ρ} {p : ρ → Bool}
    (sorted : (rows.filter p).Pairwise fun a b => (compare (key a) (key b)).isLE) :
    (sortOn key rows).filter p = rows.filter p := by
  have kept : (keyed key (rows.filter p)).Sublist ((keyed key rows).mergeSort fun a b => (compare a.1 b.1).isLE) :=
    List.sublist_mergeSort (fun _ _ _ => TransCmp.isLE_trans) (fun a b => compareTotal a.1 b.1)
      (List.pairwise_map.mpr sorted) (List.filter_sublist.map _)
  have inside : (rows.filter p).Sublist (sortOn key rows) := by
    have rowsKept := kept.map (·.2)
    simpa [sortOn, keyed, Function.comp_def] using rowsKept
  have filtered := inside.filter p
  rw [List.filter_filter] at filtered
  simp only [Bool.and_self] at filtered
  exact (filtered.eq_of_length ((sortOnPerm key rows).filter p).length_eq.symm).symm

theorem sortOnFind [TransOrd κ] [LawfulEqOrd κ] [DecidableEq κ] (key : ρ → κ) (rows : List ρ) (k : κ) :
    (sortOn key rows).find? (key · = k) = rows.find? (key · = k) := by
  have tied : (rows.filter (key · = k)).Pairwise fun a b => (compare (key a) (key b)).isLE := by
    refine List.pairwise_of_forall_mem_list fun a ha b hb => ?_
    rw [of_decide_eq_true (List.mem_filter.mp ha).2, of_decide_eq_true (List.mem_filter.mp hb).2]
    exact ReflCmp.isLE_rfl
  rw [← List.head?_filter, ← List.head?_filter, sortOnFilter tied]

theorem sortOnStable [TransOrd κ] {key : ρ → κ} {rows : List ρ} {before : ρ → ρ → Prop} (stood : rows.Pairwise before) :
    (sortOn key rows).Pairwise fun a b => compare (key a) (key b) = .lt ∨ compare (key a) (key b) = .eq ∧ before a b := by
  apply List.pairwise_iff_forall_sublist.mpr
  intro a b inside
  have le : (compare (key a) (key b)).isLE :=
    List.pairwise_iff_forall_sublist.mp (sortOnSorted key rows) inside
  cases order : compare (key a) (key b) with
  | lt => exact .inl rfl
  | gt => simp [order] at le
  | eq =>
    refine .inr ⟨rfl, ?_⟩
    have equal : (rows.filter fun r => compare (key r) (key b) = .eq).Pairwise fun x y => (compare (key x) (key y)).isLE := by
      refine List.pairwise_of_forall_mem_list fun x hx y hy => ?_
      have first := of_decide_eq_true (List.mem_filter.mp hx).2
      have second := of_decide_eq_true (List.mem_filter.mp hy).2
      rw [TransCmp.congr_left first, OrientedCmp.eq_symm second]
      rfl
    have kept := inside.filter fun r => compare (key r) (key b) = .eq
    rw [sortOnFilter equal] at kept
    simp only [List.filter_cons, order, ReflCmp.compare_self, decide_true, if_true, List.filter_nil] at kept
    exact List.pairwise_iff_forall_sublist.mp stood (kept.trans List.filter_sublist)

theorem sortOnMap {σ : Type} (key : σ → κ) (f : ρ → σ) (rows : List ρ) :
    sortOn key (rows.map f) = (sortOn (fun r => key (f r)) rows).map f := by
  have moved := List.map_mergeSort (f := fun x : κ × ρ => (x.1, f x.2)) (l := keyed (fun r => key (f r)) rows)
    (r := fun a b => (compare a.1 b.1).isLE) (s := fun a b => (compare a.1 b.1).isLE) fun _ _ _ _ => rfl
  rw [sortOn, sortOn, List.map_map, show keyed key (rows.map f) = (keyed (fun r => key (f r)) rows).map
    fun x : κ × ρ => (x.1, f x.2) by simp [keyed], ← moved, List.map_map]
  rfl

theorem firstLeastSplit [TransOrd κ] {key : ρ → κ} {rows : List ρ} {r : ρ} (found : firstLeast key rows = some r) :
    ∃ before after, rows = before ++ r :: after ∧ (∀ s ∈ before, compare (key r) (key s) = .lt) ∧
      ∀ s ∈ after, (compare (key r) (key s)).isLE := by
  induction rows generalizing r with
  | nil => simp [firstLeast] at found
  | cons x rest ih =>
    simp only [firstLeast] at found
    split at found
    · rename_i empty
      cases found
      have none : rest = [] := by
        cases rest with
        | nil => rfl
        | cons y ys => simpa [empty] using firstLeastIsSome key (List.cons_ne_nil y ys)
      exact ⟨[], rest, rfl, by simp, by simp [none]⟩
    · rename_i s hs
      obtain ⟨before, after, shape, less, least⟩ := ih hs
      split at found <;> cases found
      · rename_i lower
        refine ⟨x :: before, after, by rw [shape]; rfl, ?_, least⟩
        rintro y (_ | ⟨_, hy⟩)
        · exact Ordering.isLT_iff_eq_lt.mp lower
        · exact less y hy
      · rename_i kept
        have swap : compare (key x) (key s) = (compare (key s) (key x)).swap := OrientedCmp.eq_swap
        have head : (compare (key x) (key s)).isLE := by
          cases h : compare (key s) (key x) <;> simp_all
        refine ⟨[], rest, rfl, by simp, fun y hy => ?_⟩
        rw [shape] at hy
        rcases List.mem_append.mp hy with hy | hy
        · exact TransCmp.isLE_trans head (by simp [less y hy])
        · rcases List.mem_cons.mp hy with rfl | hy
          · exact head
          · exact TransCmp.isLE_trans head (least y hy)

theorem Index.keyOfFound [TransOrd κ] [LawfulEqOrd κ] {key : ρ → κ} {rows : List ρ} {k : κ} {r : ρ}
    (found : (Index.ofRows key rows).find? k = some r) : key r = k := by
  rw [Index.findOfRows] at found
  simpa using List.find?_some found

namespace Groups

theorem keysDistinct [TransOrd κ] (key : ρ → κ) (all : List ρ) : ((ofRows key all).toList.map Prod.fst).Nodup :=
  orderedDistinct (List.pairwise_map.mpr (ofRows key all).ordered_keys_toList)

variable [TransOrd κ] [LawfulEqOrd κ] [DecidableEq κ]

theorem rowsOfKey (key : ρ → κ) (all : List ρ) (k : κ) : (ofRows key all).rows k = all.filter (key · = k) := by
  rw [rowsOfRows]
  refine List.filter_congr fun r _ => ?_
  by_cases same : key r = k <;> simp [same]

theorem memKeys {key : ρ → κ} {all : List ρ} {k : κ} : k ∈ ofRows key all ↔ ∃ r ∈ all, key r = k := by
  induction all with
  | nil => simp [ofRows]
  | cons r rest ih =>
    simp only [ofRows] at ih
    simp only [ofRows, List.foldr_cons, List.exists_mem_cons_iff, ← ih]
    rw [TreeMap.mem_alter]
    by_cases same : key r = k <;> simp [same]

theorem memToList {key : ρ → κ} {all : List ρ} {k : κ} {group : List ρ} :
    (k, group) ∈ (ofRows key all).toList ↔ (∃ r ∈ all, key r = k) ∧ group = all.filter (key · = k) := by
  rw [TreeMap.mem_toList_iff_getElem?_eq_some, ← memKeys, ← rowsOfKey, TreeMap.mem_iff_isSome_getElem?, Groups.rows]
  cases (ofRows key all)[k]? with
  | none => simp
  | some rows => simpa using eq_comm

end Groups

end TransitTimeline
