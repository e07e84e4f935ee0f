import TransitTimeline.Proofs.Gathering
import TransitTimeline.Proofs.Paired

/-! Rows that are read again. What keeps the first row, the first of the least or one row for each key does not see a row
that it has read before. -/
namespace TransitTimeline
open Std

variable {κ ρ σ τ : Type}

/- The rows with further copies of them, each somewhere behind a row that it repeats. -/
inductive Reread (rows : List ρ) : List ρ → Prop
  | once : Reread rows rows
  | again {before after r} (next : Reread rows (before ++ after)) (seen : r ∈ before) : Reread rows (before ++ r :: after)

theorem Reread.append {rows file : List ρ} (seen : file ⊆ rows) : Reread rows (rows ++ file) := by
  induction file with
  | nil =>
    rw [List.append_nil]
    exact .once
  | cons r rest ih =>
    obtain ⟨first, later⟩ := List.cons_subset.mp seen
    exact .again (ih later) first

def IgnoresRepeats (f : List ρ → σ) : Prop :=
  ∀ before r after, r ∈ before → f (before ++ r :: after) = f (before ++ after)

theorem memAgain {before after : List ρ} {r : ρ} (seen : r ∈ before) (s : ρ) :
    s ∈ before ++ r :: after ↔ s ∈ before ++ after := by
  rw [List.mem_append, List.mem_append, List.mem_cons]
  constructor
  · intro member
    obtain early | rfl | late := member
    · exact .inl early
    · exact .inl seen
    · exact .inr late
  · intro member
    exact member.imp_right .inr

theorem IgnoresRepeats.reread {f : List ρ → σ} (ignores : IgnoresRepeats f) {rows others : List ρ}
    (reread : Reread rows others) : f others = f rows := by
  induction reread with
  | once => rfl
  | again _ seen ih => exact (ignores _ _ _ seen).trans ih

namespace IgnoresRepeats

theorem comp {f : List ρ → σ} (ignores : IgnoresRepeats f) (g : σ → τ) : IgnoresRepeats fun rows => g (f rows) :=
  fun before r after seen => congrArg g (ignores before r after seen)

theorem filterMap {f : List σ → τ} (ignores : IgnoresRepeats f) (g : ρ → Option σ) :
    IgnoresRepeats fun rows => f (rows.filterMap g) := by
  intro before r after seen
  simp only [List.filterMap_append, List.filterMap_cons]
  cases known : g r with
  | none => rfl
  | some s => exact ignores _ s _ (List.mem_filterMap.mpr ⟨r, seen, known⟩)

theorem filter {f : List ρ → τ} (ignores : IgnoresRepeats f) (p : ρ → Bool) : IgnoresRepeats fun rows => f (rows.filter p) := by
  have mapped := ignores.filterMap (Option.guard p)
  simpa only [List.filterMap_eq_filter] using mapped

theorem findSome (g : ρ → Option σ) : IgnoresRepeats (List.findSome? g) := by
  intro before r after seen
  rw [List.findSome?_append, List.findSome?_append]
  cases found : before.findSome? g with
  | some s => rfl
  | none =>
    have unknown : g r = none := List.findSome?_eq_none_iff.mp found r seen
    rw [List.findSome?_cons, unknown]

theorem find (p : ρ → Bool) : IgnoresRepeats (List.find? p) := by
  have same : List.find? p = List.findSome? (Option.guard p) := funext fun _ => List.find?_eq_findSome?_guard
  rw [same]
  exact findSome _

variable [Ord κ] [TransOrd κ]

theorem firstLeast (key : ρ → κ) : IgnoresRepeats (firstLeast key) := by
  intro before r after seen
  have least : (fun s => (before ++ r :: after).all fun t => (compare (key s) (key t)).isLE) =
      fun s => (before ++ after).all fun t => (compare (key s) (key t)).isLE := by
    funext s
    rw [Bool.eq_iff_iff, List.all_eq_true, List.all_eq_true]
    simp only [memAgain seen]
  rw [firstLeastFirst, firstLeastFirst, least]
  exact find _ before r after seen

theorem groups [LawfulEqOrd κ] [DecidableEq κ] (key : ρ → κ) {f : κ × List ρ → σ}
    (each : ∀ k, IgnoresRepeats fun rows => f (k, rows)) :
    IgnoresRepeats fun rows => (Groups.ofRows key rows).toList.map f := by
  intro before r after seen
  apply Groups.mapSame
  · intro k
    simp only [memAgain seen]
  · intro k
    exact (each k).filter (key · = k) before r after seen

theorem mapM {ε : Type} {f : List σ → τ} (ignores : IgnoresRepeats f) (g : ρ → Except ε σ) :
    IgnoresRepeats fun rows => (rows.mapM g).map f := by
  intro before r after seen
  dsimp only
  rw [List.mapM_append, List.mapM_append, List.mapM_cons]
  cases early : before.mapM g with
  | error e => rfl
  | ok ys =>
    obtain ⟨y, once⟩ := mapMReturns.mp ⟨ys, early⟩ r seen
    have known : y ∈ ys := by
      have mapped : g r ∈ before.map g := List.mem_map_of_mem seen
      rw [mapMExactly.mp early, once] at mapped
      simpa using mapped
    rw [once]
    cases after.mapM g with
    | error e => rfl
    | ok zs => exact congrArg Except.ok (ignores ys y zs known)

end IgnoresRepeats

end TransitTimeline
