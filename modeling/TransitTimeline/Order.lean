import Std.Data.TreeMap
import Std.Data.TreeSet
import TransitTimeline.Instant

/-! Order of keys, stable sorting by a key, and rows found or gathered by a key. -/
namespace TransitTimeline
open Std

instance pairOrd {α β : Type} [Ord α] [Ord β] : Ord (α × β) := lexOrd
instance pairTransOrd {α β : Type} [Ord α] [Ord β] [TransOrd α] [TransOrd β] : TransOrd (α × β) :=
  inferInstanceAs (TransCmp (compareLex (compareOn Prod.fst) (compareOn Prod.snd)))
instance : TransOrd Instant := inferInstanceAs (TransCmp (compareOn Instant.nanos))
instance : TransOrd Day := inferInstanceAs (TransCmp (compareOn Day.number))

variable {κ ρ : Type} [Ord κ]

def keyed (key : ρ → κ) (rows : List ρ) : List (κ × ρ) := rows.map fun r => (key r, r)

def sortOn (key : ρ → κ) (rows : List ρ) : List ρ :=
  ((keyed key rows).mergeSort fun a b => (compare a.1 b.1).isLE).map (·.2)

theorem sortOnPerm (key : ρ → κ) (rows : List ρ) : (sortOn key rows).Perm rows := by
  have := (List.mergeSort_perm (keyed key rows) fun a b => (compare a.1 b.1).isLE).map (·.2)
  simpa [sortOn, keyed, Function.comp_def] using this

theorem memSortOn {key : ρ → κ} {rows : List ρ} {r : ρ} : r ∈ sortOn key rows ↔ r ∈ rows :=
  (sortOnPerm key rows).mem_iff

def firstLeast (key : ρ → κ) : List ρ → Option ρ
  | [] => none
  | r :: rest =>
    match firstLeast key rest with
    | none => some r
    | some s => if (compare (key s) (key r)).isLT then some s else some r

theorem firstLeastMem {key : ρ → κ} {rows : List ρ} {r : ρ} (h : firstLeast key rows = some r) : r ∈ rows := by
  induction rows generalizing r with
  | nil => simp [firstLeast] at h
  | cons x rest ih =>
    simp only [firstLeast] at h
    split at h
    · cases h; exact List.mem_cons_self
    · rename_i s hs
      split at h <;> cases h
      · exact List.mem_cons_of_mem _ (ih hs)
      · exact List.mem_cons_self

theorem firstLeastIsSome (key : ρ → κ) {rows : List ρ} (h : rows ≠ []) : (firstLeast key rows).isSome := by
  cases rows with
  | nil => exact absurd rfl h
  | cons r rest =>
    simp only [firstLeast]
    split
    · rfl
    · split <;> rfl

/-- One row for each key; of rows with the same key the last counts. -/
abbrev Index (κ ρ : Type) [Ord κ] := TreeMap κ ρ

namespace Index

def ofRows (key : ρ → κ) (rows : List ρ) : Index κ ρ := rows.foldl (fun t r => t.insert (key r) r) {}

def find? (t : Index κ ρ) (k : κ) : Option ρ := t[k]?

theorem findOfRows [TransOrd κ] (key : ρ → κ) (rows : List ρ) (k : κ) :
    (ofRows key rows).find? k = rows.reverse.find? fun r => compare (key r) k == .eq := by
  have step : ∀ (rows : List ρ) (t : Index κ ρ),
      (rows.foldl (fun t r => t.insert (key r) r) t).find? k =
        (rows.reverse.find? fun r => compare (key r) k == .eq).or (t.find? k) := by
    intro rows
    induction rows with
    | nil => intro t; simp
    | cons r rest ih =>
      intro t
      rw [List.foldl_cons, ih]
      simp only [find?, TreeMap.getElem?_insert, List.reverse_cons, List.find?_append]
      cases rest.reverse.find? fun r => compare (key r) k == .eq with
      | some found => simp
      | none => by_cases h : compare (key r) k = .eq <;> simp [h]
  simpa [ofRows, find?] using step rows {}

end Index

abbrev Groups (κ ρ : Type) [Ord κ] := TreeMap κ (List ρ)

namespace Groups

def ofRows (key : ρ → κ) (rows : List ρ) : Groups κ ρ :=
  rows.foldr (fun r t => t.alter (key r) fun group => some (r :: group.getD [])) {}

def rows (t : Groups κ ρ) (k : κ) : List ρ := t[k]?.getD []

theorem rowsOfRows [TransOrd κ] (key : ρ → κ) (all : List ρ) (k : κ) :
    (ofRows key all).rows k = all.filter fun r => compare (key r) k == .eq := by
  induction all with
  | nil => simp [ofRows, rows]
  | cons r rest ih =>
    simp only [ofRows, rows] at ih
    simp only [ofRows, rows, List.foldr_cons, TreeMap.getElem?_alter, List.filter_cons]
    by_cases h : compare (key r) k = .eq
    · have same : (List.foldr (fun r (t : TreeMap κ (List ρ)) =>
          t.alter (key r) fun group => some (r :: group.getD [])) {} rest)[key r]? = _ :=
        TreeMap.getElem?_congr h
      simp [h, same, ih]
    · simp [h, ih]

end Groups

end TransitTimeline
