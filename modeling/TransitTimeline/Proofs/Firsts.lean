import TransitTimeline.Proofs.Gathering

/-! The first row of which something holds, and the least value that some row shows. -/
namespace TransitTimeline
open Std

variable {κ ρ σ α : Type}

def First (holds : ρ → Prop) (rows : List ρ) (r : ρ) : Prop :=
  ∃ before after, rows = before ++ r :: after ∧ holds r ∧ ∀ s ∈ before, ¬holds s

theorem First.mem {holds : ρ → Prop} {rows : List ρ} {r : ρ} (first : First holds rows r) : r ∈ rows ∧ holds r := by
  obtain ⟨before, after, rfl, own, _⟩ := first
  exact ⟨by simp, own⟩

theorem First.imp {holds other : ρ → Prop} {rows : List ρ} {r : ρ} (first : First holds rows r)
    (same : ∀ s ∈ rows, holds s ↔ other s) : First other rows r := by
  obtain ⟨before, after, rfl, own, none⟩ := first
  refine ⟨before, after, rfl, (same r (by simp)).mp own, ?_⟩
  intro s member also
  exact none s member ((same s (List.mem_append_left _ member)).mpr also)

theorem firstFound {holds : ρ → Bool} {rows : List ρ} {r : ρ} : rows.find? holds = some r ↔ First (fun s => holds s) rows r := by
  rw [List.find?_eq_some_iff_append]
  constructor
  · rintro ⟨own, before, after, shape, none⟩
    exact ⟨before, after, shape, own, fun s member => by simpa using none s member⟩
  · rintro ⟨before, after, shape, own, none⟩
    exact ⟨own, before, after, shape, fun s member => by simpa using none s member⟩

theorem First.source {f : ρ → Option σ} {holds : σ → Prop} {rows : List ρ} {s : σ} (first : First holds (rows.filterMap f) s) :
    ∃ r, First (fun x => ∃ t, f x = some t ∧ holds t) rows r ∧ f r = some s := by
  obtain ⟨before, after, shape, own, none⟩ := first
  obtain ⟨front, rest, rfl, early, behind⟩ := List.filterMap_eq_append_iff.mp shape
  obtain ⟨gap, r, late, rfl, nothing, read, _⟩ := List.filterMap_eq_cons_iff.mp behind
  refine ⟨r, ⟨front ++ gap, late, by simp, ⟨s, read, own⟩, ?_⟩, read⟩
  rintro x member ⟨t, known, held⟩
  rcases List.mem_append.mp member with inside | between
  · exact none t (early ▸ List.mem_filterMap.mpr ⟨x, inside, known⟩) held
  · rw [nothing x between] at known
    cases known

theorem Index.foundLast [Ord κ] [TransOrd κ] [LawfulEqOrd κ] {key : ρ → κ} {rows : List ρ} {k : κ} {r : ρ} :
    (Index.ofRows key rows).find? k = some r ↔ First (key · = k) rows.reverse r := by
  rw [Index.findOfRows, firstFound]
  have same : (fun s => (compare (key s) k == .eq) = true) = (key · = k) := by
    funext s
    simp
  rw [same]

def LastOf (holds : ρ → Prop) (rows : List ρ) (found : Option ρ) : Prop := ∀ r, found = some r ↔ First holds rows.reverse r

theorem LastOf.unique {holds : ρ → Prop} {rows : List ρ} {found other : Option ρ} (first : LastOf holds rows found)
    (second : LastOf holds rows other) : found = other :=
  Option.ext fun r => (first r).trans (second r).symm

inductive FirstPresent (holds : ρ → Prop) (value : ρ → Option α) (rows : List ρ) : Option α → Prop
  | absent (unknown : ∀ r ∈ rows, holds r → value r = none) : FirstPresent holds value rows none
  | present {r} (first : First (fun r => holds r ∧ (value r).isSome) rows r) : FirstPresent holds value rows (value r)

inductive Least [LE α] (known : α → Prop) : Option α → Prop
  | absent (unknown : ∀ a, ¬known a) : Least known none
  | present {a} (own : known a) (least : ∀ b, known b → a ≤ b) : Least known (some a)

section Read
variable {f : ρ → Option σ} {rows : List ρ}

theorem firstPresentOf {holds : ρ → Prop} {value : ρ → Option α} {shown : σ → Option α} (read : ∀ r, holds r ↔ ∃ s, f r = some s)
    (same : ∀ r s, f r = some s → shown s = value r) : FirstPresent holds value rows ((rows.filterMap f).findSome? shown) := by
  rw [← List.head?_filterMap, List.filterMap_filterMap, List.head?_filterMap]
  cases found : rows.findSome? fun r => (f r).bind shown with
  | none =>
    apply FirstPresent.absent
    intro r member own
    obtain ⟨s, known⟩ := (read r).mp own
    have unknown := List.findSome?_eq_none_iff.mp found r member
    rw [known] at unknown
    rw [← same r s known]
    exact unknown
  | some a =>
    obtain ⟨before, r, after, shape, own, none⟩ := List.findSome?_eq_some_iff.mp found
    obtain ⟨s, known, shows⟩ := Option.bind_eq_some_iff.mp own
    have here : value r = some a := (same r s known).symm.trans shows
    rw [← here]
    apply FirstPresent.present
    refine ⟨before, after, shape, ⟨(read r).mpr ⟨s, known⟩, by rw [here]; rfl⟩, ?_⟩
    rintro x member ⟨held, some⟩
    obtain ⟨t, read⟩ := (read x).mp held
    have unknown := none x member
    rw [read] at unknown
    rw [← same x t read, show shown t = .none from unknown] at some
    cases some

variable [Ord κ] [TransOrd κ] [LawfulEqOrd κ] {key : σ → κ}

theorem firstLeastFrom {s : σ} (found : firstLeast key (rows.filterMap f) = some s) :
    (∃ r, First (fun x => ∃ t, f x = some t ∧ key t = key s) rows r ∧ f r = some s) ∧
      ∀ x ∈ rows, ∀ t, f x = some t → (compare (key s) (key t)).isLE := by
  have least := firstLeastLeast found
  obtain ⟨before, after, shape, less, _⟩ := firstLeastSplit found
  have first : First (key · = key s) (rows.filterMap f) s := by
    refine ⟨before, after, shape, rfl, fun t member tie => ?_⟩
    have below := less t member
    simp [tie] at below
  exact ⟨first.source, fun x member t read => least t (List.mem_filterMap.mpr ⟨x, member, read⟩)⟩

end Read

section Reordered
variable [Ord κ] [TransOrd κ] [LawfulEqOrd κ] {key : ρ → κ} {rows others : List ρ}

theorem leastReordered (perm : rows.Perm others) : (firstLeast key rows).map key = (firstLeast key others).map key := by
  cases first : firstLeast key rows with
  | none =>
    cases second : firstLeast key others with
    | none => rfl
    | some s =>
      have filled := firstLeastIsSome key (List.ne_nil_of_mem (perm.mem_iff.mpr (firstLeastMem second)))
      simp [first] at filled
  | some r =>
    cases second : firstLeast key others with
    | none =>
      have filled := firstLeastIsSome key (List.ne_nil_of_mem (perm.mem_iff.mp (firstLeastMem first)))
      simp [second] at filled
    | some s =>
      have le := firstLeastLeast first s (perm.mem_iff.mpr (firstLeastMem second))
      have ge := firstLeastLeast second r (perm.mem_iff.mp (firstLeastMem first))
      have same : key r = key s := LawfulEqOrd.eq_of_compare (OrientedCmp.isLE_antisymm le ge)
      exact congrArg some same

end Reordered

end TransitTimeline
