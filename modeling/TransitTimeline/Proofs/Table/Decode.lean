import TransitTimeline.Proofs.Table.Cell
import TransitTimeline.Table.Decode

/-! Reading a row's own record by the names of its columns copies the row, column by column. -/
namespace TransitTimeline

def Text.nonempty (text : Option String) : Option String := text.filter (· ≠ "")

namespace Field
variable {ρ σ : Type}

def Admits (f : Field ρ) (row : ρ) : Prop :=
  match f.get row with
  | none => f.required = false
  | some cell => f.kind.Admits cell

instance (f : Field ρ) (row : ρ) : Decidable (f.Admits row) := by
  unfold Admits
  split <;> infer_instance

def copy (source row : ρ) (f : Field ρ) : Option ρ :=
  match f.get source with
  | none => some row
  | some cell => if cell = .text "" ∧ ¬f.required then some row else f.put cell row

section Copy
variable {name : String} {source row : ρ}

@[simp] theorem copyText {get : ρ → String} {put : ρ → String → ρ} :
    copy source row (.text name get put) = some (put row (get source)) := by
  simp [copy, text]

@[simp] theorem copyText? {get : ρ → Option String} {put : ρ → Option String → ρ} (blank : put row none = row) :
    copy source row (.text? name get put) = some (put row (Text.nonempty (get source))) := by
  unfold copy text? Text.nonempty
  cases value : get source with
  | none => simp [value, blank]
  | some s =>
    by_cases empty : s = ""
    · simp [value, empty, blank, Option.filter_some]
    · simp [value, empty, Option.filter_some]

@[simp] theorem copyInteger {bounds : Text.Bounds} {get : ρ → Int} {put : ρ → Int → ρ} :
    copy source row (.integer name bounds get put) = some (put row (get source)) := by
  simp [copy, integer]

@[simp] theorem copyInteger? {bounds : Text.Bounds} {get : ρ → Option Int} {put : ρ → Option Int → ρ}
    (blank : put row none = row) : copy source row (.integer? name bounds get put) = some (put row (get source)) := by
  unfold copy integer?
  cases value : get source <;> simp [value, blank]

@[simp] theorem copyReal? {get : ρ → Option Binary64} {put : ρ → Option Binary64 → ρ} (blank : put row none = row) :
    copy source row (.real? name get put) = some (put row (get source)) := by
  unfold copy real?
  cases value : get source <;> simp [value, blank]

@[simp] theorem copyFlag {get : ρ → Bool} {put : ρ → Bool → ρ} :
    copy source row (.flag name get put) = some (put row (get source)) := by
  simp [copy, flag]

@[simp] theorem copyDay {get : ρ → Day} {put : ρ → Day → ρ} :
    copy source row (.day name get put) = some (put row (get source)) := by
  simp [copy, day]

@[simp] theorem copyInstant? {get : ρ → Option Instant} {put : ρ → Option Instant → ρ} (blank : put row none = row) :
    copy source row (.instant? name get put) = some (put row (get source)) := by
  unfold copy instant?
  cases value : get source <;> simp [value, blank]

@[simp] theorem copyChoice {α : Type} {write : α → String} {read? : String → Option α} {get : ρ → α} {put : ρ → α → ρ}
    (inverse : ∀ v, read? (write v) = some v) :
    copy source row (.choice name write read? get put) = some (put row (get source)) := by
  simp [copy, choice, inverse]

theorem copyWithin {whole : σ → ρ} {replace : σ → ρ → σ} (own : ∀ s, replace s (whole s) = s)
    (kept : ∀ s v, whole (replace s v) = v) (again : ∀ s v w, replace (replace s v) w = replace s w)
    (fields : List (Field ρ)) (source row : σ) :
    (fields.map (.within whole replace)).foldlM (copy source) row =
      (fields.foldlM (copy (whole source)) (whole row)).map (replace row) := by
  have step (f : Field ρ) (row : σ) :
      copy source row (.within whole replace f) = (copy (whole source) (whole row) f).map (replace row) := by
    unfold copy within
    dsimp only
    split
    · rw [Option.map_some, own]
    · split
      · rw [Option.map_some, own]
      · rfl
  induction fields generalizing row with
  | nil => exact congrArg some (own row).symm
  | cons f fields ih =>
    rw [List.map_cons, List.foldlM_cons, List.foldlM_cons, step]
    cases copy (whole source) (whole row) f with
    | none => rfl
    | some part =>
      have behind : (fun v => replace (replace row part) v) = replace row := funext fun v => again row part v
      simp only [Option.map_some, Option.bind_eq_bind, Option.bind_some, ih, kept]
      exact congrArg (fun g => Option.map g _) behind

end Copy
end Field

namespace Table
variable {ρ : Type} {fields : List (Field ρ)} {source blank : ρ}

theorem filterOwn (distinct : (fields.map (·.name)).Nodup) {f : Field ρ} (member : f ∈ fields) :
    fields.filter (fun g => g.name = f.name) = [f] := by
  induction fields with
  | nil => cases member
  | cons g fields ih =>
    obtain ⟨fresh, others⟩ := List.nodup_cons.mp distinct
    rcases List.mem_cons.mp member with rfl | behind
    · have none : fields.filter (fun g => g.name = f.name) = [] := by
        rw [List.filter_eq_nil_iff]
        intro g inside
        simpa using fun same => fresh (List.mem_map.mpr ⟨g, inside, same⟩)
      rw [List.filter_cons_of_pos (by simp), none]
    · have other : g.name ≠ f.name := fun same => fresh (List.mem_map.mpr ⟨f, behind, same.symm⟩)
      rw [List.filter_cons_of_neg (by simpa using other), ih others behind]

theorem columnOwn {text : Field ρ → String} (distinct : (fields.map (·.name)).Nodup) {f : Field ρ} (member : f ∈ fields) :
    column? (fields.map (·.name)) (fields.map text) f.name = some (some (text f)) := by
  have own : ((fields.map (·.name)).zip (fields.map text)).filter (·.1 = f.name) = [(f.name, text f)] := by
    rw [List.zip_map', List.filter_map]
    exact congrArg (List.map fun f => (f.name, text f)) (filterOwn distinct member)
  rw [column?, own]

theorem putTextOwn {f : Field ρ} (row : ρ) (admits : f.Admits source)
    (finite : ∀ x, f.get source = some (.real x) → x.isFinite) :
    putText row f (((f.get source).map Cell.plain).getD "") = f.copy source row := by
  unfold Field.Admits at admits
  unfold putText Field.copy
  cases value : f.get source with
  | none =>
    rw [value] at admits
    simp [admits]
  | some cell =>
    rw [value] at admits finite
    have finite : ∀ x, cell = .real x → x.isFinite := fun x own => finite x (congrArg some own)
    have read := Kind.plainReads admits finite
    have empty : cell.plain.isEmpty = true ↔ cell = .text "" := by
      rw [String.isEmpty_iff]
      constructor
      · exact Kind.plainEmpty admits finite
      · rintro rfl
        rfl
    simp only [Option.map_some, Option.getD_some, empty, read, Option.bind_eq_bind, Option.bind_some]

theorem readRowOwn (distinct : (fields.map (·.name)).Nodup) (admits : ∀ f ∈ fields, f.Admits source)
    (finite : ∀ f ∈ fields, ∀ x, f.get source = some (.real x) → x.isFinite) (blank : ρ) :
    readRow fields blank (some (fields.map (·.name))) (Field.record fields source) =
      fields.foldlM (Field.copy source) blank := by
  have step {f : Field ρ} (member : f ∈ fields) (row : ρ) :
      readField (fields.map (·.name)) (Field.record fields source) row f = f.copy source row := by
    rw [readField, Field.record, columnOwn distinct member]
    exact putTextOwn row (admits f member) (finite f member)
  have run (some : List (Field ρ)) (inside : ∀ f ∈ some, f ∈ fields) (row : ρ) :
      some.foldlM (readField (fields.map (·.name)) (Field.record fields source)) row = some.foldlM (Field.copy source) row := by
    induction some generalizing row with
    | nil => rfl
    | cons f some ih =>
      obtain ⟨first, others⟩ := List.forall_mem_cons.mp inside
      rw [List.foldlM_cons, List.foldlM_cons, step first]
      exact congrArg (Option.bind _) (funext fun row => ih others row)
  exact run fields (fun _ member => member) blank

end Table
end TransitTimeline
