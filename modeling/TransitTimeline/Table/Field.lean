import TransitTimeline.Table.Cell

/-! Named fields of a row type. A table is described once by the list of its fields, and this list reads rows,
writes them, and names their columns. -/
namespace TransitTimeline

structure Field (ρ : Type) where
  name : String
  kind : Kind
  required : Bool
  get : ρ → Option Cell
  put : Cell → ρ → Option ρ

namespace Field
variable {ρ σ : Type}

def text (name : String) (get : ρ → String) (put : ρ → String → ρ) : Field ρ :=
  ⟨name, .text, true, fun r => some (.text (get r)),
    fun c r => match c with | .text v => some (put r v) | _ => none⟩

def text? (name : String) (get : ρ → Option String) (put : ρ → Option String → ρ) : Field ρ :=
  ⟨name, .text, false, fun r => (get r).map .text,
    fun c r => match c with | .text v => some (put r (some v)) | _ => none⟩

def integer (name : String) (bounds : Text.Bounds) (get : ρ → Int) (put : ρ → Int → ρ) : Field ρ :=
  ⟨name, .integer bounds, true, fun r => some (.integer (get r)),
    fun c r => match c with | .integer v => some (put r v) | _ => none⟩

def integer? (name : String) (bounds : Text.Bounds) (get : ρ → Option Int) (put : ρ → Option Int → ρ) : Field ρ :=
  ⟨name, .integer bounds, false, fun r => (get r).map .integer,
    fun c r => match c with | .integer v => some (put r (some v)) | _ => none⟩

def real? (name : String) (get : ρ → Option Binary64) (put : ρ → Option Binary64 → ρ) : Field ρ :=
  ⟨name, .real, false, fun r => (get r).map .real,
    fun c r => match c with | .real v => some (put r (some v)) | _ => none⟩

def flag (name : String) (get : ρ → Bool) (put : ρ → Bool → ρ) : Field ρ :=
  ⟨name, .flag, true, fun r => some (.flag (get r)),
    fun c r => match c with | .flag v => some (put r v) | _ => none⟩

def day (name : String) (get : ρ → Day) (put : ρ → Day → ρ) : Field ρ :=
  ⟨name, .day, true, fun r => some (.day (get r)),
    fun c r => match c with | .day v => some (put r v) | _ => none⟩

def instant? (name : String) (get : ρ → Option Instant) (put : ρ → Option Instant → ρ) : Field ρ :=
  ⟨name, .instant, false, fun r => (get r).map .instant,
    fun c r => match c with | .instant v => some (put r (some v)) | _ => none⟩

def choice {α : Type} (name : String) (write : α → String) (read? : String → Option α)
    (get : ρ → α) (put : ρ → α → ρ) : Field ρ :=
  ⟨name, .text, true, fun r => some (.text (write (get r))),
    fun c r => match c with | .text v => (read? v).map (put r) | _ => none⟩

def within (whole : σ → ρ) (replace : σ → ρ → σ) (f : Field ρ) : Field σ :=
  ⟨f.name, f.kind, f.required, fun s => f.get (whole s), fun c s => (f.put c (whole s)).map (replace s)⟩

def record (fields : List (Field ρ)) (row : ρ) : List String :=
  fields.map fun f => ((f.get row).map Cell.plain).getD ""

def members (fields : List (Field ρ)) (row : ρ) : List (String × Json) :=
  fields.map fun f => (f.name, ((f.get row).map Cell.json).getD .null)

end Field

end TransitTimeline
