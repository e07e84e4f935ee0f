import TransitTimeline.Proofs.Table.Csv
import TransitTimeline.Proofs.Table.Decode
import TransitTimeline.Report.Text

/-! The published table of rows reads back: its records are the header and one record for each row, and the fields of a
record give the row again. -/
namespace TransitTimeline

def Timepoint.shown (t : Timepoint) : Timepoint :=
  { t with abbreviation := Text.nonempty t.abbreviation, name := Text.nonempty t.name }

def TripFacts.shown (f : TripFacts) : TripFacts where
  tripIdGtfs := Text.nonempty f.tripIdGtfs
  routeId := Text.nonempty f.routeId
  directionId := f.directionId
  direction := Text.nonempty f.direction
  destination := Text.nonempty f.destination
  serviceId := Text.nonempty f.serviceId
  blockId := Text.nonempty f.blockId
  patternId := Text.nonempty f.patternId
  tmPatternId := f.tmPatternId
  tmBlockId := Text.nonempty f.tmBlockId
  tmRunId := Text.nonempty f.tmRunId

def SkeletonRow.shown (r : SkeletonRow) : SkeletonRow :=
  { r with
    stopName := Text.nonempty r.stopName
    parent := Text.nonempty r.parent
    timepoint := r.timepoint.shown
    facts := r.facts.shown }

def StopRecord.shown (r : StopRecord) : StopRecord :=
  { r with vehicleId := Text.nonempty r.vehicleId, row := r.row.shown }

section Copied

theorem Timepoint.copied (source : Timepoint) : Timepoint.fields.foldlM (Field.copy source) {} = some source.shown := by
  simp [Timepoint.fields, Timepoint.shown]

theorem TripFacts.copied (source : TripFacts) : TripFacts.otherFields.foldlM (Field.copy source)
    { tripIdGtfs := Text.nonempty source.tripIdGtfs } = some source.shown := by
  simp [TripFacts.otherFields, TripFacts.shown]

theorem Reported.copied (source : Reported) : Reported.fields.foldlM (Field.copy source) {} = some source := by
  simp [Reported.fields]

theorem Stay.copied (source : Stay) : Stay.fields.foldlM (Field.copy source) {} = some source := by
  simp [Stay.fields]

namespace SkeletonRow

theorem factsCopied (fields : List (Field TripFacts)) (source row : SkeletonRow) :
    (factFields fields).foldlM (Field.copy source) row =
      (fields.foldlM (Field.copy source.facts) row.facts).map fun facts => { row with facts } := by
  rw [factFields, Field.copyWithin] <;> intros <;> rfl

def identified (r : SkeletonRow) : SkeletonRow where
  tripId := r.tripId
  pullout := r.pullout
  facts := { tripIdGtfs := Text.nonempty r.facts.tripIdGtfs }

theorem idsCopied (source : SkeletonRow) :
    (tripIdField :: factFields [TripFacts.tripIdField] ++ [pulloutField]).foldlM (Field.copy source) {} =
      some source.identified := by
  simp [tripIdField, pulloutField, factsCopied, TripFacts.tripIdField, identified]

theorem restCopied (source : SkeletonRow) :
    (factFields TripFacts.otherFields ++ stopFields).foldlM (Field.copy source) source.identified = some source.shown := by
  have provenances : ∀ v, Provenance.ofWord? (Provenance.word v) = some v := by
    intro v
    cases v <;> rfl
  have places : ∀ v, Place.ofWord? (Place.word v) = some v := by
    intro v
    cases v <;> rfl
  have timepoint (row : SkeletonRow) :
      (Timepoint.fields.map (.within (·.timepoint) fun (r : SkeletonRow) v => { r with timepoint := v })).foldlM
        (Field.copy source) row = (Timepoint.fields.foldlM (Field.copy source.timepoint) row.timepoint).map
          fun timepoint => { row with timepoint } := by
    rw [Field.copyWithin] <;> intros <;> rfl
  simp [stopFields, factsCopied, identified, TripFacts.copied, provenances, places, timepoint, Timepoint.copied, shown]

end SkeletonRow

namespace StopRecord

theorem rowCopied (fields : List (Field SkeletonRow)) (source record : StopRecord) :
    (ofRow fields).foldlM (Field.copy source) record =
      (fields.foldlM (Field.copy source.row) record.row).map fun row => { record with row } := by
  rw [ofRow, Field.copyWithin] <;> intros <;> rfl

theorem reportedCopied (source record : StopRecord) :
    (Reported.fields.map (.within (·.reported) fun (r : StopRecord) v => { r with reported := v })).foldlM
      (Field.copy source) record =
      (Reported.fields.foldlM (Field.copy source.reported) record.reported).map fun reported => { record with reported } := by
  rw [Field.copyWithin] <;> intros <;> rfl

theorem stayCopied (source record : StopRecord) :
    (Stay.fields.map (.within (·.stay) fun (r : StopRecord) v => { r with stay := v })).foldlM (Field.copy source) record =
      (Stay.fields.foldlM (Field.copy source.stay) record.stay).map fun stay => { record with stay } := by
  rw [Field.copyWithin] <;> intros <;> rfl

theorem copied (source : StopRecord) : fields.foldlM (Field.copy source) {} = some source.shown := by
  let dated : StopRecord := { date := source.date }
  let identified : StopRecord := { dated with row := source.row.identified }
  let named : StopRecord :=
    { identified with vehicleLabel := source.vehicleLabel, vehicleId := Text.nonempty source.vehicleId }
  let scheduled : StopRecord := { named with row := source.row.shown }
  let reported : StopRecord := { scheduled with reported := source.reported }
  let stayed : StopRecord := { reported with stay := source.stay }
  have ids : (ofRow (SkeletonRow.tripIdField :: SkeletonRow.factFields [TripFacts.tripIdField] ++
      [SkeletonRow.pulloutField])).foldlM (Field.copy source) dated = some identified := by
    rw [rowCopied, SkeletonRow.idsCopied]
    rfl
  have rest : (ofRow (SkeletonRow.factFields TripFacts.otherFields ++ SkeletonRow.stopFields)).foldlM
      (Field.copy source) named = some scheduled := by
    rw [rowCopied, SkeletonRow.restCopied]
    rfl
  have feeds := (reportedCopied source scheduled).trans (congrArg (Option.map _) (Reported.copied source.reported))
  have stay := (stayCopied source reported).trans (congrArg (Option.map _) (Stay.copied source.stay))
  simp only [fields, List.foldlM_append, Option.bind_eq_bind, Option.bind_eq_some_iff]
  refine ⟨stayed, ⟨reported, ⟨scheduled, ⟨named, ⟨identified, ⟨dated, ?_, ids⟩, ?_⟩, rest⟩, feeds⟩, stay⟩, ?_⟩
  · simp [dated]
  · simp [named, identified, dated]
  · simp [stayed, reported, scheduled, named, identified, dated, shown]

end StopRecord

end Copied

namespace StopRecord

def Typed (r : StopRecord) : Prop := ∀ f ∈ fields, f.Admits r

instance (r : StopRecord) : Decidable r.Typed := by unfold Typed; infer_instance

structure Finite (r : StopRecord) : Prop where
  latitude : ∀ x ∈ r.reported.latitude, x.isFinite
  longitude : ∀ x ∈ r.reported.longitude, x.isFinite

theorem Finite.column {r : StopRecord} (finite : r.Finite) : ∀ f ∈ fields, ∀ x, f.get r = some (.real x) → x.isFinite := by
  simp only [fields, ofRow, SkeletonRow.factFields, SkeletonRow.tripIdField, SkeletonRow.pulloutField,
    SkeletonRow.stopFields, TripFacts.tripIdField, TripFacts.otherFields, Timepoint.fields, Reported.fields, Stay.fields]
  simp [Field.within, Field.text, Field.text?, Field.integer, Field.integer?, Field.real?, Field.flag, Field.day,
    Field.instant?, Field.choice]
  exact ⟨finite.latitude, finite.longitude⟩

theorem nonemptyCell (text : Option String) :
    (Text.nonempty text).map Cell.text = if text = some "" then none else text.map Cell.text := by
  cases text with
  | none => rfl
  | some s => by_cases empty : s = "" <;> simp [Text.nonempty, Option.filter_some, empty]

theorem shownColumn (r : StopRecord) : ∀ f ∈ fields,
    f.get r.shown = if f.required = false ∧ f.get r = some (.text "") then none else f.get r := by
  simp only [fields, ofRow, SkeletonRow.factFields, SkeletonRow.tripIdField, SkeletonRow.pulloutField,
    SkeletonRow.stopFields, TripFacts.tripIdField, TripFacts.otherFields, Timepoint.fields, Reported.fields, Stay.fields]
  simp [Field.within, Field.text, Field.text?, Field.integer, Field.integer?, Field.real?, Field.flag, Field.day,
    Field.instant?, Field.choice, shown, SkeletonRow.shown, TripFacts.shown, Timepoint.shown, nonemptyCell]

theorem namesDistinct : (fields.map (·.name)).Nodup := by decide

theorem recordReads {r : StopRecord} (typed : r.Typed) (finite : r.Finite) :
    Table.readRow fields {} (some (fields.map (·.name))) (Field.record fields r) = some r.shown :=
  (Table.readRowOwn namesDistinct typed finite.column {}).trans (copied r)

end StopRecord

namespace Report

def table (rows : List StopRecord) : List (List String) :=
  if rows.isEmpty then [] else header :: rows.map (Field.record StopRecord.fields)

theorem tableWide (rows : List StopRecord) : ∀ record ∈ table rows, record.length = StopRecord.fields.length := by
  intro record member
  unfold table at member
  split at member
  · cases member
  · rcases List.mem_cons.mp member with rfl | row
    · exact List.length_map _
    · obtain ⟨r, _, rfl⟩ := List.mem_map.mp row
      exact List.length_map _

/- No field is split and no line is, whatever characters the texts hold. -/
theorem recordsRead (rows : List StopRecord) :
    Csv.records Csv.charMark? (recordsText rows).toList = (table rows).map (·.map String.toList) := by
  have lines : (recordsText rows).toList = (table rows).flatMap Csv.line := by
    unfold recordsText table
    split
    · rfl
    · rw [String.toList_ofList]
  rw [lines]
  apply Csv.recordsOfLines
  intro record member
  have wide := tableWide rows record member
  rw [StopRecord.fieldsLength] at wide
  constructor
  · rintro rfl
    cases wide
  · rintro rfl
    cases wide

theorem unmarked (rows : List StopRecord) :
    Table.dropMark (recordsText rows).toUTF8.toList = (recordsText rows).toUTF8.toList := by
  rw [Csv.bytesOf]
  unfold recordsText
  split
  · rfl
  · obtain ⟨rest, first⟩ : ∃ rest, Csv.line header = 's' :: rest := ⟨_, rfl⟩
    rw [String.toList_ofList, List.flatMap_cons, first]
    rfl

def readTable : List (List String) → Option (List StopRecord)
  | [] => some []
  | names :: records => records.mapM fun record =>
    if record.length ≠ names.length then none else Table.readRow StopRecord.fields {} (some names) record

theorem tableReads (rows : List StopRecord) (typed : ∀ r ∈ rows, r.Typed) (finite : ∀ r ∈ rows, r.Finite) :
    readTable (table rows) = some (rows.map StopRecord.shown) := by
  have each {r : StopRecord} (member : r ∈ rows) : (if (Field.record StopRecord.fields r).length ≠ header.length then none
      else Table.readRow StopRecord.fields {} (some header) (Field.record StopRecord.fields r)) = some r.shown := by
    rw [Field.record, header, List.length_map, List.length_map, if_neg (by simp)]
    exact StopRecord.recordReads (typed r member) (finite r member)
  have run (some : List StopRecord) (inside : ∀ r ∈ some, r ∈ rows) :
      (some.map (Field.record StopRecord.fields)).mapM (fun record => if record.length ≠ header.length then none
        else Table.readRow StopRecord.fields {} (.some header) record) = .some (some.map StopRecord.shown) := by
    induction some with
    | nil => rfl
    | cons r some ih =>
      obtain ⟨first, others⟩ := List.forall_mem_cons.mp inside
      rw [List.map_cons, List.mapM_cons, each first, ih others]
      rfl
  unfold table
  split
  · rename_i none
    rw [List.isEmpty_iff.mp none]
    rfl
  · exact run rows fun _ member => member

structure ReadBack (rows : List StopRecord) : Prop where
  records : Csv.records Csv.charMark? (recordsText rows).toList = (table rows).map (·.map String.toList)
  bytes : Csv.records Csv.byteMark? (Table.dropMark (recordsText rows).toUTF8.toList) =
    (table rows).map (·.map fun field => field.toUTF8.toList)
  wide : ∀ record ∈ table rows, record.length = StopRecord.fields.length
  decoded : readTable ((Csv.records Csv.charMark? (recordsText rows).toList).map (·.map String.ofList)) =
    some (rows.map StopRecord.shown)
  columns : ∀ r ∈ rows, ∀ f ∈ StopRecord.fields,
    f.get r.shown = if f.required = false ∧ f.get r = some (.text "") then none else f.get r

theorem recordsReadBack (rows : List StopRecord) (typed : ∀ r ∈ rows, r.Typed) (finite : ∀ r ∈ rows, r.Finite) :
    ReadBack rows where
  records := recordsRead rows
  bytes := by
    rw [unmarked]
    exact Csv.recordsOfBytes (recordsRead rows)
  wide := tableWide rows
  decoded := by
    have texts : (Csv.records Csv.charMark? (recordsText rows).toList).map (·.map String.ofList) = table rows := by
      rw [recordsRead, List.map_map]
      refine (List.map_congr_left fun record _ => ?_).trans (List.map_id _)
      rw [Function.comp, List.map_map]
      exact (List.map_congr_left fun field _ => String.ofList_toList).trans (List.map_id _)
    rw [texts, tableReads rows typed finite]
  columns := fun r _ => r.shownColumn

/- A row with a quote, a comma, both line ends and leading blanks in its texts, and with an empty one. -/
def markedRow : StopRecord where
  date := ⟨-800000⟩
  vehicleLabel := " y\"1\",\r\n"
  row := { tripId := "1,2", position := 1, stopId := "\"", stopName := some "", provenance := .join }
  reported :=
    { gtfsArrival := some ⟨1718193660123000000⟩
      latitude := some ⟨4631157861996655343⟩
      longitude := some ⟨13858072610462305878⟩ }
  stay := { travelled := some (-5) }

theorem markedRowReadsBack : ReadBack [markedRow] ∧ markedRow.shown.row.stopName = none :=
  ⟨recordsReadBack [markedRow] (by decide +kernel) (List.forall_mem_singleton.mpr ⟨by decide +kernel, by decide +kernel⟩), rfl⟩

end Report

end TransitTimeline
