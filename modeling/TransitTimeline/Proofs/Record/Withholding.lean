import TransitTimeline.Proofs.Record.Sound

/-! Validation of all partitions: what is published, and when validating it once more rejects nothing. -/
namespace TransitTimeline.Validation
open StopRecord (partitions elapsed elapsedIn64)

theorem validKept (rows : List StopRecord) : (run rows).valid = ((partitions rows).map kept).flatten := by
  simp only [run, Outcome.ofVerdicts, List.filter_flatMap, List.map_flatMap]
  rfl

theorem rejectedNone (rows : List StopRecord) :
    (run rows).rejected = [] ↔ ∀ partition ∈ partitions rows, Sound elapsedIn64 partition := by
  simp only [← judgedCleanIff, run, Outcome.ofVerdicts, List.filterMap_eq_nil_iff, Option.map_eq_none_iff]
  exact ⟨fun clean partition member v inside => clean v (List.mem_flatMap.mpr ⟨partition, member, inside⟩),
    fun clean v inside =>
      have ⟨partition, member, inside⟩ := List.mem_flatMap.mp inside
      clean partition member v inside⟩

theorem validBlocks {rows : List StopRecord} (grouped : Grouped StopRecord.journey rows) :
    Blocks StopRecord.journey (((partitions rows).map kept).filter (· ≠ [])) :=
  grouped.blocks.shrink fun partition => (keptSublist partition).subset

theorem validPartitions {rows : List StopRecord} (grouped : Grouped StopRecord.journey rows) :
    partitions (run rows).valid = ((partitions rows).map kept).filter (· ≠ []) := by
  rw [validKept, ← flattenFilled]
  exact (validBlocks grouped).split

theorem validOfJourney {rows : List StopRecord} (grouped : Grouped StopRecord.journey rows) (journey : String × String) :
    (run rows).valid.filter (·.journey = journey) = [] ∨
      ∃ partition ∈ partitions rows, (run rows).valid.filter (·.journey = journey) = kept partition := by
  rw [validKept, ← flattenFilled]
  rcases (validBlocks grouped).filterAny journey with empty | member
  · exact .inl empty
  · obtain ⟨partition, inside, same⟩ := List.mem_map.mp (List.mem_of_mem_filter member)
    exact .inr ⟨partition, inside, same.symm⟩

theorem soundEmpty (sum : List StopRecord → Int) : Sound sum [] where
  startsPlanned := by simp
  stays := by simp
  durations := by simp
  sequences := .nil
  arrivals := .nil
  departures := .nil

theorem validSound {rows : List StopRecord} (grouped : Grouped StopRecord.journey rows) :
    (∀ partition ∈ partitions (run rows).valid, Sound elapsedIn64 partition) ↔
      ∀ partition ∈ partitions rows, Recovering (judge partition) := by
  simp only [validPartitions grouped, ← keptSoundIff]
  constructor
  · intro sound partition member
    by_cases empty : kept partition = []
    · rw [empty]; exact soundEmpty _
    · exact sound _ (List.mem_filter.mpr ⟨List.mem_map_of_mem member, by simpa using empty⟩)
  · intro sound small member
    obtain ⟨partition, inside, rfl⟩ := List.mem_map.mp (List.mem_of_mem_filter member)
    exact sound partition inside

/- Where the durations are compared with a span, 64 bits hold their sum. -/
def Unwrapped (rows : List StopRecord) : Prop :=
  (rows.filterMap (·.stay.arrival)).head?.isSome → (rows.filterMap (·.stay.departure)).getLast?.isSome →
    elapsedIn64 rows = elapsed rows

theorem wholeUnwrapped {rows : List StopRecord} (whole : Whole elapsedIn64 rows) : Whole elapsed rows ↔ Unwrapped rows := by
  constructor
  · intro plain arrives leaves
    obtain ⟨first, arrives⟩ := Option.isSome_iff_exists.mp arrives
    obtain ⟨last, leaves⟩ := Option.isSome_iff_exists.mp leaves
    rw [whole.durations first arrives last leaves, plain.durations first arrives last leaves]
  · intro unwrapped
    refine ⟨whole.startsPlanned, whole.stays, fun first arrives last leaves => ?_⟩
    rw [← whole.durations first arrives last leaves]
    exact (unwrapped (Option.isSome_of_mem arrives) (Option.isSome_of_mem leaves)).symm

theorem publishedSoundExactly (rows : List StopRecord) (grouped : Grouped StopRecord.journey rows) :
    (∀ partition ∈ partitions (run rows).valid, Whole elapsedIn64 partition) ∧
    (∀ partition ∈ partitions (run rows).valid, Whole elapsed partition ↔ Unwrapped partition) ∧
    ((∀ partition ∈ partitions (run rows).valid, Sound elapsedIn64 partition) ↔
      ∀ partition ∈ partitions rows, Recovering (judge partition)) ∧
    ((run (run rows).valid).rejected = [] ↔ ∀ partition ∈ partitions rows, Recovering (judge partition)) := by
  have whole : ∀ partition ∈ partitions (run rows).valid, Whole elapsedIn64 partition := by
    intro small member
    rw [validPartitions grouped] at member
    obtain ⟨partition, _, rfl⟩ := List.mem_map.mp (List.mem_of_mem_filter member)
    exact keptWhole partition
  refine ⟨whole, ?_, validSound grouped, (rejectedNone _).trans (validSound grouped)⟩
  intro partition member
  exact wholeUnwrapped (whole partition member)

theorem publishedSoundBehindRepeat :
    let rows : List StopRecord := [1, 2, 2, 3].map fun n => { row := { gtfsSequence := some n } }
    Grouped StopRecord.journey rows ∧ (∀ partition ∈ partitions rows, Recovering (judge partition)) ∧
      (run (run rows).valid).rejected = [] := by
  intro rows
  have grouped : Grouped StopRecord.journey rows := by
    show List.Pairwise _ [rows]
    simp
  have clean : (run (run rows).valid).rejected = [] := by decide
  exact ⟨grouped, (publishedSoundExactly rows grouped).2.2.2.mp clean, clean⟩

/- A withheld step back is not: the third row is published behind the first. -/
theorem publishedUnsoundBehindStepBack :
    let rows : List StopRecord := [5, 3, 4].map fun n => { row := { gtfsSequence := some n } }
    Grouped StopRecord.journey rows ∧ ¬∀ partition ∈ partitions (run rows).valid, Sound elapsedIn64 partition := by
  intro rows
  refine ⟨?_, fun sound => ?_⟩
  · show List.Pairwise _ [rows]
    simp
  · have published : partitions (run rows).valid = [[5, 4].map fun n => { row := { gtfsSequence := some n } }] := by
      decide
    have increasing := (sound _ (by rw [published]; exact List.mem_singleton_self _)).sequences
    revert increasing
    decide

end TransitTimeline.Validation
