import Mathlib.Algebra.Ring.Int.Defs
import TransitTimeline.Proofs.Blocks
import TransitTimeline.Proofs.Instant
import TransitTimeline.Proofs.Record.LastKnown
import TransitTimeline.Record.Validation

/-! What a published partition promises, and when withholding rows keeps the promise. A withheld row's values stay
the ones that the next row is compared with, so a published row may fall behind a published one before it. -/
namespace TransitTimeline

def StopRecord.elapsed (rows : List StopRecord) : Int :=
  (rows.filterMap (·.stay.travelled)).sum + (rows.filterMap (·.stay.stopped)).sum

def StopRecord.elapsedIn64 (rows : List StopRecord) : Int := Text.Bounds.signed64.wrap (elapsed rows)

namespace Validation
open LastKnown
open StopRecord (elapsed elapsedIn64)

section Promises
variable (sum : List StopRecord → Int)

/- The promises that hold of whatever is left of a partition, by the way in which durations are added up. -/
structure Whole (rows : List StopRecord) : Prop where
  startsPlanned : (∃ r ∈ rows, r.row.gtfsSequence.isSome) → ∃ r ∈ rows.head?, r.row.gtfsSequence.isSome
  stays : ∀ r ∈ rows, ∀ a ∈ r.stay.arrival, ∀ d ∈ r.stay.departure, a ≤ d
  durations : ∀ first ∈ (rows.filterMap (·.stay.arrival)).head?, ∀ last ∈ (rows.filterMap (·.stay.departure)).getLast?,
    sum rows = last.secondsSince first

structure Sound (rows : List StopRecord) : Prop extends Whole sum rows where
  sequences : (rows.filterMap (·.row.gtfsSequence)).Pairwise (· < ·)
  arrivals : (rows.filterMap (·.stay.arrival)).Pairwise (· ≤ ·)
  departures : (rows.filterMap (·.stay.departure)).Pairwise (· ≤ ·)

end Promises

/- Behind a withheld row, published rows go on from where the published rows before it stood. -/
structure Recovering (verdicts : List Verdict) : Prop where
  sequences : Recovers (· < ·) (·.record.row.gtfsSequence) (·.rule.isNone) verdicts
  arrivals : Recovers (· ≤ ·) (·.record.stay.arrival) (·.rule.isNone) verdicts
  departures : Recovers (· ≤ ·) (·.record.stay.departure) (·.rule.isNone) verdicts

theorem bothFalse {α : Type} {a b : Option α} {test : α → α → Bool} :
    both a b test = false ↔ ∀ x ∈ a, ∀ y ∈ b, test x y = false := by
  cases a <;> cases b <;> simp [both]

theorem rowRuleNone {l : Last} {r : StopRecord} : rowRule l r = none ↔
    (∀ x ∈ l.sequence, ∀ y ∈ r.row.gtfsSequence, x < y) ∧
    (∀ a ∈ r.stay.arrival, ∀ d ∈ r.stay.departure, a ≤ d) ∧
    (∀ x ∈ l.arrival, ∀ y ∈ r.stay.arrival, x ≤ y) ∧
    (∀ x ∈ l.departure, ∀ y ∈ r.stay.departure, x ≤ y) := by
  have sequence := @bothFalse _ l.sequence r.row.gtfsSequence fun last own => own ≤ last
  have stay := @bothFalse _ r.stay.arrival r.stay.departure fun arrival departure => departure < arrival
  have arrival := @bothFalse _ l.arrival r.stay.arrival fun last own => own < last
  have departure := @bothFalse _ l.departure r.stay.departure fun last own => own < last
  simp only [decide_eq_false_iff_not, Int.not_le, Instant.notLt] at sequence stay arrival departure
  rw [← sequence, ← stay, ← arrival, ← departure]
  unfold rowRule
  split
  · simp_all
  · split
    · simp_all
    · split
      · simp_all
      · split <;> simp_all

def lastOf (rows : List StopRecord) : Last where
  sequence := lastKnown (·.row.gtfsSequence) rows
  arrival := lastKnown (·.stay.arrival) rows
  departure := lastKnown (·.stay.departure) rows

theorem lastOfSnoc (rows : List StopRecord) (r : StopRecord) : (lastOf rows).after r = lastOf (rows ++ [r]) := by
  simp [lastOf, Last.after, lastKnownSnoc]

theorem rowRulesAt (seen : List StopRecord) {rows : List StopRecord} {before : List Verdict} {v : Verdict}
    {after : List Verdict} (shape : List.zipWith Verdict.mk rows (rowRules (lastOf seen) rows) = before ++ v :: after) :
    v.rule = rowRule (lastOf (seen ++ before.map (·.record))) v.record := by
  induction rows generalizing seen before with
  | nil => simp [rowRules] at shape
  | cons r rest ih =>
    simp only [rowRules, List.zipWith_cons_cons, lastOfSnoc] at shape
    cases before with
    | nil =>
      obtain ⟨rfl, _⟩ := List.cons.inj shape
      simp
    | cons first before =>
      obtain ⟨head, tail⟩ := List.cons.inj shape
      subst head
      simpa using ih (seen ++ [r]) tail

theorem rowRulesRecords (l : Last) (rows : List StopRecord) :
    (List.zipWith Verdict.mk rows (rowRules l rows)).map (·.record) = rows := by
  induction rows generalizing l with
  | nil => rfl
  | cons r rest ih => simpa [rowRules] using ih (l.after r)

def own (partition : List StopRecord) : List Verdict := List.zipWith Verdict.mk partition (rowRules {} partition)

def survivors (partition : List StopRecord) : List StopRecord :=
  ((own partition).filter (·.rule.isNone)).map (·.record)

def kept (partition : List StopRecord) : List StopRecord :=
  ((judge partition).filter (·.rule.isNone)).map (·.record)

theorem judgeOwn (partition : List StopRecord) :
    judge partition = (own partition).map fun v => { v with rule := v.rule.or (partitionRule (survivors partition)) } :=
  rfl

theorem judgeRecords (partition : List StopRecord) : (judge partition).map (·.record) = partition := by
  rw [judgeOwn, List.map_map]
  exact rowRulesRecords {} partition

theorem keptSublist (partition : List StopRecord) : (kept partition).Sublist partition := by
  have sub := (List.filter_sublist (p := fun v : Verdict => v.rule.isNone) (l := judge partition)).map (·.record)
  rwa [judgeRecords] at sub

theorem judgedFits {partition : List StopRecord} {before : List Verdict} {v : Verdict} {after : List Verdict}
    (shape : judge partition = before ++ v :: after) (published : v.rule = none) :
    rowRule (lastOf (before.map (·.record))) v.record = none := by
  obtain ⟨ownBefore, rest, split, rfl, tail⟩ := List.map_eq_append_iff.mp shape
  obtain ⟨ownVerdict, ownAfter, rfl, rfl, _⟩ := List.map_eq_cons_iff.mp tail
  have rule := rowRulesAt [] split
  have clean : ownVerdict.rule = none := (Option.or_eq_none_iff.mp published).1
  simpa [clean, Function.comp_def] using rule.symm

theorem judgedPasses (partition : List StopRecord) :
    Passes (· < ·) (·.record.row.gtfsSequence) (·.rule.isNone) (judge partition) ∧
    Passes (· ≤ ·) (·.record.stay.arrival) (·.rule.isNone) (judge partition) ∧
    Passes (· ≤ ·) (·.record.stay.departure) (·.rule.isNone) (judge partition) := by
  refine ⟨?_, ?_, ?_⟩ <;> intro before v after shape published y known z own
  all_goals
    have fits := rowRuleNone.mp (judgedFits shape (Option.isNone_iff_eq_none.mp published))
    simp only [lastOf, lastKnownMap] at fits
  · exact fits.1 y known z own
  · exact fits.2.2.1 y known z own
  · exact fits.2.2.2 y known z own

theorem shownKept {α : Type} (get : StopRecord → Option α) (partition : List StopRecord) :
    shown (fun v : Verdict => get v.record) (·.rule.isNone) (judge partition) = (kept partition).filterMap get := by
  simp [shown, kept, List.filterMap_map]

theorem elapsedCons (r : StopRecord) (rows : List StopRecord) :
    elapsed (r :: rows) = r.stay.travelled.getD 0 + r.stay.stopped.getD 0 + elapsed rows := by
  unfold elapsed
  rw [List.filterMap_cons, List.filterMap_cons]
  cases r.stay.travelled <;> cases r.stay.stopped <;> simp <;> omega

theorem durationSum (rows : List StopRecord) : duration rows = elapsedIn64 rows := by
  have steps : ∀ total, rows.foldl (fun total r => Text.Bounds.signed64.wrap
      (total + Text.Bounds.signed64.wrap (r.stay.travelled.getD 0 + r.stay.stopped.getD 0))) (Text.Bounds.signed64.wrap total) =
        Text.Bounds.signed64.wrap (total + elapsed rows) := by
    induction rows with
    | nil => intro total; exact congrArg _ (Int.add_zero total).symm
    | cons r rest ih =>
      intro total
      rw [List.foldl_cons, Text.Bounds.wrapAdd, Int.add_comm total, Text.Bounds.wrapAdd, ih, elapsedCons]
      exact congrArg _ (by omega)
  have all := steps 0
  rw [Int.zero_add] at all
  exact all

theorem startsPlannedHolds {rows : List StopRecord} :
    (rows.any (·.row.gtfsSequence.isSome) && rows.head?.any (·.row.gtfsSequence.isNone)) = false ↔
      ((∃ r ∈ rows, r.row.gtfsSequence.isSome) → ∃ r ∈ rows.head?, r.row.gtfsSequence.isSome) := by
  cases rows with
  | nil => simp
  | cons r rest => cases h : r.row.gtfsSequence <;> simp [h]

theorem partitionRuleNone {rows : List StopRecord} : partitionRule rows = none ↔
    ((∃ r ∈ rows, r.row.gtfsSequence.isSome) → ∃ r ∈ rows.head?, r.row.gtfsSequence.isSome) ∧
    (∀ first ∈ (rows.filterMap (·.stay.arrival)).head?, ∀ last ∈ (rows.filterMap (·.stay.departure)).getLast?,
      elapsedIn64 rows = last.secondsSince first) := by
  have arrival : (rows.filterMap (·.stay.arrival)).head? = rows.findSome? (·.stay.arrival) :=
    List.head?_filterMap
  have departure : (rows.filterMap (·.stay.departure)).getLast? = rows.reverse.findSome? (·.stay.departure) := by
    rw [← List.head?_reverse, ← List.filterMap_reverse, List.head?_filterMap]
  rw [arrival, departure, ← durationSum, ← startsPlannedHolds]
  unfold partitionRule span?
  cases rows.any (·.row.gtfsSequence.isSome) && rows.head?.any (·.row.gtfsSequence.isNone) with
  | true => simp
  | false => cases rows.findSome? (·.stay.arrival) <;> cases rows.reverse.findSome? (·.stay.departure) <;> simp

theorem keptSurvivors {partition : List StopRecord} (whole : partitionRule (survivors partition) = none) :
    kept partition = survivors partition := by
  simp only [kept, judgeOwn, whole, Option.or_none, List.map_id']
  rfl

theorem keptNothing {partition : List StopRecord} {rule : Rule}
    (broken : partitionRule (survivors partition) = some rule) : kept partition = [] := by
  simp [kept, judgeOwn, broken]

theorem keptSettled (partition : List StopRecord) : partitionRule (kept partition) = none := by
  cases h : partitionRule (survivors partition) with
  | none => rw [keptSurvivors h, h]
  | some rule => rw [keptNothing h]; rfl

theorem keptWhole (partition : List StopRecord) : Whole elapsedIn64 (kept partition) where
  startsPlanned := (partitionRuleNone.mp (keptSettled partition)).1
  durations := (partitionRuleNone.mp (keptSettled partition)).2
  stays := by
    intro r member
    obtain ⟨v, shown, rfl⟩ := List.mem_map.mp member
    obtain ⟨inside, published⟩ := List.mem_filter.mp shown
    obtain ⟨before, after, shape⟩ := List.append_of_mem inside
    exact (rowRuleNone.mp (judgedFits shape (Option.isNone_iff_eq_none.mp published))).2.1

theorem keptSoundIff (partition : List StopRecord) : Sound elapsedIn64 (kept partition) ↔ Recovering (judge partition) := by
  obtain ⟨sequences, arrivals, departures⟩ := judgedPasses partition
  have increasing := shownIffRecovers sequences fun _ _ _ => Int.lt_trans
  have arriving := shownIffRecovers arrivals fun _ _ _ => Instant.leTrans
  have departing := shownIffRecovers departures fun _ _ _ => Instant.leTrans
  rw [shownKept (·.row.gtfsSequence)] at increasing
  rw [shownKept (·.stay.arrival)] at arriving
  rw [shownKept (·.stay.departure)] at departing
  exact ⟨fun sound => ⟨increasing.mp sound.sequences, arriving.mp sound.arrivals, departing.mp sound.departures⟩,
    fun recovering => ⟨keptWhole partition, increasing.mpr recovering.sequences, arriving.mpr recovering.arrivals,
      departing.mpr recovering.departures⟩⟩

theorem recoveringOfOrdered {partition : List StopRecord}
    (sequences : (partition.filterMap (·.row.gtfsSequence)).Pairwise (· ≤ ·))
    (arrivals : (partition.filterMap (·.stay.arrival)).Pairwise (· ≤ ·))
    (departures : (partition.filterMap (·.stay.departure)).Pairwise (· ≤ ·)) : Recovering (judge partition) := by
  obtain ⟨increasing, arriving, departing⟩ := judgedPasses partition
  rw [← judgeRecords partition, List.filterMap_map] at sequences arrivals departures
  exact ⟨recoversOfOrdered increasing sequences fun _ _ _ => Int.lt_of_le_of_lt,
    recoversOfOrdered arriving arrivals fun _ _ _ => Instant.leTrans,
    recoversOfOrdered departing departures fun _ _ _ => Instant.leTrans⟩

theorem recoveringOfNone {verdicts : List Verdict} (clean : ∀ v ∈ verdicts, v.rule = none) : Recovering verdicts := by
  refine ⟨?_, ?_, ?_⟩ <;>
    · intro before b between c after shape _ withheld
      simp [clean b (by simp [shape])] at withheld

theorem ownAt {partition : List StopRecord} {v : Verdict} (member : v ∈ own partition) :
    ∃ before after, partition = before ++ v.record :: after ∧ v.rule = rowRule (lastOf before) v.record := by
  obtain ⟨before, after, shape⟩ := List.append_of_mem member
  refine ⟨before.map (·.record), after.map (·.record), ?_, by simpa using rowRulesAt [] shape⟩
  have records := rowRulesRecords {} partition
  rw [show List.zipWith Verdict.mk partition (rowRules {} partition) = before ++ v :: after from shape] at records
  simpa using records.symm

theorem ownClean {partition : List StopRecord} (sound : Sound elapsedIn64 partition) : ∀ v ∈ own partition, v.rule = none := by
  intro v member
  obtain ⟨before, after, rows, rule⟩ := ownAt member
  have inside : v.record ∈ partition := by rw [rows]; simp
  obtain ⟨⟨_, stays, _⟩, sequences, arrivals, departures⟩ := sound
  rw [rows] at sequences arrivals departures
  rw [rule, rowRuleNone]
  exact ⟨lastKnownBefore sequences, stays v.record inside, lastKnownBefore arrivals, lastKnownBefore departures⟩

theorem survivorsAll {partition : List StopRecord} (clean : ∀ v ∈ own partition, v.rule = none) :
    survivors partition = partition := by
  have all : (own partition).filter (·.rule.isNone) = own partition :=
    List.filter_eq_self.mpr fun v member => by simp [clean v member]
  rw [survivors, all]
  exact rowRulesRecords {} partition

theorem judgedCleanIff (partition : List StopRecord) :
    (∀ v ∈ judge partition, v.rule = none) ↔ Sound elapsedIn64 partition := by
  constructor
  · intro clean
    have sound := (keptSoundIff partition).mpr (recoveringOfNone clean)
    have all : (judge partition).filter (·.rule.isNone) = judge partition :=
      List.filter_eq_self.mpr fun v member => by simp [clean v member]
    rwa [kept, all, judgeRecords] at sound
  · intro sound v member
    have clean := ownClean sound
    have whole := partitionRuleNone.mpr ⟨sound.startsPlanned, sound.durations⟩
    rw [judgeOwn, survivorsAll clean, whole] at member
    obtain ⟨w, inside, rfl⟩ := List.mem_map.mp member
    simp [clean w inside]

end Validation

end TransitTimeline
