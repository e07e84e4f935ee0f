import TransitTimeline.Proofs.Journey.Attached
import TransitTimeline.Proofs.Record.Derived
import TransitTimeline.Proofs.Record.Withholding

/-! A journey by itself. What is joined, derived and judged of a trip and a vehicle comes from their own observations;
of the columns of a row only the headways look at other journeys. -/
namespace TransitTimeline
open Std

namespace Journey
variable {gtfs : List GtfsObservation} {tm : List TmObservation} {k : String × String}

section Join
variable {date : Day} {schedule : List SkeletonRow}

theorem joinedOwn {e : StopEvent} (member : e ∈ (join date schedule (ownGtfs k gtfs) (ownTm k tm)).events) : e.key = k := by
  obtain ⟨seen, fromGtfs, fromTm⟩ := joinedCarries member
  rcases seen with some | some
  · obtain ⟨o, shown⟩ := Option.isSome_iff_exists.mp some
    obtain ⟨inside, same, _⟩ := fromGtfs o shown
    rw [← same]
    exact of_decide_eq_true (List.mem_filter.mp inside).2
  · obtain ⟨o, shown⟩ := Option.isSome_iff_exists.mp some
    obtain ⟨inside, same, _⟩ := fromTm o shown
    rw [← same]
    exact of_decide_eq_true (List.mem_filter.mp inside).2

theorem joinedIsolated (date : Day) (schedule : List SkeletonRow) (gtfs : List GtfsObservation) (tm : List TmObservation)
    (k : String × String) : (join date schedule gtfs tm).events.filter (·.key = k) =
      (join date schedule (ownGtfs k gtfs) (ownTm k tm)).events := by
  have all : (join date schedule (ownGtfs k gtfs) (ownTm k tm)).events.filter (·.key = k) =
      (join date schedule (ownGtfs k gtfs) (ownTm k tm)).events :=
    List.filter_eq_self.mpr fun e member => by simpa using joinedOwn member
  rw [← all]
  by_cases known : k ∈ (ofObservations gtfs tm).map key
  · have also : k ∈ (ofObservations (ownGtfs k gtfs) (ownTm k tm)).map key := by
      rw [memObserved] at known ⊢
      simpa [ownGtfs, ownTm] using known
    obtain ⟨j, member, own⟩ := List.mem_map.mp known
    obtain ⟨i, inside, same⟩ := List.mem_map.mp also
    have journeys : j = i := by rw [observedOf member, observedOf inside, own, same, ownTwice]
    have whole : (join date schedule gtfs tm).events.filter (·.key = j.key) = _ := joinedOfJourney date member
    have alone : (join date schedule (ownGtfs k gtfs) (ownTm k tm)).events.filter (·.key = i.key) = _ := joinedOfJourney date inside
    rw [own] at whole
    rw [same] at alone
    rw [whole, alone, journeys]
  · have nor : k ∉ (ofObservations (ownGtfs k gtfs) (ownTm k tm)).map key := by
      rw [memObserved] at known ⊢
      simpa [ownGtfs, ownTm] using known
    rw [(joinSections date schedule gtfs tm).filterOther (sectionKeys date schedule gtfs tm) known,
      (joinSections date schedule _ _).filterOther (sectionKeys date schedule _ _) nor]

end Join

end Journey

namespace Validation
open StopRecord (partitions unspaced)

def Verdict.unspaced (v : Verdict) : Verdict := ⟨v.record.unspaced, v.rule⟩

theorem rowRulesUnspaced (l : Last) (rows : List StopRecord) : rowRules l (rows.map unspaced) = rowRules l rows := by
  induction rows generalizing l with
  | nil => rfl
  | cons r rest ih => exact congrArg (rowRule l r :: ·) (ih (l.after r))

theorem durationUnspaced (rows : List StopRecord) : duration (rows.map unspaced) = duration rows := by
  rw [duration, duration, List.foldl_map]
  rfl

theorem partitionRuleUnspaced (rows : List StopRecord) : partitionRule (rows.map unspaced) = partitionRule rows := by
  have span : span? (rows.map unspaced) = span? rows := by
    simp only [span?, List.findSome?_map, ← List.map_reverse]
    rfl
  have some : (rows.map unspaced).any (·.row.gtfsSequence.isSome) = rows.any (·.row.gtfsSequence.isSome) := by
    simp [List.any_map, Function.comp_def, unspaced]
  have first : (rows.map unspaced).head?.any (·.row.gtfsSequence.isNone) = rows.head?.any (·.row.gtfsSequence.isNone) := by
    cases rows <;> rfl
  rw [partitionRule, partitionRule, some, first, span, durationUnspaced]

theorem ownUnspaced (partition : List StopRecord) : own (partition.map unspaced) = (own partition).map Verdict.unspaced := by
  rw [own, own, rowRulesUnspaced, List.zipWith_map_left, List.map_zipWith]
  rfl

theorem survivorsUnspaced (partition : List StopRecord) :
    survivors (partition.map unspaced) = (survivors partition).map unspaced := by
  rw [survivors, survivors, ownUnspaced, List.filter_map, List.map_map, List.map_map]
  rfl

theorem judgeUnspaced (partition : List StopRecord) :
    judge (partition.map unspaced) = (judge partition).map Verdict.unspaced := by
  rw [judgeOwn, judgeOwn, ownUnspaced, survivorsUnspaced, partitionRuleUnspaced, List.map_map, List.map_map]
  rfl

def verdicts (rows : List StopRecord) : List Verdict := (partitions rows).flatMap judge

theorem runVerdicts (rows : List StopRecord) : run rows = .ofVerdicts (verdicts rows) := rfl

theorem verdictsOfJourney {rows : List StopRecord} (grouped : Grouped StopRecord.journey rows) (k : String × String) :
    (verdicts rows).filter (·.record.journey = k) = judge (rows.filter (·.journey = k)) := by
  have known (block : List StopRecord) (v : Verdict) (member : v ∈ judge block) :
      ∃ r ∈ block, v.record.journey = r.journey :=
    ⟨v.record, judgeRecords block ▸ List.mem_map_of_mem member, rfl⟩
  have own := grouped.blocks.flatMapFilter known k
  rwa [List.flatten_splitBy] at own

def validOf (k : String × String) (o : Outcome) : List StopRecord := (o.valid.filter (·.journey = k)).map unspaced

def rejectedOf (k : String × String) (o : Outcome) : List Rejected :=
  (o.rejected.filter (·.record.journey = k)).map fun r => ⟨r.rule, r.record.unspaced⟩

theorem validOfVerdicts (vs : List Verdict) (k : String × String) : validOf k (.ofVerdicts vs) =
    (((vs.filter (·.record.journey = k)).map Verdict.unspaced).filter (·.rule.isNone)).map (·.record) := by
  rw [validOf, Outcome.ofVerdicts, List.filter_map, List.filter_map, List.map_map, List.map_map, List.filter_comm]
  rfl

theorem rejectedOfVerdicts (vs : List Verdict) (k : String × String) : rejectedOf k (.ofVerdicts vs) =
    ((vs.filter (·.record.journey = k)).map Verdict.unspaced).filterMap fun v => v.rule.map fun rule => ⟨rule, v.record⟩ := by
  induction vs with
  | nil => rfl
  | cons v rest ih =>
    by_cases own : v.record.journey = k <;> cases rule : v.rule <;>
      simpa [rejectedOf, Outcome.ofVerdicts, Verdict.unspaced, own, rule] using ih

theorem alikeOfVerdicts {rows others : List StopRecord} {k : String × String}
    (same : ((verdicts rows).filter (·.record.journey = k)).map Verdict.unspaced =
      ((verdicts others).filter (·.record.journey = k)).map Verdict.unspaced) :
    validOf k (run rows) = validOf k (run others) ∧ rejectedOf k (run rows) = rejectedOf k (run others) := by
  simp only [runVerdicts, validOfVerdicts, rejectedOfVerdicts, same, and_self]

end Validation

section Isolated
open Validation (validOf rejectedOf)

theorem judgedIsolated {events : List StopEvent} (sorted : events.Pairwise fun a b => (compare a.key b.key).isLE)
    (k : String × String) :
    ((Validation.verdicts (StopRecord.derive events)).filter (·.record.journey = k)).map Validation.Verdict.unspaced =
      Validation.judge ((StopRecord.ofJourney (events.filter (·.key = k))).map StopRecord.unspaced) := by
  rw [Validation.verdictsOfJourney (StopRecord.derivedGrouped sorted), ← Validation.judgeUnspaced,
    StopRecord.derivedIsolated sorted]

theorem derivedOwn {events : List StopEvent} {k : String × String} (own : ∀ e ∈ events, e.key = k) :
    ∀ r ∈ StopRecord.derive events, r.journey = k := by
  intro r member
  have known : r.alone ∈ (StopRecord.derive events).map StopRecord.alone := List.mem_map_of_mem member
  rw [StopRecord.derivedAlone] at known
  obtain ⟨e, inside, same⟩ := List.mem_map.mp known
  have journeys : r.alone.journey = e.key := by rw [← same]; rfl
  exact journeys.trans (own e inside)

theorem judgedOwn {rows : List StopRecord} {k : String × String} (own : ∀ r ∈ rows, r.journey = k) :
    validOf k (Validation.run rows) = (Validation.run rows).valid.map StopRecord.unspaced ∧
      rejectedOf k (Validation.run rows) = (Validation.run rows).rejected.map fun r => ⟨r.rule, r.record.unspaced⟩ := by
  have verdicts : ∀ v ∈ Validation.verdicts rows, v.record.journey = k := by
    intro v member
    obtain ⟨block, inside, judged⟩ := List.mem_flatMap.mp member
    have known : v.record ∈ block := Validation.judgeRecords block ▸ List.mem_map_of_mem judged
    exact own v.record ((splitSublist inside).subset known)
  constructor
  · refine congrArg (List.map StopRecord.unspaced) (List.filter_eq_self.mpr fun r member => ?_)
    obtain ⟨v, judged, rfl⟩ := List.mem_map.mp member
    simpa using verdicts v (List.mem_of_mem_filter judged)
  · refine congrArg (List.map _) (List.filter_eq_self.mpr fun r member => ?_)
    obtain ⟨v, judged, rule⟩ := List.mem_filterMap.mp member
    obtain ⟨_, _, rfl⟩ := Option.map_eq_some_iff.mp rule
    simpa using verdicts v judged

theorem journeysApart (date : Day) (schedule : List SkeletonRow) (gtfs : List GtfsObservation) (tm : List TmObservation)
    (k : String × String) :
    let whole := Validation.run (StopRecord.derive (Journey.join date schedule gtfs tm).events)
    let alone := Validation.run (StopRecord.derive
      (Journey.join date schedule (Journey.ownGtfs k gtfs) (Journey.ownTm k tm)).events)
    validOf k whole = alone.valid.map StopRecord.unspaced ∧
      rejectedOf k whole = alone.rejected.map fun r => ⟨r.rule, r.record.unspaced⟩ := by
  intro whole alone
  have sorted := Journey.joinSorted date schedule gtfs tm
  have alike := Journey.joinSorted date schedule (Journey.ownGtfs k gtfs) (Journey.ownTm k tm)
  have own : ∀ e ∈ (Journey.join date schedule (Journey.ownGtfs k gtfs) (Journey.ownTm k tm)).events, e.key = k :=
    fun e member => Journey.joinedOwn member
  obtain ⟨valid, rejected⟩ := judgedOwn (derivedOwn own)
  have kept := List.filter_eq_self (p := fun e : StopEvent => decide (e.key = k)).mpr fun e member =>
    decide_eq_true (own e member)
  have few := judgedIsolated alike k
  rw [kept] at few
  have same := judgedIsolated sorted k
  rw [Journey.joinedIsolated, ← few] at same
  rw [← valid, ← rejected]
  exact Validation.alikeOfVerdicts same

end Isolated

end TransitTimeline
