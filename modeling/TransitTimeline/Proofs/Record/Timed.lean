import TransitTimeline.Proofs.Record.Derived
import TransitTimeline.Proofs.Record.Seen
import TransitTimeline.Proofs.Record.Telescope
import TransitTimeline.Proofs.Record.Withholding

/-! What is left to withhold of derived records. Their times keep every promise, so a row is withheld for its number, or
together with all rows of its partition because the durations do not add up without the rows that are. -/
namespace TransitTimeline

namespace Validation
open StopRecord (partitions elapsed elapsedIn64)

structure Timed (sum : List StopRecord → Int) (rows : List StopRecord) : Prop extends Whole sum rows where
  arrivals : (rows.filterMap (·.stay.arrival)).Pairwise (· ≤ ·)
  departures : (rows.filterMap (·.stay.departure)).Pairwise (· ≤ ·)

theorem Timed.sound {sum : List StopRecord → Int} {rows : List StopRecord} (timed : Timed sum rows)
    (sequences : (rows.filterMap (·.row.gtfsSequence)).Pairwise (· < ·)) : Sound sum rows :=
  ⟨timed.toWhole, sequences, timed.arrivals, timed.departures⟩

theorem Timed.in64 {rows : List StopRecord} (timed : Timed elapsed rows) (fits : elapsedIn64 rows = elapsed rows) :
    Timed elapsedIn64 rows :=
  { timed with durations := by rw [fits]; exact timed.durations }

theorem rowRuleTimed {l : Last} {r : StopRecord} (stays : ∀ a ∈ r.stay.arrival, ∀ d ∈ r.stay.departure, a ≤ d)
    (arrivals : ∀ x ∈ l.arrival, ∀ y ∈ r.stay.arrival, x ≤ y)
    (departures : ∀ x ∈ l.departure, ∀ y ∈ r.stay.departure, x ≤ y) :
    rowRule l r = none ∨ rowRule l r = some .sequenceIncreases := by
  cases broken : both l.sequence r.row.gtfsSequence fun last own => own ≤ last with
  | true => exact .inr (by simp only [rowRule, broken, if_true])
  | false =>
    refine .inl (rowRuleNone.mpr ⟨fun x known y own => ?_, stays, arrivals, departures⟩)
    simpa using bothFalse.mp broken x known y own

section Partition
variable {partition : List StopRecord}

theorem ownTimed (timed : Timed elapsedIn64 partition) : ∀ v ∈ own partition, v.rule = none ∨ v.rule = some .sequenceIncreases := by
  intro v member
  obtain ⟨before, after, rows, rule⟩ := ownAt member
  have inside : v.record ∈ partition := by rw [rows]; simp
  obtain ⟨⟨_, stays, _⟩, arrivals, departures⟩ := timed
  rw [rows] at arrivals departures
  rw [rule]
  exact rowRuleTimed (stays v.record inside) (LastKnown.lastKnownBefore arrivals) (LastKnown.lastKnownBefore departures)

theorem survivorsHead (timed : Timed elapsedIn64 partition) : (survivors partition).head? = partition.head? := by
  cases partition with
  | nil => rfl
  | cons r rest =>
    have clean : rowRule {} r = none := rowRuleNone.mpr ⟨by simp, timed.stays r List.mem_cons_self, by simp, by simp⟩
    simp [survivors, own, rowRules, clean]

theorem survivorsSublist (partition : List StopRecord) : (survivors partition).Sublist partition := by
  have sub := (List.filter_sublist (p := fun v : Verdict => v.rule.isNone) (l := own partition)).map (·.record)
  rwa [show (own partition).map (·.record) = partition from rowRulesRecords {} partition] at sub

theorem survivorsRule (timed : Timed elapsedIn64 partition) :
    partitionRule (survivors partition) = none ∨ partitionRule (survivors partition) = some .durationsAddUp := by
  have headed : (∃ r ∈ survivors partition, r.row.gtfsSequence.isSome) →
      ∃ r ∈ (survivors partition).head?, r.row.gtfsSequence.isSome := by
    rintro ⟨r, member, planned⟩
    rw [survivorsHead timed]
    exact timed.startsPlanned ⟨r, (survivorsSublist partition).subset member, planned⟩
  have starts := startsPlannedHolds.mpr headed
  simp only [partitionRule, starts, Bool.false_eq_true, if_false]
  cases span? (survivors partition) with
  | none => exact .inl rfl
  | some span =>
    dsimp only
    split
    · exact .inl rfl
    · exact .inr rfl

theorem judgedTimed (timed : Timed elapsedIn64 partition) : ∀ v ∈ judge partition, ∀ rule ∈ v.rule, rule = .sequenceIncreases ∨
    rule = .durationsAddUp ∧ ∃ w ∈ judge partition, w.rule = some .sequenceIncreases := by
  intro v member rule broken
  rw [judgeOwn] at member ⊢
  obtain ⟨w, inside, rfl⟩ := List.mem_map.mp member
  rcases ownTimed timed w inside with clean | repeated
  · have together : partitionRule (survivors partition) = some rule := by simpa [clean] using broken
    have shorter : ¬∀ u ∈ own partition, u.rule = none := fun all => by
      rw [survivorsAll all, partitionRuleNone.mpr ⟨timed.startsPlanned, timed.durations⟩] at together
      cases together
    push Not at shorter
    obtain ⟨u, known, withheld⟩ := shorter
    refine .inr ⟨?_, _, List.mem_map_of_mem known, ?_⟩
    · rcases survivorsRule timed with none | adds
      · cases together.symm.trans none
      · exact Option.some.inj (together.symm.trans adds)
    · simp [(ownTimed timed u known).resolve_left withheld]
  · exact .inl (by simpa [repeated] using broken.symm)

end Partition

section Run
variable {rows : List StopRecord}

theorem memRejected {x : Rejected} : x ∈ (run rows).rejected ↔
    ∃ partition ∈ partitions rows, ∃ v ∈ judge partition, v.rule = some x.rule ∧ v.record = x.record := by
  simp only [run, Outcome.ofVerdicts, List.mem_filterMap, List.mem_flatMap, Option.map_eq_some_iff]
  constructor
  · rintro ⟨v, ⟨partition, member, inside⟩, rule, broken, rfl⟩
    exact ⟨partition, member, v, inside, broken, rfl⟩
  · rintro ⟨partition, member, v, inside, broken, same⟩
    exact ⟨v, ⟨partition, member, inside⟩, x.rule, broken, by rw [same]⟩

/- A row is withheld for its number, or because its journey has lost such a row and its durations with it. -/
def ForNumbers (rejected : List Rejected) : Prop :=
  ∀ x ∈ rejected, x.rule = .sequenceIncreases ∨ x.rule = .durationsAddUp ∧
    ∃ y ∈ rejected, y.rule = .sequenceIncreases ∧ y.record.journey = x.record.journey

theorem withheldForNumbers (timed : ∀ partition ∈ partitions rows, Timed elapsedIn64 partition) :
    ForNumbers (run rows).rejected := by
  intro x withheld
  obtain ⟨partition, member, v, inside, broken, same⟩ := memRejected.mp withheld
  refine (judgedTimed (timed partition member) v inside x.rule broken).imp_right ?_
  rintro ⟨adds, w, known, repeated⟩
  have journeys : w.record.journey = v.record.journey := by
    have records := judgeRecords partition
    refine splitUniform StopRecord.journey rows member _ ?_ _ ?_ <;> rw [← records]
    · exact List.mem_map_of_mem known
    · exact List.mem_map_of_mem inside
  exact ⟨adds, ⟨.sequenceIncreases, w.record⟩, memRejected.mpr ⟨partition, member, w, known, repeated, rfl⟩, rfl,
    same ▸ journeys⟩

theorem publishedAll (clean : (run rows).rejected = []) : (run rows).valid = rows := by
  have whole : (partitions rows).map kept = partitions rows := by
    refine (List.map_congr_left fun partition member => ?_).trans (List.map_id _)
    have none := (judgedCleanIff partition).mpr ((rejectedNone rows).mp clean partition member)
    have all : (judge partition).filter (·.rule.isNone) = judge partition :=
      List.filter_eq_self.mpr fun v inside => by simp [none v inside]
    rw [kept, all, judgeRecords, id]
  rw [validKept, whole]
  exact List.flatten_splitBy _ rows

end Run

end Validation

namespace StopRecord
open Validation (Timed Sound)

structure Times (rows : List StopRecord) (events : List StopEvent) : Prop where
  numbers : rows.map (·.row.gtfsSequence) = events.map (·.row.gtfsSequence)
  stays : rows.map (·.stay) = Stay.ofEvents events

theorem Times.timed {rows : List StopRecord} {events : List StopEvent} (times : Times rows events)
    (whole : ∀ e ∈ events, e.Whole)
    (starts : (∃ e ∈ events, e.row.gtfsSequence.isSome) → ∃ e ∈ events.head?, e.row.gtfsSequence.isSome) :
    Timed elapsed rows := by
  have column {α : Type} (get : Stay → Option α) :
      rows.filterMap (fun r => get r.stay) = (Stay.along none (Stay.settle (Stay.estimates events))).filterMap get := by
    rw [← Stay.ofEventsAlong, ← times.stays, List.filterMap_map]
    rfl
  have stands := Stay.settledStand whole
  have ordered := Stay.staysOrdered events
  rw [Stay.ofEventsAlong] at ordered
  refine ⟨⟨?_, ?_, ?_⟩, ?_, ?_⟩
  · rintro ⟨r, member, planned⟩
    have known : r.row.gtfsSequence ∈ rows.map (·.row.gtfsSequence) := List.mem_map_of_mem member
    rw [times.numbers] at known
    obtain ⟨e, inside, same⟩ := List.mem_map.mp known
    obtain ⟨first, head, own⟩ := starts ⟨e, inside, by rw [same]; exact planned⟩
    have heads := congrArg List.head? times.numbers
    rw [List.head?_map, List.head?_map, Option.mem_def.mp head] at heads
    obtain ⟨r, start, same⟩ := Option.map_eq_some_iff.mp heads
    exact ⟨r, start, by rw [same]; exact own⟩
  · intro r member
    have known : r.stay ∈ rows.map (·.stay) := List.mem_map_of_mem member
    rw [times.stays, Stay.ofEventsAlong] at known
    exact Stay.alongOrder stands none r.stay known
  · rw [column (·.arrival), column (·.departure), elapsed, column (·.travelled), column (·.stopped)]
    exact Stay.durationsTelescope stands
  · rw [column (·.arrival)]
    exact List.pairwise_filterMap.mpr (ordered.imp fun {a b} both => both.1)
  · rw [column (·.departure)]
    exact List.pairwise_filterMap.mpr (ordered.imp fun {a b} both => both.2)

theorem journeyTimes (events : List StopEvent) : Times (ofJourney events) events where
  numbers := by
    have shown := congrArg (List.map Prod.fst) (journeyRows events)
    rwa [List.map_map, List.map_map] at shown
  stays := journeyStays events

structure Prepared (events : List StopEvent) : Prop where
  sorted : events.Pairwise fun a b => (compare a.key b.key).isLE
  whole : ∀ e ∈ events, e.Whole
  ranged : ∀ e ∈ events, ∀ v, e.Saw v → v.InRange
  starts : ∀ key, (∃ e ∈ events.filter (·.key = key), e.row.gtfsSequence.isSome) →
    ∃ e ∈ (events.filter (·.key = key)).head?, e.row.gtfsSequence.isSome

section Partition
variable {events : List StopEvent} {partition : List StopRecord}

theorem partitionTimes (sorted : events.Pairwise fun a b => (compare a.key b.key).isLE)
    (member : partition ∈ partitions (derive events)) : ∃ key, Times partition (events.filter (·.key = key)) := by
  have blocks := (derivedGrouped sorted).blocks
  obtain ⟨r, rest, shape⟩ := List.exists_cons_of_ne_nil fun empty => blocks.filled (empty ▸ member)
  have own := blocks.filterKey member (a := r) (by rw [shape]; exact List.mem_cons_self)
  rw [List.flatten_splitBy] at own
  have shown := derivedOfJourney sorted r.journey
  rw [own] at shown
  obtain ⟨numbers, stays⟩ := journeyTimes (events.filter (·.key = r.journey))
  refine ⟨r.journey, ?_, ?_⟩
  · rw [← numbers]
    have column := congrArg (List.map fun s : SkeletonRow × String × Stay => s.1.gtfsSequence) shown
    rwa [List.map_map, List.map_map] at column
  · rw [← stays]
    have column := congrArg (List.map fun s : SkeletonRow × String × Stay => s.2.2) shown
    rwa [List.map_map, List.map_map] at column

theorem partitionFits (prepared : Prepared events) (member : partition ∈ partitions (derive events)) {rows : List StopRecord}
    (sub : rows.Sublist partition) : elapsedIn64 rows = elapsed rows := by
  obtain ⟨key, times⟩ := partitionTimes prepared.sorted member
  exact staysFit (fun e inside => prepared.whole e (List.mem_of_mem_filter inside))
    (fun e inside => prepared.ranged e (List.mem_of_mem_filter inside)) times.stays sub

theorem partitionTimed (prepared : Prepared events) (member : partition ∈ partitions (derive events)) :
    Timed elapsedIn64 partition := by
  obtain ⟨key, times⟩ := partitionTimes prepared.sorted member
  have timed := times.timed (fun e inside => prepared.whole e (List.mem_of_mem_filter inside)) (prepared.starts key)
  exact timed.in64 (partitionFits prepared member (List.Sublist.refl partition))

theorem partitionSound (prepared : Prepared events)
    (increasing : ∀ key, ((events.filter (·.key = key)).filterMap (·.row.gtfsSequence)).Pairwise (· < ·))
    (member : partition ∈ partitions (derive events)) : Sound elapsedIn64 partition := by
  obtain ⟨key, times⟩ := partitionTimes prepared.sorted member
  refine (partitionTimed prepared member).sound ?_
  have numbers : partition.filterMap (·.row.gtfsSequence) =
      (events.filter (·.key = key)).filterMap (·.row.gtfsSequence) := by
    have column := congrArg (List.filterMap id) times.numbers
    rwa [List.filterMap_map, List.filterMap_map] at column
  rw [numbers]
  exact increasing key

end Partition

end StopRecord

end TransitTimeline
