import TransitTimeline.Proofs.Schedule.Splitting
import TransitTimeline.Proofs.ServiceDate.Published

/-! What a service date withholds. The join and the stays establish every rule but that of the numbers, so where the
numbers increase along every trip, every event of the join is published. -/
namespace TransitTimeline.ServiceDate
open Std

section Report
variable {zones : String → Option Zone} {date : Day} {i : Inputs} {zoneName : String} {tolerance : Int} {z : Zone} {s : Schedule}
  {tm : List TmObservation}

theorem Went.numbersIncrease (went : Went zones date i zoneName tolerance z s tm) {planned : List PlannedStop}
    (tables : PlannedStop.ofTables date z i.gtfs = .ok planned)
    (increasing : ∀ trip, PlannedStop.Increasing ((PlannedStop.continueTrips planned).rows.filter (·.tripId = trip)))
    (key : String × String) :
    (((Journey.join date s.merged.rows (gtfsObservations date i s.offsets) tm).events.filter (·.key = key)).filterMap
      (·.row.gtfsSequence)).Pairwise (· < ·) := by
  obtain ⟨others, stops, nanos, same, merge⟩ := scheduled went.schedule
  cases tables.symm.trans same
  exact (List.pairwise_map.mpr (increasing key.1)).sublist
    (Journey.joinedNumbers merge date (gtfsObservations date i s.offsets) tm key)

end Report

theorem reportRejected (date : Day) (merged : Skeleton.Merged) (joined : Journey.Joined) :
    (report date merged joined).rejected = (Validation.run (StopRecord.derive joined.events)).rejected := rfl

structure PublishesAll (events : List StopEvent) (report : Report) : Prop where
  rejected : report.rejected = []
  records : report.records.map StopRecord.alone = events.map fun e => StopRecord.ofEvent false e none {}

theorem withholdsForNumbers (zones : String → Option Zone) (date : Day) (i : Inputs) (zoneName : String) (tolerance : Int)
    (report : Report) (ok : reconcileIn zones date i zoneName tolerance = .ok report) :
    ∃ z s tm planned, Went zones date i zoneName tolerance z s tm ∧ PlannedStop.ofTables date z i.gtfs = .ok planned ∧
      ((∀ trip, PlannedStop.Increasing ((PlannedStop.continueTrips planned).rows.filter (·.tripId = trip))) →
        PublishesAll (Journey.join date s.merged.rows (gtfsObservations date i s.offsets) tm).events report) ∧
      Validation.ForNumbers report.rejected := by
  obtain ⟨z, s, tm, went, rfl⟩ := reconciledThrough ok
  obtain ⟨planned, _, _, tables, _⟩ := scheduled went.schedule
  have prepared := went.prepared
  have numbers := went.numbersIncrease tables
  refine ⟨z, s, tm, planned, went, tables, fun increasing => ?_, ?_⟩
  · generalize (Journey.join date s.merged.rows (gtfsObservations date i s.offsets) tm) = joined at prepared numbers ⊢
    have clean := (Validation.rejectedNone (StopRecord.derive joined.events)).mpr fun partition member =>
      StopRecord.partitionSound prepared (numbers increasing) member
    refine ⟨by rw [reportRejected, clean], ?_⟩
    rw [reportRecords, Validation.publishedAll clean]
    exact StopRecord.derivedAlone joined.events
  · rw [reportRejected]
    exact Validation.withheldForNumbers fun partition member => StopRecord.partitionTimed prepared member

/- The trip with the repeated number, numbered on; the vehicle still reports the repeat. -/
section Numbered

def numberedOn : Inputs :=
  { repeatedNumber with
    gtfs := { repeatedNumber.gtfs with
      stopTimes := [("a", 1), ("b", 2), ("c", 3)].map fun (stopId, sequence) => { tripId := "1", stopId, sequence } } }

theorem numberedEvaluated : ((reconcile ⟨0⟩ numberedOn "UTC" 3600).map fun r => r.records.map (·.row.stopId)).toOption =
      some ["a", "b", "c"] ∧
    ((PlannedStop.ofTables ⟨0⟩ ⟨"UTC", 0, []⟩ numberedOn.gtfs).map fun planned =>
      (PlannedStop.continueTrips planned).rows.map (·.sequence)).toOption = some [1, 2, 3] := by
  have universal : zoneIn Zone.named? "UTC" = .ok ⟨"UTC", 0, []⟩ := rfl
  have services : Gtfs.activeServices ⟨0⟩ numberedOn.gtfs.weeks numberedOn.gtfs.exceptions =
      (∅ : TreeSet String).insert "s" := repeatedServices
  unfold reconcile reconcileIn schedule PlannedStop.ofTables PlannedStop.Lookup.ofTables
  rw [universal, services]
  constructor <;> cbv

theorem withholdsNothingNumbered : ∃ report, reconcile ⟨0⟩ numberedOn "UTC" 3600 = .ok report ∧
    report.records.map (·.row.stopId) = ["a", "b", "c"] ∧ report.rejected = [] := by
  obtain ⟨published, numbers⟩ := numberedEvaluated
  cases ok : reconcile ⟨0⟩ numberedOn "UTC" 3600 with
  | error e => rw [ok] at published; cases published
  | ok report =>
    rw [ok] at published
    obtain ⟨z, s, tm, planned, went, tables, all, _⟩ := withholdsForNumbers Zone.named? ⟨0⟩ numberedOn "UTC" 3600 report ok
    have universal : z = ⟨"UTC", 0, []⟩ := Option.some.inj (went.zone.symm.trans rfl)
    rw [universal] at tables
    rw [tables] at numbers
    have numbered : (PlannedStop.continueTrips planned).rows.map (·.sequence) = [1, 2, 3] := Option.some.inj numbers
    have increasing : ((PlannedStop.continueTrips planned).rows.map (·.sequence)).Pairwise (· < ·) := by
      rw [numbered]
      decide
    exact ⟨report, rfl, Option.some.inj published,
      (all fun trip => (List.pairwise_map.mp increasing).filter _).rejected⟩

end Numbered

end TransitTimeline.ServiceDate
