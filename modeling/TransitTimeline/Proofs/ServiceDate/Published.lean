import TransitTimeline.Proofs.Schedule.Continuation
import TransitTimeline.Proofs.ServiceDate.Reconciled

/-! What a service date publishes. From the planned stops on, the numbers of a trip never go back: parts of a split trip
continue each other, every pullout carries them in that order, and a journey keeps to one pullout. So a withheld row never
lets a row behind it fall back, and every published partition keeps all promises. -/
namespace TransitTimeline
open Std

namespace StopRecord
open Validation (Sound judge Recovering)

section Follows
variable {rows : List StopRecord}

theorem partitionRecovering {partition : List StopRecord} (ordered : partition.Pairwise Follows)
    (uniform : ∀ a ∈ partition, ∀ b ∈ partition, a.journey = b.journey) : Recovering (judge partition) := by
  refine Validation.recoveringOfOrdered ?_ ?_ ?_ <;> refine List.pairwise_filterMap.mpr (ordered.imp_of_mem ?_) <;>
    intro a b ha hb follows
  · exact follows.sequences (uniform a ha b hb)
  · exact (follows.stays (uniform a ha b hb)).1
  · exact (follows.stays (uniform a ha b hb)).2

theorem validSoundOfFollows (ordered : rows.Pairwise Follows)
    (fits : ∀ partition ∈ partitions rows, ∀ left, left.Sublist partition → elapsedIn64 left = elapsed left)
    (journey : String × String) : Sound elapsed ((Validation.run rows).valid.filter (·.journey = journey)) := by
  have grouped : Grouped StopRecord.journey rows := groupedOfSorted (ordered.imp fun follows => follows.journeys)
  have recovering : ∀ partition ∈ partitions rows, Recovering (judge partition) := by
    intro partition member
    exact partitionRecovering (ordered.sublist (splitSublist member)) (splitUniform StopRecord.journey rows member)
  rcases Validation.validOfJourney grouped journey with empty | ⟨partition, member, own⟩
  · rw [empty]
    exact Validation.soundEmpty elapsed
  · have sound := (Validation.keptSoundIff partition).mpr (recovering partition member)
    have durations := sound.durations
    rw [fits partition member _ (Validation.keptSublist partition)] at durations
    rw [own]
    exact { sound with durations }

end Follows
end StopRecord

namespace Journey

section Join
variable {planned : List PlannedStop} {stops : List PulloutStop} {tolerance : Int} {m : Skeleton.Merged}

theorem joinFollows (ok : Skeleton.merge planned stops tolerance = .ok m)
    (ascending : ∀ trip, PlannedStop.Ascending (planned.filter (·.tripId = trip))) (date : Day)
    (gtfs : List GtfsObservation) (tm : List TmObservation) :
    (join date m.rows gtfs tm).events.Pairwise StopEvent.Follows := by
  have numbers : (join date m.rows gtfs tm).events.Pairwise fun a b =>
      a.key = b.key → ∀ x ∈ a.row.gtfsSequence, ∀ y ∈ b.row.gtfsSequence, x ≤ y := by
    refine (joinSections date m.rows gtfs tm).pairwise (sectionKeys date m.rows gtfs tm) ?_ (keysOrdered gtfs tm)
      fun a b less same => by simp [same] at less
    rintro _ _ ⟨j, _, rfl, rfl⟩
    have ascends := (List.pairwise_map.mpr (ascending j.tripId)).sublist (journeyNumbers ok date j)
    exact (List.pairwise_filterMap.mp ascends).imp fun {a b} le (_ : a.key = b.key) => le
  exact ((joinSorted date m.rows gtfs tm).and numbers).imp fun {a b} both => ⟨both.1, both.2⟩

end Join

end Journey

namespace ServiceDate

theorem scheduleAscends {date : Day} {z : Zone} {i : Inputs} {tolerance : Int} {s : Schedule}
    (numbered : ∀ st ∈ i.gtfs.stopTimes, 0 ≤ st.sequence)
    (fit : ∀ planned, PlannedStop.ofTables date z i.gtfs = .ok planned → PlannedStop.NumbersFit planned)
    (ok : schedule date z i tolerance = .ok s) :
    ∃ planned stops nanos, Skeleton.merge planned stops nanos = .ok s.merged ∧
      ∀ trip, PlannedStop.Ascending (planned.filter (·.tripId = trip)) := by
  obtain ⟨planned, stops, nanos, tables, merge⟩ := scheduled ok
  have fits := fit planned tables
  obtain ⟨visits, rfl, positive⟩ := PlannedStop.plannedPositive numbered tables
  exact ⟨_, stops, nanos, merge, PlannedStop.continuedAscending positive fits⟩

theorem publishedSound (zones : String → Option Zone) (date : Day) (i : Inputs) (zoneName : String) (tolerance : Int)
    (report : Report) (numbered : ∀ st ∈ i.gtfs.stopTimes, 0 ≤ st.sequence)
    (fit : ∀ z ∈ zones zoneName, ∀ planned, PlannedStop.ofTables date z i.gtfs = .ok planned → PlannedStop.NumbersFit planned)
    (ok : reconcileIn zones date i zoneName tolerance = .ok report) (journey : String × String) :
    Validation.Sound StopRecord.elapsed (report.records.filter (·.journey = journey)) := by
  obtain ⟨z, s, tm, went, rfl⟩ := reconciledThrough ok
  obtain ⟨planned, stops, nanos, merge, ascending⟩ := scheduleAscends numbered (fit z went.zone) went.schedule
  have events := Journey.joinFollows merge ascending date (gtfsObservations date i s.offsets) tm
  rw [reportRecords]
  exact StopRecord.validSoundOfFollows (StopRecord.deriveFollows events)
    (fun partition member left => StopRecord.partitionFits went.prepared member) journey

/- A trip whose last two stops carry the same number, and a vehicle that is seen at all three. -/
section Repeated

def repeatedNumber : Inputs where
  gtfs := {
    trips := [{ routeId := "r", serviceId := "s", tripId := "1" }]
    routes := [{ routeId := "r", routeType := 3 }]
    exceptions := [{ serviceId := "s", date := "19700101", kind := 1 }]
    stopTimes := [("a", 1), ("b", 2), ("c", 2)].map fun (stopId, sequence) => { tripId := "1", stopId, sequence } }
  pings := [("a", 1), ("b", 2), ("c", 2)].map fun (stop, sequence) =>
    { vehicleLabel := some "9", tripId := some "1", routeId := some "r", stopId := some stop, stopSequence := some sequence,
      timestamp := 36000 + 60 * sequence }

theorem repeatedServices : Gtfs.activeServices ⟨0⟩ repeatedNumber.gtfs.weeks repeatedNumber.gtfs.exceptions =
    (∅ : TreeSet String).insert "s" := by
  have day : Day.ofCompact? "19700101" = some ⟨0⟩ := by cbv
  simp [Gtfs.activeServices, Gtfs.Exception.apply, Gtfs.weeklyServices, repeatedNumber, day]

theorem repeatedEvaluated : ((reconcile ⟨0⟩ repeatedNumber "UTC" 3600).map fun r =>
      ((r.records.filter (·.journey = ("1", "9"))).map (·.row.stopId), r.rejected.map (·.record.row.stopId))).toOption =
        some (["a", "b"], ["c"]) ∧
    ((PlannedStop.ofTables ⟨0⟩ ⟨"UTC", 0, []⟩ repeatedNumber.gtfs).map fun planned =>
      planned.map (·.sequence)).toOption = some [1, 2, 2] := by
  have universal : zoneIn Zone.named? "UTC" = .ok ⟨"UTC", 0, []⟩ := rfl
  unfold reconcile reconcileIn schedule PlannedStop.ofTables PlannedStop.Lookup.ofTables
  rw [universal, repeatedServices]
  constructor <;> cbv

theorem publishedSoundBesideRepeat : (∀ st ∈ repeatedNumber.gtfs.stopTimes, 0 ≤ st.sequence) ∧
    (∀ z ∈ Zone.named? "UTC", ∀ planned, PlannedStop.ofTables ⟨0⟩ z repeatedNumber.gtfs = .ok planned →
      PlannedStop.NumbersFit planned) ∧
    ∃ report, reconcile ⟨0⟩ repeatedNumber "UTC" 3600 = .ok report ∧
      (report.records.filter (·.journey = ("1", "9"))).map (·.row.stopId) = ["a", "b"] ∧
      report.rejected.map (·.record.row.stopId) = ["c"] ∧
      Validation.Sound StopRecord.elapsed (report.records.filter (·.journey = ("1", "9"))) := by
  have numbered : ∀ st ∈ repeatedNumber.gtfs.stopTimes, 0 ≤ st.sequence := by simp [repeatedNumber]
  obtain ⟨evaluated, numbers⟩ := repeatedEvaluated
  have fit : ∀ z ∈ Zone.named? "UTC", ∀ planned, PlannedStop.ofTables ⟨0⟩ z repeatedNumber.gtfs = .ok planned →
      PlannedStop.NumbersFit planned := by
    intro z named planned tables
    have universal : z = ⟨"UTC", 0, []⟩ := Option.some.inj (named.symm.trans rfl)
    rw [universal] at tables
    rw [tables] at numbers
    have known : planned.map (·.sequence) = [1, 2, 2] := Option.some.inj numbers
    refine PlannedStop.numbersFitOfSum (fun r member => ?_) (by rw [known]; decide)
    have own : r.sequence ∈ planned.map (·.sequence) := List.mem_map_of_mem member
    rw [known] at own
    revert own
    generalize r.sequence = n
    simp
    omega
  cases ok : reconcile ⟨0⟩ repeatedNumber "UTC" 3600 with
  | error e => rw [ok] at evaluated; cases evaluated
  | ok report =>
    rw [ok] at evaluated
    obtain ⟨published, withheld⟩ := Prod.mk.inj (Option.some.inj evaluated)
    exact ⟨numbered, fit, report, rfl, published, withheld,
      publishedSound Zone.named? ⟨0⟩ repeatedNumber "UTC" 3600 report numbered fit ok ("1", "9")⟩

end Repeated

end ServiceDate

end TransitTimeline
