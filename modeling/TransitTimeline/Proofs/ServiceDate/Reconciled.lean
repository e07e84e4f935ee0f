import TransitTimeline.Proofs.Journey.Attached
import TransitTimeline.Proofs.Journey.Choice
import TransitTimeline.Proofs.Observation.Clocked
import TransitTimeline.Proofs.Record.Timed
import TransitTimeline.ServiceDate.Reconcile

/-! What a service date is worked out through: its zone, the merged schedule, the observations and their join. Along a
journey the numbers are those of the planned trip, and every time is a whole second of the calendar. -/
namespace TransitTimeline

namespace Skeleton

theorem Partition.numbers {planned : List PlannedStop} {trip : String} {pullout : Option Int}
    {rows : List SkeletonRow} (partition : Partition planned trip pullout rows) :
    rows.filterMap (·.gtfsSequence) = planned.map (·.sequence) := by
  have numbers : (rows.filter isPlanned).filterMap (·.gtfsSequence) = planned.filterMap fun g => some g.sequence :=
    pairedColumn partition.shows fun r g shown => shown.sequence
  have all : rows.filterMap (·.gtfsSequence) = (rows.filter isPlanned).filterMap (·.gtfsSequence) := by
    rw [List.filterMap_filter]
    refine List.filterMap_congr fun r _ => ?_
    unfold isPlanned
    cases r.gtfsSequence <;> rfl
  rw [all, numbers, List.filterMap_eq_map']

end Skeleton

namespace Journey

section Join
variable {planned : List PlannedStop} {stops : List PulloutStop} {tolerance : Int} {m : Skeleton.Merged}

theorem skeletonNumbers (ok : Skeleton.merge planned stops tolerance = .ok m) {trip : String} {pullout : Option Int}
    {rows : List SkeletonRow} (known : (pullout, rows) ∈ pulloutsOf (m.rows.filter (·.tripId = trip))) :
    rows.filterMap (·.gtfsSequence) = (planned.filter (·.tripId = trip)).map (·.sequence) := by
  obtain ⟨rfl, filled⟩ := (memMerged ok).mp known
  exact (Skeleton.filledPartition ok filled).numbers

theorem journeyNumbers (ok : Skeleton.merge planned stops tolerance = .ok m) (date : Day) (j : Journey) :
    ((events date (Groups.ofRows (·.tripId) m.rows) j).events.filterMap (·.row.gtfsSequence)).Sublist
      ((planned.filter (·.tripId = j.tripId)).map (·.sequence)) := by
  rw [eventsAlong]
  cases chosen : skeleton? (pulloutsOf (m.rows.filter (·.tripId = j.tripId))) j with
  | none => exact List.nil_sublist _
  | some skeleton =>
    obtain ⟨pullout, known⟩ := skeletonKnown chosen
    have rows := (eventRows date j skeleton).filterMap (·.gtfsSequence)
    rwa [List.filterMap_map, skeletonNumbers ok known] at rows

theorem joinedNumbers (ok : Skeleton.merge planned stops tolerance = .ok m) (date : Day)
    (gtfs : List GtfsObservation) (tm : List TmObservation) (key : String × String) :
    (((join date m.rows gtfs tm).events.filter (·.key = key)).filterMap (·.row.gtfsSequence)).Sublist
      ((planned.filter (·.tripId = key.1)).map (·.sequence)) := by
  by_cases known : key ∈ (ofObservations gtfs tm).map Journey.key
  · obtain ⟨j, member, rfl⟩ := List.mem_map.mp known
    rw [joinedOfJourney date member]
    exact journeyNumbers ok date j
  · rw [(joinSections date m.rows gtfs tm).filterOther (sectionKeys date m.rows gtfs tm) known]
    exact List.nil_sublist _

end Join

end Journey

namespace ServiceDate
variable {zones : String → Option Zone} {date : Day} {i : Inputs} {zoneName : String} {tolerance : Int} {z : Zone} {s : Schedule}
  {tm : List TmObservation} {r : Report}

theorem scheduled (ok : schedule date z i tolerance = .ok s) : ∃ planned stops nanos,
    PlannedStop.ofTables date z i.gtfs = .ok planned ∧
      Skeleton.merge (PlannedStop.continueTrips planned).rows stops nanos = .ok s.merged := by
  obtain ⟨planned, tables, ok⟩ := okBind ok
  obtain ⟨stops, _, ok⟩ := okBind ok
  obtain ⟨merged, merge, ok⟩ := okBind ok
  obtain ⟨nanos, _, merge⟩ := okBind merge
  cases ok
  exact ⟨planned, stops, nanos, tables, merge⟩

structure Went (zones : String → Option Zone) (date : Day) (i : Inputs) (zoneName : String) (tolerance : Int) (z : Zone)
    (s : Schedule) (tm : List TmObservation) : Prop where
  zone : zones zoneName = some z
  schedule : schedule date z i tolerance = .ok s
  crossings : TmObservation.ofCrossings date z i.tm i.crossings = .ok tm

theorem zoneKnown (ok : zoneIn zones zoneName = .ok z) : zones zoneName = some z := by
  unfold zoneIn at ok
  split at ok
  · rename_i known
    cases ok
    exact known
  · cases ok

theorem reconciledThrough (ok : reconcileIn zones date i zoneName tolerance = .ok r) :
    ∃ z s tm, Went zones date i zoneName tolerance z s tm ∧
      r = report date s.merged (Journey.join date s.merged.rows (gtfsObservations date i s.offsets) tm) := by
  obtain ⟨z, named, ok⟩ := okBind ok
  obtain ⟨s, schedule, ok⟩ := okBind ok
  obtain ⟨tm, crossings, ok⟩ := okBind ok
  exact ⟨z, s, tm, ⟨zoneKnown named, schedule, crossings⟩, (Except.ok.inj ok).symm⟩

theorem reportRecords (date : Day) (merged : Skeleton.Merged) (joined : Journey.Joined) :
    (report date merged joined).records = (Validation.run (StopRecord.derive joined.events)).valid := rfl

section Joined
variable {schedule : List SkeletonRow} {gtfs : List GtfsObservation} {tm : List TmObservation}

theorem eventClocked (gtfsClocked : ∀ o ∈ gtfs, o.Clocked) (tmClocked : ∀ o ∈ tm, o.Clocked) :
    ∀ e ∈ (Journey.join date schedule gtfs tm).events, ∀ v, e.Saw v → (∃ s, v = .ofSeconds s) ∧ v.InRange := by
  intro e member v saw
  obtain ⟨_, gtfsOwn, tmOwn⟩ := Journey.joinedCarries member
  rcases saw with seen | seen | seen | seen <;> obtain ⟨o, own, known⟩ := Option.bind_eq_some_iff.mp seen
  · exact (gtfsClocked o (gtfsOwn o own).1).1 v known
  · exact (gtfsClocked o (gtfsOwn o own).1).2 v known
  · exact (tmClocked o (tmOwn o own).1).1 v known
  · exact (tmClocked o (tmOwn o own).1).2 v known

theorem joinPrepared (gtfsClocked : ∀ o ∈ gtfs, o.Clocked) (tmClocked : ∀ o ∈ tm, o.Clocked) :
    StopRecord.Prepared (Journey.join date schedule gtfs tm).events where
  sorted := Journey.joinSorted date schedule gtfs tm
  whole e member := by
    have clocked := eventClocked gtfsClocked tmClocked e member
    exact ⟨fun v seen => (clocked v (.inl seen)).1, fun v seen => (clocked v (.inr (.inl seen))).1,
      fun v seen => (clocked v (.inr (.inr (.inl seen)))).1, fun v seen => (clocked v (.inr (.inr (.inr seen)))).1⟩
  ranged e member v saw := (eventClocked gtfsClocked tmClocked e member v saw).2
  starts := Journey.joinedStartsPlanned

end Joined

theorem observationsClocked (date : Day) (i : Inputs) (offsets : PlannedStop.Offsets) :
    ∀ o ∈ gtfsObservations date i offsets, o.Clocked := by
  intro o member
  obtain ⟨pinged, inside, rfl⟩ := List.mem_map.mp member
  exact GtfsObservation.continuedClocked (GtfsObservation.ofPingsClocked pinged inside)

theorem Went.prepared (went : Went zones date i zoneName tolerance z s tm) :
    StopRecord.Prepared (Journey.join date s.merged.rows (gtfsObservations date i s.offsets) tm).events :=
  joinPrepared (observationsClocked date i s.offsets) (TmObservation.ofCrossingsClocked went.crossings)

end ServiceDate

end TransitTimeline
