import TransitTimeline.Proofs.Reread
import TransitTimeline.Proofs.ServiceDate.Published

/-! Feed files that overlap. A ping or a crossing that is read again, wherever it stands then, leaves the date as it is. -/
namespace TransitTimeline
open Std

namespace GtfsObservation

theorem earliestIgnoresRepeats (status : StopStatus) : IgnoresRepeats (earliest status) :=
  (IgnoresRepeats.firstLeast _).filter _

theorem ofGroupIgnoresRepeats (key : UsablePing.Key) : IgnoresRepeats (ofGroup key) := by
  intro before p after seen
  unfold ofGroup
  rw [earliestIgnoresRepeats _ before p after seen, earliestIgnoresRepeats _ before p after seen,
    IgnoresRepeats.findSome _ before p after seen, IgnoresRepeats.findSome _ before p after seen]

theorem ofPingsIgnoresRepeats (date : Day) (busRoutes : TreeSet String) : IgnoresRepeats (ofPings date busRoutes) :=
  (IgnoresRepeats.groups UsablePing.key ofGroupIgnoresRepeats).filterMap _

end GtfsObservation

namespace TmObservation

theorem distinctIgnoresRepeats : IgnoresRepeats distinct := by
  have each := IgnoresRepeats.groups key (f := fun group => firstLeast (·.firstSeen) group.2) fun _ => .firstLeast _
  have listed := each.comp (List.filterMap id)
  simp only [List.filterMap_map] at listed
  exact listed

theorem ofCrossingsIgnoresRepeats (date : Day) (z : Zone) (t : Tm.Tables) : IgnoresRepeats (ofCrossings date z t) := by
  have mapped := (distinctIgnoresRepeats.filterMap id).mapM (ofCrossing date z (.ofTables t))
  exact mapped

end TmObservation

namespace ServiceDate

theorem reconcileOverlapping (zones : String → Option Zone) (date : Day) (i : Inputs) (zoneName : String) (tolerance : Int)
    (pings : List Ping) (crossings : List Crossing) (rereadPings : Reread i.pings pings)
    (rereadCrossings : Reread i.crossings crossings) :
    reconcileIn zones date { i with pings, crossings } zoneName tolerance = reconcileIn zones date i zoneName tolerance := by
  have tm (z : Zone) : TmObservation.ofCrossings date z i.tm crossings = TmObservation.ofCrossings date z i.tm i.crossings :=
    (TmObservation.ofCrossingsIgnoresRepeats date z i.tm).reread rereadCrossings
  have gtfs (offsets : PlannedStop.Offsets) : gtfsObservations date { i with pings, crossings } offsets =
      gtfsObservations date i offsets :=
    congrArg (List.map _) ((GtfsObservation.ofPingsIgnoresRepeats date _).reread rereadPings)
  unfold reconcileIn
  simp only [tm, gtfs]
  rfl

/- A vehicle on a trip with three stops, which the sensors saw at the second one. -/
section Seen

def seen : Crossing :=
  { calendarId := 119700101, isRevenue := "R", routeId := some 1, nodeId := 1, tripId := 1, vehicleId := 1, sequence := 2,
    arrival := some 36150 }

def seenTwice : Inputs := { repeatedNumber with
  tm := {
    nodes := [{ nodeId := 1, abbreviation := "b" }]
    routes := [{ routeId := 1, abbreviation := "r" }]
    trips := [{ tripId := 1, serial := 1 }]
    vehicles := [{ vehicleId := 1, propertyTag := "9" }] }
  crossings := [seen] }

theorem seenEvaluated : ((reconcile ⟨0⟩ seenTwice "UTC" 3600).map fun r =>
    r.records.map fun record => (record.row.stopId, record.reported.tmArrival.isSome)).toOption =
    some [("a", false), ("b", true)] := by
  have universal : zoneIn Zone.named? "UTC" = .ok ⟨"UTC", 0, []⟩ := rfl
  have services : Gtfs.activeServices ⟨0⟩ seenTwice.gtfs.weeks seenTwice.gtfs.exceptions = (∅ : TreeSet String).insert "s" :=
    repeatedServices
  unfold reconcile reconcileIn schedule PlannedStop.ofTables PlannedStop.Lookup.ofTables
  rw [universal, services]
  cbv

theorem reconcileOverlappingTwice :
    let pings := seenTwice.pings ++ seenTwice.pings
    Reread seenTwice.pings pings ∧ Reread seenTwice.crossings [seen, seen] ∧
      ∃ report, reconcile ⟨0⟩ { seenTwice with pings, crossings := [seen, seen] } "UTC" 3600 = .ok report ∧
        report.records.map (fun record => (record.row.stopId, record.reported.tmArrival.isSome)) =
          [("a", false), ("b", true)] := by
  intro pings
  have rereadPings : Reread seenTwice.pings pings := .append (List.Subset.refl _)
  have rereadCrossings : Reread seenTwice.crossings [seen, seen] := .append (List.Subset.refl _)
  have evaluated := seenEvaluated
  have same := reconcileOverlapping Zone.named? ⟨0⟩ seenTwice "UTC" 3600 pings [seen, seen] rereadPings rereadCrossings
  rw [reconcile, same]
  change ((reconcileIn Zone.named? ⟨0⟩ seenTwice "UTC" 3600).map _).toOption = _ at evaluated
  cases ok : reconcileIn Zone.named? ⟨0⟩ seenTwice "UTC" 3600 with
  | error e => rw [ok] at evaluated; cases evaluated
  | ok report =>
    rw [ok] at evaluated
    exact ⟨rereadPings, rereadCrossings, report, rfl, Option.some.inj evaluated⟩

end Seen

end ServiceDate

end TransitTimeline
