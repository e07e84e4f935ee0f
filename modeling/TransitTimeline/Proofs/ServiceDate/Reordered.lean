import TransitTimeline.Proofs.Schedule.Reordered
import TransitTimeline.Proofs.ServiceDate.Published

/-! Tables that are exported in another order. Where no key is repeated, a date does not see the order of the static rows;
pings and crossings keep theirs. -/
namespace TransitTimeline
open Std

namespace GtfsObservation

theorem ofPingsSame {a b : TreeSet String} (same : ∀ id, a.contains id = b.contains id) (date : Day) (pings : List Ping) :
    ofPings date a pings = ofPings date b pings := by
  have each : UsablePing.ofPing? date a = UsablePing.ofPing? date b := by
    funext p
    unfold UsablePing.ofPing?
    simp only [same]
  rw [ofPings, ofPings, each]

end GtfsObservation

namespace TmObservation
variable {t u : Tm.Tables}

structure Lookup.Agrees (l m : Lookup) : Prop where
  nodes : ∀ k, l.nodes.find? k = m.nodes.find? k
  routes : ∀ k, l.routes.find? k = m.routes.find? k
  trips : ∀ k, l.trips.find? k = m.trips.find? k
  vehicles : ∀ k, l.vehicles.find? k = m.vehicles.find? k

theorem Lookup.ofTablesAgrees (keyed : t.Keyed) (reordered : t.Reordered u) :
    (Lookup.ofTables t).Agrees (.ofTables u) where
  nodes := Index.findReordered keyed.nodes reordered.nodes
  routes := Index.findReordered keyed.routes reordered.routes
  trips := Index.findReordered keyed.trips reordered.trips
  vehicles := Index.findReordered keyed.vehicles reordered.vehicles

theorem Lookup.Agrees.ofCrossing {l m : Lookup} (agrees : l.Agrees m) (date : Day) (z : Zone) :
    ofCrossing date z l = ofCrossing date z m := by
  have resolve : l.resolve = m.resolve := by
    funext c
    unfold Lookup.resolve
    simp only [agrees.nodes, agrees.routes, agrees.trips, agrees.vehicles]
  funext c
  rw [TmObservation.ofCrossing, TmObservation.ofCrossing, resolve]

theorem ofCrossingsReordered (keyed : t.Keyed) (reordered : t.Reordered u) (date : Day) (z : Zone) (crossings : List Crossing) :
    ofCrossings date z u crossings = ofCrossings date z t crossings := by
  rw [ofCrossings, ofCrossings, (Lookup.ofTablesAgrees keyed reordered).ofCrossing]

end TmObservation

namespace ServiceDate

theorem reconcileReordered (zones : String → Option Zone) (date : Day) (i : Inputs) (zoneName : String) (tolerance : Int)
    (gtfs : Gtfs.Tables) (tm : Tm.Tables) (gtfsKeyed : i.gtfs.Keyed) (tmKeyed : i.tm.Keyed)
    (gtfsReordered : i.gtfs.Reordered gtfs) (tmReordered : i.tm.Reordered tm) :
    reconcileIn zones date { i with gtfs, tm } zoneName tolerance = reconcileIn zones date i zoneName tolerance := by
  have scheduled (z : Zone) : schedule date z { i with gtfs, tm } tolerance = schedule date z i tolerance := by
    unfold schedule
    rw [PlannedStop.ofTablesReordered gtfsKeyed gtfsReordered, PulloutStop.ofTablesReordered tmKeyed tmReordered]
  have observations (offsets : PlannedStop.Offsets) : gtfsObservations date { i with gtfs, tm } offsets =
      gtfsObservations date i offsets := by
    unfold gtfsObservations
    rw [GtfsObservation.ofPingsSame (Gtfs.busRoutesReordered gtfsReordered.routes)]
  have crossings (z : Zone) : TmObservation.ofCrossings date z tm i.crossings =
      TmObservation.ofCrossings date z i.tm i.crossings :=
    TmObservation.ofCrossingsReordered tmKeyed tmReordered date z i.crossings
  unfold reconcileIn
  simp only [scheduled, observations, crossings]

/- Two trips, one with a pullout, and every table with its rows turned round. -/
section TurnedRound

def exported : Inputs where
  gtfs := {
    trips := ["1", "2"].map fun tripId => { routeId := "r", serviceId := "s", tripId }
    routes := [{ routeId := "r", routeType := 3 }, { routeId := "q" }]
    stops := ["a", "b"].map fun stopId => { stopId }
    exceptions := [("s", 1), ("w", 2)].map fun (serviceId, kind) => { serviceId, date := "19700101", kind }
    stopTimes := [("1", "a", 1, "00:00:00"), ("1", "b", 2, "00:01:00"), ("2", "a", 1, "00:02:00")].map
      fun (tripId, stopId, sequence, time) => { tripId, stopId, sequence, departure := some time } }
  tm := {
    nodes := [(1, "a"), (2, "b")].map fun (nodeId, abbreviation) => { nodeId, abbreviation }
    trips := [{ tripId := 4, serial := 1, patternId := 5 }]
    patternNodes := [1, 2].map fun n => { patternId := 5, sequence := n, nodeId := n }
    passings := [(1, 0), (2, 60)].map fun (sequence, seconds) =>
      { pulloutId := 7, tripId := 4, sequence, scheduled := some seconds } }
  pings := [("a", 1), ("b", 2)].map fun (stop, sequence) =>
    { vehicleLabel := some "9", tripId := some "1", routeId := some "r", stopId := some stop, stopSequence := some sequence,
      timestamp := 60 * sequence }

def turnedGtfs : Gtfs.Tables where
  trips := exported.gtfs.trips.reverse
  routes := exported.gtfs.routes.reverse
  stops := exported.gtfs.stops.reverse
  exceptions := exported.gtfs.exceptions.reverse
  stopTimes := exported.gtfs.stopTimes.reverse

def turnedTm : Tm.Tables where
  nodes := exported.tm.nodes.reverse
  trips := exported.tm.trips.reverse
  patternNodes := exported.tm.patternNodes.reverse
  passings := exported.tm.passings.reverse

theorem exportedServices : Gtfs.activeServices ⟨0⟩ exported.gtfs.weeks exported.gtfs.exceptions =
    ((∅ : TreeSet String).insert "s").erase "w" := by
  have day : Day.ofCompact? "19700101" = some ⟨0⟩ := by cbv
  simp [Gtfs.activeServices, Gtfs.Exception.apply, Gtfs.weeklyServices, exported, day]

theorem exportedEvaluated : ((reconcile ⟨0⟩ exported "UTC" 3600).map fun r =>
    r.records.map fun record => (record.row.stopId, record.row.gtfsSequence, record.row.tmSequence)).toOption =
    some [("a", some 1, some 1), ("b", some 2, some 2)] := by
  have universal : zoneIn Zone.named? "UTC" = .ok ⟨"UTC", 0, []⟩ := rfl
  unfold reconcile reconcileIn schedule PlannedStop.ofTables PlannedStop.Lookup.ofTables
  rw [universal, exportedServices]
  cbv

theorem exportedKeyed : exported.gtfs.Keyed ∧ exported.tm.Keyed := by
  have services : exported.gtfs.exceptions.Pairwise Gtfs.Exception.Apart := by simp [exported, Gtfs.Exception.Apart]
  have passings : exported.tm.passings.Pairwise (Tm.Passing.Apart (.ofTables exported.tm)) := by
    simp [exported, Tm.Passing.Apart]
  exact ⟨⟨by decide, by decide, by decide, by decide, services⟩,
    ⟨by decide, by decide, by decide, by decide, by decide, by decide, by decide, passings⟩⟩

theorem exportedTurned : exported.gtfs.Reordered turnedGtfs ∧ exported.tm.Reordered turnedTm := by
  have turned {ρ : Type} (rows : List ρ) : rows.Perm rows.reverse := (List.reverse_perm rows).symm
  exact ⟨⟨turned _, turned _, turned _, turned _, turned _, turned _, turned _, turned _⟩,
    ⟨turned _, turned _, turned _, turned _, turned _, turned _, turned _, turned _⟩⟩

theorem reconcileReorderedTurned : exported.gtfs.Keyed ∧ exported.tm.Keyed ∧ exported.gtfs.Reordered turnedGtfs ∧
    exported.tm.Reordered turnedTm ∧
      ∃ report, reconcile ⟨0⟩ { exported with gtfs := turnedGtfs, tm := turnedTm } "UTC" 3600 = .ok report ∧
        report.records.map (fun record => (record.row.stopId, record.row.gtfsSequence, record.row.tmSequence)) =
          [("a", some 1, some 1), ("b", some 2, some 2)] := by
  obtain ⟨gtfsKeyed, tmKeyed⟩ := exportedKeyed
  obtain ⟨gtfsTurned, tmTurned⟩ := exportedTurned
  have same := reconcileReordered Zone.named? ⟨0⟩ exported "UTC" 3600 turnedGtfs turnedTm gtfsKeyed tmKeyed gtfsTurned tmTurned
  have evaluated := exportedEvaluated
  cases ok : reconcile ⟨0⟩ exported "UTC" 3600 with
  | error e => rw [ok] at evaluated; cases evaluated
  | ok report =>
    rw [ok] at evaluated
    exact ⟨gtfsKeyed, tmKeyed, gtfsTurned, tmTurned, report, same.trans ok, Option.some.inj evaluated⟩

end TurnedRound

end ServiceDate

end TransitTimeline
