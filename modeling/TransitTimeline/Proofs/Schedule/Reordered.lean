import TransitTimeline.Proofs.Instant
import TransitTimeline.Proofs.Schedule.Services
import TransitTimeline.Proofs.Schedule.Splitting
import TransitTimeline.Proofs.ServiceTime
import TransitTimeline.Proofs.TripId
import TransitTimeline.Schedule.Pullout

/-! Schedules from tables whose rows come in another order. Where no key is repeated, the look-ups find the same rows, no two
stops tie when they are sorted, and what is read of either schedule stays the same. -/
namespace TransitTimeline
open Std

structure Gtfs.Tables.Reordered (t u : Gtfs.Tables) : Prop where
  trips : t.trips.Perm u.trips
  stopTimes : t.stopTimes.Perm u.stopTimes
  routes : t.routes.Perm u.routes
  directions : t.directions.Perm u.directions
  patterns : t.patterns.Perm u.patterns
  stops : t.stops.Perm u.stops
  weeks : t.weeks.Perm u.weeks
  exceptions : t.exceptions.Perm u.exceptions

structure Tm.Tables.Reordered (t u : Tm.Tables) : Prop where
  nodes : t.nodes.Perm u.nodes
  routes : t.routes.Perm u.routes
  trips : t.trips.Perm u.trips
  vehicles : t.vehicles.Perm u.vehicles
  patternNodes : t.patternNodes.Perm u.patternNodes
  timePoints : t.timePoints.Perm u.timePoints
  workPieces : t.workPieces.Perm u.workPieces
  passings : t.passings.Perm u.passings

structure Gtfs.Tables.Keyed (t : Gtfs.Tables) : Prop where
  trips : (t.trips.map (·.tripId)).Nodup
  stopTimes : (t.stopTimes.map fun st => (st.tripId, st.sequence)).Nodup
  directions : (t.directions.map fun d => (d.routeId, d.directionId)).Nodup
  stops : (t.stops.map (·.stopId)).Nodup
  exceptions : t.exceptions.Pairwise Gtfs.Exception.Apart

def Tm.Passing.Apart (l : PulloutStop.Lookup) (a b : Tm.Passing) : Prop :=
  ∀ x ∈ l.resolve a, ∀ y ∈ l.resolve b, (x.1.serial, a.pulloutId, a.sequence) ≠ (y.1.serial, b.pulloutId, b.sequence)

structure Tm.Tables.Keyed (t : Tm.Tables) : Prop where
  nodes : (t.nodes.map (·.nodeId)).Nodup
  routes : (t.routes.map (·.routeId)).Nodup
  trips : (t.trips.map (·.tripId)).Nodup
  vehicles : (t.vehicles.map (·.vehicleId)).Nodup
  patternNodes : (t.patternNodes.map fun p => (p.patternId, p.sequence)).Nodup
  timePoints : (t.timePoints.map (·.timePointId)).Nodup
  workPieces : (t.workPieces.map (·.pulloutId)).Nodup
  passings : t.passings.Pairwise (Tm.Passing.Apart (.ofTables t))

namespace PlannedStop
variable {date : Day} {z : Zone} {t u : Gtfs.Tables}

structure Lookup.Agrees (l m : Lookup) : Prop where
  trips : ∀ k, l.trips.find? k = m.trips.find? k
  directions : ∀ k, l.directions.find? k = m.directions.find? k
  stops : ∀ k, l.stops.find? k = m.stops.find? k

theorem Lookup.ofTablesAgrees (keyed : t.Keyed) (reordered : t.Reordered u) (date : Day) :
    (Lookup.ofTables date t).Agrees (.ofTables date u) where
  trips := by
    intro k
    have running : (fun trip : Gtfs.Trip => (Gtfs.activeServices date t.weeks t.exceptions).contains trip.serviceId &&
        (Gtfs.busRoutes t.routes).contains trip.routeId) = fun trip =>
          (Gtfs.activeServices date u.weeks u.exceptions).contains trip.serviceId &&
            (Gtfs.busRoutes u.routes).contains trip.routeId := by
      funext trip
      rw [Gtfs.activeServicesReordered reordered.weeks keyed.exceptions reordered.exceptions,
        Gtfs.busRoutesReordered reordered.routes]
    have distinct := keyed.trips.sublist ((List.filter_sublist (p := fun trip : Gtfs.Trip =>
      (Gtfs.activeServices date t.weeks t.exceptions).contains trip.serviceId &&
        (Gtfs.busRoutes t.routes).contains trip.routeId)).map (·.tripId))
    unfold Lookup.ofTables
    dsimp only
    rw [← running]
    exact Index.findReordered distinct (reordered.trips.filter _) k
  directions := Index.findReordered keyed.directions reordered.directions
  stops := Index.findReordered keyed.stops reordered.stops

theorem Lookup.Agrees.ofStopTime {l m : Lookup} (agrees : l.Agrees m) (date : Day) (z : Zone) :
    ofStopTime date z l = ofStopTime date z m := by
  funext st
  unfold PlannedStop.ofStopTime
  rw [agrees.trips]
  simp only [agrees.directions, agrees.stops]

theorem ofStopTimeOnly (date : Day) (z : Zone) (lookup : Lookup) (st : Gtfs.StopTime) :
    OnlyOutOfRange (ofStopTime date z lookup st) := by
  unfold ofStopTime
  split
  · exact .ok _
  · have time : OnlyOutOfRange (timeOf date z st) := by
      unfold timeOf
      split
      · exact ServiceTime.plannedOnly _ _ _
      · exact .ok _
    exact time.bind fun _ => .ok _

theorem inOrderReordered {rows others : List PlannedStop} (distinct : (rows.map fun r => (r.tripIdGtfs, r.sequence)).Nodup)
    (perm : rows.Perm others) : inOrder rows = inOrder others := by
  have departures : firstDeparture (Groups.ofRows (·.tripIdGtfs) rows) =
      firstDeparture (Groups.ofRows (·.tripIdGtfs) others) := by
    funext published
    rw [firstDeparture, firstDeparture, Groups.rowsOfKey, Groups.rowsOfKey]
    exact Instant.minReordered ((perm.filter _).filterMap _)
  unfold inOrder
  dsimp only
  rw [← departures]
  apply sortOnReordered _ perm
  apply List.Nodup.of_map fun (k : String × Option Instant × String × Int) => k.2.2
  rwa [List.map_map]

theorem madeDistinct (keyed : t.Keyed) {found : List (Option PlannedStop)}
    (made : t.stopTimes.mapM (ofStopTime date z (.ofTables date t)) = .ok found) :
    ((found.filterMap id).map fun r => (r.tripIdGtfs, r.sequence)).Nodup := by
  have apart := List.pairwise_map.mp keyed.stopTimes
  apply List.pairwise_map.mpr
  apply List.pairwise_filterMap.mpr
  apply pairedPairwise (pairedMapM made) apart
  intro a b _ _ madeA madeB different r own s other same
  cases own
  cases other
  rw [ofStopTimeTrip madeA, ofStopTimeTrip madeB, ofStopTimeSequence madeA, ofStopTimeSequence madeB] at same
  exact different same

theorem ofTablesReordered (keyed : t.Keyed) (reordered : t.Reordered u) (date : Day) (z : Zone) :
    ofTables date z u = ofTables date z t := by
  have same := mapMReordered reordered.stopTimes (g := fun found => inOrder (found.filterMap id))
    (fun st _ => ofStopTimeOnly date z (.ofTables date t) st) fun _ _ made perm =>
      inOrderReordered (madeDistinct keyed made) (perm.filterMap id)
  rw [ofTables, ofTables, ← (Lookup.ofTablesAgrees keyed reordered date).ofStopTime date z]
  exact same.symm

end PlannedStop

namespace PulloutStop
variable {date : Day} {z : Zone} {t u : Tm.Tables}

structure Lookup.Agrees (l m : Lookup) : Prop where
  trips : ∀ k, l.trips.find? k = m.trips.find? k
  nodes : ∀ k, l.nodes.find? k = m.nodes.find? k
  patternNodes : ∀ k, l.patternNodes.find? k = m.patternNodes.find? k
  timePoints : ∀ k, l.timePoints.find? k = m.timePoints.find? k
  workPieces : ∀ k, l.workPieces.find? k = m.workPieces.find? k

theorem Lookup.ofTablesAgrees (keyed : t.Keyed) (reordered : t.Reordered u) :
    (Lookup.ofTables t).Agrees (.ofTables u) where
  trips := Index.findReordered keyed.trips reordered.trips
  nodes := Index.findReordered keyed.nodes reordered.nodes
  patternNodes := Index.findReordered keyed.patternNodes reordered.patternNodes
  timePoints := Index.findReordered keyed.timePoints reordered.timePoints
  workPieces := Index.findReordered keyed.workPieces reordered.workPieces

theorem Lookup.Agrees.resolve {l m : Lookup} (agrees : l.Agrees m) (p : Tm.Passing) : l.resolve p = m.resolve p := by
  unfold Lookup.resolve
  simp only [agrees.trips, agrees.patternNodes, agrees.nodes]

theorem Lookup.Agrees.ofPassing {l m : Lookup} (agrees : l.Agrees m) (date : Day) (z : Zone) :
    ofPassing date z l = ofPassing date z m := by
  have points : l.timePoints.find? = m.timePoints.find? := funext agrees.timePoints
  funext p
  unfold PulloutStop.ofPassing
  rw [agrees.resolve, points, agrees.workPieces]

theorem ofPassingOnly (date : Day) (z : Zone) (l : Lookup) (p : Tm.Passing) : OnlyOutOfRange (ofPassing date z l p) := by
  unfold ofPassing
  split
  · exact .ok _
  · have time : OnlyOutOfRange (timeOf date z p.scheduled) := by
      unfold timeOf
      split
      · exact ServiceTime.dispatchedOnly _ _ _
      · exact .ok _
    exact time.bind fun _ => .ok _

theorem ofPassingKey {l : Lookup} {p : Tm.Passing} {r : PulloutStop} (made : ofPassing date z l p = .ok (some r)) :
    ∃ x ∈ l.resolve p, r.key = (TripId.canonicalOf (toString x.1.serial), p.pulloutId, p.sequence) := by
  unfold ofPassing at made
  split at made
  · cases made
  · rename_i trip position node found
    obtain ⟨departure, _, made⟩ := okBind made
    refine ⟨_, found, ?_⟩
    rw [← Option.some.inj (Except.ok.inj made)]
    rfl

theorem madeDistinct (keyed : t.Keyed) {found : List (Option PulloutStop)}
    (made : t.passings.mapM (ofPassing date z (.ofTables t)) = .ok found) : ((found.filterMap id).map key).Nodup := by
  apply List.pairwise_map.mpr
  apply List.pairwise_filterMap.mpr
  apply pairedPairwise (pairedMapM made) keyed.passings
  intro a b _ _ madeA madeB apart r own s other same
  cases own
  cases other
  obtain ⟨x, known, keyA⟩ := ofPassingKey madeA
  obtain ⟨y, also, keyB⟩ := ofPassingKey madeB
  rw [keyA, keyB] at same
  obtain ⟨serials, rest⟩ := Prod.mk.inj same
  exact apart x known y also (Prod.ext (TripId.canonicalOfNumberInjective serials) rest)

theorem inOrderReordered {rows others : List PulloutStop} (distinct : (rows.map key).Nodup) (perm : rows.Perm others) :
    inOrder rows = inOrder others := by
  rw [inOrder, inOrder, sortOnReordered distinct perm]

theorem ofTablesReordered (keyed : t.Keyed) (reordered : t.Reordered u) (date : Day) (z : Zone) :
    ofTables date z u = ofTables date z t := by
  have same := mapMReordered reordered.passings (g := fun found => inOrder (found.filterMap id))
    (fun p _ => ofPassingOnly date z (.ofTables t) p) fun _ _ made perm =>
      inOrderReordered (madeDistinct keyed made) (perm.filterMap id)
  rw [ofTables, ofTables, ← (Lookup.ofTablesAgrees keyed reordered).ofPassing date z]
  exact same.symm

end PulloutStop

end TransitTimeline
