import TransitTimeline.Observation.Gtfs
import TransitTimeline.Proofs.Firsts
import TransitTimeline.Proofs.Instant

/-! What the pings of one stop come to. Each key of the usable pings has one observation, with the earliest time of either
status, the position of the ping that was first under way, and the vehicle and the route that are named first. -/
namespace TransitTimeline
open Std

structure UsablePing.Source (date : Day) (busRoutes : TreeSet String) (p : Ping) (r : UsablePing) : Prop where
  original : r.ping = p
  route : ∃ id ∈ p.routeId, id ∈ busRoutes
  dated : ∀ s ∈ p.startDate, Text.trimChars s.toList = [] ∨ Day.ofCompact? s = some date
  trip : p.tripId = some r.tripIdGtfs
  direction : p.directionId = r.directionId
  stop : p.stopId = some r.stopId
  sequence : p.stopSequence = some r.sequence
  vehicle : p.vehicleLabel.or p.vehicleId = some r.vehicleLabel
  status : StopStatus.ofText? p.status = some r.status
  time : ServiceTime.reported? p.timestamp = some r.time

namespace UsablePing
variable {date : Day} {busRoutes : TreeSet String} {p : Ping} {r : UsablePing}

theorem ofDateExactly : isOfDate date p = true ↔
    ∀ s ∈ p.startDate, Text.trimChars s.toList = [] ∨ Day.ofCompact? s = some date := by
  unfold isOfDate
  cases p.startDate <;> simp

theorem readExactly : ofPing? date busRoutes p = some r ↔ Source date busRoutes p r := by
  constructor
  · intro read
    simp only [ofPing?, bind, Option.bind_eq_some_iff] at read
    obtain ⟨route, named, read⟩ := read
    split at read <;> try contradiction
    rename_i bus
    split at read <;> try contradiction
    rename_i dated
    simp only [pure, Option.bind_eq_some_iff] at read
    obtain ⟨trip, onTrip, stop, atStop, sequence, numbered, label, labelled, status, said, time, reported, last⟩ := read
    cases last
    refine ⟨rfl, ⟨route, named, ?_⟩, ofDateExactly.mp (by simpa using dated), onTrip, rfl, atStop, numbered, labelled, said,
      reported⟩
    rw [← TreeSet.contains_iff_mem]
    simpa using bus
  · rintro ⟨rfl, ⟨route, named, bus⟩, dated, onTrip, direction, atStop, numbered, labelled, said, reported⟩
    have own := ofDateExactly.mpr dated
    simp [ofPing?, Option.mem_def.mp named, bus, own, onTrip, direction, atStop, numbered, labelled, said, reported]

end UsablePing

namespace GtfsObservation

def key (o : GtfsObservation) : UsablePing.Key := (o.tripIdGtfs, o.directionId, o.stopId, o.sequence, o.vehicleLabel)

def Names (date : Day) (busRoutes : TreeSet String) (k : UsablePing.Key) (p : Ping) : Prop :=
  ∃ r, UsablePing.Source date busRoutes p r ∧
    (r.tripIdGtfs, r.directionId, r.stopId, r.sequence, r.vehicleLabel) = k

def Reports (date : Day) (busRoutes : TreeSet String) (k : UsablePing.Key) (status : StopStatus) (p : Ping) (t : Instant) : Prop :=
  ∃ r, UsablePing.Source date busRoutes p r ∧
    (r.tripIdGtfs, r.directionId, r.stopId, r.sequence, r.vehicleLabel) = k ∧ r.status = status ∧ r.time = t

structure Gathers (date : Day) (busRoutes : TreeSet String) (pings : List Ping) (o : GtfsObservation) : Prop where
  canonical : o.tripId = TripId.canonicalOf o.tripIdGtfs
  travelTo : Least (fun t => ∃ p ∈ pings, Reports date busRoutes o.key .inTransit p t) o.travelTo
  arrival : Least (fun t => ∃ p ∈ pings, Reports date busRoutes o.key .stopped p t) o.arrival
  seen : o.travelTo.isSome ∨ o.arrival.isSome
  placed : ∀ t ∈ o.travelTo, ∃ p, First (fun p => Reports date busRoutes o.key .inTransit p t) pings p ∧
    o.latitude = p.latitude ∧ o.longitude = p.longitude
  unplaced : o.travelTo = none → o.latitude = none ∧ o.longitude = none
  vehicle : FirstPresent (Names date busRoutes o.key) (·.vehicleId) pings o.vehicleId
  route : FirstPresent (Names date busRoutes o.key) (·.routeId) pings o.routeId

structure Gathered (date : Day) (busRoutes : TreeSet String) (pings : List Ping) (observations : List GtfsObservation) : Prop where
  ascending : (observations.map key).Pairwise fun a b => compare a b = .lt
  keys : ∀ k, (∃ o ∈ observations, o.key = k) ↔ ∃ p ∈ pings, Names date busRoutes k p
  gathers : ∀ o ∈ observations, Gathers date busRoutes pings o

section Group
variable {date : Day} {busRoutes : TreeSet String} {pings : List Ping} {k : UsablePing.Key} {status : StopStatus}

def ofKey (date : Day) (busRoutes : TreeSet String) (k : UsablePing.Key) (p : Ping) : Option UsablePing :=
  (UsablePing.ofPing? date busRoutes p).filter (·.key = k)

theorem ofKeyExactly {p : Ping} {r : UsablePing} :
    ofKey date busRoutes k p = some r ↔ UsablePing.Source date busRoutes p r ∧ r.key = k := by
  simp [ofKey, Option.filter_eq_some_iff, UsablePing.readExactly]

def ofStatus (date : Day) (busRoutes : TreeSet String) (k : UsablePing.Key) (status : StopStatus) (p : Ping) : Option UsablePing :=
  (ofKey date busRoutes k p).filter (·.status = status)

theorem ofStatusExactly {p : Ping} {r : UsablePing} : ofStatus date busRoutes k status p = some r ↔
    UsablePing.Source date busRoutes p r ∧ r.key = k ∧ r.status = status := by
  simp [ofStatus, Option.filter_eq_some_iff, ofKeyExactly, and_assoc]

theorem reportsExactly {p : Ping} {t : Instant} : Reports date busRoutes k status p t ↔
    ∃ r, ofStatus date busRoutes k status p = some r ∧ r.time = t := by
  simp only [Reports, ofStatusExactly, and_assoc, UsablePing.key]

def group (date : Day) (busRoutes : TreeSet String) (pings : List Ping) (k : UsablePing.Key) : List UsablePing :=
  (pings.filterMap (UsablePing.ofPing? date busRoutes)).filter (·.key = k)

theorem groupOfKey : group date busRoutes pings k = pings.filterMap (ofKey date busRoutes k) := by
  rw [group, List.filter_filterMap]
  rfl

theorem earliestOfStatus : earliest status (group date busRoutes pings k) =
    firstLeast (·.time) (pings.filterMap (ofStatus date busRoutes k status)) := by
  rw [earliest, groupOfKey, List.filter_filterMap]
  rfl

theorem earliestLeast (date : Day) (busRoutes : TreeSet String) (pings : List Ping) (k : UsablePing.Key) (status : StopStatus) :
    Least (fun t => ∃ p ∈ pings, Reports date busRoutes k status p t)
      ((earliest status (group date busRoutes pings k)).map (·.time)) := by
  rw [earliestOfStatus]
  cases found : firstLeast (·.time) (pings.filterMap (ofStatus date busRoutes k status)) with
  | none =>
    apply Least.absent
    rintro t ⟨p, member, reports⟩
    obtain ⟨r, read, _⟩ := reportsExactly.mp reports
    have filled := firstLeastIsSome (·.time) (List.ne_nil_of_mem (List.mem_filterMap.mpr ⟨p, member, read⟩))
    simp [found] at filled
  | some r =>
    obtain ⟨⟨p, first, read⟩, least⟩ := firstLeastFrom found
    apply Least.present
    · exact ⟨p, first.mem.1, reportsExactly.mpr ⟨r, read, rfl⟩⟩
    · rintro t ⟨q, member, reports⟩
      obtain ⟨s, read, rfl⟩ := reportsExactly.mp reports
      exact Instant.compareLe.mp (least q member s read)

theorem earliestFirst {r : UsablePing} (found : earliest status (group date busRoutes pings k) = some r) :
    First (fun p => Reports date busRoutes k status p r.time) pings r.ping := by
  rw [earliestOfStatus] at found
  obtain ⟨⟨p, first, read⟩, _⟩ := firstLeastFrom found
  obtain ⟨source, _⟩ := ofStatusExactly.mp read
  rw [source.original]
  exact first.imp fun q _ => reportsExactly.symm

theorem firstNamed {α : Type} (value : Ping → Option α) : FirstPresent (Names date busRoutes k) value pings
    ((group date busRoutes pings k).findSome? fun r => value r.ping) := by
  rw [groupOfKey]
  apply firstPresentOf
  · intro p
    simp only [ofKeyExactly]
    rfl
  · intro p r read
    rw [(ofKeyExactly.mp read).1.original]

theorem statusSeen (filled : group date busRoutes pings k ≠ []) :
    (earliest .inTransit (group date busRoutes pings k)).isSome ∨ (earliest .stopped (group date busRoutes pings k)).isSome := by
  obtain ⟨r, member⟩ := List.exists_mem_of_ne_nil _ filled
  have seen {status : StopStatus} (own : r.status = status) : (earliest status (group date busRoutes pings k)).isSome :=
    firstLeastIsSome _ (List.ne_nil_of_mem (List.mem_filter.mpr ⟨member, decide_eq_true own⟩))
  cases own : r.status with
  | inTransit => exact .inl (seen own)
  | stopped => exact .inr (seen own)

theorem groupGathers (filled : group date busRoutes pings k ≠ []) :
    Gathers date busRoutes pings (ofGroup k (group date busRoutes pings k)) where
  canonical := rfl
  travelTo := earliestLeast date busRoutes pings k .inTransit
  arrival := earliestLeast date busRoutes pings k .stopped
  seen := by simpa [ofGroup] using statusSeen filled
  placed := by
    intro t known
    obtain ⟨r, found, rfl⟩ := Option.map_eq_some_iff.mp known
    refine ⟨r.ping, earliestFirst found, ?_, ?_⟩ <;> simp [ofGroup, found]
  unplaced := by
    intro unknown
    have none := Option.map_eq_none_iff.mp unknown
    simp [ofGroup, none]
  vehicle := firstNamed (·.vehicleId)
  route := firstNamed (·.routeId)

end Group

section Pings
variable {date : Day} {busRoutes : TreeSet String} {pings : List Ping}

theorem groupFilled {k : UsablePing.Key} : group date busRoutes pings k ≠ [] ↔ ∃ p ∈ pings, Names date busRoutes k p := by
  rw [groupOfKey, Ne, List.filterMap_eq_nil_iff]
  push Not
  refine exists_congr fun p => and_congr_right fun _ => ?_
  rw [Option.ne_none_iff_exists']
  simp only [ofKeyExactly]
  rfl

theorem memOfPings {o : GtfsObservation} : o ∈ ofPings date busRoutes pings ↔
    ∃ k, (∃ p ∈ pings, Names date busRoutes k p) ∧ o = ofGroup k (group date busRoutes pings k) := by
  simp only [← groupFilled]
  constructor
  · intro member
    obtain ⟨⟨k, rows⟩, listed, rfl⟩ := List.mem_map.mp member
    obtain ⟨⟨r, inside, own⟩, rfl⟩ := Groups.memToList.mp listed
    exact ⟨k, List.ne_nil_of_mem (List.mem_filter.mpr ⟨inside, decide_eq_true own⟩), rfl⟩
  · rintro ⟨k, filled, rfl⟩
    obtain ⟨r, own⟩ := List.exists_mem_of_ne_nil _ filled
    obtain ⟨inside, own⟩ := List.mem_filter.mp own
    exact List.mem_map.mpr ⟨(k, _), Groups.memToList.mpr ⟨⟨r, inside, of_decide_eq_true own⟩, rfl⟩, rfl⟩

theorem ofPingsKeys (date : Day) (busRoutes : TreeSet String) (pings : List Ping) :
    (ofPings date busRoutes pings).map key =
      (Groups.ofRows UsablePing.key (pings.filterMap (UsablePing.ofPing? date busRoutes))).keys := by
  rw [ofPings, List.map_map, ← TreeMap.map_fst_toList_eq_keys]
  rfl

theorem ofPingsGathered (date : Day) (busRoutes : TreeSet String) (pings : List Ping) :
    Gathered date busRoutes pings (ofPings date busRoutes pings) where
  ascending := by
    rw [ofPingsKeys]
    exact TreeMap.ordered_keys
  keys := by
    intro k
    constructor
    · rintro ⟨o, member, rfl⟩
      obtain ⟨k, named, rfl⟩ := memOfPings.mp member
      exact named
    · intro named
      exact ⟨_, memOfPings.mpr ⟨k, named, rfl⟩, rfl⟩
  gathers := by
    intro o member
    obtain ⟨k, named, rfl⟩ := memOfPings.mp member
    exact groupGathers (groupFilled.mpr named)

def times (o : GtfsObservation) : UsablePing.Key × Option Instant × Option Instant := (o.key, o.travelTo, o.arrival)

theorem earliestReordered {rows others : List UsablePing} (perm : rows.Perm others) (status : StopStatus) :
    (earliest status rows).map (·.time) = (earliest status others).map (·.time) :=
  leastReordered (perm.filter _)

theorem timesReordered {others : List Ping} (perm : pings.Perm others) :
    (ofPings date busRoutes others).map times = (ofPings date busRoutes pings).map times := by
  have usable := perm.symm.filterMap (UsablePing.ofPing? date busRoutes)
  rw [ofPings, ofPings, List.map_map, List.map_map]
  apply Groups.mapSame
  · intro k
    simp only [usable.mem_iff]
  · intro k
    have own := usable.filter (·.key = k)
    have travelTo := earliestReordered own .inTransit
    have arrival := earliestReordered own .stopped
    exact Prod.ext rfl (Prod.ext travelTo arrival)

theorem pingsGathered (date : Day) (busRoutes : TreeSet String) (pings : List Ping) :
    Gathered date busRoutes pings (ofPings date busRoutes pings) ∧
      ∀ others, pings.Perm others → (ofPings date busRoutes others).map times = (ofPings date busRoutes pings).map times :=
  ⟨ofPingsGathered date busRoutes pings, fun _ perm => timesReordered perm⟩

end Pings

end GtfsObservation

end TransitTimeline
