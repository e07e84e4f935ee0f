import Mathlib
import TransitTimeline.Observation.Tm
import TransitTimeline.Proofs.Firsts
import TransitTimeline.Proofs.Instant
import TransitTimeline.Proofs.Paired
import TransitTimeline.Proofs.ServiceTime

/-! What the crossings of a date come to. Crossings of different trips, vehicles or nodes may translate to one key; the key has
one observation, the first of the earliest. There is a result as long as no time of a crossing that is translated lies
beyond the calendar. -/
namespace TransitTimeline.TmObservation
open Std

/- The rows that a crossing names; where a table repeats an id, the last row counts. -/
structure Named (t : Tm.Tables) (c : Crossing) (node : Tm.GeoNode) (route : Tm.Route) (trip : Tm.Trip) (vehicle : Tm.Vehicle) :
    Prop where
  node : First (·.nodeId = c.nodeId) t.nodes.reverse node
  route : ∃ id ∈ c.routeId, First (·.routeId = id) t.routes.reverse route
  trip : First (·.tripId = c.tripId) t.trips.reverse trip
  vehicle : First (·.vehicleId = c.vehicleId) t.vehicles.reverse vehicle

structure Known (date : Day) (t : Tm.Tables) (c : Crossing) : Prop where
  ofDate : c.calendarId = date.dispatchId
  revenue : (Text.trimChars c.isRevenue.toList).map Char.toUpper = ['R']
  named : ∃ node route trip vehicle, Named t c node route trip vehicle

structure Translates (date : Day) (z : Zone) (t : Tm.Tables) (c : Crossing) (o : TmObservation) : Prop where
  known : Known date t c
  ids : ∃ node route trip vehicle, Named t c node route trip vehicle ∧ o.tripId = TripId.canonicalOf (toString trip.serial) ∧
    o.routeId = routeOfAbbreviation route.abbreviation ∧ o.stopId = node.abbreviation ∧ o.vehicleLabel = vehicle.propertyTag
  sequence : o.sequence = c.sequence
  pullout : o.pullout = c.pulloutId
  scheduled : timeOf date z c.scheduled = .ok o.scheduled
  arrival : timeOf date z c.arrival = .ok o.arrival
  departure : timeOf date z c.departure = .ok o.departure
  seen : o.firstSeen.isSome

def Fits (date : Day) (z : Zone) (c : Crossing) : Prop :=
  ∀ seconds, c.scheduled = some seconds ∨ c.arrival = some seconds ∨ c.departure = some seconds →
    ServiceTime.Reaches date seconds z

structure Translated (date : Day) (z : Zone) (t : Tm.Tables) (crossings : List Crossing) (observations : List TmObservation) :
    Prop where
  ascending : (observations.map key).Pairwise fun a b => compare a b = .lt
  keys : ∀ k, (∃ o ∈ observations, key o = k) ↔ ∃ c ∈ crossings, ∃ o, Translates date z t c o ∧ key o = k
  earliest : ∀ o ∈ observations, ∃ seen c, o.firstSeen = some seen ∧ Translates date z t c o ∧
    First (fun d => ∃ s, Translates date z t d s ∧ key s = key o ∧ s.firstSeen = some seen) crossings c ∧
    ∀ d ∈ crossings, ∀ s, Translates date z t d s → key s = key o → ∀ other ∈ s.firstSeen, seen ≤ other

section Crossing
variable {date : Day} {z : Zone} {t : Tm.Tables} {c : Crossing} {node : Tm.GeoNode} {route : Tm.Route} {trip : Tm.Trip}
  {vehicle : Tm.Vehicle}

theorem resolvedExactly :
    (Lookup.ofTables t).resolve c = some (node, route, trip, vehicle) ↔ Named t c node route trip vehicle := by
  simp only [Lookup.resolve, Lookup.ofTables, bind, Option.bind_eq_some_iff, Index.foundLast, pure, Option.some.injEq,
    Prod.mk.injEq]
  constructor
  · rintro ⟨_, own, id, given, _, onRoute, _, onTrip, _, byVehicle, rfl, rfl, rfl, rfl⟩
    exact ⟨own, ⟨id, given, onRoute⟩, onTrip, byVehicle⟩
  · intro named
    obtain ⟨id, given, onRoute⟩ := named.route
    exact ⟨node, named.node, id, given, route, onRoute, trip, named.trip, vehicle, named.vehicle, rfl, rfl, rfl, rfl⟩

theorem timeReturns {seconds : Option Int} :
    (∃ time, timeOf date z seconds = .ok time) ↔ ∀ s, seconds = some s → ServiceTime.Reaches date s z := by
  cases seconds with
  | none => simp [timeOf]
  | some s => simpa [timeOf] using ServiceTime.dispatchedReturns

theorem timeOnly (seconds : Option Int) : OnlyOutOfRange (timeOf date z seconds) := by
  cases seconds with
  | none => exact .ok none
  | some s => exact ServiceTime.dispatchedOnly date s z

theorem crossingUnknown (unknown : ¬Known date t c) : ofCrossing date z (.ofTables t) c = .ok none := by
  unfold ofCrossing
  split
  · rfl
  · rename_i usable
    simp only [isUsable, Bool.and_eq_true, decide_eq_true_eq, not_not] at usable
    cases resolved : (Lookup.ofTables t).resolve c with
    | none => rfl
    | some found =>
      obtain ⟨node, route, trip, vehicle⟩ := found
      exact absurd ⟨usable.1, usable.2, node, route, trip, vehicle, resolvedExactly.mp resolved⟩ unknown

def made (c : Crossing) (node : Tm.GeoNode) (route : Tm.Route) (trip : Tm.Trip) (vehicle : Tm.Vehicle)
    (scheduled arrival departure : Option Instant) : TmObservation where
  tripId := TripId.canonicalOf (toString trip.serial)
  routeId := routeOfAbbreviation route.abbreviation
  stopId := node.abbreviation
  sequence := c.sequence
  vehicleLabel := vehicle.propertyTag
  pullout := c.pulloutId
  scheduled
  arrival
  departure

theorem crossingKnown (known : Known date t c) (named : Named t c node route trip vehicle) :
    ofCrossing date z (.ofTables t) c = do
      let scheduled ← timeOf date z c.scheduled
      let arrival ← timeOf date z c.arrival
      let departure ← timeOf date z c.departure
      let o := made c node route trip vehicle scheduled arrival departure
      return if o.firstSeen.isSome then some o else none := by
  have usable : isUsable date c = true := by simp [isUsable, known.ofDate, known.revenue]
  rw [ofCrossing, resolvedExactly.mpr named, usable]
  rfl

theorem crossingReturns : (∃ o, ofCrossing date z (.ofTables t) c = .ok o) ↔ (Known date t c → Fits date z c) := by
  by_cases known : Known date t c
  · obtain ⟨node, route, trip, vehicle, named⟩ := known.named
    rw [crossingKnown known named]
    constructor
    · rintro ⟨o, ok⟩ -
      obtain ⟨scheduled, planned, ok⟩ := okBind ok
      obtain ⟨arrival, arrived, ok⟩ := okBind ok
      obtain ⟨departure, left, _⟩ := okBind ok
      rintro seconds (own | own | own)
      · exact timeReturns.mp ⟨_, planned⟩ seconds own
      · exact timeReturns.mp ⟨_, arrived⟩ seconds own
      · exact timeReturns.mp ⟨_, left⟩ seconds own
    · intro fits
      obtain ⟨scheduled, planned⟩ := timeReturns.mpr fun s own => fits known s (.inl own)
      obtain ⟨arrival, arrived⟩ := timeReturns.mpr fun s own => fits known s (.inr (.inl own))
      obtain ⟨departure, left⟩ := timeReturns.mpr fun s own => fits known s (.inr (.inr own))
      rw [planned, arrived, left]
      exact ⟨_, rfl⟩
  · simp [crossingUnknown known, known]

theorem crossingOnly (date : Day) (z : Zone) (t : Tm.Tables) (c : Crossing) :
    OnlyOutOfRange (ofCrossing date z (.ofTables t) c) := by
  by_cases known : Known date t c
  · obtain ⟨node, route, trip, vehicle, named⟩ := known.named
    rw [crossingKnown known named]
    apply (timeOnly _).bind
    intro scheduled
    apply (timeOnly _).bind
    intro arrival
    exact (timeOnly _).bind fun departure => .ok _
  · rw [crossingUnknown known]
    exact .ok none

theorem translatesExactly {o : TmObservation} :
    ofCrossing date z (.ofTables t) c = .ok (some o) ↔ Translates date z t c o := by
  constructor
  · intro ok
    by_cases known : Known date t c
    · obtain ⟨node, route, trip, vehicle, named⟩ := known.named
      rw [crossingKnown known named] at ok
      obtain ⟨scheduled, planned, ok⟩ := okBind ok
      obtain ⟨arrival, arrived, ok⟩ := okBind ok
      obtain ⟨departure, left, ok⟩ := okBind ok
      have shown := Except.ok.inj ok
      by_cases seen : (made c node route trip vehicle scheduled arrival departure).firstSeen.isSome
      · rw [if_pos seen] at shown
        cases shown
        exact ⟨known, ⟨node, route, trip, vehicle, named, rfl, rfl, rfl, rfl⟩, rfl, rfl, planned, arrived, left, seen⟩
      · rw [if_neg seen] at shown
        cases shown
    · rw [crossingUnknown known] at ok
      cases ok
  · intro translates
    obtain ⟨node, route, trip, vehicle, named, tripId, routeId, stopId, label⟩ := translates.ids
    have same : made c node route trip vehicle o.scheduled o.arrival o.departure = o := by
      rw [made, ← tripId, ← routeId, ← stopId, ← label, ← translates.sequence, ← translates.pullout]
    rw [crossingKnown translates.known named, translates.scheduled, translates.arrival, translates.departure]
    simp only [bind, Except.bind, pure, Except.pure, same, translates.seen, if_true]

end Crossing

section Crossings
variable {date : Day} {z : Zone} {t : Tm.Tables} {crossings : List Crossing} {rows : List TmObservation}
  {k : String × String × Int × String}

theorem memDistinct {o : TmObservation} :
    o ∈ distinct rows ↔ firstLeast (·.firstSeen) (rows.filter (key · = key o)) = some o := by
  constructor
  · intro member
    obtain ⟨⟨k, group⟩, listed, least⟩ := List.mem_filterMap.mp member
    obtain ⟨_, rfl⟩ := Groups.memToList.mp listed
    have own : key o = k := of_decide_eq_true (List.mem_filter.mp (firstLeastMem least)).2
    rw [own]
    exact least
  · intro least
    have member := List.mem_of_mem_filter (firstLeastMem least)
    exact List.mem_filterMap.mpr ⟨(key o, _), Groups.memToList.mpr ⟨⟨o, member, rfl⟩, rfl⟩, least⟩

theorem distinctKeys (rows : List TmObservation) : (distinct rows).map key = (Groups.ofRows key rows).keys := by
  rw [distinct, List.map_filterMap, ← TreeMap.map_fst_toList_eq_keys, ← List.filterMap_eq_map]
  apply List.filterMap_congr
  rintro ⟨k, group⟩ listed
  obtain ⟨⟨r, member, own⟩, rfl⟩ := Groups.memToList.mp listed
  have filled : rows.filter (key · = k) ≠ [] := List.ne_nil_of_mem (List.mem_filter.mpr ⟨member, decide_eq_true own⟩)
  obtain ⟨o, least⟩ := Option.isSome_iff_exists.mp (firstLeastIsSome (·.firstSeen) filled)
  have same : key o = k := of_decide_eq_true (List.mem_filter.mp (firstLeastMem least)).2
  simp [least, same]

def translation (date : Day) (z : Zone) (t : Tm.Tables) (c : Crossing) : Option TmObservation :=
  (ofCrossing date z (.ofTables t) c).toOption.join

theorem translationExactly {c : Crossing} {o : TmObservation} :
    translation date z t c = some o ↔ Translates date z t c o := by
  rw [← translatesExactly, translation]
  cases ofCrossing date z (.ofTables t) c <;> simp [Except.toOption]

theorem ofCrossingsTranslations {observations : List TmObservation} (ok : ofCrossings date z t crossings = .ok observations) :
    observations = distinct (crossings.filterMap (translation date z t)) := by
  obtain ⟨each, mapped, ok⟩ := okBind ok
  rw [← Except.ok.inj ok, mapMFilter mapped]
  rfl

theorem distinctTranslated (date : Day) (z : Zone) (t : Tm.Tables) (crossings : List Crossing) :
    Translated date z t crossings (distinct (crossings.filterMap (translation date z t))) where
  ascending := by
    rw [distinctKeys]
    exact TreeMap.ordered_keys
  keys := by
    intro k
    rw [← List.mem_map, distinctKeys, TreeMap.mem_keys, Groups.memKeys]
    constructor
    · rintro ⟨o, inside, own⟩
      obtain ⟨c, member, read⟩ := List.mem_filterMap.mp inside
      exact ⟨c, member, o, translationExactly.mp read, own⟩
    · rintro ⟨c, member, o, translates, own⟩
      exact ⟨o, List.mem_filterMap.mpr ⟨c, member, translationExactly.mpr translates⟩, own⟩
  earliest := by
    intro o member
    have least := memDistinct.mp member
    rw [List.filter_filterMap] at least
    have own {c : Crossing} {s : TmObservation} : (translation date z t c).filter (key · = key o) = some s ↔
        Translates date z t c s ∧ key s = key o := by
      simp [Option.filter_eq_some_iff, translationExactly]
    obtain ⟨⟨c, first, read⟩, all⟩ := firstLeastFrom least
    have translates := (own.mp read).1
    obtain ⟨seen, known⟩ := Option.isSome_iff_exists.mp translates.seen
    refine ⟨seen, c, known, translates, ?_, ?_⟩
    · apply first.imp
      intro d _
      simp only [own, known, and_assoc]
    · intro d inside s also same other shown
      have le := all d inside s (own.mpr ⟨also, same⟩)
      rw [known, Option.mem_def.mp shown] at le
      exact Instant.compareLe.mp le

theorem ofCrossingsReturns : (∃ observations, ofCrossings date z t crossings = .ok observations) ↔
    ∀ c ∈ crossings, Known date t c → Fits date z c := by
  rw [ofCrossings, pureReturns, mapMReturns]
  exact forall₂_congr fun _ _ => crossingReturns

theorem ofCrossingsOnly (date : Day) (z : Zone) (t : Tm.Tables) (crossings : List Crossing) :
    OnlyOutOfRange (ofCrossings date z t crossings) := by
  intro e failed
  obtain ⟨c, _, own⟩ := mapMFails (pureFails.mp failed)
  exact crossingOnly date z t c e own

theorem crossingsTranslated (date : Day) (z : Zone) (t : Tm.Tables) (crossings : List Crossing) :
    ((∀ c ∈ crossings, Known date t c → Fits date z c) →
      ∃ observations, ofCrossings date z t crossings = .ok observations ∧ Translated date z t crossings observations) ∧
    ((∃ c ∈ crossings, Known date t c ∧ ¬Fits date z c) → ofCrossings date z t crossings = .error .outOfRange) := by
  constructor
  · intro fits
    obtain ⟨observations, ok⟩ := ofCrossingsReturns.mpr fits
    rw [ok, ofCrossingsTranslations ok]
    exact ⟨_, rfl, distinctTranslated date z t crossings⟩
  · rintro ⟨c, member, known, beyond⟩
    cases result : ofCrossings date z t crossings with
    | ok observations => exact absurd (ofCrossingsReturns.mp ⟨observations, result⟩ c member known) beyond
    | error e => rw [ofCrossingsOnly date z t crossings e result]

section Twice

def twinTables : Tm.Tables where
  nodes := [{ nodeId := 1, abbreviation := "a" }]
  routes := [{ routeId := 1, abbreviation := "01" }]
  trips := [1, 2].map fun tripId => { tripId, serial := 5 }
  vehicles := [{ vehicleId := 1, propertyTag := "9" }]

def twin (tripId : Int) (scheduled arrival : Option Int) : Crossing :=
  { calendarId := 119700101, isRevenue := "R", routeId := some 1, nodeId := 1, tripId, vehicleId := 1, sequence := 2,
    scheduled, arrival }

def forwardZone : Zone := ⟨"", 0, [(7200, 3600)]⟩

def twinObserved : TmObservation :=
  { tripId := "5", routeId := "1", stopId := "a", sequence := 2, vehicleLabel := "9", arrival := some (.ofSeconds 7200) }

theorem twinsEvaluated : ofCrossings ⟨0⟩ forwardZone twinTables [twin 1 none (some 9000), twin 2 none (some 10800)] =
    .ok [twinObserved] := by
  cbv

/- Half past two is skipped and becomes half past three, so the crossing at three is the earlier one. -/
theorem crossingsTranslatedAcrossGap :
    let crossings := [twin 1 none (some 9000), twin 2 none (some 10800)]
    (∀ c ∈ crossings, Known ⟨0⟩ twinTables c → Fits ⟨0⟩ forwardZone c) ∧
      Translated ⟨0⟩ forwardZone twinTables crossings [twinObserved] := by
  intro crossings
  have fits := ofCrossingsReturns.mp ⟨_, twinsEvaluated⟩
  obtain ⟨observations, ok, translated⟩ := (crossingsTranslated ⟨0⟩ forwardZone twinTables crossings).1 fits
  obtain rfl := Except.ok.inj (ok.symm.trans twinsEvaluated)
  exact ⟨fits, translated⟩

/- A planned time beyond the calendar takes an arrival with it that the clock knows. -/
theorem crossingBeyondCalendar :
    let c := twin 1 (some 10000000000000) (some 10800)
    Known ⟨0⟩ twinTables c ∧ timeOf ⟨0⟩ forwardZone c.arrival = .ok (some (.ofSeconds 7200)) ∧
      ofCrossings ⟨0⟩ forwardZone twinTables [c] = .error .outOfRange := by
  intro c
  have resolved : (Lookup.ofTables twinTables).resolve c = some (⟨1, "a", none⟩, ⟨1, "01"⟩, ⟨1, 5, 0, none⟩, ⟨1, "9"⟩) := by cbv
  exact ⟨⟨by cbv, by cbv, _, _, _, _, resolvedExactly.mp resolved⟩, by cbv, by cbv⟩

end Twice

end Crossings

end TransitTimeline.TmObservation
