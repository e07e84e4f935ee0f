import TransitTimeline.Proofs.Schedule.Apart
import TransitTimeline.Proofs.Schedule.Windows

/-! Pullouts that cannot be merged. The least of them by trip and pullout decides how merging fails; without any it succeeds,
and a wider tolerance leaves fewer of them. -/
namespace TransitTimeline.Skeleton
open Std

section Pullout
variable {planned : List PlannedStop} {stops : List PulloutStop} {departs : Instant → Prop} {trip : String}
  {tolerance wider pullout : Int} {e : Failure}

inductive Refused (planned : List PlannedStop) (departs : Instant → Prop) (tolerance : Int) (trip : String)
    (pullout : Int) : Failure → Prop
  | timeless (none : ∀ d, ¬departs d) : Refused planned departs tolerance trip pullout (.emptyPullout trip pullout)
  | apart (w : Window) (around : w.Around tolerance departs) (outside : ∀ g ∈ planned, ¬w.Holds g) :
      Refused planned departs tolerance trip pullout (.noCandidates trip pullout w.start w.finish)

def InReach (tolerance : Int) (departs : Instant → Prop) : Prop :=
  ∀ w : Window, w.Around tolerance departs → w.start.InRange ∧ w.finish.InRange

theorem anyHolds {w : Window} : (Visit.ofStops planned).any w.holds ↔ ∃ g ∈ planned, w.Holds g := by
  rw [List.any_eq_true]
  constructor
  · intro found
    obtain ⟨v, member, holds⟩ := found
    exact ⟨v.stop, List.mem_of_getElem? (Visit.memOfStops.mp member), Window.holdsExactly.mp holds⟩
  · intro found
    obtain ⟨g, member, inside⟩ := found
    obtain ⟨i, known⟩ := List.mem_iff_getElem?.mp member
    exact ⟨⟨g, i⟩, Visit.memOfStops.mpr known, Window.holdsExactly.mpr inside⟩

theorem pulloutFails (reach : InReach tolerance (Departs stops)) :
    mergePullout tolerance trip pullout planned stops = .error e ↔
      Refused planned (Departs stops) tolerance trip pullout e := by
  unfold mergePullout
  constructor
  · intro failed
    by_cases timed : ∃ d, Departs stops d
    · obtain ⟨d, known⟩ := timed
      obtain ⟨w, around⟩ := Window.aroundDepartures tolerance known
      obtain ⟨start, finish⟩ := reach w around
      rw [Window.ofPulloutInRange trip pullout around start finish] at failed
      by_cases holds : (Visit.ofStops planned).any w.holds
      · simp only [bind, Except.bind, holds, not_true, if_false] at failed
        cases failed
      · simp only [bind, Except.bind, holds] at failed
        cases failed
        exact .apart w around fun g member inside => holds (anyHolds.mpr ⟨g, member, inside⟩)
    · have none : ∀ d, ¬Departs stops d := fun d known => timed ⟨d, known⟩
      rw [Window.ofPulloutTimeless tolerance trip pullout none] at failed
      cases failed
      exact .timeless none
  · intro refused
    cases refused with
    | timeless none =>
      rw [Window.ofPulloutTimeless tolerance trip pullout none]
      rfl
    | apart w around outside =>
      obtain ⟨start, finish⟩ := reach w around
      have holds : ¬(Visit.ofStops planned).any w.holds = true := by
        rw [anyHolds]
        intro found
        obtain ⟨g, member, inside⟩ := found
        exact outside g member inside
      rw [Window.ofPulloutInRange trip pullout around start finish]
      simp only [bind, Except.bind, holds]
      rfl

theorem Refused.narrower (refused : Refused planned departs wider trip pullout e) (le : tolerance ≤ wider) :
    ∃ f, Refused planned departs tolerance trip pullout f := by
  cases refused with
  | timeless none => exact ⟨_, .timeless none⟩
  | apart x outer outside =>
    obtain ⟨w, around⟩ := outer.other tolerance
    obtain ⟨start, finish⟩ := around.widens outer le
    refine ⟨_, .apart w around fun g member inside => outside g member ?_⟩
    obtain ⟨d, own, above, below⟩ := inside
    exact ⟨d, own, Instant.leTrans start above, Instant.leTrans below finish⟩

end Pullout

section Schedules
variable {planned : List PlannedStop} {stops : List PulloutStop} {tolerance wider : Int} {key : String × Int} {e : Failure}

def stopsOf (stops : List PulloutStop) (key : String × Int) : List PulloutStop :=
  stops.filter fun t => (t.tripId, t.pullout) = key

structure Named (planned : List PlannedStop) (stops : List PulloutStop) (key : String × Int) : Prop where
  trip : ∃ g ∈ planned, g.tripId = key.1
  pullout : ∃ t ∈ stops, (t.tripId, t.pullout) = key

structure Refuses (planned : List PlannedStop) (stops : List PulloutStop) (tolerance : Int) (key : String × Int)
    (e : Failure) : Prop where
  named : Named planned stops key
  refused : Refused (planned.filter (·.tripId = key.1)) (Departs (stopsOf stops key)) tolerance key.1 key.2 e

def Ranged (planned : List PlannedStop) (stops : List PulloutStop) (tolerance : Int) : Prop :=
  ∀ key, Named planned stops key → InReach tolerance (Departs (stopsOf stops key))

theorem namedListed : Named planned stops key ↔ (key.1, some key.2) ∈ partitionKeys planned stops := by
  obtain ⟨trip, pullout⟩ := key
  constructor
  · intro named
    obtain ⟨g, known, trips⟩ := named.trip
    obtain ⟨t, member, own⟩ := named.pullout
    cases own
    exact (keyListed member).mpr ⟨g, known, trips⟩
  · intro listed
    obtain ⟨t, member, trips, pullouts⟩ := keyNames listed
    have own : (t.tripId, t.pullout) = (trip, pullout) := Prod.ext trips pullouts
    cases own
    exact ⟨(keyListed member).mp listed, t, member, rfl⟩

theorem stopsOfNamed (stops : List PulloutStop) (key : String × Int) :
    (stops.filter (·.tripId = key.1)).filter (·.pullout = key.2) = stopsOf stops key := by
  rw [stopsOfKey]
  apply List.filter_congr
  intro t _
  simp [keyOf, Prod.ext_iff]

theorem keyFails (ranged : Ranged planned stops tolerance) (named : Named planned stops key) :
    mergeKey tolerance planned stops (key.1, some key.2) = .error e ↔ Refuses planned stops tolerance key e := by
  have reach := ranged key named
  rw [mergeKey, mergePart, stopsOfNamed]
  rw [← departsSorted (·.sequence)] at reach
  rw [pulloutFails reach, departsSorted]
  constructor
  · intro refused
    exact ⟨named, refused⟩
  · intro refuses
    exact refuses.refused

theorem tripFails (trip : String) (planned : List PlannedStop) (stops : List PulloutStop) :
    mergeTrip tolerance trip planned stops = .error e ↔
      (pulloutsOf stops).mapM (mergePart tolerance trip planned stops) = .error e := by
  unfold mergeTrip pulloutsOf
  split
  · simp [mergePart, pure, Except.pure, bind, Except.bind]
  · have same : ((Groups.ofRows (·.pullout) stops).toList.mapM fun group =>
        mergePullout tolerance trip group.1 planned (sortOn (·.sequence) group.2)) =
        ((Groups.ofRows (·.pullout) stops).toList.map fun group => some group.1).mapM
          (mergePart tolerance trip planned stops) := by
      rw [Groups.listed, List.map_map, List.mapM_map, List.mapM_map]
      rfl
    rw [← same]
    exact pureFails

theorem partitionTrips (planned : List PlannedStop) (stops : List PulloutStop) : partitionKeys planned stops =
    (plannedTrips planned).flatMap fun trip =>
      (pulloutsOf (stops.filter (·.tripId = trip))).map fun pullout => (trip, pullout) := by
  rw [partitionKeys, plannedTrips, ← TreeMap.map_fst_toList_eq_keys, List.flatMap_map]

theorem schedulesFail (planned : List PlannedStop) (stops : List PulloutStop) (tolerance : Int) (e : Failure) :
    merge planned stops tolerance = .error e ↔
      (partitionKeys planned stops).mapM (mergeKey tolerance planned stops) = .error e := by
  have across : (plannedTrips planned).mapM (mergeOwn tolerance planned stops) = .error e ↔
      (partitionKeys planned stops).mapM (mergeKey tolerance planned stops) = .error e := by
    rw [partitionTrips]
    apply mapMFailsAcross
    intro trip _ e
    rw [mergeOwn, tripFails, List.mapM_map]
    rfl
  rw [mergeByTrip, ← across]
  cases (plannedTrips planned).mapM (mergeOwn tolerance planned stops) <;> simp [Except.map]

theorem compareNamed (key other : String × Int) :
    compare (key.1, some key.2) (other.1, some other.2) = compare key other := rfl

theorem keyAloneReturns (trip : String) : ∃ part, mergeKey tolerance planned stops (trip, none) = .ok part := ⟨_, rfl⟩

/- A pullout behind the first that fails compares above it, and those before it do not fail. -/
theorem leastOfFirst {before after : List (String × Option Int)} {f : Failure} {other : String × Int}
    (ranged : Ranged planned stops tolerance) (shape : partitionKeys planned stops = before ++ (key.1, some key.2) :: after)
    (returns : ∀ earlier ∈ before, ∃ part, mergeKey tolerance planned stops earlier = .ok part)
    (refuses : Refuses planned stops tolerance other f) : (compare key other).isLE := by
  have ordered := keysOrdered planned stops
  have listed := namedListed.mp refuses.named
  rw [shape] at ordered listed
  rw [← compareNamed]
  rcases List.mem_append.mp listed with earlier | later
  · obtain ⟨part, ok⟩ := returns _ earlier
    cases ok.symm.trans ((keyFails ranged refuses.named).mpr refuses)
  · rcases List.mem_cons.mp later with same | later
    · rw [same]
      exact ReflCmp.isLE_rfl
    · obtain ⟨_, behind, _⟩ := List.pairwise_append.mp ordered
      rw [(List.pairwise_cons.mp behind).1 _ later]
      rfl

theorem firstOfLeast {before after : List (String × Option Int)} {earlier : String × Option Int}
    (ranged : Ranged planned stops tolerance) (shape : partitionKeys planned stops = before ++ (key.1, some key.2) :: after)
    (least : ∀ other f, Refuses planned stops tolerance other f → (compare key other).isLE) (member : earlier ∈ before) :
    ∃ part, mergeKey tolerance planned stops earlier = .ok part := by
  obtain ⟨trip, pullout⟩ := earlier
  cases pullout with
  | none => exact keyAloneReturns trip
  | some pullout =>
    cases failed : mergeKey tolerance planned stops (trip, some pullout) with
    | ok part => exact ⟨part, rfl⟩
    | error f =>
      have named : Named planned stops (trip, pullout) := by
        apply namedListed.mpr
        rw [shape]
        exact List.mem_append_left _ member
      have le := least (trip, pullout) f ((keyFails ranged named).mp failed)
      have ordered := keysOrdered planned stops
      rw [shape] at ordered
      have less : compare (trip, pullout) key = .lt :=
        (List.pairwise_append.mp ordered).2.2 _ member _ List.mem_cons_self
      have swap : compare key (trip, pullout) = (compare (trip, pullout) key).swap := OrientedCmp.eq_swap
      rw [swap, less] at le
      cases le

theorem refusedByLeast (ranged : Ranged planned stops tolerance) : merge planned stops tolerance = .error e ↔
    ∃ key, Refuses planned stops tolerance key e ∧
      ∀ other f, Refuses planned stops tolerance other f → (compare key other).isLE := by
  rw [schedulesFail, mapMFailsFirst]
  constructor
  · intro split
    obtain ⟨before, ⟨trip, pullout⟩, after, shape, returns, failed⟩ := split
    cases pullout with
    | none => cases failed
    | some pullout =>
      have named : Named planned stops (trip, pullout) := namedListed.mpr (by rw [shape]; simp)
      exact ⟨(trip, pullout), (keyFails ranged named).mp failed, fun _ _ => leastOfFirst ranged shape returns⟩
  · intro decides
    obtain ⟨key, refuses, least⟩ := decides
    obtain ⟨before, after, shape⟩ := List.append_of_mem (namedListed.mp refuses.named)
    exact ⟨before, _, after, shape, fun _ => firstOfLeast ranged shape least, (keyFails ranged refuses.named).mpr refuses⟩

theorem failsIfRefused (ranged : Ranged planned stops tolerance) : (∃ e, merge planned stops tolerance = .error e) ↔
    ∃ key e, Refuses planned stops tolerance key e := by
  constructor
  · intro fails
    obtain ⟨e, failed⟩ := fails
    obtain ⟨key, refuses, _⟩ := (refusedByLeast ranged).mp failed
    exact ⟨key, e, refuses⟩
  · intro refused
    obtain ⟨key, f, refuses⟩ := refused
    have listed := namedListed.mp refuses.named
    cases failed : merge planned stops tolerance with
    | error e => exact ⟨e, rfl⟩
    | ok m =>
      obtain ⟨parts, own, _⟩ := mergedParts failed
      obtain ⟨part, _, ok⟩ := pairedMem own.flip listed
      cases ok.symm.trans ((keyFails ranged refuses.named).mpr refuses)

theorem knownStopsOfTrip {trip : String} (known : trip ∈ plannedTrips planned) :
    (stops.filter (isKnown planned)).filter (·.tripId = trip) = stops.filter (·.tripId = trip) := by
  rw [List.filter_filter]
  apply List.filter_congr
  intro t _
  by_cases own : t.tripId = trip
  · have inside : isKnown planned t = true := by
      rw [← containsKnown, TreeMap.contains_iff_mem, ← TreeMap.mem_keys, own]
      exact known
    simp [own, inside]
  · simp [own]

theorem unknownNeverFails (planned : List PlannedStop) (stops : List PulloutStop) (tolerance : Int) (e : Failure) :
    merge planned stops tolerance = .error e ↔
      merge planned (stops.filter (isKnown planned)) tolerance = .error e := by
  have same : (plannedTrips planned).mapM (mergeOwn tolerance planned stops) =
      (plannedTrips planned).mapM (mergeOwn tolerance planned (stops.filter (isKnown planned))) := by
    apply mapMSame
    intro trip known
    rw [mergeOwn, mergeOwn, knownStopsOfTrip known]
  rw [mergeByTrip, mergeByTrip, same]
  cases (plannedTrips planned).mapM (mergeOwn tolerance planned (stops.filter (isKnown planned))) <;> simp [Except.map]

theorem Refuses.narrower (refuses : Refuses planned stops wider key e) (le : tolerance ≤ wider) :
    ∃ f, Refuses planned stops tolerance key f := by
  obtain ⟨f, refused⟩ := refuses.refused.narrower le
  exact ⟨f, refuses.named, refused⟩

theorem widerReturns (ranged : Ranged planned stops tolerance) (outer : Ranged planned stops wider) (le : tolerance ≤ wider)
    (ok : ∃ m, merge planned stops tolerance = .ok m) : ∃ m, merge planned stops wider = .ok m := by
  obtain ⟨m, ok⟩ := ok
  cases merged : merge planned stops wider with
  | ok other => exact ⟨other, rfl⟩
  | error e =>
    obtain ⟨key, f, refuses⟩ := (failsIfRefused outer).mp ⟨e, merged⟩
    obtain ⟨f, refuses⟩ := refuses.narrower le
    obtain ⟨f, failed⟩ := (failsIfRefused ranged).mpr ⟨key, f, refuses⟩
    cases ok.symm.trans failed

theorem mergingFails (planned : List PlannedStop) (stops : List PulloutStop) (tolerance : Int)
    (ranged : Ranged planned stops tolerance) :
    ((∃ e, merge planned stops tolerance = .error e) ↔ ∃ key e, Refuses planned stops tolerance key e) ∧
    (∀ e, merge planned stops tolerance = .error e ↔ ∃ key, Refuses planned stops tolerance key e ∧
      ∀ other f, Refuses planned stops tolerance other f → (compare key other).isLE) ∧
    (∀ e, merge planned stops tolerance = .error e ↔
      merge planned (stops.filter (isKnown planned)) tolerance = .error e) ∧
    ∀ wider, tolerance ≤ wider → Ranged planned stops wider → (∃ m, merge planned stops tolerance = .ok m) →
      ∃ m, merge planned stops wider = .ok m := by
  constructor
  · exact failsIfRefused ranged
  constructor
  · intro e
    exact refusedByLeast ranged
  constructor
  · exact unknownNeverFails planned stops tolerance
  · intro wider le outer ok
    exact widerReturns ranged outer le ok

/- Pullout 8 has no departure, and pullout 7 departs far from the planned trip; trip 0 is not planned. -/
theorem mergingFailsOfTwo :
    let g : PlannedStop := { tripId := "1", stopId := "a", sequence := 1, departure := some ⟨0⟩ }
    let stops : List PulloutStop := [("0", 5, none), ("1", 8, none), ("1", 7, some ⟨100000000000⟩)].map
      fun (tripId, pullout, departure) => { tripId, pullout, stopId := "a", sequence := 1, departure }
    Ranged [g] stops 10000000000 ∧ Refuses [g] stops 10000000000 ("1", 8) (.emptyPullout "1" 8) ∧
      merge [g] stops 10000000000 = .error (.noCandidates "1" 7 ⟨90000000000⟩ ⟨110000000000⟩) := by
  intro g stops
  have only : ∀ t ∈ stops, ∀ d, t.departure = some d → d = ⟨100000000000⟩ := by
    simp [stops]
  have ranged : Ranged [g] stops 10000000000 := by
    intro key _ w around
    obtain ⟨⟨first, ⟨t, member, departs⟩, _, start⟩, last, ⟨u, inside, leaves⟩, _, finish⟩ := around
    rw [only t (List.mem_of_mem_filter member) first departs] at start
    rw [only u (List.mem_of_mem_filter inside) last leaves] at finish
    rw [start, finish]
    decide
  have seven : Refuses [g] stops 10000000000 ("1", 7) (.noCandidates "1" 7 ⟨90000000000⟩ ⟨110000000000⟩) := by
    let t : PulloutStop := { tripId := "1", pullout := 7, stopId := "a", sequence := 1, departure := some ⟨100000000000⟩ }
    have departs : Departs (stopsOf stops ("1", 7)) ⟨100000000000⟩ := ⟨t, by decide, rfl⟩
    have alone : ∀ d, Departs (stopsOf stops ("1", 7)) d → d = ⟨100000000000⟩ := by
      intro d known
      obtain ⟨t, member, own⟩ := known
      exact only t (List.mem_of_mem_filter member) d own
    constructor
    · exact ⟨⟨g, by decide⟩, t, by decide⟩
    · apply Refused.apart ⟨⟨90000000000⟩, ⟨110000000000⟩⟩
      · exact ⟨⟨_, departs, fun d known => by rw [alone d known]; decide, rfl⟩,
          ⟨_, departs, fun d known => by rw [alone d known]; decide, rfl⟩⟩
      · intro h member inside
        obtain ⟨d, own, above, _⟩ := inside
        cases List.mem_singleton.mp member
        cases own
        exact absurd above (by decide)
  have eight : Refuses [g] stops 10000000000 ("1", 8) (.emptyPullout "1" 8) := by
    have timeless : ∀ t ∈ stopsOf stops ("1", 8), t.departure = none := by decide
    constructor
    · exact ⟨⟨g, by decide⟩, { tripId := "1", pullout := 8, stopId := "a", sequence := 1 }, by decide⟩
    · apply Refused.timeless
      intro d known
      obtain ⟨t, member, own⟩ := known
      cases (timeless t member).symm.trans own
  obtain ⟨_, decides, _⟩ := mergingFails [g] stops 10000000000 ranged
  refine ⟨ranged, eight, (decides _).mpr ⟨("1", 7), seven, ?_⟩⟩
  intro other f refuses
  obtain ⟨⟨p, planned, trip⟩, t, member, own⟩ := refuses.named
  have known : g.tripId = t.tripId := by
    cases List.mem_singleton.mp planned
    rw [trip, ← own]
  have least : ∀ t ∈ stops, g.tripId = t.tripId → (compare ("1", (7 : Int)) (t.tripId, t.pullout)).isLE := by
    decide
  rw [← own]
  exact least t member known

end Schedules

end TransitTimeline.Skeleton
