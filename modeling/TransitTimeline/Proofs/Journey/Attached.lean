import Mathlib
import TransitTimeline.Proofs.Journey.Join
import TransitTimeline.Proofs.Schedule.Finish

/-! What the events of the join carry. Every row is one of the schedule and shows observations of its own trip, vehicle
and stop; an observation goes to one place of its journey's skeleton, so no two rows show it. -/
namespace TransitTimeline.Journey
open Std

section Places
variable {skeleton : List SkeletonRow} {place : Nat}

theorem shownFrom {ο : Type} {firstSeen : ο → Option Instant} {place? : ο → Option Nat} {observations : List ο} {o : ο}
    (shown : shown? firstSeen (assign place? observations) place = some o) : o ∈ observations ∧ place? o = some place := by
  obtain ⟨⟨_, _⟩, inside, rfl⟩ := List.mem_map.mp (firstLeastMem shown)
  obtain ⟨known, here⟩ := List.mem_filter.mp inside
  obtain ⟨_, member, same⟩ := List.mem_map.mp known
  cases same
  exact ⟨member, by simpa using here⟩

theorem nearestStop {sequenceOf : SkeletonRow → Option Int} {stopId : String} {sequence : Int}
    (found : nearest? skeleton sequenceOf stopId sequence = some place) :
    ∃ r, skeleton[place]? = some r ∧ r.stopId = stopId := by
  obtain ⟨⟨r, _⟩, least, rfl⟩ := Option.map_eq_some_iff.mp found
  obtain ⟨known, own⟩ := List.mem_filter.mp (firstLeastMem least)
  exact ⟨r, List.mem_zipIdx_iff_getElem?.mp known, by simpa using own⟩

structure Stands (skeleton : List SkeletonRow) (j : Journey) (place : Nat) (a : Attached) : Prop where
  row : skeleton[place]? = some a.row
  gtfs : ∀ o ∈ a.gtfs, o ∈ j.gtfs ∧ gtfsPlace? skeleton o = some place
  tm : ∀ o ∈ a.tm, o ∈ j.tm ∧ tmPlace? skeleton o = some place
  seen : a.gtfs.isSome ∨ a.tm.isSome

theorem Stands.stops {j : Journey} {a : Attached} (stands : Stands skeleton j place a) :
    (∀ o ∈ a.gtfs, o.stopId = a.row.stopId) ∧ ∀ o ∈ a.tm, o.stopId = a.row.stopId := by
  constructor
  · intro o shown
    obtain ⟨r, known, own⟩ := nearestStop (stands.gtfs o shown).2
    cases known.symm.trans stands.row
    exact own.symm
  · intro o shown
    obtain ⟨r, known, own⟩ := nearestStop (stands.tm o shown).2
    cases known.symm.trans stands.row
    exact own.symm

def Apart (a b : StopEvent) : Prop := (∀ o ∈ a.gtfs, o ∉ b.gtfs) ∧ ∀ o ∈ a.tm, o ∉ b.tm

theorem Stands.apart {j : Journey} {a b : Attached} {p q : Nat} (first : Stands skeleton j p a) (second : Stands skeleton j q b)
    (different : p ≠ q) (date : Day) : Apart (eventOf date j a) (eventOf date j b) :=
  ⟨fun o left right => different (Option.some.inj ((first.gtfs o left).2.symm.trans (second.gtfs o right).2)),
    fun o left right => different (Option.some.inj ((first.tm o left).2.symm.trans (second.tm o right).2))⟩

def shownAt (skeleton : List SkeletonRow) (j : Journey) (row : SkeletonRow × Nat) : Attached :=
  ⟨row.1, shown? (·.firstSeen) (assign (gtfsPlace? skeleton) j.gtfs) row.2,
    shown? (·.firstSeen) (assign (tmPlace? skeleton) j.tm) row.2⟩

theorem shownStands {j : Journey} {row : SkeletonRow × Nat} (known : row ∈ skeleton.zipIdx)
    (seen : (shownAt skeleton j row).gtfs.isSome || (shownAt skeleton j row).tm.isSome) :
    Stands skeleton j row.2 (shownAt skeleton j row) :=
  ⟨List.mem_zipIdx_iff_getElem?.mp known, fun _ shown => shownFrom shown, fun _ shown => shownFrom shown, by simpa using seen⟩

theorem attachedStands (skeleton : List SkeletonRow) (j : Journey) :
    let rows := attached skeleton (assign (gtfsPlace? skeleton) j.gtfs) (assign (tmPlace? skeleton) j.tm)
    (∀ a ∈ rows, ∃ p, Stands skeleton j p a) ∧
      rows.Pairwise fun a b => ∃ p q, p < q ∧ Stands skeleton j p a ∧ Stands skeleton j q b := by
  have shape : attached skeleton (assign (gtfsPlace? skeleton) j.gtfs) (assign (tmPlace? skeleton) j.tm) =
    (skeleton.zipIdx.map (shownAt skeleton j)).filter fun a => a.gtfs.isSome || a.tm.isSome := rfl
  have places : skeleton.zipIdx.Pairwise fun a b => a.2 < b.2 := by
    refine List.pairwise_map.mp ?_
    rw [List.zipIdx_map_snd]
    exact List.pairwise_lt_range'
  intro rows
  unfold rows
  rw [shape]
  constructor
  · intro a member
    obtain ⟨inside, seen⟩ := List.mem_filter.mp member
    obtain ⟨row, known, rfl⟩ := List.mem_map.mp inside
    exact ⟨row.2, shownStands known seen⟩
  · refine List.pairwise_filter.mpr (List.pairwise_map.mpr (places.imp_of_mem ?_))
    intro a b first second less left right
    exact ⟨a.2, b.2, less, shownStands first left, shownStands second right⟩

end Places

structure Carries (j : Journey) (skeleton : List SkeletonRow) (e : StopEvent) : Prop where
  row : e.row ∈ skeleton
  seen : e.gtfs.isSome ∨ e.tm.isSome
  gtfs : ∀ o ∈ e.gtfs, o ∈ j.gtfs ∧ o.stopId = e.row.stopId
  tm : ∀ o ∈ e.tm, o ∈ j.tm ∧ o.stopId = e.row.stopId

section Events
variable (date : Day) (j : Journey) (skeleton : List SkeletonRow)

theorem keptSublist : (Skeleton.trim (fun a : Attached => Skeleton.isPlanned a.row) (attached skeleton
    (assign (gtfsPlace? skeleton) j.gtfs) (assign (tmPlace? skeleton) j.tm))).Sublist (attached skeleton
    (assign (gtfsPlace? skeleton) j.gtfs) (assign (tmPlace? skeleton) j.tm)) :=
  (Skeleton.trimSuffix _ _).sublist

theorem eventsCarry : ∀ e ∈ (eventsOn date skeleton j).events, Carries j skeleton e := by
  intro e member
  obtain ⟨a, kept, rfl⟩ := List.mem_map.mp member
  obtain ⟨place, stands⟩ := (attachedStands skeleton j).1 a ((keptSublist j skeleton).subset kept)
  exact ⟨List.mem_of_getElem? stands.row, stands.seen, fun o shown => ⟨(stands.gtfs o shown).1, stands.stops.1 o shown⟩,
    fun o shown => ⟨(stands.tm o shown).1, stands.stops.2 o shown⟩⟩

theorem eventsApart : (eventsOn date skeleton j).events.Pairwise Apart := by
  refine List.pairwise_map.mpr (((attachedStands skeleton j).2.sublist (keptSublist j skeleton)).imp ?_)
  rintro a b ⟨p, q, less, first, second⟩
  exact first.apart second (Nat.ne_of_lt less) date

theorem eventsStartPlanned (planned : ∃ e ∈ (eventsOn date skeleton j).events, e.row.gtfsSequence.isSome) :
    ∃ e ∈ (eventsOn date skeleton j).events.head?, e.row.gtfsSequence.isSome := by
  obtain ⟨e, member, own⟩ := planned
  obtain ⟨a, kept, rfl⟩ := List.mem_map.mp member
  obtain ⟨first, head, starts⟩ := Skeleton.trimHead (p := fun a : Attached => Skeleton.isPlanned a.row)
    ⟨a, (keptSublist j skeleton).subset kept, own⟩
  exact ⟨eventOf date j first, by rw [eventsOn, List.head?_map, head]; rfl, starts⟩

end Events

section Own
variable {date : Day} {schedule : List SkeletonRow} {gtfs : List GtfsObservation} {tm : List TmObservation}

theorem observationsOwn {j : Journey} (member : j ∈ ofObservations gtfs tm) :
    (∀ o, o ∈ j.gtfs ↔ o ∈ gtfs ∧ (o.tripId, o.vehicleLabel) = j.key) ∧
      ∀ o, o ∈ j.tm ↔ o ∈ tm ∧ (o.tripId, o.vehicleLabel) = j.key := by
  obtain ⟨k, _, rfl⟩ := List.mem_map.mp member
  simp only [Groups.rowsOfKey, key, List.mem_filter, decide_eq_true_eq]
  exact ⟨fun _ => trivial, fun _ => trivial⟩

theorem joinedAlong (date : Day) (schedule : List SkeletonRow) (gtfs : List GtfsObservation) (tm : List TmObservation)
    (key : String × String) :
    (join date schedule gtfs tm).events.filter (·.key = key) = [] ∨
      ∃ j ∈ ofObservations gtfs tm, j.key = key ∧ ∃ skeleton,
        skeleton? (pulloutsOf (schedule.filter (·.tripId = key.1))) j = some skeleton ∧
        (join date schedule gtfs tm).events.filter (·.key = key) = (eventsOn date skeleton j).events := by
  by_cases known : key ∈ (ofObservations gtfs tm).map Journey.key
  · obtain ⟨j, member, rfl⟩ := List.mem_map.mp known
    rw [joinedOfJourney date member, eventsAlong]
    cases chosen : skeleton? (pulloutsOf (schedule.filter (·.tripId = j.tripId))) j with
    | none => exact .inl rfl
    | some skeleton => exact .inr ⟨j, member, rfl, skeleton, chosen, rfl⟩
  · exact .inl ((joinSections date schedule gtfs tm).filterOther (sectionKeys date schedule gtfs tm) known)

theorem eventAlong {e : StopEvent} (member : e ∈ (join date schedule gtfs tm).events) :
    ∃ j ∈ ofObservations gtfs tm, j.key = e.key ∧ ∃ skeleton,
      skeleton? (pulloutsOf (schedule.filter (·.tripId = e.row.tripId))) j = some skeleton ∧
      e ∈ (eventsOn date skeleton j).events := by
  have own : e ∈ (join date schedule gtfs tm).events.filter (·.key = e.key) :=
    List.mem_filter.mpr ⟨member, by simp⟩
  rcases joinedAlong date schedule gtfs tm e.key with empty | ⟨j, known, same, skeleton, chosen, along⟩
  · rw [empty] at own
    cases own
  · rw [along] at own
    exact ⟨j, known, same, skeleton, chosen, own⟩

end Own

def Names (schedule : List SkeletonRow) (tm : List TmObservation) (key : String × String) (pullout : Int) : Prop :=
  ∃ o ∈ tm, (o.tripId, o.vehicleLabel) = key ∧ o.pullout = some pullout ∧
    ∃ r ∈ schedule, r.tripId = key.1 ∧ r.pullout = some pullout

def Placed (schedule : List SkeletonRow) : Prop :=
  schedule.Pairwise fun a b => (a.tripId, a.pullout) = (b.tripId, b.pullout) → a.position ≠ b.position

section Chosen
variable {schedule : List SkeletonRow} {trip : String} {j : Journey} {skeleton : List SkeletonRow}

theorem rowsOfListed {rows : List SkeletonRow} {pullout : Option Int} :
    (rowsOf? (pulloutsOf rows) pullout).isSome ↔ ∃ r ∈ rows, r.pullout = pullout := by
  rw [rowsOf?, Option.isSome_map, List.find?_isSome]
  constructor
  · rintro ⟨⟨p, group⟩, member, same⟩
    obtain ⟨known, _⟩ := memPulloutsOf.mp member
    rwa [show p = pullout by simpa using same] at known
  · intro known
    exact ⟨(pullout, _), memPulloutsOf.mpr ⟨known, rfl⟩, by simp⟩

theorem knownRows {pullout : Option Int} (known : (pullout, skeleton) ∈ pulloutsOf (schedule.filter (·.tripId = trip))) :
    ∀ r ∈ skeleton, r ∈ schedule ∧ r.tripId = trip ∧ r.pullout = pullout := by
  obtain ⟨_, rfl⟩ := memPulloutsOf.mp known
  intro r member
  obtain ⟨inside, own⟩ := List.mem_filter.mp (memSortOn.mp member)
  obtain ⟨scheduled, sameTrip⟩ := List.mem_filter.mp inside
  exact ⟨scheduled, by simpa using sameTrip, by simpa using own⟩

theorem knownAscends (placed : Placed schedule) {pullout : Option Int}
    (known : (pullout, skeleton) ∈ pulloutsOf (schedule.filter (·.tripId = trip))) :
    skeleton.Pairwise fun a b => a.position < b.position := by
  have rows := knownRows known
  obtain ⟨_, rfl⟩ := memPulloutsOf.mp known
  have sorted := sortOnSorted (·.position) ((schedule.filter (·.tripId = trip)).filter (·.pullout = pullout))
  have inner := placed.sublist ((List.filter_sublist (p := fun r => decide (r.pullout = pullout))).trans
    (List.filter_sublist (p := fun r => decide (r.tripId = trip))))
  have apart := ((sortOnPerm (·.position) _).pairwise_iff fun apart same => (apart same.symm).symm).mpr inner
  refine (sorted.and apart).imp_of_mem fun {a b} ha hb both => ?_
  obtain ⟨_, tripA, pulloutA⟩ := rows a ha
  obtain ⟨_, tripB, pulloutB⟩ := rows b hb
  have le : a.position ≤ b.position := Std.isLE_compare.mp both.1
  have different := both.2 (by rw [tripA, tripB, pulloutA, pulloutB])
  omega

theorem chosenNamed {pullout : Int} (named : ∃ o ∈ j.tm, o.pullout = some pullout)
    (runs : ∃ r ∈ schedule.filter (·.tripId = trip), r.pullout = some pullout)
    (only : ∀ o ∈ j.tm, ∀ other ∈ o.pullout, (∃ r ∈ schedule.filter (·.tripId = trip), r.pullout = some other) → other = pullout)
    (chosen : skeleton? (pulloutsOf (schedule.filter (·.tripId = trip))) j = some skeleton) :
    (some pullout, skeleton) ∈ pulloutsOf (schedule.filter (·.tripId = trip)) := by
  have listed := memPulloutsOf.mpr ⟨runs, rfl⟩
  have first : namedPullout? (pulloutsOf (schedule.filter (·.tripId = trip))) j = some pullout := by
    obtain ⟨o, member, own⟩ := named
    have filled : j.tm.filter (fun o => o.pullout.any fun p =>
        (rowsOf? (pulloutsOf (schedule.filter (·.tripId = trip))) (some p)).isSome) ≠ [] := by
      refine List.ne_nil_of_mem (List.mem_filter.mpr ⟨member, ?_⟩)
      rw [own]
      exact rowsOfListed.mpr runs
    obtain ⟨best, least⟩ := Option.isSome_iff_exists.mp
      (firstLeastIsSome (fun o : TmObservation => (o.firstSeen, o.sequence)) filled)
    obtain ⟨inside, names⟩ := List.mem_filter.mp (firstLeastMem least)
    cases known : best.pullout with
    | none => simp [known] at names
    | some other =>
      rw [known] at names
      rw [namedPullout?, least, Option.bind_some, known, only best inside other known (rowsOfListed.mp names)]
  unfold skeleton? at chosen
  split at chosen
  · cases chosen
  · rename_i p rows single
    cases chosen
    rw [single] at listed ⊢
    rw [← (Prod.mk.inj (List.mem_singleton.mp listed)).1]
    exact List.mem_singleton_self _
  · rw [first] at chosen
    exact rowsOfKnown chosen

end Chosen

structure Attaches (schedule : List SkeletonRow) (gtfs : List GtfsObservation) (tm : List TmObservation)
    (events : List StopEvent) : Prop where
  ordered : events.Pairwise fun a b =>
    compare (a.row.tripId, a.vehicleLabel, a.row.position) (b.row.tripId, b.vehicleLabel, b.row.position) = .lt
  scheduled : ∀ e ∈ events, e.row ∈ schedule
  onePullout : ∀ a ∈ events, ∀ b ∈ events, a.key = b.key → a.row.pullout = b.row.pullout
  seen : ∀ e ∈ events, e.gtfs.isSome ∨ e.tm.isSome
  gtfsOwn : ∀ e ∈ events, ∀ o ∈ e.gtfs, o ∈ gtfs ∧ (o.tripId, o.vehicleLabel) = e.key ∧ o.stopId = e.row.stopId
  tmOwn : ∀ e ∈ events, ∀ o ∈ e.tm, o ∈ tm ∧ (o.tripId, o.vehicleLabel) = e.key ∧ o.stopId = e.row.stopId
  once : events.Pairwise Apart
  startsPlanned : ∀ key, (∃ e ∈ events.filter (·.key = key), e.row.gtfsSequence.isSome) →
    ∃ e ∈ (events.filter (·.key = key)).head?, e.row.gtfsSequence.isSome
  named : ∀ e ∈ events, ∀ pullout, Names schedule tm e.key pullout →
    (∀ other, Names schedule tm e.key other → other = pullout) → e.row.pullout = some pullout

section Join
variable {date : Day} {schedule : List SkeletonRow} {gtfs : List GtfsObservation} {tm : List TmObservation}

theorem joinedCarries {e : StopEvent} (member : e ∈ (join date schedule gtfs tm).events) :
    (e.gtfs.isSome ∨ e.tm.isSome) ∧
      (∀ o ∈ e.gtfs, o ∈ gtfs ∧ (o.tripId, o.vehicleLabel) = e.key ∧ o.stopId = e.row.stopId) ∧
      ∀ o ∈ e.tm, o ∈ tm ∧ (o.tripId, o.vehicleLabel) = e.key ∧ o.stopId = e.row.stopId := by
  obtain ⟨j, known, same, skeleton, _, along⟩ := eventAlong member
  obtain ⟨gtfsOwn, tmOwn⟩ := observationsOwn known
  have carries := eventsCarry date j skeleton e along
  refine ⟨carries.seen, fun o shown => ?_, fun o shown => ?_⟩
  · obtain ⟨inside, stop⟩ := carries.gtfs o shown
    obtain ⟨input, key⟩ := (gtfsOwn o).mp inside
    exact ⟨input, key.trans same, stop⟩
  · obtain ⟨inside, stop⟩ := carries.tm o shown
    obtain ⟨input, key⟩ := (tmOwn o).mp inside
    exact ⟨input, key.trans same, stop⟩

theorem joinedRow {e : StopEvent} (member : e ∈ (join date schedule gtfs tm).events) :
    ∃ j ∈ ofObservations gtfs tm, j.key = e.key ∧ ∃ skeleton pullout,
      skeleton? (pulloutsOf (schedule.filter (·.tripId = e.row.tripId))) j = some skeleton ∧
      (pullout, skeleton) ∈ pulloutsOf (schedule.filter (·.tripId = e.row.tripId)) ∧ e.row ∈ skeleton := by
  obtain ⟨j, known, same, skeleton, chosen, along⟩ := eventAlong member
  obtain ⟨pullout, listed⟩ := skeletonKnown chosen
  exact ⟨j, known, same, skeleton, pullout, chosen, listed, (eventsCarry date j skeleton e along).row⟩

theorem joinedOrdered (placed : Placed schedule) : (join date schedule gtfs tm).events.Pairwise fun a b =>
    compare (a.row.tripId, a.vehicleLabel, a.row.position) (b.row.tripId, b.vehicleLabel, b.row.position) = .lt := by
  refine (joinSections date schedule gtfs tm).pairwise (sectionKeys date schedule gtfs tm) ?_ (keysOrdered gtfs tm)
    fun a b less => compareMore less a.row.position b.row.position
  rintro _ _ ⟨j, _, rfl, rfl⟩
  have keys := eventKeys date j schedule
  rw [eventsAlong] at keys ⊢
  cases chosen : skeleton? (pulloutsOf (schedule.filter (·.tripId = j.tripId))) j with
  | none => exact .nil
  | some skeleton =>
    rw [chosen] at keys
    obtain ⟨pullout, listed⟩ := skeletonKnown chosen
    have ascends := List.pairwise_map.mp ((knownAscends placed listed).sublist (eventRows date j skeleton))
    refine ascends.imp_of_mem fun {a b} ha hb less => ?_
    have same : (a.row.tripId, a.vehicleLabel) = (b.row.tripId, b.vehicleLabel) := (keys a ha).trans (keys b hb).symm
    obtain ⟨trip, label⟩ := Prod.mk.inj same
    rw [trip, label]
    simpa [comparePair] using Int.compare_eq_lt.mpr less

theorem joinedApart (date : Day) (schedule : List SkeletonRow) (gtfs : List GtfsObservation) (tm : List TmObservation) :
    (join date schedule gtfs tm).events.Pairwise Apart := by
  have inside : (join date schedule gtfs tm).events.Pairwise fun a b => a.key = b.key → Apart a b := by
    refine (joinSections date schedule gtfs tm).pairwise (sectionKeys date schedule gtfs tm) ?_ (keysOrdered gtfs tm)
      fun a b less same => by simp [same] at less
    rintro _ _ ⟨j, _, rfl, rfl⟩
    rw [eventsAlong]
    cases skeleton? (pulloutsOf (schedule.filter (·.tripId = j.tripId))) j with
    | none => exact .nil
    | some skeleton =>
      show (eventsOn date skeleton j).events.Pairwise fun a b => a.key = b.key → Apart a b
      exact (eventsApart date j skeleton).imp fun {a b} apart (_ : a.key = b.key) => apart
  refine inside.imp_of_mem fun {a b} ha hb apart => ⟨fun o left right => ?_, fun o left right => ?_⟩
  · have same : a.key = b.key := ((joinedCarries ha).2.1 o left).2.1.symm.trans ((joinedCarries hb).2.1 o right).2.1
    exact (apart same).1 o left right
  · have same : a.key = b.key := ((joinedCarries ha).2.2 o left).2.1.symm.trans ((joinedCarries hb).2.2 o right).2.1
    exact (apart same).2 o left right

theorem joinedOnePullout {a b : StopEvent} (ha : a ∈ (join date schedule gtfs tm).events)
    (hb : b ∈ (join date schedule gtfs tm).events) (same : a.key = b.key) : a.row.pullout = b.row.pullout := by
  obtain ⟨j, known, keyA, skeleton, pullout, chosen, listed, left⟩ := joinedRow ha
  obtain ⟨k, other, keyB, _, _, choice, _, right⟩ := joinedRow hb
  have journeys : j = k := List.inj_on_of_nodup_map (orderedDistinct (keysOrdered gtfs tm)) known other
    (keyA.trans (same.trans keyB.symm))
  rw [← journeys, ← (Prod.mk.inj same).1, chosen] at choice
  cases choice
  rw [(knownRows listed _ left).2.2, (knownRows listed _ right).2.2]

theorem joinedNamed {e : StopEvent} (member : e ∈ (join date schedule gtfs tm).events) {pullout : Int}
    (named : Names schedule tm e.key pullout) (only : ∀ other, Names schedule tm e.key other → other = pullout) :
    e.row.pullout = some pullout := by
  obtain ⟨j, known, same, skeleton, _, chosen, _, own⟩ := joinedRow member
  obtain ⟨_, tmOwn⟩ := observationsOwn known
  obtain ⟨o, input, key, names, r, scheduled, trip, runs⟩ := named
  have listed := chosenNamed ⟨o, (tmOwn o).mpr ⟨input, key.trans same.symm⟩, names⟩
    ⟨r, List.mem_filter.mpr ⟨scheduled, decide_eq_true trip⟩, runs⟩ ?_ chosen
  · exact (knownRows listed _ own).2.2
  · rintro o inside other names ⟨r, scheduled, runs⟩
    obtain ⟨input, key⟩ := (tmOwn o).mp inside
    obtain ⟨scheduled, trip⟩ := List.mem_filter.mp scheduled
    exact only other ⟨o, input, key.trans same, names, r, scheduled, of_decide_eq_true trip, runs⟩

theorem joinedStartsPlanned (key : String × String)
    (planned : ∃ e ∈ (join date schedule gtfs tm).events.filter (·.key = key), e.row.gtfsSequence.isSome) :
    ∃ e ∈ ((join date schedule gtfs tm).events.filter (·.key = key)).head?, e.row.gtfsSequence.isSome := by
  rcases joinedAlong date schedule gtfs tm key with empty | ⟨j, _, _, skeleton, _, along⟩
  · rw [empty] at planned
    obtain ⟨_, none, _⟩ := planned
    cases none
  · rw [along] at planned ⊢
    exact eventsStartPlanned date j skeleton planned

theorem joinAttaches (date : Day) (schedule : List SkeletonRow) (gtfs : List GtfsObservation) (tm : List TmObservation)
    (placed : Placed schedule) : Attaches schedule gtfs tm (join date schedule gtfs tm).events where
  ordered := joinedOrdered placed
  scheduled := by
    intro e member
    obtain ⟨_, _, _, skeleton, pullout, _, listed, own⟩ := joinedRow member
    exact (knownRows listed e.row own).1
  onePullout := fun _ ha _ hb same => joinedOnePullout ha hb same
  seen := fun _ member => (joinedCarries member).1
  gtfsOwn := fun _ member => (joinedCarries member).2.1
  tmOwn := fun _ member => (joinedCarries member).2.2
  once := joinedApart date schedule gtfs tm
  startsPlanned := joinedStartsPlanned
  named := fun _ member _ named only => joinedNamed member named only

/- Two pullouts run a loop; the crossing names the second, and the vehicle is seen twice at the stop where it began. -/
theorem joinAttachesLoop :
    let schedule : List SkeletonRow := [7, 8].flatMap fun pullout => [("a", 1), ("b", 2), ("a", 3)].map fun (stopId, position) =>
      { tripId := "1", pullout := some pullout, position, stopId, gtfsSequence := some position, tmSequence := some position }
    let gtfs : List GtfsObservation := [("a", 1), ("a", 3), ("a", 4)].map fun (stopId, sequence) =>
      { tripId := "1", stopId, sequence, vehicleLabel := "9" }
    let tm : List TmObservation := [{ tripId := "1", stopId := "b", sequence := 2, vehicleLabel := "9", pullout := some 8 }]
    Placed schedule ∧ Attaches schedule gtfs tm (join ⟨0⟩ schedule gtfs tm).events ∧
      (join ⟨0⟩ schedule gtfs tm).events.map (fun e => (e.row.pullout, e.row.position, e.gtfs.map (·.sequence))) =
        [(some 8, 1, some 1), (some 8, 2, none), (some 8, 3, some 3)] := by
  intro schedule gtfs tm
  have placed : Placed schedule := by
    unfold Placed schedule
    decide
  exact ⟨placed, joinAttaches ⟨0⟩ schedule gtfs tm placed, by cbv⟩

end Join

end TransitTimeline.Journey
