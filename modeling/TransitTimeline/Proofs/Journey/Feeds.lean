import TransitTimeline.Proofs.Journey.Attached

/-! The two feeds of observations. The join handles them alike, each for itself, so what it does with one is said once. -/
namespace TransitTimeline.Journey
open Std

def skeletonOf (rows : List SkeletonRow) (gtfs : List GtfsObservation) (tm : List TmObservation) (k : String × String) :
    Option (List SkeletonRow) :=
  skeleton? (pulloutsOf (rows.filter (·.tripId = k.1))) (observed gtfs tm k)

structure Feed (ο : Type) where
  key : ο → String × String
  firstSeen : ο → Option Instant
  place? : List SkeletonRow → ο → Option Nat
  own : Journey → List ο
  attached : Attached → Option ο
  shown : StopEvent → Option ο
  unmatched : Counts → Nat

def gtfsFeed : Feed GtfsObservation where
  key := fun o => (o.tripId, o.vehicleLabel)
  firstSeen := (·.firstSeen)
  place? := gtfsPlace?
  own := (·.gtfs)
  attached := (·.gtfs)
  shown := (·.gtfs)
  unmatched := (·.unmatchedGtfs)

def tmFeed : Feed TmObservation where
  key := fun o => (o.tripId, o.vehicleLabel)
  firstSeen := (·.firstSeen)
  place? := tmPlace?
  own := (·.tm)
  attached := (·.tm)
  shown := (·.tm)
  unmatched := (·.unmatchedTm)

namespace Feed
variable {ο : Type} {gtfs : List GtfsObservation} {tm : List TmObservation} {observations : List ο}

structure Handled (feed : Feed ο) (gtfs : List GtfsObservation) (tm : List TmObservation) (observations : List ο) : Prop where
  own : ∀ k, feed.own (observed gtfs tm k) = observations.filter (feed.key · = k)
  listed : ∀ o ∈ observations, feed.key o ∈ (ofObservations gtfs tm).map Journey.key
  stands : ∀ (skeleton : List SkeletonRow) o place, feed.place? skeleton o = some place → ∃ r, skeleton[place]? = some r
  attached : ∀ skeleton j row, feed.attached (shownAt skeleton j row) =
    shown? feed.firstSeen (assign (feed.place? skeleton) (feed.own j)) row.2
  seen : ∀ a, (feed.attached a).isSome → (a.gtfs.isSome || a.tm.isSome) = true
  shown : ∀ date j a, feed.shown (eventOf date j a) = feed.attached a
  apart : ∀ a b, Apart a b → ∀ o ∈ feed.shown a, o ∉ feed.shown b
  nothing : feed.unmatched {} = 0
  plus : ∀ a b, feed.unmatched (a.plus b) = feed.unmatched a + feed.unmatched b
  along : ∀ date skeleton j, feed.unmatched (eventsOn date skeleton j).counts =
    Journey.unmatched (assign (feed.place? skeleton) (feed.own j))
  without : ∀ j : Journey, feed.unmatched { unmatchedGtfs := j.gtfs.length, unmatchedTm := j.tm.length } = (feed.own j).length

theorem gtfsHandled (gtfs : List GtfsObservation) (tm : List TmObservation) : gtfsFeed.Handled gtfs tm gtfs := by
  constructor
  case listed =>
    intro o member
    exact memObserved.mpr (.inl (List.ne_nil_of_mem (List.mem_filter.mpr ⟨member, decide_eq_true rfl⟩)))
  case stands =>
    intro skeleton o place goes
    obtain ⟨r, known, _⟩ := nearestStop goes
    exact ⟨r, known⟩
  case seen =>
    intro a known
    exact Bool.or_eq_true_iff.mpr (.inl known)
  case apart =>
    intro a b apart
    exact apart.1
  all_goals intros; rfl

theorem tmHandled (gtfs : List GtfsObservation) (tm : List TmObservation) : tmFeed.Handled gtfs tm tm := by
  constructor
  case listed =>
    intro o member
    exact memObserved.mpr (.inr (List.ne_nil_of_mem (List.mem_filter.mpr ⟨member, decide_eq_true rfl⟩)))
  case stands =>
    intro skeleton o place goes
    obtain ⟨r, known, _⟩ := nearestStop goes
    exact ⟨r, known⟩
  case seen =>
    intro a known
    exact Bool.or_eq_true_iff.mpr (.inr known)
  case apart =>
    intro a b apart
    exact apart.2
  all_goals intros; rfl

def row? (feed : Feed ο) (schedule : List SkeletonRow) (gtfs : List GtfsObservation) (tm : List TmObservation) (o : ο) :
    Option Nat :=
  (skeletonOf schedule gtfs tm (feed.key o)).bind fun skeleton => feed.place? skeleton o

section Counts
variable {feed : Feed ο} (handled : feed.Handled gtfs tm observations)
include handled

theorem Handled.journeyUnmatched (date : Day) (schedule : List SkeletonRow) {j : Journey} (member : j ∈ ofObservations gtfs tm) :
    feed.unmatched (events date (Groups.ofRows (·.tripId) schedule) j).counts =
      (observations.filter (feed.key · = j.key)).countP fun o => (feed.row? schedule gtfs tm o).isNone := by
  have observations' : feed.own j = observations.filter (feed.key · = j.key) := by
    rw [observedOf member, handled.own]
    rfl
  have own : (feed.own j).countP (fun o => (feed.row? schedule gtfs tm o).isNone) = (feed.own j).countP fun o =>
      ((skeletonOf schedule gtfs tm j.key).bind fun skeleton => feed.place? skeleton o).isNone := by
    apply List.countP_congr
    intro o inside
    rw [observations'] at inside
    rw [row?, of_decide_eq_true (List.mem_filter.mp inside).2]
  have chosen : skeleton? (pulloutsOf (schedule.filter (·.tripId = j.tripId))) j = skeletonOf schedule gtfs tm j.key := by
    rw [skeletonOf, ← observedOf member]
    rfl
  rw [← observations', own, events, Groups.rowsOfKey, chosen]
  cases skeletonOf schedule gtfs tm j.key with
  | none => simp [handled.without]
  | some skeleton =>
    show feed.unmatched (eventsOn date skeleton j).counts = _
    rw [handled.along, Journey.unmatched, assign, List.countP_map]
    rfl

theorem Handled.sumUnmatched (counts : List Counts) : feed.unmatched (Counts.sum counts) = (counts.map feed.unmatched).sum := by
  induction counts with
  | nil => exact handled.nothing
  | cons first rest ih => exact (handled.plus first _).trans (congrArg (feed.unmatched first + ·) ih)

theorem Handled.joinedUnmatched (date : Day) (schedule : List SkeletonRow) :
    feed.unmatched (join date schedule gtfs tm).counts =
      observations.countP fun o => (feed.row? schedule gtfs tm o).isNone := by
  have distinct := orderedDistinct (keysOrdered gtfs tm)
  have listed : ∀ o ∈ observations, (fun _ => true) o ↔ feed.key o ∈ (ofObservations gtfs tm).map Journey.key := by
    intro o member
    exact iff_of_true rfl (handled.listed o member)
  have journeys := gathered distinct listed
  rw [List.filter_true, List.flatMap_map] at journeys
  rw [← journeys.countP_eq, List.countP_flatMap]
  show feed.unmatched (Counts.sum (((ofObservations gtfs tm).map (events date (Groups.ofRows (·.tripId) schedule))).map
    (·.counts))) = _
  rw [handled.sumUnmatched, List.map_map, List.map_map]
  exact congrArg List.sum (List.map_congr_left fun j member => handled.journeyUnmatched date schedule member)

end Counts

end Feed

end TransitTimeline.Journey
