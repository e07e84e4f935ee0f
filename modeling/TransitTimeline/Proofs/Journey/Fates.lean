import TransitTimeline.Proofs.Gathering
import TransitTimeline.Proofs.Journey.Feeds

/-! What becomes of each observation that the join is given. It is unmatched, or another one of its vehicle takes its row, or
its row is trimmed, or one event shows it; nothing is lost in another way. -/
namespace TransitTimeline.Journey
open Std
open Skeleton (isPlanned trim)

section Rows
variable {skeleton : List SkeletonRow} {j : Journey} {place : Nat}

def Seen (skeleton : List SkeletonRow) (j : Journey) (place : Nat) : Prop :=
  (∃ o ∈ j.gtfs, gtfsPlace? skeleton o = some place) ∨ ∃ o ∈ j.tm, tmPlace? skeleton o = some place

/- Of the rows that observations go to, some are planned, and the row stands before all of these. -/
structure Trimmed (skeleton : List SkeletonRow) (j : Journey) (place : Nat) : Prop where
  planned : ∃ (p : Nat) (r : SkeletonRow), skeleton[p]? = some r ∧ isPlanned r ∧ Seen skeleton j p
  ahead : ∀ (p : Nat) (r : SkeletonRow), skeleton[p]? = some r → isPlanned r → Seen skeleton j p → place < p

theorem shownExactly {ο : Type} {firstSeen : ο → Option Instant} {place? : ο → Option Nat} {observations : List ο} :
    (shown? firstSeen (assign place? observations) place).isSome ↔ ∃ o ∈ observations, place? o = some place := by
  constructor
  · intro shown
    obtain ⟨o, shown⟩ := Option.isSome_iff_exists.mp shown
    exact ⟨o, shownFrom shown⟩
  · rintro ⟨o, member, goes⟩
    apply firstLeastIsSome
    apply List.ne_nil_of_mem (a := o)
    simpa [assign] using ⟨member, goes⟩

def seenRows (skeleton : List SkeletonRow) (j : Journey) : List (SkeletonRow × Nat) :=
  skeleton.zipIdx.filter fun row => (shownAt skeleton j row).gtfs.isSome || (shownAt skeleton j row).tm.isSome

theorem memSeenRows {row : SkeletonRow × Nat} :
    row ∈ seenRows skeleton j ↔ skeleton[row.2]? = some row.1 ∧ Seen skeleton j row.2 := by
  rw [seenRows, List.mem_filter, List.mem_zipIdx_iff_getElem?, Bool.or_eq_true]
  unfold shownAt
  rw [shownExactly, shownExactly]
  rfl

theorem seenOrdered (skeleton : List SkeletonRow) (j : Journey) : (seenRows skeleton j).Pairwise fun a b => a.2 < b.2 := by
  apply List.Pairwise.filter
  apply List.pairwise_map.mp
  rw [List.zipIdx_map_snd]
  exact List.pairwise_lt_range'

theorem eventsKept (date : Day) (skeleton : List SkeletonRow) (j : Journey) : (eventsOn date skeleton j).events =
    (trim (fun row => isPlanned row.1) (seenRows skeleton j)).map fun row => eventOf date j (shownAt skeleton j row) := by
  have shape : attached skeleton (assign (gtfsPlace? skeleton) j.gtfs) (assign (tmPlace? skeleton) j.tm) =
      (seenRows skeleton j).map (shownAt skeleton j) := by
    rw [seenRows]
    exact List.filter_map
  rw [eventsOn, shape, Skeleton.trimMap, List.map_map]
  rfl

theorem memKept {row : SkeletonRow × Nat} (member : row ∈ seenRows skeleton j) :
    row ∈ trim (fun row => isPlanned row.1) (seenRows skeleton j) ↔ ¬Trimmed skeleton j row.2 := by
  rw [Skeleton.memTrim (seenOrdered skeleton j) member]
  constructor
  · intro kept trimmed
    obtain ⟨p, r, known, own, seen⟩ := trimmed.planned
    obtain ⟨z, inside, planned, le⟩ := kept (r, p) (memSeenRows.mpr ⟨known, seen⟩) own
    obtain ⟨there, seen⟩ := memSeenRows.mp inside
    exact absurd (trimmed.ahead z.2 z.1 there planned seen) (Nat.not_lt.mpr le)
  · intro kept y inside own
    by_contra none
    obtain ⟨there, seen⟩ := memSeenRows.mp inside
    apply kept
    refine ⟨⟨y.2, y.1, there, own, seen⟩, ?_⟩
    intro p r known planned seen
    by_contra before
    exact none ⟨(r, p), memSeenRows.mpr ⟨known, seen⟩, planned, Nat.not_lt.mp before⟩

end Rows

namespace Feed
variable {ο : Type} {feed : Feed ο}

structure Sharing (feed : Feed ο) (schedule : List SkeletonRow) (gtfs : List GtfsObservation) (tm : List TmObservation)
    (o s : ο) : Prop where
  key : feed.key s = feed.key o
  row : ∃ place, feed.row? schedule gtfs tm o = some place ∧ feed.row? schedule gtfs tm s = some place

def Earlier (feed : Feed ο) (k : Nat) (s : ο) (i : Nat) (o : ο) : Prop :=
  compare (feed.firstSeen s) (feed.firstSeen o) = .lt ∨ feed.firstSeen s = feed.firstSeen o ∧ k < i

def Superseded (feed : Feed ο) (schedule : List SkeletonRow) (gtfs : List GtfsObservation) (tm : List TmObservation)
    (observations : List ο) (i : Nat) (o : ο) : Prop :=
  ∃ (k : Nat) (s : ο), observations[k]? = some s ∧ feed.Sharing schedule gtfs tm o s ∧ feed.Earlier k s i o

theorem Earlier.asymm {i k : Nat} {o s : ο} (earlier : feed.Earlier k s i o) : ¬feed.Earlier i o k s := by
  have swap : compare (feed.firstSeen o) (feed.firstSeen s) = (compare (feed.firstSeen s) (feed.firstSeen o)).swap :=
    OrientedCmp.eq_swap
  intro back
  rcases earlier with less | ⟨same, before⟩ <;> rcases back with greater | ⟨equal, behind⟩
  · rw [swap, less] at greater
    cases greater
  · simp [equal] at less
  · simp [same] at greater
  · omega

theorem Earlier.place {i k : Nat} {o : ο} (earlier : feed.Earlier k o i o) : k < i := by
  rcases earlier with less | ⟨_, before⟩
  · simp at less
  · exact before

end Feed

inductive Fate where
  | unmatched
  | superseded
  | trimmed
  | shown
  deriving DecidableEq, Repr

/- What becomes of the observation at a place of the input. A row shows a value; of equal observations it is the first
that is shown. -/
inductive Feed.Meets {ο : Type} (feed : Feed ο) (date : Day) (schedule : List SkeletonRow) (gtfs : List GtfsObservation)
    (tm : List TmObservation) (observations : List ο) (i : Nat) (o : ο) : Fate → Prop
  | unmatched (nowhere : feed.row? schedule gtfs tm o = none) :
      Meets feed date schedule gtfs tm observations i o .unmatched
  | superseded (behind : feed.Superseded schedule gtfs tm observations i o) :
      Meets feed date schedule gtfs tm observations i o .superseded
  | trimmed {skeleton row place} (first : ∀ k < i, observations[k]? ≠ some o)
      (chosen : skeletonOf schedule gtfs tm (feed.key o) = some skeleton) (known : skeleton[place]? = some row)
      (holds : feed.attached (shownAt skeleton (observed gtfs tm (feed.key o)) (row, place)) = some o)
      (ahead : Trimmed skeleton (observed gtfs tm (feed.key o)) place) :
      Meets feed date schedule gtfs tm observations i o .trimmed
  | shown (first : ∀ k < i, observations[k]? ≠ some o)
      (once : ∃! n : Nat, ((join date schedule gtfs tm).events[n]?).bind feed.shown = some o) :
      Meets feed date schedule gtfs tm observations i o .shown

namespace Feed
variable {ο : Type} {feed : Feed ο} {date : Day} {schedule : List SkeletonRow} {gtfs : List GtfsObservation}
  {tm : List TmObservation} {observations : List ο} {k : String × String} {skeleton : List SkeletonRow}
  {row : SkeletonRow} {place : Nat} {o : ο}

def OnTrimmed (feed : Feed ο) (schedule : List SkeletonRow) (gtfs : List GtfsObservation) (tm : List TmObservation)
    (o : ο) : Prop :=
  ∃ skeleton place, skeletonOf schedule gtfs tm (feed.key o) = some skeleton ∧
    feed.row? schedule gtfs tm o = some place ∧ Trimmed skeleton (observed gtfs tm (feed.key o)) place

open Classical in
noncomputable def fateOf (feed : Feed ο) (schedule : List SkeletonRow) (gtfs : List GtfsObservation) (tm : List TmObservation)
    (observations : List ο) (i : Nat) (o : ο) : Fate :=
  if feed.row? schedule gtfs tm o = none then .unmatched
  else if feed.Superseded schedule gtfs tm observations i o then .superseded
  else if feed.OnTrimmed schedule gtfs tm o then .trimmed
  else .shown

section Handled
variable (handled : feed.Handled gtfs tm observations)
include handled

theorem Handled.ownOf {j : Journey} (member : j ∈ ofObservations gtfs tm) :
    feed.own j = observations.filter (feed.key · = j.key) := by
  rw [observedOf member, handled.own]
  rfl

theorem Handled.winner (chosen : skeletonOf schedule gtfs tm k = some skeleton)
    (holds : feed.attached (shownAt skeleton (observed gtfs tm k) (row, place)) = some o) :
    feed.key o = k ∧ feed.row? schedule gtfs tm o = some place ∧ ∃ i : Nat, observations[i]? = some o ∧
      ∀ (n : Nat) s, observations[n]? = some s → feed.key s = k → feed.row? schedule gtfs tm s = some place →
        n = i ∨ feed.Earlier i o n s := by
  have goes {s : ο} (own : feed.key s = k) : feed.row? schedule gtfs tm s = feed.place? skeleton s := by
    rw [row?, own, chosen]
    rfl
  rw [handled.attached, handled.own] at holds
  obtain ⟨inside, there⟩ := shownFrom holds
  have key := of_decide_eq_true (List.mem_filter.mp inside).2
  have least : firstLeast feed.firstSeen (observations.filter fun s => feed.place? skeleton s = some place && feed.key s = k) =
      some o := by
    rw [← List.filter_filter, ← holds]
    simp [shown?, assign, List.filter_map, Function.comp_def]
  obtain ⟨i, here, first⟩ := firstLeastAt least
  refine ⟨key, (goes key).trans there, i, here, ?_⟩
  intro n s given own same
  rw [goes own] at same
  rcases first n s given (by simp [same, own]) with less | ⟨tie, le⟩
  · exact .inr (.inl less)
  · rcases Nat.eq_or_lt_of_le le with equal | later
    · exact .inl equal.symm
    · exact .inr (.inr ⟨LawfulEqOrd.eq_of_compare tie, later⟩)

theorem Handled.source {e : StopEvent} (member : e ∈ (join date schedule gtfs tm).events) (shows : feed.shown e = some o) :
    ∃ skeleton place, skeletonOf schedule gtfs tm (feed.key o) = some skeleton ∧ skeleton[place]? = some e.row ∧
      feed.attached (shownAt skeleton (observed gtfs tm (feed.key o)) (e.row, place)) = some o ∧
      ¬Trimmed skeleton (observed gtfs tm (feed.key o)) place := by
  obtain ⟨j, known, same, skeleton, chosen, along⟩ := eventAlong member
  rw [eventsKept] at along
  obtain ⟨⟨row, place⟩, kept, rfl⟩ := List.mem_map.mp along
  rw [handled.shown] at shows
  have inside : o ∈ feed.own j := by
    rw [handled.attached] at shows
    exact (shownFrom shows).1
  rw [handled.ownOf known] at inside
  have own : feed.key o = j.key := of_decide_eq_true (List.mem_filter.mp inside).2
  have listed := (Skeleton.trimSuffix _ _).subset kept
  rw [own, ← observedOf known]
  refine ⟨skeleton, place, ?_, (memSeenRows.mp listed).1, shows, (memKept listed).mp kept⟩
  rw [skeletonOf, ← observedOf known, same]
  exact chosen

theorem Handled.shownApart {n m : Nat} (first : ((join date schedule gtfs tm).events[n]?).bind feed.shown = some o)
    (second : ((join date schedule gtfs tm).events[m]?).bind feed.shown = some o) : ¬n < m := by
  intro less
  obtain ⟨a, atN, showsA⟩ := Option.bind_eq_some_iff.mp first
  obtain ⟨b, atM, showsB⟩ := Option.bind_eq_some_iff.mp second
  obtain ⟨insideN, rfl⟩ := List.getElem?_eq_some_iff.mp atN
  obtain ⟨insideM, rfl⟩ := List.getElem?_eq_some_iff.mp atM
  have apart := List.pairwise_iff_getElem.mp (joinedApart date schedule gtfs tm) n m insideN insideM less
  exact handled.apart _ _ apart o showsA showsB

theorem Handled.shownOnce (date : Day) (given : o ∈ observations)
    (chosen : skeletonOf schedule gtfs tm (feed.key o) = some skeleton) (known : skeleton[place]? = some row)
    (holds : feed.attached (shownAt skeleton (observed gtfs tm (feed.key o)) (row, place)) = some o)
    (kept : ¬Trimmed skeleton (observed gtfs tm (feed.key o)) place) :
    ∃! n : Nat, ((join date schedule gtfs tm).events[n]?).bind feed.shown = some o := by
  obtain ⟨j, member, key⟩ := List.mem_map.mp (handled.listed o given)
  have own := observedOf member
  rw [key] at own
  rw [← own] at holds kept
  have listed : (row, place) ∈ seenRows skeleton j :=
    List.mem_filter.mpr ⟨List.mem_zipIdx_iff_getElem?.mpr known, handled.seen _ (by rw [holds]; rfl)⟩
  have along : eventOf date j (shownAt skeleton j (row, place)) ∈ (eventsOn date skeleton j).events := by
    rw [eventsKept]
    exact List.mem_map_of_mem ((memKept listed).mpr kept)
  have inside : eventOf date j (shownAt skeleton j (row, place)) ∈ (join date schedule gtfs tm).events := by
    have goes : skeleton? (pulloutsOf (schedule.filter (·.tripId = j.tripId))) j = some skeleton := by
      rw [← chosen, skeletonOf, ← own, ← key]
      rfl
    have section' : (join date schedule gtfs tm).events.filter (·.key = j.key) =
        (events date (Groups.ofRows (·.tripId) schedule) j).events := joinedOfJourney date member
    rw [eventsAlong, goes] at section'
    rw [← Option.getD_some (a := (eventsOn date skeleton j).events) (b := [])] at along
    exact List.mem_of_mem_filter (section' ▸ along)
  obtain ⟨n, there⟩ := List.mem_iff_getElem?.mp inside
  have shows : ((join date schedule gtfs tm).events[n]?).bind feed.shown = some o := by
    rw [there, Option.bind_some, handled.shown, holds]
  refine ⟨n, shows, ?_⟩
  intro m also
  exact Nat.le_antisymm (Nat.not_lt.mp (handled.shownApart shows also)) (Nat.not_lt.mp (handled.shownApart also shows))

theorem Handled.heldFirst {i : Nat} (chosen : skeletonOf schedule gtfs tm (feed.key o) = some skeleton)
    (holds : feed.attached (shownAt skeleton (observed gtfs tm (feed.key o)) (row, place)) = some o)
    (own : observations[i]? = some o) (first : ∀ k < i, observations[k]? ≠ some o) :
    ¬feed.Superseded schedule gtfs tm observations i o := by
  obtain ⟨_, goes, w, here, least⟩ := handled.winner chosen holds
  have same : i = w := by
    rcases least i o own rfl goes with same | later
    · exact same
    · exact absurd here (first w later.place)
  rw [← same] at least
  rintro ⟨n, s, given, sharing, earlier⟩
  obtain ⟨p, rowO, rowS⟩ := sharing.row
  cases rowO.symm.trans goes
  rcases least n s given sharing.key rowS with rfl | later
  · cases given.symm.trans own
    exact Nat.lt_irrefl _ earlier.place
  · exact later.asymm earlier

theorem Handled.held (given : o ∈ observations) (goes : feed.place? skeleton o = some place) :
    ∃ row w, skeleton[place]? = some row ∧
      feed.attached (shownAt skeleton (observed gtfs tm (feed.key o)) (row, place)) = some w := by
  obtain ⟨row, known⟩ := handled.stands skeleton o place goes
  have filled : (feed.attached (shownAt skeleton (observed gtfs tm (feed.key o)) (row, place))).isSome := by
    rw [handled.attached, shownExactly, handled.own]
    exact ⟨o, List.mem_filter.mpr ⟨given, decide_eq_true rfl⟩, goes⟩
  obtain ⟨w, holds⟩ := Option.isSome_iff_exists.mp filled
  exact ⟨row, w, known, holds⟩

theorem Handled.someFate (date : Day) (schedule : List SkeletonRow) {i : Nat} (given : observations[i]? = some o) :
    ∃ fate, feed.Meets date schedule gtfs tm observations i o fate := by
  have member := List.mem_of_getElem? given
  cases goes : feed.row? schedule gtfs tm o with
  | none => exact ⟨.unmatched, .unmatched goes⟩
  | some place =>
    obtain ⟨skeleton, chosen, there⟩ := Option.bind_eq_some_iff.mp goes
    obtain ⟨row, w, known, holds⟩ := handled.held member there
    obtain ⟨key, goesW, n, here, least⟩ := handled.winner chosen holds
    rcases least i o given rfl goes with rfl | earlier
    · cases here.symm.trans given
      have first : ∀ k < i, observations[k]? ≠ some o := by
        intro k before also
        rcases least k o also rfl goes with rfl | later
        · exact Nat.lt_irrefl _ before
        · exact Nat.lt_asymm before later.place
      by_cases trimmed : Trimmed skeleton (observed gtfs tm (feed.key o)) place
      · exact ⟨.trimmed, .trimmed first chosen known holds trimmed⟩
      · exact ⟨.shown, .shown first (handled.shownOnce date member chosen known holds trimmed)⟩
    · exact ⟨.superseded, .superseded ⟨n, w, here, ⟨key, place, goes, goesW⟩, earlier⟩⟩

/- The fates exclude each other: the row of an observation and what the row holds decide which one it meets. -/
theorem Handled.fateDecided {i : Nat} {fate : Fate} (given : observations[i]? = some o)
    (meets : feed.Meets date schedule gtfs tm observations i o fate) :
    fate = feed.fateOf schedule gtfs tm observations i o := by
  cases meets with
  | unmatched nowhere => rw [fateOf, if_pos nowhere]
  | superseded behind =>
    have known := behind
    obtain ⟨_, _, _, sharing, _⟩ := known
    obtain ⟨place, goes, _⟩ := sharing.row
    rw [fateOf, if_neg (by simp [goes]), if_pos behind]
  | @trimmed skeleton row place first chosen known holds ahead =>
    obtain ⟨_, goes, _⟩ := handled.winner chosen holds
    have front := handled.heldFirst chosen holds given first
    rw [fateOf, if_neg (by simp [goes]), if_neg front, if_pos ⟨skeleton, place, chosen, goes, ahead⟩]
  | shown first once =>
    obtain ⟨n, shows, _⟩ := once
    obtain ⟨e, there, shows⟩ := Option.bind_eq_some_iff.mp shows
    obtain ⟨skeleton, place, chosen, known, holds, kept⟩ := handled.source (List.mem_of_getElem? there) shows
    obtain ⟨_, goes, _⟩ := handled.winner chosen holds
    have front := handled.heldFirst chosen holds given first
    have behind : ¬feed.OnTrimmed schedule gtfs tm o := by
      rintro ⟨_, _, choice, same, ahead⟩
      cases chosen.symm.trans choice
      cases goes.symm.trans same
      exact kept ahead
    rw [fateOf, if_neg (by simp [goes]), if_neg front, if_neg behind]

end Handled

structure Conserved (feed : Feed ο) (date : Day) (schedule : List SkeletonRow) (gtfs : List GtfsObservation)
    (tm : List TmObservation) (observations : List ο) : Prop where
  fates : ∀ (i : Nat) o, observations[i]? = some o → ∃! fate, feed.Meets date schedule gtfs tm observations i o fate
  counted : feed.unmatched (join date schedule gtfs tm).counts =
    observations.countP fun o => (feed.row? schedule gtfs tm o).isNone
  earliest : ∀ e ∈ (join date schedule gtfs tm).events, ∀ o ∈ feed.shown e, ∃ i : Nat, observations[i]? = some o ∧
    (∃ skeleton place, skeletonOf schedule gtfs tm (feed.key o) = some skeleton ∧ skeleton[place]? = some e.row ∧
      feed.row? schedule gtfs tm o = some place) ∧
    ∀ (n : Nat) s, observations[n]? = some s → feed.Sharing schedule gtfs tm o s → n = i ∨ feed.Earlier i o n s

theorem Handled.conserved (handled : feed.Handled gtfs tm observations) (date : Day) (schedule : List SkeletonRow) :
    feed.Conserved date schedule gtfs tm observations where
  fates := by
    intro i o given
    obtain ⟨fate, meets⟩ := handled.someFate date schedule given
    refine ⟨fate, meets, ?_⟩
    intro other also
    rw [handled.fateDecided given meets, handled.fateDecided given also]
  counted := handled.joinedUnmatched date schedule
  earliest := by
    intro e member o shows
    obtain ⟨skeleton, place, chosen, known, holds, _⟩ := handled.source member shows
    obtain ⟨_, goes, i, here, least⟩ := handled.winner chosen holds
    refine ⟨i, here, ⟨skeleton, place, chosen, known, goes⟩, ?_⟩
    intro n s other sharing
    obtain ⟨p, rowO, rowS⟩ := sharing.row
    rw [goes] at rowO
    cases rowO
    exact least n s other sharing.key rowS

end Feed

theorem everyObservationFated (date : Day) (schedule : List SkeletonRow) (gtfs : List GtfsObservation)
    (tm : List TmObservation) : gtfsFeed.Conserved date schedule gtfs tm gtfs ∧ tmFeed.Conserved date schedule gtfs tm tm :=
  ⟨(Feed.gtfsHandled gtfs tm).conserved date schedule, (Feed.tmHandled gtfs tm).conserved date schedule⟩

/- The vehicle is seen at a timepoint before the planned trip, twice at its first stop, the later time given first, and at a
stop that is not on the trip. -/
example :
    let schedule : List SkeletonRow := [("y", 1, none), ("a", 2, some 1)].map fun (stopId, position, gtfsSequence) =>
      { tripId := "1", pullout := some 7, position, stopId, gtfsSequence, tmSequence := some position }
    let gtfs : List GtfsObservation := [("y", 1, 0), ("a", 1, 90), ("a", 1, 60), ("z", 2, 120)].map
      fun (stopId, sequence, seconds) =>
        { tripId := "1", stopId, sequence, vehicleLabel := "9", arrival := some (.ofSeconds seconds) }
    (join ⟨0⟩ schedule gtfs []).events.map (fun e => e.gtfs) = [gtfs[2]?] ∧
      (join ⟨0⟩ schedule gtfs []).counts = { partitions := 1, unmatchedGtfs := 1, trimmed := 1 } := by
  cbv

end TransitTimeline.Journey
