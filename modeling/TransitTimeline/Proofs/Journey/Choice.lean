import TransitTimeline.Proofs.Journey.Join
import TransitTimeline.Proofs.Schedule.Merged

/-! Which pullout a journey goes by that none of its crossings names. The join counts a pullout's start from the first
scheduled departure of its rows, and there the planned departure comes before the dispatched one. All pullouts of a
trip share the planned departures, so these do not tell them apart. -/
namespace TransitTimeline.Journey
open Std
open Skeleton (partitionOf)

section Start

def ownStart (rows : List SkeletonRow) : Option Instant := rows.findSome? (·.dispatched)

/- What the join takes for the start. -/
def countedStart (rows : List SkeletonRow) : Option Instant := rows.findSome? (·.scheduled)

def earlyStart (rows : List SkeletonRow) : Option Instant :=
  (rows.takeWhile (·.planned.isNone)).findSome? (·.dispatched)

theorem countedEarly (rows : List SkeletonRow) :
    countedStart rows = (earlyStart rows).or (rows.findSome? (·.planned)) := by
  induction rows with
  | nil => rfl
  | cons r rest ih =>
    unfold countedStart earlyStart at ih ⊢
    rw [List.findSome?_cons, List.takeWhile_cons, List.findSome?_cons, ih]
    cases planned : r.planned with
    | some d => simp [SkeletonRow.scheduled, planned]
    | none => cases dispatched : r.dispatched <;> simp [SkeletonRow.scheduled, planned, dispatched]

theorem earlyOwn (rows : List SkeletonRow) : earlyStart rows = none ∨ earlyStart rows = ownStart rows := by
  cases early : earlyStart rows with
  | none => exact .inl rfl
  | some start =>
    right
    rw [ownStart, ← List.takeWhile_append_dropWhile (p := fun r => r.planned.isNone) (l := rows), List.findSome?_append]
    rw [earlyStart] at early
    rw [early]
    rfl

theorem startCounted {rows : List SkeletonRow} (timed : (ownStart rows).isSome) : (countedStart rows).isSome := by
  obtain ⟨r, member, own⟩ := List.findSome?_isSome_iff.mp timed
  refine List.findSome?_isSome_iff.mpr ⟨r, member, ?_⟩
  cases planned : r.planned <;> simp [SkeletonRow.scheduled, planned, own]

end Start

def Runs (rows : List SkeletonRow) (trip : String) (pullout : Int) : Prop := partitionOf rows trip (some pullout) ≠ []

structure Nearest (rows : List SkeletonRow) (trip : String) (start : List SkeletonRow → Option Instant) (seen : Instant)
    (pullout : Int) : Prop where
  runs : Runs rows trip pullout
  nearest : ∀ other, Runs rows trip other → ∀ a ∈ start (partitionOf rows trip (some pullout)),
    ∀ b ∈ start (partitionOf rows trip (some other)),
    (a.secondsSince seen).natAbs < (b.secondsSince seen).natAbs ∨
      (a.secondsSince seen).natAbs = (b.secondsSince seen).natAbs ∧ pullout ≤ other

theorem Nearest.unique {rows : List SkeletonRow} {trip : String} {start : List SkeletonRow → Option Instant}
    {seen : Instant} (timed : ∀ p, Runs rows trip p → (start (partitionOf rows trip (some p))).isSome) {p q : Int}
    (first : Nearest rows trip start seen p) (second : Nearest rows trip start seen q) : p = q := by
  obtain ⟨a, ha⟩ := Option.isSome_iff_exists.mp (timed p first.runs)
  obtain ⟨b, hb⟩ := Option.isSome_iff_exists.mp (timed q second.runs)
  have forward := first.nearest q second.runs a ha b hb
  have backward := second.nearest p first.runs b hb a ha
  omega

def GoesBy (rows : List SkeletonRow) (j : Journey) (pullout : Int) : Prop :=
  skeleton? (pulloutsOf (rows.filter (·.tripId = j.tripId))) j = some (partitionOf rows j.tripId (some pullout))

theorem GoesBy.unique {rows : List SkeletonRow} {j : Journey} {p q : Int} (first : GoesBy rows j p)
    (second : GoesBy rows j q) (runs : Runs rows j.tripId q) : p = q := by
  obtain ⟨r, member⟩ := List.exists_mem_of_ne_nil _ runs
  have same : partitionOf rows j.tripId (some p) = partitionOf rows j.tripId (some q) :=
    Option.some.inj (first.symm.trans second)
  have inside : r ∈ partitionOf rows j.tripId (some p) := by rw [same]; exact member
  have own : (r.tripId, r.pullout) = (j.tripId, some q) := of_decide_eq_true (List.mem_filter.mp member).2
  have other : (r.tripId, r.pullout) = (j.tripId, some p) := of_decide_eq_true (List.mem_filter.mp inside).2
  exact Option.some.inj (Prod.mk.inj (other.symm.trans own)).2

theorem unnamedPullout {pullouts : Pullouts} {j : Journey}
    (unnamed : ∀ o ∈ j.tm, ∀ p ∈ o.pullout, rowsOf? pullouts (some p) = none) : namedPullout? pullouts j = none := by
  have none : j.tm.filter (fun o => o.pullout.any fun p => (rowsOf? pullouts (some p)).isSome) = [] := by
    refine List.filter_eq_nil_iff.mpr fun o member => ?_
    cases own : o.pullout with
    | none => simp
    | some p => simp [unnamed o member p own]
  simp [namedPullout?, none, firstLeast]

theorem chosenByStart {pullouts : Pullouts} {j : Journey} {seen : Instant} (several : 2 ≤ pullouts.length)
    (unnamed : namedPullout? pullouts j = none) (first : j.firstSeen = some seen) :
    skeleton? pullouts j = (firstLeast (fun p => startDistance seen p.2) pullouts).map (·.2) := by
  match pullouts, several with
  | _ :: _ :: _, _ => simp only [skeleton?, unnamed, first]

theorem leastStart {pullouts : Pullouts} (ordered : pullouts.Pairwise fun a b => compare a.1 b.1 = .lt) {seen : Instant}
    {chosen : Option Int × List SkeletonRow} (least : firstLeast (fun p => startDistance seen p.2) pullouts = some chosen) :
    ∀ p ∈ pullouts, compare (startDistance seen chosen.2) (startDistance seen p.2) = .lt ∨
      (compare (startDistance seen chosen.2) (startDistance seen p.2)).isLE ∧ (compare chosen.1 p.1).isLE := by
  obtain ⟨before, after, rfl, less, notGreater⟩ := firstLeastSplit least
  obtain ⟨_, behind, _⟩ := List.pairwise_append.mp ordered
  intro p member
  rcases List.mem_append.mp member with early | late
  · exact .inl (less p early)
  · right
    rcases List.mem_cons.mp late with rfl | late
    · simp
    · refine ⟨notGreater p late, ?_⟩
      rw [(List.pairwise_cons.mp behind).1 p late]
      rfl

section Merged
variable {planned : List PlannedStop} {stops : List PulloutStop} {tolerance : Int} {m : Skeleton.Merged}

theorem memMerged (ok : Skeleton.merge planned stops tolerance = .ok m) {trip : String} {pullout : Option Int}
    {group : List SkeletonRow} : (pullout, group) ∈ pulloutsOf (m.rows.filter (·.tripId = trip)) ↔
      group = partitionOf m.rows trip pullout ∧ partitionOf m.rows trip pullout ≠ [] := by
  have same : (m.rows.filter (·.tripId = trip)).filter (·.pullout = pullout) = partitionOf m.rows trip pullout := by
    rw [List.filter_filter]
    exact List.filter_congr fun r _ => by simp [Bool.and_comm]
  have sorted : sortOn (·.position) (partitionOf m.rows trip pullout) = partitionOf m.rows trip pullout := by
    refine sortOnOfSorted ?_
    by_cases empty : partitionOf m.rows trip pullout = []
    · rw [empty]
      exact .nil
    · exact (Skeleton.filledPartition ok empty).ascending.imp fun less => Std.isLE_compare.mpr (Int.le_of_lt less)
  have filled : (∃ r ∈ m.rows.filter (·.tripId = trip), r.pullout = pullout) ↔ partitionOf m.rows trip pullout ≠ [] := by
    rw [← same, ne_eq, List.filter_eq_nil_iff]
    simp [and_assoc]
  rw [memPulloutsOf, same, sorted, filled, and_comm]

theorem mergedRuns (ok : Skeleton.merge planned stops tolerance = .ok m) {trip : String} {pullout : Int}
    (runs : Runs m.rows trip pullout) {p : Option Int × List SkeletonRow}
    (member : p ∈ pulloutsOf (m.rows.filter (·.tripId = trip))) :
    ∃ other, p = (some other, partitionOf m.rows trip (some other)) ∧ Runs m.rows trip other := by
  obtain ⟨own, filled⟩ := (memMerged ok).mp member
  cases named : p.1 with
  | none => exact absurd (Skeleton.mergedOnlyPullouts ok runs) (named ▸ filled)
  | some other =>
    rw [named] at own filled
    exact ⟨other, Prod.ext named own, filled⟩

theorem startDistanceOf {rows : List SkeletonRow} {a : Instant} (start : countedStart rows = some a) (seen : Instant) :
    startDistance seen rows = (0, (a.secondsSince seen).natAbs) := by
  unfold countedStart at start
  simp only [startDistance, start]

theorem runsListed (ok : Skeleton.merge planned stops tolerance = .ok m) {trip : String} {p : Int}
    (runs : Runs m.rows trip p) :
    (some p, partitionOf m.rows trip (some p)) ∈ pulloutsOf (m.rows.filter (·.tripId = trip)) :=
  (memMerged ok).mpr ⟨rfl, runs⟩

theorem severalListed (ok : Skeleton.merge planned stops tolerance = .ok m) {trip : String} {p q : Int}
    (several : p ≠ q) (first : Runs m.rows trip p) (second : Runs m.rows trip q) :
    2 ≤ (pulloutsOf (m.rows.filter (·.tripId = trip))).length := by
  match h : pulloutsOf (m.rows.filter (·.tripId = trip)), runsListed ok first, runsListed ok second with
  | [one], atP, atQ =>
    have same := (List.mem_singleton.mp atP).trans (List.mem_singleton.mp atQ).symm
    exact absurd (Option.some.inj (Prod.mk.inj same).1) several
  | _ :: _ :: _, _, _ => simp

theorem unnamedMerged (ok : Skeleton.merge planned stops tolerance = .ok m) {j : Journey}
    (unnamed : ∀ o ∈ j.tm, ∀ p ∈ o.pullout, ¬Runs m.rows j.tripId p) :
    namedPullout? (pulloutsOf (m.rows.filter (·.tripId = j.tripId))) j = none := by
  refine unnamedPullout fun o member p own => ?_
  cases found : rowsOf? (pulloutsOf (m.rows.filter (·.tripId = j.tripId))) (some p) with
  | none => rfl
  | some rows => exact absurd ((memMerged ok).mp (rowsOfKnown found)).2 (unnamed o member p own)

theorem goesByNearest (ok : Skeleton.merge planned stops tolerance = .ok m) {j : Journey} {p q : Int}
    (several : p ≠ q) (first : Runs m.rows j.tripId p) (second : Runs m.rows j.tripId q)
    (unnamed : ∀ o ∈ j.tm, ∀ p ∈ o.pullout, ¬Runs m.rows j.tripId p) {seen : Instant}
    (earliest : j.firstSeen = some seen) :
    ∃ chosen, GoesBy m.rows j chosen ∧ Nearest m.rows j.tripId countedStart seen chosen := by
  have chosen := chosenByStart (severalListed ok several first second) (unnamedMerged ok unnamed) earliest
  have filled : pulloutsOf (m.rows.filter (·.tripId = j.tripId)) ≠ [] := List.ne_nil_of_mem (runsListed ok first)
  obtain ⟨least, found⟩ := Option.isSome_iff_exists.mp (firstLeastIsSome (fun p => startDistance seen p.2) filled)
  obtain ⟨id, rfl, runs⟩ := mergedRuns ok first (firstLeastMem found)
  rw [found] at chosen
  refine ⟨id, chosen, runs, fun other runsOther a ha b hb => ?_⟩
  have against := leastStart (pulloutsOrdered _) found _ (runsListed ok runsOther)
  rw [startDistanceOf ha, startDistanceOf hb] at against
  rcases against with nearer | ⟨near, smaller⟩
  · left
    simpa [comparePair, Nat.compare_eq_lt] using nearer
  · have near : (a.secondsSince seen).natAbs ≤ (b.secondsSince seen).natAbs := by
      simpa [comparePair, Nat.isLE_compare] using near
    have smaller : id ≤ other := Std.isLE_compare.mp smaller
    omega

theorem countedOfTrip (ok : Skeleton.merge planned stops tolerance = .ok m) {trip : String} {pullout : Int}
    (runs : Runs m.rows trip pullout) : countedStart (partitionOf m.rows trip (some pullout)) =
      (earlyStart (partitionOf m.rows trip (some pullout))).or
        ((planned.filter (·.tripId = trip)).findSome? (·.departure)) := by
  have partition := Skeleton.filledPartition ok runs
  have all : (partitionOf m.rows trip (some pullout)).filterMap (·.planned) =
      ((partitionOf m.rows trip (some pullout)).filter Skeleton.isPlanned).filterMap (·.planned) := by
    rw [List.filterMap_filter]
    refine List.filterMap_congr fun r member => ?_
    cases own : Skeleton.isPlanned r with
    | true => rfl
    | false => exact (partition.pulloutOnly r member own).2
  rw [countedEarly, ← List.head?_filterMap, ← List.head?_filterMap, all]
  rw [pairedColumn partition.shows fun r g shown => shown.departure]

theorem countedOfFirst (ok : Skeleton.merge planned stops tolerance = .ok m) {trip : String} {pullout : Int}
    (runs : Runs m.rows trip pullout) {g : PlannedStop} (head : (planned.filter (·.tripId = trip)).head? = some g)
    {d : Instant} (departs : g.departure = some d) :
    countedStart (partitionOf m.rows trip (some pullout)) = some d := by
  obtain ⟨r, first, g', first', shown⟩ := (Skeleton.filledPartition ok runs).starts
  cases first'.symm.trans head
  cases rows : partitionOf m.rows trip (some pullout) with
  | nil => simp [rows] at first
  | cons _ _ =>
    rw [rows] at first
    cases first
    simp [countedStart, SkeletonRow.scheduled, shown.departure, departs]

end Merged

theorem attachedByCountedStart (planned : List PlannedStop) (stops : List PulloutStop) (tolerance : Int)
    (m : Skeleton.Merged) (ok : Skeleton.merge planned stops tolerance = .ok m) (date : Day)
    (gtfs : List GtfsObservation) (tm : List TmObservation) (j : Journey) (member : j ∈ ofObservations gtfs tm)
    (several : ∃ p q, p ≠ q ∧ Runs m.rows j.tripId p ∧ Runs m.rows j.tripId q)
    (timed : ∀ p, Runs m.rows j.tripId p → ∃ r ∈ partitionOf m.rows j.tripId (some p), r.dispatched.isSome)
    (unnamed : ∀ o ∈ j.tm, ∀ p ∈ o.pullout, ¬Runs m.rows j.tripId p) (seen : Instant)
    (earliest : j.firstSeen = some seen) :
    (∃ p, GoesBy m.rows j p) ∧
    (∀ p, GoesBy m.rows j p → (join date m.rows gtfs tm).events.filter (·.key = j.key) =
      (eventsOn date (partitionOf m.rows j.tripId (some p)) j).events) ∧
    (∀ p, GoesBy m.rows j p ↔ Nearest m.rows j.tripId countedStart seen p) ∧
    (∀ p, Runs m.rows j.tripId p →
      (earlyStart (partitionOf m.rows j.tripId (some p)) = none ∨
        earlyStart (partitionOf m.rows j.tripId (some p)) = ownStart (partitionOf m.rows j.tripId (some p))) ∧
      countedStart (partitionOf m.rows j.tripId (some p)) =
        (earlyStart (partitionOf m.rows j.tripId (some p))).or
          ((planned.filter (·.tripId = j.tripId)).findSome? (·.departure))) ∧
    (∀ g ∈ (planned.filter (·.tripId = j.tripId)).head?, g.departure.isSome → ∀ p, GoesBy m.rows j p ↔
      Runs m.rows j.tripId p ∧ ∀ other, Runs m.rows j.tripId other → p ≤ other) := by
  have counted : ∀ p, Runs m.rows j.tripId p → (countedStart (partitionOf m.rows j.tripId (some p))).isSome :=
    fun p runs => startCounted (List.findSome?_isSome_iff.mpr (timed p runs))
  obtain ⟨p, q, different, first, second⟩ := several
  obtain ⟨chosen, goes, nearest⟩ := goesByNearest ok different first second unnamed earliest
  have exact' (p : Int) : GoesBy m.rows j p ↔ Nearest m.rows j.tripId countedStart seen p :=
    ⟨fun other => other.unique goes nearest.runs ▸ nearest, fun other => other.unique counted nearest ▸ goes⟩
  refine ⟨⟨chosen, goes⟩, fun p goes => ?_, exact', fun p runs => ⟨earlyOwn _, countedOfTrip ok runs⟩, ?_⟩
  · rw [joinedOfJourney date member, eventsAlong, show skeleton? _ j = _ from goes]
    rfl
  · intro g head departs p
    obtain ⟨d, departs⟩ := Option.isSome_iff_exists.mp departs
    have start {p : Int} (runs : Runs m.rows j.tripId p) := countedOfFirst ok runs head departs
    rw [exact']
    constructor
    · intro least
      refine ⟨least.runs, fun other runs => ?_⟩
      have against := least.nearest other runs d (start least.runs) d (start runs)
      omega
    · rintro ⟨runs, least⟩
      refine ⟨runs, fun other known a ha b hb => ?_⟩
      cases ha.symm.trans (start runs)
      cases hb.symm.trans (start known)
      exact .inr ⟨rfl, least other known⟩

/- Two buses leave twenty minutes apart; the second is seen when it leaves. -/
section TwoPullouts

def twoStops : List PlannedStop :=
  [{ tripId := "1", stopId := "a", sequence := 1, departure := some (.ofSeconds 43200) },
   { tripId := "1", stopId := "b", sequence := 2, departure := some (.ofSeconds 43500) }]

def twoPullouts : List PulloutStop :=
  [{ tripId := "1", pullout := 7, stopId := "a", sequence := 1, departure := some (.ofSeconds 43200) },
   { tripId := "1", pullout := 8, stopId := "a", sequence := 1, departure := some (.ofSeconds 44400) }]

def secondBus : List GtfsObservation :=
  [{ tripId := "1", stopId := "a", sequence := 1, vehicleLabel := "9", arrival := some (.ofSeconds 44400) }]

def secondJourney : Journey := ⟨"1", "9", secondBus, []⟩

theorem twoKeys : Skeleton.partitionKeys twoStops twoPullouts = [("1", some 7), ("1", some 8)] := by cbv

theorem secondKnown : secondJourney ∈ ofObservations secondBus [] := by
  have only : ofObservations secondBus [] = [secondJourney] := by cbv
  simp [only]

theorem twoEvaluated : ((Skeleton.merge twoStops twoPullouts Skeleton.halfHour).map fun m =>
    ([7, 8].map fun p => ownStart (partitionOf m.rows "1" (some p)),
      (skeleton? (pulloutsOf (m.rows.filter (·.tripId = "1"))) secondJourney).map (·.map (·.pullout)),
      (join ⟨0⟩ m.rows secondBus []).events.map (·.row.pullout))).toOption =
    some ([some (.ofSeconds 43200), some (.ofSeconds 44400)], some [some 7, some 7], [some 7]) := by cbv

theorem twoMerged : ∃ m, Skeleton.merge twoStops twoPullouts Skeleton.halfHour = .ok m ∧
    ownStart (partitionOf m.rows "1" (some 7)) = some (.ofSeconds 43200) ∧
    ownStart (partitionOf m.rows "1" (some 8)) = some (.ofSeconds 44400) ∧
    (skeleton? (pulloutsOf (m.rows.filter (·.tripId = "1"))) secondJourney).map (·.map (·.pullout)) =
      some [some 7, some 7] ∧
    (join ⟨0⟩ m.rows secondBus []).events.map (·.row.pullout) = [some 7] := by
  have evaluated := twoEvaluated
  cases ok : Skeleton.merge twoStops twoPullouts Skeleton.halfHour with
  | error e => rw [ok] at evaluated; cases evaluated
  | ok m =>
    rw [ok] at evaluated
    simp only [Except.map, Except.toOption, Option.some.injEq, Prod.mk.injEq, List.map_cons, List.map_nil,
      List.cons.injEq, and_true] at evaluated
    obtain ⟨⟨seven, eight⟩, skeleton, events⟩ := evaluated
    exact ⟨m, rfl, seven, eight, skeleton, events⟩

theorem twoRuns {m : Skeleton.Merged} (ok : Skeleton.merge twoStops twoPullouts Skeleton.halfHour = .ok m) {p : Int} :
    Runs m.rows "1" p ↔ p = 7 ∨ p = 8 := by
  constructor
  · intro runs
    have known := Skeleton.filledKnown ok runs
    simpa [twoKeys] using known
  · intro own
    have known : ("1", some p) ∈ Skeleton.partitionKeys twoStops twoPullouts := by simpa [twoKeys] using own
    obtain ⟨r, first, _⟩ := (Skeleton.mergedPartition ok known).starts
    exact fun empty => by simp [empty] at first

theorem twoTimed {m : Skeleton.Merged} (ok : Skeleton.merge twoStops twoPullouts Skeleton.halfHour = .ok m)
    (seven : (ownStart (partitionOf m.rows "1" (some 7))).isSome)
    (eight : (ownStart (partitionOf m.rows "1" (some 8))).isSome) :
    ∀ p, Runs m.rows "1" p → ∃ r ∈ partitionOf m.rows "1" (some p), r.dispatched.isSome := by
  intro p runs
  rcases (twoRuns ok).mp runs with rfl | rfl
  · exact List.findSome?_isSome_iff.mp seven
  · exact List.findSome?_isSome_iff.mp eight

theorem attachedToFirstBus : ∃ m, Skeleton.merge twoStops twoPullouts Skeleton.halfHour = .ok m ∧
    GoesBy m.rows secondJourney 7 := by
  obtain ⟨m, ok, seven, eight, _⟩ := twoMerged
  have several : ∃ p q, p ≠ q ∧ Runs m.rows "1" p ∧ Runs m.rows "1" q :=
    ⟨7, 8, by decide, (twoRuns ok).mpr (.inl rfl), (twoRuns ok).mpr (.inr rfl)⟩
  have timed := twoTimed ok (by rw [seven]; rfl) (by rw [eight]; rfl)
  have earliest : secondJourney.firstSeen = some (.ofSeconds 44400) := by cbv
  have first := (attachedByCountedStart twoStops twoPullouts Skeleton.halfHour m ok ⟨0⟩ secondBus [] secondJourney secondKnown
    several timed (fun o member => by cases member) (.ofSeconds 44400) earliest).2.2.2.2
  refine ⟨m, ok, (first _ rfl rfl 7).mpr ⟨(twoRuns ok).mpr (.inl rfl), fun other runs => ?_⟩⟩
  rcases (twoRuns ok).mp runs with rfl | rfl <;> decide

/- The nearest start is the second bus's own, and the events are given to the first bus. -/
theorem attachedAgainstOwnStart : ∃ m, Skeleton.merge twoStops twoPullouts Skeleton.halfHour = .ok m ∧
    secondJourney ∈ ofObservations secondBus [] ∧ secondJourney.tm = [] ∧
    secondJourney.firstSeen = some (.ofSeconds 44400) ∧
    (∀ p, Runs m.rows secondJourney.tripId p ↔ p = 7 ∨ p = 8) ∧
    (∀ p, Runs m.rows secondJourney.tripId p →
      ∃ r ∈ partitionOf m.rows secondJourney.tripId (some p), r.dispatched.isSome) ∧
    Nearest m.rows secondJourney.tripId ownStart (.ofSeconds 44400) 8 ∧ ¬GoesBy m.rows secondJourney 8 ∧
    (join ⟨0⟩ m.rows secondBus []).events.map (·.row.pullout) = [some 7] := by
  obtain ⟨m, ok, seven, eight, skeleton, events⟩ := twoMerged
  refine ⟨m, ok, secondKnown, rfl, by cbv, fun p => twoRuns ok, twoTimed ok (by rw [seven]; rfl) (by rw [eight]; rfl),
    ⟨(twoRuns ok).mpr (.inr rfl), fun other runs a ha b hb => ?_⟩, fun goes => ?_, events⟩
  · cases ha.symm.trans eight
    rcases (twoRuns ok).mp runs with rfl | rfl
    · cases hb.symm.trans seven
      decide
    · exact .inr ⟨by rw [Option.some.inj (ha.symm.trans hb)], Int.le_refl _⟩
  · have numbers : (partitionOf m.rows "1" (some 8)).map (·.pullout) = [some 7, some 7] := by
      have chosen : skeleton? (pulloutsOf (m.rows.filter (·.tripId = "1"))) secondJourney =
        some (partitionOf m.rows "1" (some 8)) := goes
      rw [chosen] at skeleton
      exact Option.some.inj skeleton
    obtain ⟨r, member, seventh⟩ : ∃ r ∈ partitionOf m.rows "1" (some 8), r.pullout = some 7 :=
      List.mem_map.mp (by rw [numbers]; exact List.mem_cons_self)
    have own : (r.tripId, r.pullout) = ("1", some 8) := of_decide_eq_true (List.mem_filter.mp member).2
    have eighth : r.pullout = some 8 := (Prod.mk.inj own).2
    cases seventh.symm.trans eighth

end TwoPullouts

end TransitTimeline.Journey
