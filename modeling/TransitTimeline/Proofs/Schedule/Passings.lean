import TransitTimeline.Proofs.Firsts
import TransitTimeline.Proofs.Repeats
import TransitTimeline.Proofs.Schedule.Reordered

/-! What the passings of a date come to. Trips of the dispatch may share a serial number, so passings of different trips may come
to one position of one pullout; the schedule has one stop there, made of the first of them. There is a schedule as long as no
time of a passing that the tables know lies beyond the calendar. -/
namespace TransitTimeline.PulloutStop
open Std

/- The trip of a passing, its position on the pattern of the trip and the node that stands there; where a table repeats an id,
the last row counts. -/
structure Named (t : Tm.Tables) (p : Tm.Passing) (trip : Tm.Trip) (position : Tm.PatternNode) (node : Tm.GeoNode) : Prop where
  ofTrip : First (·.tripId = p.tripId) t.trips.reverse trip
  onPattern : First (fun n => n.patternId = trip.patternId ∧ n.sequence = p.sequence) t.patternNodes.reverse position
  atNode : First (·.nodeId = position.nodeId) t.nodes.reverse node

def Known (t : Tm.Tables) (p : Tm.Passing) : Prop := ∃ trip position node, Named t p trip position node

def ComesTo (t : Tm.Tables) (k : String × Int × Int) (p : Tm.Passing) : Prop :=
  ∃ trip position node, Named t p trip position node ∧
    (TripId.canonicalOf (toString trip.serial), p.pulloutId, p.sequence) = k

structure Translates (date : Day) (z : Zone) (t : Tm.Tables) (p : Tm.Passing) (r : PulloutStop) : Prop where
  named : ∃ trip position node, Named t p trip position node ∧ r.tripId = TripId.canonicalOf (toString trip.serial) ∧
    r.stopId = node.abbreviation ∧ r.patternId = trip.patternId ∧
    ∃ point, LastOf (fun q => some q.timePointId = position.timePointId) t.timePoints point ∧
      r.timepoint = ⟨position.timePointId, point.map (·.abbreviation), point.bind (·.name)⟩
  work : ∃ work, LastOf (·.pulloutId = p.pulloutId) t.workPieces work ∧ r.blockId = work.bind (·.blockId) ∧
    r.runId = work.bind (·.runId)
  pullout : r.pullout = p.pulloutId
  sequence : r.sequence = p.sequence
  departure : timeOf date z p.scheduled = .ok r.departure

def Fits (date : Day) (z : Zone) (p : Tm.Passing) : Prop := ∀ s, p.scheduled = some s → ServiceTime.Reaches date s z

structure Scheduled (date : Day) (z : Zone) (t : Tm.Tables) (stops : List PulloutStop) : Prop where
  ascending : (stops.map key).Pairwise fun a b => compare a b = .lt
  keys : ∀ k, (∃ r ∈ stops, r.key = k) ↔ ∃ p ∈ t.passings, ComesTo t k p
  first : ∀ r ∈ stops, ∃ p, First (ComesTo t r.key) t.passings p ∧ Translates date z t p r

section Passing
variable {date : Day} {z : Zone} {t : Tm.Tables} {p : Tm.Passing} {trip : Tm.Trip} {position : Tm.PatternNode}
  {node : Tm.GeoNode} {r : PulloutStop}

theorem resolvedExactly :
    (Lookup.ofTables t).resolve p = some (trip, position, node) ↔ Named t p trip position node := by
  simp only [Lookup.resolve, Lookup.ofTables, bind, Option.bind_eq_some_iff, Index.foundLast, pure, Option.some.injEq,
    Prod.mk.injEq]
  constructor
  · rintro ⟨_, ofTrip, _, onPattern, _, atNode, rfl, rfl, rfl⟩
    exact ⟨ofTrip, onPattern, atNode⟩
  · intro named
    exact ⟨trip, named.ofTrip, position, named.onPattern, node, named.atNode, rfl, rfl, rfl⟩

def pointOf (t : Tm.Tables) (position : Tm.PatternNode) : Option Tm.TimePoint :=
  position.timePointId.bind (Lookup.ofTables t).timePoints.find?

theorem pointLast (t : Tm.Tables) (position : Tm.PatternNode) :
    LastOf (fun q => some q.timePointId = position.timePointId) t.timePoints (pointOf t position) := by
  intro q
  unfold pointOf
  cases position.timePointId with
  | none => exact ⟨nofun, fun first => nomatch first.mem.2⟩
  | some id =>
    simp only [Option.bind_some, Option.some.injEq]
    exact Index.foundLast

theorem workLast (t : Tm.Tables) (p : Tm.Passing) :
    LastOf (·.pulloutId = p.pulloutId) t.workPieces ((Lookup.ofTables t).workPieces.find? p.pulloutId) :=
  fun _ => Index.foundLast

def made (t : Tm.Tables) (p : Tm.Passing) (trip : Tm.Trip) (position : Tm.PatternNode) (node : Tm.GeoNode)
    (departure : Option Instant) : PulloutStop where
  tripId := TripId.canonicalOf (toString trip.serial)
  pullout := p.pulloutId
  stopId := node.abbreviation
  sequence := p.sequence
  patternId := trip.patternId
  timepoint := ⟨position.timePointId, (pointOf t position).map (·.abbreviation), (pointOf t position).bind (·.name)⟩
  blockId := ((Lookup.ofTables t).workPieces.find? p.pulloutId).bind (·.blockId)
  runId := ((Lookup.ofTables t).workPieces.find? p.pulloutId).bind (·.runId)
  departure

theorem passingUnknown (unknown : ¬Known t p) : ofPassing date z (.ofTables t) p = .ok none := by
  unfold ofPassing
  cases resolved : (Lookup.ofTables t).resolve p with
  | none => rfl
  | some found =>
    obtain ⟨trip, position, node⟩ := found
    exact absurd ⟨trip, position, node, resolvedExactly.mp resolved⟩ unknown

theorem passingKnown (named : Named t p trip position node) : ofPassing date z (.ofTables t) p = do
    let departure ← timeOf date z p.scheduled
    return some (made t p trip position node departure) := by
  rw [ofPassing, resolvedExactly.mpr named]
  rfl

theorem timeReturns {seconds : Option Int} :
    (∃ time, timeOf date z seconds = .ok time) ↔ ∀ s, seconds = some s → ServiceTime.Reaches date s z := by
  cases seconds with
  | none => simp [timeOf]
  | some s => simpa [timeOf] using ServiceTime.dispatchedReturns

theorem passingReturns : (∃ r, ofPassing date z (.ofTables t) p = .ok r) ↔ (Known t p → Fits date z p) := by
  by_cases known : Known t p
  · obtain ⟨trip, position, node, named⟩ := known
    rw [passingKnown named]
    constructor
    · rintro ⟨r, ok⟩ -
      obtain ⟨departure, time, _⟩ := okBind ok
      exact timeReturns.mp ⟨departure, time⟩
    · intro fits
      obtain ⟨departure, time⟩ := timeReturns.mpr (fits ⟨trip, position, node, named⟩)
      rw [time]
      exact ⟨_, rfl⟩
  · simp [passingUnknown known, known]

theorem translatesExactly : ofPassing date z (.ofTables t) p = .ok (some r) ↔ Translates date z t p r := by
  constructor
  · intro ok
    by_cases known : Known t p
    · obtain ⟨trip, position, node, named⟩ := known
      rw [passingKnown named] at ok
      obtain ⟨departure, time, ok⟩ := okBind ok
      cases Except.ok.inj ok
      exact ⟨⟨trip, position, node, named, rfl, rfl, rfl, _, pointLast t position, rfl⟩, ⟨_, workLast t p, rfl, rfl⟩, rfl, rfl,
        time⟩
    · rw [passingUnknown known] at ok
      cases ok
  · intro translates
    obtain ⟨trip, position, node, named, tripId, stopId, patternId, point, last, timepoint⟩ := translates.named
    obtain ⟨work, of, blockId, runId⟩ := translates.work
    have same : made t p trip position node r.departure = r := by
      rw [made, (pointLast t position).unique last, (workLast t p).unique of, ← tripId, ← stopId, ← patternId, ← timepoint,
        ← blockId, ← runId, ← translates.pullout, ← translates.sequence]
    rw [passingKnown named, translates.departure]
    simp only [bind, Except.bind, pure, Except.pure, same]

theorem Translates.comes (translates : Translates date z t p r) : ComesTo t r.key p := by
  obtain ⟨trip, position, node, named, tripId, _⟩ := translates.named
  refine ⟨trip, position, node, named, ?_⟩
  rw [key, tripId, translates.pullout, translates.sequence]

theorem ComesTo.known {k : String × Int × Int} (comes : ComesTo t k p) : Known t p := by
  obtain ⟨trip, position, node, named, _⟩ := comes
  exact ⟨trip, position, node, named⟩

theorem ComesTo.translates {k : String × Int × Int} (comes : ComesTo t k p) (fits : Fits date z p) :
    ∃ r, Translates date z t p r ∧ r.key = k := by
  obtain ⟨trip, position, node, named, own⟩ := comes
  obtain ⟨departure, time⟩ := timeReturns.mpr fits
  refine ⟨made t p trip position node departure, translatesExactly.mp ?_, own⟩
  rw [passingKnown named, time]
  rfl

end Passing

section Passings
variable {date : Day} {z : Zone} {t : Tm.Tables} {rows : List PulloutStop}

theorem inOrderAscends (rows : List PulloutStop) : (inOrder rows).Pairwise fun a b => compare a.key b.key = .lt := by
  refine repeatsAscend (fun le other => ?_) (fun less le => TransCmp.lt_of_lt_of_isLE less le) (sortOnSorted key rows)
  exact lessOfDifferent le (of_decide_eq_false other)

theorem inOrderKey {r : PulloutStop} (member : r ∈ rows) : ∃ s ∈ inOrder rows, s.key = r.key := by
  have sorted : r ∈ sortOn key rows := memSortOn.mpr member
  have stands : ∃ s ∈ inOrder rows, s = r ∨ decide (s.key = r.key) := repeatsKept sorted
  obtain ⟨s, kept, own⟩ := stands
  refine ⟨s, kept, ?_⟩
  rcases own with rfl | tie
  · rfl
  · exact of_decide_eq_true tie

theorem inOrderFirst {r : PulloutStop} (member : r ∈ inOrder rows) : First (fun s => s.key = r.key) rows r := by
  have apart : (inOrder rows).Pairwise fun a b => a.key ≠ b.key :=
    (inOrderAscends rows).imp fun {a b} less same => by simp [same] at less
  have found := repeatsFirst apart member
  rw [sortOnFind, firstFound] at found
  exact found.imp fun s _ => decide_eq_true_iff

def translation (date : Day) (z : Zone) (t : Tm.Tables) (p : Tm.Passing) : Option PulloutStop :=
  (ofPassing date z (.ofTables t) p).toOption.join

theorem translationExactly {p : Tm.Passing} {r : PulloutStop} : translation date z t p = some r ↔ Translates date z t p r := by
  rw [← translatesExactly, translation]
  cases ofPassing date z (.ofTables t) p <;> simp [Except.toOption]

theorem ofTablesTranslations {stops : List PulloutStop} (ok : ofTables date z t = .ok stops) :
    stops = inOrder (t.passings.filterMap (translation date z t)) := by
  obtain ⟨each, mapped, ok⟩ := okBind ok
  rw [← Except.ok.inj ok, mapMFilter mapped]
  rfl

theorem inOrderScheduled (fits : ∀ p ∈ t.passings, Known t p → Fits date z p) :
    Scheduled date z t (inOrder (t.passings.filterMap (translation date z t))) where
  ascending := List.pairwise_map.mpr (inOrderAscends _)
  keys := by
    intro k
    constructor
    · rintro ⟨r, member, rfl⟩
      obtain ⟨p, listed, read⟩ := List.mem_filterMap.mp (inOrderFirst member).mem.1
      exact ⟨p, listed, (translationExactly.mp read).comes⟩
    · rintro ⟨p, listed, comes⟩
      obtain ⟨r, translates, rfl⟩ := comes.translates (fits p listed comes.known)
      exact inOrderKey (List.mem_filterMap.mpr ⟨p, listed, translationExactly.mpr translates⟩)
  first := by
    intro r member
    obtain ⟨p, first, read⟩ := (inOrderFirst member).source
    refine ⟨p, first.imp fun q listed => ?_, translationExactly.mp read⟩
    constructor
    · rintro ⟨s, known, same⟩
      exact same ▸ (translationExactly.mp known).comes
    · intro comes
      obtain ⟨s, translates, same⟩ := comes.translates (fits q listed comes.known)
      exact ⟨s, translationExactly.mpr translates, same⟩

theorem ofTablesReturns : (∃ stops, ofTables date z t = .ok stops) ↔ ∀ p ∈ t.passings, Known t p → Fits date z p := by
  rw [ofTables, pureReturns, mapMReturns]
  exact forall₂_congr fun _ _ => passingReturns

theorem ofTablesOnly (date : Day) (z : Zone) (t : Tm.Tables) : OnlyOutOfRange (ofTables date z t) := by
  intro e failed
  obtain ⟨p, _, own⟩ := mapMFails (pureFails.mp failed)
  exact ofPassingOnly date z (.ofTables t) p e own

theorem passingsScheduled (date : Day) (z : Zone) (t : Tm.Tables) :
    ((∀ p ∈ t.passings, Known t p → Fits date z p) → ∃ stops, ofTables date z t = .ok stops ∧ Scheduled date z t stops) ∧
    ((∃ p ∈ t.passings, Known t p ∧ ¬Fits date z p) → ofTables date z t = .error .outOfRange) := by
  constructor
  · intro fits
    obtain ⟨stops, ok⟩ := ofTablesReturns.mpr fits
    rw [ok, ofTablesTranslations ok]
    exact ⟨_, rfl, inOrderScheduled fits⟩
  · rintro ⟨p, listed, known, beyond⟩
    cases result : ofTables date z t with
    | ok stops => exact absurd (ofTablesReturns.mp ⟨stops, result⟩ p listed known) beyond
    | error e => rw [ofTablesOnly date z t e result]

/- Two trips of the dispatch with one serial number. The row of trip 2 that counts is the later one, which puts it on another
pattern than trip 1. -/
section Shared

def sharedTables (passings : List Tm.Passing) : Tm.Tables where
  nodes := [{ nodeId := 1, abbreviation := "a" }, { nodeId := 2, abbreviation := "b" }]
  trips := [{ tripId := 1, serial := 5, patternId := 1 }, { tripId := 2, serial := 5, patternId := 1 },
    { tripId := 2, serial := 5, patternId := 2 }]
  patternNodes := [{ patternId := 1, sequence := 1, nodeId := 1 },
    { patternId := 2, sequence := 1, nodeId := 2, timePointId := some 4 },
    { patternId := 2, sequence := 2, nodeId := 1, timePointId := some 9 }]
  timePoints := [{ timePointId := 4, abbreviation := "FRST" }]
  workPieces := [{ pulloutId := 7, blockId := some "B9" }]
  passings

def passing (tripId sequence : Int) (scheduled : Option Int) : Tm.Passing := { pulloutId := 7, tripId, sequence, scheduled }

def sharedStops : List PulloutStop :=
  [{ tripId := "5", pullout := 7, stopId := "b", sequence := 1, patternId := 2, timepoint := ⟨some 4, some "FRST", none⟩,
     blockId := some "B9", departure := some (.ofSeconds 60) },
   { tripId := "5", pullout := 7, stopId := "a", sequence := 2, patternId := 2, timepoint := ⟨some 9, none, none⟩,
     blockId := some "B9", departure := some (.ofSeconds 120) }]

def sharedPassings : List Tm.Passing :=
  [passing 2 2 (some 120), passing 2 1 (some 60), passing 1 1 (some 0), passing 3 1 (some 10000000000000)]

theorem sharedEvaluated : ofTables ⟨0⟩ ⟨"", 0, []⟩ (sharedTables sharedPassings) = .ok sharedStops := by
  cbv

theorem passingsScheduledShared :
    (∀ p ∈ (sharedTables sharedPassings).passings, Known (sharedTables sharedPassings) p → Fits ⟨0⟩ ⟨"", 0, []⟩ p) ∧
      Scheduled ⟨0⟩ ⟨"", 0, []⟩ (sharedTables sharedPassings) sharedStops := by
  have fits := ofTablesReturns.mp ⟨_, sharedEvaluated⟩
  obtain ⟨stops, ok, scheduled⟩ := (passingsScheduled ⟨0⟩ ⟨"", 0, []⟩ (sharedTables sharedPassings)).1 fits
  obtain rfl := Except.ok.inj (ok.symm.trans sharedEvaluated)
  exact ⟨fits, scheduled⟩

/- The second passing comes to the position of the first and would be left out, but its time is beyond the calendar. -/
theorem passingBeyondCalendar :
    let passings := [passing 1 1 (some 60), passing 1 1 (some 10000000000000)]
    let t := sharedTables passings
    First (ComesTo t ("5", 7, 1)) t.passings (passing 1 1 (some 60)) ∧
      timeOf ⟨0⟩ ⟨"", 0, []⟩ (passing 1 1 (some 60)).scheduled = .ok (some (.ofSeconds 60)) ∧
      ofTables ⟨0⟩ ⟨"", 0, []⟩ t = .error .outOfRange := by
  intro passings t
  have resolved : (Lookup.ofTables t).resolve (passing 1 1 (some 60)) =
      some (⟨1, 5, 1, none⟩, ⟨1, 1, 1, none⟩, ⟨1, "a", none⟩) := by cbv
  refine ⟨⟨[], [passing 1 1 (some 10000000000000)], rfl, ⟨_, _, _, resolvedExactly.mp resolved, by cbv⟩, by simp⟩, by cbv, by cbv⟩

end Shared

end Passings

end TransitTimeline.PulloutStop
