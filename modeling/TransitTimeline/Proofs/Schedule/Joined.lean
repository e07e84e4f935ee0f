import TransitTimeline.Proofs.Schedule.Accounts

/-! The rows that show both a planned stop and a pullout's stop. They are the matched pairs, in the order of both schedules. -/
namespace TransitTimeline.Skeleton
open Pairing (Matching)

def isJoined (r : SkeletonRow) : Bool := hasStop r && isPlanned r

theorem Kept.isJoined {r s : SkeletonRow} (kept : Kept r s) : isJoined r = isJoined s := by
  rw [Skeleton.isJoined, Skeleton.isJoined, kept.hasStop, kept.isPlanned]

def matchedPairs (pairings : List Pairing) : List (PlannedStop × PulloutStop) :=
  pairings.filterMap fun p => p.visit.map fun v => (v.stop, p.stop)

section Order
variable {planned : List PlannedStop} {pairings : List Pairing} {stops : List PulloutStop} {pullout : Int}

def placedPair (pullout : Int) (p : Pairing) (v : Visit) : Placed :=
  ⟨(some p.stop.sequence, some v.place), .ofStops (some v.stop) (some p.stop) (some pullout)⟩

theorem placedJoined (visits : List Visit) (pairings : List Pairing) (pullout : Int) :
    (placed visits pairings pullout).filter (isJoined ·.row) =
      pairings.filterMap fun p => p.visit.map (placedPair pullout p) := by
  have alone (rows : List (Visit × Option Int)) : (rows.map fun (x : Visit × Option Int) =>
      (⟨(x.2, some x.1.place), .ofStops (some x.1.stop) none (some pullout)⟩ : Placed)).filter (isJoined ·.row) = [] := by
    rw [List.filter_map]
    simp [isJoined, hasStop, SkeletonRow.ofStops]
  rw [placed, List.filter_append, alone, List.append_nil]
  induction pairings with
  | nil => rfl
  | cons p rest ih =>
    rw [List.map_cons, List.filterMap_cons, ← ih]
    cases taken : p.visit <;> rfl

theorem pairsOrdered (pullout : Int) {visits : List Visit} (forward : Pairing.Forward visits pairings) :
    (pairings.filterMap fun p => p.visit.map (placedPair pullout p)).Pairwise fun a b => (compare a.key b.key).isLE := by
  apply List.pairwise_filterMap.mpr
  apply (forward.places.and forward.sequences).imp
  intro p q both x hx y hy
  obtain ⟨u, takenU, rfl⟩ := Option.map_eq_some_iff.mp hx
  obtain ⟨v, takenV, rfl⟩ := Option.map_eq_some_iff.mp hy
  have places : (compare u.place v.place).isLE := Nat.isLE_compare.mpr (Nat.le_of_lt (both.1 u takenU v takenV))
  show (compare (some p.stop.sequence, some u.place) (some q.stop.sequence, some v.place)).isLE
  rw [comparePair, Ordering.isLE_then_iff_or]
  rcases Int.lt_or_eq_of_le both.2 with less | same
  · exact .inl (Int.compare_eq_lt.mpr less)
  · exact .inr ⟨Int.compare_eq_eq.mpr same, places⟩

theorem sortedPairs (pullout : Int) {visits : List Visit} (forward : Pairing.Forward visits pairings) :
    (sortOn (·.key) (placed visits pairings pullout)).filter (isJoined ·.row) =
      pairings.filterMap fun p => p.visit.map (placedPair pullout p) := by
  have ordered := pairsOrdered pullout forward
  rw [← placedJoined visits] at ordered ⊢
  exact sortOnFilter ordered

theorem orderJoined (w : Window) (pullout : Int) (planned : List PlannedStop)
    (sorted : stops.Pairwise fun a b => a.sequence ≤ b.sequence) :
    (mergedOrder w pullout planned stops).filter isJoined =
      (matchedPairs (Pairing.along w (Visit.ofStops planned) 0 stops)).map fun x =>
        .ofStops (some x.1) (some x.2) (some pullout) := by
  have forward : Pairing.Forward (Visit.ofStops planned) (Pairing.along w (Visit.ofStops planned) 0 stops) :=
    Pairing.alongForward sorted
  have kept := congrArg (List.map (·.row)) (sortedPairs pullout forward)
  rw [List.map_filterMap] at kept
  rw [mergedOrder, List.filter_map, matchedPairs, List.map_filterMap]
  apply kept.trans
  apply List.filterMap_congr
  intro p _
  cases p.visit <;> rfl

end Order

theorem finishJoined (rows : List SkeletonRow) :
    List.Forall₂ Kept (rows.filter isJoined) ((finish rows).rows.filter isJoined) := by
  have joined (rows : List SkeletonRow) : rows.filter isJoined = (rows.filter isPlanned).filter hasStop := by
    rw [List.filter_filter]
    rfl
  have finished := pairedFilter (finishKept rows) fun _ _ => Kept.isJoined
  rwa [joined, trimFilter, ← joined] at finished

structure Paired (planned : List PlannedStop) (stops : List PulloutStop) (tolerance pullout : Int) (m : Merged)
    (w : Window) (pairings : List Pairing) : Prop where
  around : w.Around tolerance (Departs stops)
  along : pairings.map (·.stop) = sortOn (·.sequence) stops
  matching : Matching planned w pairings
  alone : ∀ others, Matching planned w others → others.map (·.stop) = sortOn (·.sequence) stops → others = pairings
  timeless : ∀ t ∈ stops, t.departure = none → ∀ v u, Pairing.distance t v = Pairing.distance t u
  seconds : ∀ t ∈ stops, ∀ d ∈ t.departure, ∀ v : Visit, ∀ g ∈ v.stop.departure,
    Pairing.distance t v = (g.nanos - d.nanos).natAbs / 1000000000
  ambiguous : m.counts.ambiguous = pairings.countP (·.isAmbiguous)
  rows : List.Forall₂ (fun x r => Kept (.ofStops (some x.1) (some x.2) (some pullout)) r) (matchedPairs pairings)
    (m.rows.filter isJoined)

theorem pulloutPaired (planned : List PlannedStop) (stops : List PulloutStop) (tolerance pullout : Int) (trip : String)
    (m : Merged) (ok : mergePullout tolerance trip pullout planned (sortOn (·.sequence) stops) = .ok m) :
    ∃ w pairings, Paired planned stops tolerance pullout m w pairings := by
  obtain ⟨w, window, rows, counts⟩ := pulloutOrder ok
  have around := Window.ofPulloutReturns window
  rw [departsSorted] at around
  have matching := Pairing.alongMatching planned w (sortOn (·.sequence) stops)
  have along := Pairing.alongStops w (Visit.ofStops planned) 0 (sortOn (·.sequence) stops)
  have joined := finishJoined (mergedOrder w pullout planned (sortOn (·.sequence) stops))
  rw [orderJoined w pullout planned (stopsSorted stops), ← rows] at joined
  have only : ∀ others, Matching planned w others → others.map (·.stop) = sortOn (·.sequence) stops →
      others = Pairing.along w (Visit.ofStops planned) 0 (sortOn (·.sequence) stops) := by
    intro others also same
    exact also.unique matching (same.trans along.symm)
  refine ⟨w, _, around, along, matching, only, ?_, ?_, ?_, List.forall₂_map_left_iff.mp joined⟩
  · intro t _ timeless
    exact Pairing.distanceTimeless timeless
  · intro t _ d departs v g plans
    exact Pairing.distanceSeconds departs plans
  · rw [counts]
    exact Nat.zero_add _

/- Stop x is planned five minutes before and five minutes after the pullout passes it; the nearer sequence decides. -/
theorem pulloutPairedTied :
    let planned : List PlannedStop := [("a", 1, 0), ("x", 2, 300), ("x", 3, 900)].map
      fun (stopId, sequence, seconds) => { tripId := "1", stopId, sequence, departure := some (.ofSeconds seconds) }
    let stops : List PulloutStop := [("x", 3, 600), ("a", 1, 0)].map
      fun (stopId, sequence, seconds) => { tripId := "1", pullout := 7, stopId, sequence, departure := some (.ofSeconds seconds) }
    ∃ m w pairings, mergePullout halfHour "1" 7 planned (sortOn (·.sequence) stops) = .ok m ∧
      Paired planned stops halfHour 7 m w pairings ∧ pairings.countP (·.isAmbiguous) = 1 ∧
      m.rows.map (fun r => (r.gtfsSequence, r.tmSequence)) = [(some 1, some 1), (some 2, none), (some 3, some 3)] := by
  intro planned stops
  have counted : ((mergePullout halfHour "1" 7 planned (sortOn (·.sequence) stops)).map fun m =>
      (m.counts.ambiguous, m.rows.map fun r => (r.gtfsSequence, r.tmSequence))) =
        .ok (1, [(some 1, some 1), (some 2, none), (some 3, some 3)]) := by cbv
  cases ok : mergePullout halfHour "1" 7 planned (sortOn (·.sequence) stops) with
  | error e => rw [ok] at counted; cases counted
  | ok m =>
    obtain ⟨w, pairings, paired⟩ := pulloutPaired planned stops halfHour 7 "1" m ok
    rw [ok] at counted
    obtain ⟨once, rows⟩ := Prod.mk.inj (Except.ok.inj counted)
    exact ⟨m, w, pairings, rfl, paired, paired.ambiguous.symm.trans once, rows⟩

end TransitTimeline.Skeleton
