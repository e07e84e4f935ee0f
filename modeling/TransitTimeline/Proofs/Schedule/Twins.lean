import TransitTimeline.Proofs.Schedule.Behind
import TransitTimeline.Proofs.Schedule.Joined
import TransitTimeline.Proofs.Schedule.Refusal

/-! Schedules that agree. Where each planned visit has a twin among the pullout's stops, in order and at the same time, and
the pullout's other stops are not on the trip, every stop takes its own twin and no other visit. -/
namespace TransitTimeline

/- The planned visits among the stops of a pullout, each paired with its twin, and the stops besides them. -/
inductive Embedded (trip : List PlannedStop) :
    List PlannedStop → List PulloutStop → List (PlannedStop × PulloutStop) → List PulloutStop → Prop
  | done : Embedded trip [] [] [] []
  | twin {g t d visits stops twins others} (sameStop : t.stopId = g.stopId) (plans : g.departure = some d)
      (departs : t.departure = some d) (next : Embedded trip visits stops twins others) :
      Embedded trip (g :: visits) (t :: stops) ((g, t) :: twins) others
  | other {t visits stops twins others} (unserved : ∀ g ∈ trip, g.stopId ≠ t.stopId)
      (next : Embedded trip visits stops twins others) : Embedded trip visits (t :: stops) twins (t :: others)

namespace Embedded
variable {trip visits : List PlannedStop} {stops others : List PulloutStop} {twins : List (PlannedStop × PulloutStop)}

theorem visitsOf (embedded : Embedded trip visits stops twins others) : twins.map Prod.fst = visits := by
  induction embedded with
  | done => rfl
  | twin _ _ _ _ ih => rw [List.map_cons, ih]
  | other _ _ ih => exact ih

theorem othersOf (embedded : Embedded trip visits stops twins others) : others.Sublist stops := by
  induction embedded with
  | done => exact .slnil
  | twin _ _ _ _ ih => exact ih.cons _
  | other _ _ ih => exact ih.cons_cons _

theorem twinOf (embedded : Embedded trip visits stops twins others) {x : PlannedStop × PulloutStop} (member : x ∈ twins) :
    x.2 ∈ stops ∧ x.2.stopId = x.1.stopId ∧ ∃ d, x.1.departure = some d ∧ x.2.departure = some d := by
  induction embedded with
  | done => cases member
  | @twin g t d _ _ _ _ sameStop plans departs _ ih =>
    rcases List.mem_cons.mp member with rfl | inside
    · exact ⟨List.mem_cons_self, sameStop, d, plans, departs⟩
    · obtain ⟨known, both⟩ := ih inside
      exact ⟨List.mem_cons_of_mem _ known, both⟩
  | other _ _ ih =>
    obtain ⟨known, both⟩ := ih member
    exact ⟨List.mem_cons_of_mem _ known, both⟩

theorem departs (embedded : Embedded trip visits stops twins others) {g : PlannedStop} (member : g ∈ visits) :
    ∃ d, g.departure = some d ∧ Departs stops d := by
  rw [← embedded.visitsOf] at member
  obtain ⟨x, inside, rfl⟩ := List.mem_map.mp member
  obtain ⟨known, _, d, plans, departs⟩ := embedded.twinOf inside
  exact ⟨d, plans, x.2, known, departs⟩

end Embedded

def SecondsApart (planned : List PlannedStop) : Prop := planned.Pairwise fun g h => g.stopId = h.stopId →
  ∀ d ∈ g.departure, ∀ e ∈ h.departure, 1000000000 ≤ (d.nanos - e.nanos).natAbs

instance (planned : List PlannedStop) : Decidable (SecondsApart planned) := by
  unfold SecondsApart; infer_instance

structure Consistent (planned : List PlannedStop) (stops : List PulloutStop) (twins : List (PlannedStop × PulloutStop))
    (others : List PulloutStop) : Prop where
  embedded : Embedded planned planned stops twins others
  apart : SecondsApart planned

theorem Consistent.inside {planned : List PlannedStop} {stops others : List PulloutStop}
    {twins : List (PlannedStop × PulloutStop)} (consistent : Consistent planned stops twins others) {w : Window}
    {tolerance : Int} (around : w.Around tolerance (Departs stops)) (nonneg : 0 ≤ tolerance) :
    ∀ g ∈ planned, w.Holds g := by
  intro g member
  obtain ⟨d, plans, departs⟩ := consistent.embedded.departs member
  obtain ⟨⟨first, _, least, start⟩, last, _, greatest, finish⟩ := around
  refine ⟨d, plans, ?_, ?_⟩
  · have below : first.nanos ≤ d.nanos := least d departs
    rw [start]
    show first.nanos + -tolerance ≤ d.nanos
    omega
  · have above : d.nanos ≤ last.nanos := greatest d departs
    rw [finish]
    show d.nanos ≤ last.nanos + tolerance
    omega

namespace Pairing
variable {planned : List PlannedStop} {w : Window} {n : Nat} {t : PulloutStop}

theorem chooseOther (w : Window) (n : Nat) (unserved : ∀ g ∈ planned, g.stopId ≠ t.stopId) :
    choose w (Visit.ofStops planned) n t = ⟨t, none, false⟩ := by
  have none : eligible w (Visit.ofStops planned) n t = [] := by
    apply List.eq_nil_iff_forall_not_mem.mpr
    intro v member
    obtain ⟨known, _, _, same⟩ := memEligible.mp member
    exact unserved v.stop (List.mem_of_getElem? (Visit.memOfStops.mp known)) same
  simp [choose, none, sortOn, keyed]

theorem chooseTwin {g : PlannedStop} {d : Instant} (inside : ∀ g ∈ planned, w.Holds g) (apart : SecondsApart planned)
    (here : planned[n]? = some g) (sameStop : t.stopId = g.stopId) (plans : g.departure = some d)
    (departs : t.departure = some d) : choose w (Visit.ofStops planned) n t = ⟨t, some ⟨g, n⟩, false⟩ := by
  have own : (⟨g, n⟩ : Visit) ∈ eligible w (Visit.ofStops planned) n t :=
    memEligible.mpr ⟨Visit.memOfStops.mpr here, Nat.le_refl n, inside g (List.mem_of_getElem? here), sameStop.symm⟩
  have near : distance t ⟨g, n⟩ = 0 := by
    rw [distanceSeconds departs plans]
    simp
  have only : ∀ v ∈ eligible w (Visit.ofStops planned) n t, distance t v = 0 → v = ⟨g, n⟩ := by
    intro v member zero
    obtain ⟨known, ahead, ⟨e, other, _⟩, stop⟩ := memEligible.mp member
    rw [distanceSeconds departs other] at zero
    have there := Visit.memOfStops.mp known
    rcases Nat.eq_or_lt_of_le ahead with same | later
    · rw [← same, here] at there
      cases v
      cases same
      cases there
      rfl
    · obtain ⟨insideN, atN⟩ := List.getElem?_eq_some_iff.mp here
      obtain ⟨insideV, atV⟩ := List.getElem?_eq_some_iff.mp there
      have far := List.pairwise_iff_getElem.mp apart n v.place insideN insideV later
      rw [atN, atV] at far
      have second := far (sameStop.symm.trans stop.symm) d plans e other
      omega
  have chosen : Chosen (· ∈ eligible w (Visit.ofStops planned) n t) (choose w (Visit.ofStops planned) n t) :=
    choosesNearest (Visit.ofStopsOrdered planned)
  have stop := chooseStop w (Visit.ofStops planned) n t
  generalize choose w (Visit.ofStops planned) n t = p at chosen stop
  obtain ⟨_, visit, isAmbiguous⟩ := p
  cases stop
  obtain ⟨v, taken⟩ := Option.isSome_iff_exists.mp (chosen.matched.mpr ⟨_, own⟩)
  cases taken
  obtain ⟨member, nearest⟩ := chosen.nearest v rfl
  have le := (nearest _ own).distances
  rw [only v member (by omega)]
  have clear : isAmbiguous = false := by
    apply Bool.eq_false_iff.mpr
    intro tie
    obtain ⟨u, x, differ, memberU, memberX, same, least⟩ := chosen.ambiguous.mp tie
    have below := least _ own
    exact differ ((only u memberU (by omega)).trans (only x memberX (by omega)).symm)
  rw [clear]

structure Twinned (planned : List PlannedStop) (n : Nat) (twins : List (PlannedStop × PulloutStop))
    (others : List PulloutStop) (pairings : List Pairing) : Prop where
  pairs : Skeleton.matchedPairs pairings = twins
  alone : (pairings.filter (·.visit.isNone)).map (·.stop) = others
  clear : pairings.countP (·.isAmbiguous) = 0
  visits : pairings.filterMap (·.visit) = (Visit.ofStops planned).drop n

/- Nothing that is taken on the way is the twin of a later stop. -/
theorem alongTwinned {visits : List PlannedStop} {stops others : List PulloutStop} {twins : List (PlannedStop × PulloutStop)}
    (inside : ∀ g ∈ planned, w.Holds g) (apart : SecondsApart planned)
    (embedded : Embedded planned visits stops twins others) (ahead : planned.drop n = visits) :
    Twinned planned n twins others (along w (Visit.ofStops planned) n stops) := by
  induction embedded generalizing n with
  | done =>
    constructor
    case visits =>
      have all : planned.length ≤ n := List.drop_eq_nil_iff.mp ahead
      simp [along, Visit.ofStops, all]
    all_goals rfl
  | @twin g t d visits stops twins others sameStop plans departs _ ih =>
    have here : planned[n]? = some g := by
      rw [← List.head?_drop, ahead]
      rfl
    have rest : planned.drop (n + 1) = visits := by
      rw [← List.tail_drop, ahead]
      rfl
    have later := ih rest
    rw [alongStep, chooseTwin inside apart here sameStop plans departs]
    show Twinned planned n _ _ (⟨t, some ⟨g, n⟩, false⟩ :: along w (Visit.ofStops planned) (n + 1) stops)
    have visit : (Visit.ofStops planned)[n]? = some ⟨g, n⟩ := by
      rw [Visit.ofStopsAt, here]
      rfl
    obtain ⟨bound, own⟩ := List.getElem?_eq_some_iff.mp visit
    constructor
    · rw [Skeleton.matchedPairs, List.filterMap_cons]
      exact congrArg ((g, t) :: ·) later.pairs
    · simpa using later.alone
    · simpa using later.clear
    · rw [List.filterMap_cons, List.drop_eq_getElem_cons bound, own]
      exact congrArg (⟨g, n⟩ :: ·) later.visits
  | @other t _ stops _ _ unserved _ ih =>
    have later := ih ahead
    rw [alongStep, chooseOther w n unserved]
    show Twinned planned n _ _ (⟨t, none, false⟩ :: along w (Visit.ofStops planned) n stops)
    constructor
    · exact later.pairs
    · exact congrArg (t :: ·) later.alone
    · simpa using later.clear
    · exact later.visits

end Pairing

namespace Skeleton
open Pairing (Forward Twinned)
open Std

theorem Kept.provenance {r s : SkeletonRow} (kept : Kept r s) : s.provenance = r.provenance := by
  rw [kept.rest]

theorem Kept.showsStop {r s : SkeletonRow} {t : PulloutStop} (kept : Kept r s) (shows : r.ShowsStop t) : s.ShowsStop t := by
  rw [kept.rest]
  exact { shows with facts := shows.facts.trans kept.facts }

theorem trimParts {ρ κ : Type} [Ord κ] [TransOrd κ] [LawfulEqOrd κ] {key : ρ → κ} {p : ρ → Bool} {rows rest : List ρ} {y : ρ}
    (sorted : rows.Pairwise fun a b => (compare (key a) (key b)).isLE)
    (apart : ∀ a ∈ rows, ∀ b ∈ rows, p a → p b = false → key a ≠ key b) (first : rows.filter p = y :: rest) :
    (trim p rows).filter (fun x => !p x) = (rows.filter fun x => !p x).filter fun x => compare (key y) (key x) = .lt := by
  have member : y ∈ rows.filter p := by
    rw [first]
    exact List.mem_cons_self
  obtain ⟨inside, own⟩ := List.mem_filter.mp member
  obtain ⟨lead, split, without, z, head, also⟩ := trimSplit ⟨y, inside, own⟩
  obtain ⟨later, shape⟩ := List.head?_eq_some_iff.mp head
  rw [shape] at split ⊢
  have nothing : lead.filter p = [] := by
    apply List.filter_eq_nil_iff.mpr
    intro x early
    simp [without x early]
  have same : z = y := by
    rw [split, List.filter_append, nothing, List.filter_cons_of_pos also] at first
    exact (List.cons.inj first).1
  cases same
  rw [split] at sorted apart ⊢
  obtain ⟨_, behind, before⟩ := List.pairwise_append.mp sorted
  have early : (lead.filter fun x => !p x).filter (fun x => compare (key y) (key x) = .lt) = [] := by
    apply List.filter_eq_nil_iff.mpr
    intro x listed less
    have le := before x (List.mem_of_mem_filter listed) y List.mem_cons_self
    have swap : compare (key x) (key y) = (compare (key y) (key x)).swap := OrientedCmp.eq_swap
    rw [swap, of_decide_eq_true less] at le
    cases le
  have late : ((y :: later).filter fun x => !p x).filter (fun x => compare (key y) (key x) = .lt) =
      (y :: later).filter fun x => !p x := by
    apply List.filter_eq_self.mpr
    intro x listed
    obtain ⟨listed, without⟩ := List.mem_filter.mp listed
    have differ := apart y (by simp) x (List.mem_append_right _ listed) own (by simpa using without)
    rcases List.mem_cons.mp listed with same | listed
    · exact absurd (congrArg key same.symm) differ
    · exact decide_eq_true (lessOfDifferent ((List.pairwise_cons.mp behind).1 x listed) differ)
  rw [List.filter_append, List.filter_append, early, late, List.nil_append]

/- The rows of agreeing schedules. Each visit is joined with its twin; the other stops stand by themselves, those that do
not pass behind the first twin trimmed. -/
structure ShowsTwins (twins : List (PlannedStop × PulloutStop)) (others : List PulloutStop) (rows : List SkeletonRow) :
    Prop where
  joined : List.Forall₂ (fun x r => r.provenance = .join ∧ r.Shows x.1 ∧ r.ShowsStop x.2) twins (rows.filter isPlanned)
  timepoints : ∀ first ∈ twins.head?, List.Forall₂ (fun t r => r.provenance = .tm ∧ r.ShowsStop t)
    (others.filter fun t => first.2.sequence < t.sequence) (rows.filter fun r => !isPlanned r)

section Placed
variable {planned : List PlannedStop} {stops others : List PulloutStop} {twins : List (PlannedStop × PulloutStop)}
  {pairings : List Pairing} {pullout : Int}

def placedOther (pullout : Int) (t : PulloutStop) : Placed :=
  ⟨(some t.sequence, none), .ofStops none (some t) (some pullout)⟩

theorem placedTwinned (pullout : Int) (forward : Forward (Visit.ofStops planned) pairings)
    (twinned : Twinned planned 0 twins others pairings) : placed (Visit.ofStops planned) pairings pullout =
      pairings.map fun p => ⟨(some p.stop.sequence, p.visit.map (·.place)),
        .ofStops (p.visit.map (·.stop)) (some p.stop) (some pullout)⟩ := by
  have none : ((Visit.ofStops planned).zip (Column.fill ((Visit.ofStops planned).map (takenAt pairings)))).filter
      (fun x => (takenAt pairings x.1).isNone) = [] := by
    apply List.filter_eq_nil_iff.mpr
    intro x member
    have known := (List.of_mem_zip member).1
    rw [← List.drop_zero (l := Visit.ofStops planned), ← twinned.visits] at known
    obtain ⟨p, inside, taken⟩ := List.mem_filterMap.mp known
    simp [takenAtOf forward inside taken]
  rw [placed, none, List.map_nil, List.append_nil]

theorem joinedTwinned (pullout : Int) (forward : Forward (Visit.ofStops planned) pairings)
    (twinned : Twinned planned 0 twins others pairings) :
    ∀ x ∈ placed (Visit.ofStops planned) pairings pullout, isPlanned x.row = isJoined x.row := by
  intro x member
  rw [placedTwinned pullout forward twinned] at member
  obtain ⟨p, _, rfl⟩ := List.mem_map.mp member
  rfl

theorem otherTwinned (pullout : Int) (forward : Forward (Visit.ofStops planned) pairings)
    (twinned : Twinned planned 0 twins others pairings) :
    (placed (Visit.ofStops planned) pairings pullout).filter (fun x => !isPlanned x.row) = others.map (placedOther pullout) := by
  have unpaired : ∀ p ∈ pairings, (!isPlanned (.ofStops (p.visit.map (·.stop)) (some p.stop) (some pullout))) =
      p.visit.isNone := by
    intro p _
    rw [isPlannedOfStops]
    cases p.visit <;> rfl
  rw [placedTwinned pullout forward twinned, List.filter_map, ← twinned.alone, List.map_map]
  rw [← List.filter_congr unpaired]
  apply List.map_congr_left
  intro p member
  obtain ⟨inside, unplanned⟩ := List.mem_filter.mp member
  have none : p.visit.isNone := (unpaired p inside).symm.trans unplanned
  simp [placedOther, Option.isNone_iff_eq_none.mp none]

theorem othersOrdered (pullout : Int) (sorted : others.Pairwise fun a b => a.sequence ≤ b.sequence) :
    (others.map (placedOther pullout)).Pairwise fun a b => (compare a.key b.key).isLE := by
  apply List.pairwise_map.mpr
  apply sorted.imp
  intro a b le
  have sequences : (compare a.sequence b.sequence).isLE := Std.isLE_compare.mpr le
  show (compare (some a.sequence, (none : Option Nat)) (some b.sequence, none)).isLE
  rw [comparePair, Ordering.isLE_then_iff_and]
  exact ⟨sequences, .inr rfl⟩

theorem sortedOthers (pullout : Int) (forward : Forward (Visit.ofStops planned) pairings)
    (twinned : Twinned planned 0 twins others pairings) (sorted : others.Pairwise fun a b => a.sequence ≤ b.sequence) :
    (sortOn (·.key) (placed (Visit.ofStops planned) pairings pullout)).filter (fun x => !isPlanned x.row) =
      others.map (placedOther pullout) := by
  have ordered := othersOrdered pullout sorted
  rw [← otherTwinned pullout forward twinned] at ordered ⊢
  exact sortOnFilter ordered

theorem firstPlaced (pullout : Int) {first : PlannedStop × PulloutStop} (head : (matchedPairs pairings).head? = some first) :
    ∃ y rest place, (pairings.filterMap fun p => p.visit.map (placedPair pullout p)) = y :: rest ∧
      y.key = (some first.2.sequence, some place) := by
  induction pairings with
  | nil => cases head
  | cons p others ih =>
    cases taken : p.visit with
    | none =>
      rw [List.filterMap_cons, taken]
      rw [matchedPairs, List.filterMap_cons, taken] at head
      exact ih head
    | some v =>
      rw [List.filterMap_cons, taken]
      rw [matchedPairs, List.filterMap_cons, taken] at head
      cases head
      exact ⟨_, _, v.place, rfl, rfl⟩

theorem aboveVisit (a b : Int) (place : Nat) : compare (some a, some place) (some b, (none : Option Nat)) = .lt ↔ a < b := by
  have below : compare (some place) (none : Option Nat) = .gt := rfl
  have same : compare (some a) (some b) = compare a b := rfl
  rw [comparePair, below, same, ← Int.compare_eq_lt]
  cases compare a b <;> simp

end Placed

section Order
variable {planned : List PlannedStop} {stops others : List PulloutStop} {twins : List (PlannedStop × PulloutStop)}
  {w : Window} {pullout : Int}

theorem orderPlanned (pullout : Int) (sorted : stops.Pairwise fun a b => a.sequence ≤ b.sequence)
    (twinned : Twinned planned 0 twins others (Pairing.along w (Visit.ofStops planned) 0 stops)) :
    (mergedOrder w pullout planned stops).filter isPlanned =
      twins.map fun x => .ofStops (some x.1) (some x.2) (some pullout) := by
  rw [← twinned.pairs, ← orderJoined w pullout planned sorted]
  apply List.filter_congr
  intro r member
  obtain ⟨x, inside, rfl⟩ := List.mem_map.mp member
  exact joinedTwinned pullout (Pairing.alongForward sorted) twinned x (memSortOn.mp inside)

theorem orderOthers (pullout : Int) (sorted : stops.Pairwise fun a b => a.sequence ≤ b.sequence)
    (embedded : Embedded planned planned stops twins others)
    (twinned : Twinned planned 0 twins others (Pairing.along w (Visit.ofStops planned) 0 stops))
    {first : PlannedStop × PulloutStop} (head : twins.head? = some first) :
    (trim isPlanned (mergedOrder w pullout planned stops)).filter (fun r => !isPlanned r) =
      (others.filter fun t => first.2.sequence < t.sequence).map fun t => .ofStops none (some t) (some pullout) := by
  have forward : Forward (Visit.ofStops planned) (Pairing.along w (Visit.ofStops planned) 0 stops) :=
    Pairing.alongForward sorted
  have visits := sortedPairs pullout forward
  rw [← List.filter_congr fun x member => joinedTwinned pullout forward twinned x (memSortOn.mp member)] at visits
  have between := sortedOthers pullout forward twinned (sorted.sublist embedded.othersOf)
  have rows := sortOnSorted (·.key) (placed (Visit.ofStops planned) (Pairing.along w (Visit.ofStops planned) 0 stops) pullout)
  have shown : ∀ x ∈ sortOn (·.key) (placed (Visit.ofStops planned) (Pairing.along w (Visit.ofStops planned) 0 stops) pullout),
      isPlanned x.row = x.key.2.isSome := by
    intro x member
    exact (placing forward (memSortOn.mp member)).isPlanned
  rw [← twinned.pairs] at head
  obtain ⟨y, rest, place, start, key⟩ := firstPlaced pullout head
  unfold mergedOrder
  generalize sortOn (·.key) (placed (Visit.ofStops planned) (Pairing.along w (Visit.ofStops planned) 0 stops) pullout) = all at *
  have apart : ∀ a ∈ all, ∀ b ∈ all, isPlanned a.row → isPlanned b.row = false → a.key ≠ b.key := by
    intro a ha b hb planned unplanned same
    rw [shown b hb, ← same, ← shown a ha, planned] at unplanned
    cases unplanned
  have parts := trimParts rows apart (visits.trans start)
  rw [trimMap, List.filter_map, Function.comp_def, parts, between, List.filter_map, List.map_map]
  have above : ∀ t ∈ others, decide (compare y.key (placedOther pullout t).key = .lt) = decide (first.2.sequence < t.sequence) := by
    intro t _
    rw [key]
    exact decide_eq_decide.mpr (aboveVisit _ _ _)
  rw [← List.filter_congr above]
  rfl

theorem orderTwins {trip : String} (inside : ∀ g ∈ planned, w.Holds g) (consistent : Consistent planned stops twins others)
    (sorted : stops.Pairwise fun a b => a.sequence ≤ b.sequence) (plannedTrip : ∀ g ∈ planned, g.tripId = trip)
    (own : ∀ t ∈ stops, t.tripId = trip ∧ t.pullout = pullout) :
    ShowsTwins twins others (finish (mergedOrder w pullout planned stops)).rows := by
  have twinned := Pairing.alongTwinned inside consistent.apart consistent.embedded List.drop_zero
  have kept := finishKept (mergedOrder w pullout planned stops)
  constructor
  · have rows := pairedFilter kept fun _ _ => Kept.isPlanned
    rw [trimFilter, orderPlanned pullout sorted twinned] at rows
    have known : ∀ x ∈ twins, x ∈ twins := fun _ => id
    apply ((List.forall₂_and_left _ _).mpr ⟨known, List.forall₂_map_left_iff.mp rows⟩).imp
    rintro ⟨g, t⟩ r ⟨member, kept⟩
    obtain ⟨inside, sameStop, _⟩ := consistent.embedded.twinOf member
    obtain ⟨tripT, rfl⟩ := own t inside
    have listed : g ∈ planned := by
      rw [← consistent.embedded.visitsOf]
      exact List.mem_map_of_mem member
    have shows : SkeletonRow.ShowsStop (.ofStops (some g) (some t) (some t.pullout)) t := by
      apply showsStopOfStops
      · rintro _ ⟨⟩
        rw [plannedTrip g listed, tripT]
      · rintro _ ⟨⟩
        exact sameStop.symm
    exact ⟨kept.provenance, kept.shows (showsOfStops g (some t) (some t.pullout)), kept.showsStop shows⟩
  · intro first head
    have rows := pairedFilter (p := fun r => !isPlanned r) (q := fun r => !isPlanned r) kept fun _ _ kept => by rw [kept.isPlanned]
    rw [orderOthers pullout sorted consistent.embedded twinned head] at rows
    have known : ∀ t ∈ others.filter fun t => first.2.sequence < t.sequence, t ∈ stops := by
      intro t member
      exact consistent.embedded.othersOf.subset (List.mem_of_mem_filter member)
    apply ((List.forall₂_and_left _ _).mpr ⟨known, List.forall₂_map_left_iff.mp rows⟩).imp
    rintro t r ⟨inside, kept⟩
    obtain ⟨_, rfl⟩ := own t inside
    have shows : SkeletonRow.ShowsStop (.ofStops none (some t) (some t.pullout)) t :=
      showsStopOfStops (by simp) (by simp)
    exact ⟨kept.provenance, kept.showsStop shows⟩

end Order

section Schedules
variable {planned : List PlannedStop} {stops others : List PulloutStop} {twins : List (PlannedStop × PulloutStop)}
  {tolerance : Int} {key : String × Int} {m part : Merged}

def AgreesOn (planned : List PlannedStop) (stops : List PulloutStop) (key : String × Int)
    (twins : List (PlannedStop × PulloutStop)) (others : List PulloutStop) : Prop :=
  Consistent (planned.filter (·.tripId = key.1)) (sortOn (·.sequence) (stopsOf stops key)) twins others

theorem keyTwins (nonneg : 0 ≤ tolerance) (agrees : AgreesOn planned stops key twins others)
    (ok : mergeKey tolerance planned stops (key.1, some key.2) = .ok part) :
    ShowsTwins twins others part.rows ∧ part.counts.ambiguous = 0 := by
  rw [mergeKey, mergePart, stopsOfNamed] at ok
  obtain ⟨w, window, rows, counts⟩ := pulloutOrder ok
  have inside := Consistent.inside agrees (Window.ofPulloutReturns window) nonneg
  rw [rows, counts]
  constructor
  · apply orderTwins inside agrees (stopsSorted _)
    · intro g member
      exact of_decide_eq_true (List.mem_filter.mp member).2
    · intro t member
      rw [memSortOn] at member
      exact Prod.mk.inj (of_decide_eq_true (List.mem_filter.mp member).2)
  · have twinned := Pairing.alongTwinned inside agrees.apart agrees.embedded List.drop_zero
    exact (Nat.zero_add _).trans twinned.clear

theorem keyOnly (nonneg : 0 ≤ tolerance) (named : Named planned stops key) (agrees : AgreesOn planned stops key twins others) :
    OnlyOutOfRange (mergeKey tolerance planned stops (key.1, some key.2)) := by
  obtain ⟨g, known, trip⟩ := named.trip
  have member : g ∈ planned.filter (·.tripId = key.1) := List.mem_filter.mpr ⟨known, decide_eq_true trip⟩
  obtain ⟨d, _, departs⟩ := agrees.embedded.departs member
  rw [mergeKey, mergePart, stopsOfNamed]
  intro e failed
  unfold mergePullout at failed
  cases window : Window.ofPullout tolerance key.1 key.2 (sortOn (·.sequence) (stopsOf stops key)) with
  | error f =>
    rw [window] at failed
    cases failed
    exact Window.ofPulloutOnly key.1 key.2 ⟨d, departs⟩ e window
  | ok w =>
    have inside := Consistent.inside agrees (Window.ofPulloutReturns window) nonneg
    have holds : (Visit.ofStops (planned.filter (·.tripId = key.1))).any w.holds = true := anyHolds.mpr ⟨g, member, inside g member⟩
    rw [window] at failed
    simp only [bind, Except.bind, holds, not_true, if_false] at failed
    cases failed

theorem mergedRanged (ok : merge planned stops tolerance = .ok m) : Ranged planned stops tolerance := by
  intro key named w around
  obtain ⟨parts, own, _⟩ := mergedParts ok
  obtain ⟨part, _, merges⟩ := pairedMem own.flip (namedListed.mp named)
  have merges : mergeKey tolerance planned stops (key.1, some key.2) = .ok part := merges
  rw [mergeKey, mergePart, stopsOfNamed] at merges
  obtain ⟨x, window, _⟩ := pulloutOrder merges
  have other := Window.ofPulloutReturns window
  rw [departsSorted] at other
  rw [around.unique other]
  exact Window.ofPulloutRanged window

theorem schedulesOnly (nonneg : 0 ≤ tolerance)
    (agree : ∀ key, Named planned stops key → ∃ twins others, AgreesOn planned stops key twins others) :
    OnlyOutOfRange (merge planned stops tolerance) := by
  intro e failed
  obtain ⟨⟨trip, pullout⟩, listed, own⟩ := mapMFails ((schedulesFail planned stops tolerance e).mp failed)
  cases pullout with
  | none => cases own
  | some pullout =>
    have named : Named planned stops (trip, pullout) := namedListed.mpr listed
    obtain ⟨twins, others, agrees⟩ := agree (trip, pullout) named
    exact keyOnly nonneg named agrees e own

theorem agreedMerges (nonneg : 0 ≤ tolerance)
    (agree : ∀ key, Named planned stops key → ∃ twins others, AgreesOn planned stops key twins others)
    (ranged : Ranged planned stops tolerance) : ∃ m, merge planned stops tolerance = .ok m := by
  cases merged : merge planned stops tolerance with
  | ok m => exact ⟨m, rfl⟩
  | error e =>
    obtain ⟨key, f, refuses⟩ := (failsIfRefused ranged).mp ⟨e, merged⟩
    obtain ⟨twins, others, agrees⟩ := agree key refuses.named
    have only := keyOnly nonneg refuses.named agrees f ((keyFails ranged refuses.named).mpr refuses)
    cases only
    cases refuses.refused

theorem agreedNotAmbiguous (nonneg : 0 ≤ tolerance)
    (agree : ∀ key, Named planned stops key → ∃ twins others, AgreesOn planned stops key twins others)
    (ok : merge planned stops tolerance = .ok m) : m.counts.ambiguous = 0 := by
  obtain ⟨parts, own, _, counts⟩ := mergedParts ok
  have each : ∀ key ∈ partitionKeys planned stops, ∀ part, mergeKey tolerance planned stops key = .ok part →
      part.counts.ambiguous = 0 := by
    rintro ⟨trip, pullout⟩ listed part merges
    cases pullout with
    | none => cases merges; rfl
    | some pullout =>
      obtain ⟨twins, others, agrees⟩ := agree (trip, pullout) (namedListed.mpr listed)
      exact (keyTwins nonneg agrees merges).2
  have none := pairedSum (f := fun _ => 0) (g := fun (part : Merged) => part.counts.ambiguous)
    (((List.forall₂_and_left _ _).mpr ⟨fun _ member => member, own⟩).imp fun key part both => each key both.1 part both.2)
  rw [counts]
  show (Counts.sum (parts.map (·.counts))).ambiguous + 0 = 0
  rw [sumCounts (f := Counts.ambiguous) rfl (fun _ _ => rfl), List.map_map]
  exact none.trans (by simp)

theorem agreedTwins (ok : merge planned stops tolerance = .ok m) (nonneg : 0 ≤ tolerance)
    (named : Named planned stops key) (agrees : AgreesOn planned stops key twins others) :
    ShowsTwins twins others (partitionOf m.rows key.1 (some key.2)) := by
  apply partitionBy (fun listed rows => listed = (key.1, some key.2) → ShowsTwins twins others rows) _ ok (namedListed.mp named) rfl
  rintro _ part _ merges rfl
  exact (keyTwins nonneg agrees merges).1

theorem agreedSchedulesJoin (planned : List PlannedStop) (stops : List PulloutStop) (tolerance : Int)
    (nonneg : 0 ≤ tolerance) :
    (∀ m, merge planned stops tolerance = .ok m → ∀ key twins others, Named planned stops key →
      AgreesOn planned stops key twins others → ShowsTwins twins others (partitionOf m.rows key.1 (some key.2))) ∧
    ((∀ key, Named planned stops key → ∃ twins others, AgreesOn planned stops key twins others) →
      ((∃ m, merge planned stops tolerance = .ok m) ↔ Ranged planned stops tolerance) ∧
      (¬Ranged planned stops tolerance → merge planned stops tolerance = .error .outOfRange) ∧
      ∀ m, merge planned stops tolerance = .ok m → m.counts.ambiguous = 0) := by
  constructor
  · intro m ok key twins others named agrees
    exact agreedTwins ok nonneg named agrees
  · intro agree
    have ranged : (∃ m, merge planned stops tolerance = .ok m) ↔ Ranged planned stops tolerance := by
      constructor
      · rintro ⟨m, ok⟩
        exact mergedRanged ok
      · exact agreedMerges nonneg agree
    refine ⟨ranged, ?_, fun m ok => agreedNotAmbiguous nonneg agree ok⟩
    intro out
    cases merged : merge planned stops tolerance with
    | ok m => exact absurd (mergedRanged merged) out
    | error e => rw [schedulesOnly nonneg agree e merged]

section Loop

def loopTrip : List PlannedStop := [("a", 1, 0), ("b", 2, 300), ("c", 3, 600), ("b", 4, 900), ("a", 5, 1200)].map
  fun (stopId, sequence, seconds) => { tripId := "1", stopId, sequence, departure := some (.ofSeconds seconds) }

def loopPullout : List PulloutStop := [("x", 2, 0), ("a", 3, 0), ("b", 5, 300), ("y", 6, 450), ("c", 7, 600), ("b", 9, 900),
  ("a", 10, 1200), ("x", 12, 1300)].map fun (stopId, sequence, seconds) =>
    { tripId := "1", pullout := 7, stopId, sequence, departure := some (.ofSeconds seconds) }

def loopTwins : List (PlannedStop × PulloutStop) :=
  loopTrip.zip (loopPullout.filter fun t => loopTrip.any (·.stopId = t.stopId))

def loopOthers : List PulloutStop := loopPullout.filter fun t => !loopTrip.any (·.stopId = t.stopId)

theorem loopNamed {key : String × Int} (named : Named loopTrip loopPullout key) : key = ("1", 7) := by
  obtain ⟨t, member, rfl⟩ := named.pullout
  have all : ∀ t ∈ loopPullout, (t.tripId, t.pullout) = ("1", (7 : Int)) := by decide
  exact all t member

theorem loopAgrees : AgreesOn loopTrip loopPullout ("1", 7) loopTwins loopOthers := by
  have planned : loopTrip.filter (·.tripId = "1") = loopTrip := by decide
  have stops : sortOn (·.sequence) (stopsOf loopPullout ("1", 7)) = loopPullout := by cbv
  rw [AgreesOn, planned, stops]
  constructor
  · apply Embedded.other (by decide)
    apply Embedded.twin rfl rfl rfl
    apply Embedded.twin rfl rfl rfl
    apply Embedded.other (by decide)
    apply Embedded.twin rfl rfl rfl
    apply Embedded.twin rfl rfl rfl
    apply Embedded.twin rfl rfl rfl
    apply Embedded.other (by decide)
    exact .done
  · decide

/- The first timepoint is trimmed, and every visit of the loop is joined with the stop that is passed then. -/
theorem agreedSchedulesJoinLoop : ∃ m, merge loopTrip loopPullout 0 = .ok m ∧ m.counts.ambiguous = 0 ∧
    ShowsTwins loopTwins loopOthers (partitionOf m.rows "1" (some 7)) ∧
    m.rows.map (fun r => (r.gtfsSequence, r.tmSequence)) = [(some 1, some 3), (some 2, some 5), (none, some 6),
      (some 3, some 7), (some 4, some 9), (some 5, some 10), (none, some 12)] := by
  have evaluated : ((merge loopTrip loopPullout 0).map fun m => m.rows.map fun r => (r.gtfsSequence, r.tmSequence)) =
      .ok [(some 1, some 3), (some 2, some 5), (none, some 6), (some 3, some 7), (some 4, some 9), (some 5, some 10),
        (none, some 12)] := by cbv
  obtain ⟨twins, agreed⟩ := agreedSchedulesJoin loopTrip loopPullout 0 (Int.le_refl 0)
  obtain ⟨_, _, clear⟩ := agreed fun key named => ⟨loopTwins, loopOthers, by rw [loopNamed named]; exact loopAgrees⟩
  cases ok : merge loopTrip loopPullout 0 with
  | error e => rw [ok] at evaluated; cases evaluated
  | ok m =>
    rw [ok] at evaluated
    have named : Named loopTrip loopPullout ("1", 7) := by
      constructor <;> decide
    exact ⟨m, rfl, clear m ok, twins m ok _ _ _ named loopAgrees, Except.ok.inj evaluated⟩

theorem agreedLoopOutOfRange :
    (∀ key, Named loopTrip loopPullout key → ∃ twins others, AgreesOn loopTrip loopPullout key twins others) ∧
      (0 : Int) ≤ 9223372036854775000000000 ∧
        merge loopTrip loopPullout 9223372036854775000000000 = .error .outOfRange := by
  refine ⟨fun key named => ⟨loopTwins, loopOthers, ?_⟩, by decide, by cbv⟩
  rw [loopNamed named]
  exact loopAgrees

end Loop

end Schedules

end Skeleton

end TransitTimeline
