import TransitTimeline.Proofs.Schedule.Pairing

/-! The visits that a pullout's stops take. In order, every stop takes the nearest of the visits that are left to it; this
alone decides which stop takes which visit. -/
namespace TransitTimeline.Pairing
open Std

section Rank
variable {t : PulloutStop} {u v : Visit}

def gap (t : PulloutStop) (v : Visit) : Nat := (v.stop.sequence - t.sequence).natAbs

/- A visit goes before those that depart farther away, then those numbered farther away, then those later in the trip. -/
def Nearer (t : PulloutStop) (v u : Visit) : Prop :=
  distance t v < distance t u ∨ distance t v = distance t u ∧ (gap t v < gap t u ∨ gap t v = gap t u ∧ v.place ≤ u.place)

theorem nearerExactly : (compare (rank t v) (rank t u)).isLE ↔ Nearer t v u := by
  unfold rank
  rw [comparePair, comparePair, Ordering.isLE_then_iff_or, Ordering.isLE_then_iff_or]
  simp only [Nat.compare_eq_lt, Nat.compare_eq_eq, Nat.isLE_compare]
  rfl

theorem Nearer.distances (nearer : Nearer t v u) : distance t v ≤ distance t u := by
  unfold Nearer at nearer
  omega

theorem Nearer.samePlace (nearer : Nearer t v u) (other : Nearer t u v) : v.place = u.place := by
  unfold Nearer at nearer other
  omega

theorem distanceTimeless (timeless : t.departure = none) (v u : Visit) : distance t v = distance t u := by
  have nothing (x : Visit) : distance t x = 0 := by
    unfold distance
    rw [timeless]
    cases x.stop.departure <;> rfl
  rw [nothing, nothing]

theorem distanceSeconds {d g : Instant} (departs : t.departure = some d) (plans : v.stop.departure = some g) :
    distance t v = (g.nanos - d.nanos).natAbs / 1000000000 := by
  unfold distance
  rw [departs, plans]
  exact Int.natAbs_tdiv _ _

end Rank

section Choice
variable {eligible : Visit → Prop} {p q : Pairing}

structure Chosen (eligible : Visit → Prop) (p : Pairing) : Prop where
  matched : p.visit.isSome ↔ ∃ v, eligible v
  nearest : ∀ v ∈ p.visit, eligible v ∧ ∀ u, eligible u → Nearer p.stop v u
  ambiguous : p.isAmbiguous ↔ ∃ v u, v ≠ u ∧ eligible v ∧ eligible u ∧ distance p.stop v = distance p.stop u ∧
    ∀ x, eligible x → distance p.stop v ≤ distance p.stop x

theorem Chosen.unique (first : Chosen eligible p) (second : Chosen eligible q) (stop : p.stop = q.stop)
    (placed : ∀ u v, eligible u → eligible v → u.place = v.place → u = v) : p = q := by
  obtain ⟨t, visit, isAmbiguous⟩ := p
  obtain ⟨_, other, otherAmbiguous⟩ := q
  cases stop
  have some : visit.isSome = other.isSome := Bool.eq_iff_iff.mpr (first.matched.trans second.matched.symm)
  have ambiguous : isAmbiguous = otherAmbiguous := Bool.eq_iff_iff.mpr (first.ambiguous.trans second.ambiguous.symm)
  have same : visit = other := by
    cases visit with
    | none =>
      cases other with
      | none => rfl
      | some u => cases some
    | some v =>
      cases other with
      | none => cases some
      | some u =>
        obtain ⟨eligibleV, nearestV⟩ := first.nearest v rfl
        obtain ⟨eligibleU, nearestU⟩ := second.nearest u rfl
        have place := (nearestV u eligibleU).samePlace (nearestU v eligibleV)
        rw [placed v u eligibleV eligibleU place]
  rw [same, ambiguous]

end Choice

section Step
variable {w : Window} {visits : List Visit} {stops : List PulloutStop} {t : PulloutStop} {next : Nat}

def choose (w : Window) (visits : List Visit) (next : Nat) (t : PulloutStop) : Pairing :=
  match sortOn (rank t) (eligible w visits next t) with
  | [] => ⟨t, none, false⟩
  | best :: others => ⟨t, some best, others.head?.any fun v => distance t v = distance t best⟩

theorem chooseStop (w : Window) (visits : List Visit) (next : Nat) (t : PulloutStop) : (choose w visits next t).stop = t := by
  unfold choose
  split <;> rfl

def passed (next : Nat) (p : Pairing) : Nat := (p.visit.map (·.place + 1)).getD next

theorem alongStep : along w visits next (t :: stops) =
    choose w visits next t :: along w visits (passed next (choose w visits next t)) stops := by
  rw [along, choose]
  cases sortOn (rank t) (eligible w visits next t) <;> rfl

section Sorted
variable {best : Visit} {others : List Visit}

theorem sortedLeast (sorted : (best :: others).Pairwise (Nearer t)) : ∀ x ∈ best :: others, distance t best ≤ distance t x := by
  intro x member
  rcases List.mem_cons.mp member with rfl | later
  · exact Nat.le_refl _
  · exact ((List.pairwise_cons.mp sorted).1 x later).distances

/- If any two visits share the least distance, the first two do. -/
theorem tiedExactly (distinct : (best :: others).Nodup) (sorted : (best :: others).Pairwise (Nearer t)) :
    (others.head?.any fun v => distance t v = distance t best) ↔
      ∃ v u, v ≠ u ∧ v ∈ best :: others ∧ u ∈ best :: others ∧ distance t v = distance t u ∧
        ∀ x ∈ best :: others, distance t v ≤ distance t x := by
  have least := sortedLeast sorted
  obtain ⟨alone, _⟩ := List.nodup_cons.mp distinct
  obtain ⟨_, behind⟩ := List.pairwise_cons.mp sorted
  constructor
  · intro tie
    cases others with
    | nil => cases tie
    | cons second rest =>
      have same : distance t second = distance t best := of_decide_eq_true tie
      have differ : best ≠ second := fun equal => alone (by rw [equal]; exact List.mem_cons_self)
      exact ⟨best, second, differ, List.mem_cons_self, List.mem_cons_of_mem _ List.mem_cons_self, same.symm, least⟩
  · intro tie
    obtain ⟨v, u, differ, memberV, memberU, same, minimal⟩ := tie
    have reached : distance t v = distance t best :=
      Nat.le_antisymm (minimal best List.mem_cons_self) (least v memberV)
    -- Not both of them come first, and the second visit is no farther than one behind it.
    obtain ⟨x, later, near⟩ : ∃ x ∈ others, distance t x = distance t best := by
      rcases List.mem_cons.mp memberV with first | later
      · rcases List.mem_cons.mp memberU with also | later
        · exact absurd (first.trans also.symm) differ
        · exact ⟨u, later, same.symm.trans reached⟩
      · exact ⟨v, later, reached⟩
    cases others with
    | nil => cases later
    | cons second rest =>
      have below := sortedLeast behind x later
      have above := least second (List.mem_cons_of_mem _ List.mem_cons_self)
      exact decide_eq_true (Nat.le_antisymm (Nat.le_trans below (Nat.le_of_eq near)) above)

end Sorted

theorem choosesNearest (ordered : visits.Pairwise fun a b => a.place < b.place) :
    Chosen (· ∈ eligible w visits next t) (choose w visits next t) := by
  have sorted := (sortOnSorted (rank t) (eligible w visits next t)).imp nearerExactly.mp
  have distinct : (sortOn (rank t) (eligible w visits next t)).Nodup :=
    (sortOnPerm (rank t) (eligible w visits next t)).nodup_iff.mpr (Visit.orderedDistinct (ordered.filter _))
  have members (v : Visit) : v ∈ eligible w visits next t ↔ v ∈ sortOn (rank t) (eligible w visits next t) := memSortOn.symm
  simp only [members]
  unfold choose
  generalize sortOn (rank t) (eligible w visits next t) = found at sorted distinct
  cases found with
  | nil => constructor <;> simp
  | cons best others =>
    constructor
    · exact ⟨fun _ => ⟨best, List.mem_cons_self⟩, fun _ => rfl⟩
    · intro v taken
      cases taken
      refine ⟨List.mem_cons_self, fun u member => ?_⟩
      rcases List.mem_cons.mp member with same | later
      · rw [same]
        exact .inr ⟨rfl, .inr ⟨rfl, Nat.le_refl _⟩⟩
      · exact (List.pairwise_cons.mp sorted).1 u later
    · exact tiedExactly distinct sorted

end Step

section Run
variable {w : Window} {visits : List Visit} {stops : List PulloutStop} {next : Nat} {before after : List Pairing} {p : Pairing}

def lastTaken (before : List Pairing) : Option Visit := (before.filterMap (·.visit)).getLast?

theorem lastTakenCons (p : Pairing) (rest : List Pairing) : lastTaken (p :: rest) = (lastTaken rest).or p.visit := by
  cases taken : p.visit with
  | none => simp [lastTaken, taken]
  | some v => cases behind : lastTaken rest <;> simp_all [lastTaken, List.getLast?_cons]

theorem passedAll (next : Nat) (before : List Pairing) :
    before.foldl passed next = ((lastTaken before).map (·.place + 1)).getD next := by
  induction before generalizing next with
  | nil => rfl
  | cons p rest ih =>
    rw [List.foldl_cons, ih, lastTakenCons]
    cases lastTaken rest <;> rfl

theorem alongSplit (split : along w visits next stops = before ++ p :: after) :
    p = choose w visits (before.foldl passed next) p.stop := by
  induction stops generalizing next before with
  | nil => simp [along] at split
  | cons t rest ih =>
    rw [alongStep] at split
    cases before with
    | nil =>
      obtain ⟨own, _⟩ := List.cons.inj split
      rw [← own, chooseStop]
      rfl
    | cons q before =>
      obtain ⟨first, later⟩ := List.cons.inj split
      rw [first] at later
      have own := ih later
      exact own

end Run

/- The visits left to a stop: of the same stop, departing inside the window, later in the trip than the last one taken. -/
structure Left (planned : List PlannedStop) (w : Window) (last : Option Visit) (t : PulloutStop) (v : Visit) : Prop where
  known : planned[v.place]? = some v.stop
  sameStop : v.stop.stopId = t.stopId
  inside : w.Holds v.stop
  later : ∀ u ∈ last, u.place < v.place

theorem Left.samePlace {planned : List PlannedStop} {w : Window} {last : Option Visit} {t : PulloutStop} {u v : Visit}
    (first : Left planned w last t u) (second : Left planned w last t v) (place : u.place = v.place) : u = v := by
  have known := first.known
  rw [place, second.known] at known
  cases u
  cases v
  cases place
  cases known
  rfl

structure Matching (planned : List PlannedStop) (w : Window) (pairings : List Pairing) : Prop where
  known : ∀ p ∈ pairings, ∀ v ∈ p.visit, planned[v.place]? = some v.stop
  increasing : pairings.Pairwise fun p q => ∀ u ∈ p.visit, ∀ v ∈ q.visit, u.place < v.place
  sameStop : ∀ p ∈ pairings, ∀ v ∈ p.visit, v.stop.stopId = p.stop.stopId
  inside : ∀ p ∈ pairings, ∀ v ∈ p.visit, w.Holds v.stop
  chosen : ∀ before p after, pairings = before ++ p :: after → Chosen (Left planned w (lastTaken before) p.stop) p

section Matching
variable {planned : List PlannedStop} {w : Window} {stops : List PulloutStop}

theorem leftExactly (before : List Pairing) {t : PulloutStop} {v : Visit} :
    v ∈ eligible w (Visit.ofStops planned) (before.foldl passed 0) t ↔ Left planned w (lastTaken before) t v := by
  have later : before.foldl passed 0 ≤ v.place ↔ ∀ u ∈ lastTaken before, u.place < v.place := by
    rw [passedAll]
    cases lastTaken before with
    | none => simp
    | some u =>
      constructor
      · intro le x own
        cases own
        exact le
      · intro all
        exact all u rfl
  rw [memEligible, Visit.memOfStops, later]
  constructor
  · intro both
    obtain ⟨known, later, inside, same⟩ := both
    exact ⟨known, same, inside, later⟩
  · intro left
    exact ⟨left.known, left.later, left.inside, left.sameStop⟩

theorem alongChosen {before after : List Pairing} {p : Pairing}
    (split : along w (Visit.ofStops planned) 0 stops = before ++ p :: after) :
    Chosen (Left planned w (lastTaken before) p.stop) p := by
  have nearest : Chosen (· ∈ eligible w (Visit.ofStops planned) (before.foldl passed 0) p.stop)
      (choose w (Visit.ofStops planned) (before.foldl passed 0) p.stop) := choosesNearest (Visit.ofStopsOrdered planned)
  simp only [leftExactly] at nearest
  rwa [← alongSplit split] at nearest

theorem alongMatching (planned : List PlannedStop) (w : Window) (stops : List PulloutStop) :
    Matching planned w (along w (Visit.ofStops planned) 0 stops) := by
  have own : ∀ p ∈ along w (Visit.ofStops planned) 0 stops, ∀ v ∈ p.visit,
      ∃ last, Left planned w last p.stop v := by
    intro p member v taken
    obtain ⟨before, after, split⟩ := List.append_of_mem member
    exact ⟨_, ((alongChosen split).nearest v taken).1⟩
  constructor
  · intro p member v taken
    obtain ⟨_, left⟩ := own p member v taken
    exact left.known
  · exact List.pairwise_filterMap.mp (alongVisits w (Visit.ofStops planned) 0 stops).1
  · intro p member v taken
    obtain ⟨_, left⟩ := own p member v taken
    exact left.sameStop
  · intro p member v taken
    obtain ⟨_, left⟩ := own p member v taken
    exact left.inside
  · intro before p after split
    exact alongChosen split

theorem Matching.uniqueBehind {before pairings others : List Pairing} (first : Matching planned w (before ++ pairings))
    (second : Matching planned w (before ++ others)) (stops : pairings.map (·.stop) = others.map (·.stop)) :
    pairings = others := by
  induction pairings generalizing before others with
  | nil => exact (List.map_eq_nil_iff.mp stops.symm).symm
  | cons p rest ih =>
    obtain ⟨q, later, rfl, stop, behind⟩ := List.map_eq_cons_iff.mp stops.symm
    -- Behind the same beginning the next stop is left the same visits.
    have own := first.chosen before p rest rfl
    have other := second.chosen before q later rfl
    rw [stop] at other
    have same : p = q := own.unique other stop.symm fun _ _ => Left.samePlace
    have firstTail : Matching planned w ((before ++ [p]) ++ rest) := by simpa using first
    have secondTail : Matching planned w ((before ++ [p]) ++ later) := by simpa [same] using second
    rw [same, ih firstTail secondTail behind.symm]

theorem Matching.unique {pairings others : List Pairing} (first : Matching planned w pairings)
    (second : Matching planned w others) (stops : pairings.map (·.stop) = others.map (·.stop)) : pairings = others :=
  Matching.uniqueBehind (show Matching planned w ([] ++ pairings) from first) second stops

end Matching

end TransitTimeline.Pairing
