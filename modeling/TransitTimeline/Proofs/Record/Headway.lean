import Mathlib
import TransitTimeline.Proofs.Gathering
import TransitTimeline.Proofs.Instant
import TransitTimeline.Proofs.Record.Derived

/-! Headways are the steps of chains. The departures of a group form one chain, whatever the order of the rows, and its
steps lead from the earliest departure to the latest. -/
namespace TransitTimeline.Headway
open Std

variable {κ : Type}

def rank (d : Departure) : Instant × String × String × Nat :=
  (d.time, d.record.row.tripId, d.record.vehicleLabel, d.place)

structure Chain (key : StopRecord → κ) (rows : List StopRecord) (k : κ) (chain : List Departure) : Prop where
  members : ∀ d, d ∈ chain ↔ rows[d.place]? = some d.record ∧ d.record.stay.departure = some d.time ∧ key d.record = k
  ordered : chain.Pairwise fun a b => compare (rank a) (rank b) = .lt

section Group
variable [DecidableEq κ]

def times (key : StopRecord → κ) (k : κ) (rows : List StopRecord) : List Instant :=
  (rows.filter (key · = k)).filterMap (·.stay.departure)

def ofGroup (key : StopRecord → κ) (k : κ) (rows : List StopRecord) (headways : List (Option Int)) : List Int :=
  ((rows.zip headways).filter fun x => key x.1 = k).filterMap (·.2)

def Distinct (key : StopRecord → κ) (rows : List StopRecord) : Prop :=
  rows.Pairwise fun a b => key a = key b → ∀ t ∈ a.stay.departure, t ∈ b.stay.departure → a.journey ≠ b.journey

structure Spaced (key : StopRecord → κ) (headways : List StopRecord → List (Option Int)) (rows : List StopRecord) : Prop where
  timeless : ∀ (i : Nat) r, rows[i]? = some r → r.stay.departure = none → (headways rows)[i]? = some none
  chained : ∀ k, ∃ chain, Chain key rows k chain ∧ ∀ before d after, chain = before ++ d :: after →
    (headways rows)[d.place]? = some (before.getLast?.map fun previous => d.time.secondsSince previous.time)
  forward : ∀ s, some s ∈ headways rows → 0 ≤ s
  total : ∀ k, (∀ t ∈ times key k rows, ∃ s, t = .ofSeconds s) → ∀ first ∈ (times key k rows).min?,
    ∀ last ∈ (times key k rows).max?, (ofGroup key k rows (headways rows)).sum = last.secondsSince first
  moved : Distinct key rows → ∀ others, rows.Perm others → ∀ (i j : Nat) r, rows[i]? = some r → others[j]? = some r →
    (headways rows)[i]? = (headways others)[j]?

end Group

section Departures
variable {rows : List StopRecord} {d : Departure}

theorem memDepartures : d ∈ departures rows ↔ rows[d.place]? = some d.record ∧ d.record.stay.departure = some d.time := by
  simp only [departures, List.mem_filterMap, Prod.exists, List.mem_zipIdx_iff_getElem?, Option.map_eq_some_iff]
  constructor
  · rintro ⟨record, place, known, time, departs, rfl⟩
    exact ⟨known, departs⟩
  · rintro ⟨known, departs⟩
    exact ⟨d.record, d.place, known, d.time, departs, rfl⟩

theorem departuresPlaced (rows : List StopRecord) : (departures rows).Pairwise fun a b => a.place < b.place := by
  have places : (rows.zipIdx.map Prod.snd).Pairwise (· < ·) := by
    rw [List.zipIdx_map_snd]
    exact List.pairwise_lt_range' 1
  refine List.pairwise_filterMap.mpr ((List.pairwise_map.mp places).imp ?_)
  intro x y less a ha b hb
  obtain ⟨_, _, rfl⟩ := Option.map_eq_some_iff.mp ha
  obtain ⟨_, _, rfl⟩ := Option.map_eq_some_iff.mp hb
  exact less

theorem rankLess {a b : Departure} (less : compare (order a) (order b) = .lt ∨
    compare (order a) (order b) = .eq ∧ a.place < b.place) : compare (rank a) (rank b) = .lt := by
  have rest : compare (rank a) (rank b) = (compare (order a) (order b)).then (compare a.place b.place) := by
    simp only [rank, order, comparePair, Ordering.then_assoc]
  rw [rest, Ordering.then_eq_lt, Nat.compare_eq_lt]
  exact less

end Departures

section Chains
variable [DecidableEq κ] {key : StopRecord → κ} {rows : List StopRecord} {k : κ}

def chainOf (key : StopRecord → κ) (rows : List StopRecord) (k : κ) : List Departure :=
  sortOn order ((departures rows).filter (key ·.record = k))

theorem memChainOf {d : Departure} : d ∈ chainOf key rows k ↔ d ∈ departures rows ∧ key d.record = k := by
  rw [chainOf, memSortOn, List.mem_filter, decide_eq_true_eq]

theorem chainOfGroup (key : StopRecord → κ) (rows : List StopRecord) (k : κ) : Chain key rows k (chainOf key rows k) where
  members d := by rw [memChainOf, memDepartures, and_assoc]
  ordered := (sortOnStable ((departuresPlaced rows).filter _)).imp rankLess

omit [DecidableEq κ] in
theorem Chain.distinct {chain : List Departure} (own : Chain key rows k chain) : chain.Nodup :=
  (orderedDistinct (List.pairwise_map.mpr own.ordered)).of_map rank

theorem splitUnique {α : Type} {before after left right : List α} {a : α} (distinct : (before ++ a :: after).Nodup)
    (same : before ++ a :: after = left ++ a :: right) : before = left := by
  have absent : a ∉ before ++ after := (List.nodup_middle.mp distinct).notMem
  rw [List.mem_append, not_or] at absent
  exact ((List.append_cons_inj_of_notMem absent.1 absent.2).mp same).1

theorem memGaps {chain : List Departure} {g : Nat × Int} : g ∈ gaps chain ↔
    ∃ before a d after, chain = before ++ a :: d :: after ∧ g = (d.place, d.time.secondsSince a.time) := by
  induction chain using gaps.induct with
  | case1 => simp [gaps]
  | case2 only =>
    simp only [gaps, List.not_mem_nil, false_iff]
    rintro ⟨before, a, d, after, shape, _⟩
    have length := congrArg List.length shape
    simp at length
    omega
  | case3 previous d rest ih =>
    rw [gaps, List.mem_cons, ih]
    constructor
    · rintro (rfl | ⟨before, a, e, after, shape, rfl⟩)
      · exact ⟨[], previous, d, rest, rfl, rfl⟩
      · exact ⟨previous :: before, a, e, after, by rw [shape]; rfl, rfl⟩
    · rintro ⟨before, a, e, after, shape, rfl⟩
      cases before with
      | nil =>
        cases shape
        exact .inl rfl
      | cons first before => exact .inr ⟨before, a, e, after, (List.cons.inj shape).2, rfl⟩

theorem placeOne {l : κ} {d e : Departure} (first : d ∈ chainOf key rows k) (second : e ∈ chainOf key rows l)
    (place : d.place = e.place) : d = e ∧ k = l := by
  obtain ⟨row, time, rfl⟩ := ((chainOfGroup key rows k).members d).mp first
  obtain ⟨also, other, rfl⟩ := ((chainOfGroup key rows l).members e).mp second
  rw [place, also] at row
  obtain ⟨_, _, _⟩ := d
  obtain ⟨_, _, _⟩ := e
  simp_all

theorem chainSplit {l : κ} {before after left right : List Departure} {d e : Departure}
    (first : chainOf key rows k = before ++ d :: after) (second : chainOf key rows l = left ++ e :: right)
    (place : d.place = e.place) : d = e ∧ k = l ∧ before = left := by
  obtain ⟨rfl, rfl⟩ := placeOne (by rw [first]; simp) (by rw [second]; simp) place
  have distinct := (chainOfGroup key rows k).distinct
  rw [first] at distinct second
  exact ⟨rfl, rfl, splitUnique distinct second⟩

theorem chainTimes (key : StopRecord → κ) (rows : List StopRecord) (k : κ) :
    (chainOf key rows k).Pairwise fun a b => a.time ≤ b.time := by
  refine (chainOfGroup key rows k).ordered.imp fun {a b} less => Instant.compareLe.mp ?_
  rw [rank, rank, comparePair] at less
  cases first : compare a.time b.time <;> simp_all

section Known
variable [Ord κ] [TransOrd κ] [LawfulEqOrd κ]

def gapsOf (key : StopRecord → κ) (rows : List StopRecord) : List (Nat × Int) :=
  (Groups.ofRows (fun d => key d.record) (departures rows)).toList.flatMap fun (_, group) => gaps (sortOn order group)

def headwayAt (key : StopRecord → κ) (rows : List StopRecord) (place : Nat) : Option Int :=
  ((Index.ofRows Prod.fst (gapsOf key rows)).find? place).map (·.2)

omit [DecidableEq κ] [TransOrd κ] [LawfulEqOrd κ] in
theorem amongAt (key : StopRecord → κ) {i : Nat} {r : StopRecord} (known : rows[i]? = some r) :
    (among key rows)[i]? = some (headwayAt key rows i) := by
  have inside := (List.getElem?_eq_some_iff.mp known).1
  show ((List.range rows.length).map (headwayAt key rows))[i]? = _
  rw [List.getElem?_map, List.getElem?_range inside]
  rfl

theorem memGapsOf {g : Nat × Int} : g ∈ gapsOf key rows ↔ ∃ k, g ∈ gaps (chainOf key rows k) := by
  simp only [gapsOf, List.mem_flatMap, Prod.exists, Groups.memToList]
  constructor
  · rintro ⟨k, _, ⟨_, rfl⟩, own⟩
    exact ⟨k, own⟩
  · rintro ⟨k, own⟩
    obtain ⟨before, a, d, after, shape, _⟩ := memGaps.mp own
    have inside : d ∈ chainOf key rows k := by simp [shape]
    obtain ⟨departs, same⟩ := memChainOf.mp inside
    exact ⟨k, _, ⟨⟨d, departs, same⟩, rfl⟩, own⟩

theorem gapsAgree : ∀ g ∈ gapsOf key rows, ∀ h ∈ gapsOf key rows, g.1 = h.1 → g = h := by
  intro g hg h hh place
  obtain ⟨k, own⟩ := memGapsOf.mp hg
  obtain ⟨l, other⟩ := memGapsOf.mp hh
  obtain ⟨before, a, d, after, shape, rfl⟩ := memGaps.mp own
  obtain ⟨left, b, e, right, also, rfl⟩ := memGaps.mp other
  rw [List.append_cons] at shape also
  obtain ⟨rfl, _, same⟩ := chainSplit shape also place
  rw [(List.append_singleton_inj.mp same).2]

theorem headwayKnown {i : Nat} {s : Int} : headwayAt key rows i = some s ↔ ∃ k before a d after,
    chainOf key rows k = before ++ a :: d :: after ∧ d.place = i ∧ d.time.secondsSince a.time = s := by
  simp only [headwayAt, Option.map_eq_some_iff, Prod.exists, Index.findAgreed gapsAgree, memGapsOf, memGaps]
  constructor
  · rintro ⟨_, _, ⟨⟨k, before, a, d, after, shape, same⟩, rfl⟩, rfl⟩
    cases same
    exact ⟨k, before, a, d, after, shape, rfl, rfl⟩
  · rintro ⟨k, before, a, d, after, shape, rfl, rfl⟩
    exact ⟨_, _, ⟨⟨k, before, a, d, after, shape, rfl⟩, rfl⟩, rfl⟩

theorem headwayChained {before after : List Departure} {d : Departure}
    (shape : chainOf key rows k = before ++ d :: after) :
    headwayAt key rows d.place = before.getLast?.map fun previous => d.time.secondsSince previous.time := by
  rcases List.eq_nil_or_concat before with rfl | ⟨front, a, rfl⟩
  · cases known : headwayAt key rows d.place with
    | none => rfl
    | some s =>
      obtain ⟨l, left, a, e, right, other, place, _⟩ := headwayKnown.mp known
      rw [List.append_cons] at other
      obtain ⟨_, _, same⟩ := chainSplit shape other place.symm
      cases List.append_ne_nil_of_right_ne_nil left (List.cons_ne_nil a []) same.symm
  · rw [List.concat_eq_append, List.getLast?_concat, Option.map_some, headwayKnown]
    exact ⟨k, front, a, d, after, by simpa using shape, rfl, rfl⟩

theorem headwayTimeless {i : Nat} {r : StopRecord} (known : rows[i]? = some r) (absent : r.stay.departure = none) :
    headwayAt key rows i = none := by
  cases some : headwayAt key rows i with
  | none => rfl
  | some s =>
    obtain ⟨k, before, a, d, after, shape, rfl, _⟩ := headwayKnown.mp some
    obtain ⟨row, departs, _⟩ := ((chainOfGroup key rows k).members d).mp (by rw [shape]; simp)
    rw [known] at row
    cases row
    rw [absent] at departs
    cases departs

theorem headwayForward {i : Nat} {s : Int} (known : headwayAt key rows i = some s) : 0 ≤ s := by
  obtain ⟨k, before, a, d, after, shape, _, rfl⟩ := headwayKnown.mp known
  have ordered := chainTimes key rows k
  rw [shape] at ordered
  have step := (List.pairwise_append.mp ordered).2.1
  exact Instant.secondsNonnegative ((List.pairwise_cons.mp step).1 d List.mem_cons_self)

end Known

end Chains

section Total

theorem stepsSum {chain front rest : List Departure} {previous : Departure} {headway : Nat → Option Int}
    (steps : ∀ before d after, chain = before ++ d :: after →
      headway d.place = before.getLast?.map fun previous => d.time.secondsSince previous.time)
    (shape : chain = front ++ previous :: rest) (whole : ∀ d ∈ chain, ∃ s, d.time = .ofSeconds s) :
    ∀ last ∈ (previous :: rest).getLast?, (rest.filterMap (headway ·.place)).sum = last.time.secondsSince previous.time := by
  obtain ⟨p, start⟩ := whole previous (by simp [shape])
  induction rest generalizing front previous p with
  | nil =>
    rintro _ ⟨⟩
    simp [start, Instant.secondsSinceWhole]
  | cons d rest ih =>
    obtain ⟨t, time⟩ := whole d (by simp [shape])
    rw [List.append_cons] at shape
    intro last ends
    rw [List.getLast?_cons_cons] at ends
    have later := ih shape t time last ends
    obtain ⟨s, finish⟩ := whole last (by simp [shape, List.mem_of_getLast? ends])
    have own := steps _ _ _ shape
    rw [List.getLast?_concat, Option.map_some] at own
    rw [List.filterMap_cons_some (f := fun d : Departure => headway d.place) own, List.sum_cons, later, start, time, finish]
    simp only [Instant.secondsSinceWhole]
    omega

variable [DecidableEq κ] {key : StopRecord → κ} {k : κ} {rows : List StopRecord}

def unplaced (d : Departure) : Instant × StopRecord := (d.time, d.record)

def departed (r : StopRecord) : Option (Instant × StopRecord) := r.stay.departure.map fun time => (time, r)

theorem groupDeparted (key : StopRecord → κ) (k : κ) (rows : List StopRecord) :
    ((departures rows).filter (key ·.record = k)).map unplaced = (rows.filter (key · = k)).filterMap departed := by
  conv => rhs; rw [← List.zipIdx_map_fst 0 rows]
  rw [departures, List.filter_filterMap, List.map_filterMap, List.filter_map, List.filterMap_map, List.filterMap_filter]
  refine List.filterMap_congr fun (r, place) _ => ?_
  cases departs : r.stay.departure <;> by_cases own : key r = k <;> simp [departed, unplaced, departs, own]

theorem groupTimes (key : StopRecord → κ) (k : κ) (rows : List StopRecord) :
    ((rows.filter (key · = k)).filterMap departed).map Prod.fst = times key k rows := by
  rw [List.map_filterMap, times]
  refine List.filterMap_congr fun r _ => ?_
  cases departs : r.stay.departure <;> simp [departed, departs]

theorem chainDeparted (key : StopRecord → κ) (k : κ) (rows : List StopRecord) :
    ((chainOf key rows k).map unplaced).Perm ((rows.filter (key · = k)).filterMap departed) := by
  rw [← groupDeparted]
  exact (sortOnPerm order _).map unplaced

theorem chainShows (key : StopRecord → κ) (k : κ) (rows : List StopRecord) :
    ((chainOf key rows k).map (·.time)).Perm (times key k rows) := by
  have shown := (chainDeparted key k rows).map Prod.fst
  rwa [List.map_map, groupTimes] at shown

theorem chainEnds {first last : Departure} (starts : first ∈ (chainOf key rows k).head?)
    (ends : last ∈ (chainOf key rows k).getLast?) :
    (times key k rows).min? = some first.time ∧ (times key k rows).max? = some last.time := by
  have shown := chainShows key k rows
  have ordered := chainTimes key rows k
  constructor
  · obtain ⟨rest, shape⟩ := List.head?_eq_some_iff.mp starts
    rw [shape] at shown ordered
    refine List.min?_eq_some_iff.mpr ⟨shown.mem_iff.mp (by simp), fun t member => ?_⟩
    rcases List.mem_cons.mp (shown.mem_iff.mpr member) with rfl | later
    · exact Instant.leRefl _
    · obtain ⟨d, inside, rfl⟩ := List.mem_map.mp later
      exact (List.pairwise_cons.mp ordered).1 d inside
  · obtain ⟨front, shape⟩ := List.getLast?_eq_some_iff.mp ends
    rw [shape] at shown ordered
    refine List.max?_eq_some_iff.mpr ⟨shown.mem_iff.mp (by simp), fun t member => ?_⟩
    obtain ⟨d, inside, rfl⟩ := List.mem_map.mp (shown.mem_iff.mpr member)
    rcases List.mem_append.mp inside with early | own
    · exact (List.pairwise_append.mp ordered).2.2 d early last (by simp)
    · rw [List.mem_singleton.mp own]
      exact Instant.leRefl _

variable [Ord κ] [TransOrd κ] [LawfulEqOrd κ]

theorem groupHeadways (key : StopRecord → κ) (k : κ) (rows : List StopRecord) : ofGroup key k rows (among key rows) =
    ((departures rows).filter (key ·.record = k)).filterMap (headwayAt key rows ·.place) := by
  have pairs : rows.zip (among key rows) = rows.zipIdx.map fun x => (x.1, headwayAt key rows x.2) := by
    show rows.zip ((List.range rows.length).map (headwayAt key rows)) = _
    rw [List.zip_map_right, List.range_eq_range', ← List.zipIdx_eq_zip_range']
    rfl
  rw [ofGroup, pairs, departures, List.filter_filterMap, List.filterMap_filterMap, List.filter_map, List.filterMap_map,
    List.filterMap_filter]
  refine List.filterMap_congr fun (r, place) member => ?_
  have known := List.mem_zipIdx_iff_getElem?.mp member
  cases departs : r.stay.departure with
  | none => simp [headwayTimeless known departs, departs]
  | some t => by_cases own : key r = k <;> simp [departs, own, Option.filter_some]

theorem headwaysSum (whole : ∀ t ∈ times key k rows, ∃ s, t = .ofSeconds s) :
    ∀ first ∈ (times key k rows).min?, ∀ last ∈ (times key k rows).max?,
      (ofGroup key k rows (among key rows)).sum = last.secondsSince first := by
  have sums : (ofGroup key k rows (among key rows)).sum =
      ((chainOf key rows k).filterMap (headwayAt key rows ·.place)).sum := by
    rw [groupHeadways]
    exact ((sortOnPerm order _).filterMap _).sum_eq.symm
  have shown := chainShows key k rows
  rw [sums]
  cases shape : chainOf key rows k with
  | nil =>
    rw [shape] at shown
    simp [List.nil_perm.mp shown]
  | cons d rest =>
    have whole : ∀ e ∈ chainOf key rows k, ∃ s, e.time = .ofSeconds s := fun e inside =>
      whole e.time (shown.mem_iff.mp (List.mem_map_of_mem inside))
    have split : chainOf key rows k = [] ++ d :: rest := shape
    obtain ⟨last, ends⟩ := Option.isSome_iff_exists.mp (List.getLast?_isSome.mpr (List.cons_ne_nil d rest))
    have starts : d ∈ (chainOf key rows k).head? := by rw [shape]; rfl
    have finishes : last ∈ (chainOf key rows k).getLast? := by rw [shape]; exact ends
    obtain ⟨least, greatest⟩ := chainEnds starts finishes
    rw [least, greatest]
    rintro _ ⟨⟩ _ ⟨⟩
    rw [List.filterMap_cons_none (f := fun e : Departure => headwayAt key rows e.place) (headwayChained split)]
    exact stepsSum (fun _ _ _ => headwayChained) split whole last ends

end Total

section Moved
variable [DecidableEq κ] {key : StopRecord → κ} {k : κ} {rows others : List StopRecord}

def orderOf (x : Instant × StopRecord) : Instant × String × String := (x.1, x.2.row.tripId, x.2.vehicleLabel)

theorem departedDistinct (distinct : Distinct key rows) (k : κ) :
    (((rows.filter (key · = k)).filterMap departed).map orderOf).Nodup := by
  refine List.pairwise_map.mpr (List.pairwise_filterMap.mpr ?_)
  refine (distinct.filter (key · = k)).imp_of_mem fun {a b} ha hb apart x hx y hy same => ?_
  obtain ⟨t, departs, rfl⟩ := Option.map_eq_some_iff.mp hx
  obtain ⟨u, leaves, rfl⟩ := Option.map_eq_some_iff.mp hy
  obtain ⟨rfl, trip, vehicle⟩ : t = u ∧ a.row.tripId = b.row.tripId ∧ a.vehicleLabel = b.vehicleLabel := by
    simpa [orderOf] using same
  have first := of_decide_eq_true (List.mem_filter.mp ha).2
  have second := of_decide_eq_true (List.mem_filter.mp hb).2
  exact apart (first.trans second.symm) t departs leaves (Prod.ext trip vehicle)

theorem chainUnplaced (key : StopRecord → κ) (k : κ) (rows : List StopRecord) :
    (chainOf key rows k).map unplaced = sortOn orderOf ((rows.filter (key · = k)).filterMap departed) := by
  rw [← groupDeparted, sortOnMap]
  rfl

theorem chainMoved (distinct : Distinct key rows) (perm : rows.Perm others) (k : κ) :
    (chainOf key rows k).map unplaced = (chainOf key others k).map unplaced := by
  rw [chainUnplaced, chainUnplaced]
  exact sortOnReordered (departedDistinct distinct k) ((perm.filter _).filterMap _)

variable [Ord κ] [TransOrd κ] [LawfulEqOrd κ]

theorem headwayMoved (distinct : Distinct key rows) (perm : rows.Perm others) {i j : Nat} {r : StopRecord}
    (here : rows[i]? = some r) (there : others[j]? = some r) : headwayAt key rows i = headwayAt key others j := by
  cases departs : r.stay.departure with
  | none => rw [headwayTimeless here departs, headwayTimeless there departs]
  | some t =>
    have first : (⟨i, t, r⟩ : Departure) ∈ chainOf key rows (key r) :=
      ((chainOfGroup key rows (key r)).members _).mpr ⟨here, departs, rfl⟩
    have second : (⟨j, t, r⟩ : Departure) ∈ chainOf key others (key r) :=
      ((chainOfGroup key others (key r)).members _).mpr ⟨there, departs, rfl⟩
    obtain ⟨before, after, shape⟩ := List.append_of_mem first
    obtain ⟨left, right, also⟩ := List.append_of_mem second
    have same := chainMoved distinct perm (key r)
    have single : ((chainOf key rows (key r)).map unplaced).Nodup := by
      have orders := departedDistinct distinct (key r)
      exact (chainDeparted key (key r) rows).nodup_iff.mpr (orders.of_map orderOf)
    rw [shape, also, List.map_append, List.map_append, List.map_cons, List.map_cons] at same
    rw [shape, List.map_append, List.map_cons] at single
    have fronts := congrArg (fun front => front.getLast?.map Prod.fst) (splitUnique single same)
    simp only [List.getLast?_map, Option.map_map] at fronts
    have own := headwayChained shape
    have other := headwayChained also
    have step := congrArg (Option.map fun previous : Instant => t.secondsSince previous) fronts
    rw [Option.map_map, Option.map_map] at step
    exact own.trans (step.trans other.symm)

theorem amongSpaced (key : StopRecord → κ) (rows : List StopRecord) : Spaced key (among key) rows where
  timeless i r known absent := by rw [amongAt key known, headwayTimeless known absent]
  chained k := by
    refine ⟨chainOf key rows k, chainOfGroup key rows k, fun before d after shape => ?_⟩
    have known := (((chainOfGroup key rows k).members d).mp (by rw [shape]; simp)).1
    rw [amongAt key known, headwayChained shape]
  forward s member := by
    obtain ⟨i, _, known⟩ := List.mem_map.mp member
    exact headwayForward known
  total _ whole := headwaysSum whole
  moved distinct others perm i j r here there := by
    rw [amongAt key here, amongAt key there, headwayMoved distinct perm here there]

end Moved

section Filled

theorem fillColumns (rows : List StopRecord) : (fill rows).map (fun r => (r.routeHeadway, r.destinationHeadway)) =
    (among routeKey rows).zip (among destinationKey rows) := by
  have pairs : ((among routeKey rows).zip (among destinationKey rows)).length = rows.length := by
    rw [List.length_zip, amongLength, amongLength, Nat.min_self]
  rw [fill, List.map_map]
  exact List.map_snd_zip (Nat.le_of_eq pairs)

theorem fillRoute (rows : List StopRecord) : (fill rows).map (·.routeHeadway) = among routeKey rows := by
  have columns := congrArg (List.map Prod.fst) (fillColumns rows)
  rwa [List.map_map, List.map_fst_zip (by rw [amongLength, amongLength])] at columns

theorem fillDestination (rows : List StopRecord) : (fill rows).map (·.destinationHeadway) = among destinationKey rows := by
  have columns := congrArg (List.map Prod.snd) (fillColumns rows)
  rwa [List.map_map, List.map_snd_zip (by rw [amongLength, amongLength])] at columns

theorem rowsSpaced (rows : List StopRecord) : (fill rows).map StopRecord.unspaced = rows.map StopRecord.unspaced ∧
    Spaced (fun r => (r.date, r.row.stopId, r.row.facts.directionId, r.row.facts.routeId))
      (fun rows => (fill rows).map (·.routeHeadway)) rows ∧
    Spaced (fun r => (r.date, r.row.stopId, r.row.facts.destination))
      (fun rows => (fill rows).map (·.destinationHeadway)) rows := by
  refine ⟨fillKeeps StopRecord.unspaced (fun _ _ _ => rfl) rows, ?_, ?_⟩
  · rw [funext fillRoute]
    exact amongSpaced routeKey rows
  · rw [funext fillDestination]
    exact amongSpaced destinationKey rows

def leaving (trip route : String) (seconds : Option Int) : StopRecord where
  row := { tripId := trip, stopId := "place", facts := { routeId := some route, destination := some "Ashmont" } }
  stay := { departure := seconds.map .ofSeconds }

/- Two buses of one route, out of order, a bus that was not seen to leave, and a bus of another route between the two. -/
def sharedStop : List StopRecord :=
  [leaving "b" "21" (some 600), leaving "a" "21" (some 0), leaving "c" "21" none, leaving "d" "22" (some 250)]

theorem rowsSpacedAtSharedStop :
    (fill sharedStop).map (fun r => (r.routeHeadway, r.destinationHeadway)) =
      [(some 600, some 350), (none, none), (none, none), (none, some 250)] ∧
    (ofGroup (fun r => (r.date, r.row.stopId, r.row.facts.destination)) (default, "place", some "Ashmont") sharedStop
      ((fill sharedStop).map (·.destinationHeadway))).sum = 600 := by
  refine ⟨by cbv, ?_⟩
  obtain ⟨_, _, spaced⟩ := rowsSpaced sharedStop
  have seen : times (fun r => (r.date, r.row.stopId, r.row.facts.destination)) (default, "place", some "Ashmont") sharedStop =
      [600, 0, 250].map Instant.ofSeconds := by decide
  refine spaced.total _ ?_ (.ofSeconds 0) (by rw [seen]; decide) (.ofSeconds 600) (by rw [seen]; decide)
  rw [seen]
  intro t member
  obtain ⟨s, _, rfl⟩ := List.mem_map.mp member
  exact ⟨s, rfl⟩

end Filled

end TransitTimeline.Headway
