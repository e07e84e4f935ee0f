import Mathlib.Data.List.TakeWhile
import TransitTimeline.Proofs.Column
import TransitTimeline.Proofs.Paired
import TransitTimeline.Schedule.Skeleton

/-! Finishing a partition: leading rows that GTFS does not plan are dropped, facts are completed, rows are numbered;
nothing else of a row changes. -/
namespace TransitTimeline

theorem Column.fillFieldKept {ρ α : Type} {R : ρ → ρ → Prop} {get : ρ → Option α} {put : ρ → Option α → ρ}
    (step : ∀ r v, (∀ a ∈ get r, v = some a) → R r (put r v)) (rows : List ρ) :
    List.Forall₂ R rows (fillField get put rows) := by
  refine List.forall₂_iff_get.mpr ⟨(fillFieldLength get put rows).symm, fun i inside _ => ?_⟩
  have filled : i < (fill (rows.map get)).length := by simpa [fillLength] using inside
  have value : (fillField get put rows).get ⟨i, by simpa [fillFieldLength] using inside⟩ =
      put rows[i] (fill (rows.map get))[i] := by simp [fillField]
  rw [value]
  refine step rows[i] _ fun a own => ?_
  have known : (rows.map get)[i]? = some (some a) := by
    rw [List.getElem?_map, List.getElem?_eq_getElem inside, Option.map_some, Option.mem_def.mp own]
  exact (List.getElem_eq_iff filled).mpr (fillKeeps known)

namespace TripFacts

structure Extends (known facts : TripFacts) : Prop where
  tripIdGtfs : ∀ v ∈ known.tripIdGtfs, facts.tripIdGtfs = some v
  routeId : ∀ v ∈ known.routeId, facts.routeId = some v
  directionId : ∀ v ∈ known.directionId, facts.directionId = some v
  direction : ∀ v ∈ known.direction, facts.direction = some v
  destination : ∀ v ∈ known.destination, facts.destination = some v
  serviceId : ∀ v ∈ known.serviceId, facts.serviceId = some v
  blockId : ∀ v ∈ known.blockId, facts.blockId = some v
  patternId : ∀ v ∈ known.patternId, facts.patternId = some v
  tmPatternId : ∀ v ∈ known.tmPatternId, facts.tmPatternId = some v
  tmBlockId : ∀ v ∈ known.tmBlockId, facts.tmBlockId = some v
  tmRunId : ∀ v ∈ known.tmRunId, facts.tmRunId = some v

theorem Extends.refl (facts : TripFacts) : Extends facts facts := by
  constructor <;> exact fun v own => own

theorem Extends.trans {a b c : TripFacts} (first : Extends a b) (second : Extends b c) : Extends a c := by
  constructor <;> intro v own
  · exact second.tripIdGtfs v (first.tripIdGtfs v own)
  · exact second.routeId v (first.routeId v own)
  · exact second.directionId v (first.directionId v own)
  · exact second.direction v (first.direction v own)
  · exact second.destination v (first.destination v own)
  · exact second.serviceId v (first.serviceId v own)
  · exact second.blockId v (first.blockId v own)
  · exact second.patternId v (first.patternId v own)
  · exact second.tmPatternId v (first.tmPatternId v own)
  · exact second.tmBlockId v (first.tmBlockId v own)
  · exact second.tmRunId v (first.tmRunId v own)

theorem fillStep {α : Type} {get : TripFacts → Option α} {put : TripFacts → Option α → TripFacts}
    (step : ∀ f v, (∀ a ∈ get f, v = some a) → Extends f (put f v)) {base facts : List TripFacts}
    (known : List.Forall₂ Extends base facts) : List.Forall₂ Extends base (Column.fillField get put facts) :=
  pairedTrans known (Column.fillFieldKept step facts) fun _ _ _ => Extends.trans

theorem fillExtends (facts : List TripFacts) : List.Forall₂ Extends facts (fill facts) := by
  unfold fill
  repeat' refine fillStep (fun f v kept => ?_) ?_
  case refine_2 => exact List.forall₂_same.mpr fun f _ => Extends.refl f
  all_goals
    constructor
    all_goals first | exact kept | exact fun _ own => own

end TripFacts

namespace Skeleton

structure Kept (r s : SkeletonRow) : Prop where
  facts : r.facts.Extends s.facts
  rest : s = { r with position := s.position, place := s.place, facts := s.facts }

theorem Kept.trans {r s t : SkeletonRow} (first : Kept r s) (second : Kept s t) : Kept r t where
  facts := first.facts.trans second.facts
  rest := by
    rw [second.rest]
    conv => lhs; rw [first.rest]

theorem Kept.isPlanned {r s : SkeletonRow} (kept : Kept r s) : isPlanned r = isPlanned s := by
  rw [kept.rest]
  rfl

theorem fillFactsKept (rows : List SkeletonRow) : List.Forall₂ Kept rows (fillFacts rows) := by
  have filled := List.forall₂_map_left_iff.mp (TripFacts.fillExtends (rows.map (·.facts)))
  unfold fillFacts
  generalize TripFacts.fill (rows.map (·.facts)) = facts at filled
  induction filled with
  | nil => exact .nil
  | cons head _ ih => exact .cons ⟨head, rfl⟩ ih

theorem numberKept (rows : List SkeletonRow) : List.Forall₂ Kept rows (number rows) := by
  have each (first count : Nat) : List.Forall₂ Kept rows ((rows.zipIdx first).map fun x =>
      { x.1 with position := x.2 + 1, place := placeOf count x.2 }) := by
    induction rows generalizing first with
    | nil => exact .nil
    | cons r rest ih => exact .cons ⟨.refl _, rfl⟩ (ih (first + 1))
  exact each 0 rows.length

theorem finishKept (rows : List SkeletonRow) : List.Forall₂ Kept (trim isPlanned rows) (finish rows).rows :=
  pairedTrans (fillFactsKept _) (numberKept _) fun _ _ _ => Kept.trans

theorem numberPositions (rows : List SkeletonRow) :
    (number rows).map (·.position) = (List.range rows.length).map fun (i : Nat) => (i : Int) + 1 := by
  rw [List.range_eq_range', ← List.zipIdx_map_snd 0 rows, number, List.map_map, List.map_map]
  rfl

section Trim
variable {ρ : Type} {p : ρ → Bool} {rows : List ρ}

theorem trimFilter : (trim p rows).filter p = rows.filter p := by
  unfold trim
  split
  · conv => rhs; rw [← List.takeWhile_append_dropWhile (p := fun r => !p r) (l := rows)]
    have dropped : (rows.takeWhile fun r => !p r).filter p = [] :=
      List.filter_eq_nil_iff.mpr fun r member => by simpa using List.mem_takeWhile_imp member
    rw [List.filter_append, dropped, List.nil_append]
  · rfl

theorem trimHead (some : ∃ r ∈ rows, p r) : ∃ r ∈ (trim p rows).head?, p r := by
  have any : rows.any p := List.any_eq_true.mpr some
  rw [trim, if_pos any, ← List.find?_eq_head?_dropWhile_not]
  obtain ⟨r, found⟩ := Option.isSome_iff_exists.mp (List.find?_isSome.mpr some)
  exact ⟨r, found, List.find?_some found⟩

theorem trimMap {σ : Type} {f : σ → ρ} (rows : List σ) : trim p (rows.map f) = (trim (fun x => p (f x)) rows).map f := by
  simp only [trim, List.any_map, List.dropWhile_map, Function.comp_def]
  split <;> rfl

theorem trimSplit (some : ∃ r ∈ rows, p r) : ∃ lead, rows = lead ++ trim p rows ∧ (∀ r ∈ lead, p r = false) ∧
    ∃ r ∈ (trim p rows).head?, p r := by
  refine ⟨rows.takeWhile fun r => !p r, ?_, ?_, trimHead some⟩
  · rw [trim, if_pos (List.any_eq_true.mpr some), List.takeWhile_append_dropWhile]
  · intro r member
    simpa using List.mem_takeWhile_imp member

theorem memTrim {place : ρ → Nat} (ordered : rows.Pairwise fun a b => place a < place b) {x : ρ} (member : x ∈ rows) :
    x ∈ trim p rows ↔ ∀ y ∈ rows, p y → ∃ z ∈ rows, p z ∧ place z ≤ place x := by
  by_cases some : ∃ y ∈ rows, p y
  · obtain ⟨lead, split, without, head, first, own⟩ := trimSplit some
    rw [split] at ordered
    obtain ⟨_, behind, across⟩ := List.pairwise_append.mp ordered
    have known : head ∈ trim p rows := List.mem_of_mem_head? first
    constructor
    · intro kept y _ _
      refine ⟨head, (trimSuffix p rows).subset known, own, ?_⟩
      obtain ⟨rest, shape⟩ := List.head?_eq_some_iff.mp first
      rw [shape] at kept behind
      rcases List.mem_cons.mp kept with rfl | later
      · exact Nat.le_refl _
      · exact Nat.le_of_lt ((List.pairwise_cons.mp behind).1 x later)
    · intro all
      obtain ⟨y, inside, has⟩ := some
      obtain ⟨z, listed, has, le⟩ := all y inside has
      rw [split] at member listed
      rcases List.mem_append.mp member with early | kept
      · rcases List.mem_append.mp listed with also | later
        · rw [without z also] at has
          cases has
        · exact absurd (across x early z later) (Nat.not_lt.mpr le)
      · exact kept
  · have none : rows.any p = false := by
      simpa using some
    rw [trim, none]
    exact iff_of_true member fun y inside own => absurd ⟨y, inside, own⟩ some

end Trim

end Skeleton

structure SkeletonRow.Shows (r : SkeletonRow) (g : PlannedStop) : Prop where
  tripId : r.tripId = g.tripId
  stopId : r.stopId = g.stopId
  stopName : r.stopName = g.stopName
  parent : r.parent = g.parent
  sequence : r.gtfsSequence = some g.sequence
  departure : r.planned = g.departure
  facts : (TripFacts.ofStops (some g) none).Extends r.facts

theorem showsOfStops (g : PlannedStop) (t : Option PulloutStop) (pullout : Option Int) :
    SkeletonRow.Shows (.ofStops (some g) t pullout) g := by
  refine ⟨rfl, rfl, rfl, rfl, rfl, rfl, ?_⟩
  constructor
  case tmPatternId | tmBlockId | tmRunId => simp [TripFacts.ofStops]
  all_goals exact fun v own => own

theorem Skeleton.Kept.shows {r s : SkeletonRow} {g : PlannedStop} (kept : Kept r s) (shows : r.Shows g) : s.Shows g := by
  rw [kept.rest]
  exact { shows with facts := shows.facts.trans kept.facts }

end TransitTimeline
