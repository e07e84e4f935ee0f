import Mathlib.Data.List.Forall2
import TransitTimeline.Proofs.Order
import TransitTimeline.Proofs.Schedule.Windows
import TransitTimeline.Schedule.Skeleton

/-! Pairings of a pullout's stops with visits go forward in both schedules. -/
namespace TransitTimeline

theorem pairwiseCases {α : Type} {R : α → α → Prop} {xs : List α} (ordered : xs.Pairwise R) {a b : α}
    (ha : a ∈ xs) (hb : b ∈ xs) : a = b ∨ R a b ∨ R b a := by
  induction ordered with
  | nil => simp at ha
  | cons head _ ih =>
    rcases List.mem_cons.mp ha with rfl | left
    · rcases List.mem_cons.mp hb with rfl | right
      · exact .inl rfl
      · exact .inr (.inl (head b right))
    · rcases List.mem_cons.mp hb with rfl | right
      · exact .inr (.inr (head a left))
      · exact ih left right

namespace Visit

theorem ofStopsAt (stops : List PlannedStop) (i : Nat) : (ofStops stops)[i]? = stops[i]?.map (⟨·, i⟩) := by
  simp [ofStops, Option.map_map, Function.comp_def]

theorem ofStopsPlaces (stops : List PlannedStop) : (ofStops stops).map (·.place) = List.range stops.length := by
  simp [ofStops, Function.comp_def, List.zipIdx_map_snd, List.range_eq_range']

theorem ofStopsOrdered (stops : List PlannedStop) : (ofStops stops).Pairwise fun a b => a.place < b.place :=
  List.pairwise_map.mp (by rw [ofStopsPlaces]; exact List.pairwise_lt_range)

theorem orderedDistinct {visits : List Visit} (ordered : visits.Pairwise fun a b => a.place < b.place) : visits.Nodup :=
  ordered.imp fun {a b} less same => by rw [same] at less; exact Nat.lt_irrefl _ less

theorem memOfStops {stops : List PlannedStop} {v : Visit} : v ∈ ofStops stops ↔ stops[v.place]? = some v.stop := by
  rw [List.mem_iff_getElem?]
  constructor
  · rintro ⟨i, found⟩
    rw [ofStopsAt] at found
    obtain ⟨stop, known, rfl⟩ := Option.map_eq_some_iff.mp found
    exact known
  · intro known
    exact ⟨v.place, by rw [ofStopsAt, known]; rfl⟩

end Visit

namespace Pairing

theorem memEligible {w : Window} {visits : List Visit} {next : Nat} {t : PulloutStop} {v : Visit} :
    v ∈ eligible w visits next t ↔ v ∈ visits ∧ next ≤ v.place ∧ w.Holds v.stop ∧ v.stop.stopId = t.stopId := by
  simp only [eligible, List.mem_filter, Bool.and_eq_true, decide_eq_true_eq, Window.holdsExactly, and_assoc]

theorem alongVisits (w : Window) (visits : List Visit) (next : Nat) (stops : List PulloutStop) :
    ((along w visits next stops).filterMap (·.visit)).Pairwise (fun a b => a.place < b.place) ∧
      ∀ v ∈ (along w visits next stops).filterMap (·.visit), next ≤ v.place ∧ v ∈ visits := by
  induction stops generalizing next with
  | nil => simp [along]
  | cons t rest ih =>
    simp only [along]
    split
    · exact ih next
    · rename_i best others found
      have member : best ∈ eligible w visits next t := memSortOn.mp (by rw [found]; exact List.mem_cons_self)
      obtain ⟨inside, ahead, _⟩ := memEligible.mp member
      obtain ⟨ordered, later⟩ := ih (best.place + 1)
      simp only [List.filterMap_cons, List.pairwise_cons, List.forall_mem_cons]
      refine ⟨⟨fun v hv => (later v hv).1, ordered⟩, ⟨ahead, inside⟩, fun v hv => ⟨?_, (later v hv).2⟩⟩
      have behind := (later v hv).1
      omega

section Along
variable (w : Window) (visits : List Visit) (stops : List PulloutStop)

structure Forward (visits : List Visit) (pairings : List Pairing) : Prop where
  places : pairings.Pairwise fun p q => ∀ u ∈ p.visit, ∀ v ∈ q.visit, u.place < v.place
  sequences : pairings.Pairwise fun p q => p.stop.sequence ≤ q.stop.sequence
  known : ∀ p ∈ pairings, ∀ v ∈ p.visit, v ∈ visits

variable {w visits stops}

theorem alongForward (sorted : stops.Pairwise fun a b => a.sequence ≤ b.sequence) :
    Forward visits (along w visits 0 stops) := by
  obtain ⟨ordered, inside⟩ := alongVisits w visits 0 stops
  refine ⟨List.pairwise_filterMap.mp ordered, ?_, fun p member v taken => ?_⟩
  · rw [← alongStops w visits 0 stops] at sorted
    have ordered := List.pairwise_map.mp sorted
    exact ordered
  · exact (inside v (List.mem_filterMap.mpr ⟨p, member, taken⟩)).2

end Along

end Pairing

namespace Skeleton
open Pairing (Forward)

variable {visits : List Visit} {pairings : List Pairing}

theorem takenAtSome {v : Visit} {sequence : Int} (taken : takenAt pairings v = some sequence) :
    ∃ p ∈ pairings, p.visit = some v ∧ p.stop.sequence = sequence := by
  obtain ⟨p, found, rfl⟩ := Option.map_eq_some_iff.mp taken
  exact ⟨p, List.mem_of_find?_eq_some found, by simpa using List.find?_some found, rfl⟩

theorem takenAtOf (forward : Forward visits pairings) {p : Pairing} (member : p ∈ pairings) {v : Visit}
    (own : p.visit = some v) : takenAt pairings v = some p.stop.sequence := by
  cases found : pairings.find? (fun q => q.visit = some v) with
  | none => simpa [own] using List.find?_eq_none.mp found p member
  | some q =>
    have other : q.visit = some v := by simpa using List.find?_some found
    rcases pairwiseCases forward.places member (List.mem_of_find?_eq_some found) with rfl | before | before
    · simp [takenAt, found]
    · exact absurd (before v own v other) (Nat.lt_irrefl _)
    · exact absurd (before v other v own) (Nat.lt_irrefl _)

theorem takenAtOrdered (forward : Forward visits pairings) (ordered : visits.Pairwise fun a b => a.place < b.place) :
    ((visits.map (takenAt pairings)).filterMap id).Pairwise (· ≤ ·) := by
  rw [List.filterMap_map, List.pairwise_filterMap]
  refine ordered.imp fun {u v} before s hs t ht => ?_
  obtain ⟨p, hp, ownP, rfl⟩ := takenAtSome hs
  obtain ⟨q, hq, ownQ, rfl⟩ := takenAtSome ht
  rcases pairwiseCases (forward.places.and forward.sequences) hp hq with rfl | ⟨_, le⟩ | ⟨behind, _⟩
  · exact Int.le_refl _
  · exact le
  · have := behind v ownQ u ownP
    omega

end Skeleton

end TransitTimeline
