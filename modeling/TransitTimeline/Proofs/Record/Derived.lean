import TransitTimeline.Proofs.Blocks
import TransitTimeline.Proofs.Journey.Join
import TransitTimeline.Proofs.Record.Settle
import TransitTimeline.Record.Headway

/-! Derived records follow each other as their events do: journeys stay in order, and inside a journey neither the
numbers of the stops nor the times go back. -/
namespace TransitTimeline
open Std

structure StopEvent.Follows (a b : StopEvent) : Prop where
  journeys : (compare a.key b.key).isLE
  sequences : a.key = b.key → ∀ x ∈ a.row.gtfsSequence, ∀ y ∈ b.row.gtfsSequence, x ≤ y

namespace StopRecord

structure Follows (a b : StopRecord) : Prop where
  journeys : (compare a.journey b.journey).isLE
  sequences : a.journey = b.journey → ∀ x ∈ a.row.gtfsSequence, ∀ y ∈ b.row.gtfsSequence, x ≤ y
  stays : a.journey = b.journey → Stay.Ordered a.stay b.stay

section Journey
variable {events : List StopEvent}

theorem journeyFollows (ordered : events.Pairwise StopEvent.Follows) : (ofJourney events).Pairwise Follows := by
  have stays : (ofJourney events).Pairwise fun a b => Stay.Ordered a.stay b.stay := by
    refine List.pairwise_map.mp ?_
    rw [journeyStays]
    exact Stay.staysOrdered events
  have rows : (ofJourney events).Pairwise fun a b => (compare a.journey b.journey).isLE ∧
      (a.journey = b.journey → ∀ x ∈ a.row.gtfsSequence, ∀ y ∈ b.row.gtfsSequence, x ≤ y) := by
    have shown : ((ofJourney events).map fun r => (r.row.gtfsSequence, r.journey)).Pairwise fun a b =>
        (compare a.2 b.2).isLE ∧ (a.2 = b.2 → ∀ x ∈ a.1, ∀ y ∈ b.1, x ≤ y) := by
      rw [journeyRows]
      exact List.pairwise_map.mpr (ordered.imp fun {a b} follows => ⟨follows.journeys, follows.sequences⟩)
    exact List.pairwise_map.mp shown
  exact (rows.and stays).imp fun {a b} both => ⟨both.1.1, both.1.2, fun _ => both.2⟩

theorem journeyKnown : ∀ r ∈ ofJourney events, ∃ e ∈ events, r.journey = e.key := by
  intro r member
  have known : (r.row.gtfsSequence, r.journey) ∈ (ofJourney events).map fun r => (r.row.gtfsSequence, r.journey) :=
    List.mem_map_of_mem member
  rw [journeyRows] at known
  obtain ⟨e, inside, same⟩ := List.mem_map.mp known
  exact ⟨e, inside, (Prod.mk.inj same).2.symm⟩

theorem ofEventsBlocks (events : List StopEvent) :
    ofEvents events = (events.splitBy fun a b => a.key = b.key).flatMap ofJourney := by
  have sameKey : (fun a b : StopEvent => decide (a.row.tripId = b.row.tripId) && decide (a.vehicleLabel = b.vehicleLabel)) =
      fun a b => decide (a.key = b.key) := by
    funext a b
    simp [StopEvent.key]
  rw [ofEvents, sameKey]

theorem eventsFollow (ordered : events.Pairwise StopEvent.Follows) : (ofEvents events).Pairwise Follows := by
  have grouped : Grouped StopEvent.key events := groupedOfSorted (ordered.imp fun follows => follows.journeys)
  rw [ofEventsBlocks]
  have split := ordered
  rw [← List.flatten_splitBy (fun a b => decide (a.key = b.key)) events, List.pairwise_flatten] at split
  refine List.pairwise_flatMap.mpr ⟨fun block member => journeyFollows (split.1 block member), ?_⟩
  refine (split.2.and grouped).imp fun {x y} both a ha b hb => ?_
  obtain ⟨e, he, ownA⟩ := journeyKnown a ha
  obtain ⟨f, hf, ownB⟩ := journeyKnown b hb
  have apart : a.journey ≠ b.journey := by
    rw [ownA, ownB]
    exact both.2 e he f hf
  refine ⟨?_, fun same => absurd same apart, fun same => absurd same apart⟩
  rw [ownA, ownB]
  exact (both.1 e he f hf).journeys

end Journey

end StopRecord

namespace Headway

theorem amongLength {κ : Type} [Ord κ] (key : StopRecord → κ) (rows : List StopRecord) :
    (among key rows).length = rows.length := by
  simp [among]

theorem fillKeeps {β : Type} (show? : StopRecord → β)
    (kept : ∀ r route destination, show? { r with routeHeadway := route, destinationHeadway := destination } = show? r)
    (rows : List StopRecord) : (fill rows).map show? = rows.map show? := by
  have pairs : ((among routeKey rows).zip (among destinationKey rows)).length = rows.length := by
    rw [List.length_zip, amongLength, amongLength, Nat.min_self]
  have first := List.map_fst_zip (Nat.le_of_eq pairs.symm)
  conv => rhs; rw [← first]
  rw [fill, List.map_map, List.map_map]
  exact List.map_congr_left fun row _ => kept row.1 row.2.1 row.2.2

end Headway

namespace StopRecord
variable {events : List StopEvent}

def judged (r : StopRecord) : SkeletonRow × String × Stay := (r.row, r.vehicleLabel, r.stay)

theorem derivedJudged (events : List StopEvent) : (derive events).map judged = (ofEvents events).map judged :=
  Headway.fillKeeps judged (fun _ _ _ => rfl) _

theorem deriveFollows (ordered : events.Pairwise StopEvent.Follows) : (derive events).Pairwise Follows := by
  have shown : ((derive events).map judged).Pairwise fun a b =>
      (compare (a.1.tripId, a.2.1) (b.1.tripId, b.2.1)).isLE ∧
      ((a.1.tripId, a.2.1) = (b.1.tripId, b.2.1) → ∀ x ∈ a.1.gtfsSequence, ∀ y ∈ b.1.gtfsSequence, x ≤ y) ∧
      ((a.1.tripId, a.2.1) = (b.1.tripId, b.2.1) → Stay.Ordered a.2.2 b.2.2) := by
    rw [derivedJudged]
    refine List.pairwise_map.mpr ((eventsFollow ordered).imp fun {a b} follows => ?_)
    exact ⟨follows.journeys, follows.sequences, follows.stays⟩
  exact (List.pairwise_map.mp shown).imp fun {a b} all => ⟨all.1, all.2.1, all.2.2⟩

theorem derivedAlone (events : List StopEvent) :
    (derive events).map alone = events.map fun e => ofEvent false e none {} := by
  rw [derive, Headway.fillKeeps alone (fun _ _ _ => rfl), ofEventsBlocks, List.map_flatMap,
    List.flatMap_congr fun block _ => journeyAlone block, ← List.map_flatMap, List.flatMap_id', List.flatten_splitBy]

theorem derivedGrouped (sorted : events.Pairwise fun a b => (compare a.key b.key).isLE) :
    Grouped StopRecord.journey (derive events) := by
  have journeys : (derive events).map journey = events.map StopEvent.key := by
    have shown := congrArg (List.map journey) (derivedAlone events)
    rwa [List.map_map, List.map_map] at shown
  have ordered : ((derive events).map journey).Pairwise fun a b => (compare a b).isLE := by
    rw [journeys]
    exact List.pairwise_map.mpr sorted
  exact groupedOfSorted (List.pairwise_map.mp ordered)

def unspaced (r : StopRecord) : StopRecord := { r with routeHeadway := none, destinationHeadway := none }

theorem unspacedFilter (rows : List StopRecord) (k : String × String) :
    (rows.filter (·.journey = k)).map unspaced = (rows.map unspaced).filter (·.journey = k) := by
  rw [List.filter_map]
  rfl

theorem derivedIsolated (sorted : events.Pairwise fun a b => (compare a.key b.key).isLE)
    (k : String × String) :
    ((derive events).filter (·.journey = k)).map unspaced = (ofJourney (events.filter (·.key = k))).map unspaced := by
  have grouped : Grouped StopEvent.key events := groupedOfSorted sorted
  have own := grouped.blocks.flatMapFilter (fun block r (member : r ∈ ofJourney block) => journeyKnown r member) k
  rw [List.flatten_splitBy] at own
  rw [← own, ← ofEventsBlocks, unspacedFilter, unspacedFilter, derive, Headway.fillKeeps unspaced fun _ _ _ => rfl]

theorem derivedOfJourney (sorted : events.Pairwise fun a b => (compare a.key b.key).isLE) (key : String × String) :
    ((derive events).filter (·.journey = key)).map judged = (ofJourney (events.filter (·.key = key))).map judged := by
  have own := congrArg (List.map judged) (derivedIsolated sorted key)
  rw [List.map_map, List.map_map] at own
  exact own

end StopRecord

end TransitTimeline
