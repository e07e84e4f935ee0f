import Mathlib.Data.List.Nodup
import TransitTimeline.Journey.Event
import TransitTimeline.Proofs.Order
import TransitTimeline.Proofs.Sections

/-! Journeys and their events. The events of each journey stand together, on rows of one pullout of its trip. -/
namespace TransitTimeline

def StopEvent.key (e : StopEvent) : String × String := (e.row.tripId, e.vehicleLabel)

namespace Journey
open Std

def key (j : Journey) : String × String := (j.tripId, j.vehicleLabel)

theorem keysOrdered (gtfs : List GtfsObservation) (tm : List TmObservation) :
    ((ofObservations gtfs tm).map key).Pairwise fun a b => compare a b = .lt := by
  have ordered (ids : TreeSet (String × String)) : ids.toList.Pairwise fun a b => compare a b = .lt :=
    TreeSet.ordered_toList
  unfold ofObservations
  exact List.pairwise_map.mpr (List.pairwise_map.mpr (ordered _))

section Observed
variable {gtfs : List GtfsObservation} {tm : List TmObservation} {k : String × String}

def ownGtfs (k : String × String) (gtfs : List GtfsObservation) : List GtfsObservation :=
  gtfs.filter fun o => (o.tripId, o.vehicleLabel) = k

def ownTm (k : String × String) (tm : List TmObservation) : List TmObservation :=
  tm.filter fun o => (o.tripId, o.vehicleLabel) = k

def observed (gtfs : List GtfsObservation) (tm : List TmObservation) (k : String × String) : Journey :=
  ⟨k.1, k.2, ownGtfs k gtfs, ownTm k tm⟩

theorem observedOf {j : Journey} (member : j ∈ ofObservations gtfs tm) : j = observed gtfs tm j.key := by
  obtain ⟨k, _, rfl⟩ := List.mem_map.mp member
  simp only [Groups.rowsOfKey]
  rfl

theorem memInserted (keys : List (String × String)) (ids : TreeSet (String × String)) :
    k ∈ keys.foldl (fun (ids : TreeSet (String × String)) k => ids.insert k) ids ↔ k ∈ ids ∨ k ∈ keys := by
  induction keys generalizing ids with
  | nil => simp
  | cons first rest ih =>
    rw [List.foldl_cons, ih, TreeSet.mem_insert, LawfulEqCmp.compare_eq_iff_eq, List.mem_cons]
    simp only [eq_comm, or_assoc, or_left_comm]

theorem memObserved : k ∈ (ofObservations gtfs tm).map key ↔ ownGtfs k gtfs ≠ [] ∨ ownTm k tm ≠ [] := by
  have keys : (ofObservations gtfs tm).map key =
      (((Groups.ofRows (fun (o : GtfsObservation) => (o.tripId, o.vehicleLabel)) gtfs).keys ++
        (Groups.ofRows (fun (o : TmObservation) => (o.tripId, o.vehicleLabel)) tm).keys).foldl
          (fun (ids : TreeSet (String × String)) k => ids.insert k) {}).toList := by
    simp [ofObservations, key, Function.comp_def]
  rw [keys, TreeSet.mem_toList, memInserted, List.mem_append, TreeMap.mem_keys, TreeMap.mem_keys, Groups.memKeys,
    Groups.memKeys]
  simp [ownGtfs, ownTm]

theorem ownTwice : observed (ownGtfs k gtfs) (ownTm k tm) k = observed gtfs tm k := by
  simp [observed, ownGtfs, ownTm]

end Observed

section Pullouts
variable {rows : List SkeletonRow}

theorem memPulloutsOf {pullout : Option Int} {group : List SkeletonRow} :
    (pullout, group) ∈ pulloutsOf rows ↔
      (∃ r ∈ rows, r.pullout = pullout) ∧ group = sortOn (·.position) (rows.filter (·.pullout = pullout)) := by
  simp only [pulloutsOf, List.mem_map, Prod.exists, Prod.mk.injEq, Groups.memToList]
  constructor
  · rintro ⟨_, _, ⟨known, rfl⟩, rfl, rfl⟩
    exact ⟨known, rfl⟩
  · rintro ⟨known, rfl⟩
    exact ⟨pullout, _, ⟨known, rfl⟩, rfl, rfl⟩

theorem pulloutsOrdered (rows : List SkeletonRow) :
    (pulloutsOf rows).Pairwise fun a b => compare a.1 b.1 = .lt :=
  List.pairwise_map.mpr (Groups.ofRows (·.pullout) rows).ordered_keys_toList

theorem rowsOfKnown {pullouts : Pullouts} {pullout : Option Int} {skeleton : List SkeletonRow}
    (found : rowsOf? pullouts pullout = some skeleton) : (pullout, skeleton) ∈ pullouts := by
  obtain ⟨⟨p, group⟩, at?, rfl⟩ := Option.map_eq_some_iff.mp found
  have same : p = pullout := by simpa using List.find?_some at?
  rw [← same]
  exact List.mem_of_find?_eq_some at?

theorem skeletonKnown {pullouts : Pullouts} {j : Journey} {skeleton : List SkeletonRow}
    (chosen : skeleton? pullouts j = some skeleton) : ∃ pullout, (pullout, skeleton) ∈ pullouts := by
  unfold skeleton? at chosen
  split at chosen
  · cases chosen
  · cases chosen
    exact ⟨_, List.mem_cons_self⟩
  · split at chosen
    · exact ⟨_, rowsOfKnown chosen⟩
    · split at chosen
      · cases chosen
        exact ⟨_, List.mem_cons_self⟩
      · obtain ⟨⟨pullout, rows⟩, least, rfl⟩ := Option.map_eq_some_iff.mp chosen
        exact ⟨pullout, firstLeastMem least⟩

end Pullouts

section Events
variable (date : Day) (j : Journey)

theorem attachedRows (skeleton : List SkeletonRow) (gtfs : List (Option Nat × GtfsObservation))
    (tm : List (Option Nat × TmObservation)) : ((attached skeleton gtfs tm).map (·.row)).Sublist skeleton := by
  have rows : skeleton.zipIdx.map Prod.fst = skeleton := List.zipIdx_map_fst 0 skeleton
  unfold attached
  refine (List.filter_sublist.map _).trans ?_
  rw [List.map_map]
  conv => rhs; rw [← rows]
  exact .refl _

theorem eventRows (skeleton : List SkeletonRow) :
    ((eventsOn date skeleton j).events.map (·.row)).Sublist skeleton := by
  have rows := attachedRows skeleton (assign (gtfsPlace? skeleton) j.gtfs) (assign (tmPlace? skeleton) j.tm)
  have kept := ((Skeleton.trimSuffix (fun a : Attached => Skeleton.isPlanned a.row) (attached skeleton
    (assign (gtfsPlace? skeleton) j.gtfs) (assign (tmPlace? skeleton) j.tm))).sublist.map (·.row)).trans rows
  rw [eventsOn, List.map_map]
  exact kept

theorem eventLabels (skeleton : List SkeletonRow) :
    ∀ e ∈ (eventsOn date skeleton j).events, e.vehicleLabel = j.vehicleLabel := by
  intro e member
  obtain ⟨a, _, rfl⟩ := List.mem_map.mp member
  rfl

theorem eventsAlong (rows : List SkeletonRow) :
    (events date (Groups.ofRows (·.tripId) rows) j).events =
      ((skeleton? (pulloutsOf (rows.filter (·.tripId = j.tripId))) j).map fun skeleton =>
        (eventsOn date skeleton j).events).getD [] := by
  unfold events
  rw [Groups.rowsOfKey]
  cases skeleton? (pulloutsOf (rows.filter (·.tripId = j.tripId))) j <;> rfl

theorem eventKeys (rows : List SkeletonRow) :
    ∀ e ∈ (events date (Groups.ofRows (·.tripId) rows) j).events, e.key = j.key := by
  intro e member
  rw [eventsAlong] at member
  cases chosen : skeleton? (pulloutsOf (rows.filter (·.tripId = j.tripId))) j with
  | none => simp [chosen] at member
  | some skeleton =>
    rw [chosen] at member
    obtain ⟨pullout, known⟩ := skeletonKnown chosen
    obtain ⟨_, rfl⟩ := memPulloutsOf.mp known
    have inside := (eventRows date j _).subset (List.mem_map_of_mem member)
    have own := (List.mem_filter.mp (List.mem_of_mem_filter (memSortOn.mp inside))).2
    have trip : e.row.tripId = j.tripId := by simpa using own
    exact Prod.ext trip (eventLabels date j _ e member)

end Events

section Join
variable (date : Day) (rows : List SkeletonRow) (gtfs : List GtfsObservation) (tm : List TmObservation)

theorem joinSections :
    Sections (fun key all => ∃ j ∈ ofObservations gtfs tm, j.key = key ∧
      all = (events date (Groups.ofRows (·.tripId) rows) j).events)
      ((ofObservations gtfs tm).map key) (join date rows gtfs tm).events := by
  refine .ofPaired (List.forall₂_map_right_iff.mpr (List.forall₂_same.mpr fun j member => ?_))
  exact ⟨j, member, rfl, rfl⟩

theorem sectionKeys : ∀ k all, (∃ j ∈ ofObservations gtfs tm, j.key = k ∧
    all = (events date (Groups.ofRows (·.tripId) rows) j).events) → ∀ e ∈ all, e.key = k := by
  rintro _ _ ⟨other, _, rfl, rfl⟩
  exact eventKeys date other rows

theorem joinSorted : (join date rows gtfs tm).events.Pairwise fun a b => (compare a.key b.key).isLE := by
  refine (joinSections date rows gtfs tm).pairwise (sectionKeys date rows gtfs tm) ?_ (keysOrdered gtfs tm)
    fun a b less => by rw [less]; rfl
  rintro _ _ ⟨j, _, rfl, rfl⟩
  refine List.pairwise_of_forall_mem_list fun a ha b hb => ?_
  rw [eventKeys date j rows a ha, eventKeys date j rows b hb]
  simp

variable {rows gtfs tm}

theorem joinedOfJourney {j : Journey} (member : j ∈ ofObservations gtfs tm) :
    (join date rows gtfs tm).events.filter (·.key = j.key) =
      (events date (Groups.ofRows (·.tripId) rows) j).events := by
  have distinct := orderedDistinct (keysOrdered gtfs tm)
  obtain ⟨other, known, same, own⟩ := (joinSections date rows gtfs tm).filterOwn (sectionKeys date rows gtfs tm) distinct
    (List.mem_map_of_mem member)
  rw [own, List.inj_on_of_nodup_map distinct known member same]

end Join

end Journey

end TransitTimeline
