import TransitTimeline.Proofs.Gathering
import TransitTimeline.Proofs.Schedule.Pairing
import TransitTimeline.Schedule.Service

/-! Services and routes in any order of their rows. For each service the exceptions of the date turn it on or off in their
order, so the order counts only where there are several of one service. -/
namespace TransitTimeline.Gtfs
open Std

theorem busRoutesReordered {routes others : List Route} (perm : routes.Perm others) (id : String) :
    (busRoutes routes).contains id = (busRoutes others).contains id :=
  insertedReordered (perm.filter _) id

def Exception.leaves (date : Day) (service : String) (runs : Bool) (e : Exception) : Bool :=
  if e.serviceId = service ∧ Day.ofCompact? e.date = some date then
    if e.kind = 1 then true else if e.kind = 2 then false else runs
  else runs

theorem Exception.leavesApplied (date : Day) (service : String) (active : TreeSet String) (e : Exception) :
    (e.apply date active).contains service = e.leaves date service (active.contains service) := by
  unfold apply leaves
  split
  · rename_i other
    rw [if_neg fun both => other both.2]
  · rename_i day
    have dated : e.serviceId = service ∧ Day.ofCompact? e.date = some date ↔ e.serviceId = service :=
      and_iff_left (not_not.mp day)
    simp only [dated]
    have named : (compare e.serviceId service == .eq) = decide (e.serviceId = service) := by
      rw [Bool.eq_iff_iff, beq_iff_eq, decide_eq_true_iff, LawfulEqCmp.compare_eq_iff_eq]
    split
    · simp [TreeSet.contains_insert, named]
    · split
      · simp [TreeSet.contains_erase, bne, named]
      · exact (ite_self _).symm

theorem activeServicesLeft (date : Day) (service : String) (weeks : List Week) (exceptions : List Exception) :
    (activeServices date weeks exceptions).contains service =
      exceptions.foldl (Exception.leaves date service) ((weeklyServices date weeks).contains service) := by
  have step (active : TreeSet String) : (exceptions.foldl (Exception.apply date) active).contains service =
      exceptions.foldl (Exception.leaves date service) (active.contains service) := by
    induction exceptions generalizing active with
    | nil => rfl
    | cons e rest ih => rw [List.foldl_cons, List.foldl_cons, ih, Exception.leavesApplied]
  exact step _

def Exception.Apart (a b : Exception) : Prop :=
  a.serviceId = b.serviceId → ∀ date, Day.ofCompact? a.date = some date → Day.ofCompact? b.date ≠ some date

theorem Exception.Apart.leaves {a b : Exception} (apart : a.Apart b) (date : Day) (service : String) (runs : Bool) :
    b.leaves date service (a.leaves date service runs) = a.leaves date service (b.leaves date service runs) := by
  unfold Exception.leaves
  by_cases own : a.serviceId = service ∧ Day.ofCompact? a.date = some date
  · have other : ¬(b.serviceId = service ∧ Day.ofCompact? b.date = some date) := fun also =>
      apart (own.1.trans also.1.symm) date own.2 also.2
    rw [if_neg other, if_neg other]
  · rw [if_neg own, if_neg own]

theorem leavesInAnyOrder {exceptions : List Exception} (apart : exceptions.Pairwise Exception.Apart) (date : Day)
    (service : String) :
    ∀ a ∈ exceptions, ∀ b ∈ exceptions, ∀ runs,
      b.leaves date service (a.leaves date service runs) = a.leaves date service (b.leaves date service runs) := by
  intro a ha b hb runs
  obtain rfl | first | second := pairwiseCases apart ha hb
  · rfl
  · exact first.leaves date service runs
  · exact (second.leaves date service runs).symm

theorem activeServicesReordered {weeks otherWeeks : List Week} {exceptions others : List Exception}
    (perm : weeks.Perm otherWeeks) (apart : exceptions.Pairwise Exception.Apart) (reordered : exceptions.Perm others)
    (date : Day) (service : String) :
    (activeServices date weeks exceptions).contains service = (activeServices date otherWeeks others).contains service := by
  have weekly : (weeklyServices date weeks).contains service = (weeklyServices date otherWeeks).contains service :=
    insertedReordered (perm.filter _) service
  rw [activeServicesLeft, activeServicesLeft, weekly]
  exact reordered.foldl_eq' (leavesInAnyOrder apart date service) _

end TransitTimeline.Gtfs
