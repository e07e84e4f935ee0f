import Mathlib.Data.List.Induction
import TransitTimeline.Proofs.Schedule.Services

/-! Which services run on a date. The last exception of a service for the date decides, and without one its weeks do; rows that
say nothing of the date change nothing, wherever they stand. -/
namespace TransitTimeline.Gtfs
open Std

variable {date : Day} {service : String}

def Last {ρ : Type} (holds : ρ → Prop) (rows : List ρ) (r : ρ) : Prop :=
  ∃ before after, rows = before ++ r :: after ∧ holds r ∧ ∀ s ∈ after, ¬holds s

theorem lastAppended {ρ : Type} {holds : ρ → Prop} {rows : List ρ} {r s : ρ} :
    Last holds (rows ++ [s]) r ↔ (holds s ∧ r = s) ∨ (¬holds s ∧ Last holds rows r) := by
  constructor
  · rintro ⟨before, after, whole, own, none⟩
    rcases List.eq_nil_or_concat after with rfl | ⟨rest, final, rfl⟩
    · obtain ⟨rfl, same⟩ := List.append_inj' whole rfl
      cases same
      exact .inl ⟨own, rfl⟩
    · rw [List.concat_eq_append, ← List.cons_append, ← List.append_assoc] at whole
      obtain ⟨rfl, same⟩ := List.append_inj' whole rfl
      cases same
      exact .inr ⟨none s (by simp), before, rest, rfl, own, fun x member => none x (by simp [member])⟩
  · rintro (⟨own, rfl⟩ | ⟨other, before, after, rfl, own, none⟩)
    · exact ⟨rows, [], rfl, own, by simp⟩
    · refine ⟨before, after ++ [s], by simp, own, ?_⟩
      intro x member
      rcases List.mem_append.mp member with inside | final
      · exact none x inside
      · exact List.mem_singleton.mp final ▸ other

section Rows

def Exception.Dated (date : Day) (e : Exception) : Prop := Day.ofCompact? e.date = some date ∧ (e.kind = 1 ∨ e.kind = 2)
instance (e : Exception) : Decidable (e.Dated date) := by unfold Exception.Dated; infer_instance

def Exception.Names (date : Day) (service : String) (e : Exception) : Prop := e.serviceId = service ∧ e.Dated date
instance (e : Exception) : Decidable (e.Names date service) := by unfold Exception.Names; infer_instance

def Week.Covers (date : Day) (w : Week) : Prop := ∃ start finish, Day.ofCompact? w.start = some start ∧
  Day.ofCompact? w.finish = some finish ∧ start ≤ date ∧ date ≤ finish ∧ w.flag date.weekday = 1

theorem Week.runsOnExactly {w : Week} : w.runsOn date ↔ w.Covers date := by
  unfold runsOn Covers
  split
  · rename_i start finish first last
    simp [first, last, and_assoc]
  · rename_i unread
    refine iff_of_false (by simp) ?_
    rintro ⟨start, finish, first, last, _⟩
    exact unread start finish first last

instance (w : Week) : Decidable (w.Covers date) := decidable_of_iff _ Week.runsOnExactly

end Rows

section Left

theorem weeklyExactly {weeks : List Week} :
    service ∈ weeklyServices date weeks ↔ ∃ w ∈ weeks, w.serviceId = service ∧ w.Covers date := by
  rw [weeklyServices, memInserting]
  simp only [List.mem_filter, Week.runsOnExactly, TreeSet.not_mem_emptyc, false_or]
  exact exists_congr fun w => and_assoc.trans (and_congr_right fun _ => and_comm)

theorem Exception.leavesOf {e : Exception} {runs : Bool} (own : e.Names date service) :
    e.leaves date service runs = decide (e.kind = 1) := by
  obtain ⟨named, dated, kind⟩ := own
  rw [leaves, if_pos ⟨named, dated⟩]
  rcases kind with one | two
  · simp [one]
  · simp [two]

theorem Exception.leavesOther {e : Exception} {runs : Bool} (other : ¬e.Names date service) :
    e.leaves date service runs = runs := by
  unfold leaves
  split
  · rename_i own
    have kind : e.kind ≠ 1 ∧ e.kind ≠ 2 := not_or.mp fun kind => other ⟨own.1, own.2, kind⟩
    rw [if_neg kind.1, if_neg kind.2]
  · rfl

/- The exceptions are taken from the last one on: what stands before one that names the service no longer counts. -/
theorem leftExactly {exceptions : List Exception} {runs : Bool} : exceptions.foldl (Exception.leaves date service) runs ↔
    (∃ e, Last (Exception.Names date service) exceptions e ∧ e.kind = 1) ∨
      (∀ e ∈ exceptions, ¬e.Names date service) ∧ runs := by
  induction exceptions using List.reverseRecOn with
  | nil => simp [Last]
  | append_singleton rest e ih =>
    rw [List.foldl_append, List.foldl_cons, List.foldl_nil]
    simp only [lastAppended, List.forall_mem_append, List.forall_mem_singleton]
    by_cases own : e.Names date service
    · rw [Exception.leavesOf own]
      simp [own]
    · rw [Exception.leavesOther own, ih]
      simp [own]

end Left

section Without

theorem Exception.applyOther {e : Exception} (other : ¬e.Dated date) (active : TreeSet String) :
    e.apply date active = active := by
  unfold apply
  split
  · rfl
  · rename_i day
    have kind : e.kind ≠ 1 ∧ e.kind ≠ 2 := not_or.mp fun kind => other ⟨not_not.mp day, kind⟩
    rw [if_neg kind.1, if_neg kind.2]

theorem appliedDated (exceptions : List Exception) (active : TreeSet String) :
    (exceptions.filter (·.Dated date)).foldl (Exception.apply date) active = exceptions.foldl (Exception.apply date) active := by
  induction exceptions generalizing active with
  | nil => rfl
  | cons e rest ih =>
    rw [List.filter_cons, List.foldl_cons]
    split
    · rw [List.foldl_cons, ih]
    · rename_i other
      rw [ih, Exception.applyOther (by simpa using other)]

theorem weeklyCovering (weeks : List Week) : weeklyServices date (weeks.filter (·.Covers date)) = weeklyServices date weeks := by
  have covers : (fun w : Week => decide (w.Covers date)) = (·.runsOn date) := by
    funext w
    rw [Bool.eq_iff_iff, decide_eq_true_iff, Week.runsOnExactly]
  rw [weeklyServices, weeklyServices, covers, List.filter_filter]
  simp only [Bool.and_self]

theorem activeServicesSaying (weeks : List Week) (exceptions : List Exception) :
    activeServices date (weeks.filter (·.Covers date)) (exceptions.filter (·.Dated date)) =
      activeServices date weeks exceptions := by
  rw [activeServices, activeServices, weeklyCovering, appliedDated]

end Without

structure Running (date : Day) (weeks : List Week) (exceptions : List Exception) : Prop where
  exactly : ∀ service, service ∈ activeServices date weeks exceptions ↔
    (∃ e, Last (Exception.Names date service) exceptions e ∧ e.kind = 1) ∨
      (∀ e ∈ exceptions, ¬e.Names date service) ∧ ∃ w ∈ weeks, w.serviceId = service ∧ w.Covers date
  unmoved : ∀ otherWeeks otherExceptions, otherWeeks.filter (·.Covers date) = weeks.filter (·.Covers date) →
    otherExceptions.filter (·.Dated date) = exceptions.filter (·.Dated date) →
      activeServices date otherWeeks otherExceptions = activeServices date weeks exceptions

theorem lastExceptionDecides (date : Day) (weeks : List Week) (exceptions : List Exception) : Running date weeks exceptions := by
  constructor
  · intro service
    rw [← TreeSet.contains_iff_mem, activeServicesLeft, leftExactly, TreeSet.contains_iff_mem, weeklyExactly]
  · intro otherWeeks otherExceptions sameWeeks sameExceptions
    rw [← activeServicesSaying otherWeeks, sameWeeks, sameExceptions, activeServicesSaying]

def wednesday : Day := ⟨19886⟩

def workdays : List Week := ["school", "summer"].map fun serviceId =>
  { serviceId, monday := 1, tuesday := 1, wednesday := 1, thursday := 1, friday := 1, start := "20240601", finish := "20240612" }

def holidays : List Exception :=
  [("school", "20240612", 1), ("extra", "20240612", 2), ("school", "20240612", 2), ("extra", "20240612", 1),
   ("summer", "20240613", 2), ("summer", "20240612", 3), ("school", "June 12", 1)].map
    fun (serviceId, date, kind) => { serviceId, date, kind }

/- Of two services of the week one is added and then taken away; a third one is taken away and then added. -/
theorem lastExceptionDecidesOnWednesday : Day.ofCompact? "20240612" = some wednesday ∧ wednesday.weekday = .wednesday ∧
    "school" ∉ activeServices wednesday workdays holidays ∧ "summer" ∈ activeServices wednesday workdays holidays ∧
    "extra" ∈ activeServices wednesday workdays holidays := by
  have running := (lastExceptionDecides wednesday workdays holidays).exactly
  have decides (service : String) : service ∈ activeServices wednesday workdays holidays ↔
      holidays.foldl (Exception.leaves wednesday service)
        (decide (∃ w ∈ workdays, w.serviceId = service ∧ w.Covers wednesday)) := by
    rw [running, leftExactly, decide_eq_true_iff]
  simp only [decides]
  decide +kernel

end TransitTimeline.Gtfs
