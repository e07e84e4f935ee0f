import Mathlib.Algebra.Ring.Int.Defs
import TransitTimeline.Proofs.Record.Settle

/-! Durations of a journey add up. Its times are whole seconds, known both or neither at a stop, and no departure is
before its arrival; so what is travelled and stopped telescopes from the first arrival to the last departure. -/
namespace TransitTimeline

structure StopEvent.Whole (e : StopEvent) : Prop where
  travelTo : Instant.Whole (Stay.travelTo e)
  gtfsArrival : Instant.Whole (Stay.gtfsArrival e)
  tmArrival : Instant.Whole (Stay.tmArrival e)
  tmDeparture : Instant.Whole (Stay.tmDeparture e)

namespace Stay
open Instant (Whole)

inductive Times.Stands : Times → Prop
  | unknown : Stands ⟨none, none⟩
  | known (a d : Int) (order : a ≤ d) : Stands ⟨some (.ofSeconds a), some (.ofSeconds d)⟩

section Estimate
variable {latest departure : Option Instant}

theorem standsSame (whole : Whole latest) : (Times.complete ⟨latest, latest⟩).Stands := by
  rcases whole.cases with rfl | ⟨s, rfl⟩
  · exact .unknown
  · exact .known s s (Int.le_refl s)

theorem standsCut (arrived : Whole latest) (left : Whole departure) :
    (Times.complete ⟨Column.minPresent latest departure, departure⟩).Stands := by
  rcases arrived.cases with rfl | ⟨a, rfl⟩ <;> rcases left.cases with rfl | ⟨d, rfl⟩
  · exact .unknown
  · exact .known d d (Int.le_refl d)
  · exact .known a a (Int.le_refl a)
  · rw [Column.minPresent, Instant.minSeconds]
    exact .known (min a d) d (Int.min_le_right a d)

theorem estimateStands {e : StopEvent} (whole : e.Whole) (left : Whole departure) (count index : Nat) :
    (estimate count index e departure).complete.Stands := by
  have latest := whole.gtfsArrival.max whole.tmArrival
  unfold estimate
  dsimp only
  split
  · exact standsCut latest (left.or whole.tmDeparture)
  · split
    · exact standsSame latest
    · exact standsCut latest (whole.tmDeparture.min left)

theorem departuresWhole {events : List StopEvent} (whole : ∀ e ∈ events, e.Whole) : ∀ d ∈ gtfsDepartures events, Whole d := by
  intro d member
  cases events with
  | nil => cases member
  | cons first rest =>
    rcases List.mem_append.mp member with seen | last
    · obtain ⟨e, inside, rfl⟩ := List.mem_map.mp seen
      exact (whole e (List.mem_cons_of_mem _ inside)).travelTo
    · rw [List.mem_singleton.mp last]
      exact Instant.wholeNone

theorem estimatesStand {events : List StopEvent} (whole : ∀ e ∈ events, e.Whole) : ∀ t ∈ estimates events, t.Stands := by
  intro t member
  obtain ⟨⟨⟨e, departure⟩, index⟩, known, rfl⟩ := List.mem_map.mp member
  obtain ⟨left, right⟩ := List.of_mem_zip (List.fst_mem_of_mem_zipIdx known)
  exact estimateStands (whole e left) (departuresWhole whole departure right) events.length index

end Estimate

section Settle

theorem raisedStands {floor : Option Instant} {t : Times} (whole : Whole floor) (stands : t.Stands) :
    (t.raiseTo floor).Stands := by
  cases stands with
  | unknown => exact .unknown
  | known a d order =>
    rcases whole.cases with rfl | ⟨f, rfl⟩
    · exact .known a d order
    · simp only [Times.raiseTo, Times.raise, Instant.ofSecondsLt]
      by_cases early : d < f
      · rw [if_pos early, if_pos (Int.lt_of_le_of_lt order early)]
        exact .known f f (Int.le_refl f)
      · rw [if_neg early]
        split
        · exact .known f d (Int.not_lt.mp early)
        · exact .known a d order

theorem latestWhole {t : Times} (stands : t.Stands) : Whole t.latest := by
  cases stands with
  | unknown => exact Instant.wholeNone
  | known a d _ => exact (Instant.wholeSeconds a).max (Instant.wholeSeconds d)

theorem settledStandFrom {running : Option Instant} (whole : Whole running) {times : List Times}
    (stands : ∀ t ∈ times, t.Stands) :
    ∀ t ∈ List.zipWith Times.raiseTo (Column.maxBeforeFrom running (times.map (·.latest))) times, t.Stands := by
  induction times generalizing running with
  | nil => simp [Column.maxBeforeFrom]
  | cons first rest ih =>
    have own := stands first List.mem_cons_self
    intro t member
    rcases List.mem_cons.mp member with rfl | later
    · exact raisedStands whole own
    · exact ih (whole.max (latestWhole own)) (fun s inside => stands s (List.mem_cons_of_mem _ inside)) t later

theorem settledStand {events : List StopEvent} (whole : ∀ e ∈ events, e.Whole) : ∀ t ∈ settle (estimates events), t.Stands :=
  settledStandFrom Instant.wholeNone (estimatesStand whole)

end Settle

def along (previous : Option Instant) : List Times → List Stay
  | [] => []
  | t :: rest => ofTimes previous t :: along (t.departure.or previous) rest

theorem previousAlong (last departed : Option Instant) (times : List Times) :
    List.zipWith ofTimes (Column.forwardFrom last (departed :: times.map (·.departure)).dropLast) times =
      along (departed.or last) times := by
  induction times generalizing last departed with
  | nil => rfl
  | cons t rest ih =>
    rw [List.map_cons, List.dropLast_cons_cons, Column.forwardFrom, List.zipWith_cons_cons, ih, along]

theorem ofEventsAlong (events : List StopEvent) : ofEvents events = along none (settle (estimates events)) :=
  previousAlong none none _

section Telescope
variable {times : List Times}

/- Behind a known departure, durations add up to the last departure, or to nothing where no other is known. -/
theorem telescopes (previous : Int) (stands : ∀ t ∈ times, t.Stands) :
    let stays := along (some (.ofSeconds previous)) times
    ∃ last : Int, ((stays.filterMap (·.departure)).getLast?.getD (.ofSeconds previous)) = .ofSeconds last ∧
      (stays.filterMap (·.travelled)).sum + (stays.filterMap (·.stopped)).sum = last - previous := by
  induction times generalizing previous with
  | nil => exact ⟨previous, rfl, by simp [along]⟩
  | cons t rest ih =>
    have later := fun s inside => stands s (List.mem_cons_of_mem _ inside)
    cases stands t List.mem_cons_self with
    | unknown => exact ih previous later
    | known a d _ =>
      obtain ⟨last, departs, sums⟩ := ih d later
      refine ⟨last, ?_, ?_⟩
      · simp only [along, ofTimes, Option.some_or, List.filterMap_cons, List.getLast?_cons, Option.getD_some]
        exact departs
      · simp only [along, ofTimes, seconds, Option.some_or, List.filterMap_cons, Option.bind_eq_bind, Option.bind_some,
          Option.pure_def, Instant.secondsSinceWhole, List.sum_cons]
        omega

theorem durationsTelescope (stands : ∀ t ∈ times, t.Stands) :
    let stays := along none times
    ∀ first ∈ (stays.filterMap (·.arrival)).head?, ∀ last ∈ (stays.filterMap (·.departure)).getLast?,
      (stays.filterMap (·.travelled)).sum + (stays.filterMap (·.stopped)).sum = last.secondsSince first := by
  induction times with
  | nil => simp [along]
  | cons t rest ih =>
    have later := fun s inside => stands s (List.mem_cons_of_mem _ inside)
    cases stands t List.mem_cons_self with
    | unknown => exact ih later
    | known a d _ =>
      obtain ⟨finish, departs, sums⟩ := telescopes d later
      intro stays first arrives last leaves
      have start : Instant.ofSeconds a = first := Option.some.inj arrives
      have finish : Instant.ofSeconds finish = last := by
        have leaves : some _ = some last := List.getLast?_cons.symm.trans leaves
        rw [← departs]
        exact Option.some.inj leaves
      rw [← start, ← finish, Instant.secondsSinceWhole]
      simp only [stays, along, ofTimes, seconds, Option.some_or, List.filterMap_cons, Option.bind_eq_bind, Option.bind_some,
        Option.bind_none, Option.pure_def, Instant.secondsSinceWhole, List.sum_cons]
      omega

theorem alongTimes (previous : Option Instant) : ∀ s ∈ along previous times, Times.mk s.arrival s.departure ∈ times := by
  induction times generalizing previous with
  | nil => simp [along]
  | cons t rest ih =>
    intro s member
    rcases List.mem_cons.mp member with rfl | later
    · exact List.mem_cons_self
    · exact List.mem_cons_of_mem _ (ih _ s later)

theorem alongOrder (stands : ∀ t ∈ times, t.Stands) (previous : Option Instant) :
    ∀ s ∈ along previous times, ∀ a ∈ s.arrival, ∀ d ∈ s.departure, a ≤ d := by
  intro s member a arrives d leaves
  have known := stands _ (alongTimes previous s member)
  rw [Option.mem_def.mp arrives, Option.mem_def.mp leaves] at known
  cases known with
  | known a d order => exact Instant.ofSecondsLe.mpr order

end Telescope

end Stay

end TransitTimeline
