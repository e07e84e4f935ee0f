import TransitTimeline.Proofs.Paired
import TransitTimeline.ServiceTime

/-! Times fail in one way only, when they leave the calendar's range, and a dispatch time does so exactly when one of the
readings that it looks at lies outside. -/
namespace TransitTimeline

def OnlyOutOfRange {α : Type} (x : Except Failure α) : Prop := ∀ e, x = .error e → e = .outOfRange

namespace OnlyOutOfRange
variable {α β : Type}

theorem ok (a : α) : OnlyOutOfRange (.ok a) := fun _ failed => by cases failed

theorem bind {x : Except Failure α} {f : α → Except Failure β} (first : OnlyOutOfRange x) (next : ∀ a, OnlyOutOfRange (f a)) :
    OnlyOutOfRange (x >>= f) := by
  intro e failed
  cases known : x with
  | error d =>
    rw [known] at failed
    cases failed
    exact first e known
  | ok a =>
    rw [known] at failed
    exact next a e failed

end OnlyOutOfRange

namespace ServiceTime

theorem durationSame {seconds within : Int} (inRange : duration seconds = .ok within) : within = seconds := by
  unfold duration at inRange
  split at inRange
  · exact (Except.ok.inj inRange).symm
  · cases inRange

theorem durationOnly (seconds : Int) : OnlyOutOfRange (duration seconds) := by
  intro e failed
  unfold duration at failed
  split at failed
  · cases failed
  · exact (Except.error.inj failed).symm

theorem withinOnly (t : Instant) : OnlyOutOfRange (within t) := by
  intro e failed
  unfold within at failed
  split at failed
  · cases failed
  · exact (Except.error.inj failed).symm

theorem plannedOnly (d : Day) (seconds : Int) (z : Zone) : OnlyOutOfRange (planned d seconds z) := by
  unfold planned
  split
  · exact .ok _
  · apply (withinOnly _).bind
    intro origin
    apply (durationOnly _).bind
    intro seconds
    exact (withinOnly _).bind fun _ => .ok _

theorem dispatchedOnly (d : Day) (seconds : Int) (z : Zone) : OnlyOutOfRange (dispatched d seconds z) := by
  unfold dispatched
  apply (durationOnly _).bind
  intro seconds
  apply (withinOnly _).bind
  intro _
  split
  · exact .ok _
  · exact (withinOnly _).bind fun _ => .ok _

structure Reaches (d : Day) (seconds : Int) (z : Zone) : Prop where
  duration : -longest ≤ seconds ∧ seconds ≤ longest
  reading : (Instant.ofSeconds (midnight d + seconds)).InRange
  skipped : atWall? z (midnight d + seconds) = none → (Instant.ofSeconds (midnight d + seconds + 3600)).InRange

theorem durationExactly {seconds s : Int} : duration seconds = .ok s ↔ (-longest ≤ seconds ∧ seconds ≤ longest) ∧ s = seconds := by
  unfold duration
  split
  · rename_i short
    simp [short, eq_comm]
  · rename_i long
    simp [long]

theorem withinExactly {t u : Instant} : within t = .ok u ↔ t.InRange ∧ u = t := by
  unfold within
  split <;> simp_all [eq_comm]

theorem dispatchedReturns {d : Day} {seconds : Int} {z : Zone} :
    (∃ t, dispatched d seconds z = .ok t) ↔ Reaches d seconds z := by
  constructor
  · rintro ⟨t, ok⟩
    obtain ⟨s, short, ok⟩ := okBind ok
    obtain ⟨short, same⟩ := durationExactly.mp short
    obtain ⟨_, inside, ok⟩ := okBind ok
    rw [same] at inside ok
    refine ⟨short, (withinExactly.mp inside).1, ?_⟩
    intro skipped
    rw [skipped] at ok
    obtain ⟨_, later, _⟩ := okBind ok
    exact (withinExactly.mp later).1
  · intro reaches
    have short := durationExactly.mpr ⟨reaches.duration, rfl⟩
    have inside := withinExactly.mpr ⟨reaches.reading, rfl⟩
    cases shown : atWall? z (midnight d + seconds) with
    | some t => exact ⟨some t, by simp [dispatched, short, inside, shown, bind, Except.bind, pure, Except.pure]⟩
    | none =>
      have later := withinExactly.mpr ⟨reaches.skipped shown, rfl⟩
      exact ⟨_, by simp [dispatched, short, inside, shown, later, bind, Except.bind, pure, Except.pure]; rfl⟩

end ServiceTime

end TransitTimeline
