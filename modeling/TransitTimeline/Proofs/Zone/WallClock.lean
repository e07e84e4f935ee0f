import Mathlib
import TransitTimeline.Proofs.Firsts
import TransitTimeline.Proofs.Instant
import TransitTimeline.Proofs.ServiceTime
import TransitTimeline.Zone.Known

/-! The wall clock of a zone, and the instants at which it shows a reading. A dispatch time is the earliest of them, and where
the clock skips the reading the earliest of an hour later; in every zone that has a name the earliest second is the earliest
instant, since no clock is ever set back beyond the calendar. -/
namespace TransitTimeline

theorem Instant.secondsInRange {s : Int} :
    (ofSeconds s).InRange ↔ Day.first.number * 86400 ≤ s ∧ s < (Day.last.number + 1) * 86400 := by
  unfold InRange ofSeconds perSecond
  generalize Day.first.number * 86400 = first
  generalize (Day.last.number + 1) * 86400 = last
  constructor <;> rintro ⟨low, high⟩ <;> constructor <;> dsimp only at * <;> omega

namespace Zone

variable {z : Zone} {wall s : Int} {t : Instant}

theorem offsetBehindKnown (second : Int) (offset : Int) (changes : List (Int × Int)) :
    offsetBehind second offset changes = offset ∨
      ∃ c ∈ changes, c.1 ≤ second ∧ offsetBehind second offset changes = c.2 := by
  induction changes generalizing offset with
  | nil => exact .inl rfl
  | cons change later ih =>
    obtain ⟨start, next⟩ := change
    unfold offsetBehind
    split
    · exact .inl rfl
    · rename_i begun
      right
      rcases ih next with same | ⟨c, member, before, same⟩
      · exact ⟨(start, next), List.mem_cons_self, Int.not_lt.mp begun, same⟩
      · exact ⟨c, List.mem_cons_of_mem _ member, before, same⟩

theorem offsetKnown (z : Zone) (second : Int) : z.offsetAt second = z.first ∨
    ∃ c ∈ z.changes, c.1 ≤ second ∧ z.offsetAt second = c.2 := offsetBehindKnown second z.first z.changes

theorem earliestExactly : z.earliest? wall = some s ↔ z.Shows s wall ∧ ∀ u, z.Shows u wall → s ≤ u := by
  rw [earliest?, List.min?_eq_some_iff]
  simp only [memSecondsShowing]

theorem earliestNone : z.earliest? wall = none ↔ ∀ s, ¬z.Shows s wall := by
  rw [earliest?, List.min?_eq_none_iff, List.eq_nil_iff_forall_not_mem]
  simp only [memSecondsShowing]

section Skipped

def Skips (z : Zone) (wall : Int) : Prop := ∃ s, z.wallClock (s - 1) < wall ∧ wall < z.wallClock s

theorem offsetBounded (z : Zone) : ∃ most, ∀ s, -most ≤ z.offsetAt s ∧ z.offsetAt s ≤ most := by
  refine ⟨(z.offsets.map Int.natAbs).sum, fun s => ?_⟩
  have small : (z.offsetAt s).natAbs ≤ (z.offsets.map Int.natAbs).sum :=
    List.le_sum_of_mem (List.mem_map_of_mem (z.offsetListed s))
  omega

/- A reading that no second shows lies in a gap: the first second that shows more comes right behind one that shows less. -/
theorem unshownSkipped (unseen : ∀ s, ¬z.Shows s wall) : z.Skips wall := by
  obtain ⟨most, bounded⟩ := offsetBounded z
  have reached : wall ≤ z.wallClock (wall + most) := by
    have low := (bounded (wall + most)).1
    unfold wallClock
    omega
  have bottom : ∀ s, wall ≤ z.wallClock s → wall - most ≤ s := by
    intro s behind
    have high := (bounded s).2
    unfold wallClock at behind
    omega
  obtain ⟨s, behind, least⟩ := Int.exists_least_of_bdd ⟨wall - most, bottom⟩ ⟨wall + most, reached⟩
  have other : z.wallClock s ≠ wall := unseen s
  have before : ¬wall ≤ z.wallClock (s - 1) := by
    intro also
    have earlier := least (s - 1) also
    omega
  exact ⟨s, Int.not_le.mp before, by omega⟩

end Skipped

section Instants

def ShowsAt (z : Zone) (wall : Int) (t : Instant) : Prop :=
  t.InRange ∧ t.nanos + z.offsetAt (t.nanos / Instant.perSecond) * Instant.perSecond = wall * Instant.perSecond

/- Clocks change within the calendar only, and are not set back beyond what they showed at its beginning. -/
def WithinCalendar (z : Zone) : Prop := ∀ c ∈ z.changes,
  Day.first.number * 86400 ≤ c.1 ∧ Day.first.number * 86400 + z.first ≤ c.1 + c.2
instance (z : Zone) : Decidable z.WithinCalendar := by unfold WithinCalendar; infer_instance

theorem knownWithinCalendar : ∀ z ∈ known, z.WithinCalendar := by decide +kernel

theorem showsAtExactly : z.ShowsAt wall t ↔ ∃ s, t = .ofSeconds s ∧ t.InRange ∧ z.Shows s wall := by
  unfold ShowsAt Shows wallClock
  constructor
  · rintro ⟨inside, shows⟩
    generalize offset : z.offsetAt (t.nanos / Instant.perSecond) = distance at shows
    unfold Instant.perSecond at shows offset
    have whole : t.nanos / 1000000000 * 1000000000 = t.nanos := by omega
    have same : t = .ofSeconds (t.nanos / 1000000000) := congrArg Instant.mk whole.symm
    exact ⟨t.nanos / 1000000000, same, inside, by omega⟩
  · rintro ⟨s, rfl, inside, shows⟩
    have second : s * Instant.perSecond / Instant.perSecond = s := Int.mul_ediv_cancel s (by decide)
    refine ⟨inside, ?_⟩
    rw [Instant.ofSeconds, second, ← Int.add_mul, shows]

theorem shownFromBeginning {u : Int} (within : z.WithinCalendar) (early : z.Shows s wall) (late : z.Shows u wall)
    (inside : Day.first.number * 86400 ≤ u) : Day.first.number * 86400 ≤ s := by
  unfold Shows wallClock at early late
  by_contra outside
  have first : z.offsetAt s = z.first := by
    rcases offsetKnown z s with first | ⟨c, member, before, _⟩
    · exact first
    · have start := (within c member).1
      omega
  rcases offsetKnown z u with same | ⟨c, member, before, same⟩
  · omega
  · have ahead := (within c member).2
    omega

theorem atWallLeast (within : z.WithinCalendar) (wall : Int) : Least (z.ShowsAt wall) (ServiceTime.atWall? z wall) := by
  cases earliest : z.earliest? wall with
  | none =>
    rw [ServiceTime.atWall?, earliest]
    apply Least.absent
    intro t shows
    obtain ⟨s, _, _, shows⟩ := showsAtExactly.mp shows
    exact earliestNone.mp earliest s shows
  | some s =>
    obtain ⟨own, least⟩ := earliestExactly.mp earliest
    rw [ServiceTime.atWall?, earliest, Option.bind_some, Instant.inRange?]
    split
    · rename_i inside
      refine Least.present (showsAtExactly.mpr ⟨s, rfl, inside, own⟩) fun t shows => ?_
      obtain ⟨u, rfl, _, shows⟩ := showsAtExactly.mp shows
      exact Instant.ofSecondsLe.mpr (least u shows)
    · rename_i outside
      apply Least.absent
      intro t shows
      obtain ⟨u, rfl, inside, shows⟩ := showsAtExactly.mp shows
      obtain ⟨low, high⟩ := Instant.secondsInRange.mp inside
      have begun := shownFromBeginning within own shows low
      have ahead := least u shows
      exact outside (Instant.secondsInRange.mpr ⟨begun, by omega⟩)

end Instants

end Zone

namespace ServiceTime

variable {z : Zone} {d : Day} {seconds : Int}

/- The time of a reading: the earliest instant that shows it, and where none does, the earliest that shows an hour more. -/
inductive Resolves (z : Zone) (wall : Int) : Option Instant → Prop
  | shown {t} (earliest : Least (z.ShowsAt wall) (some t)) : Resolves z wall (some t)
  | skipped {r} (unshown : ∀ t, ¬z.ShowsAt wall t) (later : Least (z.ShowsAt (wall + 3600)) r) : Resolves z wall r

structure Within (z : Zone) (d : Day) (seconds : Int) : Prop where
  duration : -longest ≤ seconds ∧ seconds ≤ longest
  reading : (Instant.ofSeconds (midnight d + seconds)).InRange
  later : (∀ t, ¬z.ShowsAt (midnight d + seconds) t) → (Instant.ofSeconds (midnight d + seconds + 3600)).InRange

structure Resolved (z : Zone) (d : Day) (seconds : Int) : Prop where
  returns : Within z d seconds → ∃ r, dispatched d seconds z = .ok r
  fails : ¬Within z d seconds → dispatched d seconds z = .error .outOfRange
  resolves : ∀ r, dispatched d seconds z = .ok r → Resolves z (midnight d + seconds) r
  unresolved : Within z d seconds → (dispatched d seconds z = .ok none ↔
    (∀ t, ¬z.ShowsAt (midnight d + seconds) t) ∧ ∀ t, ¬z.ShowsAt (midnight d + seconds + 3600) t)
  gap : (∀ t, ¬z.ShowsAt (midnight d + seconds) t) → z.Skips (midnight d + seconds) ∨
    ∃ s, z.Shows s (midnight d + seconds) ∧ ¬(Instant.ofSeconds s).InRange

theorem leastNone {known : Instant → Prop} {r : Option Instant} (least : Least known r) : r = none ↔ ∀ t, ¬known t := by
  cases least with
  | absent unknown => exact iff_of_true rfl unknown
  | present own _ => exact iff_of_false nofun fun unknown => unknown _ own

theorem resolvesNone {wall : Int} {r : Option Instant} (resolves : Resolves z wall r) :
    r = none ↔ (∀ t, ¬z.ShowsAt wall t) ∧ ∀ t, ¬z.ShowsAt (wall + 3600) t := by
  cases resolves with
  | shown earliest =>
    rw [leastNone earliest, iff_self_and]
    intro unshown
    cases earliest with
    | present own _ => exact absurd own (unshown _)
  | skipped unshown later => rw [leastNone later, and_iff_right unshown]

theorem reachesExactly (inside : z.WithinCalendar) : Reaches d seconds z ↔ Within z d seconds := by
  have skipped := leastNone (Zone.atWallLeast inside (midnight d + seconds))
  constructor
  · rintro ⟨duration, reading, later⟩
    exact ⟨duration, reading, fun unshown => later (skipped.mpr unshown)⟩
  · rintro ⟨duration, reading, later⟩
    exact ⟨duration, reading, fun none => later (skipped.mp none)⟩

theorem dispatchedResolves (inside : z.WithinCalendar) {r : Option Instant} (ok : dispatched d seconds z = .ok r) :
    Resolves z (midnight d + seconds) r := by
  obtain ⟨s, short, ok⟩ := okBind ok
  rw [durationSame short] at ok
  obtain ⟨_, _, ok⟩ := okBind ok
  have shown := Zone.atWallLeast inside (midnight d + seconds)
  cases wall : atWall? z (midnight d + seconds) with
  | some t =>
    rw [wall] at ok shown
    cases ok
    exact .shown shown
  | none =>
    rw [wall] at ok
    obtain ⟨_, _, ok⟩ := okBind ok
    cases ok
    exact .skipped ((leastNone shown).mp wall) (Zone.atWallLeast inside _)

theorem unshownGap {wall : Int} (unshown : ∀ t, ¬z.ShowsAt wall t) :
    z.Skips wall ∨ ∃ s, z.Shows s wall ∧ ¬(Instant.ofSeconds s).InRange := by
  by_cases some : ∃ s, z.Shows s wall
  · obtain ⟨s, shows⟩ := some
    exact .inr ⟨s, shows, fun inRange => unshown _ (Zone.showsAtExactly.mpr ⟨s, rfl, inRange, shows⟩)⟩
  · exact .inl (Zone.unshownSkipped (not_exists.mp some))

theorem dispatchTimesResolved : (∀ z ∈ Zone.known, z.WithinCalendar) ∧
    ∀ z : Zone, z.WithinCalendar → ∀ d seconds, Resolved z d seconds := by
  refine ⟨Zone.knownWithinCalendar, fun z inside d seconds => ?_⟩
  have reached : (∃ r, dispatched d seconds z = .ok r) ↔ Within z d seconds :=
    dispatchedReturns.trans (reachesExactly inside)
  refine ⟨reached.mpr, ?_, fun _ => dispatchedResolves inside, ?_, unshownGap⟩
  · intro outside
    cases result : dispatched d seconds z with
    | ok r => exact absurd (reached.mp ⟨r, result⟩) outside
    | error e => rw [dispatchedOnly d seconds z e result]
  · intro within
    obtain ⟨r, ok⟩ := reached.mpr within
    rw [ok, Except.ok.injEq]
    exact resolvesNone (dispatchedResolves inside ok)

/- Lord Howe skips half an hour, so that ten past two is taken as ten past three; Apia skips a day, in which no hour helps. -/
theorem dispatchTimesResolvedInGaps :
    (Zone.known[5].WithinCalendar ∧ Resolved Zone.known[5] ⟨20002⟩ 7800 ∧
      dispatched ⟨20002⟩ 7800 Zone.known[5] = .ok (some (.ofSeconds 1728144600))) ∧
    (Zone.known[7].WithinCalendar ∧ Resolved Zone.known[7] ⟨15338⟩ 36000 ∧
      dispatched ⟨15338⟩ 36000 Zone.known[7] = .ok none) := by
  have lordHowe := dispatchTimesResolved.1 Zone.known[5] (List.getElem_mem _)
  have apia := dispatchTimesResolved.1 Zone.known[7] (List.getElem_mem _)
  refine ⟨⟨lordHowe, dispatchTimesResolved.2 _ lordHowe ⟨20002⟩ 7800, ?_⟩, apia, dispatchTimesResolved.2 _ apia ⟨15338⟩ 36000, ?_⟩
  · decide +kernel
  · decide +kernel

end ServiceTime

end TransitTimeline
