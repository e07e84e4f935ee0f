import TransitTimeline.Proofs.Zone.WallClock

/-! The two clocks of a service date beside each other. Planned times count real seconds from an origin that noon gives, dispatch
times are readings of the wall clock, so the same number of seconds is the same instant exactly where the offset of noon is in
force again. -/
namespace TransitTimeline

namespace Zone

variable {z : Zone} {wall : Int} {t : Instant}

def inForce (z : Zone) (t : Instant) : Int := z.offsetAt (t.nanos / Instant.perSecond)

structure EarliestAt (z : Zone) (wall : Int) (t : Instant) : Prop where
  shows : z.ShowsAt wall t
  least : ∀ s, z.Shows s wall → t ≤ .ofSeconds s

theorem atWallExactly : ServiceTime.atWall? z wall = some t ↔ z.EarliestAt wall t := by
  rw [ServiceTime.atWall?, Option.bind_eq_some_iff]
  constructor
  · rintro ⟨s, earliest, known⟩
    obtain ⟨own, least⟩ := earliestExactly.mp earliest
    unfold Instant.inRange? at known
    split at known
    · rename_i inside
      cases known
      exact ⟨showsAtExactly.mpr ⟨s, rfl, inside, own⟩, fun u shows => Instant.ofSecondsLe.mpr (least u shows)⟩
    · cases known
  · rintro ⟨shows, least⟩
    obtain ⟨s, rfl, inside, own⟩ := showsAtExactly.mp shows
    exact ⟨s, earliestExactly.mpr ⟨own, fun u shows => Instant.ofSecondsLe.mp (least u shows)⟩, if_pos inside⟩

theorem atWallNone : ServiceTime.atWall? z wall = none ↔ ∀ t, ¬z.EarliestAt wall t := by
  simp only [Option.eq_none_iff_forall_ne_some, ne_eq, atWallExactly]

theorem earliestAtLeast (within : z.WithinCalendar) : z.EarliestAt wall t ↔ Least (z.ShowsAt wall) (some t) := by
  have least := atWallLeast within wall
  rw [← atWallExactly]
  constructor
  · intro found
    rwa [found] at least
  · intro also
    cases found : ServiceTime.atWall? z wall with
    | none =>
      rw [found] at least
      cases least with
      | absent unknown => cases also with | present own _ => exact absurd own (unknown t)
    | some u =>
      rw [found] at least
      cases least with
      | present own first => cases also with
        | present other second => exact congrArg some (Instant.leAntisymm (first t other) (second u own))

theorem EarliestAt.reads (earliest : z.EarliestAt wall t) :
    t.nanos + z.inForce t * Instant.perSecond = wall * Instant.perSecond := earliest.shows.2

end Zone

namespace ServiceTime

variable {z : Zone} {d : Day} {seconds : Int} {noon t p : Instant}

structure Countable (noon : Instant) (seconds : Int) : Prop where
  duration : -longest ≤ seconds ∧ seconds ≤ longest
  origin : (noon.plusSeconds (-43200)).InRange
  time : (noon.plusSeconds (seconds - 43200)).InRange

theorem plusPlus (t : Instant) (a b : Int) : (t.plusSeconds a).plusSeconds b = t.plusSeconds (b + a) := by
  unfold Instant.plusSeconds Instant.plus
  rw [Int.add_mul]
  congr 1
  dsimp only
  omega

theorem plannedExactly (noonAt : z.EarliestAt (midnight d + 43200) noon) {r : Option Instant} :
    planned d seconds z = .ok r ↔ Countable noon seconds ∧ r = some (noon.plusSeconds (seconds - 43200)) := by
  simp only [planned, Zone.atWallExactly.mpr noonAt]
  constructor
  · intro ok
    obtain ⟨origin, first, ok⟩ := okBind ok
    obtain ⟨s, short, ok⟩ := okBind ok
    obtain ⟨time, last, ok⟩ := okBind ok
    obtain ⟨inside, rfl⟩ := withinExactly.mp first
    obtain ⟨bounds, rfl⟩ := durationExactly.mp short
    obtain ⟨reached, rfl⟩ := withinExactly.mp last
    rw [plusPlus] at reached ok
    cases ok
    exact ⟨⟨bounds, inside, reached⟩, rfl⟩
  · rintro ⟨⟨bounds, inside, reached⟩, rfl⟩
    have first := withinExactly.mpr ⟨inside, rfl⟩
    have short := durationExactly.mpr ⟨bounds, rfl⟩
    have last := withinExactly.mpr ⟨reached, rfl⟩
    rw [Int.sub_eq_add_neg, ← plusPlus] at last ⊢
    simp [first, short, last, bind, Except.bind, pure, Except.pure]

theorem dispatchedAt (reaches : Reaches d seconds z) (shown : z.EarliestAt (midnight d + seconds) t) :
    dispatched d seconds z = .ok (some t) := by
  have short := durationExactly.mpr ⟨reaches.duration, rfl⟩
  have inside := withinExactly.mpr ⟨reaches.reading, rfl⟩
  simp [dispatched, short, inside, Zone.atWallExactly.mpr shown, bind, Except.bind, pure, Except.pure]

theorem dispatchedLater (reaches : Reaches d seconds z) (unshown : ∀ t, ¬z.EarliestAt (midnight d + seconds) t)
    (later : z.EarliestAt (midnight d + seconds + 3600) t) : dispatched d seconds z = .ok (some t) := by
  have none := Zone.atWallNone.mpr unshown
  have short := durationExactly.mpr ⟨reaches.duration, rfl⟩
  have inside := withinExactly.mpr ⟨reaches.reading, rfl⟩
  have after := withinExactly.mpr ⟨reaches.skipped none, rfl⟩
  simp [dispatched, short, inside, none, after, Zone.atWallExactly.mpr later, bind, Except.bind, pure, Except.pure]

structure Compared (z : Zone) (d : Day) (seconds : Int) (noon : Instant) : Prop where
  returns : ((∃ p, planned d seconds z = .ok p) ∧ ∃ q, dispatched d seconds z = .ok q) ↔
    Countable noon seconds ∧ Reaches d seconds z
  shown : Countable noon seconds → Reaches d seconds z → ∀ t, z.EarliestAt (midnight d + seconds) t →
    ∃ p, planned d seconds z = .ok (some p) ∧ dispatched d seconds z = .ok (some t) ∧
      (p = t ↔ z.inForce t = z.inForce noon) ∧ p = t.plusSeconds (z.inForce t - z.inForce noon)
  skipped : Countable noon seconds → Reaches d seconds z → (∀ t, ¬z.EarliestAt (midnight d + seconds) t) →
    ∀ later, z.EarliestAt (midnight d + seconds + 3600) later →
      ∃ p, planned d seconds z = .ok (some p) ∧
        dispatched d seconds z = .ok (some (p.plusSeconds (3600 + (z.inForce noon - z.inForce later))))

/- Noon and a reading are both on the wall clock, so that the offsets alone decide how far apart the two times are. -/
theorem timesApart {k : Int} (noonAt : z.EarliestAt (midnight d + 43200) noon)
    (shown : z.EarliestAt (midnight d + seconds + k) t) :
    t.nanos - (noon.plusSeconds (seconds - 43200)).nanos = (k + (z.inForce noon - z.inForce t)) * Instant.perSecond := by
  have first := noonAt.reads
  have second := shown.reads
  unfold Instant.plusSeconds Instant.plus Instant.perSecond at *
  dsimp only
  omega

theorem sameNanos : p = t ↔ p.nanos = t.nanos := by
  cases p
  cases t
  rw [Instant.mk.injEq]

theorem apartExactly {k : Int} : p = t.plusSeconds k ↔ p.nanos - t.nanos = k * Instant.perSecond := by
  rw [sameNanos, Instant.plusSeconds, Instant.plus]
  dsimp only
  omega

theorem plannedBesideDispatched :
    (∀ z ∈ Zone.known, ∀ wall t, z.EarliestAt wall t ↔ Least (z.ShowsAt wall) (some t)) ∧
    ∀ (z : Zone) d seconds noon, z.EarliestAt (midnight d + 43200) noon → Compared z d seconds noon := by
  refine ⟨fun z member wall t => Zone.earliestAtLeast (Zone.knownWithinCalendar z member), fun z d seconds noon noonAt => ?_⟩
  have exactly {r : Option Instant} : planned d seconds z = .ok r ↔
      Countable noon seconds ∧ r = some (noon.plusSeconds (seconds - 43200)) := plannedExactly noonAt
  refine ⟨?_, ?_, ?_⟩
  · rw [dispatchedReturns]
    refine and_congr_left fun _ => ?_
    simp only [exactly, exists_and_left, exists_eq, and_true]
  · intro countable reaches t shown
    have apart := timesApart (k := 0) noonAt (by rwa [Int.add_zero])
    refine ⟨_, exactly.mpr ⟨countable, rfl⟩, dispatchedAt reaches shown, ?_, ?_⟩
    · rw [sameNanos]
      unfold Instant.perSecond at apart
      omega
    · apply apartExactly.mpr
      unfold Instant.perSecond at *
      omega
  · intro countable reaches unshown later shown
    have apart := apartExactly.mpr (timesApart noonAt shown)
    refine ⟨_, exactly.mpr ⟨countable, rfl⟩, ?_⟩
    rw [← apart]
    exact dispatchedLater reaches unshown shown

/- New York puts its clock back before noon, so that midnight is an hour before the origin of planned times; on the day that it
puts it forward, half past two is skipped. -/
theorem plannedBesideDispatchedInNewYork :
    (Zone.known[2].EarliestAt (midnight ⟨20030⟩ + 43200) (.ofSeconds 1730653200) ∧
      Compared Zone.known[2] ⟨20030⟩ 0 (.ofSeconds 1730653200) ∧
      planned ⟨20030⟩ 0 Zone.known[2] = .ok (some (.ofSeconds 1730610000)) ∧
      dispatched ⟨20030⟩ 0 Zone.known[2] = .ok (some (.ofSeconds 1730606400))) ∧
    (Zone.known[2].EarliestAt (midnight ⟨19792⟩ + 43200) (.ofSeconds 1710086400) ∧
      Compared Zone.known[2] ⟨19792⟩ 9000 (.ofSeconds 1710086400) ∧
      planned ⟨19792⟩ 9000 Zone.known[2] = .ok (some (.ofSeconds 1710052200)) ∧
      dispatched ⟨19792⟩ 9000 Zone.known[2] = .ok (some (.ofSeconds 1710055800))) := by
  have back : Zone.known[2].EarliestAt (midnight ⟨20030⟩ + 43200) (.ofSeconds 1730653200) :=
    Zone.atWallExactly.mp (by decide +kernel)
  have forward : Zone.known[2].EarliestAt (midnight ⟨19792⟩ + 43200) (.ofSeconds 1710086400) :=
    Zone.atWallExactly.mp (by decide +kernel)
  refine ⟨⟨back, plannedBesideDispatched.2 _ _ 0 _ back, ?_, ?_⟩, forward, plannedBesideDispatched.2 _ _ 9000 _ forward, ?_, ?_⟩
  all_goals decide +kernel

end ServiceTime

end TransitTimeline
