import TransitTimeline.Proofs.Record.Spans

/-! Every time of a journey's records is one that a feed saw on the journey. So where the feeds keep to the calendar, the
seconds that the records add up keep to 64 bits. -/
namespace TransitTimeline

def StopEvent.Saw (e : StopEvent) (v : Instant) : Prop :=
  Stay.travelTo e = some v ∨ Stay.gtfsArrival e = some v ∨ Stay.tmArrival e = some v ∨ Stay.tmDeparture e = some v

namespace Instant
variable {a b : Option Instant} {v : Instant}

theorem minEither (known : Column.minPresent a b = some v) : a = some v ∨ b = some v := by
  rw [Column.minMerges] at known
  refine Column.mergeEither (fun x y => ?_) known
  show (if x ≤ y then x else y) = x ∨ (if x ≤ y then x else y) = y
  split <;> simp

theorem maxEither (known : Column.maxPresent a b = some v) : a = some v ∨ b = some v := by
  rw [Column.maxMerges] at known
  refine Column.mergeEither (fun x y => ?_) known
  show (if x ≤ y then y else x) = x ∨ (if x ≤ y then y else x) = y
  split <;> simp

theorem orEither (known : a.or b = some v) : a = some v ∨ b = some v := by
  cases a with
  | none => exact .inr known
  | some x => exact .inl known

theorem memRunningMax {instants : List Instant} (member : v ∈ runningMax instants) : v ∈ instants := by
  obtain ⟨begun, inside, greatest⟩ := List.mem_filterMap.mp member
  exact ((List.mem_inits _ _).mp inside).subset (List.max?_mem greatest)

end Instant

namespace Stay
variable {e : StopEvent} {departure : Option Instant} {v : Instant}

theorem completeKnows {t : Times} (knows : t.complete.Knows v) : t.Knows v := by
  rcases knows with arrival | left
  · exact Instant.orEither arrival
  · exact (Instant.orEither left).symm

theorem estimateKnows {count index : Nat} (knows : (estimate count index e departure).Knows v) :
    departure = some v ∨ e.Saw v := by
  have latest (known : Column.maxPresent (gtfsArrival e) (tmArrival e) = some v) : e.Saw v :=
    (Instant.maxEither known).elim (fun own => .inr (.inl own)) fun own => .inr (.inr (.inl own))
  have left {t : Option Instant} (known : t = some v) (either : t = some v → departure = some v ∨ tmDeparture e = some v) :
      departure = some v ∨ e.Saw v := (either known).imp_right fun own => .inr (.inr (.inr own))
  have cut {t : Option Instant} (either : t = some v → departure = some v ∨ tmDeparture e = some v)
      (knows : (Times.mk (Column.minPresent (Column.maxPresent (gtfsArrival e) (tmArrival e)) t) t).Knows v) :
      departure = some v ∨ e.Saw v := by
    rcases knows with arrival | known
    · rcases Instant.minEither arrival with known | known
      · exact .inr (latest known)
      · exact left known either
    · exact left known either
  unfold estimate at knows
  dsimp only at knows
  split at knows
  · exact cut Instant.orEither knows
  · split at knows
    · rcases knows with known | known <;> exact .inr (latest known)
    · exact cut (fun known => (Instant.minEither known).symm) knows

theorem departuresSaw {events : List StopEvent} (member : departure ∈ gtfsDepartures events) (known : departure = some v) :
    ∃ e ∈ events, e.Saw v := by
  cases events with
  | nil => cases member
  | cons first rest =>
    rcases List.mem_append.mp member with seen | last
    · obtain ⟨e, inside, own⟩ := List.mem_map.mp seen
      exact ⟨e, List.mem_cons_of_mem _ inside, .inl (own.trans known)⟩
    · cases (List.mem_singleton.mp last).symm.trans known

theorem estimatesSaw {events : List StopEvent} {t : Times} (member : t ∈ estimates events) (knows : t.Knows v) :
    ∃ e ∈ events, e.Saw v := by
  obtain ⟨⟨⟨e, departure⟩, index⟩, known, rfl⟩ := List.mem_map.mp member
  obtain ⟨own, next⟩ := List.of_mem_zip (List.fst_mem_of_mem_zipIdx known)
  rcases estimateKnows (completeKnows knows) with left | saw
  · exact departuresSaw next left
  · exact ⟨e, own, saw⟩

theorem memMoments {times : List Times} : v ∈ moments times ↔ ∃ t ∈ times, t.Knows v := by
  simp [moments, Times.moments, Times.Knows]

end Stay

namespace StopRecord
variable {events : List StopEvent}

theorem journeySaw {r : StopRecord} {v : Instant} (member : r ∈ ofJourney events) (knows : r.times.Knows v) :
    ∃ e ∈ events, e.Saw v := by
  have shown : v ∈ Stay.moments ((ofJourney events).map times) := Stay.memMoments.mpr ⟨_, List.mem_map_of_mem member, knows⟩
  rw [journeyMoments] at shown
  obtain ⟨t, estimated, knows⟩ := Stay.memMoments.mp (Instant.memRunningMax shown)
  exact Stay.estimatesSaw estimated knows

structure Forward (rows : List StopRecord) : Prop where
  travelled : ∀ r ∈ rows, ∀ s ∈ r.stay.travelled, 0 ≤ s
  stopped : ∀ r ∈ rows, ∀ s ∈ r.stay.stopped, 0 ≤ s

theorem Forward.sublist {rows others : List StopRecord} (forward : Forward others) (sub : rows.Sublist others) : Forward rows :=
  ⟨fun r member => forward.travelled r (sub.subset member), fun r member => forward.stopped r (sub.subset member)⟩

theorem Forward.stay {r : StopRecord} {rows : List StopRecord} (forward : Forward (r :: rows)) :
    0 ≤ r.stay.travelled.getD 0 + r.stay.stopped.getD 0 := by
  have known {seconds : Option Int} (above : ∀ s ∈ seconds, 0 ≤ s) : 0 ≤ seconds.getD 0 := by
    cases seconds with
    | none => exact Int.le_refl 0
    | some s => exact above s rfl
  exact Int.add_nonneg (known (forward.travelled r List.mem_cons_self)) (known (forward.stopped r List.mem_cons_self))

theorem elapsedSublist {rows others : List StopRecord} (sub : rows.Sublist others) (forward : Forward others) :
    elapsed rows ≤ elapsed others := by
  induction sub with
  | slnil => exact Int.le_refl _
  | @cons rows others r _ ih =>
    have more := forward.stay
    have behind := ih (forward.sublist (List.sublist_cons_self r others))
    rw [Validation.elapsedCons]
    omega
  | @cons_cons rows others r _ ih =>
    have behind := ih (forward.sublist (List.sublist_cons_self r others))
    rw [Validation.elapsedCons, Validation.elapsedCons]
    omega

theorem elapsedForward {rows : List StopRecord} (forward : Forward rows) : 0 ≤ elapsed rows :=
  elapsedSublist (List.nil_sublist rows) forward

theorem journeyForward (events : List StopEvent) : Forward (ofJourney events) := ⟨journeyTravelled, journeyStopped⟩

theorem journeyElapsed (whole : ∀ e ∈ events, e.Whole) (ranged : ∀ e ∈ events, ∀ v, e.Saw v → v.InRange) :
    elapsed (ofJourney events) ≤ Text.Bounds.signed64.high := by
  have begun := List.prefix_refl (ofJourney events)
  cases arrivals : (ofJourney events).filterMap (·.stay.arrival) with
  | nil =>
    rw [(beginningTimeless begun arrivals).2]
    decide
  | cons first rest =>
    obtain ⟨r, member, arrives⟩ := List.mem_filterMap.mp (arrivals ▸ List.mem_cons_self)
    have together : r.stay.arrival.isSome = r.stay.departure.isSome := (journeyInOrder r member).together
    obtain ⟨d, leaves⟩ := Option.isSome_iff_exists.mp (together.symm.trans (Option.isSome_of_mem arrives))
    have filled : (ofJourney events).filterMap (·.stay.departure) ≠ [] :=
      List.ne_nil_of_mem (List.mem_filterMap.mpr ⟨r, member, leaves⟩)
    have finish := List.getLast?_eq_some_getLast filled
    generalize ((ofJourney events).filterMap (·.stay.departure)).getLast filled = last at finish
    obtain ⟨s, also, departs⟩ := List.mem_filterMap.mp (List.mem_of_getLast? finish)
    -- the sum is the span between two instants of the calendar, less than 2 * 10^13 seconds apart
    obtain ⟨e, inside, saw⟩ := journeySaw member (.inl arrives)
    obtain ⟨f, within, left⟩ := journeySaw also (.inr departs)
    have spans := congrArg Instant.nanos (beginningSpans whole begun first (by rw [arrivals]; rfl) last finish)
    have start := ranged e inside first saw
    have finish := ranged f within last left
    unfold Instant.InRange Instant.perSecond at start finish
    simp only [Instant.plusSeconds, Instant.plus, Instant.perSecond] at spans
    have low : Day.first.number = -96465292 := rfl
    have high : Day.last.number = 95026236 := rfl
    rw [low, high] at start finish
    show _ ≤ (9223372036854775807 : Int)
    omega

section Stays
variable {rows others : List StopRecord} (same : rows.map (·.stay) = others.map (·.stay))
include same

theorem elapsedStays : elapsed rows = elapsed others := by
  have column {α : Type} (get : Stay → Option α) :
      rows.filterMap (fun r => get r.stay) = others.filterMap fun r => get r.stay := by
    have columns := congrArg (List.filterMap get) same
    rwa [List.filterMap_map, List.filterMap_map] at columns
  rw [elapsed, elapsed, column (·.travelled), column (·.stopped)]

theorem Forward.stays (forward : Forward others) : Forward rows := by
  have known : ∀ r ∈ rows, ∃ s ∈ others, s.stay = r.stay := by
    intro r member
    have inside : r.stay ∈ rows.map (·.stay) := List.mem_map_of_mem member
    rw [same] at inside
    exact List.mem_map.mp inside
  constructor
  · intro r member
    obtain ⟨s, inside, own⟩ := known r member
    exact own ▸ forward.travelled s inside
  · intro r member
    obtain ⟨s, inside, own⟩ := known r member
    exact own ▸ forward.stopped s inside

end Stays

theorem staysFit (whole : ∀ e ∈ events, e.Whole) (ranged : ∀ e ∈ events, ∀ v, e.Saw v → v.InRange)
    {rows partition : List StopRecord} (stays : partition.map (·.stay) = Stay.ofEvents events)
    (sub : rows.Sublist partition) : elapsedIn64 rows = elapsed rows := by
  have same := stays.trans (journeyStays events).symm
  have forward := (journeyForward events).stays same
  have least := elapsedForward (forward.sublist sub)
  have most := elapsedSublist sub forward
  rw [elapsedStays same] at most
  exact Text.Bounds.wrapFits (Int.le_trans (by decide) least) (Int.le_trans most (journeyElapsed whole ranged))

end StopRecord

end TransitTimeline
