import TransitTimeline.Proofs.Instant
import TransitTimeline.Record.Stay

/-! Settled times of a journey: no time at a stop is before a time at a stop before it, whatever the estimates are. -/
namespace TransitTimeline

namespace Stay

def Times.Knows (t : Times) (v : Instant) : Prop := t.arrival = some v ∨ t.departure = some v

def Times.Before (a b : Times) : Prop := ∀ u v, a.Knows u → b.Knows v → u ≤ v

section Max
variable {a b : Option Instant} {v : Instant}

theorem maxLeft (known : a = some v) : ∃ m ∈ Column.maxPresent a b, v ≤ m := by
  cases known
  cases b with
  | none => exact ⟨v, rfl, Instant.leRefl v⟩
  | some w => exact ⟨max v w, rfl, Instant.leMaxLeft v w⟩

theorem maxRight (known : b = some v) : ∃ m ∈ Column.maxPresent a b, v ≤ m := by
  cases known
  cases a with
  | none => exact ⟨v, rfl, Instant.leRefl v⟩
  | some w => exact ⟨max w v, rfl, Instant.leMaxRight w v⟩

theorem latestKnown {t : Times} (known : t.Knows v) : ∃ m ∈ t.latest, v ≤ m := by
  rcases known with arrival | departure
  · exact maxLeft arrival
  · exact maxRight departure

end Max

theorem raised {floor value : Option Instant} {v : Instant} (known : Times.raise floor value = some v) :
    (∀ f ∈ floor, f ≤ v) ∧ (value = some v ∨ floor = some v) := by
  unfold Times.raise at known
  split at known
  · rename_i w f
    split at known <;> cases known
    · rename_i below
      exact ⟨fun g own => by cases own; exact Instant.leRefl v, .inr rfl⟩
    · rename_i above
      exact ⟨fun g own => by cases own; exact Instant.notLt.mp above, .inl rfl⟩
  · rename_i apart
    cases known
    cases floor with
    | none => exact ⟨by simp, .inl rfl⟩
    | some f => exact absurd rfl (apart v f rfl)

theorem raisedKnown {floor : Option Instant} {t : Times} {v : Instant} (known : (t.raiseTo floor).Knows v) :
    (∀ f ∈ floor, f ≤ v) ∧ (t.Knows v ∨ floor = some v) := by
  rcases known with arrival | departure
  · obtain ⟨above, own⟩ := raised arrival
    exact ⟨above, own.imp_left .inl⟩
  · obtain ⟨above, own⟩ := raised departure
    exact ⟨above, own.imp_left .inr⟩

/- The running floor is at least every time before it, raised or not, so raised times stay behind them all. -/
theorem settledFrom (running : Option Instant) (times : List Times) :
    let settled := List.zipWith Times.raiseTo (Column.maxBeforeFrom running (times.map (·.latest))) times
    settled.Pairwise Times.Before ∧ ∀ t ∈ settled, ∀ v, t.Knows v → ∀ f ∈ running, f ≤ v := by
  induction times generalizing running with
  | nil => simp [Column.maxBeforeFrom]
  | cons t rest ih =>
    obtain ⟨ordered, behind⟩ := ih (Column.maxPresent running t.latest)
    simp only [List.map_cons, Column.maxBeforeFrom, List.zipWith_cons_cons]
    refine ⟨List.pairwise_cons.mpr ⟨fun s member u v hu hv => ?_, ordered⟩, fun s member v known f own => ?_⟩
    · rcases (raisedKnown hu).2 with known | floor
      · obtain ⟨m, latest, le⟩ := latestKnown known
        obtain ⟨n, floor, le'⟩ := maxRight (a := running) latest
        exact Instant.leTrans le (Instant.leTrans le' (behind s member v hv n floor))
      · obtain ⟨n, floor, le⟩ := maxLeft (b := t.latest) floor
        exact Instant.leTrans le (behind s member v hv n floor)
    · rcases List.mem_cons.mp member with rfl | later
      · exact (raisedKnown known).1 f own
      · obtain ⟨n, floor, le⟩ := maxLeft (b := t.latest) own
        exact Instant.leTrans le (behind s later v known n floor)

theorem settledBefore (times : List Times) : (settle times).Pairwise Times.Before := (settledFrom none times).1

def Ordered (a b : Stay) : Prop :=
  (∀ u ∈ a.arrival, ∀ v ∈ b.arrival, u ≤ v) ∧ ∀ u ∈ a.departure, ∀ v ∈ b.departure, u ≤ v

theorem previousLength (times : List Times) : (previousDepartures times).length = times.length := by
  simp [previousDepartures, Column.forwardLength]

theorem estimatesLength (events : List StopEvent) : (estimates events).length = events.length := by
  simp [estimates, gtfsDepartures, Column.nextLength]

theorem ofEventsLength (events : List StopEvent) : (ofEvents events).length = events.length := by
  simp [ofEvents, previousLength, settleLength, estimatesLength]

theorem ofEventsTimes (events : List StopEvent) :
    (ofEvents events).map (fun s => Times.mk s.arrival s.departure) = settle (estimates events) := by
  have long := Nat.le_of_eq (previousLength (settle (estimates events))).symm
  have times := List.map_snd_zip long
  rw [ofEvents, List.map_zipWith, ← List.map_uncurry_zip_eq_zipWith]
  exact times

theorem staysOrdered (events : List StopEvent) : (ofEvents events).Pairwise Ordered := by
  have before := settledBefore (estimates events)
  rw [← ofEventsTimes] at before
  refine (List.pairwise_map.mp before).imp fun {a b} before => ⟨?_, ?_⟩
  · exact fun u hu v hv => before u v (.inl hu) (.inl hv)
  · exact fun u hu v hv => before u v (.inr hu) (.inr hv)

end Stay

namespace StopRecord

theorem departuresLength (events : List StopEvent) : (Stay.gtfsDepartures events).length = events.length := by
  simp [Stay.gtfsDepartures, Column.nextLength]

theorem pairsLength (events : List StopEvent) :
    ((Stay.gtfsDepartures events).zip (Stay.ofEvents events)).length = events.length := by
  rw [List.length_zip, departuresLength, Stay.ofEventsLength, Nat.min_self]

theorem journeyStays (events : List StopEvent) : (ofJourney events).map (·.stay) = Stay.ofEvents events := by
  have second := List.map_snd_zip (Nat.le_of_eq (pairsLength events))
  have stays := List.map_snd_zip (Nat.le_of_eq ((Stay.ofEventsLength events).trans (departuresLength events).symm))
  rw [← stays]
  conv => rhs; rw [← second]
  rw [ofJourney, List.map_map, List.map_map]
  rfl

def alone (r : StopRecord) : StopRecord :=
  { r with
    reported := { r.reported with gtfsDeparture := none }
    stay := {}
    routeHeadway := none
    destinationHeadway := none
    isFullTrip := false }

theorem journeyAlone (events : List StopEvent) :
    (ofJourney events).map alone = events.map fun e => ofEvent false e none {} := by
  have first := List.map_fst_zip (Nat.le_of_eq (pairsLength events).symm)
  conv => rhs; rw [← first]
  rw [ofJourney, List.map_map, List.map_map]
  rfl

theorem journeyRows (events : List StopEvent) : (ofJourney events).map (fun r => (r.row.gtfsSequence, r.journey)) =
    events.map fun e => (e.row.gtfsSequence, e.row.tripId, e.vehicleLabel) := by
  have shown := congrArg (List.map fun r => (r.row.gtfsSequence, r.journey)) (journeyAlone events)
  rwa [List.map_map, List.map_map] at shown

end StopRecord

end TransitTimeline
