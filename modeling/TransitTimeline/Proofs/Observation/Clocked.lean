import TransitTimeline.Observation.Gtfs
import TransitTimeline.Observation.Tm
import TransitTimeline.Proofs.Instant
import TransitTimeline.Proofs.Order
import TransitTimeline.Proofs.Paired

/-! Both feeds count whole seconds of the calendar, so every time that an observation shows is one. -/
namespace TransitTimeline

def Instant.Clocked (t : Option Instant) : Prop := ∀ v ∈ t, (∃ s, v = .ofSeconds s) ∧ v.InRange

theorem Instant.clockedNone : Clocked none := by simp [Clocked]

open Instant (Clocked)

namespace ServiceTime

theorem reportedClocked (seconds : Int) : Clocked (reported? seconds) := by
  intro t shown
  unfold reported? Instant.inRange? at shown
  split at shown <;> cases shown
  rename_i inside
  exact ⟨⟨seconds, rfl⟩, inside⟩

theorem wallClocked (z : Zone) (wall : Int) : Clocked (atWall? z wall) := by
  intro t shown
  obtain ⟨second, _, shown⟩ := Option.bind_eq_some_iff.mp shown
  exact reportedClocked second t shown

theorem dispatchedClocked {date : Day} {seconds : Int} {z : Zone} {t : Option Instant}
    (ok : dispatched date seconds z = .ok t) : Clocked t := by
  obtain ⟨_, _, ok⟩ := okBind ok
  obtain ⟨_, _, ok⟩ := okBind ok
  split at ok
  · rename_i found
    cases ok
    rw [← found]
    exact wallClocked z _
  · obtain ⟨_, _, ok⟩ := okBind ok
    cases ok
    exact wallClocked z _

end ServiceTime

def GtfsObservation.Clocked (o : GtfsObservation) : Prop := Instant.Clocked o.travelTo ∧ Instant.Clocked o.arrival
def TmObservation.Clocked (o : TmObservation) : Prop := Instant.Clocked o.arrival ∧ Instant.Clocked o.departure

namespace GtfsObservation

theorem usableClocked {date : Day} {busRoutes : Std.TreeSet String} {p : Ping} {r : UsablePing}
    (usable : UsablePing.ofPing? date busRoutes p = some r) : Instant.Clocked (some r.time) := by
  simp only [UsablePing.ofPing?, bind, Option.bind_eq_some_iff] at usable
  obtain ⟨route, _, usable⟩ := usable
  split at usable <;> try contradiction
  split at usable <;> try contradiction
  simp only [pure, Option.bind_eq_some_iff] at usable
  obtain ⟨_, _, _, _, _, _, _, _, _, _, time, reported, last⟩ := usable
  cases last
  rw [← reported]
  exact ServiceTime.reportedClocked p.timestamp

theorem earliestClocked {status : StopStatus} {group : List UsablePing} (usable : ∀ r ∈ group, Instant.Clocked (some r.time)) :
    Instant.Clocked ((earliest status group).map (·.time)) := by
  cases found : earliest status group with
  | none => exact Instant.clockedNone
  | some r => exact usable r (List.mem_of_mem_filter (firstLeastMem found))

theorem ofPingsClocked {date : Day} {busRoutes : Std.TreeSet String} {pings : List Ping} :
    ∀ o ∈ ofPings date busRoutes pings, o.Clocked := by
  intro o member
  obtain ⟨⟨key, group⟩, known, rfl⟩ := List.mem_map.mp member
  obtain ⟨_, rfl⟩ := Groups.memToList.mp known
  have usable : ∀ r ∈ (pings.filterMap (UsablePing.ofPing? date busRoutes)).filter (·.key = key),
      Instant.Clocked (some r.time) := by
    intro r inside
    obtain ⟨p, _, ok⟩ := List.mem_filterMap.mp (List.mem_of_mem_filter inside)
    exact usableClocked ok
  exact ⟨earliestClocked usable, earliestClocked usable⟩

theorem continuedClocked {offsets : PlannedStop.Offsets} {o : GtfsObservation} (clocked : o.Clocked) :
    (continued offsets o).Clocked := by
  unfold continued
  split <;> exact clocked

end GtfsObservation

namespace TmObservation
variable {date : Day} {z : Zone}

theorem timeClocked {seconds : Option Int} {t : Option Instant} (ok : timeOf date z seconds = .ok t) : Instant.Clocked t := by
  cases seconds with
  | none => cases ok; exact Instant.clockedNone
  | some s => exact ServiceTime.dispatchedClocked ok

theorem ofCrossingClocked {l : Lookup} {c : Crossing} {o : TmObservation} (ok : ofCrossing date z l c = .ok (some o)) :
    o.Clocked := by
  unfold ofCrossing at ok
  split at ok
  · cases ok
  · split at ok
    · cases ok
    · obtain ⟨_, _, ok⟩ := okBind ok
      obtain ⟨arrival, arrived, ok⟩ := okBind ok
      obtain ⟨departure, left, ok⟩ := okBind ok
      have seen := Except.ok.inj ok
      split at seen <;> cases seen
      exact ⟨timeClocked arrived, timeClocked left⟩

theorem ofCrossingsClocked {t : Tm.Tables} {crossings : List Crossing} {observations : List TmObservation}
    (ok : ofCrossings date z t crossings = .ok observations) : ∀ o ∈ observations, o.Clocked := by
  obtain ⟨each, mapped, ok⟩ := okBind ok
  cases ok
  intro o member
  obtain ⟨⟨key, group⟩, known, least⟩ := List.mem_filterMap.mp member
  obtain ⟨_, rfl⟩ := Groups.memToList.mp known
  obtain ⟨o?, inside, same⟩ := List.mem_filterMap.mp (List.mem_of_mem_filter (firstLeastMem least))
  obtain ⟨c, _, made⟩ := pairedMem (pairedMapM mapped) inside
  exact ofCrossingClocked (made.trans (congrArg Except.ok same))

end TmObservation

end TransitTimeline
