import TransitTimeline.Order
import TransitTimeline.Schedule.Row
import TransitTimeline.ServiceTime

/-! Stops of a pullout paired with the planned visits of its trip. A stop may recur along a trip, so a pullout's
stop takes the visit that departs nearest to it, behind all visits taken before. -/
namespace TransitTimeline

structure Visit where
  stop : PlannedStop
  place : Nat
  deriving DecidableEq, Repr

def Visit.ofStops (stops : List PlannedStop) : List Visit := stops.zipIdx.map fun (stop, place) => ⟨stop, place⟩

structure Window where
  start : Instant
  finish : Instant
  deriving DecidableEq, Repr

namespace Window

/-- A pullout without any departure has no window. -/
def ofPullout (tolerance : Int) (trip : String) (pullout : Int) (stops : List PulloutStop) :
    Except Failure Window :=
  let departures := stops.filterMap (·.departure)
  match departures.min?, departures.max? with
  | some first, some last => do
    let start ← ServiceTime.within (first.plus (-tolerance))
    let finish ← ServiceTime.within (last.plus tolerance)
    return ⟨start, finish⟩
  | _, _ => .error (.emptyPullout trip pullout)

def holds (w : Window) (v : Visit) : Bool := v.stop.departure.any fun d => w.start ≤ d && d ≤ w.finish

end Window

structure Pairing where
  stop : PulloutStop
  visit : Option Visit
  isAmbiguous : Bool
  deriving DecidableEq, Repr

namespace Pairing

/-- Whole seconds between the departures. To a stop without a departure all visits are equally near. -/
def distance (t : PulloutStop) (v : Visit) : Nat :=
  match v.stop.departure, t.departure with
  | some planned, some dispatched => (planned.secondsSince dispatched).natAbs
  | _, _ => 0

def rank (t : PulloutStop) (v : Visit) : Nat × Nat × Nat :=
  (distance t v, (v.stop.sequence - t.sequence).natAbs, v.place)

def eligible (w : Window) (visits : List Visit) (next : Nat) (t : PulloutStop) : List Visit :=
  visits.filter fun v => next ≤ v.place && w.holds v && v.stop.stopId = t.stopId

/-- Takes visits in the order of the pullout's stops; a visit is taken once, and none before it afterwards. -/
def along (w : Window) (visits : List Visit) : Nat → List PulloutStop → List Pairing
  | _, [] => []
  | next, t :: rest =>
    match sortOn (rank t) (eligible w visits next t) with
    | [] => ⟨t, none, false⟩ :: along w visits next rest
    | best :: others =>
      ⟨t, some best, others.head?.any fun v => distance t v = distance t best⟩ ::
        along w visits (best.place + 1) rest

theorem alongStops (w : Window) (visits : List Visit) (next : Nat) (stops : List PulloutStop) :
    (along w visits next stops).map (·.stop) = stops := by
  induction stops generalizing next with
  | nil => rfl
  | cons t rest ih => simp only [along]; split <;> simp [ih]

end Pairing

end TransitTimeline
