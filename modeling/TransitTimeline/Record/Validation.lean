import TransitTimeline.Record.Basic

/-! What published rows promise, and the rows withheld because they break it. -/
namespace TransitTimeline

inductive Rule where
  | sequenceIncreases
  | startsPlanned
  | departureNotBeforeArrival
  | arrivalsInOrder
  | departuresInOrder
  | durationsAddUp
  deriving DecidableEq, Repr, Inhabited

namespace Rule

def word : Rule → String
  | sequenceIncreases => "gtfs_stop_sequence_increasing"
  | startsPlanned => "first_stop_has_gtfs"
  | departureNotBeforeArrival => "departure_not_before_arrival"
  | arrivalsInOrder => "arrival_non_decreasing"
  | departuresInOrder => "departure_non_decreasing"
  | durationsAddUp => "duration_sum_matches_span"

def all : List Rule :=
  [sequenceIncreases, startsPlanned, departureNotBeforeArrival, arrivalsInOrder, departuresInOrder, durationsAddUp]

def ofWord? (s : String) : Option Rule := all.find? (·.word = s)

end Rule

structure Rejected where
  rule : Rule
  record : StopRecord
  deriving DecidableEq, Repr

namespace Validation

/-- The last known values before a row, of rejected rows too. -/
structure Last where
  sequence : Option Int := none
  arrival : Option Instant := none
  departure : Option Instant := none
  deriving DecidableEq, Repr

def Last.after (l : Last) (r : StopRecord) : Last :=
  ⟨r.row.gtfsSequence.or l.sequence, r.stay.arrival.or l.arrival, r.stay.departure.or l.departure⟩

def both {α : Type} (a b : Option α) (test : α → α → Bool) : Bool :=
  match a, b with
  | some a, some b => test a b
  | _, _ => false

def rowRule (l : Last) (r : StopRecord) : Option Rule :=
  if both l.sequence r.row.gtfsSequence fun last own => own ≤ last then some .sequenceIncreases
  else if both r.stay.arrival r.stay.departure fun arrival departure => departure < arrival then
    some .departureNotBeforeArrival
  else if both l.arrival r.stay.arrival fun last own => own < last then some .arrivalsInOrder
  else if both l.departure r.stay.departure fun last own => own < last then some .departuresInOrder
  else none

def rowRules (l : Last) : List StopRecord → List (Option Rule)
  | [] => []
  | r :: rest => rowRule l r :: rowRules (l.after r) rest

/-- Travelling and standing, as far as they are known, added up in 64 bits. -/
def duration (rows : List StopRecord) : Int :=
  let wrap := Text.Bounds.signed64.wrap
  rows.foldl (fun total r => wrap (total + wrap (r.stay.travelled.getD 0 + r.stay.stopped.getD 0))) 0

def span? (rows : List StopRecord) : Option Int := do
  let first ← rows.findSome? (·.stay.arrival)
  let last ← rows.reverse.findSome? (·.stay.departure)
  return last.secondsSince first

def partitionRule (rows : List StopRecord) : Option Rule :=
  if rows.any (·.row.gtfsSequence.isSome) && rows.head?.any (·.row.gtfsSequence.isNone) then some .startsPlanned
  else match span? rows with
    | some span => if duration rows = span then none else some .durationsAddUp
    | none => none

structure Verdict where
  record : StopRecord
  rule : Option Rule
  deriving DecidableEq, Repr

/-- Rows that break no rule of their own are withheld too when together they break a rule. -/
def judge (partition : List StopRecord) : List Verdict :=
  let own := List.zipWith Verdict.mk partition (rowRules {} partition)
  let survivors := (own.filter (·.rule.isNone)).map (·.record)
  own.map fun v => { v with rule := v.rule.or (partitionRule survivors) }

structure Outcome where
  valid : List StopRecord
  rejected : List Rejected
  deriving DecidableEq, Repr

def Outcome.ofVerdicts (verdicts : List Verdict) : Outcome :=
  ⟨(verdicts.filter (·.rule.isNone)).map (·.record),
    verdicts.filterMap fun v => v.rule.map fun rule => ⟨rule, v.record⟩⟩

def run (rows : List StopRecord) : Outcome := .ofVerdicts ((StopRecord.partitions rows).flatMap judge)

end Validation

end TransitTimeline
