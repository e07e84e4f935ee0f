import TransitTimeline.Observation.Row
import TransitTimeline.Schedule.Skeleton

/-! Observations attached to the merged schedule. Each vehicle on a trip is a journey of its own; its
observations go to the rows of one pullout of the trip. -/
namespace TransitTimeline

structure StopEvent where
  date : Day := default
  row : SkeletonRow := {}
  vehicleLabel : String := ""
  vehicleId : Option String := none
  tripIdGtfs : Option String := none
  gtfs : Option GtfsObservation := none
  tm : Option TmObservation := none
  deriving DecidableEq, Repr, Inhabited

structure Journey where
  tripId : String
  vehicleLabel : String
  gtfs : List GtfsObservation
  tm : List TmObservation
  deriving DecidableEq, Repr

namespace Journey
open Std

def ofObservations (gtfs : List GtfsObservation) (tm : List TmObservation) : List Journey :=
  let gtfsGroups := Groups.ofRows (fun (o : GtfsObservation) => (o.tripId, o.vehicleLabel)) gtfs
  let tmGroups := Groups.ofRows (fun (o : TmObservation) => (o.tripId, o.vehicleLabel)) tm
  let keys := (gtfsGroups.keys ++ tmGroups.keys).foldl (fun (ids : TreeSet (String × String)) k => ids.insert k) {}
  keys.toList.map fun k => ⟨k.1, k.2, gtfsGroups.rows k, tmGroups.rows k⟩

def firstSeen (j : Journey) : Option Instant :=
  (j.gtfs.filterMap (·.firstSeen) ++ j.tm.filterMap (·.firstSeen)).min?

abbrev Pullouts := List (Option Int × List SkeletonRow)

def pulloutsOf (rows : List SkeletonRow) : Pullouts :=
  (Groups.ofRows (·.pullout) rows).toList.map fun (pullout, rows) => (pullout, sortOn (·.position) rows)

def rowsOf? (pullouts : Pullouts) (pullout : Option Int) : Option (List SkeletonRow) :=
  (pullouts.find? (·.1 = pullout)).map (·.2)

def namedPullout? (pullouts : Pullouts) (j : Journey) : Option Int :=
  let named := j.tm.filter fun o => o.pullout.any fun p => (rowsOf? pullouts (some p)).isSome
  (firstLeast (fun o => (o.firstSeen, o.sequence)) named).bind (·.pullout)

def startDistance (seen : Instant) (rows : List SkeletonRow) : Nat × Nat :=
  match rows.findSome? (·.scheduled) with
  | some start => (0, (start.secondsSince seen).natAbs)
  | none => (1, 0)

/-- The rows of the pullout that the vehicle ran: the only one, the one its crossings name, or the one that
starts nearest to the first observation. -/
def skeleton? (pullouts : Pullouts) (j : Journey) : Option (List SkeletonRow) :=
  match pullouts with
  | [] => none
  | [(_, rows)] => some rows
  | (_, rows) :: _ =>
    match namedPullout? pullouts j with
    | some pullout => rowsOf? pullouts (some pullout)
    | none =>
      match j.firstSeen with
      | none => some rows
      | some seen => (firstLeast (fun p => startDistance seen p.2) pullouts).map (·.2)

/-- The place of the row at the stop whose sequence is nearest; a row without a sequence goes by its position. -/
def nearest? (skeleton : List SkeletonRow) (sequenceOf : SkeletonRow → Option Int) (stopId : String)
    (sequence : Int) : Option Nat :=
  let rows := skeleton.zipIdx.filter fun (r, _) => r.stopId = stopId
  (firstLeast (fun (r, place) => ((((sequenceOf r).getD r.position) - sequence).natAbs, place)) rows).map (·.2)

def gtfsPlace? (skeleton : List SkeletonRow) (o : GtfsObservation) : Option Nat :=
  nearest? skeleton (·.gtfsSequence) o.stopId o.sequence

def tmPlace? (skeleton : List SkeletonRow) (o : TmObservation) : Option Nat :=
  nearest? skeleton (·.tmSequence) o.stopId o.sequence

def assign {ο : Type} (place? : ο → Option Nat) (observations : List ο) : List (Option Nat × ο) :=
  observations.map fun o => (place? o, o)

def shown? {ο : Type} (firstSeen : ο → Option Instant) (assigned : List (Option Nat × ο)) (place : Nat) : Option ο :=
  firstLeast firstSeen ((assigned.filter (·.1 = some place)).map (·.2))

def unmatched {ο : Type} (assigned : List (Option Nat × ο)) : Nat := assigned.countP (·.1.isNone)

structure Counts where
  partitions : Nat := 0
  unmatchedGtfs : Nat := 0
  unmatchedTm : Nat := 0
  trimmed : Nat := 0
  deriving DecidableEq, Repr

namespace Counts

def plus (a b : Counts) : Counts :=
  ⟨a.partitions + b.partitions, a.unmatchedGtfs + b.unmatchedGtfs, a.unmatchedTm + b.unmatchedTm,
    a.trimmed + b.trimmed⟩

def sum (counts : List Counts) : Counts := counts.foldr plus {}

end Counts

structure Joined where
  events : List StopEvent
  counts : Counts
  deriving DecidableEq, Repr

def Joined.concat (parts : List Joined) : Joined :=
  ⟨parts.flatMap (·.events), .sum (parts.map (·.counts))⟩

structure Attached where
  row : SkeletonRow
  gtfs : Option GtfsObservation
  tm : Option TmObservation
  deriving DecidableEq, Repr

def attached (skeleton : List SkeletonRow) (gtfs : List (Option Nat × GtfsObservation))
    (tm : List (Option Nat × TmObservation)) : List Attached :=
  (skeleton.zipIdx.map fun (row, place) =>
    ⟨row, shown? (·.firstSeen) gtfs place, shown? (·.firstSeen) tm place⟩).filter fun a =>
      a.gtfs.isSome || a.tm.isSome

def eventOf (date : Day) (j : Journey) (a : Attached) : StopEvent where
  date
  row := a.row
  vehicleLabel := j.vehicleLabel
  vehicleId := j.gtfs.findSome? (·.vehicleId)
  tripIdGtfs := ((a.gtfs.map (·.tripIdGtfs)).or (j.gtfs.head?.map (·.tripIdGtfs))).or a.row.facts.tripIdGtfs
  gtfs := a.gtfs
  tm := a.tm

def eventsOn (date : Day) (skeleton : List SkeletonRow) (j : Journey) : Joined :=
  let gtfs := assign (gtfsPlace? skeleton) j.gtfs
  let tm := assign (tmPlace? skeleton) j.tm
  let rows := attached skeleton gtfs tm
  let kept := Skeleton.trim (fun a => Skeleton.isPlanned a.row) rows
  ⟨kept.map (eventOf date j),
    { partitions := if kept.isEmpty then 0 else 1
      unmatchedGtfs := unmatched gtfs
      unmatchedTm := unmatched tm
      trimmed := rows.length - kept.length }⟩

def events (date : Day) (schedule : Groups String SkeletonRow) (j : Journey) : Joined :=
  match skeleton? (pulloutsOf (schedule.rows j.tripId)) j with
  | some skeleton => eventsOn date skeleton j
  | none => ⟨[], { unmatchedGtfs := j.gtfs.length, unmatchedTm := j.tm.length }⟩

def join (date : Day) (schedule : List SkeletonRow) (gtfs : List GtfsObservation) (tm : List TmObservation) :
    Joined :=
  let trips := Groups.ofRows (·.tripId) schedule
  .concat ((ofObservations gtfs tm).map (events date trips))

end Journey

end TransitTimeline
