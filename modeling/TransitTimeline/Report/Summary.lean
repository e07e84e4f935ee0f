import TransitTimeline.Json.Writer
import TransitTimeline.Record.Validation

/-! What happened to a service date, in counts. -/
namespace TransitTimeline

structure Summary where
  date : Day := default
  published : Nat := 0
  rejected : Nat := 0
  rejectedByRule : List (String × Nat) := []
  scheduleRows : Nat := 0
  pullouts : Nat := 0
  partitions : Nat := 0
  unmatchedGtfs : Nat := 0
  unmatchedTm : Nat := 0
  ambiguous : Nat := 0
  trimmed : Nat := 0
  excluded : Nat := 0
  deriving DecidableEq, Repr, Inhabited

namespace Summary

def tally (names : List String) : List (String × Nat) :=
  (Groups.ofRows id names).toList.map fun (name, group) => (name, group.length)

def sorted (counts : List (String × Nat)) : List (String × Nat) := sortOn Prod.fst counts

def ofOutcome (date : Day) (merged : Skeleton.Merged) (joined : Journey.Joined) (outcome : Validation.Outcome) :
    Summary where
  date
  published := outcome.valid.length
  rejected := outcome.rejected.length
  rejectedByRule := tally (outcome.rejected.map (·.rule.word))
  scheduleRows := merged.rows.length
  pullouts := merged.counts.pullouts
  partitions := joined.counts.partitions
  unmatchedGtfs := joined.counts.unmatchedGtfs
  unmatchedTm := joined.counts.unmatchedTm
  ambiguous := merged.counts.ambiguous
  trimmed := merged.counts.trimmed + joined.counts.trimmed
  excluded := merged.counts.excluded

def count (name : String) (n : Nat) : String × Json := (name, .integer n)

def json (s : Summary) : Json :=
  .object [("service_date", .text s.date.text), count "published" s.published, count "rejected" s.rejected,
    ("rejected_by_rule", .object (s.rejectedByRule.map fun (rule, n) => count rule n)),
    count "schedule_rows" s.scheduleRows, count "pullouts" s.pullouts, count "vehicle_partitions" s.partitions,
    count "unmatched_gtfs_events" s.unmatchedGtfs, count "unmatched_tm_events" s.unmatchedTm,
    count "ambiguous_matches" s.ambiguous, count "trimmed_schedule_rows" s.trimmed,
    count "excluded_schedule_rows" s.excluded]

end Summary

end TransitTimeline
