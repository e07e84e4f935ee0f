import TransitTimeline.Report.Summary
import TransitTimeline.Table.Csv

/-! The three published texts of a service date. -/
namespace TransitTimeline

structure Report where
  records : List StopRecord := []
  rejected : List Rejected := []
  summary : Summary := {}
  deriving DecidableEq, Repr, Inhabited

namespace Report

def header : List String := StopRecord.fields.map (·.name)

/-- A header and a line for each row; nothing at all for no rows. -/
def recordsText (rows : List StopRecord) : String :=
  if rows.isEmpty then ""
  else String.ofList ((header :: rows.map (Field.record StopRecord.fields)).flatMap Csv.line)

def rejectedJson (r : Rejected) : Json :=
  .object [("rule", .text r.rule.word), ("row", .object (Field.members StopRecord.fields r.record))]

def rejectedText (rows : List Rejected) : String :=
  String.join (rows.map fun r => (rejectedJson r).compact ++ "\n")

def summaryText (s : Summary) : String := s.json.indented 0 ++ "\n"

def files (r : Report) : List (String × String) :=
  [("bus_performance_metrics.csv", recordsText r.records), ("rejected_rows.jsonl", rejectedText r.rejected),
   ("summary.json", summaryText r.summary)]

end Report

end TransitTimeline
