import TransitTimeline.Text.Blank

/-! What a vehicle reports of the stop it names. -/
namespace TransitTimeline

inductive StopStatus where
  | inTransit
  | stopped
  deriving DecidableEq, Repr

namespace StopStatus

/-- Names in any case, or their numbers. An approaching vehicle is still in transit, and so is one that says
nothing. -/
def ofText? (raw : Option String) : Option StopStatus :=
  let word := (Text.trimChars (raw.getD "").toList).map Char.toUpper
  if word.isEmpty then some inTransit
  else if ["INCOMING_AT", "IN_TRANSIT_TO", "0", "2"].contains (String.ofList word) then some inTransit
  else if ["STOPPED_AT", "1"].contains (String.ofList word) then some stopped
  else none

end StopStatus

end TransitTimeline
