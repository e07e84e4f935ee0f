import TransitTimeline.Instant

/-! Why a service date, or the settings it needs, cannot be worked out. -/
namespace TransitTimeline

inductive Failure where
  | noCandidates (trip : String) (pullout : Int) (start finish : Instant)
  | emptyPullout (trip : String) (pullout : Int)
  | unreadable (location : String)
  | notGunzipped (location : String)
  | undecodable (location : String)
  | unknownZone (name : String)
  | invalidValue (key value : String)
  | settingsUnread (path : String)
  | settingsMalformed (path : String)
  | unpublished (path : String)
  | outOfRange
  deriving DecidableEq, Repr

namespace Failure

def message : Failure → String
  | noCandidates trip pullout start finish =>
    "TM pullout " ++ toString pullout ++ " of trip " ++ trip ++ " has no GTFS departure candidates between " ++
      start.longText ++ " and " ++ finish.longText
  | emptyPullout trip pullout =>
    "TM pullout " ++ toString pullout ++ " of trip " ++ trip ++ " has no scheduled departures"
  | unreadable location => "failed to read '" ++ location ++ "'"
  | notGunzipped location => "impossible to gunzip '" ++ location ++ "'"
  | undecodable location => "impossible to decode csv table '" ++ location ++ "'"
  | unknownZone name => "'" ++ name ++ "' is not a known IANA timezone"
  | invalidValue key value => "invalid value '" ++ value ++ "' for " ++ key
  | settingsUnread path => "impossible to read config file '" ++ path ++ "'"
  | settingsMalformed path => "impossible to parse config file '" ++ path ++ "'"
  | unpublished path => "impossible to publish output to '" ++ path ++ "'"
  | outOfRange => "date or time out of range"

end Failure

end TransitTimeline
