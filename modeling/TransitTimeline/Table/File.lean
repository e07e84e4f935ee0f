import TransitTimeline.Failure
import TransitTimeline.Gzip.Member
import TransitTimeline.Table.Decode

/-! A table file at a location, gunzipped when its name says so. -/
namespace TransitTimeline.Table
variable {ρ : Type}

def isGzipped (location : String) : Bool := ".gz".toList.isSuffixOf location.toList

def ofFile (fields : List (Field ρ)) (blank : ρ) (location : String) (bytes : List UInt8) :
    Except Failure (List ρ) := do
  let data ←
    if isGzipped location then
      match Gzip.firstMember? bytes with
      | some data => Except.ok data
      | none => Except.error (.notGunzipped location)
    else Except.ok bytes
  match rows? fields blank data with
  | some rows => .ok rows
  | none => .error (.undecodable location)

end TransitTimeline.Table
