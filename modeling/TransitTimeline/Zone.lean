import TransitTimeline.Instant

/-! Time zones as the offset from universal time in force at each second, and the way back from a wall clock
reading to the earliest second that shows it. -/
namespace TransitTimeline

/-- The changes tell at which second a new offset comes into force, in the order of time. -/
structure Zone where
  name : String
  first : Int
  changes : List (Int × Int)
  deriving DecidableEq, Repr

namespace Zone

def offsetBehind (second : Int) : Int → List (Int × Int) → Int
  | offset, [] => offset
  | offset, (start, next) :: later => if second < start then offset else offsetBehind second next later

def offsetAt (z : Zone) (second : Int) : Int := offsetBehind second z.first z.changes

def offsets (z : Zone) : List Int := (z.first :: z.changes.map (·.2)).eraseDups

theorem offsetBehindListed (second : Int) : ∀ (offset : Int) (changes : List (Int × Int)),
    offsetBehind second offset changes ∈ offset :: changes.map (·.2)
  | offset, [] => List.mem_singleton.mpr rfl
  | offset, (start, next) :: later => by
    unfold offsetBehind
    split
    · exact List.mem_cons_self
    · exact List.mem_cons_of_mem _ (offsetBehindListed second next later)

theorem offsetListed (z : Zone) (second : Int) : z.offsetAt second ∈ z.offsets :=
  List.mem_eraseDups.mpr (offsetBehindListed second z.first z.changes)

def wallClock (z : Zone) (second : Int) : Int := second + z.offsetAt second

def Shows (z : Zone) (second wall : Int) : Prop := z.wallClock second = wall
instance (z second wall) : Decidable (Shows z second wall) := by unfold Shows; infer_instance

def secondsShowing (z : Zone) (wall : Int) : List Int :=
  (z.offsets.map (wall - ·)).filter (fun second => z.Shows second wall)

theorem memSecondsShowing (z : Zone) (wall second : Int) :
    second ∈ z.secondsShowing wall ↔ z.Shows second wall := by
  simp only [secondsShowing, List.mem_filter, List.mem_map, decide_eq_true_eq]
  refine ⟨And.right, fun shows => ⟨⟨_, z.offsetListed second, ?_⟩, shows⟩⟩
  have : second + z.offsetAt second = wall := shows
  omega

def earliest? (z : Zone) (wall : Int) : Option Int := (z.secondsShowing wall).min?

end Zone

end TransitTimeline
