import TransitTimeline.Instant

/-! Summer time by a rule: a season begins and ends on a Sunday that is counted within its month. -/
namespace TransitTimeline

structure ClockChange where
  month : Nat
  week : Option Nat
  seconds : Int
  deriving DecidableEq, Repr

namespace ClockChange

def sinceSunday (d : Int) : Int := (d + 4) % 7

/-- A week counts Sundays from the first of the month, from zero; without one it is the month's last. -/
def sunday (c : ClockChange) (year : Int) : Int :=
  match c.week with
  | some week =>
    let start := (Civil.mk year c.month 1).number
    start + (7 - sinceSunday start) % 7 + 7 * week
  | none =>
    let finish := (Civil.mk year c.month (Civil.monthLength year c.month)).number
    finish - sinceSunday finish

def second (c : ClockChange) (year : Int) : Int := c.sunday year * 86400 + c.seconds

end ClockChange

structure Season where
  standard : Int
  begins : ClockChange
  summer : Int
  ends : ClockChange
  deriving DecidableEq, Repr

namespace Season

/-- The two changes of a year, each with the offset behind it. South of the equator summer time ends first. -/
def changesOf (s : Season) (year : Int) : List (Int × Int) :=
  let beginning := (s.begins.second year, s.summer)
  let ending := (s.ends.second year, s.standard)
  if beginning.1 < ending.1 then [beginning, ending] else [ending, beginning]

def changes (s : Season) (first last : Int) : List (Int × Int) :=
  (List.range (last - first + 1).toNat).flatMap fun (n : Nat) => s.changesOf (first + n)

end Season

end TransitTimeline
