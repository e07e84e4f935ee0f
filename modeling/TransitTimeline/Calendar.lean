import TransitTimeline.Text.Blank
import TransitTimeline.Text.Numeral

/-! Days of the proleptic Gregorian calendar. A day is its distance from 1970-01-01; year, month and day of
the month are a view of it. -/
namespace TransitTimeline

structure Civil where
  year : Int
  month : Nat
  day : Nat
  deriving DecidableEq, Repr

structure Day where
  number : Int
  deriving DecidableEq, Repr, Inhabited

namespace Civil

def isLeap (year : Int) : Bool := (year % 4 = 0 && year % 100 ≠ 0) || year % 400 = 0

def monthLength (year : Int) (month : Nat) : Nat :=
  if month = 2 then (if isLeap year then 29 else 28)
  else if month = 4 ∨ month = 6 ∨ month = 9 ∨ month = 11 then 30 else 31

/-- The calendar covers these years; a date outside them does not exist. -/
def firstYear : Int := -262143
def lastYear : Int := 262142

def Valid (c : Civil) : Prop :=
  firstYear ≤ c.year ∧ c.year ≤ lastYear ∧ 1 ≤ c.month ∧ c.month ≤ 12 ∧ 1 ≤ c.day ∧
    c.day ≤ monthLength c.year c.month
instance (c : Civil) : Decidable c.Valid := by unfold Valid; infer_instance

/- Years are counted from March, so that the leap day is the last of its year, and in cycles of 400. -/

def marchYear (c : Civil) : Int := if c.month ≤ 2 then c.year - 1 else c.year

def daysFromMarch (c : Civil) : Nat := (153 * ((c.month + 9) % 12) + 2) / 5 + c.day - 1

def number (c : Civil) : Int :=
  let year := c.marchYear
  let cycle := year / 400
  let inCycle := year % 400
  cycle * 146097 + (inCycle * 365 + inCycle / 4 - inCycle / 100 + c.daysFromMarch) - 719468

end Civil

namespace Day

instance : LE Day := ⟨fun a b => a.number ≤ b.number⟩
instance : LT Day := ⟨fun a b => a.number < b.number⟩
instance : Ord Day := ⟨compareOn Day.number⟩
instance (a b : Day) : Decidable (a ≤ b) := inferInstanceAs (Decidable (a.number ≤ b.number))
instance (a b : Day) : Decidable (a < b) := inferInstanceAs (Decidable (a.number < b.number))

def civil (d : Day) : Civil :=
  let shifted := d.number + 719468
  let cycle := shifted / 146097
  let inCycle := (shifted % 146097).toNat
  let year := (inCycle - inCycle / 1460 + inCycle / 36524 - inCycle / 146096) / 365
  let inYear := inCycle - (365 * year + year / 4 - year / 100)
  let marchMonth := (5 * inYear + 2) / 153
  let month := if marchMonth < 10 then marchMonth + 3 else marchMonth - 9
  ⟨cycle * 400 + year + (if month ≤ 2 then 1 else 0), month, inYear - (153 * marchMonth + 2) / 5 + 1⟩

def first : Day := ⟨(Civil.mk Civil.firstYear 1 1).number⟩
def last : Day := ⟨(Civil.mk Civil.lastYear 12 31).number⟩

def ofCivil? (c : Civil) : Option Day := if c.Valid then some ⟨c.number⟩ else none

def next? (d : Day) : Option Day := if d < last then some ⟨d.number + 1⟩ else none

inductive Weekday where
  | monday | tuesday | wednesday | thursday | friday | saturday | sunday
  deriving DecidableEq, Repr

def Weekday.ofNumber (n : Int) : Weekday :=
  match (n % 7).toNat with
  | 0 => .thursday
  | 1 => .friday
  | 2 => .saturday
  | 3 => .sunday
  | 4 => .monday
  | 5 => .tuesday
  | _ => .wednesday

def weekday (d : Day) : Weekday := .ofNumber d.number

def yearText (year : Int) : String :=
  if 0 ≤ year ∧ year ≤ 9999 then Text.padded 4 year.toNat
  else (if year < 0 then "-" else "+") ++ Text.padded 4 year.natAbs

def textWith (separator : String) (d : Day) : String :=
  let c := d.civil
  yearText c.year ++ separator ++ Text.padded 2 c.month ++ separator ++ Text.padded 2 c.day

def text (d : Day) : String := d.textWith "-"

/-- The day's number in dispatch tables: a one, then year, month and day of the month. -/
def dispatchId (d : Day) : Int :=
  ((Text.integer? .signed64 (d.textWith "")).getD 0) + 100000000

/- Reading takes the fields in turn: blanks are skipped before a number, a year without sign has at most four
digits, month and day of the month at most two. -/

def readYear (cs : List Char) : Option (Int × List Char) :=
  match Text.trimStart cs with
  | '-' :: rest =>
    let (run, rest) := Text.takeDigits none rest
    (Text.digits? 10 run).map fun n => (-(n : Int), rest)
  | '+' :: rest =>
    let (run, rest) := Text.takeDigits none rest
    (Text.digits? 10 run).map fun n => ((n : Int), rest)
  | cs =>
    let (run, rest) := Text.takeDigits (some 4) cs
    (Text.digits? 10 run).map fun n => ((n : Int), rest)

def readTwo (cs : List Char) : Option (Nat × List Char) :=
  let (run, rest) := Text.takeDigits (some 2) (Text.trimStart cs)
  (Text.digits? 10 run).map fun n => (n, rest)

def ofCompact? (s : String) : Option Day := do
  let (year, rest) ← readYear (Text.trimChars s.toList)
  let (month, rest) ← readTwo rest
  let (day, rest) ← readTwo rest
  if rest.isEmpty then ofCivil? ⟨year, month, day⟩ else none

def readDash (cs : List Char) : Option (List Char) :=
  match Text.trimStart cs with
  | '-' :: rest => some rest
  | _ => none

def ofDashed? (s : String) : Option Day := do
  let (year, rest) ← readYear s.toList
  let (month, rest) ← readTwo (← readDash rest)
  let (day, rest) ← readTwo (← readDash rest)
  if (Text.trimStart rest).isEmpty then ofCivil? ⟨year, month, day⟩ else none

end Day

end TransitTimeline
