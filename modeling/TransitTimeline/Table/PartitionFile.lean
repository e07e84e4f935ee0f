import TransitTimeline.Text.Numeral
import TransitTimeline.Text.Piece

/-! Files of a feed that is kept in directories by year, month, day and perhaps hour. A file of a whole day
makes the hourly files of that day redundant. -/
namespace TransitTimeline.PartitionFile

structure Slot where
  root : String
  year : Int
  month : Int
  day : Int
  deriving DecidableEq, Repr

structure Partition where
  slot : Slot
  hour : Option Int
  deriving DecidableEq, Repr

/-- What the parts of a path say so far; a later part overrides an earlier one, even by no number. -/
structure Reading where
  root : List (List Char) := []
  year : Option Int := none
  month : Option Int := none
  day : Option Int := none
  hour : Option Int := none
  deriving DecidableEq, Repr

def Reading.part (r : Reading) (piece : List Char) : Reading :=
  match Text.after? "year=".toList piece with
  | some value => { r with year := Text.integerIn 10 .signed32 value }
  | none =>
  match Text.after? "month=".toList piece with
  | some value => { r with month := Text.integerIn 10 .unsigned32 value }
  | none =>
  match Text.after? "day=".toList piece with
  | some value => { r with day := Text.integerIn 10 .unsigned32 value }
  | none =>
  match Text.after? "hour=".toList piece with
  | some value => { r with hour := Text.integerIn 10 .unsigned32 value }
  | none => if r.year.isNone then { r with root := r.root ++ [piece] } else r

def Reading.partition? (r : Reading) : Option Partition := do
  let slot := Slot.mk (String.ofList (Text.join '/' r.root)) (← r.year) (← r.month) (← r.day)
  some ⟨slot, r.hour⟩

def partition? (path : String) : Option Partition :=
  ((Text.pieces '/' path.toList).foldl Reading.part {}).partition?

def wholeDay? (path : String) : Option Slot :=
  (partition? path).bind fun p => if p.hour.isNone then some p.slot else none

def isRedundant (days : List Slot) (path : String) : Bool :=
  match partition? path with
  | some p => p.hour.isSome && days.contains p.slot
  | none => false

def distinct (paths : List String) : List String :=
  let days := paths.filterMap wholeDay?
  let kept := paths.filter fun path => !isRedundant days path
  (kept.mergeSort fun a b => decide (a ≤ b)).eraseReps

end TransitTimeline.PartitionFile
