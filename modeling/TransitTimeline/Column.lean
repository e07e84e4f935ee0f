/-! Columns with gaps: filling them from neighbours, and the order statistics that skip gaps. -/
namespace TransitTimeline.Column
variable {α ρ : Type}

instance textMax : Max String := maxOfLe
instance textMin : Min String := minOfLe

def forwardFrom (last : Option α) : List (Option α) → List (Option α)
  | [] => []
  | value :: rest => value.or last :: forwardFrom (value.or last) rest

def forward (values : List (Option α)) : List (Option α) := forwardFrom none values

def backward (values : List (Option α)) : List (Option α) := (forward values.reverse).reverse

/-- Fills from before, and what stands before the first value from behind. -/
def fill (values : List (Option α)) : List (Option α) := backward (forward values)

theorem forwardFromLength (last : Option α) (values : List (Option α)) :
    (forwardFrom last values).length = values.length := by
  induction values generalizing last with
  | nil => rfl
  | cons value rest ih => simp [forwardFrom, ih]

theorem forwardLength (values : List (Option α)) : (forward values).length = values.length :=
  forwardFromLength none values

theorem backwardLength (values : List (Option α)) : (backward values).length = values.length := by
  simp [backward, forwardLength]

theorem fillLength (values : List (Option α)) : (fill values).length = values.length := by
  simp [fill, backwardLength, forwardLength]

def fillField (get : ρ → Option α) (put : ρ → Option α → ρ) (rows : List ρ) : List ρ :=
  List.zipWith put rows (fill (rows.map get))

theorem fillFieldLength (get : ρ → Option α) (put : ρ → Option α → ρ) (rows : List ρ) :
    (fillField get put rows).length = rows.length := by
  simp [fillField, fillLength]

def next : List (Option α) → List (Option α)
  | [] => []
  | _ :: rest => rest ++ [none]

theorem nextLength (values : List (Option α)) : (next values).length = values.length := by
  cases values <;> simp [next]

def minPresent [Min α] : Option α → Option α → Option α
  | some a, some b => some (min a b)
  | a, b => a.or b

def maxPresent [Max α] : Option α → Option α → Option α
  | some a, some b => some (max a b)
  | a, b => a.or b

def maxBeforeFrom [Max α] (running : Option α) : List (Option α) → List (Option α)
  | [] => []
  | value :: rest => running :: maxBeforeFrom (maxPresent running value) rest

def maxBefore [Max α] (values : List (Option α)) : List (Option α) := maxBeforeFrom none values

theorem maxBeforeFromLength [Max α] (running : Option α) (values : List (Option α)) :
    (maxBeforeFrom running values).length = values.length := by
  induction values generalizing running with
  | nil => rfl
  | cons value rest ih => simp [maxBeforeFrom, ih]

end TransitTimeline.Column
