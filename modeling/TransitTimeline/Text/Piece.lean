/-! Text cut at separators. -/
namespace TransitTimeline.Text

def pieces (separator : Char) : List Char → List (List Char)
  | [] => [[]]
  | c :: rest =>
    if c = separator then [] :: pieces separator rest
    else match pieces separator rest with
      | [] => [[c]]
      | piece :: others => (c :: piece) :: others

def join (separator : Char) : List (List Char) → List Char
  | [] => []
  | [piece] => piece
  | piece :: others => piece ++ separator :: join separator others

theorem piecesNonempty (separator : Char) (cs : List Char) : pieces separator cs ≠ [] := by
  cases cs with
  | nil => simp [pieces]
  | cons c rest =>
    simp only [pieces]
    split
    · simp
    · split <;> simp

theorem joinPieces (separator : Char) (cs : List Char) : join separator (pieces separator cs) = cs := by
  induction cs with
  | nil => rfl
  | cons c rest ih =>
    simp only [pieces]
    split
    · rename_i same
      cases h : pieces separator rest with
      | nil => exact absurd h (piecesNonempty separator rest)
      | cons piece others => rw [h] at ih; simp [join, ih, same]
    · split
      · rename_i h; exact absurd h (piecesNonempty separator rest)
      · rename_i piece others h
        rw [h] at ih
        cases others with
        | nil => simp only [join] at ih ⊢; rw [ih]
        | cons next others => simp only [join, List.cons_append] at ih ⊢; rw [ih]

def before? (ending cs : List Char) : Option (List Char) :=
  if ending.isSuffixOf cs then some (cs.take (cs.length - ending.length)) else none

def after? (beginning cs : List Char) : Option (List Char) :=
  if beginning.isPrefixOf cs then some (cs.drop beginning.length) else none

theorem beforeWhole {ending cs head} (h : before? ending cs = some head) : head ++ ending = cs := by
  unfold before? at h
  split at h
  · rename_i suffix
    cases h
    exact List.suffix_iff_eq_append.mp (List.isSuffixOf_iff_suffix.mp suffix)
  · cases h

end TransitTimeline.Text
