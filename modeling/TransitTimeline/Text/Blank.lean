/-! Blank characters, the Unicode property White_Space, and text without blanks at its ends. -/
namespace TransitTimeline.Text

/-- The characters with the property White_Space. -/
def isBlank (c : Char) : Bool :=
  let n := c.toNat
  (9 ≤ n && n ≤ 13) || n = 0x20 || n = 0x85 || n = 0xA0 || n = 0x1680 ||
    (0x2000 ≤ n && n ≤ 0x200A) || n = 0x2028 || n = 0x2029 || n = 0x202F || n = 0x205F || n = 0x3000

theorem isBlankOfWhitespace (c : Char) (h : c.isWhitespace = true) : isBlank c = true := by
  simp only [Char.isWhitespace, Bool.or_eq_true, decide_eq_true_eq] at h
  rcases h with ((h | h) | h) | h <;> subst h <;> decide

def trimStart : List Char → List Char := List.dropWhile isBlank

def trimChars (cs : List Char) : List Char := (trimStart (trimStart cs).reverse).reverse

def trim (s : String) : String := String.ofList (trimChars s.toList)

theorem trimCharsEnds (cs : List Char) :
    (∀ c, (trimChars cs).getLast? = some c → isBlank c = false) ∧
    (∀ c, (trimChars cs).head? = some c → isBlank c = false) := by
  have headDrop : ∀ xs : List Char, ∀ c, (xs.dropWhile isBlank).head? = some c → isBlank c = false := by
    intro xs c h
    have := List.head?_dropWhile_not isBlank xs
    rw [h] at this
    simpa using this
  refine ⟨fun c h => headDrop _ c (by simpa [trimChars, trimStart] using h), fun c h => ?_⟩
  have suffix : (trimStart (trimStart cs).reverse) <:+ (trimStart cs).reverse := List.dropWhile_suffix _
  have front : trimChars cs <+: trimStart cs := by
    simpa [trimChars] using List.reverse_prefix.mpr suffix
  obtain ⟨rest, whole⟩ := front
  apply headDrop cs c
  cases body : trimChars cs with
  | nil => simp [body] at h
  | cons x xs =>
    rw [body] at h whole
    change (trimStart cs).head? = some c
    rw [← whole]
    simpa using h

end TransitTimeline.Text
