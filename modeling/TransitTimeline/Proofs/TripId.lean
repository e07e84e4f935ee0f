import Mathlib
import TransitTimeline.TripId

/-! Trip ids. Numbers have no suffix, so they are canonical as they are, and tell the numbers apart. What is published
for an overload vehicle of a trip is scheduled under the trip's own id. -/
namespace TransitTimeline

namespace Text
variable {cs : List Char}

theorem beforeNone {ending : List Char} {c : Char} (needed : c ∈ ending) (missing : c ∉ cs) : before? ending cs = none := by
  unfold before?
  split
  · rename_i suffix
    exact absurd ((List.isSuffixOf_iff_suffix.mp suffix).subset needed) missing
  · rfl

theorem beforeAppend (head ending : List Char) : before? ending (head ++ ending) = some head := by
  have suffix : ending.isSuffixOf (head ++ ending) := List.isSuffixOf_iff_suffix.mpr (List.suffix_append head ending)
  rw [before?, if_pos suffix, List.length_append, Nat.add_sub_cancel, List.take_left]

theorem trimStartKeeps (first : ∀ c ∈ cs.head?, isBlank c = false) : trimStart cs = cs := by
  cases cs with
  | nil => rfl
  | cons c rest => exact List.dropWhile_cons_of_neg (by simp [first c rfl])

theorem trimCharsKeeps (first : ∀ c ∈ cs.head?, isBlank c = false) (last : ∀ c ∈ cs.getLast?, isBlank c = false) :
    trimChars cs = cs := by
  have back : ∀ c ∈ cs.reverse.head?, isBlank c = false := by rwa [List.head?_reverse]
  rw [trimChars, trimStartKeeps first, trimStartKeeps back, List.reverse_reverse]

theorem trimCharsAppend {front back : List Char} (filled : front ≠ []) (trimmed : trimChars front = front)
    (last : ∀ c ∈ back.getLast?, isBlank c = false) : trimChars (front ++ back) = front ++ back := by
  have ends := trimCharsEnds front
  rw [trimmed] at ends
  apply trimCharsKeeps
  · rw [List.head?_append_of_ne_nil _ filled]
    exact ends.2
  · intro c own
    rw [List.getLast?_append] at own
    cases known : back.getLast? with
    | none =>
      rw [known] at own
      exact ends.1 c own
    | some d =>
      rw [known] at own
      cases own
      exact last _ known

theorem trimCharsFilled (filled : ∀ c ∈ cs, isBlank c = false) : trimChars cs = cs :=
  trimCharsKeeps (fun c head => filled c (List.mem_of_mem_head? head)) fun c last => filled c (List.mem_of_getLast? last)

end Text

namespace TripId
variable {cs : List Char}

theorem lastDigitFront {front : List Char} {digit : Nat} (found : lastDigit? cs = some (front, digit)) :
    front = cs.dropLast := by
  unfold lastDigit? at found
  split at found
  · split at found
    · exact (Prod.mk.inj (Option.some.inj found)).1.symm
    · cases found
  · cases found

theorem withoutOverloadPlain (missing : 'L' ∉ cs) : withoutOverload cs = (cs, []) := by
  have none : overload? cs = none := by
    unfold overload?
    rw [Text.beforeNone (c := 'L') (by decide) missing]
    cases found : lastDigit? cs with
    | none => rfl
    | some last =>
      obtain ⟨front, digit⟩ := last
      have shorter : 'L' ∉ front := fun member => missing ((List.dropLast_sublist cs).subset (lastDigitFront found ▸ member))
      have bare : Text.before? "-OL".toList front = Option.none := Text.beforeNone (c := 'L') (by decide) shorter
      simp only [bare, Option.bind_eq_bind, Option.bind_some, Option.bind_none]
  rw [withoutOverload, none]

theorem withoutSplitPlain (missing : '_' ∉ cs) : withoutSplit cs = (cs, []) := by
  have none : split? cs = none := by
    unfold split?
    cases found : lastDigit? cs with
    | none => rfl
    | some last =>
      obtain ⟨front, digit⟩ := last
      have shorter : '_' ∉ front := fun member => missing ((List.dropLast_sublist cs).subset (lastDigitFront found ▸ member))
      have bare : Text.before? ['_'] front = Option.none := Text.beforeNone (c := '_') (by decide) shorter
      simp only [bare, Option.bind_eq_bind, Option.bind_some, Option.bind_none]
  rw [withoutSplit, none]

theorem canonicalOfPlain {raw : String} (plain : ∀ c ∈ raw.toList, Text.isBlank c = false ∧ c ≠ 'L' ∧ c ≠ '_') :
    canonicalOf raw = raw := by
  have filled := Text.trimCharsFilled fun c member => (plain c member).1
  have overload := withoutOverloadPlain fun member => (plain 'L' member).2.1 rfl
  have split := withoutSplitPlain fun member => (plain '_' member).2.2 rfl
  rw [canonicalOf, ofText, filled, overload]
  dsimp only
  rw [split, String.ofList_toList]

section Overload
variable {r x : String} {digit : Option Nat}

theorem isDigitOf {n : Nat} (small : n < 10) : n.digitChar.isDigit := by
  rw [Nat.isDigit_digitChar, decide_eq_true small]

theorem digitTextOf {n : Nat} (small : n < 10) : TripSuffix.digitText n = [n.digitChar] := Nat.toDigits_of_lt_base small

theorem lastDigitAppend (front : List Char) {n : Nat} (small : n < 10) :
    lastDigit? (front ++ TripSuffix.digitText n) = some (front, n) := by
  have value : n.digitChar.toNat - 48 = n := by rw [Nat.toNat_digitChar_of_lt_ten small, Nat.add_sub_cancel_left]
  rw [digitTextOf small, lastDigit?, List.getLast?_concat]
  dsimp only
  rw [if_pos (isDigitOf small), value, List.dropLast_concat]

theorem digitBounds {c : Char} (digit : c.isDigit) : 48 ≤ c.toNat ∧ c.toNat ≤ 57 := by
  simpa [Char.isDigit, UInt32.le_iff_toNat_le] using digit

theorem digitFilled {c : Char} (digit : c.isDigit) : Text.isBlank c = false := by
  have bounds := digitBounds digit
  simp only [Text.isBlank]
  simp
  omega

theorem lastDigitWhole {front : List Char} {n : Nat} (found : lastDigit? cs = some (front, n)) :
    n < 10 ∧ cs = front ++ TripSuffix.digitText n := by
  unfold lastDigit? at found
  split at found
  · rename_i c last
    split at found
    · rename_i digit
      obtain ⟨rfl, rfl⟩ := Prod.mk.inj (Option.some.inj found)
      have bounds := digitBounds digit
      have small : c.toNat - 48 < 10 := by omega
      have own : (c.toNat - 48).digitChar = c := by
        apply Char.toNat_inj.mp
        rw [Nat.toNat_digitChar_of_lt_ten small]
        omega
      refine ⟨small, ?_⟩
      rw [digitTextOf small, own]
      exact (List.dropLast_append_getLast? c last).symm
    · cases found
  · cases found

theorem nonemptySome {head named : List Char} : nonempty? head = some named ↔ head ≠ [] ∧ head = named := by
  cases head <;> simp [nonempty?]

theorem beforeNumbered (front : List Char) {n : Nat} (small : n < 10) :
    Text.before? "-OL".toList (front ++ TripSuffix.digitText n) = none := by
  cases found : Text.before? "-OL".toList (front ++ TripSuffix.digitText n) with
  | none => rfl
  | some head =>
    have last := congrArg List.getLast? (Text.beforeWhole found)
    have letter : (head ++ "-OL".toList).getLast? = some 'L' := List.getLast?_append_of_ne_nil _ (by decide)
    rw [letter, digitTextOf small, List.getLast?_concat] at last
    have digit := isDigitOf small
    rw [← Option.some.inj last] at digit
    cases digit

theorem overloadAppend {head : List Char} (named : head ≠ []) (small : ∀ d ∈ digit, d < 10) :
    overload? (head ++ (TripSuffix.overload digit).text) = some (head, digit) := by
  have some : nonempty? head = some head := nonemptySome.mpr ⟨named, rfl⟩
  unfold overload?
  cases digit with
  | none => rw [TripSuffix.text, Text.beforeAppend]; simp only [some, Option.map_some]
  | some n =>
    rw [TripSuffix.text, ← List.append_assoc, beforeNumbered _ (small n rfl), lastDigitAppend _ (small n rfl)]
    simp only [Option.bind_eq_bind, Option.bind_some, Text.beforeAppend, some]

theorem overloadWhole {head : List Char} (found : overload? cs = some (head, digit)) :
    head ≠ [] ∧ (∀ d ∈ digit, d < 10) ∧ cs = head ++ (TripSuffix.overload digit).text := by
  unfold overload? at found
  split at found
  · rename_i front before
    obtain ⟨named, nonempty, same⟩ := Option.map_eq_some_iff.mp found
    obtain ⟨filled, rfl⟩ := nonemptySome.mp nonempty
    cases same
    exact ⟨filled, by simp, (Text.beforeWhole before).symm⟩
  · simp only [Option.bind_eq_bind, Option.bind_eq_some_iff] at found
    obtain ⟨⟨front, n⟩, last, named, before, filled, nonempty, same⟩ := found
    obtain ⟨filled, rfl⟩ := nonemptySome.mp nonempty
    cases same
    obtain ⟨small, rfl⟩ := lastDigitWhole last
    obtain rfl := Text.beforeWhole before
    exact ⟨filled, by simpa using small, List.append_assoc _ _ _⟩

/- A trip is published under its own id, and for an overload vehicle with a suffix behind it. -/
inductive Published (r : String) : String → Prop
  | plain : Published r r
  | overload (digit : Option Nat) (small : ∀ d ∈ digit, d < 10) (named : r ≠ "") :
      Published r (r ++ String.ofList (TripSuffix.overload digit).text)

def Plain (r : String) : Prop := ∀ s, Published s r → s = r

theorem plainWithout (none : overload? r.toList = none) : Plain r := by
  rintro s (_ | ⟨digit, small, named⟩)
  · rfl
  · rw [String.toList_append, String.toList_ofList, overloadAppend (by simpa using named) small] at none
    cases none

theorem trimmedList (trimmed : Text.trim r = r) : Text.trimChars r.toList = r.toList := by
  have same := congrArg String.toList trimmed
  rwa [Text.trim, String.toList_ofList] at same

theorem overloadLast (small : ∀ d ∈ digit, d < 10) : ∀ c ∈ (TripSuffix.overload digit).text.getLast?, Text.isBlank c = false := by
  intro c last
  cases digit with
  | none =>
    obtain rfl : 'L' = c := Option.some.inj last
    decide
  | some n =>
    rw [TripSuffix.text, digitTextOf (small n rfl), List.getLast?_concat] at last
    obtain rfl := Option.some.inj last
    exact digitFilled (isDigitOf (small n rfl))

theorem publishedScheduled (trimmed : Text.trim x = x) : Published (scheduled x) x := by
  rw [scheduled, trimmedList trimmed, withoutOverload]
  cases found : overload? x.toList with
  | none =>
    rw [String.ofList_toList]
    exact .plain
  | some part =>
    obtain ⟨named, small, whole⟩ := overloadWhole found
    have own : x = String.ofList part.1 ++ String.ofList (TripSuffix.overload part.2).text := by
      rw [← String.ofList_append, ← whole, String.ofList_toList]
    have published : Published (String.ofList part.1) (String.ofList part.1 ++ String.ofList (TripSuffix.overload part.2).text) :=
      .overload part.2 small (by simpa using named)
    rwa [← own] at published

theorem scheduledOverload (trimmed : Text.trim r = r) (small : ∀ d ∈ digit, d < 10) (named : r ≠ "") :
    scheduled (r ++ String.ofList (TripSuffix.overload digit).text) = r := by
  have filled : r.toList ≠ [] := by simpa using named
  have text : (r ++ String.ofList (TripSuffix.overload digit).text).toList = r.toList ++ (TripSuffix.overload digit).text := by
    rw [String.toList_append, String.toList_ofList]
  have keeps := Text.trimCharsAppend filled (trimmedList trimmed) (overloadLast small)
  rw [scheduled, text, keeps, withoutOverload, overloadAppend filled small, String.ofList_toList]

theorem scheduledPublished (trimmed : Text.trim r = r) (plain : Plain r) (published : Published r x) : scheduled x = r := by
  cases published with
  | plain => exact plain _ (publishedScheduled trimmed)
  | overload digit small named => exact scheduledOverload trimmed small named

end Overload

theorem numberText (n : Int) : ∀ c ∈ (toString n).toList, c.isDigit ∨ c = '-' := by
  have digits (m : Nat) : ∀ c ∈ m.repr.toList, c.isDigit := by
    intro c member
    rw [Nat.repr, String.toList_ofList] at member
    exact Nat.isDigit_of_mem_toDigits (b := 10) (by decide) (by decide) member
  intro c member
  cases n with
  | ofNat m => exact .inl (digits m c member)
  | negSucc m =>
    have signed : toString (Int.negSucc m) = "-" ++ (m + 1).repr := rfl
    rw [signed, String.toList_append] at member
    obtain sign | digit := List.mem_append.mp member
    · exact .inr (by simpa using sign)
    · exact .inl (digits _ c digit)

theorem canonicalOfNumber (n : Int) : canonicalOf (toString n) = toString n := by
  apply canonicalOfPlain
  intro c member
  obtain digit | rfl := numberText n c member
  · refine ⟨digitFilled digit, ?_, ?_⟩
    · rintro rfl
      cases digit
    · rintro rfl
      cases digit
  · decide

theorem canonicalOfNumberInjective {n m : Int} (same : canonicalOf (toString n) = canonicalOf (toString m)) : n = m := by
  rw [canonicalOfNumber, canonicalOfNumber] at same
  exact Int.repr_inj.mp same

end TripId

end TransitTimeline
