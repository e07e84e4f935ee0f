import TransitTimeline.Proofs.TripId

/-! Trip ids read and written. What is read from an id, written out again, is the id without blanks around it, and what is
written behind a base without suffixes of its own is read from it; so a scheduled id and what is published for overload
vehicles of it have one canonical id. -/
namespace TransitTimeline

namespace TripId

variable {cs head : List Char} {r x raw : String}

structure Parts where
  base : String
  split : Option (Fin 10)
  overload : Option (Option (Fin 10))
  deriving DecidableEq

def Parts.splitSuffix (p : Parts) : Option TripSuffix := p.split.map fun digit => .split digit.val

def Parts.overloadSuffix (p : Parts) : Option TripSuffix := p.overload.map fun digit => .overload (digit.map Fin.val)

def written (suffix : Option TripSuffix) : List Char := suffix.elim [] TripSuffix.text

def Parts.scheduled (p : Parts) : String := p.base ++ String.ofList (written p.splitSuffix)

def Parts.text (p : Parts) : String := p.scheduled ++ String.ofList (written p.overloadSuffix)

def Parts.suffixes (p : Parts) : List TripSuffix := p.overloadSuffix.toList ++ p.splitSuffix.toList

structure ReadAs (raw : String) (p : Parts) : Prop where
  whole : ofText raw = ⟨raw, p.base, p.suffixes⟩
  canonical : canonicalOf raw = p.base
  scheduled : TripId.scheduled raw = p.scheduled

structure Parts.Bare (p : Parts) : Prop where
  named : p.base ≠ ""
  trimmed : Text.trim p.base = p.base
  plain : (ofText p.base).suffixes = []

section Split

theorem splitText (head : List Char) (digit : Nat) :
    head ++ (TripSuffix.split digit).text = (head ++ ['_']) ++ TripSuffix.digitText digit := by
  rw [List.append_assoc]
  rfl

theorem splitAppend (named : head ≠ []) {digit : Nat} (small : digit < 10) :
    split? (head ++ (TripSuffix.split digit).text) = some (head, digit) := by
  have some : nonempty? head = some head := nonemptySome.mpr ⟨named, rfl⟩
  rw [split?, splitText, lastDigitAppend _ small]
  simp only [Option.bind_eq_bind, Option.bind_some, Text.beforeAppend, some]

theorem splitWhole {digit : Nat} (found : split? cs = some (head, digit)) :
    digit < 10 ∧ cs = head ++ (TripSuffix.split digit).text := by
  simp only [split?, Option.bind_eq_bind, Option.bind_eq_some_iff] at found
  obtain ⟨⟨front, n⟩, last, named, before, filled, nonempty, same⟩ := found
  obtain ⟨_, rfl⟩ := nonemptySome.mp nonempty
  cases same
  obtain ⟨small, rfl⟩ := lastDigitWhole last
  obtain rfl := Text.beforeWhole before
  exact ⟨small, (splitText _ _).symm⟩

theorem overloadSplit (head : List Char) {digit : Nat} (small : digit < 10) :
    overload? (head ++ (TripSuffix.split digit).text) = none := by
  have other : Text.before? "-OL".toList (head ++ ['_']) = none := by
    cases found : Text.before? "-OL".toList (head ++ ['_']) with
    | none => rfl
    | some rest =>
      have last := congrArg List.getLast? (Text.beforeWhole found)
      rw [List.getLast?_concat, List.getLast?_append_of_ne_nil _ (by decide)] at last
      exact absurd last (by decide)
  rw [splitText, overload?, beforeNumbered _ small]
  simp only [lastDigitAppend _ small, Option.bind_eq_bind, Option.bind_some, other, Option.bind_none]

end Split

section Read

theorem withoutOverloadRead (cs : List Char) : ∃ digit : Option (Option (Fin 10)),
    let suffix := digit.map fun d => TripSuffix.overload (d.map Fin.val)
    cs = (withoutOverload cs).1 ++ written suffix ∧ (withoutOverload cs).2 = suffix.toList := by
  unfold withoutOverload
  cases found : overload? cs with
  | none => exact ⟨none, (List.append_nil cs).symm, rfl⟩
  | some part =>
    obtain ⟨front, digit⟩ := part
    obtain ⟨_, small, whole⟩ := overloadWhole found
    cases digit with
    | none => exact ⟨some none, whole, rfl⟩
    | some n => exact ⟨some (some ⟨n, small n rfl⟩), whole, rfl⟩

theorem withoutSplitRead (cs : List Char) : ∃ digit : Option (Fin 10),
    let suffix := digit.map fun d => TripSuffix.split d.val
    cs = (withoutSplit cs).1 ++ written suffix ∧ (withoutSplit cs).2 = suffix.toList := by
  unfold withoutSplit
  cases found : split? cs with
  | none => exact ⟨none, (List.append_nil cs).symm, rfl⟩
  | some part =>
    obtain ⟨front, digit⟩ := part
    obtain ⟨small, whole⟩ := splitWhole found
    exact ⟨some ⟨digit, small⟩, whole, rfl⟩

theorem readParts (raw : String) : ∃ p : Parts, Text.trim raw = p.text ∧ ReadAs raw p := by
  obtain ⟨overload, whole, overloadReported⟩ := withoutOverloadRead (Text.trimChars raw.toList)
  obtain ⟨split, part, splitReported⟩ := withoutSplitRead (withoutOverload (Text.trimChars raw.toList)).1
  let p : Parts := ⟨canonicalOf raw, split, overload⟩
  have scheduled : TripId.scheduled raw = p.scheduled := by
    rw [TripId.scheduled, part, String.ofList_append]
    rfl
  have reported : (ofText raw).suffixes = p.suffixes := congrArg₂ (· ++ ·) overloadReported splitReported
  refine ⟨p, ?_, ?_, rfl, scheduled⟩
  · rw [Text.trim, whole, String.ofList_append]
    exact congrArg (· ++ String.ofList (written p.overloadSuffix)) scheduled
  · rw [← reported]
    rfl

end Read

section Written

variable {p : Parts}

theorem splitLast (p : Parts) : ∀ c ∈ (written p.splitSuffix).getLast?, Text.isBlank c = false := by
  intro c last
  obtain ⟨base, _ | digit, overload⟩ := p
  · cases last
  · have own : written (Parts.splitSuffix ⟨base, some digit, overload⟩) = ['_'] ++ TripSuffix.digitText digit := rfl
    rw [own, digitTextOf digit.isLt, List.getLast?_concat] at last
    cases last
    exact digitFilled (isDigitOf digit.isLt)

theorem overloadSmall (digit : Option (Fin 10)) : ∀ d ∈ digit.map Fin.val, d < 10 := by
  intro d known
  obtain ⟨n, _, rfl⟩ := Option.map_eq_some_iff.mp known
  exact n.isLt

theorem overloadSuffixLast (p : Parts) : ∀ c ∈ (written p.overloadSuffix).getLast?, Text.isBlank c = false := by
  obtain ⟨base, split, _ | digit⟩ := p
  · rintro c ⟨⟩
  · exact overloadLast (overloadSmall digit)

theorem bareAlone (bare : p.Bare) : overload? p.base.toList = none ∧ split? p.base.toList = none := by
  have plain := bare.plain
  unfold ofText at plain
  rw [trimmedList bare.trimmed] at plain
  cases overload : overload? p.base.toList with
  | some part => simp [withoutOverload, overload] at plain
  | none =>
    cases split : split? p.base.toList with
    | some part => simp [withoutOverload, overload, withoutSplit, split] at plain
    | none => exact ⟨rfl, rfl⟩

theorem scheduledList (p : Parts) : p.scheduled.toList = p.base.toList ++ written p.splitSuffix := by
  rw [Parts.scheduled, String.toList_append, String.toList_ofList]

theorem textList (p : Parts) : p.text.toList = p.scheduled.toList ++ written p.overloadSuffix := by
  rw [Parts.text, String.toList_append, String.toList_ofList]

theorem bareFilled (bare : p.Bare) : p.base.toList ≠ [] := by simpa using bare.named

theorem scheduledFilled (bare : p.Bare) : p.scheduled.toList ≠ [] := by
  rw [scheduledList]
  exact List.append_ne_nil_of_left_ne_nil (bareFilled bare) _

theorem textTrimmed (bare : p.Bare) : Text.trimChars p.text.toList = p.text.toList := by
  have front : Text.trimChars p.scheduled.toList = p.scheduled.toList := by
    rw [scheduledList]
    exact Text.trimCharsAppend (bareFilled bare) (trimmedList bare.trimmed) (splitLast p)
  rw [textList]
  exact Text.trimCharsAppend (scheduledFilled bare) front (overloadSuffixLast p)

theorem scheduledPlain (bare : p.Bare) : overload? p.scheduled.toList = none := by
  rw [scheduledList]
  cases split : p.split with
  | none =>
    rw [Parts.splitSuffix, split]
    exact (List.append_nil p.base.toList).symm ▸ (bareAlone bare).1
  | some digit =>
    rw [Parts.splitSuffix, split]
    exact overloadSplit _ digit.isLt

theorem withoutSplitWritten (bare : p.Bare) : withoutSplit p.scheduled.toList = (p.base.toList, p.splitSuffix.toList) := by
  rw [scheduledList, withoutSplit, Parts.splitSuffix]
  cases p.split with
  | none => simp [written, (bareAlone bare).2]
  | some digit =>
    have found : split? (p.base.toList ++ written (some (.split digit))) = some (p.base.toList, digit.val) :=
      splitAppend (bareFilled bare) digit.isLt
    rw [Option.map_some, found]
    rfl

theorem withoutOverloadWritten (bare : p.Bare) :
    withoutOverload p.text.toList = (p.scheduled.toList, p.overloadSuffix.toList) := by
  rw [textList, withoutOverload, Parts.overloadSuffix]
  cases p.overload with
  | none => simp [written, scheduledPlain bare]
  | some digit =>
    have found : overload? (p.scheduled.toList ++ written (some (.overload (digit.map Fin.val)))) =
        some (p.scheduled.toList, digit.map Fin.val) := overloadAppend (scheduledFilled bare) (overloadSmall digit)
    rw [Option.map_some, found]
    rfl

theorem writtenRead (bare : p.Bare) : ReadAs p.text p := by
  have scheduled : TripId.scheduled p.text = p.scheduled := by
    rw [TripId.scheduled, textTrimmed bare, withoutOverloadWritten bare, String.ofList_toList]
  have whole : ofText p.text = ⟨p.text, p.base, p.suffixes⟩ := by
    rw [ofText, textTrimmed bare, withoutOverloadWritten bare]
    dsimp only
    rw [withoutSplitWritten bare, String.ofList_toList]
    rfl
  exact ⟨whole, congrArg TripId.canonical whole, scheduled⟩

end Written

theorem canonicalOfScheduled (raw : String) :
    canonicalOf raw = String.ofList (withoutSplit (TripId.scheduled raw).toList).1 := by
  rw [TripId.scheduled, String.toList_ofList]
  rfl

theorem publishedCanonical (trimmed : Text.trim r = r) (plain : Plain r) (published : Published r x) :
    canonicalOf x = canonicalOf r := by
  rw [canonicalOfScheduled x, canonicalOfScheduled r, scheduledPublished trimmed plain published,
    scheduledPublished trimmed plain .plain]

theorem readsWhatIsWritten : (∀ raw, ∃ p : Parts, Text.trim raw = p.text ∧ ReadAs raw p) ∧
    (∀ p : Parts, p.Bare → ReadAs p.text p) ∧
    ∀ r x, Text.trim r = r → Plain r → Published r x → canonicalOf x = canonicalOf r :=
  ⟨readParts, fun _ => writtenRead, fun _ _ => publishedCanonical⟩

/- The base ends in what looks like the beginnings of both suffixes. -/
theorem readsWhatIsWrittenBesideLookalikes :
    let p : Parts := ⟨"6-OL12_", some 1, some (some 2)⟩
    p.Bare ∧ p.text = "6-OL12__1-OL2" ∧ ReadAs "6-OL12__1-OL2" p ∧
      Text.trim "6-OL12__1" = "6-OL12__1" ∧ Plain "6-OL12__1" ∧ canonicalOf "6-OL12__1-OL" = canonicalOf "6-OL12__1" := by
  have bare : Parts.Bare ⟨"6-OL12_", some 1, some (some 2)⟩ :=
    ⟨by decide +kernel, by decide +kernel, by decide +kernel⟩
  have text : Parts.text ⟨"6-OL12_", some 1, some (some 2)⟩ = "6-OL12__1-OL2" := by decide +kernel
  have trimmed : Text.trim "6-OL12__1" = "6-OL12__1" := by decide +kernel
  have plain : Plain "6-OL12__1" := plainWithout (by decide +kernel)
  refine ⟨bare, text, ?_, trimmed, plain, ?_⟩
  · rw [← text]
    exact readsWhatIsWritten.2.1 _ bare
  · have published : Published "6-OL12__1" "6-OL12__1-OL" := .overload none (by simp) (by decide)
    exact readsWhatIsWritten.2.2 _ _ trimmed plain published

end TripId

end TransitTimeline
