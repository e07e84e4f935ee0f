import Mathlib
import TransitTimeline.Proofs.Repeats
import TransitTimeline.Source.Manifest

/-! The files of a feed without the redundant ones. They are in order and cover the days that were covered, each by the
hour or as a whole, and one pass settles them. An hourly file gives way to one that no hour is read from, which need not
be a file of the whole day: its hour may be written, but as no number. -/
namespace TransitTimeline

theorem Text.afterExactly {beginning cs rest : List Char} : after? beginning cs = some rest ↔ cs = beginning ++ rest := by
  unfold after?
  constructor
  · intro found
    split at found
    · rename_i begins
      rw [← Option.some.inj found]
      exact List.prefix_iff_eq_append.mp (List.isPrefixOf_iff_prefix.mp begins) |>.symm
    · cases found
  · rintro rfl
    rw [if_pos (List.isPrefixOf_iff_prefix.mpr (List.prefix_append beginning rest)), List.drop_left]

namespace PartitionFile

variable {paths others : List String} {p q : String} {slot : Slot}

section Slots

def InSlot (slot : Slot) (path : String) : Prop := ∃ hour, partition? path = some ⟨slot, hour⟩

def Hourly (slot : Slot) (path : String) : Prop := ∃ hour, partition? path = some ⟨slot, some hour⟩

def WholeDay (slot : Slot) (path : String) : Prop := partition? path = some ⟨slot, none⟩

def GivesWay (paths : List String) (path : String) : Prop := ∃ slot, Hourly slot path ∧ ∃ q ∈ paths, WholeDay slot q

theorem slotCases : InSlot slot p ↔ Hourly slot p ∨ WholeDay slot p := by
  constructor
  · rintro ⟨_ | hour, read⟩
    · exact .inr read
    · exact .inl ⟨hour, read⟩
  · rintro (⟨hour, read⟩ | read)
    · exact ⟨some hour, read⟩
    · exact ⟨none, read⟩

theorem slotUnique {other : Slot} (own : InSlot slot p) (also : InSlot other p) : slot = other := by
  obtain ⟨_, read⟩ := own
  obtain ⟨_, known⟩ := also
  cases read.symm.trans known
  rfl

theorem hourlyNotWhole (hourly : Hourly slot p) {other : Slot} : ¬WholeDay other p := by
  intro whole
  obtain ⟨hour, read⟩ := hourly
  cases read.symm.trans whole

theorem wholeDayExactly : wholeDay? p = some slot ↔ WholeDay slot p := by
  rw [wholeDay?, WholeDay]
  cases partition? p with
  | none => simp
  | some read =>
    obtain ⟨own, hour⟩ := read
    cases hour <;> simp

theorem redundantExactly : isRedundant (paths.filterMap wholeDay?) p = true ↔ GivesWay paths p := by
  have days (own : Slot) : own ∈ paths.filterMap wholeDay? ↔ ∃ q ∈ paths, WholeDay own q := by
    simp only [List.mem_filterMap, wholeDayExactly]
  unfold isRedundant GivesWay Hourly
  cases partition? p with
  | none => simp
  | some read =>
    obtain ⟨own, hour⟩ := read
    cases hour with
    | none => simp
    | some hour => simp [← days own]

end Slots

section Distinct

theorem memDistinct : p ∈ distinct paths ↔ p ∈ paths ∧ ¬GivesWay paths p := by
  rw [distinct, memRepeats, List.mem_mergeSort, List.mem_filter, Bool.not_eq_true', ← Bool.not_eq_true, redundantExactly]

theorem sortedAscends (kept : List String) : (kept.mergeSort fun a b => decide (a ≤ b)).eraseReps.Pairwise (· < ·) := by
  refine repeatsAscend (fun le other => ?_) lt_of_lt_of_le (List.pairwise_mergeSort' (· ≤ ·) kept)
  exact lt_of_le_of_ne le (ne_of_beq_false other)

theorem distinctAscends (paths : List String) : (distinct paths).Pairwise (· < ·) := sortedAscends _

theorem distinctOfMembers (same : ∀ p, p ∈ others ↔ p ∈ paths) : distinct others = distinct paths := by
  refine (distinctAscends others).eq_of_mem_iff (distinctAscends paths) fun p => ?_
  simp only [memDistinct, GivesWay, same]

theorem wholeDayKept (member : q ∈ paths) (whole : WholeDay slot q) : q ∈ distinct paths := by
  refine memDistinct.mpr ⟨member, ?_⟩
  rintro ⟨_, hourly, _⟩
  exact hourlyNotWhole hourly whole

theorem givesWaySettled : GivesWay (distinct paths) p ↔ GivesWay paths p := by
  constructor
  · rintro ⟨slot, hourly, q, kept, whole⟩
    exact ⟨slot, hourly, q, (memDistinct.mp kept).1, whole⟩
  · rintro ⟨slot, hourly, q, member, whole⟩
    exact ⟨slot, hourly, q, wholeDayKept member whole, whole⟩

theorem distinctAgain (paths : List String) : distinct (distinct paths) = distinct paths := by
  refine (distinctAscends _).eq_of_mem_iff (distinctAscends paths) fun p => ?_
  rw [memDistinct, givesWaySettled, memDistinct, and_assoc, and_self]

theorem leftOut (member : p ∈ paths) (lost : p ∉ distinct paths) : GivesWay (distinct paths) p :=
  givesWaySettled.mpr (by_contra fun stays => lost (memDistinct.mpr ⟨member, stays⟩))

structure Settled (paths : List String) : Prop where
  ascends : (distinct paths).Pairwise (· < ·)
  listed : ∀ p ∈ distinct paths, p ∈ paths
  anyOrder : ∀ others, (∀ p, p ∈ others ↔ p ∈ paths) → distinct others = distinct paths
  covers : ∀ slot, ∀ p ∈ paths, InSlot slot p → ∃ q ∈ distinct paths, InSlot slot q
  oneWay : ∀ slot, ∀ p ∈ distinct paths, Hourly slot p → ∀ q ∈ distinct paths, ¬WholeDay slot q
  again : distinct (distinct paths) = distinct paths

theorem settled (paths : List String) : Settled paths where
  ascends := distinctAscends paths
  listed _ kept := (memDistinct.mp kept).1
  anyOrder _ same := distinctOfMembers same
  covers slot p member inside := by
    by_cases covered : ∃ q ∈ paths, WholeDay slot q
    · obtain ⟨q, also, whole⟩ := covered
      exact ⟨q, wholeDayKept also whole, slotCases.mpr (.inr whole)⟩
    · refine ⟨p, memDistinct.mpr ⟨member, ?_⟩, inside⟩
      rintro ⟨other, hourly, whole⟩
      obtain rfl := slotUnique inside (slotCases.mpr (.inl hourly))
      exact covered whole
  oneWay slot p kept hourly q also whole :=
    (memDistinct.mp kept).2 (givesWaySettled.mp ⟨slot, hourly, q, also, whole⟩)
  again := distinctAgain paths

theorem filesSettled : (∀ paths, Settled paths) ∧ ∀ (root : Path) (date : Day) (tree : FileTree),
    distinct ((Manifest.discover root date).run tree).1.positionFiles =
      ((Manifest.discover root date).run tree).1.positionFiles := by
  refine ⟨settled, fun root date tree => ?_⟩
  have found : ∃ isGzipped crossings positions, ((Manifest.discover root date).run tree).1 =
      Manifest.ofFound date isGzipped crossings positions := by
    unfold Manifest.discover
    simp only [Script.runBind, bind, pure, Script.run]
    exact ⟨_, _, _, rfl⟩
  obtain ⟨isGzipped, crossings, positions, own⟩ := found
  rw [own]
  exact distinctAgain _

/- In April the first day is there by the hour and as a whole, the second one by the hour only, and one file is of no day. -/
def april : List String := ["rt/year=2024/month=4/day=2/hour=1/b.csv", "rt/year=2024/month=4/day=1/hour=2/b.csv", "rt/b.csv",
  "rt/year=2024/month=4/day=1/b.csv", "rt/year=2024/month=4/day=2/hour=1/b.csv"]

theorem filesSettledInApril : Settled april ∧
    april.map partition? = [some ⟨⟨"rt", 2024, 4, 2⟩, some 1⟩, some ⟨⟨"rt", 2024, 4, 1⟩, some 2⟩, none,
      some ⟨⟨"rt", 2024, 4, 1⟩, none⟩, some ⟨⟨"rt", 2024, 4, 2⟩, some 1⟩] ∧
    distinct april =
      ["rt/b.csv", "rt/year=2024/month=4/day=1/b.csv", "rt/year=2024/month=4/day=2/hour=1/b.csv"] := by
  have settled := filesSettled.1 april
  have left : (april.filter fun p => !isRedundant (april.filterMap wholeDay?) p) =
      ["rt/year=2024/month=4/day=2/hour=1/b.csv", "rt/b.csv", "rt/year=2024/month=4/day=1/b.csv",
        "rt/year=2024/month=4/day=2/hour=1/b.csv"] := by decide +kernel
  refine ⟨settled, by decide +kernel, settled.ascends.eq_of_mem_iff (by decide +kernel) fun p => ?_⟩
  have kept : p ∈ distinct april ↔ p ∈ april.filter fun p => !isRedundant (april.filterMap wholeDay?) p := by
    rw [memDistinct, List.mem_filter, Bool.not_eq_true', ← Bool.not_eq_true, redundantExactly]
  rw [kept, left]
  simp only [List.mem_cons, List.not_mem_nil, or_false]
  tauto

end Distinct

section Hours

def NamesHour (path : String) : Prop := ∃ value, "hour=".toList ++ value ∈ Text.pieces '/' path.toList

def MisnamesHour (path : String) : Prop :=
  ∃ value, "hour=".toList ++ value ∈ Text.pieces '/' path.toList ∧ Text.integerIn 10 .unsigned32 value = none

def hourNamed? (pieces : List (List Char)) : Option (List Char) :=
  (pieces.filterMap (Text.after? "hour=".toList)).getLast?

theorem otherPart {name piece value : List Char} {own : Option Int} (other : name.head? ≠ some 'h') (filled : name ≠ [])
    (found : Text.after? name piece = some value) :
    own = (Text.after? "hour=".toList piece).elim own (Text.integerIn 10 .unsigned32) := by
  rw [Text.afterExactly.mp found]
  cases hour : Text.after? "hour=".toList (name ++ value) with
  | none => rfl
  | some rest =>
    have first := congrArg List.head? (Text.afterExactly.mp hour)
    rw [List.head?_append_of_ne_nil _ filled] at first
    exact absurd first other

theorem hourPart (r : Reading) (piece : List Char) : (r.part piece).hour =
    (Text.after? "hour=".toList piece).elim r.hour (Text.integerIn 10 .unsigned32) := by
  unfold Reading.part
  split
  · rename_i year
    exact otherPart (by decide) (by decide) year
  split
  · rename_i month
    exact otherPart (by decide) (by decide) month
  split
  · rename_i day
    exact otherPart (by decide) (by decide) day
  split
  · rename_i hour
    rw [hour]
    rfl
  · rename_i unnamed
    rw [unnamed]
    split <;> rfl

theorem hourRead (pieces : List (List Char)) (r : Reading) : (pieces.foldl Reading.part r).hour =
    (hourNamed? pieces).elim r.hour (Text.integerIn 10 .unsigned32) := by
  induction pieces generalizing r with
  | nil => rfl
  | cons piece rest ih =>
    rw [List.foldl_cons, ih, hourPart]
    unfold hourNamed?
    cases named : Text.after? "hour=".toList piece with
    | none => rw [List.filterMap_cons_none named]; rfl
    | some value =>
      rw [List.filterMap_cons_some named, List.getLast?_cons]
      cases (rest.filterMap (Text.after? "hour=".toList)).getLast? <;> rfl

theorem hourNamedListed {pieces : List (List Char)} {value : List Char} (named : hourNamed? pieces = some value) :
    "hour=".toList ++ value ∈ pieces := by
  obtain ⟨piece, member, found⟩ := List.mem_filterMap.mp (List.mem_of_getLast? named)
  rwa [← Text.afterExactly.mp found]

theorem hourNamedNone {pieces : List (List Char)} : hourNamed? pieces = none ↔ ∀ value, "hour=".toList ++ value ∉ pieces := by
  rw [hourNamed?, List.getLast?_eq_none_iff, List.filterMap_eq_nil_iff]
  constructor
  · intro unnamed value member
    have found := Text.afterExactly.mpr (rfl : "hour=".toList ++ value = _)
    rw [unnamed _ member] at found
    cases found
  · intro unnamed piece member
    cases found : Text.after? "hour=".toList piece with
    | none => rfl
    | some value =>
      rw [Text.afterExactly.mp found] at member
      exact absurd member (unnamed value)

theorem partitionHour {hour : Option Int} (read : partition? p = some ⟨slot, hour⟩) :
    hour = (hourNamed? (Text.pieces '/' p.toList)).bind (Text.integerIn 10 .unsigned32) := by
  simp only [partition?, Reading.partition?, Option.bind_eq_bind, Option.bind_eq_some_iff] at read
  obtain ⟨year, _, month, _, day, _, last⟩ := read
  obtain ⟨_, own⟩ := Partition.mk.inj (Option.some.inj last)
  rw [← own, hourRead]
  cases hourNamed? (Text.pieces '/' p.toList) <;> rfl

theorem hourlyNames (hourly : Hourly slot p) : NamesHour p := by
  obtain ⟨hour, read⟩ := hourly
  obtain ⟨value, named, _⟩ := Option.bind_eq_some_iff.mp (partitionHour read).symm
  exact ⟨value, hourNamedListed named⟩

theorem wholeDayMisnames (whole : WholeDay slot q) (names : NamesHour q) : MisnamesHour q := by
  have read := partitionHour whole
  cases named : hourNamed? (Text.pieces '/' q.toList) with
  | none =>
    obtain ⟨value, member⟩ := names
    exact absurd member (hourNamedNone.mp named value)
  | some value =>
    rw [named] at read
    exact ⟨value, hourNamedListed named, read.symm⟩

/- An hourly file gives way only to one of its day that names no hour, and files that misname theirs take no other away. -/
structure Superseded (paths : List String) : Prop where
  byWholeDay : ∀ p ∈ paths, p ∉ distinct paths →
    NamesHour p ∧ ∃ slot, InSlot slot p ∧ ∃ q ∈ distinct paths, InSlot slot q ∧ ¬NamesHour q
  notMisnamed : ∀ others, (∀ p ∈ others, p ∈ paths) → (∀ q ∈ paths, q ∈ others ∨ MisnamesHour q) →
    ∀ p ∈ distinct others, p ∈ distinct paths

/- Where an hourly file and one that misnames its hour are of one day, some file of the day names no hour. -/
def Confirmed (paths : List String) : Prop := ∀ slot, ∀ p ∈ paths, Hourly slot p →
  ∀ q ∈ paths, WholeDay slot q → MisnamesHour q → ∃ r ∈ paths, InSlot slot r ∧ ¬NamesHour r

theorem unnamedWhole (inside : InSlot slot q) (unnamed : ¬NamesHour q) : WholeDay slot q :=
  (slotCases.mp inside).resolve_left fun hourly => unnamed (hourlyNames hourly)

theorem confirmedCover (confirmed : Confirmed paths) (member : p ∈ paths) (lost : p ∉ distinct paths) :
    NamesHour p ∧ ∃ slot, InSlot slot p ∧ ∃ q ∈ distinct paths, InSlot slot q ∧ ¬NamesHour q := by
  obtain ⟨slot, hourly, q, kept, whole⟩ := leftOut member lost
  refine ⟨hourlyNames hourly, slot, slotCases.mpr (.inl hourly), ?_⟩
  by_cases names : NamesHour q
  · obtain ⟨r, also, inside, unnamed⟩ :=
      confirmed slot p member hourly q (memDistinct.mp kept).1 whole (wholeDayMisnames whole names)
    exact ⟨r, wholeDayKept also (unnamedWhole inside unnamed), inside, unnamed⟩
  · exact ⟨q, kept, slotCases.mpr (.inr whole), names⟩

theorem supersededOfConfirmed (confirmed : Confirmed paths) : Superseded paths where
  byWholeDay _ := confirmedCover confirmed
  notMisnamed others within misnamed p kept := by
    -- What p would give way to names no hour, so it is among the others too.
    by_contra lost
    obtain ⟨member, stays⟩ := memDistinct.mp kept
    obtain ⟨_, hourly, _⟩ := leftOut (within p member) lost
    obtain ⟨_, slot, inside, q, also, covers, unnamed⟩ := confirmedCover confirmed (within p member) lost
    have known : q ∈ others :=
      (misnamed q (memDistinct.mp also).1).resolve_right fun ⟨value, named, _⟩ => unnamed ⟨value, named⟩
    have ofHour : Hourly slot p := (slotCases.mp inside).resolve_right (hourlyNotWhole hourly)
    exact stays ⟨slot, ofHour, q, known, unnamedWhole covers unnamed⟩

theorem supersededExactly (paths : List String) :
    (∀ p, p ∈ distinct paths ↔ p ∈ paths ∧ ¬GivesWay (distinct paths) p) ∧ (Superseded paths ↔ Confirmed paths) := by
  refine ⟨fun p => by rw [memDistinct, givesWaySettled], ?_, supersededOfConfirmed⟩
  intro superseded slot p member hourly q also whole misnames
  have lost : p ∉ distinct paths := fun kept => (memDistinct.mp kept).2 ⟨slot, hourly, q, also, whole⟩
  obtain ⟨_, own, inside, r, kept, covers, unnamed⟩ := superseded.byWholeDay p member lost
  obtain rfl := slotUnique (slotCases.mpr (.inl hourly)) inside
  exact ⟨r, (memDistinct.mp kept).1, covers, unnamed⟩

/- The last file is named after an hour, so that its hour is no number, and no other file covers the day. -/
theorem supersededByMisnamed :
    let hourly := "rt/vp/year=2024/month=6/day=12/hour=1/a.csv"
    let misnamed := "rt/vp/year=2024/month=6/day=12/hour=7.csv"
    distinct [hourly, misnamed] = [misnamed] ∧ NamesHour misnamed ∧ ¬Superseded [hourly, misnamed] := by
  have left : distinct ["rt/vp/year=2024/month=6/day=12/hour=1/a.csv", "rt/vp/year=2024/month=6/day=12/hour=7.csv"] =
      ["rt/vp/year=2024/month=6/day=12/hour=7.csv"] := by decide +kernel
  have names : NamesHour "rt/vp/year=2024/month=6/day=12/hour=7.csv" := ⟨"7.csv".toList, by decide +kernel⟩
  refine ⟨left, names, fun superseded => ?_⟩
  obtain ⟨_, slot, _, q, kept, _, unnamed⟩ := superseded.byWholeDay _ List.mem_cons_self (by rw [left]; decide)
  rw [left, List.mem_singleton] at kept
  exact unnamed (kept ▸ names)

end Hours

end PartitionFile

end TransitTimeline
