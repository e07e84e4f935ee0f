import TransitTimeline.Proofs.Files.Course
import TransitTimeline.Proofs.Files.Place
import TransitTimeline.Publication.Publish

/-! The three directories of a date stand side by side in one directory. Each step on one of them leaves the other two as
they are, whatever becomes of the step. -/
namespace TransitTimeline

namespace FileTree
variable {t u : FileTree} {new : Option FileTree}

theorem changedTrue (ok : orFail t new = (true, u)) : new = some u := by
  cases new <;> cases ok
  rfl

theorem changedTree (answer : Bool) (ok : orFail t new = (answer, u)) : u = t ∨ new = some u := by
  cases new <;> cases ok
  · exact .inl rfl
  · exact .inr rfl

end FileTree

namespace Publication
open FileTree (Names placeOf standing)

/- The path around the three directories, and their names. The path does not lead through one of them, or the first call
would make it with the directories on the way. -/
structure Slots where
  written : Path
  target : String
  staging : String
  aside : String
  named : ∀ n ∈ [target, staging, aside], Names n
  distinct : [target, staging, aside].Nodup
  clear : ∀ r, r <+: written → r ≠ [] → ∀ n ∈ [target, staging, aside], ¬placeOf written ++ [n] <+: placeOf r

namespace Slots
variable (s : Slots) {t u : FileTree} {name other : String}

def names : List String := [s.target, s.staging, s.aside]

def place : Place := ⟨s.written ++ [s.target], s.written ++ [s.staging], s.written ++ [s.aside]⟩

def around : Path := placeOf s.written

def here (name : String) (t : FileTree) : List FileTree := t.standing s.around name

theorem placeHere (known : name ∈ s.names) : placeOf (s.written ++ [name]) = s.around ++ [name] :=
  FileTree.placeOfName (s.named name known)

theorem targetKnown : s.target ∈ s.names := by simp [names]
theorem stagingKnown : s.staging ∈ s.names := by simp [names]
theorem asideKnown : s.aside ∈ s.names := by simp [names]

theorem targetStaging : s.target ≠ s.staging := fun same => by simpa [same] using s.distinct
theorem targetAside : s.target ≠ s.aside := fun same => by simpa [same] using s.distinct
theorem stagingAside : s.staging ≠ s.aside := fun same => by simpa [same] using s.distinct

def OnlyAt (name : String) (t u : FileTree) : Prop := ∀ n ∈ s.names, n ≠ name → s.here n u = s.here n t

variable {s}

theorem onlyAtSet {new : Option FileTree} {rest : Path} (ok : t.set? new (s.around ++ name :: rest) = some u) :
    s.OnlyAt name t u := fun _ _ different => FileTree.standingOther different ok

theorem removed (known : name ∈ s.names) (ok : t.removeAll (s.written ++ [name]) = (true, u)) :
    s.here name u = (s.here name t).tail ∧ s.OnlyAt name t u := by
  have changed := FileTree.changedTrue ok
  simp only [bind, Option.bind_eq_some_iff] at changed
  obtain ⟨q, found, changed⟩ := changed
  split at changed
  · rw [FileTree.resolved found, s.placeHere known] at changed
    exact ⟨FileTree.standingSet changed, onlyAtSet changed⟩
  · cases changed

theorem removedPartly (known : name ∈ s.names) (partly : (FileStep.removeAll (s.written ++ [name])).Partly t u) :
    u = t ∨ s.OnlyAt name t u ∧ ∃ entries left, Remnants entries left ∧
      (s.here name t).head? = some (.directory entries) ∧ s.here name u = .directory left :: (s.here name t).tail := by
  cases partly with
  | untouched => exact .inl rfl
  | @removed _ q _ _ entries left found stood partly set =>
    rw [FileTree.resolved found, s.placeHere known] at stood set
    rw [FileTree.getStanding] at stood
    exact .inr ⟨onlyAtSet set, entries, left, partly, stood, FileTree.standingSet set⟩

theorem renamed (source : name ∈ s.names) (target : other ∈ s.names) (different : name ≠ other)
    (ok : t.rename (s.written ++ [name]) (s.written ++ [other]) = (true, u)) :
    ∃ moved, (s.here name t).head? = some moved ∧ FileTree.mayReplace moved (s.here other t).head? ∧
      s.here name u = (s.here name t).tail ∧ s.here other u = moved :: (s.here other t).tail ∧
      ∀ n ∈ s.names, n ≠ name → n ≠ other → s.here n u = s.here n t := by
  have changed := FileTree.changedTrue ok
  simp only [bind, Option.bind_eq_some_iff] at changed
  obtain ⟨p, from?, q, to?, moved, known, changed⟩ := changed
  rw [FileTree.resolved from?, FileTree.resolved to?, s.placeHere source, s.placeHere target] at changed
  rw [FileTree.resolved from?, s.placeHere source, FileTree.getStanding] at known
  have apart : s.around ++ [name] ≠ s.around ++ [other] := fun same => different (by simpa using same)
  rw [if_neg apart] at changed
  split at changed
  · cases changed
  · rename_i allowed
    simp only [Option.bind_eq_some_iff] at changed
    obtain ⟨v, taken, put⟩ := changed
    simp only [FileTree.getStanding, not_or, not_not] at allowed
    have first := onlyAtSet taken
    have second := onlyAtSet put
    refine ⟨moved, known, allowed.2, ?_, ?_, fun n inside notName notOther => ?_⟩
    · rw [second name source different]
      exact FileTree.standingSet taken
    · rw [← first other target (Ne.symm different)]
      exact FileTree.standingSet put
    · rw [second n inside notOther, first n inside notName]

theorem renamedPartly {p q : Path} (partly : (FileStep.rename p q).Partly t u) : u = t := by
  cases partly
  rfl

theorem wrote {file : String} (known : name ∈ s.names) (named : Names file) {bytes : List UInt8} {answer : Bool}
    (write : t.write (s.written ++ [name] ++ [file]) bytes = (answer, u)) : (answer = false ∧ u = t) ∨
    t.set? (some (.file bytes)) (s.around ++ name :: [file]) = some u := by
  cases answer with
  | false =>
    rcases FileTree.changedTree false write with same | changed
    · exact .inl ⟨rfl, same⟩
    · unfold FileTree.write at write
      rw [changed] at write
      cases write
  | true =>
    have changed := FileTree.changedTrue write
    simp only [bind, Option.bind_eq_some_iff] at changed
    obtain ⟨q, found, changed⟩ := changed
    have at? : q = s.around ++ name :: [file] := by
      rw [FileTree.resolved found, FileTree.placeOfName named, s.placeHere known, List.append_assoc]
      rfl
    split at changed
    · cases changed
    · rw [at?] at changed
      exact .inr changed

theorem writtenBelow {file : String} {bytes : List UInt8}
    (ok : t.set? (some (.file bytes)) (s.around ++ name :: [file]) = some u) :
    ∃ entries, (s.here name t).head? = some (.directory entries) ∧
      s.here name u = .directory (FileTree.setEntry file (some (.file bytes)) entries) :: (s.here name t).tail := by
  obtain ⟨old, changed, before, change, after⟩ := FileTree.standingBelow (List.cons_ne_nil file []) ok
  obtain ⟨entries, rfl, rfl⟩ := FileTree.setHere change
  exact ⟨entries, before, after⟩

theorem grown (known : name ∈ s.names) {p : Path} (whole : p <+: s.written ++ [name]) :
    (s.here name (t.makeAll p).2 = s.here name t ∨
      s.here name t = [] ∧ s.here name (t.makeAll p).2 = [FileTree.empty]) ∧ s.OnlyAt name t (t.makeAll p).2 := by
  have way : ∀ r, r <+: p → r ≠ [] → r <+: s.written ∨ r = s.written ++ [name] := by
    intro r inside _
    rcases List.prefix_concat_iff.mp (inside.trans whole) with all | before
    · exact .inr all
    · exact .inl before
  have grows := FileTree.makeAllGrows p t
  generalize (t.makeAll p).2 = u at grows
  constructor
  · induction grows with
    | refl => exact .inl rfl
    | @step u v q _ at? absent made ih =>
      obtain ⟨r, inside, filled, rfl⟩ := at?
      rcases way r inside filled with before | rfl
      · have same : s.here name v = s.here name u :=
          FileTree.standingGrown absent made (s.clear r before filled name known)
        rwa [same]
      · rw [s.placeHere known] at absent made
        rw [FileTree.getStanding, List.head?_eq_none_iff] at absent
        have stands : s.here name v = [FileTree.empty] := by
          have set : s.here name v = _ := FileTree.standingSet made
          rw [set, absent]
          rfl
        rcases ih with same | ⟨nothing, _⟩
        · exact .inr ⟨by rw [← same]; exact absent, stands⟩
        · exact .inr ⟨nothing, stands⟩
  · intro n inside different
    refine grows.standing fun q at? => ?_
    obtain ⟨r, part, filled, rfl⟩ := at?
    rcases way r part filled with before | rfl
    · exact s.clear r before filled n inside
    · rw [s.placeHere known, List.prefix_append_right_inj]
      exact fun one => different (by simpa using one)

end Slots

end Publication

end TransitTimeline
