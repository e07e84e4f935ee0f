import Mathlib.Logic.Function.Basic
import TransitTimeline.Proofs.Files.Beside
import TransitTimeline.Proofs.Publication.Calls

/-! What the steps of a publication do, once the output directory is there: their answers, and what they leave in the date's
three directories, come from what stands in these directories alone. All else stays as it is. -/
namespace TransitTimeline.Publication
open FileTree (Names placeOf leads)

inductive Slot where
  | target
  | staging
  | aside
  deriving DecidableEq

def Place.path (p : Place) : Slot → Path
  | .target => p.target
  | .staging => p.staging
  | .aside => p.aside

inductive Move where
  | make
  | remove (k : Slot)
  | write (file : String) (bytes : List UInt8)
  | rename (k l : Slot)

namespace Move

def step (p : Place) : Move → FileStep
  | make => .makeAll p.staging
  | remove k => .removeAll (p.path k)
  | write file bytes => .write (p.staging.child file) bytes
  | rename k l => .rename (p.path k) (p.path l)

def Proper : Move → Prop
  | write file _ => Names file
  | rename k l => k ≠ l
  | _ => True

end Move

abbrev Held := Slot → List FileTree

namespace Slots
variable (s : Slots) {t u : FileTree}

def name : Slot → String
  | .target => s.target
  | .staging => s.staging
  | .aside => s.aside

def held (t : FileTree) : Held := fun k => s.here (s.name k) t

theorem path (k : Slot) : s.place.path k = s.written ++ [s.name k] := by
  cases k <;> rfl

theorem nameKnown (k : Slot) : s.name k ∈ s.names := by
  cases k <;> simp [name, names]

theorem nameOf {n : String} (known : n ∈ s.names) : ∃ k, s.name k = n := by
  rcases List.mem_cons.mp known with rfl | known
  · exact ⟨.target, rfl⟩
  · rcases List.mem_pair.mp known with rfl | rfl
    · exact ⟨.staging, rfl⟩
    · exact ⟨.aside, rfl⟩

theorem slotNamed (k : Slot) : Names (s.name k) := s.named _ (s.nameKnown k)

theorem namesApart {k l : Slot} (apart : k ≠ l) : s.name k ≠ s.name l := by
  have one := s.targetStaging
  have two := s.targetAside
  have three := s.stagingAside
  cases k <;> cases l <;> first | exact absurd rfl apart | simp_all [name, Ne.symm]

structure Confined (t u : FileTree) : Prop where
  outside : ∀ q, (∀ n ∈ s.names, ¬s.around ++ [n] <+: q) → u.kind? q = t.kind? q
  beside : ∀ n, n ∉ s.names → u.standing s.around n = t.standing s.around n

variable {s}

theorem Confined.refl (t : FileTree) : s.Confined t t := ⟨fun _ _ => rfl, fun _ _ => rfl⟩

theorem Confined.trans {v : FileTree} (first : s.Confined t u) (second : s.Confined u v) : s.Confined t v :=
  ⟨fun q out => (second.outside q out).trans (first.outside q out),
    fun n other => (second.beside n other).trans (first.beside n other)⟩

theorem confinedSet {k : Slot} {new : Option FileTree} {rest : Path}
    (ok : t.set? new (s.around ++ s.name k :: rest) = some u) : s.Confined t u where
  outside := by
    intro q out
    refine FileTree.kindApart ok fun inside => out (s.name k) (s.nameKnown k) ?_
    refine List.IsPrefix.trans ?_ inside
    exact (List.prefix_append_right_inj _).mpr (by simp)
  beside := fun n other => FileTree.standingOther (fun same => other (same ▸ s.nameKnown k)) ok

theorem Confined.made (confined : s.Confined t u) (made : FileTree.Made s.written t) : FileTree.Made s.written u := by
  intro r inside
  have there := FileTree.directoryKind.mp (made r inside)
  rw [FileTree.directoryKind, confined.outside _ fun n known => ?_]
  · exact there
  · by_cases filled : r = []
    · rw [filled]
      intro inside
      have nothing := List.prefix_nil.mp (show s.around ++ [n] <+: [] from inside)
      simp at nothing
    · exact s.clear r inside filled n known

section Effect

theorem heldSet {k : Slot} {new : Option FileTree} (ok : t.set? new (s.around ++ [s.name k]) = some u) :
    s.held u = Function.update (s.held t) k (new.toList ++ (s.held t k).tail) := by
  funext l
  by_cases same : l = k
  · subst same
    rw [Function.update_self]
    exact FileTree.standingSet ok
  · rw [Function.update_of_ne same]
    exact FileTree.standingOther (s.namesApart same) ok

theorem heldBelow {file : String} {x : FileTree} (ok : t.set? (some x) (s.around ++ s.name .staging :: [file]) = some u) :
    ∃ entries, (s.held t .staging).head? = some (.directory entries) ∧ s.held u = Function.update (s.held t) .staging
      (.directory (FileTree.setEntry file (some x) entries) :: (s.held t .staging).tail) := by
  obtain ⟨old, changed, before, change, after⟩ := FileTree.standingBelow (List.cons_ne_nil file []) ok
  obtain ⟨entries, rfl, rfl⟩ := FileTree.setHere change
  refine ⟨entries, before, funext fun l => ?_⟩
  by_cases same : l = .staging
  · subst same
    rw [Function.update_self]
    exact after
  · rw [Function.update_of_ne same]
    exact FileTree.standingOther (s.namesApart same) ok

variable (s)

def makeEffect (held : Held) : Bool × Held :=
  match (s.written ++ [s.staging]).isUsable, (held .staging).head? with
  | true, some (.directory _) => (true, held)
  | true, none => if Path.mayName s.staging then (true, Function.update held .staging [.empty]) else (false, held)
  | _, _ => (false, held)

def removeEffect (k : Slot) (held : Held) : Bool × Held :=
  match leads s.written [s.name k], (held k).head? with
  | true, some (.directory _) => (true, Function.update held k (held k).tail)
  | _, _ => (false, held)

def writeEffect (file : String) (bytes : List UInt8) (held : Held) : Bool × Held :=
  match leads s.written [s.staging, file], (held .staging).head? with
  | true, some (.directory entries) =>
    if ((FileTree.child? file entries).map FileTree.isDirectory).getD false then (false, held)
    else (true, Function.update held .staging
      (.directory (FileTree.setEntry file (some (.file bytes)) entries) :: (held .staging).tail))
  | _, _ => (false, held)

def renameEffect (k l : Slot) (held : Held) : Bool × Held :=
  match leads s.written [s.name k] && leads s.written [s.name l], (held k).head? with
  | true, some moved =>
    if FileTree.mayReplace moved (held l).head? then
      (true, Function.update (Function.update held k (held k).tail) l (moved :: (held l).tail))
    else (false, held)
  | _, _ => (false, held)

def effect : Move → Held → Bool × Held
  | .make => s.makeEffect
  | .remove k => s.removeEffect k
  | .write file bytes => s.writeEffect file bytes
  | .rename k l => s.renameEffect k l

def Does (m : Move) (t : FileTree) (changed : FileTree.Changed) : Prop :=
  changed.1 = (s.effect m (s.held t)).1 ∧ s.held changed.2 = (s.effect m (s.held t)).2 ∧ s.Confined t changed.2

variable {s}

theorem getHeld (k : Slot) (t : FileTree) : t.get? (s.around ++ [s.name k]) = (s.held t k).head? := FileTree.getStanding _ _ t

theorem resolveHeld (made : FileTree.Made s.written t) (k : Slot) :
    t.resolve (s.place.path k) = if leads s.written [s.name k] then some (s.around ++ [s.name k]) else none := by
  rw [path]
  exact FileTree.resolveMade made (by simpa using s.slotNamed k)

theorem findHeld (made : FileTree.Made s.written t) (k : Slot) :
    t.find? (s.place.path k) = if leads s.written [s.name k] then (s.held t k).head? else none := by
  rw [FileTree.find?, resolveHeld made]
  split
  · exact getHeld k t
  · rfl

theorem removeDoes (made : FileTree.Made s.written t) (k : Slot) : s.Does (.remove k) t (t.removeAll (s.place.path k)) := by
  unfold Does FileTree.removeAll
  rw [resolveHeld made, effect, removeEffect]
  cases leads s.written [s.name k] with
  | false => exact ⟨rfl, rfl, .refl t⟩
  | true =>
    simp only [if_true, Option.bind_eq_bind, Option.bind_some, FileTree.isDirectoryAt, getHeld]
    rcases (s.held t k).head? with _ | ⟨_ | entries⟩
    · exact ⟨rfl, rfl, .refl t⟩
    · exact ⟨rfl, rfl, .refl t⟩
    · obtain ⟨u, set⟩ := FileTree.setSome (made s.written List.prefix_rfl) none (s.name k)
      rw [show placeOf s.written = s.around from rfl] at set
      simp only [Option.map_some, FileTree.isDirectory, Option.getD_some, if_true, set]
      exact ⟨rfl, heldSet set, confinedSet set⟩

theorem renameDoes (made : FileTree.Made s.written t) {k l : Slot} (apart : k ≠ l) :
    s.Does (.rename k l) t (t.rename (s.place.path k) (s.place.path l)) := by
  unfold Does FileTree.rename
  rw [resolveHeld made, resolveHeld made, effect, renameEffect]
  cases leads s.written [s.name k] with
  | false => exact ⟨rfl, rfl, .refl t⟩
  | true =>
    cases leads s.written [s.name l] with
    | false => exact ⟨rfl, rfl, .refl t⟩
    | true =>
      have different : s.around ++ [s.name k] ≠ s.around ++ [s.name l] := fun same => s.namesApart apart (by simpa using same)
      have notPrefix : (s.around ++ [s.name k]).isPrefixOf (s.around ++ [s.name l]) = false := by
        rw [Bool.eq_false_iff, ne_eq, List.isPrefixOf_iff_prefix, List.prefix_append_right_inj]
        simpa using s.namesApart apart
      simp only [if_true, Option.bind_eq_bind, Option.bind_some, getHeld, Bool.and_self, if_neg different, notPrefix]
      match (s.held t k).head? with
      | none => exact ⟨rfl, rfl, .refl t⟩
      | some moved =>
        by_cases allowed : FileTree.mayReplace moved (s.held t l).head?
        · obtain ⟨v, taken⟩ := FileTree.setSome (made s.written List.prefix_rfl) none (s.name k)
          have between := confinedSet (s := s) (k := k) taken
          obtain ⟨u, put⟩ := FileTree.setSome ((between.made made) s.written List.prefix_rfl) (some moved) (s.name l)
          rw [show placeOf s.written = s.around from rfl] at taken put
          simp only [Option.bind_some, allowed, Bool.false_eq_true, not_true_eq_false, or_self, if_false, if_true, taken, put]
          refine ⟨rfl, ?_, between.trans (confinedSet put)⟩
          have after : s.held u = _ := heldSet put
          rw [heldSet taken, Function.update_of_ne apart.symm] at after
          exact after
        · simp only [Option.bind_some, allowed, not_false_eq_true, or_true, if_true, Bool.false_eq_true, if_false]
          exact ⟨rfl, rfl, .refl t⟩

theorem stagingChild (file : String) : s.place.staging.child file = s.written ++ [s.staging, file] := by
  have last : s.place.staging.getLast? = some s.staging := by simp [place]
  rw [Path.child, Path.below, last, if_neg (by simpa using (s.named _ s.stagingKnown).1)]
  simp [place]

theorem getFile (file : String) (t : FileTree) : t.get? (s.around ++ s.name .staging :: [file]) =
    (s.held t .staging).head?.bind (FileTree.get? [file]) := by
  rw [show s.around ++ s.name .staging :: [file] = s.around ++ [s.name .staging] ++ [file] by simp, FileTree.getAppend, getHeld]

theorem getOne (file : String) (entries : FileTree.Entries) :
    (FileTree.directory entries).get? [file] = FileTree.child? file entries := by
  rw [FileTree.get?]
  cases FileTree.child? file entries <;> rfl

theorem writeDoes (made : FileTree.Made s.written t) {file : String} (named : Names file) (bytes : List UInt8) :
    s.Does (.write file bytes) t (t.write (s.place.staging.child file) bytes) := by
  unfold Does FileTree.write
  rw [stagingChild, FileTree.resolveMade made (by simpa using ⟨s.named _ s.stagingKnown, named⟩), effect, writeEffect]
  cases leads s.written [s.staging, file] with
  | false => exact ⟨rfl, rfl, .refl t⟩
  | true =>
    rw [show placeOf s.written ++ [s.staging, file] = s.around ++ s.name .staging :: [file] from rfl]
    simp only [if_true, Option.bind_eq_bind, Option.bind_some, FileTree.isDirectoryAt, getFile]
    have refused (other : ∀ entries, (s.held t .staging).head? ≠ some (.directory entries)) :
        t.set? (some (.file bytes)) (s.around ++ s.name .staging :: [file]) = none := by
      cases set : t.set? (some (.file bytes)) (s.around ++ s.name .staging :: [file]) with
      | none => rfl
      | some u =>
        obtain ⟨entries, stands, _⟩ := heldBelow set
        exact absurd stands (other entries)
    rcases known : (s.held t .staging).head? with _ | ⟨_ | entries⟩
    · rw [refused (by simp [known]), ite_self]
      exact ⟨rfl, rfl, .refl t⟩
    · rw [refused (by simp [known]), ite_self]
      exact ⟨rfl, rfl, .refl t⟩
    · rw [Option.bind_some, getOne]
      by_cases taken : ((FileTree.child? file entries).map FileTree.isDirectory).getD false
      · simp only [if_pos taken]
        exact ⟨rfl, rfl, .refl t⟩
      · have there : t.isDirectoryAt (s.around ++ [s.name .staging]) := by
          simp [FileTree.isDirectoryAt, getHeld, known, FileTree.isDirectory]
        obtain ⟨u, set⟩ := FileTree.setSome there (some (.file bytes)) file
        rw [List.append_assoc, show [s.name .staging] ++ [file] = s.name .staging :: [file] from rfl] at set
        obtain ⟨_, stands, after⟩ := heldBelow set
        cases known.symm.trans stands
        simp only [if_neg taken, set]
        exact ⟨rfl, after, confinedSet set⟩

theorem makeDoes (made : FileTree.Made s.written t) : s.Does .make t (t.makeAll s.place.staging) := by
  unfold Does
  rw [show s.place.staging = s.written ++ [s.staging] from rfl, effect, makeEffect]
  cases usable : (s.written ++ [s.staging]).isUsable with
  | false =>
    rw [FileTree.makeAllUnusable (by simp [usable])]
    exact ⟨rfl, rfl, .refl t⟩
  | true =>
    obtain ⟨filled, dot, dots⟩ := s.named _ s.stagingKnown
    have plain : ¬(s.staging = "" ∨ s.staging = ".") := by simp [filled, dot]
    rw [FileTree.makeAllThrough made usable (by simpa using s.named _ s.stagingKnown),
      show placeOf s.written = s.around from rfl, FileTree.makeFrom, if_neg plain, if_neg dots]
    dsimp only
    rw [show s.around ++ [s.staging] = s.around ++ [s.name .staging] from rfl, getHeld]
    rcases known : (s.held t .staging).head? with _ | ⟨_ | entries⟩
    · have nothing : s.held t .staging = [] := List.head?_eq_none_iff.mp known
      have ends : FileTree.endsInDot [] = false := rfl
      cases short : Path.mayName s.staging with
      | false =>
        simp only [ends, Bool.false_eq_true, not_false_eq_true, or_true, if_true, if_false]
        exact ⟨trivial, trivial, .refl t⟩
      | true =>
        obtain ⟨u, set⟩ := FileTree.setSome (made s.written List.prefix_rfl) (some .empty) (s.name .staging)
        rw [show placeOf s.written = s.around from rfl] at set
        simp only [ends, Bool.false_eq_true, not_true_eq_false, or_self, if_true, if_false, set]
        have there : u.isDirectoryAt (s.around ++ [s.name .staging]) := by
          simp [FileTree.isDirectoryAt, FileTree.getSet set, FileTree.isDirectory, FileTree.empty]
        refine ⟨there, ?_, confinedSet set⟩
        have after : s.held u = _ := heldSet set
        rw [nothing] at after
        exact after
    · exact ⟨rfl, rfl, .refl t⟩
    · have there : t.isDirectoryAt (s.around ++ [s.name .staging]) := by
        simp [FileTree.isDirectoryAt, getHeld, known, FileTree.isDirectory]
      exact ⟨there, rfl, .refl t⟩

theorem moveDoes (made : FileTree.Made s.written t) {m : Move} (proper : m.Proper) : s.Does m t ((m.step s.place).apply t) := by
  cases m with
  | make => exact makeDoes made
  | remove k => exact removeDoes made k
  | write file bytes => exact writeDoes made proper bytes
  | rename k l => exact renameDoes made proper

theorem setTwice (file : String) (x y : FileTree) (entries : FileTree.Entries) :
    FileTree.setEntry file (some y) (FileTree.setEntry file (some x) entries) = FileTree.setEntry file (some y) entries := by
  induction entries with
  | nil => simp [FileTree.setEntry]
  | cons e rest ih =>
    obtain ⟨other, z⟩ := e
    by_cases same : other = file
    · simp [FileTree.setEntry, same]
    · simpa [FileTree.setEntry, same] using ih

theorem writeOver (file : String) (first bytes : List UInt8) (held : Held) :
    s.writeEffect file bytes (s.writeEffect file first held).2 = s.writeEffect file bytes held := by
  unfold writeEffect
  cases leads s.written [s.staging, file] with
  | false => rfl
  | true =>
    rcases known : (held .staging).head? with _ | ⟨_ | entries⟩
    · simp only [known]
    · simp only [known]
    · by_cases taken : ((FileTree.child? file entries).map FileTree.isDirectory).getD false
      · simp only [if_pos taken, known]
      · have child : FileTree.child? file (FileTree.setEntry file (some (.file first)) entries) = some (.file first) :=
          FileTree.childSet file _ entries
        simp only [if_neg taken, Function.update_self, List.head?_cons, List.tail_cons, child, Function.update_idem, setTwice]
        rfl

theorem makeBegun (made : FileTree.Made s.written t) (begun : (FileStep.makeAll s.place.staging).Begun t u) : u = t := by
  obtain ⟨q, rest, whole, _, ⟨_, member, _⟩, rfl⟩ := begun.partOf
  have way : q <+: s.written := by
    rcases List.prefix_concat_iff.mp ⟨rest, whole⟩ with all | before
    · rw [all] at whole
      rw [List.append_right_eq_self.mp whole] at member
      cases member
    · exact before
  by_cases usable : q.isUsable
  · rw [FileTree.makeAllMade (fun r inside => made r (inside.trans way)) usable]
  · rw [FileTree.makeAllUnusable usable]

theorem moveBegun (made : FileTree.Made s.written t) {m : Move} (proper : m.Proper) (begun : (m.step s.place).Begun t u) :
    s.Confined t u ∧ s.effect m (s.held u) = s.effect m (s.held t) := by
  cases m with
  | make =>
    rw [makeBegun made begun]
    exact ⟨.refl t, rfl⟩
  | write file bytes =>
    cases begun with | @written _ _ first =>
    obtain ⟨_, held, confined⟩ := writeDoes made proper first
    exact ⟨confined, by rw [held]; exact writeOver file first bytes (s.held t)⟩
  | remove k =>
    cases begun with | removed found known partly set =>
    rw [resolveHeld made] at found
    cases path : leads s.written [s.name k] with
    | false => simp [path] at found
    | true =>
      rw [path, if_pos rfl] at found
      cases found
      rw [getHeld] at known
      refine ⟨confinedSet set, ?_⟩
      rw [heldSet set, effect, removeEffect, removeEffect, path, known]
      simp
  | rename k l => cases begun

end Effect

section Script
open Script
variable {α : Type}

def Confines (s : Slots) (k : Script α) : Prop :=
  k.Limited (fun p => ∃ l, p = s.place.path l) (fun step => ∃ m : Move, m.Proper ∧ step = m.step s.place) fun _ => True

/- It goes the same way on any tree with the same held in the three directories. -/
theorem runLike {k : Script α} (confines : s.Confines k) (madeT : FileTree.Made s.written t) (madeU : FileTree.Made s.written u)
    (same : s.held t = s.held u) : (k.run t).1 = (k.run u).1 ∧ s.held (k.run t).2 = s.held (k.run u).2 := by
  have found (l : Slot) : t.find? (s.place.path l) = u.find? (s.place.path l) := by
    rw [findHeld madeT, findHeld madeU, same]
  induction k generalizing t u with
  | done a => exact ⟨rfl, same⟩
  | ask p next ih =>
    obtain ⟨⟨l, rfl⟩, later⟩ := confines
    rw [run, run, FileTree.exists?, FileTree.exists?, found]
    exact ih _ (later _) madeT madeU same found
  | read p next ih =>
    obtain ⟨⟨l, rfl⟩, later⟩ := confines
    rw [run, run, FileTree.read?, FileTree.read?, found]
    exact ih _ (later _) madeT madeU same found
  | list p shown next ih =>
    obtain ⟨⟨l, rfl⟩, later⟩ := confines
    rw [run, run, listed, listed, found]
    exact ih _ (later _) madeT madeU same found
  | step step next ih =>
    obtain ⟨⟨m, proper, rfl⟩, later⟩ := confines
    obtain ⟨answerT, heldT, confinedT⟩ := moveDoes madeT proper
    obtain ⟨answerU, heldU, confinedU⟩ := moveDoes madeU proper
    rw [run, run]
    have answers : ((m.step s.place).apply t).1 = ((m.step s.place).apply u).1 := by rw [answerT, answerU, same]
    have held : s.held ((m.step s.place).apply t).2 = s.held ((m.step s.place).apply u).2 := by rw [heldT, heldU, same]
    dsimp only
    rw [answers]
    refine ih _ (later _) (confinedT.made madeT) (confinedU.made madeU) held fun l => ?_
    rw [findHeld (confinedT.made madeT), findHeld (confinedU.made madeU), held]
  | wait n next ih => exact ih () confines madeT madeU same found

theorem begunLike {m : Move} {next : Bool → Script α} (proper : m.Proper) (later : ∀ answer, s.Confines (next answer))
    (made : FileTree.Made s.written t) (begun : (m.step s.place).Begun t u) : s.Confined t u ∧
    ((step (m.step s.place) next).run u).1 = ((step (m.step s.place) next).run t).1 ∧
    s.held ((step (m.step s.place) next).run u).2 = s.held ((step (m.step s.place) next).run t).2 := by
  obtain ⟨confined, again⟩ := moveBegun made proper begun
  have madeU := confined.made made
  obtain ⟨answerT, heldT, confinedT⟩ := moveDoes made proper
  obtain ⟨answerU, heldU, confinedU⟩ := moveDoes madeU proper
  rw [again] at answerU heldU
  have answers : ((m.step s.place).apply u).1 = ((m.step s.place).apply t).1 := answerU.trans answerT.symm
  refine ⟨confined, ?_⟩
  rw [run, run]
  dsimp only
  rw [answers]
  exact runLike (later _) (confinedU.made madeU) (confinedT.made made) (heldU.trans heldT.symm)

theorem confinesPerform {m : Move} (proper : m.Proper) {step : FileStep} (own : step = m.step s.place) :
    s.Confines (perform step) := ⟨⟨m, proper, own⟩, fun _ => trivial⟩

theorem confinesIsThere (l : Slot) : s.Confines (isThere (s.place.path l)) := ⟨⟨l, rfl⟩, fun _ => trivial⟩

theorem confinesDone (a : α) : s.Confines (.done a) := trivial

theorem confinesBind {β : Type} {k : Script α} {f : α → Script β} (first : s.Confines k) (second : ∀ a, s.Confines (f a)) :
    s.Confines (k >>= f) := limitedBind first fun a _ => second a

theorem confinesAndThen {m : Move} (proper : m.Proper) {step : FileStep} (own : step = m.step s.place) {rest : Script Bool}
    (onward : s.Confines rest) : s.Confines (andThen step rest) := by
  refine confinesBind (confinesPerform proper own) fun answer => ?_
  cases answer with
  | true => exact onward
  | false => exact confinesDone false

theorem confinesStage {files : List (String × String)} (named : ∀ f ∈ files, Names f.1) :
    s.Confines (stage s.place.staging files) := by
  have writes : s.Confines (writeFiles s.place.staging files) := by
    induction files with
    | nil => exact confinesDone true
    | cons f rest ih =>
      obtain ⟨first, others⟩ := List.forall_mem_cons.mp named
      exact confinesAndThen (m := .write f.1 f.2.toUTF8.toList) first rfl (ih others)
  have fill : s.Confines (andThen (.makeAll s.place.staging) (writeFiles s.place.staging files)) :=
    confinesAndThen (m := .make) trivial rfl writes
  refine confinesBind (confinesIsThere .staging) fun answer => ?_
  cases answer with
  | true => exact confinesAndThen (m := .remove .staging) trivial rfl fill
  | false => exact fill

theorem confinesRecover : s.Confines (recover s.place) := by
  refine confinesBind (confinesIsThere .aside) fun aside => ?_
  cases aside with
  | false => exact confinesDone true
  | true =>
    refine confinesBind (confinesIsThere .target) fun target => ?_
    cases target with
    | true => exact confinesPerform (m := .remove .aside) trivial rfl
    | false => exact confinesPerform (m := .rename .aside .target) (by simp [Move.Proper]) rfl

theorem confinesReplace : s.Confines (replace s.place) := by
  refine confinesAndThen (m := .rename .target .aside) (by simp [Move.Proper]) rfl ?_
  refine confinesBind (confinesPerform (m := .rename .staging .target) (by simp [Move.Proper]) rfl) fun answer => ?_
  cases answer with
  | true => exact confinesBind (confinesPerform (m := .remove .aside) trivial rfl) fun _ => confinesDone true
  | false =>
    exact confinesBind (confinesPerform (m := .rename .aside .target) (by simp [Move.Proper]) rfl) fun _ => confinesDone false

theorem confinesPublish {files : List (String × String)} (named : ∀ f ∈ files, Names f.1) :
    s.Confines (publish s.place files) := by
  have finish (published : Bool) : s.Confines
      (if published then pure true else perform (.removeAll s.place.staging) >>= fun _ => pure false) := by
    cases published with
    | true => exact confinesDone true
    | false => exact confinesBind (confinesPerform (m := .remove .staging) trivial rfl) fun _ => confinesDone false
  have swap : s.Confines (putInPlace s.place) := by
    refine confinesBind confinesRecover fun recovered => ?_
    cases recovered with
    | false => exact confinesDone false
    | true =>
      refine confinesBind (confinesIsThere .target) fun target => ?_
      cases target with
      | true => exact confinesReplace
      | false => exact confinesPerform (m := .rename .staging .target) (by simp [Move.Proper]) rfl
  refine confinesBind (confinesStage named) fun ready => ?_
  cases ready with
  | true => exact confinesBind swap finish
  | false => exact confinesBind (confinesDone false) finish

theorem confinesReport {directory : String} {r : Report} (place : s.place = Place.of (Path.ofText directory) r.summary.date) :
    s.Confines (publishReport directory r) := by
  unfold publishReport
  dsimp only
  rw [← place]
  refine confinesBind (confinesPublish (fileNamed r)) fun answer => ?_
  cases answer <;> exact confinesDone _

end Script

end Slots

end TransitTimeline.Publication
