import TransitTimeline.Proofs.Publication.Slots

/-! What a call of publishing keeps on the way. Until the staging directory is renamed to the target, what survives of
earlier calls stays, in place or set aside; from then on it is the call's own complete directory. -/
namespace TransitTimeline.Publication
open FileTree (Names)

def Complete (files : List (String × String)) (x : FileTree) : Prop :=
  ∃ entries, x = .directory entries ∧ entries.Perm (files.map fun f => (f.1, .file f.2.toUTF8.toList))

def Staged (names : List String) (x : FileTree) : Prop :=
  ∃ entries, x = .directory entries ∧ (entries.map (·.1)).Nodup ∧ entries.map (·.1) ⊆ names

def Filled (x : FileTree) : Prop := ∃ e entries, x = .directory (e :: entries)

theorem filledKept {moved x : FileTree} (filled : Filled x) : FileTree.mayReplace moved (some x) = false := by
  obtain ⟨e, entries, rfl⟩ := filled
  cases moved <;> rfl

theorem completeFilled {files : List (String × String)} (some : files ≠ []) {x : FileTree} (complete : Complete files x) :
    Filled x := by
  obtain ⟨entries, rfl, same⟩ := complete
  cases entries with
  | nil => exact absurd (List.map_eq_nil_iff.mp (List.nil_perm.mp same)) some
  | cons e rest => exact ⟨e, rest, rfl⟩

theorem completeOfChildren {files : List (String × String)} (distinct : (files.map (·.1)).Nodup)
    {entries : FileTree.Entries} (named : (entries.map (·.1)).Nodup) (known : entries.map (·.1) ⊆ files.map (·.1))
    (children : ∀ f ∈ files, FileTree.child? f.1 entries = some (.file f.2.toUTF8.toList)) :
    Complete files (.directory entries) := by
  refine ⟨entries, rfl, (List.perm_ext_iff_of_nodup (List.Nodup.of_map _ named) (List.Nodup.of_map Prod.fst ?_)).mpr ?_⟩
  · rw [List.map_map]
    exact distinct
  · rintro ⟨name, x⟩
    rw [List.mem_map, FileTree.memEntries named]
    constructor
    · intro stands
      obtain ⟨f, member, rfl⟩ := List.mem_map.mp (known (List.mem_map_of_mem ((FileTree.memEntries named).mpr stands)))
      exact ⟨f, member, Prod.ext rfl (Option.some.inj ((children f member).symm.trans stands))⟩
    · rintro ⟨f, member, same⟩
      cases same
      exact children f member

/- The directory that survives of all calls so far stands in place, or set aside with nothing in its place. -/
inductive Survives (s : Slots) : Option FileTree → FileTree → Prop where
  | nothing {t} (target : s.here s.target t = []) (aside : s.here s.aside t = []) : Survives s none t
  | inPlace {x t} (target : s.here s.target t = [x]) (aside : (s.here s.aside t).length ≤ 1) : Survives s (some x) t
  | setAside {x t} (target : s.here s.target t = []) (aside : s.here s.aside t = [x]) : Survives s (some x) t

theorem Survives.asideOne {s : Slots} {old : Option FileTree} {t : FileTree} (survives : Survives s old t) :
    (s.here s.aside t).length ≤ 1 := by
  cases survives with
  | nothing _ aside => simp [aside]
  | inPlace _ aside => exact aside
  | setAside _ aside => simp [aside]

theorem Survives.elsewhere {s : Slots} {old : Option FileTree} {t u : FileTree} (survives : Survives s old t)
    (only : s.OnlyAt s.staging t u) : Survives s old u := by
  have target := only s.target s.targetKnown s.targetStaging
  have aside := only s.aside s.asideKnown s.stagingAside.symm
  cases survives with
  | nothing t a => exact .nothing (target.trans t) (aside.trans a)
  | inPlace t a => exact .inPlace (target.trans t) (aside ▸ a)
  | setAside t a => exact .setAside (target.trans t) (aside.trans a)

/- What may be replaced at the target is not there: a publication has something in it. -/
theorem Survives.free {s : Slots} {old : Option FileTree} {t moved : FileTree} (survives : Survives s old t)
    (filled : ∀ x ∈ old, Filled x) (allowed : FileTree.mayReplace moved (s.here s.target t).head?) :
    s.here s.target t = [] := by
  cases survives with
  | nothing none => exact none
  | @inPlace x _ stands =>
    rw [stands, List.head?_cons, filledKept (filled x rfl)] at allowed
    cases allowed
  | setAside none => exact none

def Clean (s : Slots) (names : List String) (t : FileTree) : Prop :=
  s.here s.staging t = [] ∨ ∃ x, s.here s.staging t = [x] ∧ Staged names x

def install (s : Slots) : FileStep := .rename s.place.staging s.place.target

section Call
variable (s : Slots) (files : List (String × String)) (old : Option FileTree)

structure Before (made : List FileStep) (t : FileTree) : Prop where
  notYet : install s ∉ made
  clean : Clean s (files.map (·.1)) t
  survives : Survives s old t

structure Installed (made : List FileStep) (t : FileTree) : Prop where
  done : install s ∈ made
  clean : Clean s (files.map (·.1)) t
  target : ∃ x, Complete files x ∧ s.here s.target t = [x]
  aside : (s.here s.aside t).length ≤ 1

def Either (made : List FileStep) (t : FileTree) : Prop := Before s files old made t ∨ Installed s files made t

structure Wrote (written : List (String × String)) (made : List FileStep) (t : FileTree) : Prop where
  before : Before s files old made t
  each : ∀ f ∈ written, t.get? (s.around ++ s.staging :: [f.1]) = some (.file f.2.toUTF8.toList)

structure Ready (made : List FileStep) (t : FileTree) : Prop where
  before : Before s files old made t
  staged : ∃ x, Complete files x ∧ s.here s.staging t = [x]

variable {s files old}

theorem Before.next {made : List FileStep} {t : FileTree} (before : Before s files old made t) {step : FileStep}
    (other : step ≠ install s) : Before s files old (made ++ [step]) t :=
  ⟨by simp [before.notYet, other.symm], before.clean, before.survives⟩

section Staging

theorem stagingRemoved : Script.Ensures (Before s files old) (Script.perform (.removeAll s.place.staging))
    (Either s files old) fun _ => Before s files old := by
  refine Script.ensuresPerform (fun _ _ => .inl) (fun _ _ _ => .inl) ?_ ?_
  · intro made t u before change
    obtain ⟨left, only⟩ := Slots.removed s.stagingKnown change
    have gone : s.here s.staging u = [] := by
      rcases before.clean with none | ⟨x, one, _⟩
      · rw [left, none]; rfl
      · rw [left, one]; rfl
    have kept : Before s files old made u := ⟨before.notYet, .inl gone, before.survives.elsewhere only⟩
    exact kept.next (by simp [install])
  · intro made t u before partly
    rcases Slots.removedPartly s.stagingKnown partly with rfl | ⟨only, entries, left, remnants, stood, stands⟩
    · exact before
    · refine ⟨before.notYet, ?_, before.survives.elsewhere only⟩
      rcases before.clean with none | ⟨x, one, staged⟩
      · rw [none] at stood; cases stood
      · rw [one] at stood stands
        cases stood
        obtain ⟨_, same, distinct, known⟩ := staged
        cases same
        have names := remnantNames remnants
        exact .inr ⟨_, stands, left, rfl, distinct.sublist names, fun _ member => known (names.subset member)⟩

theorem stagingMade : Script.Ensures (Before s files old) (Script.perform (.makeAll s.place.staging))
    (Either s files old) fun _ => Before s files old := by
  have grown {made : List FileStep} {t : FileTree} (before : Before s files old made t) {p : Path}
      (whole : p <+: s.written ++ [s.staging]) :
      Before s files old made (t.makeAll p).2 := by
    obtain ⟨stands, only⟩ := Slots.grown (t := t) s.stagingKnown whole
    refine ⟨before.notYet, ?_, before.survives.elsewhere only⟩
    rcases stands with same | ⟨_, new⟩
    · unfold Clean
      rw [same]
      exact before.clean
    · exact .inr ⟨_, new, [], rfl, by simp, by simp⟩
  refine Script.ensuresPerform (fun _ _ => .inl) (fun _ _ _ => .inl) ?_ ?_
  · intro made t u before change
    have tree : (t.makeAll s.place.staging).2 = u := congrArg Prod.snd change
    rw [← tree]
    exact (grown before List.prefix_rfl).next (by simp [install])
  · intro made t u before partly
    cases partly with
    | untouched => exact before
    | made some => exact grown before some

theorem Before.write {made : List FileStep} {t u : FileTree} {name : String} {bytes : List UInt8}
    (before : Before s files old made t) (known : name ∈ files.map (·.1))
    (ok : t.set? (some (.file bytes)) (s.around ++ s.staging :: [name]) = some u) : Before s files old made u := by
  refine ⟨before.notYet, ?_, before.survives.elsewhere (Slots.onlyAtSet ok)⟩
  obtain ⟨entries, stood, stands⟩ := Slots.writtenBelow ok
  rcases before.clean with none | ⟨x, one, staged⟩
  · rw [none] at stood; cases stood
  · rw [one] at stood stands
    cases stood
    obtain ⟨_, same, distinct, inside⟩ := staged
    cases same
    refine .inr ⟨_, stands, _, rfl, ?_⟩
    rw [FileTree.setNames]
    split
    · exact ⟨distinct, inside⟩
    · rename_i new
      refine ⟨?_, by simp [inside, known]⟩
      rw [← List.concat_eq_append]
      exact distinct.concat new

theorem stagingChild (file : String) : Path.child s.place.staging file = s.written ++ [s.staging] ++ [file] := by
  have last : s.place.staging.getLast? = some s.staging := by simp [Slots.place]
  have named := s.named s.staging s.stagingKnown
  rw [Path.child, Path.below, last, if_neg (by simpa using named.1)]
  rfl

theorem fileWritten {f : String × String} {written : List (String × String)} (known : f ∈ files) (named : Names f.1)
    (fresh : f.1 ∉ written.map (·.1)) : Script.Ensures (Wrote s files old written)
      (Script.perform (.write (Path.child s.place.staging f.1) f.2.toUTF8.toList)) (Either s files old)
      fun answer made t => if answer then Wrote s files old (written ++ [f]) made t else Before s files old made t := by
  have inside : f.1 ∈ files.map (·.1) := List.mem_map_of_mem known
  rw [stagingChild]
  refine Script.ensuresPerform (fun _ _ wrote => .inl wrote.before) ?_ ?_ ?_
  · intro answer made t settled
    cases answer with
    | false => exact .inl settled
    | true => exact .inl settled.before
  · intro made t u wrote change
    rcases Slots.wrote s.stagingKnown named change with ⟨no, _⟩ | ok
    · cases no
    · have before := wrote.before.write inside ok
      refine ⟨before.next (by simp [install]), fun g member => ?_⟩
      rcases List.mem_append.mp member with earlier | own
      · have different : g.1 ≠ f.1 := fun same => fresh (same ▸ List.mem_map_of_mem earlier)
        rw [FileTree.getApart ok, wrote.each g earlier]
        · simpa [List.prefix_append_right_inj] using different.symm
        · simpa [List.prefix_append_right_inj] using different
      · rw [List.mem_singleton.mp own]
        exact FileTree.getSet ok
  · intro made t u wrote partly
    cases partly with
    | untouched => exact wrote.before
    | @written _ _ first some =>
      cases write : t.write (s.written ++ [s.staging] ++ [f.1]) first with
      | mk answer u =>
        rcases Slots.wrote s.stagingKnown named write with ⟨_, rfl⟩ | ok
        · exact wrote.before
        · exact wrote.before.write inside ok

theorem ensuresAndThen {step : FileStep} {rest : Script Bool} {before stopped : Script.Assertion}
    {between after : Bool → Script.Assertion} (first : Script.Ensures before (Script.perform step) stopped between)
    (onward : Script.Ensures (between true) rest stopped after) (stops : ∀ made t, between false made t → stopped made t)
    (refused : ∀ made t, between false made t → after false made t) :
    Script.Ensures before (andThen step rest) stopped after := by
  refine Script.ensuresBind first fun answer => ?_
  cases answer with
  | true => exact onward
  | false => exact Script.ensuresDone stops refused

/- The induction is on the files that are left to write. -/
theorem filesWritten (named : ∀ f ∈ files, Names f.1) (distinct : (files.map (·.1)).Nodup) {written rest : List (String × String)}
    (all : files = written ++ rest) : Script.Ensures (Wrote s files old written) (writeFiles s.place.staging rest)
      (Either s files old) fun answer made t =>
        if answer then Wrote s files old files made t else Before s files old made t := by
  induction rest generalizing written with
  | nil =>
    rw [List.append_nil] at all
    exact Script.ensuresDone (fun _ _ wrote => .inl wrote.before) fun made t wrote => all ▸ wrote
  | cons f rest ih =>
    have known : f ∈ files := by simp [all]
    have fresh : f.1 ∉ written.map (·.1) := by
      rw [all, List.map_append, List.map_cons] at distinct
      intro twice
      exact (List.nodup_append.mp distinct).2.2 f.1 twice f.1 List.mem_cons_self rfl
    refine ensuresAndThen (fileWritten known (named f known) fresh) (ih (by simp [all])) ?_ ?_
    · exact fun _ _ before => .inl before
    · exact fun _ _ before => before

theorem Wrote.ready (some : files ≠ []) (distinct : (files.map (·.1)).Nodup) {made : List FileStep} {t : FileTree}
    (wrote : Wrote s files old files made t) : Ready s files old made t := by
  have child (f : String × String) (member : f ∈ files) :
      (s.here s.staging t).head?.bind (FileTree.get? [f.1]) = .some (.file f.2.toUTF8.toList) := by
    have stands := wrote.each f member
    rwa [show s.around ++ s.staging :: [f.1] = s.around ++ [s.staging] ++ [f.1] by simp, FileTree.getAppend,
      FileTree.getStanding] at stands
  refine ⟨wrote.before, ?_⟩
  rcases wrote.before.clean with none | ⟨x, one, entries, rfl, names, known⟩
  · obtain ⟨f, rest, rfl⟩ := List.exists_cons_of_ne_nil some
    have stands := child f List.mem_cons_self
    rw [none] at stands
    cases stands
  · refine ⟨_, completeOfChildren distinct names known fun f member => ?_, one⟩
    have stands : (FileTree.child? f.1 entries).bind (FileTree.get? []) = .some (.file f.2.toUTF8.toList) := by
      have below := child f member
      rwa [one] at below
    obtain ⟨x, found, same⟩ := Option.bind_eq_some_iff.mp stands
    rw [found]
    exact same

theorem staged (some : files ≠ []) (named : ∀ f ∈ files, Names f.1) (distinct : (files.map (·.1)).Nodup) :
    Script.Ensures (Before s files old) (stage s.place.staging files) (Either s files old)
      fun answer made t => if answer then Ready s files old made t else Before s files old made t := by
  have fill : Script.Ensures (Before s files old)
      (andThen (.makeAll s.place.staging) (writeFiles s.place.staging files)) (Either s files old)
      fun answer made t => if answer then Ready s files old made t else Before s files old made t := by
    refine ensuresAndThen stagingMade ?_ (fun _ _ => .inl) fun _ _ before => before
    refine Script.ensuresStronger (Script.ensuresWeaker (filesWritten named distinct (List.nil_append files).symm) ?_) ?_
    · intro answer made t settled
      cases answer with
      | false => exact settled
      | true => exact settled.ready some distinct
    · exact fun made t before => ⟨before, by simp⟩
  refine Script.ensuresBind (Script.ensuresIsThere fun _ _ => .inl) fun answer => ?_
  cases answer with
  | true =>
    refine Script.ensuresStronger ?_ fun _ _ both => both.1
    exact ensuresAndThen stagingRemoved fill (fun _ _ => .inl) fun _ _ before => before
  | false => exact Script.ensuresStronger fill fun _ _ both => both.1

end Staging

section Swap

theorem Ready.next {made : List FileStep} {t : FileTree} (ready : Ready s files old made t) {step : FileStep}
    (other : step ≠ install s) : Ready s files old (made ++ [step]) t :=
  ⟨ready.before.next other, ready.staged⟩

theorem Ready.kept {made : List FileStep} {t u : FileTree} (ready : Ready s files old made t)
    (staging : s.here s.staging u = s.here s.staging t) (survives : Survives s old u) : Ready s files old made u := by
  refine ⟨⟨ready.before.notYet, ?_, survives⟩, staging ▸ ready.staged⟩
  unfold Clean
  rw [staging]
  exact ready.before.clean

theorem asideRemoved {t u : FileTree} (one : (s.here s.aside t).length ≤ 1) :
    ((FileStep.removeAll s.place.aside).apply t = (true, u) → (s.here s.aside u).length ≤ 1 ∧ s.OnlyAt s.aside t u) ∧
    ((FileStep.removeAll s.place.aside).Partly t u → (s.here s.aside u).length ≤ 1 ∧ s.OnlyAt s.aside t u) := by
  constructor
  · intro change
    obtain ⟨left, only⟩ := Slots.removed s.asideKnown change
    refine ⟨?_, only⟩
    rw [left, List.length_tail]
    omega
  · intro partly
    rcases Slots.removedPartly s.asideKnown partly with rfl | ⟨only, entries, left, _, stood, stands⟩
    · exact ⟨one, fun _ _ _ => rfl⟩
    · refine ⟨?_, only⟩
      rw [stands, List.length_cons, List.length_tail]
      omega

theorem Installed.asideGone {made : List FileStep} (more : List FileStep) {t u : FileTree} (installed : Installed s files made t)
    (gone : (s.here s.aside u).length ≤ 1 ∧ s.OnlyAt s.aside t u) : Installed s files (made ++ more) u := by
  refine ⟨List.mem_append_left _ installed.done, ?_, ?_, gone.1⟩
  · unfold Clean
    rw [gone.2 s.staging s.stagingKnown s.stagingAside]
    exact installed.clean
  · rw [gone.2 s.target s.targetKnown s.targetAside]
    exact installed.target

theorem asideDropped : Script.Ensures (Installed s files) (Script.perform (.removeAll s.place.aside)) (Either s files old)
    fun _ => Installed s files := by
  refine Script.ensuresPerform (fun _ _ => .inr) (fun _ _ _ => .inr) ?_ ?_
  · intro made t u installed change
    exact installed.asideGone [_] ((asideRemoved installed.aside).1 change)
  · intro made t u installed partly
    simpa using installed.asideGone [] ((asideRemoved installed.aside).2 partly)

theorem asideCleared : Script.Ensures (fun made t => Ready s files old made t ∧ t.exists? s.place.target)
    (Script.perform (.removeAll s.place.aside)) (Either s files old) fun _ => Ready s files old := by
  have there {t : FileTree} (exists? : t.exists? s.place.target) : s.here s.target t ≠ [] := by
    obtain ⟨x, found⟩ := Option.isSome_iff_exists.mp exists?
    obtain ⟨q, resolved, stands⟩ := Option.bind_eq_some_iff.mp found
    have at? : q = s.around ++ [s.target] := (FileTree.resolved resolved).trans (s.placeHere s.targetKnown)
    rw [at?, FileTree.getStanding] at stands
    intro none
    rw [show t.standing s.around s.target = [] from none] at stands
    cases stands
  have cleared {made : List FileStep} {t u : FileTree} (ready : Ready s files old made t) (exists? : t.exists? s.place.target)
      (gone : (s.here s.aside u).length ≤ 1 ∧ s.OnlyAt s.aside t u) : Ready s files old made u := by
    refine ready.kept (gone.2 s.staging s.stagingKnown s.stagingAside) ?_
    have target := gone.2 s.target s.targetKnown s.targetAside
    have held := ready.before.survives
    cases held with
    | nothing none => exact absurd none (there exists?)
    | inPlace stands => exact .inPlace (target.trans stands) gone.1
    | setAside none => exact absurd none (there exists?)
  refine Script.ensuresPerform (fun _ _ both => .inl both.1.before) (fun _ _ _ ready => .inl ready.before) ?_ ?_
  · rintro made t u ⟨ready, exists?⟩ change
    exact (cleared ready exists? ((asideRemoved ready.before.survives.asideOne).1 change)).next (by simp [install])
  · rintro made t u ⟨ready, exists?⟩ partly
    exact cleared ready exists? ((asideRemoved ready.before.survives.asideOne).2 partly)

theorem renameFails {step : FileStep} {p q : Path} (rename : step = .rename p q) {made : List FileStep} {t u : FileTree}
    (ready : Ready s files old made t) (partly : step.Partly t u) : Ready s files old made u := by
  subst rename
  rw [Slots.renamedPartly partly]
  exact ready

variable (filled : ∀ x ∈ old, Filled x)
include filled

/- What was set aside comes back; where something stands in its place, the rename is refused. -/
theorem restored : Script.Ensures (Ready s files old) (Script.perform (.rename s.place.aside s.place.target))
    (Either s files old) fun _ => Ready s files old := by
  refine Script.ensuresPerform (fun _ _ ready => .inl ready.before) (fun _ _ _ ready => .inl ready.before) ?_
    fun _ _ _ ready partly => renameFails rfl ready partly
  intro made t u ready change
  obtain ⟨moved, stood, allowed, aside, target, others⟩ := Slots.renamed s.asideKnown s.targetKnown s.targetAside.symm change
  have staging := others s.staging s.stagingKnown s.stagingAside s.targetStaging.symm
  refine (ready.kept staging ?_).next (by simp [install, Slots.place, s.stagingAside.symm])
  have held := ready.before.survives
  have free := held.free filled allowed
  cases held with
  | nothing _ none => rw [none] at stood; cases stood
  | inPlace stands => rw [stands] at free; cases free
  | setAside _ stands =>
    rw [stands] at stood aside
    rw [free] at target
    cases stood
    exact .inPlace target (by simp [aside])

theorem putAside : Script.Ensures (Ready s files old) (Script.perform (.rename s.place.target s.place.aside))
    (Either s files old) fun _ => Ready s files old := by
  refine Script.ensuresPerform (fun _ _ ready => .inl ready.before) (fun _ _ _ ready => .inl ready.before) ?_
    fun _ _ _ ready partly => renameFails rfl ready partly
  intro made t u ready change
  obtain ⟨moved, stood, allowed, target, aside, others⟩ := Slots.renamed s.targetKnown s.asideKnown s.targetAside change
  have staging := others s.staging s.stagingKnown s.targetStaging.symm s.stagingAside
  refine (ready.kept staging ?_).next (by simp [install, Slots.place, s.targetStaging])
  have held := ready.before.survives
  cases held with
  | nothing none => rw [none] at stood; cases stood
  | inPlace stands one =>
    rw [stands] at stood target
    cases stood
    have rest : (s.here s.aside t).tail = [] := List.length_eq_zero_iff.mp (by rw [List.length_tail]; omega)
    rw [rest] at aside
    exact .setAside target aside
  | setAside none => rw [none] at stood; cases stood

theorem installs : Script.Ensures (Ready s files old) (Script.perform (install s)) (Either s files old)
    fun answer made t => if answer then Installed s files made t else Ready s files old made t := by
  refine Script.ensuresPerform (fun _ _ ready => .inl ready.before) ?_ ?_ fun _ _ _ ready partly => renameFails rfl ready partly
  · intro answer made t settled
    cases answer with
    | false => exact .inl settled.before
    | true => exact .inr settled
  · intro made t u ready change
    obtain ⟨moved, stood, allowed, staging, target, others⟩ :=
      Slots.renamed s.stagingKnown s.targetKnown s.targetStaging.symm change
    obtain ⟨x, complete, one⟩ := ready.staged
    rw [one] at stood staging
    cases stood
    rw [ready.before.survives.free filled allowed] at target
    refine ⟨by simp, .inl staging, ⟨moved, complete, target⟩, ?_⟩
    rw [others s.aside s.asideKnown s.stagingAside.symm s.targetAside.symm]
    exact ready.before.survives.asideOne

theorem recovers : Script.Ensures (Ready s files old) (recover s.place) (Either s files old)
    fun _ => Ready s files old := by
  refine Script.ensuresBind (Script.ensuresIsThere fun _ _ ready => .inl ready.before) fun aside => ?_
  cases aside with
  | false => exact Script.ensuresDone (fun _ _ both => .inl both.1.before) fun _ _ both => both.1
  | true =>
    refine Script.ensuresBind (Script.ensuresIsThere fun _ _ both => .inl both.1.before) fun target => ?_
    cases target with
    | true => exact Script.ensuresStronger asideCleared fun _ _ both => ⟨both.1.1, both.2 rfl⟩
    | false => exact Script.ensuresStronger (restored filled) fun _ _ both => both.1.1

theorem replaces : Script.Ensures (Ready s files old) (replace s.place) (Either s files old)
    fun answer made t => if answer then Installed s files made t else Before s files old made t := by
  refine ensuresAndThen (putAside filled) ?_ (fun _ _ ready => .inl ready.before) fun _ _ ready => ready.before
  refine Script.ensuresBind (installs filled) fun answer => ?_
  cases answer with
  | true => exact Script.ensuresBind asideDropped fun _ => Script.ensuresDone (fun _ _ => .inr) fun _ _ installed => installed
  | false =>
    exact Script.ensuresBind (restored filled) fun _ =>
      Script.ensuresDone (fun _ _ ready => .inl ready.before) fun _ _ ready => ready.before

theorem putsInPlace : Script.Ensures (Ready s files old) (putInPlace s.place) (Either s files old)
    fun answer made t => if answer then Installed s files made t else Before s files old made t := by
  refine Script.ensuresBind (recovers filled) fun recovered => ?_
  cases recovered with
  | false => exact Script.ensuresDone (fun _ _ ready => .inl ready.before) fun _ _ ready => ready.before
  | true =>
    refine Script.ensuresBind (Script.ensuresIsThere fun _ _ ready => .inl ready.before) fun target => ?_
    cases target with
    | true => exact Script.ensuresStronger (replaces filled) fun _ _ both => both.1
    | false =>
      refine Script.ensuresStronger (Script.ensuresWeaker (installs filled) ?_) fun _ _ both => both.1
      intro answer made t settled
      cases answer with
      | true => exact settled
      | false => exact settled.before

end Swap

theorem publishes (some : files ≠ []) (named : ∀ f ∈ files, Names f.1) (distinct : (files.map (·.1)).Nodup)
    (filled : ∀ x ∈ old, Filled x) : Script.Ensures (Before s files old) (publish s.place files) (Either s files old)
      fun answer made t => if answer then Installed s files made t else Before s files old made t := by
  have finish (published : Bool) : Script.Ensures
      (fun made t => if published then Installed s files made t else Before s files old made t)
      (if published then pure true else Script.perform (.removeAll s.place.staging) >>= fun _ => pure false)
      (Either s files old) fun answer made t =>
        if answer then Installed s files made t else Before s files old made t := by
    cases published with
    | true => exact Script.ensuresDone (fun _ _ => .inr) fun _ _ installed => installed
    | false => exact Script.ensuresBind stagingRemoved fun _ => Script.ensuresDone (fun _ _ => .inl) fun _ _ before => before
  refine Script.ensuresBind (staged some named distinct) fun ready => ?_
  cases ready with
  | true => exact Script.ensuresBind (putsInPlace filled) finish
  | false => exact Script.ensuresBind (Script.ensuresDone (fun _ _ => .inl) fun _ _ before => before) finish

end Call

end TransitTimeline.Publication
