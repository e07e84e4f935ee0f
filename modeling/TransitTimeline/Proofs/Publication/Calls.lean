import TransitTimeline.Proofs.Publication.Swap

/-! Calls of publishing for one date, one after the other, each of which may fail or stop anywhere. The target is never
seen in part, and the last directory that was put in place is never lost. -/
namespace TransitTimeline.Publication
open FileTree (Names placeOf)

def standsAt (p : Path) (t : FileTree) : Option FileTree := t.get? (placeOf p)

def Place.all (p : Place) : List Path := [p.target, p.staging, p.aside]

def Absent (p : Place) (t : FileTree) : Prop := ∀ q ∈ p.all, standsAt q t = none

section Place
variable {directory : Path} {date : Day}

def wayTo (directory : Path) : Path := if directory.getLast? = some "" then directory.dropLast else directory

theorem childWay (directory : Path) (name : String) : directory.child name = wayTo directory ++ [name] := by
  unfold Path.child Path.below wayTo
  split <;> rfl

theorem wayPrefix (directory : Path) : wayTo directory <+: directory := by
  unfold wayTo
  split
  · exact List.dropLast_prefix directory
  · exact List.prefix_rfl

def Clear (directory : Path) (date : Day) : Prop :=
  ∀ r, r <+: wayTo directory → r ≠ [] → ∀ q ∈ (Place.of directory date).all, ¬placeOf q <+: placeOf r

def entryNames (date : Day) : List String :=
  [targetName date, "." ++ targetName date ++ ".tmp", "." ++ targetName date ++ ".old"]

theorem namesOfLength {name : String} (long : 2 < name.length) : Names name := by
  refine ⟨?_, ?_, ?_⟩ <;>
    · rintro rfl
      exact absurd long (by decide)

theorem targetLong (date : Day) : 2 < (targetName date).length := by
  have first : "service_date=".length = 13 := by decide
  rw [targetName, String.length_append, first]
  omega

theorem entriesNamed (date : Day) : ∀ n ∈ entryNames date, Names n := by
  have long := targetLong date
  intro n member
  refine namesOfLength ?_
  rcases List.mem_cons.mp member with rfl | member
  · exact long
  · rcases List.mem_pair.mp member with rfl | rfl <;>
      · rw [String.length_append, String.length_append]
        omega

theorem entriesDistinct (date : Day) : (entryNames date).Nodup := by
  have length (last : String) : ("." ++ targetName date ++ last).length = 1 + (targetName date).length + last.length := by
    rw [String.length_append, String.length_append]
    rfl
  have longer {last : String} : targetName date ≠ "." ++ targetName date ++ last := fun same => by
    have lengths := congrArg String.length same
    rw [length] at lengths
    omega
  have differ : "." ++ targetName date ++ ".tmp" ≠ "." ++ targetName date ++ ".old" := fun same => by
    have lists := congrArg String.toList same
    simp only [String.toList_append] at lists
    exact absurd (List.append_cancel_left lists) (by decide)
  simp [entryNames, longer, differ]

theorem allNamed {q : Path} (own : q ∈ (Place.of directory date).all) :
    ∃ n ∈ entryNames date, placeOf q = placeOf (wayTo directory) ++ [n] := by
  obtain ⟨n, known, rfl⟩ := List.mem_map.mp (show q ∈ (entryNames date).map directory.child from own)
  rw [childWay]
  exact ⟨n, known, FileTree.placeOfName (entriesNamed date n known)⟩

theorem Clear.apart (clear : Clear directory date) {r : Path} (inside : r <+: wayTo directory) (filled : r ≠ [])
    {n : String} (known : n ∈ entryNames date) : ¬placeOf (wayTo directory) ++ [n] <+: placeOf r := by
  have own : directory.child n ∈ (Place.of directory date).all := List.mem_map_of_mem known
  rw [← FileTree.placeOfName (entriesNamed date n known), ← childWay]
  exact clear r inside filled _ own

def Slots.of (directory : Path) (date : Day) (clear : Clear directory date) : Slots where
  written := wayTo directory
  target := targetName date
  staging := "." ++ targetName date ++ ".tmp"
  aside := "." ++ targetName date ++ ".old"
  named := entriesNamed date
  distinct := entriesDistinct date
  clear := fun _ inside filled _ known => clear.apart inside filled known

theorem Slots.placeOfDate (directory : Path) (date : Day) (clear : Clear directory date) :
    (Slots.of directory date clear).place = Place.of directory date := by
  unfold Place.of
  rw [childWay, childWay, childWay]
  rfl

end Place

section Clear
variable {directory : Path} {date : Day}

theorem forwardPlace (here : Path) {p : Path} (forward : ".." ∉ p) : here <+: FileTree.placeFrom here p := by
  induction p generalizing here with
  | nil => exact List.prefix_rfl
  | cons piece rest ih =>
    rw [List.mem_cons, not_or] at forward
    rw [FileTree.placeFrom]
    split
    · exact ih here forward.2
    · rw [if_neg (Ne.symm forward.1)]
      exact (List.prefix_append here [piece]).trans (ih _ forward.2)

theorem placeOfSplit {r rest : Path} (filled : r ≠ []) : placeOf (r ++ rest) = FileTree.placeFrom (placeOf r) rest := by
  obtain ⟨piece, pieces, rfl⟩ := List.exists_cons_of_ne_nil filled
  by_cases absolute : piece = ""
  · subst absolute
    exact FileTree.placeFromAppend FileTree.outermost pieces rest
  · rw [List.cons_append, placeOf, placeOf]
    · exact FileTree.placeFromAppend [] (piece :: pieces) rest
    · exact fun _ same => absolute (List.cons.inj same).1
    · exact fun _ same => absolute (List.cons.inj same).1

theorem clearForward (forward : ".." ∉ directory) : Clear directory date := by
  rintro r ⟨rest, all⟩ filled q own inside
  have onward := forwardPlace (placeOf r) fun back =>
    forward ((wayPrefix directory).subset (all ▸ List.mem_append_right r back))
  rw [← placeOfSplit filled, all] at onward
  obtain ⟨n, _, place⟩ := allNamed own
  have shorter := (inside.trans onward).length_le
  rw [place, List.length_append, List.length_singleton] at shorter
  omega

theorem standsAbove {t : FileTree} {q : Path} {name : String} (some : (t.get? (q ++ [name])).isSome) : (t.get? q).isSome := by
  rw [FileTree.getAppend] at some
  cases known : t.get? q with
  | none => rw [known] at some; cases some
  | some x => rfl

theorem standsDirectory {t : FileTree} {q : Path} (there : t.isDirectoryAt q) : (t.get? q).isSome := by
  unfold FileTree.isDirectoryAt at there
  cases known : t.get? q with
  | none => simp [known] at there
  | some x => rfl

theorem directoriesOnWay {t : FileTree} {here p q : Path} (found : t.resolveFrom here p = some q)
    (there : t.isDirectoryAt q) : ∀ r, r <+: p → (t.get? (FileTree.placeFrom here r)).isSome := by
  induction p generalizing here with
  | nil =>
    have same : here = q := Option.some.inj found
    intro r inside
    rw [List.prefix_nil.mp inside, FileTree.placeFrom, same]
    exact standsDirectory there
  | cons piece rest ih =>
    have step {next : Path} (found : t.resolveFrom next rest = some q) (one : FileTree.placeFrom here [piece] = next)
        (start : (t.get? next).isSome → (t.get? here).isSome) :
        ∀ r, r <+: piece :: rest → (t.get? (FileTree.placeFrom here r)).isSome := by
      intro r inside
      cases r with
      | nil => exact start (ih found [] List.nil_prefix)
      | cons first r =>
        obtain ⟨same, further⟩ := List.cons_prefix_cons.mp inside
        rw [same, show piece :: r = [piece] ++ r from rfl, FileTree.placeFromAppend, one]
        exact ih found r further
    rw [FileTree.resolveFrom] at found
    split at found
    · rename_i stays
      split at found
      · rename_i there
        exact step found (by simp [FileTree.placeFrom, stays]) fun _ => standsDirectory there
      · cases found
    · rename_i moves
      split at found
      · rename_i back
        split at found
        · rename_i there
          exact step found (by simp [FileTree.placeFrom, back]) fun _ => standsDirectory there
        · cases found
      · rename_i forth
        split at found
        · exact step found (by simp [FileTree.placeFrom, moves, forth]) standsAbove
        · cases found

theorem clearThere {t : FileTree} {q : Path} (found : t.resolve directory = some q) (there : t.isDirectoryAt q)
    (absent : Absent (.of directory date) t) : Clear directory date := by
  have onWay : ∀ r, r <+: directory → r ≠ [] → (t.get? (placeOf r)).isSome := by
    intro r inside filled
    unfold FileTree.resolve at found
    split at found
    · cases found
    · split at found
      · obtain ⟨piece, pieces, rfl⟩ := List.exists_cons_of_ne_nil filled
        obtain ⟨rfl, further⟩ := List.cons_prefix_cons.mp inside
        exact directoriesOnWay found there pieces further
      · rename_i relative
        have same : placeOf r = FileTree.placeFrom [] r := by
          rw [placeOf]
          rintro rest rfl
          obtain ⟨behind, rfl⟩ := inside
          exact relative _ rfl
        rw [same]
        exact directoriesOnWay found there r inside
  rintro r inside filled q own ⟨rest, through⟩
  have stands := onWay r (inside.trans (wayPrefix directory)) filled
  rw [← through, FileTree.getAppend, show t.get? (placeOf q) = none from absent q own] at stands
  cases stands

end Clear

structure Call where
  report : Report
  made : List FileStep
  answer : Option (Except Failure String)

inductive History (directory : String) (date : Day) (start : FileTree) : List Call → FileTree → Prop where
  | begun : History directory date start [] start
  | call {calls : List Call} {now next : FileTree} (earlier : History directory date start calls now) (c : Call)
      (dated : c.report.summary.date = date)
      (leads : (publishReport directory c.report).Leads now c.made c.answer next) :
      History directory date start (calls ++ [c]) next

def latest? (p : Place) (calls : List Call) : Option Report :=
  (calls.reverse.find? fun c => .rename p.staging p.target ∈ c.made).map (·.report)

theorem latestNext (p : Place) (calls : List Call) (c : Call) : latest? p (calls ++ [c]) =
    if .rename p.staging p.target ∈ c.made then some c.report else latest? p calls := by
  rw [latest?, List.reverse_append, List.reverse_singleton, List.singleton_append, List.find?_cons]
  by_cases made : FileStep.rename p.staging p.target ∈ c.made <;> simp [made, latest?]

/- The publication that a reader can go back to: the target, or what is set aside while there is no target. -/
def survivor (p : Place) (t : FileTree) : Option FileTree := (standsAt p.target t).or (standsAt p.aside t)

def placeIn (directory : String) (date : Day) : Place := .of (Path.ofText directory) date

structure Kept (directory : String) (date : Day) (calls : List Call) (now : FileTree) : Prop where
  whole : ∀ x ∈ standsAt (placeIn directory date).target now,
    ∃ r ∈ latest? (placeIn directory date) calls, Complete r.files x
  survives : ∀ r ∈ latest? (placeIn directory date) calls, ∃ x, Complete r.files x ∧
    (standsAt (placeIn directory date).target now = some x ∨
      standsAt (placeIn directory date).target now = none ∧ standsAt (placeIn directory date).aside now = some x)
  refused : ∀ r made failure next, r.summary.date = date →
    (publishReport directory r).Leads now made (some (.error failure)) next →
    survivor (placeIn directory date) next = survivor (placeIn directory date) now
  accepted : ∀ r made path next, r.summary.date = date →
    (publishReport directory r).Leads now made (some (.ok path)) next →
    ∃ x, standsAt (placeIn directory date).target next = some x ∧ Complete r.files x

section Report
variable (r : Report)

def fileNames : List String := ["bus_performance_metrics.csv", "rejected_rows.jsonl", "summary.json"]

theorem filesNamed : r.files.map (·.1) = fileNames := rfl

theorem filesSome : r.files ≠ [] := List.cons_ne_nil _ _

theorem fileNamed : ∀ f ∈ r.files, Names f.1 := by
  intro f member
  have known : f.1 ∈ fileNames := filesNamed r ▸ List.mem_map_of_mem member
  revert known
  generalize f.1 = name
  unfold fileNames Names
  intro known
  rcases List.mem_cons.mp known with rfl | known
  · decide
  · rcases List.mem_pair.mp known with rfl | rfl <;> decide

theorem filesDistinct : (r.files.map (·.1)).Nodup := by
  rw [filesNamed]
  decide

end Report

section Course
variable {directory : String} {date : Day} {s : Slots} {old : Option FileTree}

theorem stands {s : Slots} {name : String} (known : name ∈ s.names) (t : FileTree) :
    standsAt (s.written ++ [name]) t = (s.here name t).head? := by
  rw [standsAt, s.placeHere known, FileTree.getStanding]
  rfl

theorem standsTarget (s : Slots) (t : FileTree) : standsAt s.place.target t = (s.here s.target t).head? :=
  stands s.targetKnown t

theorem standsAside (s : Slots) (t : FileTree) : standsAt s.place.aside t = (s.here s.aside t).head? :=
  stands s.asideKnown t

theorem Survives.survivor {t : FileTree} (survives : Survives s old t) : survivor s.place t = old := by
  unfold Publication.survivor
  rw [standsTarget, standsAside]
  cases survives with
  | nothing target aside => rw [target, aside]; rfl
  | inPlace target => rw [target]; rfl
  | setAside target aside => rw [target, aside]; rfl

theorem published (place : s.place = placeIn directory date) (filled : ∀ x ∈ old, Filled x) (r : Report)
    (dated : r.summary.date = date) : Script.Ensures (Before s r.files old) (publishReport directory r) (Either s r.files old)
      fun answer made t => match answer with
        | .ok _ => Installed s r.files made t
        | .error _ => Before s r.files old made t := by
  unfold publishReport
  dsimp only
  rw [dated, show Place.of (Path.ofText directory) date = s.place from place.symm]
  refine Script.ensuresBind (publishes (filesSome r) (fileNamed r) (filesDistinct r) filled) fun answer => ?_
  cases answer with
  | true => exact Script.ensuresDone (fun _ _ => .inr) fun _ _ installed => installed
  | false => exact Script.ensuresDone (fun _ _ => .inl) fun _ _ before => before

structure Holds (s : Slots) (latest : Option Report) (old : Option FileTree) (t : FileTree) : Prop where
  clean : Clean s fileNames t
  survives : Survives s old t
  nothing : latest = none → old = none
  complete : ∀ r ∈ latest, ∃ x ∈ old, Complete r.files x

theorem Holds.filled {latest : Option Report} {t : FileTree} (holds : Holds s latest old t) : ∀ x ∈ old, Filled x := by
  intro x own
  cases latest with
  | none => rw [holds.nothing rfl] at own; cases own
  | some r =>
    obtain ⟨y, same, complete⟩ := holds.complete r rfl
    cases Option.some.inj (own.symm.trans same)
    exact completeFilled (filesSome r) complete

theorem Holds.before {latest : Option Report} {t : FileTree} (holds : Holds s latest old t) (r : Report) :
    Before s r.files old [] t :=
  ⟨by simp, holds.clean, holds.survives⟩

theorem Holds.next {latest : Option Report} {t u : FileTree} (holds : Holds s latest old t) {r : Report}
    {made : List FileStep} (either : Either s r.files old made u) :
    ∃ now, Holds s (if install s ∈ made then some r else latest) now u := by
  rcases either with before | installed
  · rw [if_neg before.notYet]
    exact ⟨old, before.clean, before.survives, holds.nothing, holds.complete⟩
  · obtain ⟨x, complete, target⟩ := installed.target
    rw [if_pos installed.done]
    refine ⟨some x, installed.clean, .inPlace target installed.aside, by simp, ?_⟩
    rintro _ ⟨⟩
    exact ⟨x, rfl, complete⟩

theorem eitherAfter (place : s.place = placeIn directory date) {latest : Option Report} {t u : FileTree}
    (holds : Holds s latest old t) {r : Report} (dated : r.summary.date = date) {made : List FileStep}
    {answer : Option (Except Failure String)} (leads : (publishReport directory r).Leads t made answer u) :
    Either s r.files old made u := by
  have course := published place holds.filled r dated [] t made answer u (holds.before r) leads
  rw [List.nil_append] at course
  cases answer with
  | none => exact course.1 rfl
  | some result =>
    have settled := course.2 result rfl
    cases result with
    | ok path => exact .inr settled
    | error failure => exact .inl settled

/- The induction is on the calls; each of them hands on what survives. -/
theorem historyHolds (place : s.place = placeIn directory date) {start now : FileTree} {calls : List Call}
    (absent : Absent s.place start) (history : History directory date start calls now) :
    ∃ old, Holds s (latest? s.place calls) old now := by
  have nothing {n : String} (known : n ∈ s.names) (own : s.written ++ [n] ∈ s.place.all) : s.here n start = [] :=
    List.head?_eq_none_iff.mp ((stands known start).symm.trans (absent _ own))
  induction history with
  | begun =>
    exact ⟨none, .inl (nothing s.stagingKnown (by simp [Place.all, Slots.place])),
      .nothing (nothing s.targetKnown (by simp [Place.all, Slots.place]))
        (nothing s.asideKnown (by simp [Place.all, Slots.place])), fun _ => rfl, by simp [latest?]⟩
  | call _ c dated leads ih =>
    obtain ⟨old, holds⟩ := ih
    rw [latestNext]
    exact holds.next (eitherAfter place holds dated leads)

variable {latest : Option Report} {now next : FileTree} (holds : Holds s latest old now)
include holds

theorem Holds.whole : ∀ x ∈ standsAt s.place.target now, ∃ r ∈ latest, Complete r.files x := by
  intro x own
  rw [standsTarget] at own
  have survives := holds.survives
  cases survives with
  | nothing target => rw [target] at own; cases own
  | setAside target => rw [target] at own; cases own
  | @inPlace y _ target =>
    rw [target] at own
    cases own
    cases latest with
    | none => cases holds.nothing rfl
    | some r =>
      obtain ⟨_, ⟨⟩, complete⟩ := holds.complete r rfl
      exact ⟨r, rfl, complete⟩

theorem Holds.findable : ∀ r ∈ latest, ∃ x, Complete r.files x ∧ (standsAt s.place.target now = some x ∨
    standsAt s.place.target now = none ∧ standsAt s.place.aside now = some x) := by
  intro r own
  obtain ⟨x, rfl, complete⟩ := holds.complete r own
  refine ⟨x, complete, ?_⟩
  rw [standsTarget, standsAside]
  have survives := holds.survives
  cases survives with
  | inPlace target => exact .inl (by rw [target]; rfl)
  | setAside target aside => exact .inr ⟨by rw [target]; rfl, by rw [aside]; rfl⟩

variable (place : s.place = placeIn directory date) {r : Report} (dated : r.summary.date = date) {made : List FileStep}
include place dated

theorem Holds.refused {failure : Failure} (leads : (publishReport directory r).Leads now made (some (.error failure)) next) :
    survivor s.place next = survivor s.place now := by
  have course := published place holds.filled r dated [] now made _ next (holds.before r) leads
  have before : Before s r.files old ([] ++ made) next := course.2 _ rfl
  rw [before.survives.survivor, holds.survives.survivor]

theorem Holds.accepted {path : String} (leads : (publishReport directory r).Leads now made (some (.ok path)) next) :
    ∃ x, standsAt s.place.target next = some x ∧ Complete r.files x := by
  have course := published place holds.filled r dated [] now made _ next (holds.before r) leads
  have installed : Installed s r.files ([] ++ made) next := course.2 _ rfl
  obtain ⟨x, complete, own⟩ := installed.target
  exact ⟨x, by rw [standsTarget, own]; rfl, complete⟩

end Course

theorem keepsPublications (directory : String) (date : Day) (start now : FileTree) (calls : List Call)
    (clear : Clear (Path.ofText directory) date) (absent : Absent (placeIn directory date) start)
    (history : History directory date start calls now) : Kept directory date calls now := by
  have place : _ = placeIn directory date := Slots.placeOfDate (Path.ofText directory) date clear
  generalize Slots.of (Path.ofText directory) date clear = s at place
  obtain ⟨old, holds⟩ := historyHolds place (place ▸ absent) history
  refine ⟨?_, ?_, ?_, ?_⟩ <;> rw [← place]
  · exact holds.whole
  · exact holds.findable
  · exact fun r made failure next dated leads => holds.refused place dated leads
  · exact fun r made path next dated leads => holds.accepted place dated leads

def noRecords : Report := { summary := { date := ⟨19886⟩ } }

/- The second call is cut off behind its eighth request, with the target set aside. -/
theorem keepsPublicationsCutOff :
    let publishing := publishReport "out" noRecords
    let settled := (publishing.run .empty).2
    let cut := publishing.runFor 8 settled
    Clear (Path.ofText "out") ⟨19886⟩ ∧ Absent (placeIn "out" ⟨19886⟩) .empty ∧
      (standsAt (placeIn "out" ⟨19886⟩).target cut.2.2).isNone ∧ ∃ first,
        let calls : List Call := [⟨noRecords, first, some (.ok "out/service_date=2024-06-12")⟩, ⟨noRecords, cut.1, none⟩]
        History "out" ⟨19886⟩ .empty calls cut.2.2 ∧ Kept "out" ⟨19886⟩ calls cut.2.2 := by
  intro publishing settled cut
  have clear : Clear (Path.ofText "out") ⟨19886⟩ := clearForward (by decide +kernel)
  have absent : Absent (placeIn "out" ⟨19886⟩) .empty := fun q own =>
    Option.isNone_iff_eq_none.mp ((by decide +kernel : ∀ q ∈ (placeIn "out" ⟨19886⟩).all, (standsAt q .empty).isNone) q own)
  have answer : (publishing.run .empty).1 = .ok "out/service_date=2024-06-12" := by decide +kernel
  have unanswered : cut.2.1 = none := by decide +kernel
  obtain ⟨first, once⟩ := Script.leadsRun publishing .empty
  rw [answer] at once
  have again := Script.leadsFor 8 publishing settled
  rw [show (publishing.runFor 8 settled).2.1 = none from unanswered] at again
  have history := (History.begun.call ⟨noRecords, first, _⟩ rfl once).call ⟨noRecords, cut.1, none⟩ rfl again
  exact ⟨clear, absent, by decide +kernel, first, history, keepsPublications _ _ _ _ _ clear absent history⟩

/- On its way to the staging directory the first call makes the directory aside, takes it for an earlier publication and
puts it in place; then the way is gone. -/
theorem publicationEmptyOnOwnWay : ¬∀ (directory : String) (date : Day) (start now : FileTree) (calls : List Call),
    Absent (placeIn directory date) start → History directory date start calls now → Kept directory date calls now := by
  intro keeps
  let directory : String := "w/out/.service_date=2024-06-12.old/.."
  let start : FileTree := .directory [("w", .empty)]
  have absent : Absent (placeIn directory ⟨19886⟩) start := fun q own =>
    Option.isNone_iff_eq_none.mp
      ((by decide +kernel : ∀ q ∈ (placeIn directory ⟨19886⟩).all, (standsAt q start).isNone) q own)
  obtain ⟨made, leads⟩ := Script.leadsRun (publishReport directory noRecords) start
  have kept := keeps directory ⟨19886⟩ start _ _ absent (History.begun.call ⟨noRecords, made, _⟩ rfl leads)
  have empty : (standsAt (placeIn directory ⟨19886⟩).target ((publishReport directory noRecords).run start).2).any
      fun x => FileTree.mayReplace .empty (some x) := by
    decide +kernel
  obtain ⟨x, own, replaced⟩ := (Option.any_eq_true _ _).mp empty
  obtain ⟨r, _, complete⟩ := kept.whole x own
  rw [filledKept (completeFilled (filesSome r) complete)] at replaced
  cases replaced

end TransitTimeline.Publication
