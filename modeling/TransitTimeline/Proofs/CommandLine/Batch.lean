import TransitTimeline.Proofs.CommandLine.Dates

/-! Dates that are worked out and published beside each other. A date reads the inputs, makes the output directory if it is not
there, and then works in its own three directories; so however the dates interleave, each ends as if it were alone. -/
namespace TransitTimeline.CommandLine
open FileTree (Made SameFiles placeOf)
open Publication (Clear Move Place Slot Slots wayTo)
open Script (IfOk)

inductive OutputStep (directory : Path) (dates : List Day) : FileStep → Prop where
  | output : OutputStep directory dates (.makeAll directory)
  | own {date : Day} (known : date ∈ dates) {m : Move} (proper : m.Proper) :
      OutputStep directory dates (m.step (Place.of directory date))

def Settled (directory : Path) (t : FileTree) : Prop := (t.makeAll directory).2 = t

theorem madeAnswer {directory : Path} {t : FileTree} (made : Made directory t) :
    t.makeAll directory = (directory.isUsable, t) := by
  by_cases usable : directory.isUsable
  · rw [FileTree.makeAllMade made usable, usable]
  · rw [FileTree.makeAllUnusable usable, Bool.eq_false_iff.mpr usable]

theorem settledMade {directory : Path} {t : FileTree} (made : Made directory t) : Settled directory t := by
  rw [Settled, madeAnswer made]

structure Batch where
  around : Surroundings
  settings : Settings
  input : String
  output : String
  dates : List Day
  start : FileTree

namespace Batch
variable (b : Batch)

def directory : Path := Path.ofText b.output

def Written : FileTree → Prop := Touched (OutputStep b.directory b.dates) b.start

def outcome (date : Day) : Except Failure Report := ((compute b.around b.settings b.input date).run b.start).1

def alone (date : Day) : Except Failure String × FileTree := (publishDate b.around b.settings b.input b.output date).run b.start

def leaves (date : Day) : Publication.Held := held b.directory date (b.alone date).2

/- A date at work: it goes on reading as on the first tree, or it is publishing and will end as if it were alone. -/
inductive Works (date : Day) (t : FileTree) : Script (Except Failure String) → Prop where
  | reading {c : Script (Except Failure Report)} (quiet : c.Quiet (IfOk fun r => r.summary.date = date))
      (steady : c.Steady b.Written b.start) (comes : (c.run b.start).1 = b.outcome date)
      (untouched : held b.directory date t = held b.directory date b.start) : Works date t (c >>= conclude b.output)
  | publishing {k : Script (Except Failure String)} {r : Report} (comes : b.outcome date = .ok r) (clear : Clear b.directory date)
      (made : Made b.directory t) (confines : (Slots.of b.directory date clear).Confines k)
      (answer : (k.run t).1 = (b.alone date).1) (leaves : held b.directory date (k.run t).2 = b.leaves date) : Works date t k
  | answered {a : Except Failure String} (settled : Settled b.directory t) (answer : a = (b.alone date).1)
      (leaves : held b.directory date t = b.leaves date) : Works date t (.done a)

inductive TaskOk (date : Day) (t : FileTree) : Task (Except Failure String) → Prop where
  | waiting {k : Script (Except Failure String)} (works : b.Works date t k) : TaskOk date t (.waiting k)
  | running {k : Script (Except Failure String)} (works : b.Works date t k) : TaskOk date t (.running k)
  | finished {a : Except Failure String} (settled : ∀ r, b.outcome date = .ok r → Settled b.directory t)
      (answer : a = (b.alone date).1) (leaves : held b.directory date t = b.leaves date) : TaskOk date t (.finished a)

/- What a move of a date may do to the tree; a date that cannot be worked out does nothing. -/
inductive Changes (date : Day) (t : FileTree) : FileTree → Prop where
  | same : Changes date t t
  | made {r : Report} (comes : b.outcome date = .ok r) : Changes date t (t.makeAll b.directory).2
  | part {r : Report} (comes : b.outcome date = .ok r) {q rest : Path} (whole : q ++ rest = b.directory)
      (usable : b.directory.isUsable) (further : FileTree.Further rest) : Changes date t (t.makeAll q).2
  | moved {u : FileTree} {r : Report} (comes : b.outcome date = .ok r) (clear : Clear b.directory date)
      (madeT : Made b.directory t) (confined : (Slots.of b.directory date clear).Confined t u)
      (written : b.Written t → b.Written u) : Changes date t u

variable {b} {date : Day} {t u : FileTree}

theorem aloneOf {r : Except Failure Report} (comes : b.outcome date = r) : b.alone date = (conclude b.output r).run b.start := by
  rw [alone, publishRun, ← comes]
  rfl

section Elsewhere
variable (same : held b.directory date u = held b.directory date t) (settled : Settled b.directory t → Settled b.directory u)
  (made : Made b.directory t → Made b.directory u)
include same settled made

theorem Works.elsewhere {k : Script (Except Failure String)} (works : b.Works date t k) : b.Works date u k := by
  cases works with
  | reading quiet steady comes untouched => exact .reading quiet steady comes (same.trans untouched)
  | publishing comes clear madeT confines answer leaves =>
    have like := Slots.runLike confines (madeWay (made madeT)) (madeWay madeT) (by rw [heldSlots, heldSlots, same])
    rw [heldSlots, heldSlots] at like
    exact .publishing comes clear (made madeT) confines (like.1.trans answer) (like.2.trans leaves)
  | answered settledT answer leaves => exact .answered (settled settledT) answer (same.trans leaves)

theorem TaskOk.elsewhere {task : Task (Except Failure String)} (ok : b.TaskOk date t task) : b.TaskOk date u task := by
  cases ok with
  | waiting works => exact .waiting (works.elsewhere same settled made)
  | running works => exact .running (works.elsewhere same settled made)
  | finished settledT answer leaves => exact .finished (fun r comes => settled (settledT r comes)) answer (same.trans leaves)

end Elsewhere

section Moves
variable {task : Task (Except Failure String)} (clear : Clear b.directory date)
  (answers : (t.makeAll b.directory).1 = (b.start.makeAll b.directory).1)

section Conclude
variable {r : Report} (comes : b.outcome date = .ok r) (own : r.summary.date = date)
  (untouched : held b.directory date t = held b.directory date b.start)
include clear answers comes own untouched

theorem concluded : b.Works date (t.makeAll b.directory).2
    (if (t.makeAll b.directory).1 then Publication.publishReport b.output r else .done (.error (.unpublished b.output))) := by
  have after : held b.directory date (t.makeAll b.directory).2 = held b.directory date (b.start.makeAll b.directory).2 := by
    rw [heldMade clear List.prefix_rfl, heldMade clear List.prefix_rfl, untouched]
  have ending : b.alone date = Script.run (if (b.start.makeAll b.directory).1 then Publication.publishReport b.output r
    else .done (.error (.unpublished b.output))) (b.start.makeAll b.directory).2 := aloneOf comes
  rw [← answers] at ending
  cases made : (t.makeAll b.directory).1 with
  | false =>
    rw [made] at ending
    refine .answered ?_ (by rw [ending]; rfl) (by rw [leaves, ending]; exact after)
    rw [Settled, FileTree.makeAllTwice]
  | true =>
    rw [made] at ending
    have madeT : Made b.directory (t.makeAll b.directory).2 := FileTree.makeAllDone (Prod.ext made rfl)
    have madeStart : Made b.directory (b.start.makeAll b.directory).2 := FileTree.makeAllDone (Prod.ext (answers ▸ made) rfl)
    have confines : (Slots.of b.directory date clear).Confines (Publication.publishReport b.output r) :=
      Slots.confinesReport (by rw [own]; exact Slots.placeOfDate _ _ clear)
    have like := Slots.runLike confines (madeWay madeT) (madeWay madeStart) (by rw [heldSlots, heldSlots, after])
    rw [heldSlots, heldSlots] at like
    exact .publishing comes clear madeT confines (by rw [ending]; exact like.1) (by rw [leaves, ending]; exact like.2)

theorem concludeMoves (moves : (Task.running (conclude b.output (.ok r))).Moves t task u) :
    b.TaskOk date u task ∧ b.Changes date t u := by
  rcases moves.onward with ⟨rfl, rfl⟩ | ⟨rfl, begun⟩
  · exact ⟨.running (concluded clear answers comes own untouched), .made comes⟩
  · obtain ⟨q, rest, whole, usable, further, rfl⟩ := begun.partOf
    have quiet : Script.Quiet (IfOk fun r => r.summary.date = date) (.done (Except.ok (ε := Failure) r)) := by
      rintro a ⟨⟩
      exact own
    have part : q <+: b.directory := ⟨rest, whole⟩
    have reading : b.Works date (t.makeAll q).2 (Script.done (.ok r) >>= conclude b.output) :=
      .reading quiet trivial comes.symm (by rw [heldMade clear part, untouched])
    exact ⟨.running reading, .part comes whole usable further⟩

end Conclude

include clear answers

theorem readMoves {c : Script (Except Failure Report)} (written : b.Written t)
    (quiet : c.Quiet (IfOk fun r => r.summary.date = date)) (steady : c.Steady b.Written b.start)
    (comes : (c.run b.start).1 = b.outcome date)
    (untouched : held b.directory date t = held b.directory date b.start)
    (moves : (Task.running (c >>= conclude b.output)).Moves t task u) : b.TaskOk date u task ∧ b.Changes date t u := by
  have onward := moves.onward
  cases c with
  | done a =>
    cases a with
    | ok r => exact concludeMoves clear answers comes.symm (quiet r rfl) untouched moves
    | error failure =>
      obtain ⟨rfl, rfl⟩ := onward
      have ending : b.alone date = (.error failure, b.start) := aloneOf comes.symm
      refine ⟨.finished (fun r ok => ?_) (by rw [ending]) (by rw [leaves, ending]; exact untouched), .same⟩
      rw [← comes] at ok
      cases ok
  | ask p next =>
    obtain ⟨rfl, rfl⟩ := onward
    rw [steady.1 _ written]
    exact ⟨.running (.reading (quiet.2 _) steady.2 comes untouched), .same⟩
  | read p next =>
    obtain ⟨rfl, rfl⟩ := onward
    rw [steady.1 _ written]
    exact ⟨.running (.reading (quiet.2 _) steady.2 comes untouched), .same⟩
  | list p shown next =>
    obtain ⟨rfl, rfl⟩ := onward
    rw [steady.1 _ written]
    exact ⟨.running (.reading (quiet.2 _) steady.2 comes untouched), .same⟩
  | step s next => exact quiet.1.elim
  | wait n next =>
    obtain ⟨rfl, rfl⟩ := onward
    exact ⟨.running (.reading quiet steady comes untouched), .same⟩

omit answers in
theorem publishMoves {k : Script (Except Failure String)} {r : Report} (known : date ∈ b.dates) (comes : b.outcome date = .ok r)
    (made : Made b.directory t) (confines : (Slots.of b.directory date clear).Confines k)
    (answer : (k.run t).1 = (b.alone date).1) (ends : held b.directory date (k.run t).2 = b.leaves date)
    (moves : (Task.running k).Moves t task u) :
    b.TaskOk date u task ∧ b.Changes date t u := by
  have onward := moves.onward
  cases k with
  | done a =>
    obtain ⟨rfl, rfl⟩ := onward
    exact ⟨.finished (fun _ _ => settledMade made) answer ends, .same⟩
  | ask p next =>
    obtain ⟨rfl, rfl⟩ := onward
    exact ⟨.running (.publishing comes clear made (confines.2 _) answer ends), .same⟩
  | read p next =>
    obtain ⟨rfl, rfl⟩ := onward
    exact ⟨.running (.publishing comes clear made (confines.2 _) answer ends), .same⟩
  | list p shown next =>
    obtain ⟨rfl, rfl⟩ := onward
    exact ⟨.running (.publishing comes clear made (confines.2 _) answer ends), .same⟩
  | wait n next =>
    obtain ⟨rfl, rfl⟩ := onward
    exact ⟨.running (.publishing comes clear made confines answer ends), .same⟩
  | step step next =>
    obtain ⟨⟨m, proper, rfl⟩, later⟩ := confines
    have own : OutputStep b.directory b.dates (m.step (Slots.of b.directory date clear).place) := by
      rw [Slots.placeOfDate]
      exact .own known proper
    have way : Made (Slots.of b.directory date clear).written t := madeWay made
    rcases onward with ⟨rfl, rfl⟩ | ⟨rfl, begun⟩
    · obtain ⟨_, _, confined⟩ := Slots.moveDoes way proper
      exact ⟨.running (.publishing comes clear (confinedMade clear confined made) (later _) answer ends),
        .moved comes clear made confined fun written => written.made own⟩
    · obtain ⟨confined, again⟩ := Slots.begunLike proper later way begun
      rw [heldSlots, heldSlots] at again
      exact ⟨.running (.publishing comes clear (confinedMade clear confined made) ⟨⟨m, proper, rfl⟩, later⟩
        (again.1.trans answer) (again.2.trans ends)), .moved comes clear made confined fun written => written.begun own begun⟩

theorem Works.moves {k : Script (Except Failure String)} (known : date ∈ b.dates) (written : b.Written t)
    (works : b.Works date t k) (moves : (Task.running k).Moves t task u) : b.TaskOk date u task ∧ b.Changes date t u := by
  cases works with
  | reading quiet steady comes untouched => exact readMoves clear answers written quiet steady comes untouched moves
  | publishing comes clear made confines answer ends => exact publishMoves clear known comes made confines answer ends moves
  | answered settled answer ends =>
    obtain ⟨rfl, rfl⟩ := moves.onward
    exact ⟨.finished (fun _ _ => settled) answer ends, .same⟩

end Moves

/- The way to the output leads through none of the dates' own directories, and whatever is read for a date is the same in all
trees that the dates may make. -/
structure Fitting (b : Batch) : Prop where
  clear : ∀ d ∈ b.dates, Clear b.directory d
  steady : ∀ d ∈ b.dates, (compute b.around b.settings b.input d).Steady b.Written b.start

def Outside (b : Batch) (q : Path) : Prop := ∀ d ∈ b.dates, ∀ k, ¬placeOf (wayTo b.directory) ++ [entryName d k] <+: q

structure TreeOk (b : Batch) (t : FileTree) : Prop where
  written : b.Written t
  answers : (t.makeAll b.directory).1 = (b.start.makeAll b.directory).1
  around : ∀ q, b.Outside q → (t.makeAll b.directory).2.kind? q = (b.start.makeAll b.directory).2.kind? q
  still : t = b.start ∨ ∃ d ∈ b.dates, ∃ r, b.outcome d = .ok r

section Tree
variable (change : b.Changes date t u)
include change

theorem Changes.tree (known : date ∈ b.dates) (ok : b.TreeOk t) : b.TreeOk u := by
  cases change with
  | same => exact ok
  | made comes =>
    have again := FileTree.makeAllTwice b.directory t
    exact ⟨ok.written.made .output, by rw [again, ok.answers], by rw [again]; exact ok.around, .inr ⟨date, known, _, comes⟩⟩
  | @part r comes q rest whole usable further =>
    have again : (t.makeAll q).2.makeAll b.directory = t.makeAll b.directory := by
      rw [← whole] at usable ⊢
      exact FileTree.makeAllPart usable (.inr further)
    have begun : FileStep.Begun (.makeAll b.directory) t (t.makeAll q).2 := by
      rw [← whole] at usable ⊢
      exact .made usable further t
    exact ⟨ok.written.begun .output begun, by rw [again, ok.answers], by rw [again]; exact ok.around,
      .inr ⟨date, known, _, comes⟩⟩
  | moved comes clear made confined written =>
    have after := madeAnswer (confinedMade clear confined made)
    have before := madeAnswer made
    refine ⟨written ok.written, ?_, fun q out => ?_, .inr ⟨date, known, _, comes⟩⟩
    · rw [after, ← ok.answers, before]
    · rw [after, ← ok.around q out, before]
      refine confined.outside q fun n member => ?_
      obtain ⟨k, rfl⟩ := Slots.nameOf _ member
      rw [nameSlots]
      exact out date known k

theorem Changes.elsewhere {other : Day} (apart : other ≠ date) (clear : Clear b.directory other) :
    held b.directory other u = held b.directory other t ∧ (Settled b.directory t → Settled b.directory u) ∧
      (Made b.directory t → Made b.directory u) := by
  cases change with
  | same => exact ⟨rfl, id, id⟩
  | made comes =>
    refine ⟨heldMade clear List.prefix_rfl t, fun settled => by rwa [settled], fun made r inside => ?_⟩
    exact (FileTree.makeAllGrows _ t).directory (made r inside)
  | @part r comes q rest whole usable further =>
    refine ⟨heldMade clear ⟨rest, whole⟩ t, fun settled => ?_, fun made r inside => ?_⟩
    · have nothing : (t.makeAll q).2 = t := by
        rw [← whole] at usable settled
        exact FileTree.makeAllSettled usable further settled
      rwa [nothing]
    · exact (FileTree.makeAllGrows _ t).directory (made r inside)
  | moved comes clearOwn made confined written =>
    have madeU := confinedMade clearOwn confined made
    exact ⟨heldOther clearOwn apart confined, fun _ => settledMade madeU, fun _ => madeU⟩

end Tree

theorem keeps (fitting : b.Fitting) : Pool.Keeps b.dates b.TreeOk b.TaskOk where
  begins := by
    rintro date t k ⟨works⟩
    exact .running works
  moves := by
    intro date t u a task known good ok moves
    obtain ⟨k, rfl⟩ := moves.atWork
    cases ok with | running works =>
    obtain ⟨own, change⟩ := works.moves (fitting.clear date known) good.answers known good.written moves
    refine ⟨change.tree known good, own, fun other member apart task ok => ?_⟩
    obtain ⟨same, settled, made⟩ := change.elsewhere apart (fitting.clear other member)
    exact ok.elsewhere same settled made

def pool (b : Batch) : Pool (Except Failure String) :=
  .ofScripts (b.dates.map (publishDate b.around b.settings b.input b.output)) b.start

theorem poolFits (fitting : b.Fitting) : Pool.Fit b.dates b.TreeOk b.TaskOk b.pool where
  tree := ⟨.refl, rfl, fun _ _ => rfl, .inl rfl⟩
  tasks := by
    have own (d : Day) (known : d ∈ b.dates) :
        b.TaskOk d b.start (.waiting (publishDate b.around b.settings b.input b.output d)) := by
      rw [publishSplit]
      exact .waiting (.reading (computeQuiet _ _ _ _) (fitting.steady d known) rfl rfl)
    rw [pool, Pool.ofScripts, List.map_map, List.forall₂_map_right_iff, List.forall₂_same]
    exact own

section Ends
variable {answers : List (Except Failure String)}

theorem ended (fit : Pool.Fit b.dates b.TreeOk b.TaskOk ⟨answers.map .finished, t⟩) :
    answers = b.dates.map (fun d => (b.alone d).1) ∧
    ∀ d ∈ b.dates, held b.directory d t = b.leaves d ∧ ∀ r, b.outcome d = .ok r → Settled b.directory t := by
  have each := List.forall₂_map_right_iff.mp fit.tasks
  dsimp only at each
  clear fit
  generalize b.dates = dates at each
  induction each with
  | nil => exact ⟨rfl, fun d none => by cases none⟩
  | cons own _ ih =>
    cases own with | finished settled answer leaves =>
    exact ⟨by rw [List.map_cons, ← answer, ← ih.1], List.forall_mem_cons.mpr ⟨⟨leaves, settled⟩, ih.2⟩⟩

theorem kindHeld (date : Day) (k : Slot) (rest : Path) (t : FileTree) :
    t.kind? (placeOf (wayTo b.directory) ++ [entryName date k] ++ rest) =
      ((held b.directory date t k).head?.bind (FileTree.get? rest)).map FileTree.kind := by
  rw [FileTree.kind?, FileTree.getAppend, FileTree.getStanding]
  rfl

theorem sameEnds {others : List (Except Failure String)} (fitT : Pool.Fit b.dates b.TreeOk b.TaskOk ⟨answers.map .finished, t⟩)
    (fitU : Pool.Fit b.dates b.TreeOk b.TaskOk ⟨others.map .finished, u⟩) : SameFiles t u := by
  obtain ⟨_, ownT⟩ := ended fitT
  obtain ⟨_, ownU⟩ := ended fitU
  by_cases some : ∃ d ∈ b.dates, ∃ r, b.outcome d = .ok r
  · obtain ⟨d, known, r, comes⟩ := some
    have settledT : (t.makeAll b.directory).2 = t := (ownT d known).2 r comes
    have settledU : (u.makeAll b.directory).2 = u := (ownU d known).2 r comes
    intro q
    by_cases out : b.Outside q
    · rw [← settledT, ← settledU]
      exact (fitT.tree.around q out).trans (fitU.tree.around q out).symm
    · simp only [Outside, not_forall, not_not] at out
      obtain ⟨e, member, k, rest, rfl⟩ := out
      rw [kindHeld, kindHeld, (ownT e member).1, (ownU e member).1]
  · have stillT : t = b.start := fitT.tree.still.resolve_right some
    have stillU : u = b.start := fitU.tree.still.resolve_right some
    rw [stillT, stillU]
    exact fun _ => rfl

end Ends

theorem Changes.none {failure : Failure} (change : b.Changes date t u) (fails : b.outcome date = .error failure) : u = t := by
  cases change with
  | same => rfl
  | made comes | part comes | moved comes => cases comes.symm.trans fails

theorem TaskOk.untouched {failure : Failure} {task : Task (Except Failure String)} (ok : b.TaskOk date t task)
    (fails : b.outcome date = .error failure) : held b.directory date t = held b.directory date b.start := by
  have ending : b.alone date = (.error failure, b.start) := aloneOf fails
  have works {k : Script (Except Failure String)} (works : b.Works date t k) :
      held b.directory date t = held b.directory date b.start := by
    cases works with
    | reading _ _ _ untouched => exact untouched
    | publishing comes => cases comes.symm.trans fails
    | answered _ _ leaves => rw [leaves, Batch.leaves, ending]
  cases ok with
  | waiting known | running known => exact works known
  | finished _ _ leaves => rw [leaves, Batch.leaves, ending]

end Batch

end TransitTimeline.CommandLine
