import TransitTimeline.Proofs.CommandLine.Batch
import TransitTimeline.Proofs.Files.Elsewhere

/-! The command that works on a range of dates. In whatever order their steps come, it comes to what each date comes to alone,
one after the other. -/
namespace TransitTimeline.CommandLine
open FileTree (SameFiles placeOf)
open Publication (Clear Slot Slots wayTo)

namespace Batch
variable {b : Batch}

section Elsewhere
variable {q : Path} (before : ∀ r, r <+: b.directory → ¬q <+: placeOf r) (outside : ¬placeOf (wayTo b.directory) <+: q)
include before outside

theorem placeElsewhere (names : Path) : FileTree.Apart (placeOf (wayTo b.directory) ++ names) q := by
  have below := List.prefix_append (placeOf (wayTo b.directory)) names
  refine ⟨fun inside => outside (below.trans inside), fun inside => ?_⟩
  rcases List.prefix_or_prefix_of_prefix inside below with onWay | under
  · exact before _ (Publication.wayPrefix b.directory) onWay
  · exact outside under

theorem outputElsewhere (forward : ".." ∉ b.directory) {step : FileStep} (own : OutputStep b.directory b.dates step) :
    step.Elsewhere q := by
  cases own with
  | output => exact before
  | @own date known m proper =>
    have clear : Clear b.directory date := Publication.clearForward forward
    have named (k : Slot) := (Slots.of b.directory date clear).slotNamed k
    have path (k : Slot) : FileTree.Apart (placeOf ((Slots.of b.directory date clear).place.path k)) q := by
      rw [Slots.path, FileTree.placeOfName (named k)]
      exact placeElsewhere before outside _
    rw [← Slots.placeOfDate b.directory date clear]
    cases m with
    | make =>
      intro r inside
      rcases List.prefix_concat_iff.mp inside with rfl | onWay
      · exact (path .staging).2
      · exact before r (onWay.trans (Publication.wayPrefix b.directory))
    | remove k => exact path k
    | write file bytes =>
      show FileTree.Apart (placeOf ((Slots.of b.directory date clear).place.staging.child file)) q
      rw [Slots.stagingChild, List.append_cons, FileTree.placeOfName proper,
        FileTree.placeOfName (Slots.named _ _ (Slots.stagingKnown _)), List.append_assoc]
      exact placeElsewhere before outside _
    | rename k l => exact ⟨path k, path l⟩

theorem fittingElsewhere (names : ∀ n ∈ q, FileTree.Names n) (filled : q ≠ [])
    (forward : ".." ∉ b.directory)
    (asked : ∀ d ∈ b.dates, ∀ p ∈ (compute b.around b.settings b.input d).asked b.start, ∃ rest, p = q ++ rest ∧ ".." ∉ rest) :
    b.Fitting where
  clear := fun _ _ => Publication.clearForward forward
  steady := by
    intro d known
    refine Script.steadyAsked (computeQuiet _ _ _ _) fun p asks t written => ?_
    obtain ⟨rest, rfl, onward⟩ := asked d known p asks
    have same := FileStep.touchedElsewhere (fun _ own => outputElsewhere before outside forward own) written
    exact FileTree.findBelow same names filled onward

end Elsewhere

section Process
variable (b) (others : Day → ServiceDate.Turns)

def inTurn : List UInt32 × FileTree :=
  Script.oneByOne (b.dates.map fun d => perform ⟨b.around.zones, others⟩ b.settings (.process d b.input b.output)) b.start

def process (date : Day) : UInt32 × FileTree :=
  (perform ⟨b.around.zones, others⟩ b.settings (.process date b.input b.output)).run b.start

theorem processAlone (date : Day) : b.process others date = (exitCode (b.alone date).1, (b.alone date).2) := by
  rw [process, processTurns _ _ _ _ _ others b.around.turns]
  exact processRun b.around b.settings b.input b.output date b.start

theorem inTurnMap : b.inTurn others =
    ((Script.oneByOne (b.dates.map (publishDate b.around b.settings b.input b.output)) b.start).1.map exitCode,
      (Script.oneByOne (b.dates.map (publishDate b.around b.settings b.input b.output)) b.start).2) := by
  rw [inTurn, Script.oneByOneRuns fun d t => processTurns b.settings b.input b.output d _ others b.around.turns t,
    ← Script.oneByOneMap, List.map_map]
  rfl

end Process

end Batch

def verdict (answers : List (Except Failure String)) : UInt32 := if answers.all (·.isOk) then 0 else 1

theorem codeZero (answer : Except Failure String) : exitCode answer = 0 ↔ answer.isOk := by
  unfold exitCode
  split <;> simp [Except.isOk, Except.toBool]

theorem verdictZero (answers : List (Except Failure String)) : verdict answers = 0 ↔ ∀ a ∈ answers, exitCode a = 0 := by
  have each : (∀ a ∈ answers, exitCode a = 0) ↔ answers.all (·.isOk) := by simp only [codeZero, List.all_eq_true]
  rw [each, verdict]
  split <;> simp [*]

/- The dates' steps, however they come between each other, come to what each date comes to alone. -/
structure Orderly (b : Batch) (others : Day → ServiceDate.Turns) (limit : Nat) : Prop where
  files : ∀ {answers t}, b.pool.Ends limit answers t → SameFiles t (b.inTurn others).2
  codes : ∀ {answers t}, b.pool.Ends limit answers t → answers.map exitCode = (b.inTurn others).1
  fails : ∀ {answers t}, b.pool.Ends limit answers t → (verdict answers ≠ 0 ↔ ∃ d ∈ b.dates, (b.process others d).1 ≠ 0)
  each : ∀ {answers t}, b.pool.Ends limit answers t → ∀ d ∈ b.dates,
    held b.directory d t = held b.directory d (b.process others d).2
  ends : ∀ {p}, b.pool.Reaches limit p → ∃ answers t, p.Ends limit answers t
  kept : ∀ {p}, b.pool.Reaches limit p → ∀ d ∈ b.dates, ∀ failure, b.outcome d = .error failure →
    held b.directory d p.tree = held b.directory d b.start
  idle : ∀ {before task after next t u}, b.pool.Reaches limit ⟨before ++ task :: after, t⟩ → task.Moves t next u →
    ∀ d failure, b.dates[before.length]? = some d → b.outcome d = .error failure → u = t

theorem orderly {b : Batch} {others : Day → ServiceDate.Turns} {limit : Nat} (room : 0 < limit) (distinct : b.dates.Nodup)
    (fitting : b.Fitting) : Orderly b others limit := by
  have fits {p : Pool (Except Failure String)} (reaches : b.pool.Reaches limit p) : Pool.Fit b.dates b.TreeOk b.TaskOk p :=
    (Batch.poolFits fitting).reaches (Batch.keeps fitting) distinct reaches
  have turn := Pool.endsOneByOne room (b.dates.map (publishDate b.around b.settings b.input b.output)) b.start
  constructor
  case files =>
    intro answers t ends
    rw [b.inTurnMap]
    exact Batch.sameEnds (fits ends) (fits turn)
  case codes =>
    intro answers t ends
    rw [b.inTurnMap, (Batch.ended (fits ends)).1, (Batch.ended (fits turn)).1]
  case fails =>
    intro answers t ends
    rw [ne_eq, verdictZero, (Batch.ended (fits ends)).1]
    simp [b.processAlone]
  case each =>
    intro answers t ends d known
    rw [b.processAlone]
    exact ((Batch.ended (fits ends)).2 d known).1
  case ends => exact fun _ => Pool.mayEnd room _
  case kept =>
    intro p reaches d known failure fails
    obtain ⟨task, ok⟩ := Pool.taskOf (fits reaches).tasks known
    exact ok.untouched fails
  case idle =>
    intro before task after next t u reaches moves d failure at? fails
    have fit := fits reaches
    obtain ⟨known, ok⟩ := Pool.taskAt fit.tasks at?
    obtain ⟨k, rfl⟩ := moves.atWork
    cases ok with | running works =>
    have clear := fitting.clear d known
    obtain ⟨_, change⟩ := works.moves clear fit.tree.answers known fit.tree.written moves
    exact change.none fails

section Range
variable {around : Surroundings} {s : Settings} {input output : String} {first last : Day} {start : FileTree}

theorem daysKnown (d : Day) : d ∈ daysBetween first last ↔ first ≤ d ∧ d ≤ last ∧ d < Day.last := by
  simp only [daysBetween, List.mem_filter, List.mem_map, List.mem_range, Day.next?]
  constructor
  · rintro ⟨⟨n, few, rfl⟩, before⟩
    refine ⟨?_, ?_, by simpa using before⟩
    · show first.number ≤ first.number + n
      omega
    · show first.number + n ≤ last.number
      omega
  · rintro ⟨behind, ahead, before⟩
    refine ⟨⟨(d.number - first.number).toNat, ?_, ?_⟩, by simp [before]⟩
    · have : first.number ≤ d.number := behind
      have : d.number ≤ last.number := ahead
      omega
    · have : first.number ≤ d.number := behind
      exact congrArg Day.mk (by omega)

theorem daysInOrder : (daysBetween first last).Pairwise (· < ·) := by
  refine List.Pairwise.filter _ (List.Pairwise.map _ (fun m n less => ?_) List.pairwise_lt_range)
  show first.number + m < first.number + n
  omega

theorem daysDistinct : (daysBetween first last).Nodup :=
  daysInOrder.imp fun less same => by
    subst same
    exact absurd less (Int.lt_irrefl _)

theorem publishInTurn (dates : List Day) (t : FileTree) : (publishDates around s input output dates).run t =
    Script.oneByOne (dates.map (publishDate around s input output)) t := by
  induction dates generalizing t with
  | nil => rfl
  | cons d rest ih =>
    have first := Script.runBind (publishDate around s input output d)
      (fun result => publishDates around s input output rest >>= fun results => pure (result :: results)) t
    rw [List.map_cons, Script.oneByOne]
    generalize (publishDate around s input output d).run t = done at first ⊢
    have later := Script.runBind (publishDates around s input output rest) (fun results => pure (done.1 :: results)) done.2
    rw [ih] at later
    exact first.trans later

theorem backfillRun (ordered : first ≤ last) : (backfill around s input output first last).run start =
    if mostAtOnce < s.concurrency then (101, start)
    else (verdict (Script.oneByOne ((daysBetween first last).map (publishDate around s input output)) start).1,
      (Script.oneByOne ((daysBetween first last).map (publishDate around s input output)) start).2) := by
  have forward : ¬last < first := not_lt.mpr (show first.number ≤ last.number from ordered)
  rw [backfill, if_neg forward, ← publishInTurn]
  split
  · rfl
  · exact Script.runBind (publishDates around s input output (daysBetween first last)) _ start

def Batch.ofRange (around : Surroundings) (s : Settings) (input output : String) (first last : Day) (start : FileTree) : Batch :=
  ⟨around, s, input, output, daysBetween first last, start⟩

def permits (concurrency : Int) : Nat := (max 1 concurrency).toNat

/- The command works on the days of the range in one of the orders that they may come in, unless so many are asked for at once
that there cannot be a permit for each; on all of them, unless the range ends with the calendar. -/
theorem backfillInAnyOrder (around : Surroundings) (others : Day → ServiceDate.Turns) (s : Settings) (input output : String)
    (first last : Day) (concurrency : Option Int) (start : FileTree) (ordered : first ≤ last)
    (fitting : (Batch.ofRange around s input output first last start).Fitting) :
    Orderly (.ofRange around s input output first last start) others (permits (concurrency.getD s.concurrency)) ∧
    (∃ answers t,
      (Batch.ofRange around s input output first last start).pool.Ends (permits (concurrency.getD s.concurrency)) answers t ∧
      (perform around s (.backfill first last input output concurrency)).run start =
        if mostAtOnce < concurrency.getD s.concurrency then (101, start) else (verdict answers, t)) ∧
    (daysBetween first last).Pairwise (· < ·) ∧
    (∀ d, d ∈ daysBetween first last ↔ first ≤ d ∧ d ≤ last ∧ d < Day.last) ∧
    ((∀ d, first ≤ d → d ≤ last → d ∈ daysBetween first last) ↔ last < Day.last) := by
  have room : 0 < permits (concurrency.getD s.concurrency) := by
    unfold permits
    omega
  have own : (perform around s (.backfill first last input output concurrency)).run start = _ :=
    backfillRun (s := { s with concurrency := concurrency.getD s.concurrency }) ordered
  refine ⟨orderly room daysDistinct fitting, ⟨_, _, Pool.endsOneByOne room _ start, own⟩, daysInOrder, daysKnown, ?_⟩
  constructor
  · intro whole
    exact ((daysKnown last).mp (whole last ordered (Int.le_refl _))).2.2
  · intro short d behind ahead
    exact (daysKnown d).mpr ⟨behind, ahead, Int.lt_of_le_of_lt ahead short⟩

def oneUndecodable : FileTree :=
  let tables (names : List String) : FileTree.Entries := names.map fun name => (name ++ ".csv", .file [])
  let gtfs := tables ["trips", "stop_times", "routes", "directions", "route_patterns", "stops", "calendar", "calendar_dates"]
  let tm := tables ["GEO_NODE", "ROUTE", "TRIP", "VEHICLE", "PATTERN_GEO_NODE_XREF", "TIME_POINT", "DAILY_WORK_PIECE",
    "DAILY_SCHEDULE_STOP"]
  let crossings : FileTree := .directory [("120241004.csv", .file "0\n0\n".toUTF8.toList)]
  .directory [("data", .directory [("gtfs", .directory gtfs), ("tm", .directory (("STOP_CROSSING", crossings) :: tm))])]

theorem backfillInAnyOrderOneFails :
    let b := Batch.ofRange {} {} "data" "output" ⟨20000⟩ ⟨20001⟩ oneUndecodable
    (Day.mk 20000 ≤ Day.mk 20001 ∧ b.Fitting) ∧
    ((b.outcome ⟨20000⟩).isOk = false ∧ (b.outcome ⟨20001⟩).isOk = true) ∧
    Orderly b (fun _ => ⟨[true, false], [false], []⟩) 4 := by
  have fitting : (Batch.ofRange {} {} "data" "output" ⟨20000⟩ ⟨20001⟩ oneUndecodable).Fitting := by
    have asked : ∀ d ∈ daysBetween ⟨20000⟩ ⟨20001⟩, ∀ p ∈ (compute {} {} "data" d).asked oneUndecodable,
        ["data"] <+: p ∧ ".." ∉ p := by decide +kernel
    have way : ∀ r ∈ ["output"].inits, ¬["data"] <+: placeOf r := by decide
    have names : ∀ n ∈ ["data"], FileTree.Names n := by simp [FileTree.Names]
    refine Batch.fittingElsewhere (fun r inside => ?_) (by decide) names (by decide) (by decide) ?_
    · exact way r ((List.mem_inits r _).mpr inside)
    · intro d known p asks
      obtain ⟨⟨rest, rfl⟩, onward⟩ := asked d known p asks
      exact ⟨rest, rfl, fun back => onward (List.mem_append_right _ back)⟩
  refine ⟨⟨by decide, fitting⟩, by decide +kernel, ?_⟩
  exact (backfillInAnyOrder {} _ {} "data" "output" ⟨20000⟩ ⟨20001⟩ none oneUndecodable (by decide) fitting).1

/- The calendar's last day cannot be worked out, and the command on this day alone does not fail: it leaves the day out. -/
theorem backfillLeavesLastDay : Day.last ≤ Day.last ∧
    ((perform {} {} (.process Day.last "data" "output")).run .empty).1 = 1 ∧
    ((perform {} {} (.backfill Day.last Day.last "data" "output" none)).run .empty).1 = 0 := by
  decide +kernel

end Range

end TransitTimeline.CommandLine
