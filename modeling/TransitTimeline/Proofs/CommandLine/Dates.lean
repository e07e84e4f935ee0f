import TransitTimeline.CommandLine.Run
import TransitTimeline.Proofs.Calendar
import TransitTimeline.Proofs.Publication.Moves
import TransitTimeline.Proofs.ServiceDate.Reading

/-! The work of a date: it reads the inputs, makes the output directory if it is not there, and then works in three directories
of its own, which no other date has. -/
namespace TransitTimeline.CommandLine
open FileTree (Made SameFiles placeOf)
open Publication (Clear Held Move Place Slot Slots targetName wayTo)
open Script (IfOk)

section Names

def entryName (date : Day) : Slot → String
  | .target => targetName date
  | .staging => "." ++ targetName date ++ ".tmp"
  | .aside => "." ++ targetName date ++ ".old"

theorem targetInjective {a b : Day} (same : targetName a = targetName b) : a = b := by
  have lists := congrArg String.toList same
  simp only [targetName, String.toList_append] at lists
  exact Day.textInjective (String.toList_inj.mp (List.append_cancel_left lists))

theorem hiddenInjective {a b : Day} {ending : String} (same : "." ++ targetName a ++ ending = "." ++ targetName b ++ ending) :
    a = b := by
  have lists := congrArg String.toList same
  simp only [String.toList_append] at lists
  exact targetInjective (String.toList_inj.mp (List.append_cancel_left (List.append_cancel_right lists)))

theorem shownHidden (a b : Day) (ending : String) : targetName a ≠ "." ++ targetName b ++ ending := fun same => by
  have first := congrArg (fun name => name.toList.head?) same
  simp [targetName] at first

theorem hiddenApart (a b : Day) : "." ++ targetName a ++ ".tmp" ≠ "." ++ targetName b ++ ".old" := fun same => by
  have lists := congrArg String.toList same
  simp only [String.toList_append] at lists
  have short : ".tmp".toList.length = ".old".toList.length := by decide
  obtain ⟨_, endings⟩ := List.append_inj' lists short
  simp at endings

theorem entriesApart {a b : Day} (apart : a ≠ b) (k l : Slot) : entryName a k ≠ entryName b l := by
  intro same
  cases k <;> cases l
  case target.target => exact apart (targetInjective same)
  case staging.staging | aside.aside => exact apart (hiddenInjective same)
  case target.staging | target.aside => exact shownHidden a b _ same
  case staging.target | aside.target => exact shownHidden b a _ same.symm
  case staging.aside => exact hiddenApart a b same
  case aside.staging => exact hiddenApart b a same.symm

end Names

section Directories
variable {directory : Path} {date : Day} {t u : FileTree}

def held (directory : Path) (date : Day) (t : FileTree) : Held :=
  fun k => t.standing (placeOf (wayTo directory)) (entryName date k)

theorem heldSlots (clear : Clear directory date) (t : FileTree) :
    (Slots.of directory date clear).held t = held directory date t := by
  funext k
  cases k <;> rfl

theorem nameSlots (clear : Clear directory date) (k : Slot) : (Slots.of directory date clear).name k = entryName date k := by
  cases k <;> rfl

theorem madeWay (made : Made directory t) : Made (wayTo directory) t :=
  fun r inside => made r (inside.trans (Publication.wayPrefix directory))

theorem entryLong (date : Day) (k : Slot) : 2 < (entryName date k).length := by
  have long := Publication.targetLong date
  cases k
  · exact long
  all_goals
    rw [entryName, String.length_append, String.length_append]
    omega

/- None of the three is on the way to the output directory, however that is written. -/
theorem clearWhole (clear : Clear directory date) (k : Slot) {r : Path} (inside : r <+: directory) :
    ¬placeOf (wayTo directory) ++ [entryName date k] <+: placeOf r := by
  have known : entryName date k ∈ Publication.entryNames date := by cases k <;> simp [entryName, Publication.entryNames]
  by_cases filled : r = []
  · rw [filled]
    intro below
    have nothing := List.prefix_nil.mp (show placeOf (wayTo directory) ++ [entryName date k] <+: [] from below)
    simp at nothing
  · by_cases way : r <+: wayTo directory
    · exact clear.apart way filled known
    · have slash : directory.getLast? = some "" := by
        by_contra plain
        rw [wayTo, if_neg plain] at way
        exact way inside
      obtain ⟨before, shape⟩ := List.getLast?_eq_some_iff.mp slash
      have short : wayTo directory = before := by rw [wayTo, if_pos slash, shape, List.dropLast_concat]
      rw [short] at way ⊢
      rw [shape] at inside
      rcases List.prefix_concat_iff.mp inside with rfl | early
      · by_cases root : before = []
        · rw [root]
          intro below
          have same : entryName date k = "/" := (List.cons_prefix_cons.mp (show [entryName date k] <+: ["/"] from below)).1
          have long := entryLong date k
          rw [same] at long
          exact absurd long (by decide)
        · rw [Publication.placeOfSplit root]
          intro below
          have longer := below.length_le
          simp [FileTree.placeFrom] at longer
      · exact absurd early way

theorem confinedMade (clear : Clear directory date) (confined : (Slots.of directory date clear).Confined t u)
    (made : Made directory t) : Made directory u := by
  intro r inside
  rw [FileTree.directoryKind, confined.outside _ fun n known => ?_]
  · exact FileTree.directoryKind.mp (made r inside)
  · obtain ⟨k, rfl⟩ := Slots.nameOf _ known
    rw [nameSlots]
    exact clearWhole clear k inside

theorem heldMade (clear : Clear directory date) {q : Path} (part : q <+: directory) (t : FileTree) :
    held directory date (t.makeAll q).2 = held directory date t := by
  funext k
  refine (FileTree.makeAllGrows q t).standing fun p at? => ?_
  obtain ⟨r, inside, _, rfl⟩ := at?
  exact clearWhole clear k (inside.trans part)

theorem heldOther {other : Day} (clear : Clear directory date) (apart : other ≠ date)
    (confined : (Slots.of directory date clear).Confined t u) : held directory other u = held directory other t := by
  funext k
  refine confined.beside _ fun known => ?_
  obtain ⟨l, same⟩ := Slots.nameOf _ known
  rw [nameSlots] at same
  exact entriesApart apart k l same.symm

end Directories

section Date
variable (around : Surroundings) (s : Settings) (input output : String) (date : Day)

def asked : Source Reads := Source.asked.retrying (.ofSettings s.readAttempts.toNat s.readBackoff.toNat) Reads.pause

def compute : Script (Except Failure Report) := do
  let manifest ← Manifest.discover (Path.ofText input) date
  let work := ServiceDate.runIn around.zones (around.turns date) (asked s) manifest date s.timezone s.matchTolerance
  work.run.through (Source.ofFiles (Path.ofText input)) Script.pause

def conclude : Except Failure Report → Script (Except Failure String)
  | .error failure => return .error failure
  | .ok report => do
    if ← Script.perform (.makeAll (Path.ofText output)) then Publication.publishReport output report
    else return .error (.unpublished output)

theorem bindAssoc {α β γ : Type} (k : Script α) (f : α → Script β) (g : β → Script γ) :
    k >>= f >>= g = k >>= fun a => f a >>= g := by
  induction k with
  | done a => rfl
  | ask p next ih => exact congrArg (Script.ask p) (funext ih)
  | read p next ih => exact congrArg (Script.read p) (funext ih)
  | list p shown next ih => exact congrArg (Script.list p shown) (funext ih)
  | step s next ih => exact congrArg (Script.step s) (funext ih)
  | wait n next ih => exact congrArg (Script.wait n) (funext ih)

theorem publishSplit : publishDate around s input output date = compute around s input date >>= conclude output := by
  unfold compute publishDate
  rw [bindAssoc]
  refine congrArg (Manifest.discover (Path.ofText input) date >>= ·) (funext fun manifest => ?_)
  refine congrArg (_ >>= ·) (funext fun outcome => ?_)
  cases outcome <;> rfl

theorem computeQuiet : (compute around s input date).Quiet (IfOk fun r => r.summary.date = date) :=
  Script.quietBind (ServiceDate.quietDiscovered _ _) fun _ _ => ServiceDate.quietDate _

theorem publishRun (t : FileTree) : (publishDate around s input output date).run t =
    (conclude output ((compute around s input date).run t).1).run t := by
  have split := Script.runBind (compute around s input date) (conclude output) t
  rw [Script.quietRun (computeQuiet around s input date)] at split
  rw [publishSplit]
  exact split

theorem computeRun (t : FileTree) : ((compute around s input date).run t).1 =
    (ServiceDate.runIn around.zones (around.turns date) (asked s) ((Manifest.discover (Path.ofText input) date).run t).1 date
      s.timezone s.matchTolerance).run.plainly (Reads.onTree (Path.ofText input) t) := by
  have split := Script.runBind (Manifest.discover (Path.ofText input) date) (fun manifest =>
    (ServiceDate.runIn around.zones (around.turns date) (asked s) manifest date s.timezone s.matchTolerance).run.through
      (Source.ofFiles (Path.ofText input)) Script.pause) t
  rw [Reads.throughTree, Script.quietRun (ServiceDate.quietDiscovered _ _)] at split
  exact congrArg Prod.fst split

theorem processRun (t : FileTree) : (perform around s (.process date input output)).run t =
    (exitCode ((publishDate around s input output date).run t).1, ((publishDate around s input output date).run t).2) :=
  Script.runBind (publishDate around s input output date) _ t

def ending (t : FileTree) (outcome : Except Failure Report) : UInt32 × FileTree :=
  (exitCode ((conclude output outcome).run t).1, ((conclude output outcome).run t).2)

theorem endingUnread {f : Manifest} {outcome : Except Failure Report} (unread : ServiceDate.Unread f outcome) (t : FileTree) :
    ending output t outcome = (1, t) := by
  obtain ⟨_, rfl, _, _, _, rfl | rfl | rfl⟩ := unread <;> rfl

/- The turns in which the tables of a date are read do not show. -/
theorem processTurns (zones : String → Option Zone) (turns others : Day → ServiceDate.Turns) (t : FileTree) :
    (perform ⟨zones, turns⟩ s (.process date input output)).run t =
      (perform ⟨zones, others⟩ s (.process date input output)).run t := by
  have ends (around : Surroundings) : (perform around s (.process date input output)).run t =
      ending output t ((compute around s input date).run t).1 := by
    rw [processRun, publishRun, ending]
  rw [ends, ends, computeRun, computeRun]
  rcases ServiceDate.turnsAside (ServiceDate.retriedNames _ _) (turns date) (others date) with same | ⟨unread, also⟩
  · exact congrArg _ same
  · exact (endingUnread output unread t).trans (endingUnread output also t).symm

end Date

end TransitTimeline.CommandLine
