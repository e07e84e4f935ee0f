import Mathlib.Data.List.Forall2
import Mathlib.Logic.Relation
import TransitTimeline.Proofs.Files.Course
import TransitTimeline.Proofs.Files.Way

/-! Scripts that run beside each other on one tree. At most so many are at work at once; each request is made between those of
the others, and a step that takes its time is seen by them before it is through. -/
namespace TransitTimeline

/- What a step may have done before it is made: some of the directories on the way, the first bytes of a file, a part of a
directory's removal. -/
inductive FileStep.Begun : FileStep → FileTree → FileTree → Prop where
  | made {q rest : Path} (usable : (q ++ rest).isUsable) (further : FileTree.Further rest) (t : FileTree) :
      Begun (.makeAll (q ++ rest)) t (t.makeAll q).2
  | written {p : Path} {bytes first : List UInt8} (partly : first <+: bytes) (t : FileTree) :
      Begun (.write p bytes) t (t.write p first).2
  | removed {p place : Path} {t u : FileTree} {entries left : FileTree.Entries} (found : t.resolve p = some place)
      (known : t.get? place = some (.directory entries)) (partly : Remnants entries left)
      (set : t.set? (some (.directory left)) place = some u) : Begun (.removeAll p) t u

theorem FileStep.Begun.partOf {p : Path} {t u : FileTree} (begun : Begun (.makeAll p) t u) :
    ∃ q rest, q ++ rest = p ∧ p.isUsable ∧ FileTree.Further rest ∧ u = (t.makeAll q).2 := by
  generalize same : FileStep.makeAll p = step at begun
  cases begun with
  | @made q rest usable further =>
    cases same
    exact ⟨q, rest, rfl, usable, further, rfl⟩
  | _ => cases same

inductive Touched (steps : FileStep → Prop) (t : FileTree) : FileTree → Prop where
  | refl : Touched steps t t
  | made {u : FileTree} {s : FileStep} (earlier : Touched steps t u) (own : steps s) : Touched steps t (s.apply u).2
  | begun {u v : FileTree} {s : FileStep} (earlier : Touched steps t u) (own : steps s) (begun : s.Begun u v) :
      Touched steps t v

namespace Script
variable {α β : Type}

def Limited (looks : Path → Prop) (steps : FileStep → Prop) (answers : α → Prop) : Script α → Prop
  | done a => answers a
  | ask p next => looks p ∧ ∀ found, (next found).Limited looks steps answers
  | read p next => looks p ∧ ∀ found, (next found).Limited looks steps answers
  | list p _ next => looks p ∧ ∀ found, (next found).Limited looks steps answers
  | step s next => steps s ∧ ∀ made, (next made).Limited looks steps answers
  | wait _ next => (next ()).Limited looks steps answers

section Limited
variable {looks : Path → Prop} {steps : FileStep → Prop} {answers between : α → Prop} {s : Script α}

theorem limitedBind {f : α → Script β} {after : β → Prop} (first : s.Limited looks steps between)
    (second : ∀ a, between a → (f a).Limited looks steps after) : (s >>= f).Limited looks steps after := by
  induction s with
  | done a => exact second a first
  | ask p next ih => exact ⟨first.1, fun found => ih found (first.2 found)⟩
  | read p next ih => exact ⟨first.1, fun found => ih found (first.2 found)⟩
  | list p shown next ih => exact ⟨first.1, fun found => ih found (first.2 found)⟩
  | step s next ih => exact ⟨first.1, fun made => ih made (first.2 made)⟩
  | wait n next ih => exact ih () first

end Limited

def Quiet (answers : α → Prop) (s : Script α) : Prop := s.Limited (fun _ => True) (fun _ => False) answers

theorem quietRun {answers : α → Prop} {s : Script α} (quiet : s.Quiet answers) (t : FileTree) : (s.run t).2 = t := by
  induction s with
  | done a => rfl
  | ask p next ih => exact ih _ (quiet.2 _)
  | read p next ih => exact ih _ (quiet.2 _)
  | list p shown next ih => exact ih _ (quiet.2 _)
  | step s next => exact quiet.1.elim
  | wait n next ih => exact ih _ quiet

/- Whatever the script looks at on its run on a tree is the same in each of the trees. -/
def Steady (trees : FileTree → Prop) : Script α → FileTree → Prop
  | done _, _ => True
  | ask p next, t => (∀ u, trees u → u.exists? p = t.exists? p) ∧ (next (t.exists? p)).Steady trees t
  | read p next, t => (∀ u, trees u → u.read? p = t.read? p) ∧ (next (t.read? p)).Steady trees t
  | list p shown next, t => (∀ u, trees u → listed p shown u = listed p shown t) ∧ (next (listed p shown t)).Steady trees t
  | step s next, t => (next (s.apply t).1).Steady trees (s.apply t).2
  | wait _ next, t => (next ()).Steady trees t

def oneByOne : List (Script α) → FileTree → List α × FileTree
  | [], t => ([], t)
  | s :: rest, t => ((s.run t).1 :: (oneByOne rest (s.run t).2).1, (oneByOne rest (s.run t).2).2)

theorem oneByOneRuns {ι : Type} {f g : ι → Script α} (same : ∀ i t, (f i).run t = (g i).run t) (ids : List ι) (t : FileTree) :
    oneByOne (ids.map f) t = oneByOne (ids.map g) t := by
  induction ids generalizing t with
  | nil => rfl
  | cons i rest ih => rw [List.map_cons, List.map_cons, oneByOne, oneByOne, same, ih]

theorem oneByOneMap (f : α → β) (scripts : List (Script α)) (t : FileTree) :
    oneByOne (scripts.map fun k => k >>= fun a => pure (f a)) t = ((oneByOne scripts t).1.map f, (oneByOne scripts t).2) := by
  induction scripts generalizing t with
  | nil => rfl
  | cons k rest ih =>
    have split : (k >>= fun a => pure (f a)).run t = (f (k.run t).1, (k.run t).2) := runBind k _ t
    rw [List.map_cons, oneByOne, oneByOne, split, ih]
    rfl

end Script

inductive Task (α : Type) where
  | waiting (s : Script α)
  | running (s : Script α)
  | finished (a : α)

namespace Task
variable {α : Type}

def isRunning : Task α → Bool
  | running _ => true
  | _ => false

inductive Moves : Task α → FileTree → Task α → FileTree → Prop where
  | finish (a : α) (t : FileTree) : Moves (running (.done a)) t (finished a) t
  | ask (p : Path) (next : Bool → Script α) (t : FileTree) : Moves (running (.ask p next)) t (running (next (t.exists? p))) t
  | read (p : Path) (next : Option (List UInt8) → Script α) (t : FileTree) :
      Moves (running (.read p next)) t (running (next (t.read? p))) t
  | list (p : Path) (shown : String) (next : List String → Script α) (t : FileTree) :
      Moves (running (.list p shown next)) t (running (next (Script.listed p shown t))) t
  | made (s : FileStep) (next : Bool → Script α) (t : FileTree) :
      Moves (running (.step s next)) t (running (next (s.apply t).1)) (s.apply t).2
  | begun {s : FileStep} (next : Bool → Script α) {t u : FileTree} (begun : s.Begun t u) :
      Moves (running (.step s next)) t (running (.step s next)) u
  | wait (milliseconds : Nat) (next : Unit → Script α) (t : FileTree) :
      Moves (running (.wait milliseconds next)) t (running (next ())) t

theorem Moves.atWork {a b : Task α} {t u : FileTree} (moves : a.Moves t b u) : ∃ k, a = running k := by
  cases moves <;> exact ⟨_, rfl⟩

def Onward (t : FileTree) (b : Task α) (u : FileTree) : Script α → Prop
  | .done a => b = finished a ∧ u = t
  | .ask p next => b = running (next (t.exists? p)) ∧ u = t
  | .read p next => b = running (next (t.read? p)) ∧ u = t
  | .list p shown next => b = running (next (Script.listed p shown t)) ∧ u = t
  | .step s next => (b = running (next (s.apply t).1) ∧ u = (s.apply t).2) ∨ (b = running (.step s next) ∧ s.Begun t u)
  | .wait _ next => b = running (next ()) ∧ u = t

theorem Moves.onward {k : Script α} {t u : FileTree} {b : Task α} (moves : Moves (running k) t b u) : Onward t b u k := by
  cases moves with
  | made s next t => exact .inl ⟨rfl, rfl⟩
  | begun next begun => exact .inr ⟨rfl, begun⟩
  | _ => exact ⟨rfl, rfl⟩

end Task

structure Pool (α : Type) where
  tasks : List (Task α)
  tree : FileTree

namespace Pool
variable {α : Type} {limit : Nat}

def ofScripts (scripts : List (Script α)) (t : FileTree) : Pool α := ⟨scripts.map .waiting, t⟩

inductive Next (limit : Nat) : Pool α → Pool α → Prop where
  | begin {before after : List (Task α)} {s : Script α} {t : FileTree} (room : (before ++ after).countP (·.isRunning) < limit) :
      Next limit ⟨before ++ .waiting s :: after, t⟩ ⟨before ++ .running s :: after, t⟩
  | move {before after : List (Task α)} {a b : Task α} {t u : FileTree} (moves : a.Moves t b u) :
      Next limit ⟨before ++ a :: after, t⟩ ⟨before ++ b :: after, u⟩

def Reaches (limit : Nat) : Pool α → Pool α → Prop := Relation.ReflTransGen (Next limit)

def Ends (limit : Nat) (p : Pool α) (answers : List α) (t : FileTree) : Prop := p.Reaches limit ⟨answers.map .finished, t⟩

section Invariant
variable {ι : Type} (ids : List ι) (good : FileTree → Prop) (fits : ι → FileTree → Task α → Prop)

structure Keeps : Prop where
  begins : ∀ {i t s}, fits i t (.waiting s) → fits i t (.running s)
  moves : ∀ {i t u a b}, i ∈ ids → good t → fits i t a → a.Moves t b u →
    good u ∧ fits i u b ∧ ∀ j ∈ ids, j ≠ i → ∀ task, fits j t task → fits j u task

structure Fit (p : Pool α) : Prop where
  tree : good p.tree
  tasks : ids.Forall₂ (fun i task => fits i p.tree task) p.tasks

variable {ids good fits}

theorem splitAt {own : ι → Task α → Prop} {before after : List (Task α)} {a : Task α}
    (tasks : ids.Forall₂ own (before ++ a :: after)) :
    ∃ first i last, ids = first ++ i :: last ∧ first.Forall₂ own before ∧ own i a ∧ last.Forall₂ own after := by
  induction before generalizing ids with
  | nil =>
    obtain ⟨i, last, here, others, rfl⟩ := List.forall₂_cons_right_iff.mp tasks
    exact ⟨[], i, last, rfl, .nil, here, others⟩
  | cons task before ih =>
    obtain ⟨j, rest, next, others, rfl⟩ := List.forall₂_cons_right_iff.mp tasks
    obtain ⟨first, i, last, rfl, left, here, right⟩ := ih others
    exact ⟨j :: first, i, last, rfl, .cons next left, here, right⟩

theorem taskAt {own : ι → Task α → Prop} {before after : List (Task α)} {a : Task α}
    (tasks : ids.Forall₂ own (before ++ a :: after)) {i : ι} (at? : ids[before.length]? = some i) : i ∈ ids ∧ own i a := by
  obtain ⟨first, j, last, rfl, left, here, _⟩ := splitAt tasks
  rw [← left.length_eq, List.getElem?_append_right le_rfl, Nat.sub_self] at at?
  cases at?
  exact ⟨by simp, here⟩

theorem taskOf {own : ι → Task α → Prop} {tasks : List (Task α)} (each : ids.Forall₂ own tasks) {i : ι} (known : i ∈ ids) :
    ∃ task, own i task := by
  induction each with
  | nil => cases known
  | cons own _ ih =>
    rcases List.mem_cons.mp known with rfl | later
    · exact ⟨_, own⟩
    · exact ih later

theorem Fit.next (keeps : Keeps ids good fits) (distinct : ids.Nodup) {p q : Pool α} (fit : Fit ids good fits p)
    (next : Next limit p q) : Fit ids good fits q := by
  cases next with
  | begin room =>
    obtain ⟨first, i, last, rfl, left, here, right⟩ := splitAt fit.tasks
    exact ⟨fit.tree, List.rel_append left (.cons (keeps.begins here) right)⟩
  | @move before after a b t u moves =>
    obtain ⟨first, i, last, rfl, left, here, right⟩ := splitAt fit.tasks
    obtain ⟨goodU, own, others⟩ := keeps.moves (by simp) fit.tree here moves
    have still {some : List ι} {tasks : List (Task α)} (apart : ∀ j ∈ some, j ∈ first ++ i :: last ∧ j ≠ i)
        (before : some.Forall₂ (fun j task => fits j t task) tasks) : some.Forall₂ (fun j task => fits j u task) tasks :=
      ((List.forall₂_and_left _ _).mpr ⟨apart, before⟩).imp fun j task ⟨⟨known, other⟩, ok⟩ => others j known other task ok
    have alone := List.nodup_middle.mp distinct
    rw [List.nodup_cons] at alone
    refine ⟨goodU, List.rel_append (still (fun j member => ⟨by simp [member], ?_⟩) left)
      (.cons own (still (fun j member => ⟨by simp [member], ?_⟩) right))⟩
    all_goals
      rintro rfl
      exact alone.1 (by simp [member])

theorem Fit.reaches (keeps : Keeps ids good fits) (distinct : ids.Nodup) {p q : Pool α} (fit : Fit ids good fits p)
    (reaches : p.Reaches limit q) : Fit ids good fits q := by
  induction reaches with
  | refl => exact fit
  | tail _ next ih => exact ih.next keeps distinct next

end Invariant

theorem runsAlone (s : Script α) (before after : List (Task α)) (t : FileTree) :
    Reaches limit ⟨before ++ .running s :: after, t⟩ ⟨before ++ .finished (s.run t).1 :: after, (s.run t).2⟩ := by
  induction s generalizing t with
  | done a => exact .single (.move (.finish a t))
  | ask p next ih => exact .head (.move (.ask p next t)) (ih _ t)
  | read p next ih => exact .head (.move (.read p next t)) (ih _ t)
  | list p shown next ih => exact .head (.move (.list p shown next t)) (ih _ t)
  | step s next ih => exact .head (.move (.made s next t)) (ih _ _)
  | wait n next ih => exact .head (.move (.wait n next t)) (ih () t)

/- One after the other is a way for them to run beside each other. -/
theorem endsOneByOne (room : 0 < limit) (scripts : List (Script α)) (t : FileTree) :
    (ofScripts scripts t).Ends limit (Script.oneByOne scripts t).1 (Script.oneByOne scripts t).2 := by
  have behind (earlier : List α) : Reaches limit ⟨earlier.map .finished ++ scripts.map .waiting, t⟩
      ⟨(earlier ++ (Script.oneByOne scripts t).1).map .finished, (Script.oneByOne scripts t).2⟩ := by
    induction scripts generalizing earlier t with
    | nil =>
      rw [Script.oneByOne, List.append_nil, List.map_nil, List.append_nil]
      exact .refl
    | cons s rest ih =>
      have idle : (earlier.map Task.finished ++ rest.map Task.waiting).countP (·.isRunning) = 0 := by
        refine List.countP_eq_zero.mpr fun task member => ?_
        rcases List.mem_append.mp member with past | future
        · obtain ⟨_, _, rfl⟩ := List.mem_map.mp past
          exact Bool.false_ne_true
        · obtain ⟨_, _, rfl⟩ := List.mem_map.mp future
          exact Bool.false_ne_true
      have later := ih (s.run t).2 (earlier ++ [(s.run t).1])
      rw [List.map_append, List.append_assoc, List.append_assoc] at later
      exact .head (.begin (by rw [idle]; exact room)) ((runsAlone s _ _ t).trans later)
  exact behind []

theorem endsRunning (earlier tasks : List (Task α)) (t : FileTree) : ∃ later u,
    Reaches limit ⟨earlier ++ tasks, t⟩ ⟨earlier ++ later, u⟩ ∧ later.countP (·.isRunning) = 0 := by
  induction tasks generalizing earlier t with
  | nil => exact ⟨[], t, .refl, rfl⟩
  | cons task rest ih =>
    have onward (idle : Task α) (none : idle.isRunning = false) (u : FileTree)
        (reaches : Reaches limit ⟨earlier ++ task :: rest, t⟩ ⟨earlier ++ idle :: rest, u⟩) : ∃ later v,
        Reaches limit ⟨earlier ++ task :: rest, t⟩ ⟨earlier ++ later, v⟩ ∧ later.countP (·.isRunning) = 0 := by
      obtain ⟨later, v, further, still⟩ := ih (earlier ++ [idle]) u
      rw [List.append_assoc, List.append_assoc] at further
      exact ⟨idle :: later, v, reaches.trans further, by rw [List.countP_cons_of_neg (by simp [none]), still]⟩
    cases task with
    | waiting s => exact onward (.waiting s) rfl t .refl
    | running s => exact onward (.finished (s.run t).1) rfl _ (runsAlone s _ _ t)
    | finished a => exact onward (.finished a) rfl t .refl

theorem endsWaiting (room : 0 < limit) (earlier : List α) (tasks : List (Task α)) (idle : tasks.countP (·.isRunning) = 0)
    (t : FileTree) : ∃ answers u, Ends limit ⟨earlier.map .finished ++ tasks, t⟩ answers u := by
  induction tasks generalizing earlier t with
  | nil => exact ⟨earlier, t, by rw [List.append_nil]; exact .refl⟩
  | cons task rest ih =>
    have none : (earlier.map Task.finished).countP (·.isRunning) = 0 := by
      rw [List.countP_map]
      exact List.countP_eq_zero.mpr fun _ _ => Bool.false_ne_true
    have onward (a : α) (still : rest.countP (·.isRunning) = 0) (u : FileTree)
        (reaches : Reaches limit ⟨earlier.map .finished ++ task :: rest, t⟩ ⟨earlier.map .finished ++ .finished a :: rest, u⟩) :
        ∃ answers u, Ends limit ⟨earlier.map .finished ++ task :: rest, t⟩ answers u := by
      obtain ⟨answers, v, further⟩ := ih (earlier ++ [a]) still u
      rw [List.map_append, List.append_assoc] at further
      exact ⟨answers, v, reaches.trans further⟩
    cases task with
    | waiting s =>
      have others : rest.countP (·.isRunning) = 0 := idle
      have begins : Next limit ⟨earlier.map .finished ++ .waiting s :: rest, t⟩
          ⟨earlier.map .finished ++ .running s :: rest, t⟩ :=
        .begin (by rw [List.countP_append, none, others]; exact room)
      exact onward (s.run t).1 others _ (.head begins (runsAlone s _ _ t))
    | running s => simp [Task.isRunning] at idle
    | finished a => exact onward a idle t .refl

theorem mayEnd (room : 0 < limit) (p : Pool α) : ∃ answers t, p.Ends limit answers t := by
  obtain ⟨later, u, reaches, idle⟩ := endsRunning [] p.tasks p.tree
  obtain ⟨answers, v, ends⟩ := endsWaiting room [] later idle u
  exact ⟨answers, v, reaches.trans ends⟩

end Pool

end TransitTimeline
