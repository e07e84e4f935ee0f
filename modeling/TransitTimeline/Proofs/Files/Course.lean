import TransitTimeline.Files.Script

/-! What may become of a script where every step may fail and the process may stop at any moment. Renaming is made as a
whole or not at all; directories may be made, files written and directories removed in part. -/
namespace TransitTimeline

mutual

inductive Remnant : FileTree → FileTree → Prop where
  | whole (t : FileTree) : Remnant t t
  | part {entries left : FileTree.Entries} (partly : Remnants entries left) : Remnant (.directory entries) (.directory left)

inductive Remnants : FileTree.Entries → FileTree.Entries → Prop where
  | nil : Remnants [] []
  | gone {name : String} {t : FileTree} {entries left : FileTree.Entries} (rest : Remnants entries left) :
      Remnants ((name, t) :: entries) left
  | left {name : String} {t u : FileTree} {entries left : FileTree.Entries} (partly : Remnant t u)
      (rest : Remnants entries left) : Remnants ((name, t) :: entries) ((name, u) :: left)

end

theorem remnantNames : {entries left : FileTree.Entries} → Remnants entries left →
    (left.map (·.1)).Sublist (entries.map (·.1))
  | _, _, .nil => .slnil
  | _, _, .gone rest => (remnantNames rest).cons _
  | _, _, .left _ rest => (remnantNames rest).cons_cons _

inductive FileStep.Partly : FileStep → FileTree → FileTree → Prop where
  | untouched (s : FileStep) (t : FileTree) : Partly s t t
  | made {p q : Path} (partly : q <+: p) (t : FileTree) : Partly (.makeAll p) t (t.makeAll q).2
  | written {p : Path} {bytes first : List UInt8} (partly : first <+: bytes) (t : FileTree) :
      Partly (.write p bytes) t (t.write p first).2
  | removed {p place : Path} {t u : FileTree} {entries left : FileTree.Entries} (found : t.resolve p = some place)
      (known : t.get? place = some (.directory entries)) (partly : Remnants entries left)
      (set : t.set? (some (.directory left)) place = some u) : Partly (.removeAll p) t u

namespace Script
variable {α β : Type}

/- A course of a script, with the steps that are made, its answer if it comes to one, and the tree in the end. Looking
may fail to find what is there. -/
inductive Leads : Script α → FileTree → List FileStep → Option α → FileTree → Prop where
  | stops (s : Script α) (t : FileTree) : Leads s t [] none t
  | done (a : α) (t : FileTree) : Leads (.done a) t [] (some a) t
  | ask {p : Path} {next : Bool → Script α} {t u : FileTree} {made : List FileStep} {o : Option α} (answer : Bool)
      (there : answer = true → t.exists? p) (on : Leads (next answer) t made o u) : Leads (.ask p next) t made o u
  | read {p : Path} {next : Option (List UInt8) → Script α} {t u : FileTree} {made : List FileStep} {o : Option α}
      (found : Option (List UInt8)) (there : ∀ bytes ∈ found, t.read? p = some bytes)
      (on : Leads (next found) t made o u) : Leads (.read p next) t made o u
  | list {p : Path} {shown : String} {next : List String → Script α} {t u : FileTree} {made : List FileStep} {o : Option α}
      (names : List String) (there : names.Sublist (listed p shown t)) (on : Leads (next names) t made o u) :
      Leads (.list p shown next) t made o u
  | made {s : FileStep} {next : Bool → Script α} {t u v : FileTree} {made : List FileStep} {o : Option α}
      (change : s.apply t = (true, u)) (on : Leads (next true) u made o v) : Leads (.step s next) t (s :: made) o v
  | failed {s : FileStep} {next : Bool → Script α} {t u v : FileTree} {made : List FileStep} {o : Option α}
      (partly : s.Partly t u) (on : Leads (next false) u made o v) : Leads (.step s next) t made o v
  | broken {s : FileStep} {next : Bool → Script α} {t u : FileTree} (partly : s.Partly t u) :
      Leads (.step s next) t [] none u
  | wait {milliseconds : Nat} {next : Unit → Script α} {t u : FileTree} {made : List FileStep} {o : Option α}
      (on : Leads (next ()) t made o u) : Leads (.wait milliseconds next) t made o u

theorem partlyOfFalse {s : FileStep} {t u : FileTree} (change : s.apply t = (false, u)) : s.Partly t u := by
  have unchanged {new : Option FileTree} (none : FileTree.orFail t new = (false, u)) : u = t := by
    cases new <;> cases none
    rfl
  cases s with
  | makeAll p =>
    have tree : (t.makeAll p).2 = u := congrArg Prod.snd change
    rw [← tree]
    exact .made (List.prefix_rfl) t
  | removeAll p => rw [unchanged change]; exact .untouched _ t
  | write p bytes => rw [unchanged change]; exact .untouched _ t
  | rename source target => rw [unchanged change]; exact .untouched _ t

theorem leadsRun (s : Script α) (t : FileTree) : ∃ made, s.Leads t made (some (s.run t).1) (s.run t).2 := by
  induction s generalizing t with
  | done a => exact ⟨[], .done a t⟩
  | ask p next ih =>
    obtain ⟨made, on⟩ := ih (t.exists? p) t
    exact ⟨made, .ask _ (fun there => there) on⟩
  | read p next ih =>
    obtain ⟨made, on⟩ := ih (t.read? p) t
    exact ⟨made, .read _ (fun _ there => there) on⟩
  | list p shown next ih =>
    obtain ⟨made, on⟩ := ih (listed p shown t) t
    exact ⟨made, .list _ (.refl _) on⟩
  | step s next ih =>
    obtain ⟨made, on⟩ := ih (s.apply t).1 (s.apply t).2
    rw [run]
    cases change : s.apply t with
    | mk answer u =>
      rw [change] at on
      cases answer with
      | true => exact ⟨s :: made, .made change on⟩
      | false => exact ⟨made, .failed (partlyOfFalse change) on⟩
  | wait n next ih =>
    obtain ⟨made, on⟩ := ih () t
    exact ⟨made, .wait on⟩

def runFor : Nat → Script α → FileTree → List FileStep × Option α × FileTree
  | 0, _, t => ([], none, t)
  | _ + 1, done a, t => ([], some a, t)
  | n + 1, ask p next, t => runFor n (next (t.exists? p)) t
  | n + 1, read p next, t => runFor n (next (t.read? p)) t
  | n + 1, list p shown next, t => runFor n (next (listed p shown t)) t
  | n + 1, step s next, t =>
    match s.apply t with
    | (true, u) => ((runFor n (next true) u).1.cons s, (runFor n (next true) u).2)
    | (false, u) => runFor n (next false) u
  | n + 1, wait _ next, t => runFor n (next ()) t

theorem leadsFor (n : Nat) (s : Script α) (t : FileTree) :
    s.Leads t (s.runFor n t).1 (s.runFor n t).2.1 (s.runFor n t).2.2 := by
  induction n generalizing s t with
  | zero => exact .stops s t
  | succ n ih =>
    cases s with
    | done a => exact .done a t
    | ask p next => exact .ask _ (fun there => there) (ih (next (t.exists? p)) t)
    | read p next => exact .read _ (fun _ there => there) (ih (next (t.read? p)) t)
    | list p shown next => exact .list _ (.refl _) (ih (next (listed p shown t)) t)
    | step s next =>
      rw [runFor]
      cases change : s.apply t with
      | mk answer u =>
        cases answer with
        | true => exact .made change (ih (next true) u)
        | false => exact .failed (partlyOfFalse change) (ih (next false) u)
    | wait n next => exact .wait (ih (next ()) t)

theorem leadsBind {s : Script α} {f : α → Script β} {t u : FileTree} {made : List FileStep} {o : Option β}
    (leads : (s.bind f).Leads t made o u) : (o = none ∧ s.Leads t made none u) ∨
      ∃ a first second v, s.Leads t first (some a) v ∧ (f a).Leads v second o u ∧ made = first ++ second := by
  induction s generalizing t made with
  | done a => exact .inr ⟨a, [], made, t, .done a t, leads, rfl⟩
  | ask p next ih =>
    cases leads with
    | stops => exact .inl ⟨rfl, .stops _ _⟩
    | ask answer there on =>
      rcases ih answer on with ⟨stopped, begun⟩ | ⟨a, first, second, v, begun, later, rfl⟩
      · exact .inl ⟨stopped, .ask answer there begun⟩
      · exact .inr ⟨a, first, second, v, .ask answer there begun, later, rfl⟩
  | read p next ih =>
    cases leads with
    | stops => exact .inl ⟨rfl, .stops _ _⟩
    | read found there on =>
      rcases ih found on with ⟨stopped, begun⟩ | ⟨a, first, second, v, begun, later, rfl⟩
      · exact .inl ⟨stopped, .read found there begun⟩
      · exact .inr ⟨a, first, second, v, .read found there begun, later, rfl⟩
  | list p shown next ih =>
    cases leads with
    | stops => exact .inl ⟨rfl, .stops _ _⟩
    | list names there on =>
      rcases ih names on with ⟨stopped, begun⟩ | ⟨a, first, second, v, begun, later, rfl⟩
      · exact .inl ⟨stopped, .list names there begun⟩
      · exact .inr ⟨a, first, second, v, .list names there begun, later, rfl⟩
  | step s next ih =>
    cases leads with
    | stops => exact .inl ⟨rfl, .stops _ _⟩
    | made change on =>
      rcases ih true on with ⟨stopped, begun⟩ | ⟨a, first, second, v, begun, later, rfl⟩
      · exact .inl ⟨stopped, .made change begun⟩
      · exact .inr ⟨a, s :: first, second, v, .made change begun, later, rfl⟩
    | failed partly on =>
      rcases ih false on with ⟨stopped, begun⟩ | ⟨a, first, second, v, begun, later, rfl⟩
      · exact .inl ⟨stopped, .failed partly begun⟩
      · exact .inr ⟨a, first, second, v, .failed partly begun, later, rfl⟩
    | broken partly => exact .inl ⟨rfl, .broken partly⟩
  | wait n next ih =>
    cases leads with
    | stops => exact .inl ⟨rfl, .stops _ _⟩
    | wait on =>
      rcases ih () on with ⟨stopped, begun⟩ | ⟨a, first, second, v, begun, later, rfl⟩
      · exact .inl ⟨stopped, .wait begun⟩
      · exact .inr ⟨a, first, second, v, .wait begun, later, rfl⟩

abbrev Assertion := List FileStep → FileTree → Prop

def Ensures (before : Assertion) (s : Script α) (stopped : Assertion) (after : α → Assertion) : Prop :=
  ∀ earlier t made o u, before earlier t → s.Leads t made o u →
    (o = none → stopped (earlier ++ made) u) ∧ ∀ a ∈ o, after a (earlier ++ made) u

section Rules
variable {before stopped : Assertion} {s : Script α}

theorem ensuresDone {a : α} {after : α → Assertion} (stops : ∀ made t, before made t → stopped made t)
    (answers : ∀ made t, before made t → after a made t) : Ensures before (.done a) stopped after := by
  intro earlier t made o u holds leads
  cases leads <;> rw [List.append_nil]
  · exact ⟨fun _ => stops earlier t holds, by simp⟩
  · exact ⟨by simp, fun _ own => by cases own; exact answers earlier t holds⟩

theorem ensuresBind {f : α → Script β} {between : α → Assertion} {after : β → Assertion}
    (first : Ensures before s stopped between) (second : ∀ a, Ensures (between a) (f a) stopped after) :
    Ensures before (s >>= f) stopped after := by
  intro earlier t made o u holds leads
  rcases leadsBind leads with ⟨rfl, on⟩ | ⟨a, early, late, v, on, later, rfl⟩
  · exact ⟨fun _ => (first earlier t made none u holds on).1 rfl, by simp⟩
  · rw [← List.append_assoc]
    exact second a (earlier ++ early) v late o u ((first earlier t early (some a) v holds on).2 a rfl) later

theorem ensuresPerform {step : FileStep} {after : Bool → Assertion} (stops : ∀ made t, before made t → stopped made t)
    (answered : ∀ answer made t, after answer made t → stopped made t)
    (made : ∀ made t u, before made t → step.apply t = (true, u) → after true (made ++ [step]) u)
    (failed : ∀ made t u, before made t → step.Partly t u → after false made u) :
    Ensures before (perform step) stopped after := by
  intro earlier t steps o u holds leads
  cases leads with
  | stops => rw [List.append_nil]; exact ⟨fun _ => stops earlier t holds, by simp⟩
  | made change on =>
    have settled := made earlier t _ holds change
    cases on with
    | stops => exact ⟨fun _ => answered true _ _ settled, by simp⟩
    | done => exact ⟨by simp, fun _ own => by cases own; exact settled⟩
  | failed partly on =>
    have settled := failed earlier t _ holds partly
    cases on <;> rw [List.append_nil]
    · exact ⟨fun _ => answered false _ _ settled, by simp⟩
    · exact ⟨by simp, fun _ own => by cases own; exact settled⟩
  | broken partly =>
    rw [List.append_nil]
    exact ⟨fun _ => answered false _ _ (failed earlier t _ holds partly), by simp⟩

theorem ensuresIsThere {p : Path} (stops : ∀ made t, before made t → stopped made t) :
    Ensures before (isThere p) stopped fun answer made t => before made t ∧ (answer = true → t.exists? p) := by
  intro earlier t made o u holds leads
  cases leads with
  | stops => rw [List.append_nil]; exact ⟨fun _ => stops earlier t holds, by simp⟩
  | ask answer there on =>
    cases on <;> rw [List.append_nil]
    · exact ⟨fun _ => stops earlier t holds, by simp⟩
    · exact ⟨by simp, fun _ own => by cases own; exact ⟨holds, there⟩⟩

theorem ensuresStronger {weaker : Assertion} {after : α → Assertion} (ensures : Ensures weaker s stopped after)
    (stronger : ∀ made t, before made t → weaker made t) : Ensures before s stopped after :=
  fun earlier t made o u holds leads => ensures earlier t made o u (stronger earlier t holds) leads

theorem ensuresWeaker {after weaker : α → Assertion} (ensures : Ensures before s stopped after)
    (weak : ∀ a made t, after a made t → weaker a made t) : Ensures before s stopped weaker :=
  fun earlier t made o u holds leads =>
    have settled := ensures earlier t made o u holds leads
    ⟨settled.1, fun a own => weak a _ _ (settled.2 a own)⟩

end Rules

end Script

end TransitTimeline
