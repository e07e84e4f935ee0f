import TransitTimeline.Source.Reads

/-! What a source is asked and what it answers, event by event. The events of two works at once are those of either one in
its own order, whatever turns they take; a joined work comes to its end when both have, or when one of them fails. -/
namespace TransitTimeline

inductive Event where
  | read (location : String) (answer : Answer)
  | wait (milliseconds : Nat)

namespace Reads
variable {σ α β ε : Type} {x y z : Reads α} {e : Event} {events : List Event}

inductive Step : Reads α → Event → Reads α → Prop
  | read (location : String) (next : Answer → Reads α) (answer : Answer) :
      Step (.read location next) (.read location answer) (next answer)
  | wait (milliseconds : Nat) (next : Reads α) : Step (.wait milliseconds next) (.wait milliseconds) next

inductive Goes : Reads α → List Event → Reads α → Prop
  | here (x : Reads α) : Goes x [] x
  | step {x y z : Reads α} {e : Event} {events : List Event} (first : Step x e y) (onward : Goes y events z) :
      Goes x (e :: events) z

inductive Happens (source : Source (StateM σ)) (pause : Nat → StateM σ Unit) : σ → List Event → σ → Prop
  | nil (s : σ) : Happens source pause s [] s
  | read {location answer s t u events} (first : (source location).run s = (answer, t)) (rest : Happens source pause t events u) :
      Happens source pause s (.read location answer :: events) u
  | wait {milliseconds s t u events} (first : (pause milliseconds).run s = ((), t)) (rest : Happens source pause t events u) :
      Happens source pause s (.wait milliseconds :: events) u

inductive Merged : List Event → List Event → List Event → Prop
  | nil : Merged [] [] []
  | left {e : Event} {p q all : List Event} (rest : Merged p q all) : Merged (e :: p) q (e :: all)
  | right {e : Event} {p q all : List Event} (rest : Merged p q all) : Merged p (e :: q) (e :: all)

section Run

theorem Goes.fromDone {a : α} (goes : Goes (done a) events z) : events = [] ∧ z = done a := by
  cases goes with
  | here => exact ⟨rfl, rfl⟩
  | step first => cases first

variable {source : Source (StateM σ)} {pause : Nat → StateM σ Unit} {s t u : σ}

theorem Happens.answered {location : String} {answer : Answer} (happens : Happens source pause s events t)
    (member : .read location answer ∈ events) : ∃ u v, (source location).run u = (answer, v) := by
  induction happens with
  | nil => cases member
  | read first _ ih =>
    rcases List.mem_cons.mp member with own | later
    · cases own
      exact ⟨_, _, first⟩
    · exact ih later
  | wait _ _ ih => exact ih (by simpa using member)

theorem runBind {x : StateM σ α} {f : α → StateM σ β} {a : α} (known : x.run s = (a, t)) :
    (x >>= f).run s = (f a).run t := by
  rw [StateT.run_bind, known]
  rfl

theorem throughExactly {a : α} : (x.through source pause).run s = (a, t) ↔
    ∃ events, Goes x events (done a) ∧ Happens source pause s events t := by
  induction x generalizing s with
  | done b =>
    constructor
    · intro run
      cases run
      exact ⟨[], .here _, .nil _⟩
    · rintro ⟨events, goes, happens⟩
      obtain ⟨rfl, same⟩ := goes.fromDone
      cases same
      cases happens
      rfl
  | read location next ih =>
    obtain ⟨answer, u, first⟩ : ∃ answer u, (source location).run s = (answer, u) := ⟨_, _, rfl⟩
    rw [through, runBind first, ih]
    constructor
    · rintro ⟨events, goes, happens⟩
      exact ⟨_, .step (.read location next answer) goes, .read first happens⟩
    · rintro ⟨_, goes, happens⟩
      cases goes with
      | step own onward =>
        cases own
        cases happens with
        | read also rest =>
          obtain ⟨rfl, rfl⟩ := Prod.mk.inj (first.symm.trans also)
          exact ⟨_, onward, rest⟩
  | wait n next ih =>
    obtain ⟨_, u, first⟩ : ∃ w u, (pause n).run s = (w, u) := ⟨_, _, rfl⟩
    rw [through, runBind first, ih]
    constructor
    · rintro ⟨events, goes, happens⟩
      exact ⟨_, .step (.wait n next) goes, .wait first happens⟩
    · rintro ⟨_, goes, happens⟩
      cases goes with
      | step own onward =>
        cases own
        cases happens with
        | wait also rest =>
          obtain ⟨_, rfl⟩ := Prod.mk.inj (first.symm.trans also)
          exact ⟨_, onward, rest⟩

end Run

theorem throughBind {m : Type → Type} [Monad m] [LawfulMonad m] {source : Source m} {pause : Nat → m Unit} (x : Reads α)
    (f : α → Reads β) : (x >>= f).through source pause = x.through source pause >>= fun a => (f a).through source pause := by
  induction x with
  | done a =>
    rw [through, pure_bind]
    rfl
  | read location next ih =>
    rw [through, bind_assoc]
    exact congrArg (source location >>= ·) (funext fun answer => ih answer)
  | wait n next ih =>
    rw [through, bind_assoc]
    exact congrArg (pause n >>= ·) (funext fun _ => ih)

section Bind
variable {f : α → Reads β} {w : Reads β}

theorem bindStep (step : Step (x >>= f) e w) :
    (∃ y, Step x e y ∧ w = y >>= f) ∨ ∃ a, x = done a ∧ Step (f a) e w := by
  cases x with
  | done a => exact .inr ⟨a, rfl, step⟩
  | read location next =>
    cases step with
    | read _ _ answer => exact .inl ⟨_, .read location next answer, rfl⟩
  | wait n next =>
    cases step
    exact .inl ⟨_, .wait n next, rfl⟩

theorem bindGoes (goes : Goes (x >>= f) events w) : (∃ y, Goes x events y ∧ w = y >>= f) ∨
    ∃ a p q, events = p ++ q ∧ Goes x p (done a) ∧ Goes (f a) q w := by
  generalize same : x >>= f = start at goes
  induction goes generalizing x with
  | here => exact .inl ⟨x, .here x, same.symm⟩
  | @step _ middle _ e rest first onward ih =>
    subst same
    rcases bindStep first with ⟨y, own, rfl⟩ | ⟨a, rfl, own⟩
    · rcases ih rfl with ⟨z, later, last⟩ | ⟨a, p, q, rfl, later, behind⟩
      · exact .inl ⟨z, .step own later, last⟩
      · exact .inr ⟨a, e :: p, q, rfl, .step own later, behind⟩
    · exact .inr ⟨a, [], e :: rest, rfl, .here _, .step own onward⟩

theorem bindDone {b : β} (ended : x >>= f = done b) : ∃ a, x = done a ∧ f a = done b := by
  cases x with
  | done a => exact ⟨a, rfl, ended⟩
  | read => cases ended
  | wait => cases ended

theorem bindGoesDone {b : β} (goes : Goes (x >>= f) events (done b)) :
    ∃ a p q, events = p ++ q ∧ Goes x p (done a) ∧ Goes (f a) q (done b) := by
  rcases bindGoes goes with ⟨y, own, ended⟩ | rest
  · obtain ⟨a, rfl, same⟩ := bindDone ended.symm
    exact ⟨a, events, [], by simp, own, same ▸ .here _⟩
  · exact rest

end Bind

section Merged
variable {p q all : List Event}

theorem Merged.mem (merged : Merged p q all) : e ∈ all ↔ e ∈ p ∨ e ∈ q := by
  induction merged with
  | nil => simp
  | left _ ih => simp only [List.mem_cons, ih, or_assoc]
  | right _ ih => simp only [List.mem_cons, ih, or_left_comm]

end Merged

section Beside
variable {turns : List Bool} {x x' : Reads (Except ε α)} {y y' : Reads (Except ε β)} {z : Reads (Except ε (α × β))}

theorem failed {c : ε} (failure : x.failure? = some c) : x = done (.error c) := by
  cases x with
  | done r =>
    cases r with
    | ok a => cases failure
    | error d => cases failure; rfl
  | read => cases failure
  | wait => cases failure

theorem besideFailed {c : ε} (failure : x.failure?.or y.failure? = some c) : beside turns x y = done (.error c) := by
  rw [beside.eq_def, failure]

theorem besideOnward (fine : x.failure?.or y.failure? = none) : beside turns x y =
    match turns with
    | [] => both x y
    | true :: turns => x.onward fun x => beside turns x y
    | false :: turns => y.onward fun y => beside turns x y := by
  have own := beside.eq_def turns x y
  rw [fine] at own
  exact own

theorem besideLast (alone : y.failure? = none ∨ ∃ a, x = done (.ok a)) : beside [] x y = both x y := by
  cases failure : x.failure?.or y.failure? with
  | none => exact besideOnward failure
  | some c =>
    rw [besideFailed failure]
    rcases Option.or_eq_some_iff.mp failure with first | ⟨none, second⟩
    · rw [failed first]
      rfl
    · rcases alone with fine | ⟨a, rfl⟩
      · cases fine.symm.trans second
      · rw [failed second]
        rfl

theorem besideStep (step : Step (beside turns x y) e z) : ∃ later,
    (∃ x', Step x e x' ∧ z = beside later x' y) ∨ ∃ y', Step y e y' ∧ z = beside later x y' := by
  cases failure : x.failure?.or y.failure? with
  | some c =>
    rw [besideFailed failure] at step
    cases step
  | none =>
    have fine := (Option.or_eq_none_iff.mp failure).2
    induction turns with
    | nil =>
      rw [besideOnward failure] at step
      rcases bindStep step with ⟨x', own, rfl⟩ | ⟨r, rfl, step⟩
      · exact ⟨[], .inl ⟨x', own, (besideLast (.inl fine)).symm⟩⟩
      · cases r with
        | error c => cases step
        | ok a =>
          rcases bindStep (x := y) step with ⟨y', own, rfl⟩ | ⟨r, rfl, step⟩
          · exact ⟨[], .inr ⟨y', own, (besideLast (.inr ⟨a, rfl⟩)).symm⟩⟩
          · cases r <;> cases step
    | cons first turns ih =>
      rw [besideOnward failure] at step
      cases first with
      | true =>
        cases x with
        | done r => exact ih step
        | read location next =>
          cases step with
          | read _ _ answer => exact ⟨turns, .inl ⟨_, .read location next answer, rfl⟩⟩
        | wait n next =>
          cases step
          exact ⟨turns, .inl ⟨_, .wait n next, rfl⟩⟩
      | false =>
        cases y with
        | done r => exact ih step
        | read location next =>
          cases step with
          | read _ _ answer => exact ⟨turns, .inr ⟨_, .read location next answer, rfl⟩⟩
        | wait n next =>
          cases step
          exact ⟨turns, .inr ⟨_, .wait n next, rfl⟩⟩

theorem besideGoes {events : List Event} (goes : Goes (beside turns x y) events z) : ∃ p q x' y' later,
    Merged p q events ∧ Goes x p x' ∧ Goes y q y' ∧ z = beside later x' y' := by
  generalize same : beside turns x y = start at goes
  -- each event extends the course of the work that it belongs to, and what is left is joined again with other turns
  induction goes generalizing turns x y with
  | here => exact ⟨[], [], x, y, turns, .nil, .here x, .here y, same.symm⟩
  | step first _ ih =>
    subst same
    obtain ⟨later, ⟨x', own, rfl⟩ | ⟨y', own, rfl⟩⟩ := besideStep first
    · obtain ⟨p, q, x'', y'', last, merged, left, right, rfl⟩ := ih rfl
      exact ⟨_, q, x'', y'', last, .left merged, .step own left, right, rfl⟩
    · obtain ⟨p, q, x'', y'', last, merged, left, right, rfl⟩ := ih rfl
      exact ⟨p, _, x'', y'', last, .right merged, left, .step own right, rfl⟩

theorem Goes.fine (goes : Goes x events x') (fine : x'.failure? = none) : x.failure? = none := by
  cases goes with
  | here => exact fine
  | step first _ => cases first <;> rfl

/- Turns lead through the events of two works in whatever order they come. -/
theorem besideReaches {p q events : List Event} (merged : Merged p q events) (left : Goes x p x') (right : Goes y q y')
    (fine : x'.failure?.or y'.failure? = none) : ∃ turns, Goes (beside turns x y) events (beside [] x' y') := by
  have fine := Option.or_eq_none_iff.mp fine
  induction merged generalizing x y with
  | nil =>
    cases left
    cases right
    exact ⟨[], .here _⟩
  | left _ ih =>
    have before := Option.or_eq_none_iff.mpr ⟨left.fine fine.1, right.fine fine.2⟩
    cases left with
    | step first onward =>
      obtain ⟨turns, goes⟩ := ih onward right
      refine ⟨true :: turns, .step ?_ goes⟩
      rw [besideOnward before]
      cases first with
      | read location next answer => exact .read location _ answer
      | wait n next => exact .wait n _
  | right _ ih =>
    have before := Option.or_eq_none_iff.mpr ⟨left.fine fine.1, right.fine fine.2⟩
    cases right with
    | step first onward =>
      obtain ⟨turns, goes⟩ := ih left onward
      refine ⟨false :: turns, .step ?_ goes⟩
      rw [besideOnward before]
      cases first with
      | read location next answer => exact .read location _ answer
      | wait n next => exact .wait n _

inductive Ends : Reads (Except ε α) → Reads (Except ε β) → Except ε (α × β) → Prop
  | both (a : α) (b : β) : Ends (done (.ok a)) (done (.ok b)) (.ok (a, b))
  | left (c : ε) (y : Reads (Except ε β)) : Ends (done (.error c)) y (.error c)
  | right (c : ε) (x : Reads (Except ε α)) : Ends x (done (.error c)) (.error c)

theorem besideDone {r : Except ε (α × β)} (ended : beside turns x y = done r) : Ends x y r := by
  cases failure : x.failure?.or y.failure? with
  | some c =>
    rw [besideFailed failure] at ended
    cases ended
    rcases Option.or_eq_some_iff.mp failure with first | ⟨_, second⟩
    · rw [failed first]
      exact .left c y
    · rw [failed second]
      exact .right c x
  | none =>
    induction turns with
    | nil =>
      rw [besideOnward failure] at ended
      obtain ⟨a | a, rfl, ended⟩ := bindDone ended
      · cases failure
      · obtain ⟨b | b, rfl, ended⟩ := bindDone (x := y) ended
        · cases failure
        · cases ended
          exact .both a b
    | cons first turns ih =>
      rw [besideOnward failure] at ended
      cases first with
      | true =>
        cases x with
        | done r => exact ih ended
        | read => cases ended
        | wait => cases ended
      | false =>
        cases y with
        | done r => exact ih ended
        | read => cases ended
        | wait => cases ended

end Beside

end Reads

end TransitTimeline
