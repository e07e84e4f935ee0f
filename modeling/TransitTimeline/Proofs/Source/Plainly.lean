import TransitTimeline.Proofs.Source.Joined

/-! Work through a source that has one answer for each location. Whatever turns joined works take, each comes to what it comes
to alone; the turns only decide which of several failures is given. -/
namespace TransitTimeline

namespace Reads
variable {α β : Type} {source : Source Id} {x x' : Reads α} {events : List Event}

def plainly (source : Source Id) (x : Reads α) : α := x.through source fun _ => ()

section Plainly

theorem plainlyBind (f : α → Reads β) : (x >>= f).plainly source = (f (x.plainly source)).plainly source := throughBind x f

theorem throughAsked (x : Reads α) : x.through Source.asked pause = x := by
  induction x with
  | done a => rfl
  | read location next ih => exact congrArg (Reads.read location) (funext ih)
  | wait n next ih => exact congrArg (Reads.wait n) ih

def Served (source : Source Id) (events : List Event) : Prop :=
  ∀ location answer, Event.read location answer ∈ events → answer = source location

theorem plainlyGoes (source : Source Id) (x : Reads α) :
    ∃ events, Goes x events (done (x.plainly source)) ∧ Served source events := by
  induction x with
  | done a => exact ⟨[], .here _, by simp [Served]⟩
  | read location next ih =>
    obtain ⟨events, goes, served⟩ := ih (source location)
    refine ⟨.read location (source location) :: events, .step (.read location next _) goes, ?_⟩
    intro other answer member
    rcases List.mem_cons.mp member with own | later
    · cases own; rfl
    · exact served other answer later
  | wait n next ih =>
    obtain ⟨events, goes, served⟩ := ih
    exact ⟨.wait n :: events, .step (.wait n next) goes, fun other answer member => served other answer (by simpa using member)⟩

theorem plainlyOnly {a : α} (goes : Goes x events (done a)) (served : Served source events) : x.plainly source = a := by
  generalize last : done a = y at goes
  induction goes with
  | here => subst last; rfl
  | step first _ ih =>
    have later := ih (fun location answer member => served location answer (List.mem_cons_of_mem _ member)) last
    cases first with
    | read location next answer =>
      rw [served location answer List.mem_cons_self] at later
      exact later
    | wait => exact later

end Plainly

section Joined
variable {ε : Type} {turns : List Bool} {x : Reads (Except ε α)} {y : Reads (Except ε β)} {c : ε}

theorem besidePlainly (source : Source Id) (turns : List Bool) (x : Reads (Except ε α)) (y : Reads (Except ε β)) :
    Ends (done (x.plainly source)) (done (y.plainly source)) ((beside turns x y).plainly source) := by
  obtain ⟨events, goes, served⟩ := plainlyGoes source (beside turns x y)
  obtain ⟨p, q, x', y', later, merged, left, right, ended⟩ := besideGoes goes
  have first : Served source p := fun location answer member => served location answer (merged.mem.mpr (.inl member))
  have second : Served source q := fun location answer member => served location answer (merged.mem.mpr (.inr member))
  generalize (beside turns x y).plainly source = r at ended ⊢
  cases besideDone ended.symm with
  | both a b =>
    rw [plainlyOnly left first, plainlyOnly right second]
    exact .both a b
  | left c =>
    rw [plainlyOnly left first]
    exact .left c _
  | right c =>
    rw [plainlyOnly right second]
    exact .right c _

theorem besideEnds {r : Except ε (α × β)} (ended : done ((beside turns x y).plainly source) = done r) :
    Ends (done (x.plainly source)) (done (y.plainly source)) r := by
  cases ended
  exact besidePlainly source turns x y

theorem besideFine (turns : List Bool) (left : x.failure? = none) (right : y.failure? = none) :
    (beside turns x y).failure? = none := by
  cases failure : (beside turns x y).failure? with
  | none => rfl
  | some c =>
    cases besideDone (failed failure) with
    | left => cases left
    | right => cases right

theorem leftFirst (fine : y.failure? = none) (fails : x.plainly source = .error c) :
    ∃ turns, (beside turns x y).plainly source = .error c := by
  refine ⟨[], ?_⟩
  rw [besideLast (.inl fine), both, plainlyBind, fails]
  rfl

theorem rightFirst (fine : x.failure? = none) (fails : y.plainly source = .error c) :
    ∃ turns, (beside turns x y).plainly source = .error c := by
  induction y with
  | done r =>
    obtain rfl : r = .error c := fails
    refine ⟨[], ?_⟩
    rw [besideFailed (c := c) (by rw [fine]; rfl)]
    rfl
  | read location next ih =>
    obtain ⟨turns, ended⟩ := ih _ fails
    refine ⟨false :: turns, ?_⟩
    rw [besideOnward (by rw [fine]; rfl)]
    exact ended
  | wait n next ih =>
    obtain ⟨turns, ended⟩ := ih fails
    refine ⟨false :: turns, ?_⟩
    rw [besideOnward (by rw [fine]; rfl)]
    exact ended

end Joined

end Reads

end TransitTimeline
