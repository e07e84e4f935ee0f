import TransitTimeline.Proofs.Source.Joined

/-! Attempts at a location. What is read again is decided by the answers: the attempts go on behind a failure only, and only
while there are some left. -/
namespace TransitTimeline.Retry
open Reads (Goes Step Happens done bindGoes bindGoesDone)

def attempted (location : String) : Nat → List Answer → List Event
  | _, [] => []
  | _, [answer] => [.read location answer]
  | delay, answer :: next :: rest => .read location answer :: .wait delay :: attempted location (delay * 2) (next :: rest)

/- Failures in a row, fewer than there may be attempts and then a success, or as many as that. -/
inductive Settles (most : Nat) : List Answer → Answer → Prop
  | success (faults : List ReadFault) {bytes : List UInt8} (within : faults.length < most) :
      Settles most (faults.map .error ++ [.ok bytes]) (.ok bytes)
  | failure (faults : List ReadFault) {last : ReadFault} (all : faults.length + 1 = most) :
      Settles most (faults.map .error ++ [.error last]) (.error (last.afterAttempts most))

theorem Settles.atMost {most : Nat} {answers : List Answer} {answer : Answer} (settles : Settles most answers answer) :
    answers.length ≤ most := by
  cases settles with
  | success _ within => simpa using Nat.succ_le_of_lt within
  | failure _ all => simpa using Nat.le_of_eq all

section Attempt
variable {location : String} {most left made delay : Nat} {answer : Answer} {events : List Event} {x : Reads Answer}

theorem attemptedCons (location : String) (delay : Nat) (answer : Answer) {rest : List Answer} (filled : rest ≠ []) :
    attempted location delay (answer :: rest) =
      .read location answer :: .wait delay :: attempted location (delay * 2) rest := by
  cases rest with
  | nil => exact absurd rfl filled
  | cons next rest => rfl

theorem lastAttempted (location : String) (delay : Nat) (earlier : List Answer) (last : Answer) :
    Event.read location last ∈ attempted location delay (earlier ++ [last]) := by
  induction earlier generalizing delay with
  | nil => exact List.mem_singleton_self _
  | cons answer earlier ih =>
    rw [List.cons_append, attemptedCons _ _ _ (by simp)]
    exact List.mem_cons_of_mem _ (List.mem_cons_of_mem _ (ih _))

def attemptsAt (location : String) (left made delay : Nat) : Reads Answer :=
  attempt Reads.pause (Source.asked location) left made delay

theorem attemptsNone : attemptsAt location 0 made delay = .read location fun
    | .ok bytes => done (.ok bytes)
    | .error fault => done (.error (fault.afterAttempts (made + 1))) := by
  refine congrArg (Reads.read location) (funext fun answer => ?_)
  cases answer <;> rfl

theorem attemptsMore : attemptsAt location (left + 1) made delay = .read location fun
    | .ok bytes => done (.ok bytes)
    | .error _ => .wait delay (attemptsAt location left (made + 1) (delay * 2)) := by
  refine congrArg (Reads.read location) (funext fun answer => ?_)
  cases answer <;> rfl

theorem attemptsSettle (earlier : List ReadFault) (made : earlier.length + left + 1 = most)
    (goes : Goes (attemptsAt location left earlier.length delay) events (done answer)) :
    ∃ answers, answers ≠ [] ∧ events = attempted location delay answers ∧
      Settles most (earlier.map .error ++ answers) answer := by
  -- on the attempts left; the failures so far are carried along, as the last fault tells their number
  induction left generalizing earlier delay events with
  | zero =>
    rw [attemptsNone] at goes
    cases goes with
    | step first onward =>
      cases first with
      | read _ _ given =>
        cases given with
        | ok bytes =>
          obtain ⟨rfl, same⟩ := onward.fromDone
          cases same
          exact ⟨[.ok bytes], by simp, rfl, .success earlier (by omega)⟩
        | error fault =>
          obtain ⟨rfl, same⟩ := onward.fromDone
          cases same
          refine ⟨[.error fault], by simp, rfl, ?_⟩
          rw [← made]
          exact .failure earlier rfl
  | succ left ih =>
    rw [attemptsMore] at goes
    cases goes with
    | step first onward =>
      cases first with
      | read _ _ given =>
        cases given with
        | ok bytes =>
          obtain ⟨rfl, same⟩ := onward.fromDone
          cases same
          exact ⟨[.ok bytes], by simp, rfl, .success earlier (by omega)⟩
        | error fault =>
          cases onward with
          | step pause onward =>
            cases pause
            have length : (earlier ++ [fault]).length = earlier.length + 1 := by simp
            rw [← length] at onward
            obtain ⟨answers, filled, rfl, settles⟩ := ih (earlier ++ [fault]) (by omega) onward
            refine ⟨.error fault :: answers, by simp, (attemptedCons location delay _ filled).symm, ?_⟩
            simpa using settles

theorem attemptsBehind (location : String) (made : Nat) {faults : List ReadFault} (within : faults.length ≤ left)
    (delay : Nat) : ∃ later, ∀ {last x},
      Goes (attemptsAt location (left - faults.length) (made + faults.length) later) [.read location last] x →
        Goes (attemptsAt location left made delay) (attempted location delay (faults.map .error ++ [last])) x := by
  induction faults generalizing left made delay with
  | nil => exact ⟨delay, fun goes => goes⟩
  | cons fault faults ih =>
    obtain ⟨fewer, rfl⟩ := Nat.exists_eq_add_of_le' (Nat.one_le_of_lt within)
    obtain ⟨later, goes⟩ := ih (made + 1) (Nat.le_of_succ_le_succ within) (delay * 2)
    refine ⟨later, fun {last x} final => ?_⟩
    rw [List.length_cons, Nat.add_sub_add_right, ← Nat.add_assoc, Nat.add_right_comm] at final
    rw [List.map_cons, List.cons_append, attemptedCons _ _ _ (by simp), attemptsMore]
    exact .step (.read location _ _) (.step (.wait delay _) (goes final))

theorem settledGoes {answers : List Answer} (settles : Settles (left + 1) answers answer) :
    Goes (attemptsAt location left 0 delay) (attempted location delay answers) (done answer) := by
  cases settles with
  | @success faults bytes within =>
    obtain ⟨later, goes⟩ := attemptsBehind location 0 (Nat.le_of_lt_succ within) delay
    apply goes
    cases left - faults.length with
    | zero =>
      rw [attemptsNone]
      exact .step (.read location _ _) (.here _)
    | succ more =>
      rw [attemptsMore]
      exact .step (.read location _ _) (.here _)
  | @failure faults last all =>
    obtain rfl := Nat.succ.inj all
    obtain ⟨later, goes⟩ := attemptsBehind location 0 (Nat.le_refl faults.length) delay
    apply goes
    rw [Nat.sub_self, attemptsNone, Nat.zero_add]
    exact .step (.read location _ _) (.here _)

theorem attemptsExactly : Goes (attemptsAt location left 0 delay) events (done answer) ↔
    ∃ answers, events = attempted location delay answers ∧ Settles (left + 1) answers answer := by
  constructor
  · intro goes
    have made : ([] : List ReadFault).length + left + 1 = left + 1 := by simp
    obtain ⟨answers, _, own, settles⟩ := attemptsSettle [] made goes
    exact ⟨answers, own, settles⟩
  · rintro ⟨answers, rfl, settles⟩
    exact settledGoes settles

def Begun (most : Nat) (location : String) (delay : Nat) (events : List Event) : Prop :=
  ∃ (faults : List ReadFault) (last : Answer) (more : List Event),
    events ++ more = attempted location delay (faults.map .error ++ [last]) ∧ more ≠ [] ∧ faults.length < most

theorem begunNone (enough : 0 < most) : Begun most location delay [] :=
  ⟨[], .ok [], [.read location (.ok [])], rfl, by simp, enough⟩

theorem Begun.behind (fault : ReadFault) (begun : Begun most location (delay * 2) events) :
    Begun (most + 1) location delay (.read location (.error fault) :: .wait delay :: events) := by
  obtain ⟨faults, last, more, own, further, within⟩ := begun
  refine ⟨fault :: faults, last, more, ?_, further, Nat.succ_lt_succ within⟩
  show _ = attempted location delay (.error fault :: (faults.map .error ++ [last]))
  rw [attemptedCons _ _ _ (by simp), ← own]
  rfl

theorem attemptsBegun (goes : Goes (attemptsAt location left made delay) events x) :
    (∃ answer, x = done answer) ∨ Begun (left + 1) location delay events := by
  induction left generalizing made delay events with
  | zero =>
    rw [attemptsNone] at goes
    cases goes with
    | here => exact .inr (begunNone Nat.one_pos)
    | step first onward =>
      cases first with
      | read _ _ given => cases given <;> exact .inl ⟨_, onward.fromDone.2⟩
  | succ left ih =>
    rw [attemptsMore] at goes
    cases goes with
    | here => exact .inr (begunNone (Nat.succ_pos _))
    | step first onward =>
      cases first with
      | read _ _ given =>
        cases given with
        | ok bytes => exact .inl ⟨_, onward.fromDone.2⟩
        | error fault =>
          cases onward with
          | here => exact .inr ⟨[fault], .ok [], [.wait delay, .read location (.ok [])], rfl, by simp, by simp⟩
          | step pause onward =>
            cases pause
            exact (ih onward).imp_right (Begun.behind fault)

/- Behind its attempts a work goes on with what they gave, and it does not end before. -/
theorem attemptsOnward {β : Type} {f : Answer → Reads β} {z : Reads β}
    (goes : Goes (attemptsAt location left 0 delay >>= f) events z) :
    (∃ answers answer rest, events = attempted location delay answers ++ rest ∧ Settles (left + 1) answers answer ∧
        Goes (f answer) rest z) ∨ Begun (left + 1) location delay events ∧ ∀ b, z ≠ done b := by
  have ended {answer : Answer} {p q : List Event} (own : Goes (attemptsAt location left 0 delay) p (done answer))
      (onward : Goes (f answer) q z) : ∃ answers answer rest, p ++ q = attempted location delay answers ++ rest ∧
        Settles (left + 1) answers answer ∧ Goes (f answer) rest z := by
    obtain ⟨answers, rfl, settles⟩ := attemptsExactly.mp own
    exact ⟨answers, answer, q, rfl, settles, onward⟩
  rcases bindGoes goes with ⟨x, own, rfl⟩ | ⟨answer, p, q, rfl, own, onward⟩
  · rcases attemptsBegun own with ⟨answer, rfl⟩ | begun
    · have all := ended own (.here _)
      rw [List.append_nil] at all
      exact .inl all
    · cases x with
      | done answer =>
        have all := ended own (.here _)
        rw [List.append_nil] at all
        exact .inl all
      | read location next => exact .inr ⟨begun, fun b same => by cases same⟩
      | wait n next => exact .inr ⟨begun, fun b same => by cases same⟩
  · exact .inl (ended own onward)

end Attempt

section Through
variable {m : Type → Type} [Monad m] {source : Source m} {pause : Nat → m Unit}

theorem throughAttempts (location : String) (left made delay : Nat) :
    (attemptsAt location left made delay).through source pause = attempt pause (source location) left made delay := by
  induction left generalizing made delay with
  | zero =>
    rw [attemptsNone, Reads.through, attempt]
    refine congrArg (source location >>= ·) (funext fun answer => ?_)
    cases answer <;> rfl
  | succ left ih =>
    rw [attemptsMore, Reads.through, attempt]
    refine congrArg (source location >>= ·) (funext fun answer => ?_)
    cases answer with
    | ok bytes => rfl
    | error fault => exact congrArg (pause delay >>= ·) (funext fun _ => ih _ _)

end Through

theorem retryingExactly {σ : Type} {source : Source (StateM σ)} {r : Retry} {pause : Nat → StateM σ Unit} {location : String}
    {s t : σ} {answer : Answer} : (source.retrying r pause location).run s = (answer, t) ↔
      ∃ answers, Happens source pause s (attempted location r.backoff answers) t ∧
        Settles (max 1 r.attempts) answers answer := by
  have most : r.attempts - 1 + 1 = max 1 r.attempts := by omega
  rw [Source.retrying, run, ← throughAttempts, Reads.throughExactly, ← most]
  constructor
  · rintro ⟨events, goes, happens⟩
    obtain ⟨answers, rfl, settles⟩ := attemptsExactly.mp goes
    exact ⟨answers, happens, settles⟩
  · rintro ⟨answers, happens, settles⟩
    exact ⟨_, attemptsExactly.mpr ⟨answers, rfl, settles⟩, happens⟩

end TransitTimeline.Retry
