import TransitTimeline.Proofs.Source.Plainly
import TransitTimeline.Proofs.Source.Retry
import TransitTimeline.ServiceDate.Load

/-! Locations that are read in turn. Each one is read again behind a failure, up to the first that fails throughout or cannot be
decoded. -/
namespace TransitTimeline

def Failure.OfReading (location : String) (e : Failure) : Prop :=
  e = .unreadable location ∨ e = .notGunzipped location ∨ e = .undecodable location

theorem Table.ofFileFails {ρ : Type} {fields : List (Field ρ)} {blank : ρ} {location : String} {bytes : List UInt8}
    {e : Failure} (failed : ofFile fields blank location bytes = .error e) : e.OfReading location := by
  unfold ofFile at failed
  split at failed
  · cases member : Gzip.firstMember? bytes with
    | none =>
      rw [member] at failed
      cases failed
      exact .inr (.inl rfl)
    | some data =>
      rw [member] at failed
      cases decoded : rows? fields blank data with
      | none =>
        simp only [decoded, bind, Except.bind] at failed
        cases failed
        exact .inr (.inr rfl)
      | some rows => simp [decoded, bind, Except.bind] at failed
  · cases decoded : rows? fields blank bytes with
    | none =>
      simp only [decoded, bind, Except.bind] at failed
      cases failed
      exact .inr (.inr rfl)
    | some rows => simp [decoded, bind, Except.bind] at failed

def Source.reliable (bytes : String → List UInt8) : Source Id := fun location => .ok (bytes location)

namespace Reads
variable {α β : Type}

def Gives (bytes : String → List UInt8) (events : List Event) : Prop :=
  ∀ location given, Event.read location (.ok given) ∈ events → given = bytes location

/- These locations are read in turn, up to the first one that cannot be read or decoded. -/
inductive InTurn : List String → Reads (Except Failure α) → Prop
  | done (a : α) : InTurn [] (done (.ok a))
  | read {location : String} {rest : List String} {next : Answer → Reads (Except Failure α)}
      (unread : ∀ fault, next (.error fault) = done (.error (.unreadable location)))
      (undecoded : ∀ bytes e, (next (.ok bytes)).failure? = some e → e.OfReading location)
      (decoded : ∀ bytes, (next (.ok bytes)).failure? = none → InTurn rest (next (.ok bytes))) :
      InTurn (location :: rest) (.read location next)

namespace InTurn
variable {locations others : List String} {x : ExceptT Failure Reads α} {g : α → ExceptT Failure Reads β}

theorem fine {y : Reads (Except Failure α)} (inTurn : InTurn locations y) : y.failure? = none := by
  cases inTurn <;> rfl

theorem pure (a : α) : InTurn [] (Pure.pure a : ExceptT Failure Reads α).run := .done a

theorem bind (first : InTurn locations x.run) (second : ∀ a, InTurn others (g a).run) :
    InTurn (locations ++ others) (x >>= g).run := by
  generalize same : x.run = y at first
  induction first generalizing x with
  | done a =>
    have own : x = Pure.pure a := same
    rw [own]
    exact second a
  | @read location rest next unread undecoded decoded ih =>
    have own : (x >>= g).run = .read location fun answer => (ExceptT.mk (next answer) >>= g).run := by
      show x.run >>= _ = _
      rw [same]
      rfl
    have fails {answer : Answer} {e : Failure} (failing : (next answer).failure? = some e) :
        (ExceptT.mk (next answer) >>= g).run = .done (.error e) := by
      rw [failed failing]
      rfl
    rw [own]
    constructor
    · intro fault
      exact fails (by rw [unread]; rfl)
    · intro bytes e failing
      cases failure : (next (.ok bytes)).failure? with
      | none => cases (ih bytes failure rfl).fine.symm.trans failing
      | some d =>
        rw [fails failure] at failing
        exact undecoded bytes e (failure.trans failing)
    · intro bytes fine
      cases failure : (next (.ok bytes)).failure? with
      | none => exact ih bytes failure rfl
      | some d =>
        rw [fails failure] at fine
        cases fine

theorem map (first : InTurn locations x.run) (f : α → β) : InTurn locations (x >>= fun a => Pure.pure (f a)).run := by
  simpa using first.bind fun a => pure (f a)

section Table
variable {ρ : Type} [Inhabited ρ]

theorem table (fields : List (Field ρ)) (location : String) : InTurn [location] (table fields location).run := by
  refine .read (fun _ => rfl) (fun bytes e failing => ?_) (fun bytes fine => ?_)
  · exact Table.ofFileFails (Reads.done.inj (failed failing))
  · show InTurn [] (Reads.done (Table.ofFile fields default location bytes))
    have known : (Reads.done (Table.ofFile fields default location bytes)).failure? = none := fine
    cases decoded : Table.ofFile fields default location bytes with
    | error e =>
      rw [decoded] at known
      cases known
    | ok rows => exact .done rows

theorem tables (fields : List (Field ρ)) (locations : List String) : InTurn locations (tables fields locations).run := by
  induction locations with
  | nil => exact pure []
  | cons location rest ih => exact (table fields location).bind fun rows => ih.map _

end Table

theorem names {source : Source Id} {y : Reads (Except Failure α)} {e : Failure} (inTurn : InTurn locations y)
    (failing : y.plainly source = .error e) : ∃ location ∈ locations, e.OfReading location := by
  induction inTurn with
  | done a => cases failing
  | @read location rest next unread undecoded decoded ih =>
    have onward : (next (source location)).plainly source = .error e := failing
    cases answer : source location with
    | error fault =>
      rw [answer, unread] at onward
      cases onward
      exact ⟨location, List.mem_cons_self, .inl rfl⟩
    | ok bytes =>
      rw [answer] at onward
      cases failure : (next (.ok bytes)).failure? with
      | none =>
        obtain ⟨l, member, named⟩ := ih bytes failure onward
        exact ⟨l, List.mem_cons_of_mem _ member, named⟩
      | some d =>
        rw [failed failure] at onward
        cases onward
        exact ⟨location, List.mem_cons_self, undecoded bytes e failure⟩

end InTurn

inductive Ending where
  | through | lost | stopped
  deriving DecidableEq

/- What locations read in turn were answered, each behind fewer failures than there may be attempts. -/
inductive Course (r : Retry) : List String → List Event → Ending → Prop
  | through : Course r [] [] .through
  | read {location rest bytes events ending} (faults : List ReadFault) (within : faults.length < max 1 r.attempts)
      (onward : Course r rest events ending) :
      Course r (location :: rest) (Retry.attempted location r.backoff (faults.map .error ++ [.ok bytes]) ++ events) ending
  | lost {location rest} (faults : List ReadFault) (all : faults.length = max 1 r.attempts) :
      Course r (location :: rest) (Retry.attempted location r.backoff (faults.map .error)) .lost
  | stopped {location rest events} (begun : Retry.Begun (max 1 r.attempts) location r.backoff events) :
      Course r (location :: rest) events .stopped

namespace Course
variable {r : Retry} {locations : List String}

theorem untouched (r : Retry) (locations : List String) : ∃ ending, ending ≠ .lost ∧ Course r locations [] ending := by
  cases locations with
  | nil => exact ⟨.through, by simp, .through⟩
  | cons location rest => exact ⟨.stopped, by simp, .stopped (Retry.begunNone (by omega))⟩

theorem given {events : List Event} (course : Course r locations events .through) :
    ∀ location ∈ locations, ∃ bytes, Event.read location (.ok bytes) ∈ events := by
  generalize whole : Ending.through = ending at course
  induction course with
  | through => simp
  | read faults within _ ih =>
    intro location member
    rcases List.mem_cons.mp member with rfl | later
    · exact ⟨_, List.mem_append_left _ (Retry.lastAttempted ..)⟩
    · obtain ⟨bytes, own⟩ := ih whole location later
      exact ⟨bytes, List.mem_append_right _ own⟩
  | lost => cases whole
  | stopped => cases whole

end Course

structure Came (r : Retry) (locations : List String) (x : Reads (Except Failure α)) (events : List Event)
    (x' : Reads (Except Failure α)) (ending : Ending) : Prop where
  course : Course r locations events ending
  lost : ending = .lost → ∃ location ∈ locations, x' = done (.error (.unreadable location))
  ended : ∀ a, x' = done (.ok a) → ending = .through
  names : ∀ e, x' = done (.error e) → ∃ location ∈ locations, e.OfReading location
  plain : ∀ bytes, Gives bytes events → ending ≠ .lost → ∀ v, x' = done v → x.plainly (Source.reliable bytes) = v

section Came
variable {r : Retry} {location : String} {rest : List String} {next : Answer → Reads (Except Failure α)} {given : List UInt8}
  {faults : List ReadFault} {x' : Reads (Except Failure α)} {events : List Event} {ending : Ending} {e : Failure}

theorem givenOwn {bytes : String → List UInt8} {delay : Nat} {answers : List Answer}
    (gives : Gives bytes (Retry.attempted location delay (answers ++ [.ok given]) ++ events)) : given = bytes location :=
  gives location given (List.mem_append_left _ (Retry.lastAttempted ..))

theorem Came.further (within : faults.length < max 1 r.attempts) (came : Came r rest (next (.ok given)) events x' ending) :
    Came r (location :: rest) (.read location next)
      (Retry.attempted location r.backoff (faults.map .error ++ [.ok given]) ++ events) x' ending := by
  constructor
  case course => exact .read faults within came.course
  case lost =>
    intro lost
    obtain ⟨l, member, failed⟩ := came.lost lost
    exact ⟨l, List.mem_cons_of_mem _ member, failed⟩
  case ended => exact came.ended
  case names =>
    intro e failed
    obtain ⟨l, member, named⟩ := came.names e failed
    exact ⟨l, List.mem_cons_of_mem _ member, named⟩
  case plain =>
    intro bytes gives found v ended
    have own := givenOwn gives
    rw [own] at came
    exact came.plain bytes (fun l b member => gives l b (List.mem_append_right _ member)) found v ended

theorem Came.undecoded (within : faults.length < max 1 r.attempts) (failing : next (.ok given) = done (.error e))
    (reading : e.OfReading location) : ∃ ending, Came r (location :: rest) (.read location next)
      (Retry.attempted location r.backoff (faults.map .error ++ [.ok given]) ++ []) (done (.error e)) ending := by
  obtain ⟨ending, found, course⟩ := Course.untouched r rest
  refine ⟨ending, .read faults within course, fun lost => (found lost).elim, ?_, ?_, ?_⟩
  · rintro a ⟨⟩
  · rintro d ⟨⟩
    exact ⟨location, List.mem_cons_self, reading⟩
  · rintro bytes gives _ v ⟨⟩
    have own := givenOwn gives
    rw [own] at failing
    exact congrArg (Reads.plainly (Source.reliable bytes)) failing

theorem Came.unreadable {x : Reads (Except Failure α)} (faults : List ReadFault) (all : faults.length = max 1 r.attempts) :
    Came r (location :: rest) x (Retry.attempted location r.backoff (faults.map .error))
      (done (.error (.unreadable location))) .lost := by
  refine ⟨.lost faults all, fun _ => ⟨location, List.mem_cons_self, rfl⟩, ?_, ?_, by simp⟩
  · rintro a ⟨⟩
  · rintro e ⟨⟩
    exact ⟨location, List.mem_cons_self, .inl rfl⟩

theorem Came.begun {x : Reads (Except Failure α)} (begun : Retry.Begun (max 1 r.attempts) location r.backoff events)
    (goesOn : ∀ v, x' ≠ done v) : Came r (location :: rest) x events x' .stopped := by
  refine ⟨.stopped begun, by simp, ?_, ?_, ?_⟩
  · exact fun a ended => (goesOn _ ended).elim
  · exact fun e ended => (goesOn _ ended).elim
  · exact fun _ _ _ v ended => (goesOn v ended).elim

end Came

theorem retriedComes {r : Retry} {locations : List String} {x x' : Reads (Except Failure α)} {events : List Event}
    (inTurn : InTurn locations x) (goes : Goes (x.through (Source.asked.retrying r pause) pause) events x') :
    ∃ ending, Came r locations x events x' ending := by
  have most : r.attempts - 1 + 1 = max 1 r.attempts := by omega
  induction inTurn generalizing events with
  | done a =>
    obtain ⟨rfl, rfl⟩ := goes.fromDone
    refine ⟨.through, .through, by simp, fun _ _ => rfl, ?_, ?_⟩
    · rintro e ⟨⟩
    · rintro bytes _ _ v ⟨⟩
      rfl
  | @read location rest next unread undecoded decoded ih =>
    -- either the attempts at this location have settled, or the work was left amid them
    rcases Retry.attemptsOnward goes with ⟨answers, answer, q, rfl, settles, onward⟩ | ⟨begun, goesOn⟩
    · rw [most] at settles
      cases settles with
      | @success faults given within =>
        cases failure : (next (.ok given)).failure? with
        | none =>
          obtain ⟨ending, came⟩ := ih given failure onward
          exact ⟨ending, came.further within⟩
        | some e =>
          have failing := failed failure
          rw [failing] at onward
          obtain ⟨rfl, rfl⟩ := onward.fromDone
          exact Came.undecoded within failing (undecoded given e failure)
      | @failure faults last all =>
        rw [unread] at onward
        obtain ⟨rfl, rfl⟩ := onward.fromDone
        have lost : Came r (location :: rest) (.read location next) _ _ _ :=
          .unreadable (faults ++ [last]) (by simpa using all)
        exact ⟨.lost, by simpa using lost⟩
    · rw [most] at begun
      exact ⟨.stopped, .begun begun goesOn⟩

end Reads

end TransitTimeline
