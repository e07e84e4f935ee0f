/-! Reading again what could not be read. -/
namespace TransitTimeline

inductive FaultKind where
  | notFound
  | timedOut
  | other
  deriving DecidableEq, Repr

structure ReadFault where
  kind : FaultKind
  message : String
  deriving DecidableEq, Repr

namespace ReadFault

def afterAttempts (f : ReadFault) (attempts : Nat) : ReadFault :=
  { f with message := f.message ++ " (gave up after " ++ toString attempts ++ " attempts)" }

end ReadFault

/-- How often a location is read at most, and the milliseconds before the second attempt. The delay doubles
with every attempt. -/
structure Retry where
  attempts : Nat
  backoff : Nat
  deriving DecidableEq, Repr

namespace Retry
variable {m : Type → Type} [Monad m] {β : Type}

def ofSettings (attempts backoff : Nat) : Retry := ⟨max 1 attempts, backoff⟩

def attempt (pause : Nat → m Unit) (read : m (Except ReadFault β)) :
    (left made delay : Nat) → m (Except ReadFault β)
  | 0, made, _ => do
    match ← read with
    | .ok bytes => return .ok bytes
    | .error fault => return .error (fault.afterAttempts (made + 1))
  | left + 1, made, delay => do
    match ← read with
    | .ok bytes => return .ok bytes
    | .error _ =>
      pause delay
      attempt pause read left (made + 1) (delay * 2)

def run (r : Retry) (pause : Nat → m Unit) (read : m (Except ReadFault β)) : m (Except ReadFault β) :=
  attempt pause read (r.attempts - 1) 0 r.backoff

end Retry

end TransitTimeline
