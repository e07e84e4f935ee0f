import TransitTimeline.Source.Retry

/-! Work that reads locations, as a value: what it asks for one after the other, and how it goes on with each answer. Works
that are joined take turns at asking. -/
namespace TransitTimeline

abbrev Answer := Except ReadFault (List UInt8)

abbrev Source (m : Type → Type) := String → m Answer

inductive Reads (α : Type) where
  | done (value : α)
  | read (location : String) (next : Answer → Reads α)
  | wait (milliseconds : Nat) (next : Reads α)

namespace Reads
variable {m : Type → Type} [Monad m] {α β ε : Type}

def bind : Reads α → (α → Reads β) → Reads β
  | done a, f => f a
  | read location next, f => read location fun answer => (next answer).bind f
  | wait n next, f => wait n (next.bind f)

instance : Monad Reads where
  pure := done
  bind := bind

def pause (milliseconds : Nat) : Reads Unit := wait milliseconds (done ())

def through (source : Source m) (pause : Nat → m Unit) : Reads α → m α
  | done a => return a
  | read location next => do (next (← source location)).through source pause
  | wait n next => do
    pause n
    next.through source pause

def failure? : Reads (Except ε α) → Option ε
  | done (.error e) => some e
  | _ => none

def onward (f : Reads α → Reads β) : Reads α → Reads β
  | done a => f (done a)
  | read location next => read location fun answer => f (next answer)
  | wait n next => wait n (f next)

def both (x : Reads (Except ε α)) (y : Reads (Except ε β)) : Reads (Except ε (α × β)) :=
  x >>= fun
    | .ok a => y >>= fun
      | .ok b => done (.ok (a, b))
      | .error c => done (.error c)
    | .error c => done (.error c)

/-- Two works at once. The turns say whether the first of them asks next; behind the last turn the first goes on to its end.
The first failure ends both. -/
def beside (turns : List Bool) (x : Reads (Except ε α)) (y : Reads (Except ε β)) : Reads (Except ε (α × β)) :=
  match x.failure?.or y.failure? with
  | some e => done (.error e)
  | none =>
    match turns with
    | [] => both x y
    | true :: turns => x.onward fun x => beside turns x y
    | false :: turns => y.onward fun y => beside turns x y

end Reads

namespace Source

def retrying {m : Type → Type} [Monad m] (r : Retry) (pause : Nat → m Unit) (source : Source m) : Source m :=
  fun location => r.run pause (source location)

def asked : Source Reads := fun location => .read location .done

end Source

end TransitTimeline
