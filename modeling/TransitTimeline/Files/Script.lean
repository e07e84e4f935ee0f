import TransitTimeline.Files.Tree

/-! Work on files as a value: what it asks of the file system one request after the other, and how it goes on
with each answer. The same script runs on a tree, step by step beside others, or on real files. -/
namespace TransitTimeline

inductive FileStep where
  | makeAll (p : Path)
  | removeAll (p : Path)
  | write (p : Path) (bytes : List UInt8)
  | rename (source target : Path)
  deriving DecidableEq, Repr

def FileStep.apply : FileStep → FileTree → FileTree.Changed
  | makeAll p, t => t.makeAll p
  | removeAll p, t => t.removeAll p
  | write p bytes, t => t.write p bytes
  | rename source target, t => t.rename source target

inductive Script (α : Type) where
  | done (value : α)
  | ask (p : Path) (next : Bool → Script α)
  | read (p : Path) (next : Option (List UInt8) → Script α)
  | list (directory : Path) (shown : String) (next : List String → Script α)
  | step (s : FileStep) (next : Bool → Script α)
  | wait (milliseconds : Nat) (next : Unit → Script α)

namespace Script
variable {α β : Type}

def bind : Script α → (α → Script β) → Script β
  | done a, f => f a
  | ask p next, f => ask p fun b => (next b).bind f
  | read p next, f => read p fun r => (next r).bind f
  | list p shown next, f => list p shown fun names => (next names).bind f
  | step s next, f => step s fun b => (next b).bind f
  | wait n next, f => wait n fun u => (next u).bind f

instance : Monad Script where
  pure := done
  bind := bind

def isThere (p : Path) : Script Bool := ask p done
def contents (p : Path) : Script (Option (List UInt8)) := read p done
def filesBelow (directory : Path) (shown : String) : Script (List String) := list directory shown done
def perform (s : FileStep) : Script Bool := step s done
def pause (milliseconds : Nat) : Script Unit := wait milliseconds done

def listed (directory : Path) (shown : String) (t : FileTree) : List String :=
  match t.find? directory with
  | some found => found.filesBelow shown
  | none => []

def run : Script α → FileTree → α × FileTree
  | done a, t => (a, t)
  | ask p next, t => (next (t.exists? p)).run t
  | read p next, t => (next (t.read? p)).run t
  | list p shown next, t => (next (listed p shown t)).run t
  | step s next, t =>
    let (made, t) := s.apply t
    (next made).run t
  | wait _ next, t => (next ()).run t

theorem runBind (s : Script α) (f : α → Script β) (t : FileTree) :
    (s.bind f).run t = (f (s.run t).1).run (s.run t).2 := by
  induction s generalizing t with
  | done a => rfl
  | ask p next ih => exact ih _ _
  | read p next ih => exact ih _ _
  | list p shown next ih => exact ih _ _
  | step s next ih => exact ih _ _
  | wait n next ih => exact ih _ _

end Script

end TransitTimeline
