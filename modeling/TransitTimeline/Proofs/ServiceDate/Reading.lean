import TransitTimeline.Proofs.Files.Beside
import TransitTimeline.Proofs.ServiceDate.Reconciled
import TransitTimeline.Proofs.ServiceDate.Retried

/-! Working out a service date reads and changes nothing; its report is the date's own, and on a tree that stays as it is the
turns do not show in it. -/
namespace TransitTimeline

namespace Script
variable {α β ε : Type}

def IfOk (holds : α → Prop) (r : Except ε α) : Prop := ∀ a, r = .ok a → holds a

theorem quietBind {s : Script α} {f : α → Script β} {between : α → Prop} {after : β → Prop} (first : s.Quiet between)
    (second : ∀ a, between a → (f a).Quiet after) : (s >>= f).Quiet after := limitedBind first second

end Script

namespace Reads
open Script
variable {α : Type} {x : Reads α} {root : Path}

theorem quietFile (root : Path) (location : String) : (Source.ofFiles root location).Quiet fun _ => True :=
  quietBind ⟨trivial, fun _ => trivial⟩ fun found _ => by cases found <;> trivial

theorem quietThrough {answers : α → Prop} (known : ∀ events a, Goes x events (done a) → answers a) :
    (x.through (Source.ofFiles root) Script.pause).Quiet answers := by
  induction x with
  | done a => exact known [] a (.here _)
  | read location next ih =>
    exact quietBind (quietFile root location) fun answer _ =>
      ih answer fun events a goes => known _ a (.step (.read location next answer) goes)
  | wait n next ih => exact ih fun events a goes => known _ a (.step (.wait n next) goes)

def onTree (root : Path) (t : FileTree) : Source Id := fun location => ((Source.ofFiles root location).run t).1

theorem throughTree (x : Reads α) (root : Path) (t : FileTree) :
    (x.through (Source.ofFiles root) Script.pause).run t = (x.plainly (onTree root t), t) := by
  induction x with
  | done a => rfl
  | read location next ih =>
    have split := Script.runBind (Source.ofFiles root location)
      (fun answer => (next answer).through (Source.ofFiles root) Script.pause) t
    rw [Script.quietRun (quietFile root location), ih] at split
    exact split
  | wait n next ih => exact ih

end Reads

namespace ServiceDate
open Script

theorem quietFound (directory : Path) (shown : String) : (filesBelow directory shown).Quiet fun _ => True :=
  ⟨trivial, fun _ => trivial⟩

theorem quietThere (p : Path) : (isThere p).Quiet fun _ => True := ⟨trivial, fun _ => trivial⟩

theorem quietListed (root : Path) (directories : List String) : (Manifest.listAll root directories).Quiet fun _ => True := by
  induction directories with
  | nil => trivial
  | cons directory rest ih =>
    exact quietBind (quietFound _ _) fun _ _ => quietBind ih fun _ _ => trivial

theorem quietDiscovered (root : Path) (date : Day) : (Manifest.discover root date).Quiet fun _ => True :=
  quietBind (quietThere _) fun _ _ =>
    quietBind (quietListed _ _) fun _ _ => quietBind (quietListed _ _) fun _ _ => trivial

variable {zones : String → Option Zone} {turns : Turns} {source : Source Reads} {f : Manifest} {date : Day} {zoneName : String}
  {tolerance : Int}

theorem reconciledDate {i : Inputs} {r : Report} (ok : reconcileIn zones date i zoneName tolerance = .ok r) :
    r.summary.date = date := by
  obtain ⟨z, s, tm, _, rfl⟩ := reconciledThrough ok
  rfl

theorem quietDate (root : Path) :
    ((runIn zones turns source f date zoneName tolerance).run.through (Source.ofFiles root) Script.pause).Quiet
      (IfOk fun r => r.summary.date = date) := by
  refine Reads.quietThrough fun events result goes r ok => ?_
  rw [runSplit] at goes
  obtain ⟨all, _, _, _, _, ended⟩ := Reads.bindGoesDone goes
  obtain ⟨_, same⟩ := ended.fromDone
  cases same
  cases all with
  | error e => cases ok
  | ok a => exact reconciledDate ok

end ServiceDate

end TransitTimeline
