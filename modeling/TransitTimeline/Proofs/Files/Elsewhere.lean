import TransitTimeline.Proofs.Files.Beside

/-! What stands at a place stays as it is while steps are made elsewhere; so a script that looks there only goes the same way. -/
namespace TransitTimeline

namespace FileTree
variable {t u : FileTree} {p q here rest : Path}

def Apart (p q : Path) : Prop := ¬p <+: q ∧ ¬q <+: p

theorem setStill {new : Option FileTree} (ok : t.set? new p = some u) (apart : Apart p q) : u.get? q = t.get? q :=
  getApart ok apart.1 apart.2

theorem growsStill {places : Path → Prop} (grown : Grows places t u) (before : ∀ p, places p → ¬q <+: p) :
    u.get? q = t.get? q := by
  induction grown with
  | refl => rfl
  | @step u v p _ at? absent made ih =>
    rw [← ih]
    by_cases inside : p <+: q
    · obtain ⟨rest, rfl⟩ := inside
      rw [getAppend, getAppend, absent, getSet made, Option.bind_some, Option.bind_none]
      cases rest with
      | nil => exact absurd (by rw [List.append_nil]) (before p at?)
      | cons name rest => rfl
    · exact setStill made ⟨inside, before p at?⟩

theorem makeAllStill (before : ∀ r, r <+: p → ¬q <+: placeOf r) (t : FileTree) : (t.makeAll p).2.get? q = t.get? q :=
  growsStill (makeAllGrows p t) fun _ ⟨r, inside, _, at?⟩ => at? ▸ before r inside

theorem orFailStill {new : Option FileTree} (still : ∀ u, new = some u → u.get? q = t.get? q) :
    (orFail t new).2.get? q = t.get? q := by
  cases new with
  | none => rfl
  | some u => exact still u rfl

theorem removeAllStill (apart : Apart (placeOf p) q) (t : FileTree) : (t.removeAll p).2.get? q = t.get? q := by
  refine orFailStill fun u removed => ?_
  obtain ⟨place, found, removed⟩ := Option.bind_eq_some_iff.mp removed
  obtain rfl := resolved found
  split at removed
  · exact setStill removed apart
  · cases removed

theorem writeStill (apart : Apart (placeOf p) q) (bytes : List UInt8) (t : FileTree) : (t.write p bytes).2.get? q = t.get? q := by
  refine orFailStill fun u written => ?_
  obtain ⟨place, found, written⟩ := Option.bind_eq_some_iff.mp written
  obtain rfl := resolved found
  split at written
  · cases written
  · exact setStill written apart

theorem renameStill {source target : Path} (apart : Apart (placeOf source) q) (beside : Apart (placeOf target) q) (t : FileTree) :
    (t.rename source target).2.get? q = t.get? q := by
  refine orFailStill fun u renamed => ?_
  simp only [bind, Option.bind_eq_some_iff] at renamed
  obtain ⟨first, from?, second, to?, moved, _, renamed⟩ := renamed
  obtain rfl := resolved from?
  obtain rfl := resolved to?
  split at renamed
  · cases renamed
    rfl
  · split at renamed
    · cases renamed
    · obtain ⟨v, taken, put⟩ := Option.bind_eq_some_iff.mp renamed
      exact (setStill put beside).trans (setStill taken apart)

end FileTree

namespace FileStep
open FileTree (Apart placeOf)
variable {q : Path} {t u : FileTree}

def Elsewhere (q : Path) : FileStep → Prop
  | makeAll p => ∀ r, r <+: p → ¬q <+: placeOf r
  | removeAll p => Apart (placeOf p) q
  | write p _ => Apart (placeOf p) q
  | rename p r => Apart (placeOf p) q ∧ Apart (placeOf r) q

theorem Elsewhere.applied {s : FileStep} (elsewhere : s.Elsewhere q) (t : FileTree) : (s.apply t).2.get? q = t.get? q := by
  cases s with
  | makeAll p => exact FileTree.makeAllStill elsewhere t
  | removeAll p => exact FileTree.removeAllStill elsewhere t
  | write p bytes => exact FileTree.writeStill elsewhere bytes t
  | rename p r => exact FileTree.renameStill elsewhere.1 elsewhere.2 t

theorem Elsewhere.begun {s : FileStep} (elsewhere : s.Elsewhere q) (begun : s.Begun t u) : u.get? q = t.get? q := by
  cases begun with
  | @made p rest =>
    exact FileTree.makeAllStill (fun r inside => elsewhere r (inside.trans (List.prefix_append p rest))) t
  | written => exact FileTree.writeStill elsewhere _ t
  | removed found _ _ set =>
    obtain rfl := FileTree.resolved found
    exact FileTree.setStill set elsewhere

theorem touchedElsewhere {steps : FileStep → Prop} (elsewhere : ∀ s, steps s → s.Elsewhere q) (touched : Touched steps t u) :
    u.get? q = t.get? q := by
  induction touched with
  | refl => rfl
  | made _ own ih => exact ((elsewhere _ own).applied _).trans ih
  | begun _ own begun ih => exact ((elsewhere _ own).begun begun).trans ih

end FileStep

namespace FileTree
variable {t u : FileTree} {input here rest : Path}

section Below
variable (same : t.get? input = u.get? input)
include same

theorem getBelow (inside : input <+: here) : t.get? here = u.get? here := by
  obtain ⟨rest, rfl⟩ := inside
  rw [getAppend, getAppend, same]

theorem resolveBelow (inside : input <+: here) (forward : ".." ∉ rest) :
    t.resolveFrom here rest = u.resolveFrom here rest ∧ ∀ q, t.resolveFrom here rest = some q → input <+: q := by
  induction rest generalizing here with
  | nil =>
    refine ⟨rfl, fun q found => ?_⟩
    cases found
    exact inside
  | cons piece rest ih =>
    obtain ⟨onward, later⟩ := not_or.mp (List.mem_cons.not.mp forward)
    have there : t.isDirectoryAt here = u.isDirectoryAt here := by rw [isDirectoryAt, isDirectoryAt, getBelow same inside]
    simp only [resolveFrom, there, if_neg (Ne.symm onward)]
    split
    · split
      · exact ih inside later
      · exact ⟨rfl, fun q none => by cases none⟩
    · split
      · exact ih (inside.trans (List.prefix_append here [piece])) later
      · exact ⟨rfl, fun q none => by cases none⟩

theorem findBelow (names : ∀ n ∈ input, Names n) (filled : input ≠ []) (forward : ".." ∉ rest) :
    t.find? (input ++ rest) = u.find? (input ++ rest) := by
  obtain ⟨name, further, shape⟩ := List.exists_cons_of_ne_nil filled
  have relative : ∀ more, input ++ rest ≠ "" :: more := by
    rintro more absolute
    rw [shape, List.cons_append] at absolute
    exact (names name (by simp [shape])).1 (List.cons.inj absolute).1
  rw [find?, find?]
  by_cases usable : (input ++ rest).isUsable
  · rw [resolveRelative usable relative, resolveRelative usable relative, resolveNames names, resolveNames names,
      List.nil_append]
    obtain ⟨places, below⟩ := resolveBelow same (List.prefix_refl input) forward
    rw [← places]
    split
    · cases found : t.resolveFrom input rest with
      | none => rfl
      | some q => exact getBelow same (below q found)
    · rfl
  · have nowhere (v : FileTree) : v.resolve (input ++ rest) = none := if_pos usable
    rw [nowhere, nowhere]
    rfl

end Below

end FileTree

namespace Script
variable {α : Type}

def asked : Script α → FileTree → List Path
  | done _, _ => []
  | ask p next, t => p :: (next (t.exists? p)).asked t
  | read p next, t => p :: (next (t.read? p)).asked t
  | list p shown next, t => p :: (next (listed p shown t)).asked t
  | step s next, t => (next (s.apply t).1).asked (s.apply t).2
  | wait _ next, t => (next ()).asked t

theorem steadyAsked {trees : FileTree → Prop} {answers : α → Prop} {s : Script α} {t : FileTree} (quiet : s.Quiet answers)
    (same : ∀ p ∈ s.asked t, ∀ u, trees u → u.find? p = t.find? p) : s.Steady trees t := by
  induction s with
  | done a => trivial
  | ask p next ih =>
    obtain ⟨here, later⟩ := List.forall_mem_cons.mp same
    exact ⟨fun u known => by rw [FileTree.exists?, FileTree.exists?, here u known], ih _ (quiet.2 _) later⟩
  | read p next ih =>
    obtain ⟨here, later⟩ := List.forall_mem_cons.mp same
    exact ⟨fun u known => by rw [FileTree.read?, FileTree.read?, here u known], ih _ (quiet.2 _) later⟩
  | list p shown next ih =>
    obtain ⟨here, later⟩ := List.forall_mem_cons.mp same
    exact ⟨fun u known => by rw [listed, listed, here u known], ih _ (quiet.2 _) later⟩
  | step s next => exact quiet.1.elim
  | wait n next ih => exact ih () quiet same

end Script

end TransitTimeline
