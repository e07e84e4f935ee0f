import Mathlib.Data.List.Induction

/-! Values that some rows do not have, each compared with the last known one before it. A row may be withheld; its
value is compared against all the same. -/
namespace TransitTimeline.LastKnown
variable {ρ α : Type}

def lastKnown (value : ρ → Option α) (rows : List ρ) : Option α := rows.reverse.findSome? value

theorem lastKnownSnoc (value : ρ → Option α) (rows : List ρ) (r : ρ) :
    lastKnown value (rows ++ [r]) = (value r).or (lastKnown value rows) := by
  cases h : value r <;> simp [lastKnown, h]

theorem lastKnownMap {σ : Type} (f : ρ → σ) (value : σ → Option α) (rows : List ρ) :
    lastKnown value (rows.map f) = lastKnown (fun r => value (f r)) rows := by
  simp [lastKnown, ← List.map_reverse, List.findSome?_map, Function.comp_def]

theorem lastKnownSplit {value : ρ → Option α} {rows : List ρ} {y : α} (known : lastKnown value rows = some y) :
    ∃ before b between, rows = before ++ b :: between ∧ value b = some y ∧ ∀ m ∈ between, value m = none := by
  obtain ⟨between, b, before, shape, own, gap⟩ := List.findSome?_eq_some_iff.mp known
  refine ⟨before.reverse, b, between.reverse, ?_, own, fun m hm => gap m (List.mem_reverse.mp hm)⟩
  simpa using congrArg List.reverse shape

theorem lastKnownBehind {value : ρ → Option α} (before : List ρ) {b : ρ} {between : List ρ} {y : α} (own : value b = some y)
    (gap : ∀ m ∈ between, value m = none) : lastKnown value (before ++ b :: between) = some y := by
  have none : between.reverse.findSome? value = none :=
    List.findSome?_eq_none_iff.mpr fun m member => gap m (List.mem_reverse.mp member)
  simp [lastKnown, List.findSome?_append, none, own]

theorem lastKnownOfMem {value : ρ → Option α} {rows : List ρ} {r : ρ} (member : r ∈ rows) {x : α}
    (own : value r = some x) : ∃ y, lastKnown value rows = some y := by
  refine Option.isSome_iff_exists.mp (List.findSome?_isSome_iff.mpr ⟨r, List.mem_reverse.mpr member, ?_⟩)
  simp [own]

theorem lastKnownMem {value : ρ → Option α} {rows : List ρ} {y : α} (known : lastKnown value rows = some y) :
    y ∈ rows.filterMap value := by
  obtain ⟨before, b, between, shape, own, _⟩ := lastKnownSplit known
  exact List.mem_filterMap.mpr ⟨b, by simp [shape], own⟩

section Published
variable (R : α → α → Prop) (value : ρ → Option α) (published : ρ → Bool)

def Passes (rows : List ρ) : Prop :=
  ∀ before c after, rows = before ++ c :: after → published c →
    ∀ y ∈ lastKnown value before, ∀ z ∈ value c, R y z

def Recovers (rows : List ρ) : Prop :=
  ∀ before b between c after, rows = before ++ b :: between ++ c :: after →
    (value b).isSome → published b = false → (∀ m ∈ between, value m = none) → published c →
    ∀ a ∈ before, published a → ∀ x ∈ value a, ∀ z ∈ value c, R x z

def shown (rows : List ρ) : List α := (rows.filter published).filterMap value

variable {R value published}

theorem memShown {rows : List ρ} {x : α} : x ∈ shown value published rows ↔ ∃ a ∈ rows, published a ∧ value a = some x := by
  simp [shown, and_assoc]

theorem shownAppend (xs ys : List ρ) :
    shown value published (xs ++ ys) = shown value published xs ++ shown value published ys := by
  simp [shown]

theorem Passes.left {xs ys : List ρ} (h : Passes R value published (xs ++ ys)) : Passes R value published xs :=
  fun before c after shape => h before c (after ++ ys) (by simp [shape])

theorem Recovers.left {xs ys : List ρ} (h : Recovers R value published (xs ++ ys)) : Recovers R value published xs :=
  fun before b between c after shape => h before b between c (after ++ ys) (by simp [shape])

theorem recoversOfShown {rows : List ρ} (ordered : (shown value published rows).Pairwise R) :
    Recovers R value published rows := by
  intro before b between c after shape _ _ _ hc a ha pa x hx z hz
  rw [shape, shownAppend, shownAppend] at ordered
  obtain ⟨_, _, across⟩ := List.pairwise_append.mp ordered
  refine across x (List.mem_append_left _ (memShown.mpr ⟨a, ha, pa, hx⟩)) z (memShown.mpr ⟨c, by simp, hc, hz⟩)

/- The induction is on the last row: what it is compared with is the last known value before it, which either is
published itself, so that the relation carries on, or is withheld, where recovering is the very claim. -/
theorem shownOfRecovers (trans : ∀ x y z, R x y → R y z → R x z) {rows : List ρ}
    (passes : Passes R value published rows) (recovers : Recovers R value published rows) :
    (shown value published rows).Pairwise R := by
  induction rows using List.reverseRecOn with
  | nil => exact List.Pairwise.nil
  | append_singleton rows c ih =>
    have earlier := ih passes.left recovers.left
    rw [shownAppend, List.pairwise_append]
    refine ⟨earlier, by cases hc : published c <;> cases hz : value c <;> simp [shown, hc, hz], ?_⟩
    intro x hx z hz
    obtain ⟨a, ha, pa, own⟩ := memShown.mp hx
    obtain ⟨c', hc', pc, hz⟩ := memShown.mp hz
    cases List.mem_singleton.mp hc'
    obtain ⟨y, known⟩ := lastKnownOfMem ha own
    have near : R y z := passes rows c [] rfl pc y known z hz
    obtain ⟨before, b, between, shape, hb, gap⟩ := lastKnownSplit known
    rw [shape] at ha
    rcases List.mem_append.mp ha with inBefore | ha
    · cases pb : published b with
      | false => exact recovers before b between c [] (by simp [shape]) (by simp [hb]) pb gap pc a inBefore pa x own z hz
      | true =>
        rw [shape, shownAppend] at earlier
        have far := (List.pairwise_append.mp earlier).2.2 x (memShown.mpr ⟨a, inBefore, pa, own⟩) y
          (memShown.mpr ⟨b, by simp, pb, hb⟩)
        exact trans x y z far near
    · rcases List.mem_cons.mp ha with rfl | inGap
      · cases own.symm.trans hb
        exact near
      · simp [gap a inGap] at own

/- Where the values never go back, withheld ones included, a withheld one does no harm. -/
theorem recoversOfOrdered {S : α → α → Prop} {rows : List ρ} (passes : Passes R value published rows)
    (ordered : (rows.filterMap value).Pairwise S) (trans : ∀ x y z, S x y → R y z → R x z) :
    Recovers R value published rows := by
  intro before b between c after shape known _ gap hc a ha _ x hx z hz
  obtain ⟨y, hy⟩ := Option.isSome_iff_exists.mp known
  rw [shape, List.append_assoc, List.filterMap_append] at ordered
  have far : S x y := (List.pairwise_append.mp ordered).2.2 x (List.mem_filterMap.mpr ⟨a, ha, hx⟩) y (by simp [hy])
  exact trans x y z far (passes (before ++ b :: between) c after shape hc y (lastKnownBehind before hy gap) z hz)

theorem shownIffRecovers {rows : List ρ} (passes : Passes R value published rows)
    (trans : ∀ x y z, R x y → R y z → R x z) :
    (shown value published rows).Pairwise R ↔ Recovers R value published rows :=
  ⟨recoversOfShown, shownOfRecovers trans passes⟩

end Published

theorem lastKnownBefore {R : α → α → Prop} {value : ρ → Option α} {before after : List ρ} {c : ρ}
    (ordered : ((before ++ c :: after).filterMap value).Pairwise R) :
    ∀ y ∈ lastKnown value before, ∀ z ∈ value c, R y z := by
  intro y hy z hz
  rw [List.filterMap_append, List.filterMap_cons] at ordered
  refine (List.pairwise_append.mp ordered).2.2 y (lastKnownMem hy) z ?_
  simp [Option.mem_def.mp hz]

end TransitTimeline.LastKnown
