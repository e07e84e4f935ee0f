import Mathlib.Data.List.Forall2
import Mathlib.Data.List.Perm.Basic

/-! Lists whose members correspond one by one, and computations that return along them. -/
namespace TransitTimeline
variable {α β γ ε : Type}

theorem pairedTrans {R : α → β → Prop} {S : β → γ → Prop} {T : α → γ → Prop} {xs : List α} {ys : List β} {zs : List γ}
    (first : List.Forall₂ R xs ys) (second : List.Forall₂ S ys zs) (step : ∀ a b c, R a b → S b c → T a c) :
    List.Forall₂ T xs zs := by
  induction first generalizing zs with
  | nil => cases second; exact .nil
  | cons head _ ih => cases second with | cons next rest => exact .cons (step _ _ _ head next) (ih rest)

theorem pairedColumn {R : α → β → Prop} {f : α → Option γ} {g : β → Option γ} {xs : List α} {ys : List β}
    (paired : List.Forall₂ R xs ys) (same : ∀ a b, R a b → f a = g b) : xs.filterMap f = ys.filterMap g := by
  induction paired with
  | nil => rfl
  | cons head _ ih => rw [List.filterMap_cons, List.filterMap_cons, same _ _ head, ih]

theorem pairedFilter {R : α → β → Prop} {p : α → Bool} {q : β → Bool} {xs : List α} {ys : List β}
    (paired : List.Forall₂ R xs ys) (same : ∀ a b, R a b → p a = q b) : List.Forall₂ R (xs.filter p) (ys.filter q) := by
  induction paired with
  | nil => exact .nil
  | @cons a b _ _ head _ ih =>
    rw [List.filter_cons, List.filter_cons, same a b head]
    split
    · exact .cons head ih
    · exact ih

theorem pairedMem {R : α → β → Prop} {xs : List α} {ys : List β} (paired : List.Forall₂ R xs ys) {y : β}
    (member : y ∈ ys) : ∃ x ∈ xs, R x y := by
  induction paired with
  | nil => simp at member
  | @cons a b _ _ head _ ih =>
    rcases List.mem_cons.mp member with rfl | inside
    · exact ⟨a, List.mem_cons_self, head⟩
    · obtain ⟨x, hx, related⟩ := ih inside
      exact ⟨x, List.mem_cons_of_mem _ hx, related⟩

theorem pairedAt {R : α → β → Prop} {xs : List α} {ys : List β} (paired : List.Forall₂ R xs ys) {i : Nat} {x : α}
    (known : xs[i]? = some x) : ∃ y, ys[i]? = some y ∧ R x y := by
  induction paired generalizing i with
  | nil => cases known
  | @cons _ b _ _ head _ ih =>
    cases i with
    | zero =>
      cases known
      exact ⟨b, rfl, head⟩
    | succ i => exact ih known

theorem pairedPairwise {R : α → β → Prop} {P : α → α → Prop} {Q : β → β → Prop} {xs : List α} {ys : List β}
    (paired : List.Forall₂ R xs ys) (ordered : xs.Pairwise P) (step : ∀ a b c d, R a c → R b d → P a b → Q c d) :
    ys.Pairwise Q := by
  induction paired with
  | nil => exact .nil
  | cons head tail ih =>
    obtain ⟨first, rest⟩ := List.pairwise_cons.mp ordered
    refine List.pairwise_cons.mpr ⟨fun d member => ?_, ih rest⟩
    obtain ⟨b, inside, related⟩ := pairedMem tail member
    exact step _ b _ d head related (first b inside)

theorem pairedChain {R : α → β → Prop} {P : α → α → Prop} {Q : β → β → Prop} {xs : List α} {ys : List β}
    (paired : List.Forall₂ R xs ys) (chain : xs.IsChain P) (step : ∀ a b c d, R a c → R b d → P a b → Q c d) :
    ys.IsChain Q := by
  induction paired with
  | nil => exact .nil
  | cons head tail ih =>
    cases tail with
    | nil => exact .singleton _
    | cons second rest =>
      obtain ⟨first, behind⟩ := List.isChain_cons_cons.mp chain
      exact .cons_cons (step _ _ _ _ head second first) (ih behind)

theorem pairedDefined (f : α → Option β) (xs : List α) :
    List.Forall₂ (fun x y => f x = some y) (xs.filter fun x => (f x).isSome) (xs.filterMap f) := by
  induction xs with
  | nil => exact .nil
  | cons x rest ih => cases own : f x <;> simp [own, ih]

theorem okBind {x : Except ε α} {f : α → Except ε β} {b : β} (ok : x >>= f = .ok b) :
    ∃ a, x = .ok a ∧ f a = .ok b := by
  cases x with
  | error e => cases ok
  | ok a => exact ⟨a, rfl, ok⟩

theorem pairedMapM {f : α → Except ε β} {xs : List α} {ys : List β} (ok : xs.mapM f = .ok ys) :
    List.Forall₂ (fun x y => f x = .ok y) xs ys := by
  induction xs generalizing ys with
  | nil => cases ok; exact .nil
  | cons x rest ih =>
    rw [List.mapM_cons] at ok
    obtain ⟨y, head, ok⟩ := okBind ok
    obtain ⟨others, tail, ok⟩ := okBind ok
    cases ok
    exact .cons head (ih tail)

theorem mapMExactly {f : α → Except ε β} {xs : List α} {ys : List β} : xs.mapM f = .ok ys ↔ xs.map f = ys.map .ok := by
  constructor
  · intro ok
    have paired := pairedMapM ok
    clear ok
    induction paired with
    | nil => rfl
    | cons head _ ih => rw [List.map_cons, List.map_cons, head, ih]
  · intro same
    induction xs generalizing ys with
    | nil =>
      cases List.map_eq_nil_iff.mp same.symm
      rfl
    | cons x rest ih =>
      obtain ⟨y, others, rfl, head, tail⟩ := List.map_eq_cons_iff.mp same.symm
      rw [List.mapM_cons, ← head, ih tail.symm]
      rfl

theorem mapMFilter {f : α → Except ε (Option β)} {xs : List α} {ys : List (Option β)} (ok : xs.mapM f = .ok ys) :
    ys.filterMap id = xs.filterMap fun x => (f x).toOption.join := by
  have own := congrArg (List.filterMap fun y : Except ε (Option β) => y.toOption.join) (mapMExactly.mp ok)
  rw [List.filterMap_map, List.filterMap_map] at own
  exact own.symm

theorem mapMReturns {f : α → Except ε β} {xs : List α} : (∃ ys, xs.mapM f = .ok ys) ↔ ∀ x ∈ xs, ∃ y, f x = .ok y := by
  induction xs with
  | nil => simp [pure, Except.pure]
  | cons x rest ih =>
    rw [List.forall_mem_cons, ← ih, List.mapM_cons]
    constructor
    · intro returns
      obtain ⟨ys, ok⟩ := returns
      obtain ⟨y, head, ok⟩ := okBind ok
      obtain ⟨others, tail, _⟩ := okBind ok
      exact ⟨⟨y, head⟩, others, tail⟩
    · intro returns
      obtain ⟨⟨y, head⟩, others, tail⟩ := returns
      rw [head, tail]
      exact ⟨_, rfl⟩

theorem mapMSame {f g : α → Except ε β} {xs : List α} (same : ∀ x ∈ xs, f x = g x) : xs.mapM f = xs.mapM g := by
  induction xs with
  | nil => rfl
  | cons x rest ih =>
    obtain ⟨own, others⟩ := List.forall_mem_cons.mp same
    rw [List.mapM_cons, List.mapM_cons, own, ih others]

theorem mapMFailsFirst {f : α → Except ε β} {xs : List α} {e : ε} : xs.mapM f = .error e ↔
    ∃ before x after, xs = before ++ x :: after ∧ (∀ y ∈ before, ∃ b, f y = .ok b) ∧ f x = .error e := by
  constructor
  · intro failed
    induction xs with
    | nil => cases failed
    | cons x rest ih =>
      rw [List.mapM_cons] at failed
      cases head : f x with
      | error d =>
        rw [head] at failed
        cases failed
        exact ⟨[], x, rest, rfl, by simp, head⟩
      | ok b =>
        rw [head] at failed
        cases tail : rest.mapM f with
        | ok ys => rw [tail] at failed; cases failed
        | error d =>
          rw [tail] at failed
          cases failed
          obtain ⟨before, y, after, rfl, returns, own⟩ := ih tail
          exact ⟨x :: before, y, after, rfl, List.forall_mem_cons.mpr ⟨⟨b, head⟩, returns⟩, own⟩
  · intro split
    obtain ⟨before, x, after, rfl, returns, own⟩ := split
    obtain ⟨ys, ok⟩ := mapMReturns.mpr returns
    rw [List.mapM_append, ok, List.mapM_cons, own]
    rfl

theorem mapMFails {f : α → Except ε β} {xs : List α} {e : ε} (failed : xs.mapM f = .error e) : ∃ x ∈ xs, f x = .error e := by
  obtain ⟨before, x, after, rfl, _, own⟩ := mapMFailsFirst.mp failed
  exact ⟨x, by simp, own⟩

theorem pureFails {x : Except ε α} {f : α → β} {e : ε} : (x >>= fun a => pure (f a)) = .error e ↔ x = .error e := by
  cases x <;> simp [bind, Except.bind, pure, Except.pure]

theorem pureReturns {x : Except ε α} {f : α → β} : (∃ b, (x >>= fun a => pure (f a)) = .ok b) ↔ ∃ a, x = .ok a := by
  cases x <;> simp [bind, Except.bind, pure, Except.pure]

theorem mapMFailsAcross {δ : Type} {f : β → Except ε γ} {g : α → Except ε δ} {keys : α → List β} {xs : List α} {e : ε}
    (each : ∀ x ∈ xs, ∀ e, g x = .error e ↔ (keys x).mapM f = .error e) :
    xs.mapM g = .error e ↔ (xs.flatMap keys).mapM f = .error e := by
  induction xs with
  | nil => simp [pure, Except.pure]
  | cons x rest ih =>
    obtain ⟨own, later⟩ := List.forall_mem_cons.mp each
    rw [List.mapM_cons, List.flatMap_cons, List.mapM_append]
    cases head : (keys x).mapM f with
    | error d =>
      rw [(own d).mpr head]
      simp [bind, Except.bind]
    | ok ys =>
      cases first : g x with
      | error d => cases head.symm.trans ((own d).mp first)
      | ok y => exact pureFails.trans ((ih later).trans pureFails.symm)

theorem mapMReordered {f : α → Except ε β} {xs ys : List α} (perm : xs.Perm ys) {e : ε}
    (only : ∀ x ∈ xs, ∀ d, f x = .error d → d = e) {g : List β → γ}
    (same : ∀ as bs, xs.mapM f = .ok as → as.Perm bs → g as = g bs) : (xs.mapM f).map g = (ys.mapM f).map g := by
  have alike : (∃ as, xs.mapM f = .ok as) ↔ ∃ bs, ys.mapM f = .ok bs := by
    rw [mapMReturns, mapMReturns]
    simp only [perm.mem_iff]
  cases first : xs.mapM f with
  | ok as =>
    obtain ⟨bs, second⟩ := alike.mp ⟨as, first⟩
    have images : (as.map (.ok : β → Except ε β)).Perm (bs.map .ok) := by
      rw [← mapMExactly.mp first, ← mapMExactly.mp second]
      exact perm.map f
    have values := (List.map_perm_map_iff fun _ _ equal => Except.ok.inj equal).mp images
    rw [second]
    exact congrArg Except.ok (same as bs first values)
  | error c =>
    cases second : ys.mapM f with
    | ok bs =>
      obtain ⟨as, returned⟩ := alike.mpr ⟨bs, second⟩
      cases first.symm.trans returned
    | error d =>
      obtain ⟨x, member, failed⟩ := mapMFails first
      obtain ⟨y, inside, also⟩ := mapMFails second
      rw [only x member c failed, only y (perm.mem_iff.mpr inside) d also]

end TransitTimeline
