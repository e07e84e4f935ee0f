import TransitTimeline.Proofs.Files.Place

/-! What stands at each place of a tree, and the way to a directory: how it is made, in one go or piece by piece, and where
paths lead once it is there. -/
namespace TransitTimeline.FileTree

inductive Kind where
  | directory
  | file (bytes : List UInt8)
  deriving DecidableEq

def kind : FileTree → Kind
  | .directory _ => .directory
  | .file bytes => .file bytes

def kind? (p : Path) (t : FileTree) : Option Kind := (t.get? p).map kind

/- The same directories and the same files, in whatever order the directories list them. -/
def SameFiles (t u : FileTree) : Prop := ∀ p, t.kind? p = u.kind? p

section Kinds
variable {t u : FileTree} {new : Option FileTree} {p q : Path} {name : String}

theorem directoryKind : t.isDirectoryAt p ↔ t.kind? p = some .directory := by
  unfold isDirectoryAt kind?
  rcases t.get? p with _ | ⟨_ | _⟩
  · simp
  · simp [kind, isDirectory]
  · simp [kind, isDirectory]

theorem directoryOf (there : t.isDirectoryAt p) : ∃ entries, t.get? p = some (directory entries) := by
  unfold isDirectoryAt at there
  rcases known : t.get? p with _ | ⟨_ | entries⟩
  · simp [known] at there
  · simp [known, isDirectory] at there
  · exact ⟨entries, rfl⟩

theorem setDirectory (ok : t.set? new p = some u) : t.kind = .directory ∧ u.kind = .directory := by
  cases p with
  | nil => cases t <;> cases ok
  | cons name rest =>
    by_cases last : rest = []
    · subst last
      obtain ⟨_, rfl, rfl⟩ := setHere ok
      exact ⟨rfl, rfl⟩
    · obtain ⟨_, _, _, rfl, _, _, rfl⟩ := setDeeper last ok
      exact ⟨rfl, rfl⟩

theorem kindApart (ok : t.set? new p = some u) (outside : ¬p <+: q) : u.kind? q = t.kind? q := by
  by_cases below : q <+: p
  · obtain ⟨rest, rfl⟩ := below
    have deeper : rest ≠ [] := fun last => outside (by simp [last])
    obtain ⟨old, changed, before, change, after⟩ := setBelow deeper ok
    obtain ⟨first, second⟩ := setDirectory change
    rw [kind?, kind?, before, after, Option.map_some, Option.map_some, first, second]
  · rw [kind?, kind?, getApart ok outside below]

theorem setSome (there : t.isDirectoryAt p) (new : Option FileTree) (name : String) : ∃ u, t.set? new (p ++ [name]) = some u := by
  induction p generalizing t with
  | nil =>
    obtain ⟨entries, known⟩ := directoryOf there
    cases known
    exact ⟨_, rfl⟩
  | cons first rest ih =>
    obtain ⟨entries, known⟩ := directoryOf there
    cases t with
    | file bytes => cases known
    | directory siblings =>
      obtain ⟨child, found, below⟩ := Option.bind_eq_some_iff.mp known
      obtain ⟨changed, made⟩ := ih (t := child) (by simp [isDirectoryAt, below, isDirectory])
      obtain ⟨next, others, shape⟩ :=
        List.exists_cons_of_ne_nil (List.append_ne_nil_of_right_ne_nil rest (List.cons_ne_nil name []))
      refine ⟨directory (setEntry first (some changed) siblings), ?_⟩
      rw [List.cons_append, shape, set?]
      · rw [shape] at made
        simp [found, made]
      · simp

theorem aboveDirectory (stands : (t.get? (p ++ [name])).isSome) : t.isDirectoryAt p := by
  rw [getAppend] at stands
  unfold isDirectoryAt
  rcases known : t.get? p with _ | ⟨_ | _⟩
  · simp [known] at stands
  · simp [known, get?] at stands
  · rfl

end Kinds

namespace Grows
variable {places others : Path → Prop} {t u : FileTree} {q : Path}

theorem kept (grown : Grows places t u) {k : Kind} (known : t.kind? q = some k) : u.kind? q = some k := by
  induction grown with
  | refl => exact known
  | @step _ v p _ _ absent made ih =>
    rw [kindApart made, ih]
    rintro ⟨rest, rfl⟩
    rw [kind?, getAppend, absent] at ih
    cases ih

theorem directory (grown : Grows places t u) (there : t.isDirectoryAt q) : u.isDirectoryAt q :=
  directoryKind.mpr (grown.kept (directoryKind.mp there))

theorem stands (grown : Grows places t u) (there : (t.get? q).isSome) : (u.get? q).isSome := by
  obtain ⟨x, known⟩ := Option.isSome_iff_exists.mp there
  have kept := grown.kept (q := q) (k := x.kind) (by rw [kind?, known]; rfl)
  obtain ⟨y, known, _⟩ := Option.map_eq_some_iff.mp kept
  rw [known]
  rfl

theorem antisymm (there : Grows places t u) (back : Grows others u t) : t = u := by
  cases there with
  | refl => rfl
  | @step _ v p grown _ absent made =>
    have before : (t.get? p).isSome := back.stands (by rw [getSet made]; rfl)
    have stays := grown.stands before
    rw [absent] at stays
    cases stays

theorem ofFile {bytes : List UInt8} (grown : Grows places (.file bytes) u) : u = .file bytes := by
  generalize same : FileTree.file bytes = t at grown
  induction grown with
  | refl => rfl
  | step _ _ _ made ih =>
    rw [ih, ← same] at made
    have directory := (setDirectory made).1
    cases directory

end Grows

section Make
variable {t u : FileTree} {here p q rest : Path}

theorem reachStays (there : (t.get? here).isSome) : t.reach here = t := if_pos there

theorem reachThere (there : t.isDirectoryAt here) : ((t.reach (stepBack here)).get? (stepBack here)).isSome := by
  unfold reach
  split
  · assumption
  · rename_i absent
    have back : stepBack here = here ++ [".."] := by
      unfold stepBack at absent ⊢
      split at absent
      · rfl
      · rfl
      · exact absurd (Option.isSome_map ▸ Option.isSome_iff_exists.mpr ⟨_, directoryKind.mp there⟩) absent
      · rename_i known
        obtain ⟨before, shape⟩ := List.getLast?_eq_some_iff.mp known
        rw [shape, List.dropLast_concat] at absent
        obtain ⟨entries, stands⟩ := directoryOf there
        rw [shape] at stands
        obtain ⟨_, above⟩ := directoryOf (aboveDirectory (by rw [stands]; rfl))
        exact absurd (by rw [above]; rfl) absent
    obtain ⟨u, made⟩ := setSome there (some empty) ".."
    rw [back, made, Option.getD_some, getSet made]
    rfl

def Further (rest : Path) : Prop := ∃ piece ∈ rest, piece ≠ "" ∧ piece ≠ "."

theorem furtherDots (further : rest = [] ∨ Further rest) (plain : endsInDot q = false) : endsInDot (q ++ rest) = false := by
  rcases further with rfl | ⟨piece, member, proper⟩
  · rwa [List.append_nil]
  · have not : (q ++ rest).all (fun piece => piece = "" || piece = ".") = false := by
      rw [List.all_eq_false]
      exact ⟨piece, List.mem_append_right q member, by simpa using proper⟩
    rw [endsInDot, not, Bool.and_false]

theorem makeFromPart (further : rest = [] ∨ Further rest) :
    (t.makeFrom here q).2.makeFrom here (q ++ rest) = t.makeFrom here (q ++ rest) := by
  induction q generalizing here t with
  | nil => rfl
  | cons piece q ih =>
    rw [List.cons_append]
    have grown := (makeFromGrows here (piece :: q) t)
    simp only [makeFrom] at grown ⊢
    by_cases stays : piece = "" ∨ piece = "."
    · simp only [if_pos stays]
      exact ih
    · simp only [if_neg stays] at grown ⊢
      by_cases back : piece = ".."
      · simp only [if_pos back] at grown ⊢
        by_cases there : t.isDirectoryAt here
        · simp only [if_pos there] at grown ⊢
          rw [if_pos (grown.directory there)]
          have stands := (makeFromGrows (stepBack here) q (t.reach (stepBack here))).stands (reachThere there)
          rw [reachStays stands]
          exact ih
        · simp only [if_neg there]
      · simp only [if_neg back] at grown ⊢
        rcases known : t.get? (here ++ [piece]) with _ | ⟨_ | entries⟩
        · by_cases stops : endsInDot q = true ∨ ¬Path.mayName piece
          · simp only [known, if_pos stops]
          · have goes : ¬(endsInDot (q ++ rest) = true ∨ ¬Path.mayName piece) := by
              rw [not_or, Bool.not_eq_true] at stops ⊢
              exact ⟨furtherDots further stops.1, stops.2⟩
            simp only [known, if_neg stops, if_neg goes] at grown ⊢
            cases made : t.set? (some empty) (here ++ [piece]) with
            | none => simp only [known, made]
            | some v =>
              have stands : v.isDirectoryAt (here ++ [piece]) := by simp [isDirectoryAt, getSet made, isDirectory, empty]
              obtain ⟨_, after⟩ := directoryOf ((makeFromGrows (here ++ [piece]) q v).directory stands)
              simp only [after]
              exact ih
        · simp only [known]
        · simp only [known] at grown ⊢
          obtain ⟨_, after⟩ := directoryOf (grown.directory (q := here ++ [piece]) (by simp [isDirectoryAt, known, isDirectory]))
          simp only [after]
          exact ih

theorem makeAllAbsolute (usable : Path.isUsable ("" :: p)) (t : FileTree) :
    t.makeAll ("" :: p) = (t.reach outermost).makeFrom outermost p := by
  unfold makeAll
  rw [if_neg (by simpa using usable)]
  rfl

theorem makeAllRelative (usable : p.isUsable) (relative : ∀ rest, p ≠ "" :: rest) (t : FileTree) :
    t.makeAll p = t.makeFrom [] p := by
  unfold makeAll
  rw [if_neg (by simpa using usable)]
  split
  · exact absurd rfl (relative _)
  · rfl

theorem makeAllUnusable (unusable : ¬p.isUsable) (t : FileTree) : t.makeAll p = (false, t) := by
  unfold makeAll
  rw [if_pos unusable]

theorem reachRoot (there : t.isDirectoryAt []) : ((t.reach outermost).get? outermost).isSome := by
  unfold reach
  split
  · assumption
  · obtain ⟨u, made⟩ := setSome there (some empty) "/"
    rw [show outermost = [] ++ ["/"] from rfl, made, Option.getD_some, getSet made]
    rfl

theorem makeAllPart (usable : (q ++ rest).isUsable) (further : rest = [] ∨ Further rest) :
    (t.makeAll q).2.makeAll (q ++ rest) = t.makeAll (q ++ rest) := by
  by_cases before : q.isUsable
  · cases q with
    | nil =>
      rw [makeAllRelative before (by simp)]
      rfl
    | cons piece q =>
      by_cases absolute : piece = ""
      · subst absolute
        rw [List.cons_append] at usable ⊢
        rw [makeAllAbsolute before, makeAllAbsolute usable, makeAllAbsolute usable]
        by_cases there : t.isDirectoryAt []
        · have stands := (makeFromGrows outermost q (t.reach outermost)).stands (reachRoot there)
          rw [reachStays stands]
          exact makeFromPart further
        · cases t with
          | directory entries => exact absurd rfl there
          | file bytes =>
            have same : (FileTree.file bytes).reach outermost = .file bytes := rfl
            rw [same, (makeFromGrows outermost q (.file bytes)).ofFile, same]
      · have relative : ∀ rest, piece :: q ≠ "" :: rest := fun _ same => absolute (List.cons.inj same).1
        have longer : ∀ more, piece :: q ++ rest ≠ "" :: more := fun _ same => absolute (List.cons.inj same).1
        rw [makeAllRelative before relative, makeAllRelative usable longer, makeAllRelative usable longer]
        exact makeFromPart further
  · rw [makeAllUnusable before]

theorem makeAllTwice (p : Path) (t : FileTree) : (t.makeAll p).2.makeAll p = t.makeAll p := by
  by_cases usable : p.isUsable
  · have again : (t.makeAll p).2.makeAll (p ++ []) = t.makeAll (p ++ []) :=
      makeAllPart (by rwa [List.append_nil]) (.inl rfl)
    rwa [List.append_nil] at again
  · rw [makeAllUnusable usable, makeAllUnusable usable]

theorem makeAllSettled (usable : (q ++ rest).isUsable) (further : Further rest) (settled : (t.makeAll (q ++ rest)).2 = t) :
    (t.makeAll q).2 = t := by
  have back := makeAllGrows (q ++ rest) (t.makeAll q).2
  rw [makeAllPart usable (.inr further), settled] at back
  exact ((makeAllGrows q t).antisymm back).symm

end Make

def Made (way : Path) (t : FileTree) : Prop := ∀ r, r <+: way → t.isDirectoryAt (placeOf r)

section Made
variable {t u : FileTree} {here p way rest : Path}

theorem placeRelative {piece : String} (relative : piece ≠ "") {r : Path} (inside : r <+: piece :: p) :
    placeOf r = placeFrom [] r := by
  rw [placeOf]
  rintro rest rfl
  exact relative (List.cons_prefix_cons.mp inside).1.symm

theorem makeFromDone (done : t.makeFrom here p = (true, u)) : ∀ r, r <+: p → u.isDirectoryAt (placeFrom here r) := by
  induction p generalizing here t with
  | nil =>
    obtain ⟨there, rfl⟩ := Prod.mk.inj done
    intro r inside
    rw [List.prefix_nil.mp inside]
    exact there
  | cons piece rest ih =>
    have step {v : FileTree} {next : Path} (one : placeFrom here [piece] = next)
        (later : v.makeFrom next rest = (true, u)) (start : u.isDirectoryAt next → u.isDirectoryAt here) :
        ∀ r, r <+: piece :: rest → u.isDirectoryAt (placeFrom here r) := by
      intro r inside
      cases r with
      | nil => exact start (ih later [] List.nil_prefix)
      | cons first r =>
        obtain ⟨rfl, further⟩ := List.cons_prefix_cons.mp inside
        rw [show first :: r = [first] ++ r from rfl, placeFromAppend, one]
        exact ih later r further
    have below (there : u.isDirectoryAt (here ++ [piece])) : u.isDirectoryAt here := by
      obtain ⟨_, stands⟩ := directoryOf there
      exact aboveDirectory (by rw [stands]; rfl)
    rw [makeFrom] at done
    split at done
    · rename_i stays
      exact step (by simp [placeFrom, stays]) done id
    · rename_i named
      split at done
      · rename_i back
        split at done
        · rename_i there
          have reached : Grows (fun _ => True) t (t.reach (stepBack here)) := reachGrows trivial t
          have grown := reached.trans
            ((makeFromGrows (stepBack here) rest (t.reach (stepBack here))).imp fun _ _ => trivial)
          rw [done] at grown
          exact step (by simp [placeFrom, back]) done fun _ => grown.directory there
        · cases done
      · rename_i forth
        have one : placeFrom here [piece] = here ++ [piece] := by simp [placeFrom, named, forth]
        dsimp only at done
        split at done
        · exact step one done below
        · cases done
        · split at done
          · cases done
          · split at done
            · exact step one done below
            · cases done

theorem makeAllDone (done : t.makeAll p = (true, u)) : Made p u := by
  by_cases usable : p.isUsable
  · cases p with
    | nil =>
      rw [makeAllRelative usable (by simp)] at done
      exact fun r inside => by
        rw [List.prefix_nil.mp inside]
        exact makeFromDone done [] List.prefix_rfl
    | cons piece p =>
      by_cases absolute : piece = ""
      · subst absolute
        rw [makeAllAbsolute usable] at done
        intro r inside
        cases r with
        | nil =>
          obtain ⟨_, stands⟩ := directoryOf (makeFromDone done [] List.nil_prefix)
          have root : (u.get? ([] ++ ["/"])).isSome := by
            rw [show [] ++ ["/"] = placeFrom outermost [] from rfl, stands]
            rfl
          exact aboveDirectory root
        | cons first r =>
          obtain ⟨rfl, further⟩ := List.cons_prefix_cons.mp inside
          exact makeFromDone done r further
      · rw [makeAllRelative usable fun _ same => absolute (List.cons.inj same).1] at done
        intro r inside
        rw [placeRelative absolute inside]
        exact makeFromDone done r inside
  · rw [makeAllUnusable usable] at done
    cases done

theorem onward {piece : String} {next : Path} (made : ∀ r, r <+: piece :: p → t.isDirectoryAt (placeFrom here r))
    (one : placeFrom here [piece] = next) : ∀ r, r <+: p → t.isDirectoryAt (placeFrom next r) := by
  intro r inside
  have there := made (piece :: r) ((List.prefix_cons_inj piece).mpr inside)
  rwa [show piece :: r = [piece] ++ r from rfl, placeFromAppend, one] at there

theorem makeFromThrough (made : ∀ r, r <+: p → t.isDirectoryAt (placeFrom here r)) :
    t.makeFrom here (p ++ rest) = t.makeFrom (placeFrom here p) rest := by
  induction p generalizing here with
  | nil => rfl
  | cons piece p ih =>
    rw [List.cons_append, makeFrom, placeFrom]
    by_cases stays : piece = "" ∨ piece = "."
    · rw [if_pos stays, if_pos stays]
      exact ih (onward made (by simp [placeFrom, stays]))
    · rw [if_neg stays, if_neg stays]
      by_cases back : piece = ".."
      · have further : ∀ r, r <+: p → t.isDirectoryAt (placeFrom (stepBack here) r) := onward made (by simp [placeFrom, back])
        rw [if_pos back, if_pos back, if_pos (show t.isDirectoryAt here from made [] List.nil_prefix)]
        obtain ⟨_, stands⟩ := directoryOf (further [] List.nil_prefix)
        have there : (t.get? (stepBack here)).isSome := by
          rw [show stepBack here = placeFrom (stepBack here) [] from rfl, stands]
          rfl
        rw [reachStays there]
        exact ih further
      · have further : ∀ r, r <+: p → t.isDirectoryAt (placeFrom (here ++ [piece]) r) :=
          onward made (by simp [placeFrom, stays, back])
        obtain ⟨entries, stands⟩ := directoryOf (further [] List.nil_prefix)
        rw [placeFrom] at stands
        rw [if_neg back, if_neg back]
        simp only [stands]
        exact ih further

theorem makeAllThrough (made : Made way t) (usable : (way ++ rest).isUsable) (names : ∀ n ∈ rest, Names n) :
    t.makeAll (way ++ rest) = t.makeFrom (placeOf way) rest := by
  cases way with
  | nil => exact makeAllRelative usable (fun more shape => (names "" (by simp [show rest = "" :: more from shape])).1 rfl) t
  | cons piece way =>
    by_cases absolute : piece = ""
    · subst absolute
      refine (makeAllAbsolute usable t).trans ?_
      have further : ∀ r, r <+: way → t.isDirectoryAt (placeFrom outermost r) :=
        fun r inside => made ("" :: r) ((List.prefix_cons_inj "").mpr inside)
      obtain ⟨_, stands⟩ := directoryOf (further [] List.nil_prefix)
      have there : (t.get? outermost).isSome := by
        rw [show outermost = placeFrom outermost [] from rfl, stands]
        rfl
      rw [reachStays there]
      exact makeFromThrough further
    · rw [makeAllRelative usable fun _ same => absolute (List.cons.inj same).1, placeRelative absolute List.prefix_rfl]
      exact makeFromThrough fun r inside => placeRelative absolute inside ▸ made r inside

theorem makeAllMade (made : Made way t) (usable : way.isUsable) : t.makeAll way = (true, t) := by
  have through : t.makeAll (way ++ []) = t.makeFrom (placeOf way) [] := makeAllThrough made (by rwa [List.append_nil]) (by simp)
  rw [List.append_nil] at through
  rw [through]
  exact Prod.ext (made way List.prefix_rfl) rfl

def passable (piece : String) : Bool := piece = "" || piece = "." || piece = ".." || Path.mayName piece

theorem resolveThrough (made : ∀ r, r <+: p → t.isDirectoryAt (placeFrom here r)) :
    t.resolveFrom here (p ++ rest) = if p.all passable then t.resolveFrom (placeFrom here p) rest else none := by
  induction p generalizing here with
  | nil => rfl
  | cons piece p ih =>
    have there := made [] List.nil_prefix
    rw [List.cons_append, resolveFrom, placeFrom, List.all_cons]
    by_cases stays : piece = "" ∨ piece = "."
    · have passes : passable piece := by rcases stays with rfl | rfl <;> rfl
      rw [if_pos stays, if_pos stays, passes, Bool.true_and]
      exact (if_pos there).trans (ih (onward made (by simp [placeFrom, stays])))
    · rw [if_neg stays, if_neg stays]
      by_cases back : piece = ".."
      · have passes : passable piece := by rw [back]; rfl
        rw [if_pos back, if_pos back, passes, Bool.true_and]
        exact (if_pos there).trans (ih (onward made (by simp [placeFrom, back])))
      · have passes : passable piece = Path.mayName piece := by
          rw [not_or] at stays
          simp [passable, stays.1, stays.2, back]
        rw [if_neg back, if_neg back, passes]
        cases Path.mayName piece with
        | false => rfl
        | true => exact ih (onward made (by simp [placeFrom, stays, back]))

theorem resolveNames (names : ∀ n ∈ p, Names n) :
    t.resolveFrom here (p ++ rest) = if p.all Path.mayName then t.resolveFrom (here ++ p) rest else none := by
  induction p generalizing here with
  | nil => simp
  | cons name p ih =>
    obtain ⟨⟨filled, dot, dots⟩, others⟩ := List.forall_mem_cons.mp names
    rw [List.cons_append, resolveFrom, if_neg (by simp [filled, dot]), if_neg dots, List.all_cons]
    cases Path.mayName name with
    | false => rfl
    | true =>
      rw [if_pos rfl, ih others, Bool.true_and, List.append_assoc]
      rfl

theorem resolveAbsolute (usable : Path.isUsable ("" :: p)) (t : FileTree) : t.resolve ("" :: p) = t.resolveFrom outermost p := by
  unfold resolve
  rw [if_neg (by simpa using usable)]
  rfl

theorem resolveRelative (usable : p.isUsable) (relative : ∀ rest, p ≠ "" :: rest) : t.resolve p = t.resolveFrom [] p := by
  unfold resolve
  rw [if_neg (by simpa using usable)]
  split
  · exact absurd rfl (relative _)
  · rfl

def leads (way rest : Path) : Bool := (way ++ rest).isUsable && way.all passable && rest.all Path.mayName

theorem resolveMade (made : Made way t) (names : ∀ n ∈ rest, Names n) :
    t.resolve (way ++ rest) = if leads way rest then some (placeOf way ++ rest) else none := by
  have through {here p : Path} (onward : ∀ r, r <+: p → t.isDirectoryAt (placeFrom here r)) :
      t.resolveFrom here (p ++ rest) =
        if p.all passable && rest.all Path.mayName then some (placeFrom here p ++ rest) else none := by
    have last : t.resolveFrom (placeFrom here p) (rest ++ []) = _ := resolveNames names
    rw [List.append_nil] at last
    rw [resolveThrough onward, last]
    cases p.all passable <;> rfl
  rw [leads]
  by_cases usable : (way ++ rest).isUsable
  · rw [usable, Bool.true_and]
    cases way with
    | nil =>
      rw [resolveRelative usable fun more shape => (names "" (by simp [show rest = "" :: more from shape])).1 rfl]
      exact through (p := []) fun r inside => by
        rw [List.prefix_nil.mp inside]
        exact made [] List.prefix_rfl
    | cons piece way =>
      by_cases absolute : piece = ""
      · subst absolute
        refine (resolveAbsolute usable t).trans ?_
        exact through fun r inside => made ("" :: r) ((List.prefix_cons_inj "").mpr inside)
      · have relative : ∀ more, piece :: way ++ rest ≠ "" :: more := fun _ same => absolute (List.cons.inj same).1
        rw [resolveRelative usable relative, placeRelative absolute List.prefix_rfl]
        exact through fun r inside => placeRelative absolute inside ▸ made r inside
  · have unusable : (way ++ rest).isUsable = false := by simpa using usable
    simp [resolve, unusable]

end Made

end TransitTimeline.FileTree
