import Mathlib.Data.List.Infix
import Mathlib.Data.List.Nodup
import TransitTimeline.Files.Tree

/-! Where written paths lead, and what a change at one place of a tree leaves as it was at another. What stands in a
directory under a name is kept as a list: a tree may hold a name twice, and then removing an entry uncovers another. -/
namespace TransitTimeline.FileTree

section Place

def placeFrom (here : Path) : Path → Path
  | [] => here
  | piece :: rest =>
    if piece = "" ∨ piece = "." then placeFrom here rest
    else if piece = ".." then placeFrom (stepBack here) rest
    else placeFrom (here ++ [piece]) rest

def placeOf : Path → Path
  | "" :: rest => placeFrom outermost rest
  | p => placeFrom [] p

theorem resolvedFrom {t : FileTree} {here p q : Path} (found : t.resolveFrom here p = some q) : q = placeFrom here p := by
  induction p generalizing here with
  | nil => exact (Option.some.inj found).symm
  | cons piece rest ih =>
    rw [resolveFrom] at found
    rw [placeFrom]
    split at found
    · rename_i stays
      rw [if_pos stays]
      split at found
      · exact ih found
      · cases found
    · rename_i moves
      rw [if_neg moves]
      split at found
      · rename_i back
        rw [if_pos back]
        split at found
        · exact ih found
        · cases found
      · rename_i forth
        rw [if_neg forth]
        split at found
        · exact ih found
        · cases found

theorem resolved {t : FileTree} {p q : Path} (found : t.resolve p = some q) : q = placeOf p := by
  unfold resolve at found
  split at found
  · cases found
  · split at found
    · exact resolvedFrom found
    · rename_i relative
      rw [placeOf]
      · exact resolvedFrom found
      · exact relative

theorem placeFromAppend (here p q : Path) : placeFrom here (p ++ q) = placeFrom (placeFrom here p) q := by
  induction p generalizing here with
  | nil => rfl
  | cons piece rest ih =>
    simp only [List.cons_append, placeFrom]
    split
    · exact ih _
    · split <;> exact ih _

def Names (piece : String) : Prop := piece ≠ "" ∧ piece ≠ "." ∧ piece ≠ ".."

theorem placeFromName {here p : Path} {name : String} (names : Names name) :
    placeFrom here (p ++ [name]) = placeFrom here p ++ [name] := by
  rw [placeFromAppend]
  simp [placeFrom, names.1, names.2.1, names.2.2]

theorem placeOfName {p : Path} {name : String} (names : Names name) : placeOf (p ++ [name]) = placeOf p ++ [name] := by
  cases p with
  | nil =>
    have relative : ∀ rest, [name] = "" :: rest → False := fun rest same => names.1 (List.cons.inj same).1
    rw [List.nil_append, placeOf, placeOf]
    · exact placeFromName (p := []) names
    · simp
    · exact relative
  | cons piece rest =>
    by_cases absolute : piece = ""
    · subst absolute
      exact placeFromName names
    · rw [List.cons_append, placeOf, placeOf]
      · exact placeFromName (p := piece :: rest) names
      · exact fun rest same => absolute (List.cons.inj same).1
      · exact fun rest same => absolute (List.cons.inj same).1

end Place

section Entries

def named (name : String) (entries : Entries) : List FileTree := (entries.filter (·.1 = name)).map (·.2)

theorem childNamed (name : String) (entries : Entries) : child? name entries = (named name entries).head? := by
  rw [child?, named, List.head?_map, List.head?_filter]

theorem namedSame (name : String) (new : Option FileTree) (entries : Entries) :
    named name (setEntry name new entries) = new.toList ++ (named name entries).tail := by
  induction entries with
  | nil => cases new <;> simp [setEntry, named]
  | cons e rest ih =>
    obtain ⟨other, t⟩ := e
    by_cases same : other = name
    · cases new <;> simp [setEntry, named, same]
    · simpa [setEntry, named, same] using ih

theorem namedOther {name other : String} (different : other ≠ name) (new : Option FileTree) (entries : Entries) :
    named other (setEntry name new entries) = named other entries := by
  induction entries with
  | nil => cases new <;> simp [setEntry, named, different.symm]
  | cons e rest ih =>
    obtain ⟨first, t⟩ := e
    simp only [named] at ih
    by_cases same : first = name
    · subst same
      cases new <;> simp [setEntry, named, different.symm]
    · by_cases hit : first = other
      · subst hit; simp [setEntry, named, same, ih]
      · simpa [setEntry, named, same, hit] using ih

theorem setNames (name : String) (t : FileTree) (entries : Entries) :
    (setEntry name (some t) entries).map (·.1) =
      if name ∈ entries.map (·.1) then entries.map (·.1) else entries.map (·.1) ++ [name] := by
  induction entries with
  | nil => rfl
  | cons e rest ih =>
    obtain ⟨other, x⟩ := e
    by_cases same : other = name
    · simp [setEntry, same]
    · rw [setEntry, if_neg same, List.map_cons, ih]
      have other : name ≠ other := Ne.symm same
      by_cases known : name ∈ rest.map (·.1) <;> simp [known, other]

theorem memEntries {entries : Entries} (distinct : (entries.map (·.1)).Nodup) {name : String} {t : FileTree} :
    (name, t) ∈ entries ↔ child? name entries = some t := by
  rw [child?, Option.map_eq_some_iff]
  constructor
  · intro member
    have known : (entries.find? (·.1 = name)).isSome := List.find?_isSome.mpr ⟨_, member, by simp⟩
    obtain ⟨e, found⟩ := Option.isSome_iff_exists.mp known
    have same : e.1 = name := by simpa using List.find?_some found
    have one := List.inj_on_of_nodup_map distinct (List.mem_of_find?_eq_some found) member same
    exact ⟨e, found, by rw [one]⟩
  · rintro ⟨⟨other, x⟩, found, rfl⟩
    have same : other = name := by simpa using List.find?_some found
    rw [← same]
    exact List.mem_of_find?_eq_some found

end Entries

section Change
variable {t u : FileTree} {new : Option FileTree} {p q : Path}

theorem getAppend (p q : Path) (t : FileTree) : t.get? (p ++ q) = (t.get? p).bind (get? q) := by
  induction p generalizing t with
  | nil => rfl
  | cons name rest ih =>
    cases t with
    | file bytes => rfl
    | directory entries =>
      rw [List.cons_append, get?, get?]
      cases child? name entries with
      | none => rfl
      | some child => exact ih child

theorem setDeeper {name : String} (deeper : p ≠ []) (ok : t.set? new (name :: p) = some u) :
    ∃ entries child changed, t = directory entries ∧ child? name entries = some child ∧ child.set? new p = some changed ∧
      u = directory (setEntry name (some changed) entries) := by
  obtain ⟨next, rest, rfl⟩ := List.exists_cons_of_ne_nil deeper
  cases t with
  | file bytes => cases ok
  | directory entries =>
    simp only [set?, bind, Option.bind_eq_some_iff] at ok
    obtain ⟨child, known, changed, made, last⟩ := ok
    exact ⟨entries, child, changed, rfl, known, made, (Option.some.inj last).symm⟩

theorem setHere {name : String} (ok : t.set? new [name] = some u) :
    ∃ entries, t = directory entries ∧ u = directory (setEntry name new entries) := by
  cases t with
  | file bytes => cases ok
  | directory entries => exact ⟨entries, rfl, (Option.some.inj ok).symm⟩

theorem childSet (name : String) (t : FileTree) (entries : Entries) : child? name (setEntry name (some t) entries) = some t := by
  rw [childNamed, namedSame]
  rfl

theorem setBelow (deeper : q ≠ []) (ok : t.set? new (p ++ q) = some u) :
    ∃ old changed, t.get? p = some old ∧ old.set? new q = some changed ∧ u.get? p = some changed := by
  induction p generalizing t u with
  | nil => exact ⟨t, u, rfl, ok, rfl⟩
  | cons name rest ih =>
    obtain ⟨entries, child, next, rfl, known, made, rfl⟩ := setDeeper (by simp [deeper]) ok
    obtain ⟨old, changed, before, change, after⟩ := ih made
    refine ⟨old, changed, ?_, change, ?_⟩
    · rw [get?, known]
      exact before
    · rw [get?, childSet]
      exact after

theorem getSet {x : FileTree} (ok : t.set? (some x) p = some u) : u.get? p = some x := by
  induction p generalizing t u with
  | nil => cases t <;> cases ok
  | cons name rest ih =>
    by_cases last : rest = []
    · subst last
      obtain ⟨entries, rfl, rfl⟩ := setHere ok
      rw [get?, childSet]
      rfl
    · obtain ⟨entries, child, next, rfl, known, made, rfl⟩ := setDeeper last ok
      rw [get?, childSet]
      exact ih made

theorem getApart (ok : t.set? new p = some u) (outside : ¬p <+: q) (below : ¬q <+: p) : u.get? q = t.get? q := by
  induction p generalizing q t u with
  | nil => exact absurd (List.nil_prefix) outside
  | cons name rest ih =>
    cases q with
    | nil => exact absurd (List.nil_prefix) below
    | cons other deeper =>
      rw [List.cons_prefix_cons] at outside below
      by_cases same : other = name
      · subst same
        have outside : ¬rest <+: deeper := fun inside => outside ⟨rfl, inside⟩
        have further : rest ≠ [] := fun last => outside (last ▸ List.nil_prefix)
        obtain ⟨entries, child, next, rfl, known, made, rfl⟩ := setDeeper further ok
        rw [get?, get?, childSet, known]
        exact ih made outside fun inside => below ⟨rfl, inside⟩
      · have others (new : Option FileTree) (entries : Entries) :
            (directory (setEntry name new entries)).get? (other :: deeper) = (directory entries).get? (other :: deeper) := by
          rw [get?, get?, entrySetOther same]
        by_cases last : rest = []
        · subst last
          obtain ⟨entries, rfl, rfl⟩ := setHere ok
          exact others _ entries
        · obtain ⟨entries, child, next, rfl, _, _, rfl⟩ := setDeeper last ok
          exact others _ entries

end Change

section Standing

def entriesOf : Option FileTree → Entries
  | some (directory entries) => entries
  | _ => []

def standing (around : Path) (name : String) (t : FileTree) : List FileTree := named name (entriesOf (t.get? around))

variable {t u : FileTree} {new : Option FileTree} {around p : Path} {name other : String}

theorem getStanding (around : Path) (name : String) (t : FileTree) :
    t.get? (around ++ [name]) = (t.standing around name).head? := by
  rw [getAppend, standing, ← childNamed]
  match t.get? around with
  | none => rfl
  | some (file bytes) => rfl
  | some (directory entries) =>
    show (child? name entries).bind (get? []) = child? name entries
    cases child? name entries <;> rfl

theorem standingOther (different : other ≠ name) (ok : t.set? new (around ++ name :: p) = some u) :
    u.standing around other = t.standing around other := by
  obtain ⟨old, changed, before, change, after⟩ := setBelow (List.cons_ne_nil name p) ok
  rw [standing, standing, before, after]
  by_cases last : p = []
  · subst last
    obtain ⟨entries, rfl, rfl⟩ := setHere change
    exact namedOther different new entries
  · obtain ⟨entries, child, next, rfl, _, _, rfl⟩ := setDeeper last change
    exact namedOther different _ entries

theorem standingSet (ok : t.set? new (around ++ [name]) = some u) :
    u.standing around name = new.toList ++ (t.standing around name).tail := by
  obtain ⟨old, changed, before, change, after⟩ := setBelow (List.cons_ne_nil name []) ok
  obtain ⟨entries, rfl, rfl⟩ := setHere change
  rw [standing, standing, before, after]
  exact namedSame name new entries

theorem standingBelow (deeper : p ≠ []) (ok : t.set? new (around ++ name :: p) = some u) :
    ∃ old changed, (t.standing around name).head? = some old ∧ old.set? new p = some changed ∧
      u.standing around name = changed :: (t.standing around name).tail := by
  obtain ⟨old, changed, before, change, after⟩ := setBelow (List.cons_ne_nil name p) ok
  obtain ⟨entries, child, next, rfl, known, made, rfl⟩ := setDeeper deeper change
  refine ⟨child, next, ?_, made, ?_⟩
  · rw [standing, before, ← known, childNamed]
    rfl
  · rw [standing, standing, before, after]
    exact namedSame name (some next) entries

theorem standingGrown (absent : t.get? p = none) (ok : t.set? (some empty) p = some u) (outside : ¬around ++ [name] <+: p) :
    u.standing around name = t.standing around name := by
  have made := getSet ok
  by_cases above : p <+: around
  · obtain ⟨rest, rfl⟩ := above
    rw [standing, standing, getAppend, getAppend, made, absent]
    cases rest <;> rfl
  · by_cases below : around <+: p
    · obtain ⟨rest, rfl⟩ := below
      cases rest with
      | nil => exact absurd (by simp) above
      | cons next rest =>
        refine standingOther (fun same => outside ?_) ok
        rw [same]
        exact (List.prefix_append_right_inj around).mpr (by simp)
    · rw [standing, standing, getApart ok above below]

end Standing

inductive Grows (places : Path → Prop) : FileTree → FileTree → Prop where
  | refl (t) : Grows places t t
  | step {t u v p} (grown : Grows places t u) (at? : places p) (absent : u.get? p = none)
      (made : u.set? (some empty) p = some v) : Grows places t v

namespace Grows
variable {places : Path → Prop} {t u v : FileTree}

theorem trans (first : Grows places t u) (second : Grows places u v) : Grows places t v := by
  induction second with
  | refl => exact first
  | step _ at? absent made ih => exact .step ih at? absent made

theorem imp {wider : Path → Prop} (grown : Grows places t u) (wide : ∀ p, places p → wider p) : Grows wider t u := by
  induction grown with
  | refl => exact .refl _
  | step _ at? absent made ih => exact .step ih (wide _ at?) absent made

theorem standing {around : Path} {name : String} (grown : Grows places t u) (outside : ∀ p, places p → ¬around ++ [name] <+: p) :
    u.standing around name = t.standing around name := by
  induction grown with
  | refl => rfl
  | step _ at? absent made ih => rw [standingGrown absent made (outside _ at?), ih]

end Grows

theorem reachGrows {places : Path → Prop} {here : Path} (at? : places here) (t : FileTree) : Grows places t (t.reach here) := by
  unfold reach
  cases known : t.get? here with
  | some x => exact .refl t
  | none =>
    cases made : t.set? (some empty) here with
    | none => exact .refl t
    | some u => exact .step (.refl t) at? known made

theorem makeFromGrows (here p : Path) (t : FileTree) :
    Grows (fun q => ∃ r, r <+: p ∧ r ≠ [] ∧ q = placeFrom here r) t (t.makeFrom here p).2 := by
  induction p generalizing here t with
  | nil => exact .refl t
  | cons piece rest ih =>
    have deeper {next : Path} (one : placeFrom here [piece] = next) (q : Path) :
        (∃ r, r <+: rest ∧ r ≠ [] ∧ q = placeFrom next r) → ∃ r, r <+: piece :: rest ∧ r ≠ [] ∧ q = placeFrom here r := by
      rintro ⟨r, inside, _, rfl⟩
      refine ⟨piece :: r, (List.cons_prefix_cons).mpr ⟨rfl, inside⟩, by simp, ?_⟩
      rw [← one, ← placeFromAppend]
      rfl
    have reached {next : Path} (one : placeFrom here [piece] = next) :
        ∃ r, r <+: piece :: rest ∧ r ≠ [] ∧ next = placeFrom here r :=
      ⟨[piece], (List.cons_prefix_cons).mpr ⟨rfl, List.nil_prefix⟩, by simp, one.symm⟩
    unfold makeFrom
    split
    · rename_i stays
      exact (ih here t).imp (deeper (by simp [placeFrom, stays]))
    · rename_i named
      split
      · rename_i back
        have one : placeFrom here [piece] = stepBack here := by simp [placeFrom, back]
        split
        · exact (reachGrows (reached one) t).trans ((ih (stepBack here) _).imp (deeper one))
        · exact .refl t
      · rename_i forth
        have one : placeFrom here [piece] = here ++ [piece] := by simp [placeFrom, named, forth]
        dsimp only
        split
        · exact (ih _ t).imp (deeper one)
        · exact .refl t
        · rename_i absent
          split
          · exact .refl t
          · split
            · rename_i made
              exact (Grows.step (.refl t) (reached one) absent made).trans ((ih _ _).imp (deeper one))
            · exact .refl t

theorem makeAllGrows (p : Path) (t : FileTree) :
    Grows (fun q => ∃ r, r <+: p ∧ r ≠ [] ∧ q = placeOf r) t (t.makeAll p).2 := by
  unfold makeAll
  split
  · exact .refl t
  · split
    · rename_i rest _
      have begun : [""] <+: "" :: rest := (List.cons_prefix_cons).mpr ⟨rfl, List.nil_prefix⟩
      refine (reachGrows ⟨[""], begun, by simp, rfl⟩ t).trans ((makeFromGrows outermost rest _).imp ?_)
      rintro q ⟨r, inside, _, rfl⟩
      exact ⟨"" :: r, (List.cons_prefix_cons).mpr ⟨rfl, inside⟩, by simp, rfl⟩
    · rename_i relative
      refine (makeFromGrows [] p t).imp ?_
      rintro q ⟨r, inside, filled, rfl⟩
      refine ⟨r, inside, filled, ?_⟩
      rw [placeOf]
      rintro rest rfl
      obtain ⟨behind, rfl⟩ := inside
      exact relative _ rfl

end TransitTimeline.FileTree
