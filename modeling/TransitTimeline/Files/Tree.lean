import TransitTimeline.Text.Piece

/-! A tree of files and directories, and the steps that change it. A step that fails leaves the tree as it is,
except that directories made on the way to one that cannot be made stay. Paths and names have a greatest length. -/
namespace TransitTimeline

abbrev Path := List String

namespace Path

def ofText (s : String) : Path := if s.isEmpty then [] else (Text.pieces '/' s.toList).map String.ofList

def text (p : Path) : String := "/".intercalate p

def below (directory : Path) (rest : Path) : Path :=
  if directory.getLast? = some "" then directory.dropLast ++ rest else directory ++ rest

def child (directory : Path) (name : String) : Path := directory.below [name]

def lengthLimit : Nat := 4096

/-- A path that is too long, or holds the character that ends texts, leads nowhere and can be made nowhere. -/
def isUsable (p : Path) : Bool :=
  decide (p.text.utf8ByteSize < lengthLimit) && p.all fun piece => !piece.toList.contains '\x00'

def nameLimit : Nat := 255

def mayName (piece : String) : Bool := decide (piece.utf8ByteSize ≤ nameLimit)

end Path

inductive FileTree where
  | file (bytes : List UInt8)
  | directory (entries : List (String × FileTree))
  deriving Repr, Inhabited

namespace FileTree

def empty : FileTree := directory []

abbrev Entries := List (String × FileTree)

def child? (name : String) (entries : Entries) : Option FileTree :=
  (entries.find? (·.1 = name)).map (·.2)

def setEntry (name : String) (new : Option FileTree) : Entries → Entries
  | [] => (new.map fun t => (name, t)).toList
  | (other, t) :: rest =>
    if other = name then (new.map fun t => (name, t)).toList ++ rest
    else (other, t) :: setEntry name new rest

def get? : Path → FileTree → Option FileTree
  | [], t => some t
  | name :: rest, directory entries => (child? name entries).bind (get? rest)
  | _ :: _, file _ => none

def set? (new : Option FileTree) : Path → FileTree → Option FileTree
  | [name], directory entries => some (directory (setEntry name new entries))
  | name :: rest, directory entries => do
    let child ← child? name entries
    let child ← set? new rest child
    some (directory (setEntry name (some child) entries))
  | _, _ => none

theorem entrySetSame (name : String) (new : Option FileTree) (entries : Entries)
    (distinct : (entries.map (·.1)).Nodup) : child? name (setEntry name new entries) = new := by
  induction entries with
  | nil => cases new <;> simp [setEntry, child?]
  | cons e rest ih =>
    obtain ⟨other, t⟩ := e
    simp only [List.map_cons, List.nodup_cons] at distinct
    by_cases same : other = name
    · subst same
      cases new with
      | some t => simp [setEntry, child?]
      | none =>
        have absent : rest.find? (fun e => decide (e.1 = other)) = none :=
          List.find?_eq_none.mpr fun e mem same =>
            distinct.1 (List.mem_map.mpr ⟨e, mem, by simpa using same⟩)
        simp [setEntry, child?, absent]
    · simpa [setEntry, child?, same] using ih distinct.2

theorem entrySetOther {name other : String} (different : other ≠ name) (new : Option FileTree)
    (entries : Entries) : child? other (setEntry name new entries) = child? other entries := by
  induction entries with
  | nil => cases new <;> simp [setEntry, child?, different.symm]
  | cons e rest ih =>
    obtain ⟨first, t⟩ := e
    simp only [child?] at ih
    by_cases same : first = name
    · subst same
      cases new <;> simp [setEntry, child?, different.symm]
    · by_cases hit : first = other
      · subst hit; simp [setEntry, child?, same]
      · simpa [setEntry, child?, same, hit] using ih

def isDirectory : FileTree → Bool
  | directory _ => true
  | file _ => false

def isDirectoryAt (p : Path) (t : FileTree) : Bool := ((t.get? p).map isDirectory).getD false

/-- The place above all, where paths with a slash in front begin. No entry has this name. -/
def outermost : Path := ["/"]

/-- The directory around a place. Outside the root are directories of their own, with two dots for each step. -/
def stepBack (here : Path) : Path :=
  match here.getLast? with
  | none | some ".." => here ++ [".."]
  | some "/" => here
  | some _ => here.dropLast

def resolveFrom (t : FileTree) (here : Path) : Path → Option Path
  | [] => some here
  | piece :: rest =>
    if piece = "" ∨ piece = "." then if t.isDirectoryAt here then resolveFrom t here rest else none
    else if piece = ".." then if t.isDirectoryAt here then resolveFrom t (stepBack here) rest else none
    else if Path.mayName piece then resolveFrom t (here ++ [piece]) rest
    else none

def resolve (t : FileTree) (p : Path) : Option Path :=
  if ¬p.isUsable then none else
  match p with
  | "" :: rest => t.resolveFrom outermost rest
  | p => t.resolveFrom [] p

def find? (p : Path) (t : FileTree) : Option FileTree := (t.resolve p).bind fun p => t.get? p

def exists? (p : Path) (t : FileTree) : Bool := (t.find? p).isSome

def read? (p : Path) (t : FileTree) : Option (List UInt8) :=
  match t.find? p with
  | some (file bytes) => some bytes
  | _ => none

mutual

def filesBelow (above : String) : FileTree → List String
  | file _ => []
  | directory entries => filesAmong above entries

def filesAmong (above : String) : List (String × FileTree) → List String
  | [] => []
  | (name, file _) :: rest => (above ++ "/" ++ name) :: filesAmong above rest
  | (name, directory entries) :: rest =>
    filesBelow (above ++ "/" ++ name) (directory entries) ++ filesAmong above rest

end

abbrev Changed := Bool × FileTree

def orFail (t : FileTree) (new : Option FileTree) : Changed :=
  match new with
  | some changed => (true, changed)
  | none => (false, t)

/-- Only a directory that is there has a name that ends in a dot. -/
def endsInDot (rest : Path) : Bool := rest.contains "." && rest.all fun piece => piece = "" || piece = "."

def reach (here : Path) (t : FileTree) : FileTree :=
  if (t.get? here).isSome then t else (t.set? (some empty) here).getD t

def makeFrom (here : Path) : Path → FileTree → Changed
  | [], t => (t.isDirectoryAt here, t)
  | piece :: rest, t =>
    if piece = "" ∨ piece = "." then makeFrom here rest t
    else if piece = ".." then
      if t.isDirectoryAt here then makeFrom (stepBack here) rest (t.reach (stepBack here)) else (false, t)
    else
      let next := here ++ [piece]
      match t.get? next with
      | some (directory _) => makeFrom next rest t
      | some (file _) => (false, t)
      | none =>
        if endsInDot rest ∨ ¬Path.mayName piece then (false, t)
        else match t.set? (some empty) next with
          | some t => makeFrom next rest t
          | none => (false, t)

def makeAll (p : Path) (t : FileTree) : Changed :=
  if ¬p.isUsable then (false, t) else
  match p with
  | "" :: rest => makeFrom outermost rest (t.reach outermost)
  | p => makeFrom [] p t

def removeAll (p : Path) (t : FileTree) : Changed :=
  orFail t do
    let p ← t.resolve p
    if t.isDirectoryAt p then t.set? none p else none

def write (p : Path) (bytes : List UInt8) (t : FileTree) : Changed :=
  orFail t do
    let p ← t.resolve p
    if t.isDirectoryAt p then none else t.set? (some (file bytes)) p

/-- A file may take the place of a file, a directory that of an empty directory. -/
def mayReplace : FileTree → Option FileTree → Bool
  | _, none => true
  | file _, some (file _) => true
  | directory _, some (directory []) => true
  | _, some _ => false

def rename (source target : Path) (t : FileTree) : Changed :=
  orFail t do
    let source ← t.resolve source
    let target ← t.resolve target
    let moved ← t.get? source
    if source = target then some t
    else if source.isPrefixOf target ∨ ¬mayReplace moved (t.get? target) then none
    else (← t.set? none source).set? (some moved) target

end FileTree

end TransitTimeline
