import TableExport.Files.Error
import TableExport.Files.Path

/-!
# A tree of files

A file tree says what is at each location: nothing, a directory, or a file with its bytes. A path is followed name by
name from the working directory or, if it is absolute, from the root; every name but the last has to be a directory.

- `FileTree.lookup` says what is at a location; `lookup_set_self` and `lookup_set_of_ne` say what `FileTree.set`
  changes.
- `FileTree.resolve` follows a path to a location.
- `FileTree.readBytes` and `FileTree.readText` read the file at a path.
- `FileTree.makeDirectory`, `FileTree.makeDirectories`, `FileTree.writeBytes` and `FileTree.remove` change the tree.
-/

namespace TableExport

/-- The names that lead from the root to a place in a file tree. -/
abbrev Location := List String

/-- What can be at a location. -/
inductive Entry where
  | file (bytes : ByteArray)
  | directory

/-- Directories and files, and the directory from which paths are followed. -/
structure FileTree where
  /-- What there is below the root; of several entries for a location the first one counts. -/
  entries : List (Location × Entry) := []
  /-- The location of the working directory. -/
  workingDirectory : Location := []

namespace FileTree

/-- What is at a location; the root is always a directory. -/
def lookup (t : FileTree) (l : Location) : Option Entry :=
  if l = [] then some .directory else t.entries.lookup l

/-- The tree with something at a location. -/
def set (t : FileTree) (l : Location) (e : Entry) : FileTree :=
  { t with entries := (l, e) :: t.entries.filter (·.1 ≠ l) }

/-- The tree with nothing at a location. -/
def erase (t : FileTree) (l : Location) : FileTree :=
  { t with entries := t.entries.filter (·.1 ≠ l) }

/-- What is below a location, each entry with the names that lead there from the location. -/
def below (t : FileTree) (l : Location) : List (Location × Entry) :=
  t.entries.filterMap fun e =>
    if l.isPrefixOf e.1 && e.1 ≠ l then some (e.1.drop l.length, e.2) else none

/-- Entries for one key do not matter to the look-up of another one. -/
theorem lookup_filter_of_ne {l k : Location} (h : l ≠ k) (es : List (Location × Entry)) :
    (es.filter (·.1 ≠ k)).lookup l = es.lookup l := by
  induction es with
  | nil => rfl
  | cons e es ih =>
    obtain ⟨a, b⟩ := e
    by_cases ha : a = k
    · subst ha
      have hl : (l == a) = false := by simpa using h
      rw [List.filter_cons_of_neg (by simp), List.lookup_cons, hl]
      exact ih
    · rw [List.filter_cons_of_pos (by simpa using ha), List.lookup_cons, List.lookup_cons, ih]

/-- What was put at a location is there. -/
@[simp] theorem lookup_set_self (t : FileTree) {l : Location} (h : l ≠ []) (e : Entry) :
    (t.set l e).lookup l = some e := by
  simp [lookup, set, h]

/-- Other locations keep what they have. -/
theorem lookup_set_of_ne (t : FileTree) {l k : Location} (h : l ≠ k) (e : Entry) :
    (t.set k e).lookup l = t.lookup l := by
  have hl : (l == k) = false := by simpa using h
  have hf := lookup_filter_of_ne h t.entries
  simp only [lookup, set, List.lookup_cons, hl]
  split
  · rfl
  · exact hf

/-- There is a directory at a location. -/
def holdsDirectory (t : FileTree) (l : Location) : Bool :=
  match t.lookup l with
  | some .directory => true
  | _ => false

/-- Refuses a location without a directory. -/
def checkDirectory (t : FileTree) (l : Location) : Except FileError Unit :=
  match t.lookup l with
  | some .directory => .ok ()
  | some (.file _) => .error .notDirectory
  | none => .error .notFound

/-- The number of bytes that a name may have. -/
def maxNameLength : Nat := 255

/-- The location of a name in a directory. -/
def child (l : Location) (name : String) : Except FileError Location :=
  if name = "" || name = "." then .ok l
  else if name = ".." then .ok l.dropLast
  else if name.utf8ByteSize > maxNameLength then .error .nameTooLong
  else .ok (l ++ [name])

/-- Follows names from a location; nothing is said about the last place that is reached. -/
def walk (t : FileTree) : Location → List String → Except FileError Location
  | l, [] => .ok l
  | l, s :: ss => do
    t.checkDirectory l
    t.walk (← child l s) ss

/-- The location from which a path is followed. -/
def start (t : FileTree) (p : Path) : Location :=
  if p.isAbsolute then [] else t.workingDirectory

/-- The number of bytes that a path may have. -/
def maxPathLength : Nat := 4095

/-- Refuses what is no path at all. -/
def checkPath (p : Path) : Except FileError Unit :=
  if p.text.toList.contains '\x00' then .error .nulInName
  else if p.text.isEmpty then .error .notFound
  else if p.text.utf8ByteSize > maxPathLength then .error .nameTooLong
  else .ok ()

/-- The location that a path leads to. -/
def resolve (t : FileTree) (p : Path) : Except FileError Location := do
  checkPath p
  t.walk (t.start p) p.segments

/-! ## Reading -/

/-- The bytes of the file at a path. -/
def readBytes (t : FileTree) (p : Path) : Except FileError ByteArray := do
  match t.lookup (← t.resolve p) with
  | some (.file bytes) => return bytes
  | some .directory => throw .isDirectory
  | none => throw .notFound

/-- The text of the file at a path. -/
def readText (t : FileTree) (p : Path) : Except FileError String := do
  match String.fromUTF8? (← t.readBytes p) with
  | some s => return s
  | none => throw .notText

/-- There is a directory at the path. -/
def isDirectory (t : FileTree) (p : Path) : Bool :=
  match t.resolve p with
  | .ok l => t.holdsDirectory l
  | .error _ => false

/-! ## Changing -/

/-- The segments of a path without separators at its end. -/
def significantSegments (p : Path) : List String :=
  (p.segments.reverse.dropWhile (· = "")).reverse

/-- The existing directory in which a path is to create something, and the name there; none if the last segment of the
path is not a name of its own. -/
def resolveNew (t : FileTree) (p : Path) : Except FileError (Option (Location × String)) := do
  checkPath p
  let ss := significantSegments p
  let parent ← t.walk (t.start p) ss.dropLast
  t.checkDirectory parent
  match ss.getLast? with
  | none => return none
  | some s => return if s = "." || s = ".." then none else some (parent, s)

/-- Makes a directory at a path. -/
def makeDirectory (t : FileTree) (p : Path) : Except FileError FileTree := do
  match ← t.resolveNew p with
  | none => throw .exists
  | some (parent, s) =>
    let l ← child parent s
    match t.lookup l with
    | some _ => throw .exists
    | none => return t.set l .directory

/-- Writes a file at a path; there must be a directory for it. A path with a separator at its end is refused before its
last name is looked at. -/
def writeBytes (t : FileTree) (p : Path) (bytes : ByteArray) : Except FileError FileTree := do
  match ← t.resolveNew p with
  | none => throw .isDirectory
  | some (parent, s) =>
    if p.text.toList.getLast? = some '/' then throw .isDirectory
    else
      let l ← child parent s
      if t.holdsDirectory l then throw .isDirectory else return t.set l (.file bytes)

/-- Makes a directory unless there is one, and the directories above it in at most so many steps; gives the tree that
was reached, and the failure that ended the work. -/
def makeDirectoriesUpTo (t : FileTree) : Nat → Path → FileTree × Except FileError Unit
  | 0, _ => (t, .error .notFound)
  | n + 1, p =>
    if p.text.isEmpty then (t, .ok ())
    else
      match t.makeDirectory p with
      | .ok t => (t, .ok ())
      | .error .notFound =>
        match p.parent? with
        | none => (t, .error .notFound)
        | some q =>
          match t.makeDirectoriesUpTo n q with
          | (t, .error e) => (t, .error e)
          | (t, .ok ()) =>
            match t.makeDirectory p with
            | .ok t => (t, .ok ())
            | .error e => (t, if t.isDirectory p then .ok () else .error e)
      | .error e => (t, if t.isDirectory p then .ok () else .error e)

/-- Makes a directory unless there is one, and all directories above it. -/
def makeDirectories (t : FileTree) (p : Path) : FileTree × Except FileError Unit :=
  t.makeDirectoriesUpTo (p.segments.length + 1) p

/-- Removes the file at a path. -/
def remove (t : FileTree) (p : Path) : Except FileError FileTree := do
  let l ← t.resolve p
  match t.lookup l with
  | some (.file _) => return t.erase l
  | some .directory => throw .isDirectory
  | none => throw .notFound

end FileTree

end TableExport
