/-!
# Paths

A path is a text in which `/` separates names; one that starts with `/` is absolute. Different texts can spell the same
path: repeated separators, a separator at the end and a `.` that is not the first name do not count.

- `Path.components` is what counts of a path, `Path.sameAs` compares paths by it.
- `Path.join` appends a path to another one, `Path.parent?` takes the last component away.
-/

namespace TableExport

/-- A path as written. -/
structure Path where
  text : String
deriving Repr, DecidableEq

/-- A part of a path that counts. -/
inductive Component where
  /-- The beginning of an absolute path. -/
  | root
  /-- A `.` at the beginning. -/
  | here
  /-- A `..`. -/
  | up
  /-- Any other name. -/
  | name (text : String)
deriving Repr, DecidableEq

namespace Path

/-- The pieces of a text between its separators; there is one more of them than there are separators. -/
def splitSeparators : List Char → List (List Char)
  | [] => [[]]
  | c :: s =>
    if c = '/' then [] :: splitSeparators s
    else
      match splitSeparators s with
      | [] => [[c]]
      | piece :: pieces => (c :: piece) :: pieces

/-- The names between the separators of a path, empty ones included. -/
def segments (p : Path) : List String :=
  (splitSeparators p.text.toList).map String.ofList

/-- The path starts with a separator. -/
def isAbsolute (p : Path) : Bool :=
  p.text.toList.head? = some '/'

/-- What a name behind the first one contributes. -/
def innerComponent? (s : String) : Option Component :=
  if s = "" || s = "." then none
  else if s = ".." then some .up
  else some (.name s)

/-- What the first name contributes. -/
def firstComponent? (s : String) : Option Component :=
  if s = "." then some .here else innerComponent? s

/-- The components of a path. -/
def components (p : Path) : List Component :=
  match p.segments with
  | [] => []
  | s :: ss =>
    (if p.isAbsolute then some .root else firstComponent? s).toList ++ ss.filterMap innerComponent?

/-- The paths have the same components. -/
def sameAs (p q : Path) : Bool :=
  p.components = q.components

/-- The second path seen from the first one; an absolute path replaces it. -/
def join (p q : Path) : Path :=
  if q.isAbsolute then q
  else if p.text.isEmpty || p.text.toList.getLast? = some '/' then ⟨p.text ++ q.text⟩
  else ⟨p.text ++ "/" ++ q.text⟩

/-- The segments of a path in reverse order without the ones at the end that do not count. -/
def trimEnd : List String → List String
  | s :: t :: rest => if s = "" || s = "." then trimEnd (t :: rest) else s :: t :: rest
  | ss => ss

/-- The path without its last component; none if there is none to take away. -/
def parent? (p : Path) : Option Path :=
  match trimEnd p.segments.reverse with
  | [] => none
  | [s] => if s = "" then none else some ⟨""⟩
  | _ :: rest =>
    match trimEnd rest with
    | [""] => some ⟨"/"⟩
    | ss => some ⟨"/".intercalate ss.reverse⟩

end Path

end TableExport
