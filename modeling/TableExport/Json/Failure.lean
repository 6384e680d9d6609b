import TableExport.Json.Cause
import TableExport.Text.Position

/-!
# Where the reading of a JSON document failed

A reader works on the text that is not read yet. A failure keeps its cause and that text, from which the position in
the whole document follows: a failure is either placed behind what was read (`here`) or at the character that comes
next (`next`).

A failure of a record as a whole is not placed yet when it arises (`floating`): the record around it first passes its
own closing bracket.

- `Failure.position` is the line and column of a failure in a document.
- `Failure.message` is its text with the position.
-/

namespace TableExport.Json

open TableExport.Text

/-- A reading that failed. -/
structure Failure where
  cause : Cause
  /-- The text that is not read yet. -/
  rest : List Char
  /-- The bytes of that text that the position passes. -/
  ahead : Nat
  /-- The position is final. -/
  placed : Bool

namespace Failure

/-- A failure behind what was read. -/
def here (cause : Cause) (rest : List Char) : Failure := ⟨cause, rest, 0, true⟩

/-- A failure at the byte that comes next. -/
def next (cause : Cause) (rest : List Char) : Failure := ⟨cause, rest, 1, true⟩

/-- A failure of the record around the place that was reached. -/
def floating (cause : Cause) (rest : List Char) : Failure := ⟨cause, rest, 0, false⟩

/-- Places a floating failure: the rest of the text becomes what `pass` leaves of it. -/
def place (pass : List Char → List Char) (f : Failure) : Failure :=
  if f.placed then f else { f with rest := pass f.rest, placed := true }

/-- The position of a failure in the document that was read. -/
def position (document : List Char) (f : Failure) : Position :=
  Position.ofOffset document (min (utf8Length document) (utf8Length document - utf8Length f.rest + f.ahead))

/-- The text of a failure in a document. -/
def message (document : List Char) (f : Failure) : String :=
  let p := f.position document
  f.cause.message ++ " at line " ++ toString p.line ++ " column " ++ toString p.column

end Failure

/-- What a reader of values finds in a text: the value and the text behind it. -/
abbrev Reader (α : Type) := List Char → Except Failure (α × List Char)

end TableExport.Json
