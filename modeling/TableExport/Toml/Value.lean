import TableExport.Text.Position

/-!
# TOML values

A document is a table of named values. Every key and every value knows which part of the document it was written in,
so that a message can point at it.

- `Span` is a part of a document, `Span.range` gives its offset and length.
- `Value` is a value; a table keeps how it came about (`TableForm`), which decides how it may be extended.
- `Entries` is the content of a table.
- `Value.isRepresentable` says that every number of a value can be represented.
-/

namespace TableExport.Toml

open TableExport.Text

/-- A part of a text, by what is left of the text at its two ends, as a reader knows it. -/
structure Span where
  /-- The text from its start on. -/
  fromStart : List Char
  /-- The text behind it. -/
  behind : List Char
deriving Repr, DecidableEq

namespace Span

/-- The offset and the length of a part, in a text of so many bytes. -/
def range (size : Nat) (s : Span) : Nat × Nat :=
  let fromStart := utf8Length s.fromStart
  (size - fromStart, fromStart - utf8Length s.behind)

/-- The part without length in front of a text. -/
def front (text : List Char) : Span :=
  ⟨text, text⟩

end Span

/-- The name of a value, and where it stands. -/
structure Key where
  text : String
  /-- The part of the document that spells it, quotes included. -/
  span : Span
deriving Repr, DecidableEq

/-- How a table came about. -/
inductive TableForm where
  /-- By a header of its own; or it is the document itself. -/
  | explicit
  /-- By the header of a table inside it. -/
  | implied
  /-- By a dotted key. -/
  | dotted
  /-- Between curly brackets. -/
  | inline
deriving Repr, DecidableEq

/-- A value. -/
inductive Value where
  | string (text : String)
  /-- A whole number of 64 bits. -/
  | integer (value : Int)
  | float (value : Float)
  /-- Something that is written like a number, but is none of 64 bits: it is too large, or other characters are among
  its digits. -/
  | unrepresentable
  | boolean (value : Bool)
  /-- A date, a time of day, or both. -/
  | datetime
  /-- A list of values; `ofTables` tells that headers in double brackets made it. -/
  | array (ofTables : Bool) (items : List (Span × Value))
  | table (form : TableForm) (entries : List (Key × Span × Value))

/-- The content of a table: keys, each with its value and where the value stands. -/
abbrev Entries := List (Key × Span × Value)

mutual

/-- Every number in a value can be represented. -/
def Value.isRepresentable : Value → Bool
  | .unrepresentable => false
  | .array _ items => allItems items
  | .table _ entries => allEntries entries
  | _ => true

/-- Every number in the values of an array can be represented. -/
def allItems : List (Span × Value) → Bool
  | [] => true
  | (_, v) :: items => v.isRepresentable && allItems items

/-- Every number in the values of a table can be represented. -/
def allEntries : List (Key × Span × Value) → Bool
  | [] => true
  | (_, _, v) :: entries => v.isRepresentable && allEntries entries

end

end TableExport.Toml
