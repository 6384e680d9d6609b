/-!
# Lines, columns and byte offsets of a text

A text is stored as UTF-8, so a place in it is a number of bytes, or a line and a column where the column counts the
bytes between the start of the line and the place.

- `utf8Length` is the number of bytes of a text.
- `Position.ofOffset` turns a byte offset into a line and a column.
- `offsetOf?` goes back: it is the offset of the byte *before* the place, as wanted by a label that points at the
  last byte read.
-/

namespace TableExport.Text

/-- The number of bytes that a text takes in UTF-8. -/
def utf8Length : List Char → Nat
  | [] => 0
  | c :: s => c.utf8Size + utf8Length s

@[simp] theorem utf8Length_nil : utf8Length [] = 0 := rfl

@[simp] theorem utf8Length_cons (c : Char) (s : List Char) : utf8Length (c :: s) = c.utf8Size + utf8Length s := rfl

@[simp] theorem utf8Length_append (s t : List Char) : utf8Length (s ++ t) = utf8Length s + utf8Length t := by
  induction s with
  | nil => simp
  | cons c s ih => simp [ih, Nat.add_assoc]

/-- A place in a text: a line counted from 1, and the bytes between its start and the place. -/
structure Position where
  /-- The line, counted from 1. -/
  line : Nat
  column : Nat
deriving Repr, DecidableEq

namespace Position

/-- The place that is `n` bytes further on in the text `s`, from a place at its start. -/
def advance (p : Position) : List Char → Nat → Position
  | [], _ => p
  | c :: s, n =>
    if n < c.utf8Size then ⟨p.line, p.column + n⟩
    else if c = '\n' then advance ⟨p.line + 1, 0⟩ s (n - c.utf8Size)
    else advance ⟨p.line, p.column + c.utf8Size⟩ s (n - c.utf8Size)

/-- The place of a byte offset; an offset beyond the text is its end. -/
def ofOffset (s : List Char) (n : Nat) : Position :=
  advance ⟨1, 0⟩ s n

end Position

/-- The bytes in front of the line that follows `n` line breaks; all bytes if there are fewer breaks. -/
def lineStart : List Char → Nat → Nat
  | _, 0 => 0
  | [], _ + 1 => 0
  | c :: s, n + 1 => c.utf8Size + if c = '\n' then lineStart s n else lineStart s (n + 1)

/-- The number of machine words. Offsets are machine words, and counting them starts again from 0 behind the last one. -/
def wordCount : Nat := 18446744073709551616

/-- The offset that a label for a line and a column gets: one byte before the place, but not before the start of the
line, and never beyond the text. Line 0 is no line and has no offset. -/
def offsetOf? (s : List Char) (p : Position) : Option Nat :=
  if p.line = 0 then none
  else some (min ((lineStart s (p.line - 1) + (p.column - 1)) % wordCount) (utf8Length s))

end TableExport.Text
