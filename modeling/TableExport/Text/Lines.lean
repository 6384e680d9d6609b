/-!
# Lines of a text

A line ends with a line feed, or with a carriage return and a line feed; the end of the text ends the last line, and
a text that ends with a line break has no empty line behind it.

- `lines` cuts a text.
-/

namespace TableExport.Text

/-- The lines of a text, without their line breaks. -/
def lines : List Char → List (List Char)
  | [] => []
  | '\n' :: s => [] :: lines s
  | '\r' :: '\n' :: s => [] :: lines s
  | c :: s =>
    match lines s with
    | [] => [[c]]
    | l :: ls => (c :: l) :: ls

end TableExport.Text
