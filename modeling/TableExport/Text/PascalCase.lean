import TableExport.Text.UpperCase

/-!
# Names in Pascal case

A name is cut at every `_` and `-`; each part starts with the upper-case form of its first character, and the parts
are joined without a sign between them (`item_id` becomes `ItemId`).

- `pascalCase` converts a name.
- `pascalFrom_append_separator` says that the conversion works part by part.
-/

namespace TableExport.Text

/-- The character separates the parts of a name. -/
def isSeparator (c : Char) : Bool :=
  c == '_' || c == '-'

/-- The Pascal case of a piece of a name; `start` tells that the piece begins a part. -/
def pascalFrom (start : Bool) : List Char → List Char
  | [] => []
  | c :: s =>
    if isSeparator c then pascalFrom true s
    else (if start then upperCase c else [c]) ++ pascalFrom false s

/-- The Pascal case of a name. -/
def pascalCase (s : String) : String :=
  String.ofList (pascalFrom true s.toList)

/-- What follows a separator is converted like a name of its own. -/
theorem pascalFrom_append_separator {c : Char} (hc : isSeparator c = true) (start : Bool) (s t : List Char) :
    pascalFrom start (s ++ c :: t) = pascalFrom start s ++ pascalFrom true t := by
  induction s generalizing start with
  | nil => simp [pascalFrom, hc]
  | cons d s ih =>
    by_cases hd : isSeparator d
    · simp [pascalFrom, hd, ih]
    · simp [pascalFrom, hd, ih, List.append_assoc]

end TableExport.Text
