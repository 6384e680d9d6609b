import TableExport.Lua.Quoted

/-!
# Names in Lua

A name may be written bare if it is an identifier and no reserved word; any other name is written as a quoted string
in brackets.

- `isIdentifier` decides.
- `tableKey` writes the key of a constructor entry, `fieldAccess` the access to a field.
-/

namespace TableExport.Lua

/-- The reserved words. -/
def keywords : List String := [
  "and", "break", "do", "else", "elseif", "end", "false", "for", "function", "goto", "if", "in", "local", "nil", "not",
  "or", "repeat", "return", "then", "true", "until", "while"]

/-- The character may start an identifier: an ASCII letter or an underscore. -/
def isNameStart (c : Char) : Bool :=
  c.isAlpha || c = '_'

/-- The character may stand inside an identifier: an ASCII letter or digit or an underscore. -/
def isNamePart (c : Char) : Bool :=
  c.isAlphanum || c = '_'

theorem isNamePart_of_isNameStart {c : Char} (h : isNameStart c = true) : isNamePart c = true := by
  simp only [isNameStart, isNamePart, Char.isAlphanum, Bool.or_eq_true] at h ⊢
  exact h.imp_left .inl

/-- The name can be written bare. -/
def isIdentifier (name : String) : Bool :=
  match name.toList with
  | [] => false
  | c :: s => isNameStart c && s.all isNamePart && !keywords.contains name

/-- The key of a constructor entry. -/
def tableKey (name : String) : String :=
  if isIdentifier name then name else "[" ++ quoted name ++ "]"

/-- The access to a field of what an expression denotes. -/
def fieldAccess (base name : String) : String :=
  if isIdentifier name then base ++ "." ++ name else base ++ "[" ++ quoted name ++ "]"

end TableExport.Lua
