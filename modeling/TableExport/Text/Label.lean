/-!
# Labels

A message about a text points at parts of it by labels.
-/

namespace TableExport

/-- A part of a text that a message points at. -/
structure Label where
  /-- Its offset in bytes. -/
  offset : Nat
  /-- Its length in bytes. -/
  length : Nat
  text : String
deriving Repr, DecidableEq

end TableExport
