/-!
# Why an output cannot be rendered

- `RenderError` lists the causes, `RenderError.message` gives their texts.
-/

namespace TableExport

/-- What bears a name that is already taken in an output. -/
inductive NameOrigin where
  | table
  /-- The index of a table on a key. -/
  | index (table key : String)
deriving Repr, DecidableEq

/-- The description of what bears the name. -/
def NameOrigin.describe : NameOrigin → String
  | .table => "table"
  | .index t key => "index of table '" ++ t ++ "' on key '" ++ key ++ "'"

/-- Why an output cannot be rendered: a flaw of the model, or a text that was not taken. -/
inductive RenderError where
  /-- A record or one of its instances names a field twice. -/
  | duplicateField (table : String) (record : Nat) (field : String)
  /-- A field of a combine struct links a descriptor that does not exist. -/
  | unknownDescriptor (owner field descriptor : String)
  /-- A descriptor declares a key that none of its fields has as its name. -/
  | unknownIndexKey (descriptor key : String)
  /-- A name is taken already. -/
  | nameClash (name : String) (origin : NameOrigin)
  /-- A formatted text was not taken. -/
  | format
deriving Repr, DecidableEq

/-- The text of an error. -/
def RenderError.message : RenderError → String
  | duplicateField table record field =>
    "record " ++ toString record ++ " of table '" ++ table ++ "' declares field '" ++ field ++ "' more than once"
  | unknownDescriptor owner field descriptor =>
    "field '" ++ field ++ "' of '" ++ owner ++ "' links unknown descriptor '" ++ descriptor ++ "'"
  | unknownIndexKey descriptor key => "descriptor '" ++ descriptor ++ "' declares unknown index key '" ++ key ++ "'"
  | nameClash name origin => "'" ++ name ++ "' (" ++ origin.describe ++ ") clashes with another name in the output"
  | format => "failed to format output"

end TableExport
