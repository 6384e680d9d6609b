import TableExport.Document.Node
import TableExport.Model.Table

/-!
# From document nodes to typed values

The uniform nodes of a document become the typed values of a record. The shape is checked on the way: a field has a
type, a scalar that is not repeated holds exactly one value, a struct that is not repeated exactly one instance, and
an instance holds scalars only. The first violation in document order is reported with its address.

- `DocumentNode.lower` converts a node of a record.
- `LoweringError` lists the violations, `LoweringError.message` gives their texts.
-/

namespace TableExport

/-- A node that violates the shape of values, with its address. -/
inductive LoweringError where
  | missingType (path : String)
  /-- A scalar that is not repeated does not hold exactly one value. -/
  | valueArity (path : String) (found : Nat)
  /-- A struct that is not repeated does not hold exactly one instance. -/
  | structArity (path : String) (found : Nat)
  /-- An instance holds a struct. -/
  | nestedStruct (path : String)
deriving Repr, DecidableEq

namespace LoweringError

/-- The address of the violation. -/
def path : LoweringError → String
  | missingType p | valueArity p _ | structArity p _ | nestedStruct p => p

/-- The text of the violation. -/
def message : LoweringError → String
  | missingType p => p ++ ": field has no type"
  | valueArity p n => p ++ ": expected exactly one value node, found " ++ toString n
  | structArity p n => p ++ ": non-repeated struct must hold exactly one instance, found " ++ toString n
  | nestedStruct p => p ++ ": struct fields inside a struct instance are not supported"

end LoweringError

namespace DocumentNode

/-- The text of the only value below a field. -/
def singleValue (path : String) : List DocumentNode → Except LoweringError String
  | [v] => .ok v.value
  | vs => .error (.valueArity path vs.length)

/-- The address of the element with that index. -/
def indexed (path : String) (index : Nat) : String :=
  path ++ "[" ++ toString index ++ "]"

/-- The address of a field of what stands at a path; an empty path adds nothing. -/
def fieldPath (path name : String) : String :=
  if path.isEmpty then name else path ++ "." ++ name

/-- Converts a field of an instance at a path. -/
def lowerLeaf (path : String) (n : DocumentNode) : Except LoweringError Leaf :=
  let path := path ++ "." ++ n.name
  match n.type with
  | none => .error (.missingType path)
  | some .struct => .error (.nestedStruct path)
  | some (.scalar type) => do return ⟨n.name, type, ← singleValue path n.child⟩

/-- Converts the instances below a field at a path, the first of which has that index. -/
def lowerInstances (path : String) : Nat → List DocumentNode → Except LoweringError (List Instance)
  | _, [] => .ok []
  | index, i :: is => do
    let fields ← i.child.mapM (lowerLeaf (indexed path index))
    let rest ← lowerInstances path (index + 1) is
    return fields :: rest

/-- Converts a node of a record at a path. -/
def lower (path : String) (n : DocumentNode) : Except LoweringError Node :=
  let path := fieldPath path n.name
  match n.type with
  | none => .error (.missingType path)
  | some (.scalar type) =>
    if n.repeated then .ok ⟨n.name, .array type (n.child.map (·.value))⟩
    else do return ⟨n.name, .scalar type (← singleValue path n.child)⟩
  | some .struct => do
    let instances ← lowerInstances path 0 n.child
    if n.repeated then return ⟨n.name, .structArray instances⟩
    else
      match instances with
      | [i] => return ⟨n.name, .struct i⟩
      | is => throw (.structArity path is.length)

/-- Converts the records of a table, the first of which has that index. -/
def lowerRecords (table : String) : Nat → List (List DocumentNode) → Except LoweringError (List Record)
  | _, [] => .ok []
  | index, r :: rs => do
    let nodes ← r.mapM (lower (indexed table index))
    let rest ← lowerRecords table (index + 1) rs
    return nodes :: rest

end DocumentNode

end TableExport
