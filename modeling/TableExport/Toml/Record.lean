import TableExport.Decimal.Shortest
import TableExport.Text.Alternatives
import TableExport.Text.Quoted
import TableExport.Toml.Value

/-!
# Typed values of a document

A document is well formed whatever values it has; here they are checked against what a program wants to find. A record
is a table with known fields or an array of them in order. The keys of a table are looked at in alphabetical order, and
fields that are missing are noticed after that.

- `Fault` is a value of the wrong shape: where it stands, and what is wrong (`Misfit`).
- `asText`, `asList` and `asRecord` take values apart.
-/

namespace TableExport.Toml

open TableExport.Text

/-- What is wrong about a value. -/
inductive Misfit where
  /-- A record lacks a field. -/
  | missingField (name : String)
  /-- A record has a field that is not known. -/
  | unknownField (name : String) (expected : List String)
  /-- A value of another kind was expected. -/
  | wrongKind (found expected : String)
  /-- An array stands for a record and ends too early. -/
  | tooShort (length : Nat) (expected : String)
deriving Repr, DecidableEq

/-- The text of what is wrong. -/
def Misfit.message : Misfit → String
  | missingField name => "missing field `" ++ name ++ "`"
  | unknownField name expected => "unknown field `" ++ name ++ "`, expected " ++ alternatives expected
  | wrongKind found expected => "invalid type: " ++ found ++ ", expected " ++ expected
  | tooShort n expected => "invalid length " ++ toString n ++ ", expected " ++ expected

/-- A value of the wrong shape. -/
structure Fault where
  span : Span
  misfit : Misfit
deriving Repr, DecidableEq

/-- Numbers are positional, whatever their size; of two equally near decimals the larger one is shown. -/
def floatText (x : Float) : String :=
  if x.isNaN then "NaN"
  else if x.isInf then if x < 0 then "-inf" else "inf"
  else
    let (ds, e) := Decimal.significantOf .up x
    String.ofList (Decimal.signed x (Decimal.positional ds e))

/-- How a message names a value. -/
def Value.describe : Value → String
  | .string s => "string " ++ quoted s
  | .integer n => "integer `" ++ toString n ++ "`"
  | .float x => "floating point `" ++ floatText x ++ "`"
  | .boolean b => "boolean `" ++ (if b then "true" else "false") ++ "`"
  | .unrepresentable => "number"
  | .datetime => "map"
  | .array .. => "sequence"
  | .table .. => "map"

/-- What is wrong about a value of another kind than the expected one. -/
def Value.misfit (expected : String) (v : Value) : Misfit :=
  .wrongKind v.describe expected

/-- The text that a value is. -/
def asText (expected : String) (v : Span × Value) : Except Fault String :=
  match v.2 with
  | .string s => .ok s
  | other => .error ⟨v.1, other.misfit expected⟩

/-- The values of a list. -/
def asList {α : Type} (item : Span × Value → Except Fault α) (v : Span × Value) : Except Fault (List α) :=
  match v.2 with
  | .array _ items => items.mapM item
  | other => .error ⟨v.1, other.misfit "a sequence"⟩

/-- A field of a record with a state. -/
structure RecordField (σ : Type) where
  name : String
  /-- The record is complete without it, or the state has it already. -/
  isDone : σ → Bool
  /-- Takes a value into the state. -/
  take : σ → Span × Value → Except Fault σ

/-- The name under which a date or time shows its text. -/
def datetimeField : String := "$__toml_private_datetime"

/-- Takes a table into the state of a record. -/
def takeEntries {σ : Type} (fields : List (RecordField σ)) : σ → Entries → Except Fault σ
  | state, [] => .ok state
  | state, (k, v) :: es =>
    match fields.find? (·.name = k.text) with
    | none => .error ⟨k.span, .unknownField k.text (fields.map (·.name))⟩
    | some f => do takeEntries fields (← f.take state v) es

/-- Takes the items of an array into the state of a record with so many fields before; what stands behind the last
field is not looked at. -/
def takeItems {σ : Type} (span : Span) (expected : String) :
    Nat → List (RecordField σ) → σ → List (Span × Value) → Except Fault σ
  | _, [], state, _ => .ok state
  | n, _ :: _, _, [] => .error ⟨span, .tooShort n expected⟩
  | n, f :: fs, state, v :: vs => do takeItems span expected (n + 1) fs (← f.take state v) vs

/-- Takes a table or an array into the state of a record. -/
def asRecord {σ : Type} (name : String) (fields : List (RecordField σ)) (start : σ) (v : Span × Value) :
    Except Fault σ :=
  let expected := "struct " ++ name
  match v.2 with
  | .table _ es => do
    let state ← takeEntries fields start (es.mergeSort fun a b => a.1.text ≤ b.1.text)
    match fields.find? (!·.isDone state) with
    | some f => throw ⟨v.1, .missingField f.name⟩
    | none => return state
  | .array _ items => takeItems v.1 (expected ++ " with " ++ elementCount fields.length) 0 fields start items
  | .datetime => .error ⟨v.1, .unknownField datetimeField (fields.map (·.name))⟩
  | other => .error ⟨v.1, other.misfit expected⟩

end TableExport.Toml
