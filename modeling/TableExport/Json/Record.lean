import TableExport.Json.Value

/-!
# Typed readers

Readers for the kinds of values that the model documents are made of. A reader accepts one kind of value and names
the other one otherwise. A record is an object with known fields or an array of its fields in order; unknown members
are passed, repeated fields are refused, and fields without a default have to be there.

- `readString`, `readBoolean`, `readInt32` read scalars, `readNullable` admits `null`.
- `readVariant` reads one of several names, `readAlternative` a name that a type is found by.
- `readSequence` reads a list, `readRecord` a record.
- `readDocument` reads a whole text.
-/

namespace TableExport.Json

/-- The failure of a token of another kind than the expected one. -/
def kindFailure (expected : String) (s : List Char) : Failure :=
  match s with
  | [] => .next .endOfValue []
  | c :: r =>
    let found (f : Found) : Except Failure (List Char) → Failure
      | .ok r => .here (.wrongKind f expected) r
      | .error f => f
    if c = 'n' then found .null (readWord ['u', 'l', 'l'] r)
    else if c = 't' then found (.boolean true) (readWord ['r', 'u', 'e'] r)
    else if c = 'f' then found (.boolean false) (readWord ['a', 'l', 's', 'e'] r)
    else if c = '-' || c.isDigit then
      match readNumber s with
      | .ok (.integer n, r) => .here (.wrongKind (.integer n) expected) r
      | .ok (.float x, r) => .here (.wrongKind (.float x) expected) r
      | .error f => f
    else if c = '"' then
      match readText r with
      | .ok (t, r) => .here (.wrongKind (.string (String.ofList t)) expected) r
      | .error f => f
    else if c = '[' then .here (.wrongKind .sequence expected) s
    else if c = '{' then .here (.wrongKind .map expected) s
    else .next .expectedValue s

/-- Reads a string; another value is refused with the name of what was expected. -/
def readStringAs (expected : String) : Reader String := fun s =>
  match skipBlanks s with
  | [] => .error (.next .endOfValue [])
  | c :: r =>
    if c = '"' then do
      let (t, r) ← readText r
      return (String.ofList t, r)
    else .error (kindFailure expected (c :: r))

/-- Reads a string. -/
def readString : Reader String := readStringAs "a string"

/-- Reads a boolean. -/
def readBoolean : Reader Bool := fun s =>
  match skipBlanks s with
  | [] => .error (.next .endOfValue [])
  | c :: r =>
    if c = 't' then do return (true, ← readWord ['r', 'u', 'e'] r)
    else if c = 'f' then do return (false, ← readWord ['a', 'l', 's', 'e'] r)
    else .error (kindFailure "a boolean" (c :: r))

/-- Reads a whole number of 32 bits. -/
def readInt32 : Reader Int32 := fun s =>
  match skipBlanks s with
  | [] => .error (.next .endOfValue [])
  | c :: r =>
    if c = '-' || c.isDigit then
      match readNumber (c :: r) with
      | .error f => .error f
      | .ok (.float x, r) => .error (.here (.wrongKind (.float x) "i32") r)
      | .ok (.integer n, r) =>
        if -(Decimal.twoTo 31 : Int) ≤ n ∧ n < Decimal.twoTo 31 then .ok (Int32.ofInt n, r)
        else .error (.here (.wrongValue (.integer n) "i32") r)
    else .error (kindFailure "i32" (c :: r))

/-- Reads `null` as none, and anything else with a reader. -/
def readNullable {α : Type} (read : Reader α) : Reader (Option α) := fun s =>
  match skipBlanks s with
  | [] => (read []).map fun (a, r) => (some a, r)
  | c :: r =>
    if c = 'n' then do return (none, ← readWord ['u', 'l', 'l'] r)
    else do
      let (a, r) ← read (c :: r)
      return (some a, r)

/-- Passes the value `null`. -/
def readNull (s : List Char) : Except Failure (List Char) :=
  match skipBlanks s with
  | [] => .error (.next .endOfValue [])
  | c :: r => if c = 'n' then readWord ['u', 'l', 'l'] r else .error (kindFailure "unit" (c :: r))

/-- The variant of that name, or the failure behind it. -/
def variantNamed {α : Type} (variants : List α) (name : α → String) (n : String) (r : List Char) :
    Except Failure (α × List Char) :=
  match variants.find? (name · = n) with
  | some a => .ok (a, r)
  | none => .error (.here (.unknownVariant n (variants.map name)) r)

/-- Reads the key of an object that stands for a variant, behind the opening bracket of the object. -/
def readVariantKey : Reader String := fun s =>
  match skipBlanks s with
  | [] => .error (.next .endOfObject [])
  | c :: r =>
    if c = '"' then do
      let (t, r) ← readText r
      return (String.ofList t, r)
    else .error (.next (if c = '}' then .expectedValue else .keyNotString) (c :: r))

/-- Reads one of several variants: its name, or an object whose only member has the name as its key and `null` as its
value. -/
def readVariant {α : Type} (variants : List α) (name : α → String) (depth : Nat) : Reader α := fun s =>
  match skipBlanks s with
  | [] => .error (.next .endOfValue [])
  | c :: r =>
    if c = '"' then do
      let (t, r) ← readText r
      variantNamed variants name (String.ofList t) r
    else if c = '{' then
      if depth = 0 then .error (.next .tooDeep (c :: r))
      else do
        let (t, r) ← readVariantKey r
        let (a, r) ← variantNamed variants name t r
        let r ← readNull (← readColon r)
        match skipBlanks r with
        | [] => .error (.here .endOfObject [])
        | d :: r => if d = '}' then .ok (a, r) else .error (.here .expectedValue (d :: r))
    else .error (.next .expectedValue (c :: r))

/-- The name that a value gives for one of several alternatives: a string, or an object with `null` under it. -/
def Value.alternative? : Value → Option String
  | .string n => some n
  | .object [(n, .null)] => some n
  | _ => none

/-- Reads a value that has to name one of several alternatives of a type. -/
def readAlternative {α : Type} (type : String) (find? : String → Option α) (depth : Nat) : Reader α := fun s => do
  let (v, r) ← readValue depth s
  match v.alternative?.bind find? with
  | some a => return (a, r)
  | none => throw (.floating (.noAlternative type) r)

/-- Reads a list; none as its element reader means that no further container may be opened. -/
def readSequence {α : Type} (element : Option (Reader α)) : Reader (List α) := fun s =>
  match skipBlanks s with
  | [] => .error (.next .endOfValue [])
  | c :: r =>
    if c = '[' then
      match element with
      | none => .error (.next .tooDeep (c :: r))
      | some element => readList element r
    else .error (kindFailure "a sequence" (c :: r))

/-- A field of a record that is read into a state. -/
structure RecordField (σ : Type) where
  name : String
  optional : Bool
  isSet : σ → Bool
  read : σ → Reader σ

/-- How a record is read. -/
structure RecordShape (σ : Type) where
  start : σ
  fields : List (RecordField σ)

/-- Reads a member of a record behind its key. -/
def readMember {σ : Type} (fields : List (RecordField σ)) (state : σ) (key : String) : Reader σ := fun s =>
  match fields.find? (·.name = key) with
  | none => do return (state, ← skipValue (← readColon s))
  | some f =>
    if f.isSet state then .error (.floating (.duplicateField key) s)
    else do f.read state (← readColon s)

/-- Reads the members of a record behind its opening bracket; fails if a field without a default is missing. -/
def readMembers {σ : Type} (fields : List (RecordField σ)) (start : σ) : Reader σ := fun s => do
  let (state, r) ← foldMembers (readMember fields) ('{' :: s) true start s
  match fields.find? fun f => !f.optional && !f.isSet state with
  | some f => throw (.floating (.missingField f.name) r)
  | none => return (state, r)

/-- Reads the fields of a record from the elements of a list; fails if the list ends before a field without a
default. The state and the text behind the last element that was read are the result. -/
def readFields {σ : Type} (expected : String) : List (RecordField σ) → Nat → Bool → Bool → σ → Reader σ
  | [], _, _, _, state, s => .ok (state, s)
  | f :: fs, index, first, ended, state, s =>
    if ended then
      if f.optional then readFields expected fs (index + 1) first true state s
      else .error (.floating (.wrongLength index expected) s)
    else do
      let (more, r) ← nextElement first s
      if more then
        let (state, r) ← f.read state r
        readFields expected fs (index + 1) false false state r
      else if f.optional then readFields expected fs (index + 1) first true state r
      else throw (.floating (.wrongLength index expected) r)

/-- Passes the closing bracket of an array that stands for a record; more elements are refused. -/
def endOfFields (s : List Char) : Except Failure (List Char) :=
  match skipBlanks s with
  | [] => .error (.next .endOfList [])
  | c :: r =>
    if c = ']' then .ok r
    else if c = ',' then
      match skipBlanks r with
      | d :: t => .error (.next (if d = ']' then .trailingComma else .trailingCharacters) (d :: t))
      | [] => .error (.next .trailingCharacters [])
    else .error (.next .trailingCharacters (c :: r))

/-- What a failed record leaves of the text: blanks are passed, and its closing brace if it is next. -/
def passBrace (s : List Char) : List Char :=
  match skipBlanks s with
  | [] => []
  | c :: r => if c = '}' then r else c :: r

/-- What a failed record in the form of an array leaves of the text: blanks are passed, and its closing bracket or a
comma with more blanks if it is next. -/
def passBracket (s : List Char) : List Char :=
  match skipBlanks s with
  | [] => []
  | c :: r => if c = ']' then r else if c = ',' then skipBlanks r else c :: r

/-- Reads a record; none as its shape means that no further container may be opened. -/
def readRecord {σ : Type} (name : String) (shape : Option (RecordShape σ)) : Reader σ := fun s =>
  match skipBlanks s with
  | [] => .error (.next .endOfValue [])
  | c :: r =>
    if c = '{' then
      match shape with
      | none => .error (.next .tooDeep (c :: r))
      | some shape =>
        match readMembers shape.fields shape.start r with
        | .ok (state, r) => .ok (state, r.drop 1)
        | .error f => .error (f.place passBrace)
    else if c = '[' then
      match shape with
      | none => .error (.next .tooDeep (c :: r))
      | some shape =>
        let expected := "struct " ++ name ++ " with " ++ Text.elementCount shape.fields.length
        match readFields expected shape.fields 0 true false shape.start r with
        | .ok (state, r) => do return (state, ← endOfFields r)
        | .error f => .error (f.place passBracket)
    else .error (kindFailure ("struct " ++ name) (c :: r))

/-- Reads a whole text: a value, and nothing but blanks behind it. -/
def readDocument {α : Type} (read : Reader α) (text : List Char) : Except Failure α := do
  let (a, r) ← read text
  match skipBlanks r with
  | [] => return a
  | c :: r => throw (.next .trailingCharacters (c :: r))

/-- How many containers may be nested in a document. -/
def maxDepth : Nat := 127

end TableExport.Json
