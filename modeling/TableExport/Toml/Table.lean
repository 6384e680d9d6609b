import TableExport.Toml.Value

/-!
# Building tables

A document defines its tables in pieces: values with plain or dotted keys, and headers that open a table somewhere. No
value is defined twice, and a table is only extended in the manner in which it came about.

- `assign` adds a value under a plain or dotted key.
- `openTable` and `openElement` add what stands below a header in single or double brackets.
-/

namespace TableExport.Toml

/-- The value of a name. -/
def value? (es : Entries) (name : String) : Option (Span × Value) :=
  (es.find? (·.1.text = name)).map (·.2)

/-- The entries with another value for a name. -/
def replaceEntry (es : Entries) (name : String) (v : Span × Value) : Entries :=
  es.map fun e => if e.1.text = name then (e.1, v) else e

/-- The entries without a name. -/
def eraseEntry (es : Entries) (name : String) : Entries :=
  es.filter (·.1.text ≠ name)

/-- Changes the table that a path leads to. Tables that do not exist yet are made on the way, an array of tables stands
for its last element. The path belongs to a dotted key or to a header: a dotted key may not enter a table that has a
header of its own, and neither may enter an inline table. -/
def update (isDotted : Bool) (change : TableForm → Entries → Option Entries) :
    List Key → TableForm → Entries → Option Entries
  | [], form, es => change form es
  | k :: ks, _, es =>
    match value? es k.text with
    | none => do
      let form := if isDotted then .dotted else .implied
      let inner ← update isDotted change ks form []
      return es ++ [(k, k.span, .table form inner)]
    | some (span, .table form inner) =>
      if form = .inline || (isDotted && form = .explicit) then none
      else do
        let inner ← update isDotted change ks form inner
        return replaceEntry es k.text (span, .table form inner)
    | some (span, .array true items) =>
      match items.getLast? with
      | some (last, .table form inner) => do
        let inner ← update isDotted change ks form inner
        return replaceEntry es k.text (span, .array true (items.dropLast ++ [(last, .table form inner)]))
      | _ => none
    | some _ => none

/-- Adds a value under a new name to a table; only dotted keys add to a table that a dotted key made. -/
def insertNew (isDotted : Bool) (k : Key) (v : Span × Value) (form : TableForm) (es : Entries) : Option Entries :=
  if decide (form = .dotted) != isDotted || (value? es k.text).isSome then none
  else some (es ++ [(k, v)])

/-- A value with its plain or dotted key. -/
structure Assignment where
  /-- The parts of the key in front of the last one. -/
  path : List Key
  /-- The last part of the key. -/
  key : Key
  /-- The value and where it stands. -/
  value : Span × Value

/-- Adds a value to a table. -/
def assign (es : Entries) (a : Assignment) : Option Entries :=
  let isDotted := !a.path.isEmpty
  update isDotted (insertNew isDotted a.key a.value) a.path .explicit es

/-- Adds values to a table. -/
def assignAll (es : Entries) (as : List Assignment) : Option Entries :=
  as.foldlM assign es

/-- Adds the content of a table below its header, which may come after the headers of tables inside it. -/
def openTable (k : Key) (header : Span) (as : List Assignment) (es : Entries) : Option Entries :=
  match value? es k.text with
  | none => do return es ++ [(k, header, .table .explicit (← assignAll [] as))]
  | some (_, .table .implied inner) => do
    return eraseEntry es k.text ++ [(k, header, .table .explicit (← assignAll inner as))]
  | some _ => none

/-- Adds the content of the next element of an array of tables. -/
def openElement (k : Key) (header : Span) (as : List Assignment) (es : Entries) : Option Entries := do
  let element := (header, Value.table .explicit (← assignAll [] as))
  match value? es k.text with
  | none => return es ++ [(k, header, .array true [element])]
  | some (span, .array true items) => return replaceEntry es k.text (span, .array true (items ++ [element]))
  | some _ => none

/-- A header. -/
structure Header where
  /-- It stands in double brackets. -/
  ofTables : Bool
  /-- The parts of its key in front of the last one. -/
  path : List Key
  /-- The last part of its key. -/
  key : Key
  /-- The part of the document with the header and its brackets. -/
  span : Span

/-- A header and the values below it. -/
structure Section where
  header : Header
  assignments : List Assignment

/-- Adds a section to the document. -/
def addSection (es : Entries) (s : Section) : Option Entries :=
  let add := if s.header.ofTables then openElement else openTable
  update false (fun _ => add s.header.key s.header.span s.assignments) s.header.path .explicit es

/-- The table of a document: the values in front of the first header, and its sections. -/
def build (top : List Assignment) (sections : List Section) : Option Entries := do
  sections.foldlM addSection (← assignAll [] top)

end TableExport.Toml
