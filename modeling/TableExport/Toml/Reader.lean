import TableExport.Toml.Quoted
import TableExport.Toml.Scalar
import TableExport.Toml.Table

/-!
# Reading TOML documents

A document is a list of statements, one to a line: an assignment of a value to a key, or a header that opens a table.
Comments and blanks may stand around them, and line breaks inside of brackets too.

- `readKeys` reads a plain or dotted key, `readValue` a value.
- `parse` reads a document.
-/

namespace TableExport.Toml

/-- The text behind blanks and tabs. -/
def skipSpaces (s : List Char) : List Char :=
  s.dropWhile isSpace

/-- The text behind blanks, tabs, line breaks and comments; the flag tells that the text starts inside a comment. -/
def skipFiller : Bool → List Char → Option (List Char)
  | _, [] => some []
  | comment, c :: s =>
    if c = '\n' then skipFiller false s
    else if atBreak (c :: s) then skipFiller comment s
    else if comment then if isPlain c then skipFiller true s else none
    else if isSpace c then skipFiller false s
    else if c = '#' then skipFiller true s
    else some (c :: s)

/-- The text has nothing but blanks in front of a comment, a line break or its end. -/
def atLineEnd (s : List Char) : Bool :=
  match skipSpaces s with
  | [] => true
  | c :: r => c = '#' || atBreak (c :: r)

/-! ## Keys -/

/-- The character may stand in a key without quotes. -/
def isBare (c : Char) : Bool :=
  c.isAlphanum || c = '_' || c = '-'

/-- Reads one part of a key. -/
def readKey (s : List Char) : Option (Key × List Char) :=
  match s with
  | [] => none
  | c :: _ =>
    if c = '"' || c = singleQuote then do
      let (text, r) ← readQuotedLine s
      return (⟨text, ⟨s, r⟩⟩, r)
    else
      match s.takeWhile isBare with
      | [] => none
      | name =>
        let r := s.dropWhile isBare
        some (⟨String.ofList name, ⟨s, r⟩⟩, r)

/-- Reads a key of at most so many parts: the parts in front of the last one, the last one, and the text behind the
blanks that follow. -/
def readParts : Nat → List Char → Option ((List Key × Key) × List Char)
  | 0, _ => none
  | n + 1, s => do
    let (key, r) ← readKey s
    match skipSpaces r with
    | [] => return (([], key), [])
    | c :: r =>
      if c = '.' then do
        let ((path, last), r) ← readParts n (skipSpaces r)
        return ((key :: path, last), r)
      else return (([], key), c :: r)

/-- How many parts a key may have. -/
def maxParts : Nat := 80

/-- Reads a plain or dotted key and the blanks behind it. -/
def readKeys (s : List Char) : Option ((List Key × Key) × List Char) :=
  readParts maxParts s

/-! ## Values -/

/-- What reads a value: the value with its place, and the text behind it. -/
abbrev ValueReader := List Char → Option ((Span × Value) × List Char)

/-- Reads an assignment; `skip` passes what may stand on the two sides of its equals sign. -/
def readAssignment (skip : List Char → Option (List Char)) (value : ValueReader) (s : List Char) :
    Option (Assignment × List Char) := do
  let ((path, key), r) ← readKeys s
  let r ← behind? '=' (← skip r)
  let (v, r) ← value (← skip r)
  return (⟨path, key, v⟩, r)

/-- Reads items up to a closing bracket, with commas between them and perhaps behind the last one; no more of them than
a bound has characters. -/
def readItems {α : Type} (close : Char) (item : List Char → Option (α × List Char)) :
    List Char → List Char → Option (List α × List Char)
  | [], _ => none
  | _ :: bound, s => do
    let s ← skipFiller false s
    match behind? close s with
    | some r => return ([], r)
    | none =>
      let (a, r) ← item s
      let r ← skipFiller false r
      match behind? ',' r with
      | some r => do
        let (as, r) ← readItems close item bound r
        return (a :: as, r)
      | none => return ([a], ← behind? close r)

/-- Reads the rest of an array behind its opening bracket. -/
def readArray (value : ValueReader) (s : List Char) : Option (Value × List Char) := do
  let (items, r) ← readItems ']' value ('[' :: s) s
  return (.array false items, r)

/-- Reads the rest of an inline table behind its opening bracket. -/
def readInlineTable (value : ValueReader) (s : List Char) : Option (Value × List Char) := do
  let (as, r) ← readItems '}' (readAssignment (skipFiller false) value) ('{' :: s) s
  return (.table .inline (← assignAll [] as), r)

/-- Reads a value with at most so many brackets inside each other. -/
def readValue : Nat → ValueReader
  | depth, s =>
    let located (r : Value × List Char) : (Span × Value) × List Char := ((⟨s, r.2⟩, r.1), r.2)
    match s with
    | [] => none
    | c :: r =>
      if c = '"' || c = singleQuote then (readQuoted s).map fun t => located (.string t.1, t.2)
      else if c = '[' then
        match depth with
        | 0 => none
        | depth + 1 => (readArray (readValue depth) r).map located
      else if c = '{' then
        match depth with
        | 0 => none
        | depth + 1 => (readInlineTable (readValue depth) r).map located
      else
        let (word, r) := takeWord s
        (scalar? word).map fun v => located (v, r)

/-- How many brackets may stand inside each other. -/
def maxDepth : Nat := 80

/-! ## Documents -/

/-- A statement of a document. -/
inductive Statement where
  | assignment (a : Assignment)
  | header (h : Header)

/-- Reads the header at the start of a text, behind its first bracket. -/
def readHeader (s r : List Char) : Option (Header × List Char) :=
  match behind? '[' r with
  | none => do
    let ((path, key), r) ← readKeys (skipSpaces r)
    let r ← behind? ']' r
    return (⟨false, path, key, ⟨s, r⟩⟩, r)
  | some r => do
    let ((path, key), r) ← readKeys (skipSpaces r)
    let r ← (behind? ']' r).bind (behind? ']')
    return (⟨true, path, key, ⟨s, r⟩⟩, r)

/-- Reads a statement. -/
def readStatement (s : List Char) : Option (Statement × List Char) := do
  let (statement, r) ←
    match behind? '[' s with
    | some r => (readHeader s r).map fun h => (Statement.header h.1, h.2)
    | none =>
      (readAssignment (fun r => some (skipSpaces r)) (readValue maxDepth) s).map fun a => (.assignment a.1, a.2)
  if atLineEnd r then some (statement, r) else none

/-- Reads at most so many statements. -/
def readStatements : Nat → List Char → Option (List Statement)
  | 0, _ => none
  | n + 1, s => do
    match ← skipFiller false s with
    | [] => return []
    | s => do
      let (statement, r) ← readStatement s
      return statement :: (← readStatements n r)

/-- The values in front of the first header, and the sections. -/
def sections : List Statement → List Assignment × List Section
  | [] => ([], [])
  | .assignment a :: ss =>
    let (as, rest) := sections ss
    (a :: as, rest)
  | .header h :: ss =>
    let (as, rest) := sections ss
    ([], ⟨h, as⟩ :: rest)

/-- The text behind a byte order mark. -/
def skipByteOrderMark (s : List Char) : List Char :=
  match s with
  | [] => []
  | c :: r => if c = '\uFEFF' then r else c :: r

/-- The table of a document; none if it is not well formed. -/
def parse (document : List Char) : Option Entries := do
  let (top, rest) := sections (← readStatements (document.length + 1) (skipByteOrderMark document))
  build top rest

end TableExport.Toml
