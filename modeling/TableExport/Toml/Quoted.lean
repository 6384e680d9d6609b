import TableExport.Json.Scanner

/-!
# Quoted texts in TOML

A text stands between double quotes, with escapes, or between single quotes, without; three quotes instead of one let
it go over several lines. In such a text one or two quotes may stand anywhere, also in front of the closing ones, and
a line break right behind the opening quotes does not count.

- `readQuoted` reads a text of any form, `readQuotedLine` one of a single line.
-/

namespace TableExport.Toml

/-- The quote of texts without escapes. -/
def singleQuote : Char := '\x27'

/-- The character is a blank or a tab. -/
def isSpace (c : Char) : Bool :=
  c = ' ' || c = '\t'

/-- The character may stand in texts and comments: no control character but the tab. -/
def isPlain (c : Char) : Bool :=
  c = '\t' || (0x20 ≤ c.toNat && c.toNat ≠ 0x7F)

/-- The text starts with a line break. -/
def atBreak (s : List Char) : Bool :=
  match s with
  | [] => false
  | c :: r => c = '\n' || (c = '\r' && r.head? = some '\n')

/-- The text behind a line break at its start, if there is one. -/
def skipBreak (s : List Char) : List Char :=
  if atBreak s then (s.dropWhile (· = '\r')).drop 1 else s

/-- The end of a text over several lines, behind its first three quotes: up to two of the quotes that follow belong to
the text. -/
def closeLong (quote : Char) : List Char → List Char × List Char
  | c :: d :: s =>
    if c = quote then
      if d = quote then ([quote, quote], s) else ([quote], d :: s)
    else ([], c :: d :: s)
  | [c] => if c = quote then ([quote], []) else ([], [c])
  | [] => ([], [])

/-- What a character inside a quoted text leads to. -/
inductive Action (μ : Type) where
  /-- The text ends with these characters, and the rest follows. -/
  | close (text rest : List Char)
  /-- The text has this character. -/
  | keep (c : Char) (next : μ)
  /-- The text has no character for it. -/
  | skip (next : μ)
  | refuse

/-- Goes through a quoted text. -/
def readBy {μ : Type} (action : μ → Char → List Char → Action μ) : μ → List Char → Option (List Char × List Char)
  | _, [] => none
  | mode, c :: s =>
    match action mode c s with
    | .close text rest => some (text, rest)
    | .keep d next => (readBy action next s).map fun r => (d :: r.1, r.2)
    | .skip next => readBy action next s
    | .refuse => none

/-- Where the reading of a text with escapes stands. -/
inductive Mode where
  /-- Outside of escapes. -/
  | plain
  /-- Behind a backslash. -/
  | escape
  /-- In the digits of a character code: so many are left, and the value of those before. -/
  | code (left value : Nat)
  /-- In the blanks behind a backslash at the end of a line; the flag tells that a line break was among them. -/
  | folding (broken : Bool)

/-- What an ordinary character leads to. -/
def plainAction {μ : Type} (quote : Char) (long : Bool) (next : μ) (c : Char) (s : List Char) : Action μ :=
  if c = quote then
    if long then
      match s with
      | d :: e :: r =>
        if d = quote && e = quote then
          let (text, rest) := closeLong quote r
          .close text rest
        else .keep c next
      | _ => .keep c next
    else .close [] s
  else if atBreak (c :: s) || c = '\n' then
    if long then .keep c next else .refuse
  else if isPlain c then .keep c next
  else .refuse

/-- The character that a letter behind a backslash stands for. -/
def shortEscape? (c : Char) : Option Char :=
  if c = 'b' then some '\x08'
  else if c = 't' then some '\t'
  else if c = 'n' then some '\n'
  else if c = 'f' then some '\x0c'
  else if c = 'r' then some '\r'
  else if c = 'e' then some '\x1b'
  else if c = '"' then some '"'
  else if c = '\\' then some '\\'
  else none

/-- How many hexadecimal digits a letter behind a backslash announces. -/
def codeLength? (c : Char) : Option Nat :=
  if c = 'x' then some 2
  else if c = 'u' then some 4
  else if c = 'U' then some 8
  else none

/-- What the last digit of a character code leads to. -/
def codeAction (value : Nat) : Action Mode :=
  if value.isValidChar then .keep (Char.ofNat value) .plain else .refuse

/-- What a character leads to in a text with escapes. -/
def escapedAction (long : Bool) : Mode → Char → List Char → Action Mode
  | .escape, c, s =>
    match codeLength? c, shortEscape? c with
    | some n, _ => .skip (.code n 0)
    | none, some d => .keep d .plain
    | none, none =>
      if long && isSpace c then .skip (.folding false)
      else if long && atBreak (c :: s) then .skip (.folding (c = '\n'))
      else .refuse
  | .code left value, c, _ =>
    match Json.hexDigit? c with
    | none => .refuse
    | some d => if left ≤ 1 then codeAction (value * 16 + d) else .skip (.code (left - 1) (value * 16 + d))
  | .folding broken, c, s =>
    if isSpace c then .skip (.folding broken)
    else if atBreak (c :: s) then .skip (.folding (broken || c = '\n'))
    else if !broken then .refuse
    else if c = '\\' then .skip .escape
    else plainAction '"' long .plain c s
  | .plain, c, s => if c = '\\' then .skip .escape else plainAction '"' long .plain c s

/-- What a character leads to in a text without escapes. -/
def literalAction (long : Bool) (_ : Unit) (c : Char) (s : List Char) : Action Unit :=
  plainAction singleQuote long () c s

/-- Reads the rest of a quoted text behind its opening quote or quotes. -/
def readBehind (quote : Char) (long : Bool) (s : List Char) : Option (List Char × List Char) :=
  if quote = '"' then readBy (escapedAction long) .plain s
  else if quote = singleQuote then readBy (literalAction long) () s
  else none

/-- Reads a quoted text of a single line. -/
def readQuotedLine (s : List Char) : Option (String × List Char) :=
  match s with
  | [] => none
  | q :: r => (readBehind q false r).map fun t => (String.ofList t.1, t.2)

/-- Reads a quoted text. -/
def readQuoted (s : List Char) : Option (String × List Char) :=
  match s with
  | q :: q₁ :: q₂ :: r =>
    if q₁ = q && q₂ = q then (readBehind q true (skipBreak r)).map fun t => (String.ofList t.1, t.2)
    else readQuotedLine s
  | _ => readQuotedLine s

end TableExport.Toml
