import TableExport.Json.Failure

/-!
# The smallest pieces of a JSON document

Blanks, the three words and strings. Strings are read in two ways: `readText` decodes one, `skipText` passes one that
nobody wants to know and is more lenient, as it does not pair surrogates.

- `skipBlanks` passes blanks.
- `readWord` passes a fixed word.
- `readText` and `skipText` read what follows an opening quote.
-/

namespace TableExport.Json

/-- The character separates tokens. -/
def isBlank (c : Char) : Bool :=
  c = ' ' || c = '\n' || c = '\t' || c = '\r'

/-- The text behind the blanks at its start. -/
def skipBlanks (s : List Char) : List Char :=
  s.dropWhile isBlank

/-- Passes the remaining letters of a word. -/
def readWord : List Char → List Char → Except Failure (List Char)
  | [], s => .ok s
  | _ :: _, [] => .error (.here .endOfValue [])
  | w :: ws, c :: s => if c = w then readWord ws s else .error (.next .expectedWord (c :: s))

/-- The value of a hexadecimal digit. -/
def hexDigit? (c : Char) : Option Nat :=
  if '0' ≤ c && c ≤ '9' then some (c.toNat - '0'.toNat)
  else if 'a' ≤ c && c ≤ 'f' then some (c.toNat - 'a'.toNat + 10)
  else if 'A' ≤ c && c ≤ 'F' then some (c.toNat - 'A'.toNat + 10)
  else none

/-- The value of four hexadecimal digits. -/
def hexUnit? (a b c d : Char) : Option Nat := do
  let a ← hexDigit? a
  let b ← hexDigit? b
  let c ← hexDigit? c
  let d ← hexDigit? d
  pure (((a * 16 + b) * 16 + c) * 16 + d)

/-- The failure of a text that should start with four hexadecimal digits. -/
def hexFailure (s : List Char) : Failure :=
  if Text.utf8Length s < 4 then .here .endOfString []
  else ⟨.invalidEscape, s, 4, true⟩

/-- The unit is the first half of a surrogate pair. -/
def isHighSurrogate (n : Nat) : Bool := 0xD800 ≤ n && n ≤ 0xDBFF

/-- The unit is the second half of a surrogate pair. -/
def isLowSurrogate (n : Nat) : Bool := 0xDC00 ≤ n && n ≤ 0xDFFF

/-- The character of a surrogate pair. -/
def pairedChar (high low : Nat) : Char :=
  Char.ofNat ((high - 0xD800) * 0x400 + (low - 0xDC00) + 0x10000)

/-- The character that a letter behind a backslash stands for. -/
def shortEscape? (c : Char) : Option Char :=
  if c = '"' then some '"'
  else if c = '\\' then some '\\'
  else if c = '/' then some '/'
  else if c = 'b' then some '\x08'
  else if c = 'f' then some '\x0c'
  else if c = 'n' then some '\n'
  else if c = 'r' then some '\r'
  else if c = 't' then some '\t'
  else none

/-- Puts a character in front of a text that was read. -/
def consText (c : Char) (r : Except Failure (List Char × List Char)) : Except Failure (List Char × List Char) :=
  match r with
  | .ok (t, s) => .ok (c :: t, s)
  | .error f => .error f

/-- The string behind an opening quote, and the text behind its closing quote. -/
def readText : List Char → Except Failure (List Char × List Char)
  | [] => .error (.here .endOfString [])
  | c :: s =>
    if c = '"' then .ok ([], s)
    else if c = '\\' then
      match s with
      | [] => .error (.here .endOfString [])
      | e :: s =>
        if e = 'u' then
          match s with
          | h₁ :: h₂ :: h₃ :: h₄ :: r =>
            match hexUnit? h₁ h₂ h₃ h₄ with
            | none => .error (hexFailure (h₁ :: h₂ :: h₃ :: h₄ :: r))
            | some n =>
              if isLowSurrogate n then .error (.here .loneSurrogate r)
              else if isHighSurrogate n then
                match r with
                | [] => .error (.here .endOfString [])
                | b :: r =>
                  if b = '\\' then
                    match r with
                    | [] => .error (.here .endOfString [])
                    | u :: r =>
                      if u = 'u' then
                        match r with
                        | l₁ :: l₂ :: l₃ :: l₄ :: t =>
                          match hexUnit? l₁ l₂ l₃ l₄ with
                          | none => .error (hexFailure (l₁ :: l₂ :: l₃ :: l₄ :: t))
                          | some m =>
                            if isLowSurrogate m then consText (pairedChar n m) (readText t)
                            else .error (.here .loneSurrogate t)
                        | r => .error (hexFailure r)
                      else .error (.next .unpairedSurrogate (u :: r))
                  else .error (.next .unpairedSurrogate (b :: r))
              else consText (Char.ofNat n) (readText r)
          | s => .error (hexFailure s)
        else
          match shortEscape? e with
          | some d => consText d (readText s)
          | none => .error (.next .invalidEscape (e :: s))
    else if c.toNat < 0x20 then .error (.here .controlCharacter s)
    else consText c (readText s)

/-- Passes a string behind its opening quote. -/
def skipText : List Char → Except Failure (List Char)
  | [] => .error (.here .endOfString [])
  | c :: s =>
    if c = '"' then .ok s
    else if c = '\\' then
      match s with
      | [] => .error (.here .endOfString [])
      | e :: s =>
        if e = 'u' then
          match s with
          | h₁ :: h₂ :: h₃ :: h₄ :: r =>
            match hexUnit? h₁ h₂ h₃ h₄ with
            | none => .error (hexFailure (h₁ :: h₂ :: h₃ :: h₄ :: r))
            | some _ => skipText r
          | s => .error (hexFailure s)
        else if (shortEscape? e).isSome then skipText s
        else .error (.next .invalidEscape (e :: s))
    else if c.toNat < 0x20 then .error (.here .controlCharacter (c :: s))
    else skipText s

end TableExport.Json
