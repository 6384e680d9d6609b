import Mathlib.Data.List.Basic

/-!
# Strings and names in the bytes of a Lua chunk

A chunk is a sequence of bytes. Here are the rules by which a short string and a name are read from it, with all escapes
that there are: whatever a program writes can be read by them.

- `escape?` reads what stands behind a backslash, `readString` a string with its quotes.
- `readName` reads a name, `reservedWords` are the names that are taken by the language.
- `constructorKey?` reads the key of an entry in a table constructor, `accessKey?` the key behind an expression.
-/

namespace TableExport.Lua

/-- The bytes of a text. -/
def bytes (s : String) : List UInt8 :=
  s.toUTF8.data.toList

/-! ## Escapes -/

/-- The byte is a decimal digit. -/
def isDigitByte (b : UInt8) : Bool :=
  '0'.toUInt8 ≤ b && b ≤ '9'.toUInt8

/-- What a hexadecimal digit stands for. -/
def hexValue? (b : UInt8) : Option Nat :=
  if isDigitByte b then some (b.toNat - '0'.toNat)
  else if 'a'.toUInt8 ≤ b && b ≤ 'f'.toUInt8 then some (b.toNat - 'a'.toNat + 10)
  else if 'A'.toUInt8 ≤ b && b ≤ 'F'.toUInt8 then some (b.toNat - 'A'.toNat + 10)
  else none

/-- The byte ends a line. -/
def isBreakByte (b : UInt8) : Bool :=
  b = '\n'.toUInt8 || b = '\r'.toUInt8

/-- The byte is white space. -/
def isSpaceByte (b : UInt8) : Bool :=
  [' ', '\t', '\n', '\r', '\x0b', '\x0c'].any fun c => b = c.toUInt8

/-- The byte that a letter or a sign behind a backslash stands for. -/
def escapedByte? (e : UInt8) : Option UInt8 :=
  ([('a', '\x07'), ('b', '\x08'), ('f', '\x0c'), ('n', '\n'), ('r', '\r'), ('t', '\t'), ('v', '\x0b'), ('\\', '\\'),
    ('"', '"'), ('\'', '\'')].find? fun x => e = x.1.toUInt8).map fun x => x.2.toUInt8

/-- The number that decimal digits stand for. -/
def decimalValue (digits : List UInt8) : Nat :=
  digits.foldl (fun n b => 10 * n + (b.toNat - '0'.toNat)) 0

/-- The number that hexadecimal digits stand for. -/
def hexadecimalValue (digits : List UInt8) : Nat :=
  digits.foldl (fun n b => 16 * n + (hexValue? b).getD 0) 0

/-- A byte behind the first one of a code: the last six bits of a number. -/
def sixBits (n : Nat) : UInt8 :=
  UInt8.ofNat (0x80 + n % 0x40)

/-- The bytes of a code; it is below `0x80000000`. -/
def codeBytes (n : Nat) : List UInt8 :=
  if n < 0x80 then [UInt8.ofNat n]
  else if n < 0x800 then [UInt8.ofNat (0xC0 + n / 0x40), sixBits n]
  else if n < 0x10000 then [UInt8.ofNat (0xE0 + n / 0x1000), sixBits (n / 0x40), sixBits n]
  else if n < 0x200000 then
    [UInt8.ofNat (0xF0 + n / 0x40000), sixBits (n / 0x1000), sixBits (n / 0x40), sixBits n]
  else if n < 0x4000000 then
    [UInt8.ofNat (0xF8 + n / 0x1000000), sixBits (n / 0x40000), sixBits (n / 0x1000), sixBits (n / 0x40), sixBits n]
  else
    [UInt8.ofNat (0xFC + n / 0x40000000), sixBits (n / 0x1000000), sixBits (n / 0x40000), sixBits (n / 0x1000),
      sixBits (n / 0x40), sixBits n]

/-- The bytes that a code in curly brackets stands for, and how many bytes it takes with the brackets. -/
def code? (s : List UInt8) : Option (List UInt8 × Nat) :=
  let digits := (s.drop 1).takeWhile fun b => (hexValue? b).isSome
  if s.head? = some '{'.toUInt8 ∧ digits ≠ [] ∧ (s.drop (digits.length + 1)).head? = some '}'.toUInt8 ∧
      hexadecimalValue digits < 0x80000000 then
    some (codeBytes (hexadecimalValue digits), digits.length + 2)
  else none

/-- The bytes that an escape stands for, and how many bytes it takes behind the backslash. Up to three decimal digits
belong to it, as many as there are. -/
def escape? : List UInt8 → Option (List UInt8 × Nat)
  | [] => none
  | e :: s =>
    if isDigitByte e then
      let digits := (e :: s.takeWhile isDigitByte).take 3
      if decimalValue digits < 256 then some ([UInt8.ofNat (decimalValue digits)], digits.length) else none
    else if e = 'x'.toUInt8 then
      match s with
      | b₁ :: b₂ :: _ => do
        let high ← hexValue? b₁
        let low ← hexValue? b₂
        return ([UInt8.ofNat (16 * high + low)], 3)
      | _ => none
    else if e = 'u'.toUInt8 then (code? s).map fun x => (x.1, x.2 + 1)
    else if e = 'z'.toUInt8 then some ([], (s.takeWhile isSpaceByte).length + 1)
    else if isBreakByte e then
      -- the two bytes of a line break stand for one newline
      some (['\n'.toUInt8], if s.head?.any fun b => isBreakByte b && b ≠ e then 2 else 1)
    else (escapedByte? e).map fun b => ([b], 1)

/-! ## Strings -/

/-- The bytes of a string up to its closing quote, and what stands behind that; so many bytes belong to an escape that
is read already. -/
def readBody (quote : UInt8) : Nat → List UInt8 → Option (List UInt8 × List UInt8)
  | _, [] => none
  | n + 1, _ :: s => readBody quote n s
  | 0, b :: s =>
    if b = quote then some ([], s)
    else if b = '\\'.toUInt8 then
      match escape? s with
      | some (t, n) => (readBody quote n s).map fun x => (t ++ x.1, x.2)
      | none => none
    else if isBreakByte b then none
    else (readBody quote 0 s).map fun x => (b :: x.1, x.2)

/-- The bytes of a string between quotes, and what stands behind it. -/
def readString : List UInt8 → Option (List UInt8 × List UInt8)
  | [] => none
  | q :: s => if q = '"'.toUInt8 || q = '\''.toUInt8 then readBody q 0 s else none

/-- The bytes without those that a backslash stands in front of. -/
def unescaped : List UInt8 → List UInt8
  | b :: c :: s => if b = '\\'.toUInt8 then unescaped s else b :: unescaped (c :: s)
  | s => s

theorem readBody_eq_drop (quote : UInt8) : ∀ (n : Nat) (s : List UInt8),
    readBody quote n s = readBody quote 0 (s.drop n)
  | 0, _ => rfl
  | n + 1, [] => rfl
  | n + 1, _ :: s => by
    rw [List.drop_succ_cons, ← readBody_eq_drop quote n s]
    rfl

/-- A digit behind three others does not belong to the escape, and a code stands for the bytes of its character. -/
example : readString (bytes "\"\\0071\" = x") = some ([7, '1'.toUInt8], bytes " = x") ∧
    readString (bytes "'\\u\x7b5251\x7d'") = some (bytes "剑", []) := by
  decide

/-! ## Names -/

/-- The byte is a letter or an underscore. -/
def isNameStartByte (b : UInt8) : Bool :=
  'A'.toUInt8 ≤ b && b ≤ 'Z'.toUInt8 || 'a'.toUInt8 ≤ b && b ≤ 'z'.toUInt8 || b = '_'.toUInt8

/-- The byte is a letter, a digit or an underscore. -/
def isNamePartByte (b : UInt8) : Bool :=
  isNameStartByte b || isDigitByte b

/-- The longest name at the start of the bytes, and what stands behind it. -/
def readName : List UInt8 → Option (List UInt8 × List UInt8)
  | [] => none
  | b :: s =>
    if isNameStartByte b then some (b :: s.takeWhile isNamePartByte, s.dropWhile isNamePartByte) else none

/-- The names that the language has taken. -/
def reservedWords : List String := [
  "and", "break", "do", "else", "elseif", "end",
  "false", "for", "function", "goto", "if", "in",
  "local", "nil", "not", "or", "repeat", "return",
  "then", "true", "until", "while"]

/-- The name is reserved. -/
def isReserved (name : List UInt8) : Bool :=
  reservedWords.any fun w => bytes w = name

/-! ## Keys -/

/-- The key that a name stands for. -/
def nameKey? (s : List UInt8) : Option (List UInt8 × List UInt8) :=
  (readName s).filter fun x => !isReserved x.1

/-- The key that a string in square brackets stands for. -/
def bracketKey? : List UInt8 → Option (List UInt8 × List UInt8)
  | [] => none
  | b :: s =>
    if b = '['.toUInt8 then
      (readString s).bind fun x => if x.2.head? = some ']'.toUInt8 then some (x.1, x.2.tail) else none
    else none

/-- The key in front of the equals sign of an entry, and what stands behind it. -/
def constructorKey? (s : List UInt8) : Option (List UInt8 × List UInt8) :=
  (nameKey? s).or (bracketKey? s)

/-- The key behind an expression, and what stands behind it. -/
def accessKey? : List UInt8 → Option (List UInt8 × List UInt8)
  | [] => none
  | b :: s => if b = '.'.toUInt8 then nameKey? s else bracketKey? (b :: s)

end TableExport.Lua
