import TableExport.Json.Scanner

/-!
# Numbers of a JSON document

A number is first cut into its parts, which settles whether it is well formed, and then evaluated. Whole numbers that
fit 64 bits are kept exactly; negative zero, all other whole numbers and every number with a fraction or an exponent
become floating point numbers. The digits of those are collected as long as they fit 64 bits, the rest only counts as
a power of ten, and one that is too large is refused.

- `scanNumber` cuts a number into a `Numeral`.
- `Numeral.value?` evaluates it.
- `readNumber` does both.
-/

namespace TableExport.Json

/-- A number as written. -/
structure Numeral where
  negative : Bool
  /-- The digits in front of the point. -/
  whole : List Char
  /-- The digits behind the point; none without a point. -/
  fraction : List Char
  /-- The exponent: a minus sign, and its digits. -/
  exponent : Option (Bool × List Char)
deriving Repr, DecidableEq

/-- The failure where a digit is due; `atEnd` is its cause at the end of the text. -/
def digitFailure (atEnd : Cause) (s : List Char) : Failure :=
  if s.isEmpty then .here atEnd s else .next .invalidNumber s

/-- Reads digits, at least one. -/
def scanDigits (atEnd : Cause) (s : List Char) : Except Failure (List Char × List Char) :=
  match s.takeWhile Char.isDigit with
  | [] => .error (digitFailure atEnd s)
  | ds => .ok (ds, s.dropWhile Char.isDigit)

/-- Reads the digits in front of the point: a zero alone, or digits that start with none. -/
def scanWhole (atEnd : Cause) (s : List Char) : Except Failure (List Char × List Char) :=
  match s with
  | [] => .error (digitFailure atEnd s)
  | c :: r =>
    if c = '0' then
      if (r.head?.map Char.isDigit).getD false then .error (.next .invalidNumber r)
      else .ok (['0'], r)
    else scanDigits atEnd s

/-- Reads a point and the digits behind it, if there is a point. -/
def scanFraction (atEnd : Cause) (s : List Char) : Except Failure (List Char × List Char) :=
  match s with
  | [] => .ok ([], s)
  | c :: r => if c = '.' then scanDigits atEnd r else .ok ([], s)

/-- The sign in front of an exponent, negative or not, and the text behind it. -/
def scanSign (s : List Char) : Bool × List Char :=
  match s with
  | [] => (false, s)
  | c :: r => if c = '-' then (true, r) else if c = '+' then (false, r) else (false, s)

/-- Reads an exponent, if there is one. -/
def scanExponent (atEnd : Cause) (s : List Char) : Except Failure (Option (Bool × List Char) × List Char) :=
  match s with
  | [] => .ok (none, s)
  | c :: r =>
    if c = 'e' || c = 'E' then do
      let (negative, r) := scanSign r
      let (ds, r) ← scanDigits atEnd r
      return (some (negative, ds), r)
    else .ok (none, s)

/-- Cuts the number at the start of a text into its parts; `atEnd` is the cause of a failure at the end of the
text. -/
def scanNumber (atEnd : Cause) (s : List Char) : Except Failure (Numeral × List Char) := do
  let (negative, s) := if s.head? = some '-' then (true, s.drop 1) else (false, s)
  let (whole, s) ← scanWhole atEnd s
  let (fraction, s) ← scanFraction atEnd s
  let (exponent, s) ← scanExponent atEnd s
  return (⟨negative, whole, fraction, exponent⟩, s)

/-- The value of a number. -/
inductive Number where
  | integer (value : Int)
  | float (value : Float)

/-- The number that digits spell. -/
def ofDigits (ds : List Char) : Nat :=
  ds.foldl (fun n c => n * 10 + (c.toNat - '0'.toNat)) 0

/-- Appends digits to a number while it stays within a limit; the second part is what is left of them. -/
def collect (limit : Nat) : Nat → List Char → Nat × List Char
  | n, [] => (n, [])
  | n, d :: ds =>
    let m := n * 10 + (d.toNat - '0'.toNat)
    if m ≤ limit then collect limit m ds else (n, d :: ds)

/-- The largest whole number of 64 bits. -/
def maxSignificand : Nat := Decimal.twoTo 64 - 1

/-- The largest exponent that is evaluated. -/
def maxExponent : Nat := Decimal.twoTo 31 - 1

/-- `x · 10 ^ e` in at most so many steps of 308 powers; none if it is too large. -/
def scale? : Nat → Float → Int → Option Float
  | 0, x, _ => some x
  | n + 1, x, e =>
    if e.natAbs ≤ 308 then
      let power := Float.ofScientific 1 false e.natAbs
      if e < 0 then some (x / power)
      else if (x * power).isInf then none
      else some (x * power)
    else if x == 0 then some x
    else if e < 0 then scale? n (x / Float.ofScientific 1 false 308) (e + 308)
    else none

namespace Numeral

/-- The digits of the exponent behind the one with which it passes the largest exponent; none if it does not. -/
def excess? (t : Numeral) : Option (List Char) :=
  match t.exponent with
  | none => none
  | some (_, ds) =>
    match (collect maxExponent 0 ds).2 with
    | [] => none
    | _ :: rest => some rest

/-- The collected digits and the power of ten that goes with them, without the exponent. -/
def significand (t : Numeral) : Nat × Int :=
  let (n, left) := collect maxSignificand 0 t.whole
  let (m, dropped) := collect maxSignificand n t.fraction
  (m, (left.length : Int) - (t.fraction.length - dropped.length : Nat))

/-- The number has neither fraction nor exponent. -/
def isWhole (t : Numeral) : Bool :=
  t.fraction.isEmpty && t.exponent.isNone

/-- A floating point number with the sign of the numeral. -/
def signed (t : Numeral) (x : Float) : Number :=
  .float (if t.negative then -x else x)

/-- The value of a number; none if it is too large. -/
def value? (t : Numeral) : Option Number :=
  let n := ofDigits t.whole
  if t.isWhole && !t.negative && n ≤ maxSignificand then some (.integer n)
  else if t.isWhole && t.negative && 0 < n && n ≤ Decimal.twoTo 63 then some (.integer (-n))
  else
    let (m, e) := t.significand
    match t.exponent, t.excess? with
    | some (negative, _), some _ => if m ≠ 0 && !negative then none else some (t.signed 0)
    | some (negative, ds), none =>
      (scale? 4 m.toUInt64.toFloat (if negative then e - ofDigits ds else e + ofDigits ds)).map t.signed
    | none, _ => (scale? 4 m.toUInt64.toFloat e).map t.signed

end Numeral

/-- Cuts the number at the start of a text into its parts and refuses one that is too large. -/
def readNumeral : Reader Numeral := fun s => do
  let (t, r) ← scanNumber .endOfValue s
  match t.value? with
  | some _ => return (t, r)
  | none => throw (.here .numberOutOfRange (t.excess?.getD [] ++ r))

/-- Reads the number at the start of a text. -/
def readNumber : Reader Number := fun s => do
  let (t, r) ← scanNumber .endOfValue s
  match t.value? with
  | some v => return (v, r)
  | none => throw (.here .numberOutOfRange (t.excess?.getD [] ++ r))

end TableExport.Json
