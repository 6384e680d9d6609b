import TableExport.Json.Number
import TableExport.Toml.Quoted
import TableExport.Toml.Value

/-!
# Scalars without quotes in TOML

Everything that is no quoted text, array or inline table is a single word: a boolean, a whole number in one of four
bases, a number with a fraction or an exponent, an infinity, no number at all, or a date and time. Digits may be
grouped by underscores. A word whose form is that of a number has a value even if no number can be made of it.

- `ungroup` takes the underscores away.
- `scalar?` is the value of a word.
-/

namespace TableExport.Toml

/-! ## Numbers -/

/-- A text without its underscores, each of which has to stand between two digits. -/
def ungroup (isDigit : Char → Bool) : List Char → Option (List Char)
  | [] => some []
  | [c] => if c = '_' then none else some [c]
  | c :: d :: s =>
    if c = '_' then none
    else if d = '_' then
      if isDigit c && (s.head?.map isDigit).getD false then (ungroup isDigit s).map (c :: ·) else none
    else (ungroup isDigit (d :: s)).map (c :: ·)

/-- The number that digits spell in a base. -/
def inBase (base : Nat) (ds : List Char) : Nat :=
  ds.foldl (fun n c => n * base + (Json.hexDigit? c).getD 0) 0

/-- A sign in front of a word, negative or not, and the word behind it. -/
def signOf (s : List Char) : Bool × List Char :=
  match s with
  | [] => (false, [])
  | c :: r => if c = '-' then (true, r) else if c = '+' then (false, r) else (false, s)

/-- The number behind its sign without underscores; behind a sign that is there one more underscore may stand in front
of the first digit. -/
def ungroupUnsigned (isDigit : Char → Bool) (isSigned : Bool) (r : List Char) : Option (List Char) :=
  match r with
  | [] => none
  | c :: t =>
    if isSigned && c = '_' then
      if (t.head?.map isDigit).getD false then ungroup isDigit t else none
    else ungroup isDigit r

/-- A whole number if 64 bits are enough for it. -/
def integer (n : Int) : Value :=
  if -(Decimal.twoTo 63 : Int) ≤ n && n < Decimal.twoTo 63 then .integer n else .unrepresentable

/-- The value of a whole number in a base, behind the letter of the base; there may be no digits at all. -/
def based? (base : Nat) (isDigit : Char → Bool) (s : List Char) : Option Value :=
  if s.all fun c => isDigit c || c = '_' then
    (ungroup isDigit s).map fun ds => if ds.isEmpty then .unrepresentable else integer (inBase base ds)
  else none

/-- The character is a hexadecimal digit. -/
def isHexDigit (c : Char) : Bool :=
  (Json.hexDigit? c).isSome

/-- The character introduces an exponent. -/
def isExponentMark (c : Char) : Bool :=
  c = 'e' || c = 'E'

/-- The character tells that a number is no whole one. -/
def isFractional (c : Char) : Bool :=
  c = '.' || isExponentMark c

/-- The value of a whole decimal number. Behind its first underscore there may be any characters; underscores may then
stand between hexadecimal digits. -/
def decimal? (s : List Char) : Option Value :=
  let (negative, r) := signOf s
  let rest := r.dropWhile Char.isDigit
  if r.head? = some '0' && r.length > 1 then none
  else if rest.isEmpty || (rest.head? = some '_' && !rest.any isFractional) then
    (ungroupUnsigned isHexDigit (r ≠ s) r).map fun ds =>
      if !ds.all Char.isDigit then .unrepresentable
      else integer (if negative then -(inBase 10 ds : Int) else inBase 10 ds)
  else none

/-- The value of a whole number. -/
def integer? (s : List Char) : Option Value :=
  match s.take 2 with
  | ['0', 'x'] => based? 16 isHexDigit (s.drop 2)
  | ['0', 'o'] => based? 8 (fun c => '0' ≤ c && c ≤ '7') (s.drop 2)
  | ['0', 'b'] => based? 2 (fun c => c = '0' || c = '1') (s.drop 2)
  | _ => decimal? s

/-- The value of a number: digits, and the power of ten that goes with them. Doubles lie between `10 ^ -324` and
`10 ^ 309`, so that more extreme numbers are not evaluated. -/
def floatValue (negative : Bool) (digits : Nat) (exponent : Int) : Value :=
  let magnitude := ((Nat.toDigits 10 digits).length : Int) + exponent
  let x : Option Float :=
    if digits = 0 || magnitude < -330 then some 0
    else if magnitude > 310 then none
    else
      let x := Float.ofScientific digits (exponent < 0) exponent.natAbs
      if x.isInf then none else some x
  match x with
  | none => .unrepresentable
  | some x => .float (if negative then -x else x)

/-- The digits at the start of a text, at least one, and the text behind them. -/
def digits? (s : List Char) : Option (List Char × List Char) :=
  match s.takeWhile Char.isDigit with
  | [] => none
  | ds => some (ds, s.dropWhile Char.isDigit)

/-- The fraction at the start of a text, if there is a point. -/
def fraction? (s : List Char) : Option (List Char × List Char) :=
  match s with
  | [] => some ([], [])
  | c :: r => if c = '.' then digits? r else some ([], s)

/-- The exponent that a text consists of. -/
def exponent? (s : List Char) : Option Int :=
  match s with
  | [] => some 0
  | c :: r =>
    if isExponentMark c then
      let (negative, r) := signOf r
      match digits? r with
      | some (ds, []) => some (if negative then -(inBase 10 ds : Int) else inBase 10 ds)
      | _ => none
    else none

/-- The value of a number with a fraction or an exponent. -/
def float? (s : List Char) : Option Value := do
  let (negative, r) := signOf s
  let (whole, rest) ← digits? (← ungroupUnsigned Char.isDigit (r ≠ s) r)
  if rest.isEmpty || (r.head? = some '0' && whole.length > 1) then none
  else
    let (fraction, rest) ← fraction? rest
    some (floatValue negative (inBase 10 (whole ++ fraction)) ((← exponent? rest) - fraction.length))

/-- The value of an infinity, or of no number at all. -/
def special? (s : List Char) : Option Value :=
  let (negative, r) := signOf s
  match r with
  | ['i', 'n', 'f'] => some (.float (if negative then -(1.0 / 0.0) else 1.0 / 0.0))
  | ['n', 'a', 'n'] => some (.float (0.0 / 0.0))
  | _ => none

/-! ## Dates and times -/

/-- So many digits at the start of a text, and the text behind them. -/
def fixedDigits? (n : Nat) (s : List Char) : Option (Nat × List Char) :=
  let ds := s.take n
  if ds.length = n && ds.all Char.isDigit then some (inBase 10 ds, s.drop n) else none

/-- The text behind a character that it starts with. -/
def behind? (c : Char) (s : List Char) : Option (List Char) :=
  if s.head? = some c then some (s.drop 1) else none

/-- The days of a month. -/
def daysIn (year month : Nat) : Nat :=
  if month = 2 then
    if year % 4 = 0 && (year % 100 ≠ 0 || year % 400 = 0) then 29 else 28
  else if month = 4 || month = 6 || month = 9 || month = 11 then 30
  else 31

/-- The text behind a date. -/
def behindDate? (s : List Char) : Option (List Char) := do
  let (year, s) ← fixedDigits? 4 s
  let (month, s) ← fixedDigits? 2 (← behind? '-' s)
  let (day, s) ← fixedDigits? 2 (← behind? '-' s)
  if 1 ≤ month && month ≤ 12 && 1 ≤ day && day ≤ daysIn year month then some s else none

/-- The text behind the seconds of a time, which may be left out, and their fraction. -/
def behindSeconds? (s : List Char) : Option (List Char) :=
  match behind? ':' s with
  | none => some s
  | some s => do
    let (second, s) ← fixedDigits? 2 s
    if second > 60 then none
    else
      match behind? '.' s with
      | none => some s
      | some s => if (s.takeWhile Char.isDigit).isEmpty then none else some (s.dropWhile Char.isDigit)

/-- The text behind a time of day. -/
def behindTime? (s : List Char) : Option (List Char) := do
  let (hour, s) ← fixedDigits? 2 s
  let (minute, s) ← fixedDigits? 2 (← behind? ':' s)
  if hour > 23 || minute > 59 then none else behindSeconds? s

/-- The word is the distance from universal time. -/
def isOffset (s : List Char) : Bool :=
  match s with
  | [] => true
  | c :: r =>
    if c = 'Z' || c = 'z' then r.isEmpty
    else if c = '+' || c = '-' then
      match fixedDigits? 2 r with
      | some (hour, r) =>
        match (behind? ':' r).bind (fixedDigits? 2) with
        | some (minute, r) => hour ≤ 23 && minute ≤ 59 && r.isEmpty
        | none => false
      | none => false
    else false

/-- The character stands between a date and a time. -/
def joinsTime (c : Char) : Bool :=
  c = 'T' || c = 't' || c = ' '

/-- The word is a date, a time, or both. -/
def isDatetime (s : List Char) : Bool :=
  match behindDate? s with
  | some [] => true
  | some (c :: r) => joinsTime c && ((behindTime? r).map isOffset).getD false
  | none => behindTime? s = some []

/-! ## Words -/

/-- The value of a word. -/
def scalar? (s : List Char) : Option Value :=
  if s = ['t', 'r', 'u', 'e'] then some (.boolean true)
  else if s = ['f', 'a', 'l', 's', 'e'] then some (.boolean false)
  else if isDatetime s then some .datetime
  else integer? s <|> special? s <|> float? s

/-- The characters at which a word ends. -/
def delimiters : List Char := ['=', ',', '[', ']', '{', '}', '#', ' ', '\t', '\r', '\n']

/-- The character may stand in a word. -/
def isWordPart (c : Char) : Bool :=
  !delimiters.contains c

/-- The text starts with a character that begins a word behind tabs: no quotation mark and no point. -/
def continuesWord (s : List Char) : Bool :=
  match s with
  | [] => false
  | c :: _ => isWordPart c && c ≠ '"' && c ≠ singleQuote && c ≠ '.'

/-- The characters of a word at the start of a text, and the text behind them. Tabs belong to the word if it goes on
behind them. -/
def takeWordParts : List Char → List Char × List Char
  | [] => ([], [])
  | c :: s =>
    if isWordPart c || (c = '\t' && continuesWord (s.dropWhile (· = '\t'))) then
      let (word, rest) := takeWordParts s
      (c :: word, rest)
    else ([], c :: s)

/-- The word at the start of a text and the text behind it; a blank between a date and a time is part of the word. -/
def takeWord (s : List Char) : List Char × List Char :=
  let (word, rest) := takeWordParts s
  match behindDate? word, rest with
  | some [], c :: r =>
    if c = ' ' && (r.head?.map Char.isDigit).getD false then
      let (time, r) := takeWordParts r
      (word ++ c :: time, r)
    else (word, rest)
  | _, _ => (word, rest)

end TableExport.Toml
