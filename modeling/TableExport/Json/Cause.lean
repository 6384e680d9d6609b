import TableExport.Decimal.Shortest
import TableExport.Text.Alternatives
import TableExport.Text.Quoted

/-!
# Why the reading of a JSON document failed

- `Cause` lists the causes, `Cause.message` gives their texts.
- `Found` describes the value that stands where another kind was expected.
-/

namespace TableExport.Json

open TableExport.Text

/-- A value that stands where another kind of value was expected. -/
inductive Found where
  | null
  | boolean (value : Bool)
  | integer (value : Int)
  | float (value : Float)
  | string (value : String)
  | sequence
  | map

/-- Numbers are positional from `0.00001` up to `10 ^ 16`, and scientific outside of that. -/
def floatText (x : Float) : String :=
  let (ds, e) := Decimal.significantOf .toEven x
  String.ofList (Decimal.signed x
    (if -5 ≤ e && e < 16 then Decimal.positional ds e else Decimal.scientific ds e))

/-- How a message names a value. -/
def Found.describe : Found → String
  | null => "null"
  | boolean b => "boolean `" ++ (if b then "true" else "false") ++ "`"
  | integer n => "integer `" ++ toString n ++ "`"
  | float x => "floating point `" ++ floatText x ++ "`"
  | string s => "string " ++ Text.quoted s
  | sequence => "sequence"
  | map => "map"

/-- Why a document cannot be read. -/
inductive Cause where
  /-- The text ends where a value is due. -/
  | endOfValue
  /-- The text ends inside a list. -/
  | endOfList
  /-- The text ends inside an object. -/
  | endOfObject
  /-- The text ends inside a string. -/
  | endOfString
  /-- Something else stands where a value is due. -/
  | expectedValue
  /-- One of the words `null`, `true` and `false` is misspelt. -/
  | expectedWord
  | expectedColon
  | expectedListCommaOrEnd
  | expectedObjectCommaOrEnd
  /-- A comma stands in front of a closing bracket. -/
  | trailingComma
  /-- More text follows a complete value. -/
  | trailingCharacters
  | keyNotString
  | invalidNumber
  | numberOutOfRange
  | invalidEscape
  | controlCharacter
  /-- A low surrogate comes first, or a high one is followed by an escape that is not low. -/
  | loneSurrogate
  /-- A high surrogate is not followed by an escape. -/
  | unpairedSurrogate
  /-- Too many containers are nested. -/
  | tooDeep
  /-- A value of another kind was expected. -/
  | wrongKind (found : Found) (expected : String)
  /-- A number of the right kind lies outside the range. -/
  | wrongValue (found : Found) (expected : String)
  /-- An array stands for a record and ends too early. -/
  | wrongLength (length : Nat) (expected : String)
  | unknownVariant (name : String) (expected : List String)
  | missingField (name : String)
  | duplicateField (name : String)
  /-- The value matches no alternative of a type. -/
  | noAlternative (type : String)

/-- The text of a cause. -/
def Cause.message : Cause → String
  | endOfValue => "EOF while parsing a value"
  | endOfList => "EOF while parsing a list"
  | endOfObject => "EOF while parsing an object"
  | endOfString => "EOF while parsing a string"
  | expectedValue => "expected value"
  | expectedWord => "expected ident"
  | expectedColon => "expected `:`"
  | expectedListCommaOrEnd => "expected `,` or `]`"
  | expectedObjectCommaOrEnd => "expected `,` or `\x7d`"
  | trailingComma => "trailing comma"
  | trailingCharacters => "trailing characters"
  | keyNotString => "key must be a string"
  | invalidNumber => "invalid number"
  | numberOutOfRange => "number out of range"
  | invalidEscape => "invalid escape"
  | controlCharacter => "control character (\\u0000-\\u001F) found while parsing a string"
  | loneSurrogate => "lone leading surrogate in hex escape"
  | unpairedSurrogate => "unexpected end of hex escape"
  | tooDeep => "recursion limit exceeded"
  | wrongKind found expected => "invalid type: " ++ found.describe ++ ", expected " ++ expected
  | wrongValue found expected => "invalid value: " ++ found.describe ++ ", expected " ++ expected
  | wrongLength n expected => "invalid length " ++ toString n ++ ", expected " ++ expected
  | unknownVariant name expected => "unknown variant `" ++ name ++ "`, expected " ++ alternatives expected
  | missingField name => "missing field `" ++ name ++ "`"
  | duplicateField name => "duplicate field `" ++ name ++ "`"
  | noAlternative type => "data did not match any variant of untagged enum " ++ type

end TableExport.Json
