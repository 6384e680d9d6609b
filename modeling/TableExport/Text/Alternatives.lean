/-!
# What a message says was expected

- `alternatives` writes the names that would have been accepted in the place of another one.
- `elementCount` writes a number of elements.
-/

namespace TableExport.Text

/-- One name, two names joined by "or", or a list of more. -/
def alternatives : List String → String
  | [a] => "`" ++ a ++ "`"
  | [a, b] => "`" ++ a ++ "` or `" ++ b ++ "`"
  | names => "one of " ++ ", ".intercalate (names.map fun a => "`" ++ a ++ "`")

/-- A number of elements. -/
def elementCount (n : Nat) : String :=
  toString n ++ (if n = 1 then " element" else " elements")

end TableExport.Text
