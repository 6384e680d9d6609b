/-!
# Strings in Lua

A string stands between double quotes on one line. Quotes, backslashes and the common control characters get a short
escape, the other ASCII control characters their code with three decimal digits.

- `quoted` writes a string.
-/

namespace TableExport.Lua

/-- A code with three decimal digits. -/
def decimalCode (n : Nat) : List Char :=
  [Nat.digitChar (n / 100 % 10), Nat.digitChar (n / 10 % 10), Nat.digitChar (n % 10)]

/-- One character inside quotes. -/
def quotedChar (c : Char) : List Char :=
  if c = '"' then ['\\', '"']
  else if c = '\\' then ['\\', '\\']
  else if c = '\n' then ['\\', 'n']
  else if c = '\r' then ['\\', 'r']
  else if c = '\t' then ['\\', 't']
  else if c.toNat < 0x20 || c.toNat = 0x7F then '\\' :: decimalCode c.toNat
  else [c]

/-- A string between double quotes. -/
def quoted (s : String) : String :=
  String.ofList ('"' :: s.toList.flatMap quotedChar ++ ['"'])

end TableExport.Lua
