import TableExport.Text.Lines
import TableExport.Text.Quoted

/-!
# Line by line comparison of two texts

Two texts are compared by their lines; a text that has run out of lines shows a placeholder instead. The report
lists every line number at which the two sides show different lines, or says that only the line breaks at the end
differ when there is none.

- `differences` lists the lines.
- `mismatch?` is the report, absent for equal texts.
-/

namespace TableExport.Text

/-- One line at which two texts differ. -/
structure LineDifference where
  /-- The line number, counted from 1. -/
  line : Nat
  /-- What the expected text shows there. -/
  expected : String
  /-- What the actual text shows there. -/
  actual : String
deriving Repr, DecidableEq

/-- What is shown for a line that a text does not have. -/
def missingLine : String := "<missing>"

/-- What a text shows at a line counted from 0. -/
def shownLine (ls : List (List Char)) (i : Nat) : String :=
  (ls[i]?.map String.ofList).getD missingLine

/-- The lines at which two texts differ, in ascending order. -/
def differences (expected actual : String) : List LineDifference :=
  let es := lines expected.toList
  let as := lines actual.toList
  (List.range (max es.length as.length)).filterMap fun i =>
    if shownLine es i = shownLine as i then none
    else some ⟨i + 1, shownLine es i, shownLine as i⟩

/-- The entry of a line in the report. -/
def LineDifference.report (d : LineDifference) : String :=
  "Line " ++ toString d.line ++ ":\n" ++
  "  expected: " ++ quoted d.expected ++ "\n" ++
  "  actual:   " ++ quoted d.actual ++ "\n"

/-- The report on two different texts; none for equal ones. -/
def mismatch? (expected actual : String) : Option String :=
  if expected = actual then none
  else
    match differences expected actual with
    | [] => some "Content mismatch:\n  (difference in trailing newlines)\n"
    | ds => some ("Content mismatch:\n" ++ String.join (ds.map LineDifference.report))

end TableExport.Text
