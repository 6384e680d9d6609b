import TableExport.Layout.Builder

/-!
# Scripts

A script is what a renderer leaves behind: the building steps it got to, and the failure that stopped it if there was
one. Keeping the steps of a failed renderer says how far the text had come.

- `Script.andThen` carries on after a script that did not fail, `Script.sequence` goes through a list.
-/

namespace TableExport.Layout

/-- Building steps, and perhaps a failure behind them. -/
structure Script (ε : Type) where
  steps : List Step := []
  /-- The failure that came after them. -/
  failure : Option ε := none
deriving Repr, DecidableEq

namespace Script

variable {ε : Type}

/-- A script of steps that do not fail. -/
def ofSteps (steps : List Step) : Script ε :=
  { steps }

/-- A formatted text, which is added as it is. A builder takes every text, so this does not fail. -/
def formatted (text : String) : Script ε :=
  ofSteps [.raw text]

/-- A script that fails at once. -/
def fail (e : ε) : Script ε :=
  { failure := some e }

/-- The first script, and the second one if the first did not fail. -/
def andThen (a b : Script ε) : Script ε :=
  match a.failure with
  | some _ => a
  | none => ⟨a.steps ++ b.steps, b.failure⟩

/-- All scripts of a list up to the first that fails. -/
def sequence : List (Script ε) → Script ε
  | [] => {}
  | a :: as => a.andThen (sequence as)

/-- The text that the script builds. -/
def text (s : Script ε) (indent : Indent) : String :=
  ((Builder.new indent).run s.steps).text

end Script

end TableExport.Layout
