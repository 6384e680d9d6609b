/-!
# Building indented text

Text is built by steps: a line, a blank line, one level more or less of indentation, or a piece of raw text. A
builder keeps the indentation level and the text so far.

- `Builder.step` carries out one step, `Builder.run` a list of steps.
- `Builder.run_append` says that steps can be carried out in parts.
-/

namespace TableExport.Layout

/-- What one level of indentation looks like. -/
inductive Indent where
  /-- So many blanks. -/
  | spaces (width : Nat)
  | tab
deriving Repr, DecidableEq

/-- The text of one level of indentation. -/
def Indent.unit : Indent → String
  | spaces n => String.ofList (List.replicate n ' ')
  | tab => "\t"

/-- A step in building a text. -/
inductive Step where
  /-- A line at the current level. -/
  | line (text : String)
  | blank
  | indent
  | dedent
  /-- Text as it is, without indentation or line break. -/
  | raw (text : String)
deriving Repr, DecidableEq

/-- A text that is being built. -/
structure Builder where
  /-- The text of one level of indentation. -/
  unit : String
  level : Nat := 0
  text : String := ""
deriving Repr, DecidableEq

namespace Builder

/-- A builder without text. -/
def new (indent : Indent) : Builder :=
  { unit := indent.unit }

/-- Nothing has been written. -/
def isEmpty (b : Builder) : Bool :=
  b.text.isEmpty

/-- The indentation of a line at the current level. -/
def indentation (b : Builder) : String :=
  String.join (List.replicate b.level b.unit)

/-- Carries out a step; at level 0 there is nothing less to indent. -/
def step (b : Builder) : Step → Builder
  | .line s => { b with text := b.text ++ b.indentation ++ s ++ "\n" }
  | .blank => { b with text := b.text ++ "\n" }
  | .indent => { b with level := b.level + 1 }
  | .dedent => { b with level := b.level - 1 }
  | .raw s => { b with text := b.text ++ s }

/-- Carries out steps one after the other. -/
def run (b : Builder) (steps : List Step) : Builder :=
  steps.foldl step b

@[simp] theorem run_nil (b : Builder) : b.run [] = b := rfl

@[simp] theorem run_cons (b : Builder) (s : Step) (ss : List Step) : b.run (s :: ss) = (b.step s).run ss := rfl

/-- Steps can be carried out in parts. -/
@[simp] theorem run_append (b : Builder) (ss ts : List Step) : b.run (ss ++ ts) = (b.run ss).run ts := by
  simp [run, List.foldl_append]

end Builder

end TableExport.Layout
