import TableExport.Layout.Builder

/-!
# Fragments of generated text

A fragment is a line, a blank line, or a block with a header, a body one level deeper and perhaps a closing line.

- `Fragment.steps` turns a fragment into building steps, `stepsOf` a list of them.
-/

namespace TableExport.Layout

/-- A piece of generated text. -/
inductive Fragment where
  | line (text : String)
  | blank
  /-- A header, an indented body, and a closing line if there is one. -/
  | block (header : String) (body : List Fragment) (close : Option String)
deriving Inhabited

/-- The closing line of a block as steps. -/
def closeSteps : Option String → List Step
  | some text => [.line text]
  | none => []

mutual

/-- The building steps of a fragment. -/
def Fragment.steps : Fragment → List Step
  | .line text => [.line text]
  | .blank => [.blank]
  | .block header body close => .line header :: .indent :: stepsOf body ++ .dedent :: closeSteps close

/-- The building steps of a list of fragments. -/
def stepsOf : List Fragment → List Step
  | [] => []
  | f :: fs => f.steps ++ stepsOf fs

end

end TableExport.Layout
