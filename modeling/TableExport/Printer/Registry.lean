import TableExport.Printer.Json
import TableExport.Printer.Lua
import TableExport.Text.Quoted

/-!
# The registry of printers

A registry holds printers in the order of their registration, at most one for a target.

- `Registry.register` adds a printer, `Registry.get` finds one.
- `Registry.builtin` holds the printers of the program.
-/

namespace TableExport

/-- Why a registry refuses. -/
inductive RegistryError where
  /-- The target has a printer already. -/
  | duplicate (target : String)
  /-- The target has no printer; the targets that have one are listed. -/
  | unknown (target : String) (available : List String)
deriving Repr, DecidableEq

/-- The text of a refusal. -/
def RegistryError.message : RegistryError → String
  | duplicate t => "a printer for target '" ++ t ++ "' is already registered"
  | unknown t available => "unknown target '" ++ t ++ "' (available: " ++ ", ".intercalate available ++ ")"

/-- Printers in the order of their registration. -/
structure Registry where
  printers : List Printer := []

namespace Registry

/-- The targets that have a printer, in order. -/
def targets (r : Registry) : List String :=
  r.printers.map (·.target)

/-- Adds a printer at the end unless its target has one. -/
def register (r : Registry) (p : Printer) : Except RegistryError Registry :=
  if r.targets.contains p.target then .error (.duplicate p.target)
  else .ok ⟨r.printers ++ [p]⟩

/-- The printer of a target. -/
def get (r : Registry) (target : String) : Except RegistryError Printer :=
  match r.printers.find? (·.target = target) with
  | some p => .ok p
  | none => .error (.unknown target r.targets)

/-- The number of printers. -/
def size (r : Registry) : Nat :=
  r.printers.length

/-- There is no printer. -/
def isEmpty (r : Registry) : Bool :=
  r.printers.isEmpty

/-- The registry in one line. -/
def describe (r : Registry) : String :=
  "PrinterRegistry \x7b targets: [" ++ ", ".intercalate (r.targets.map Text.quoted) ++ "] \x7d"

/-- The printers of the program. -/
def builtin : Registry :=
  ⟨[.lua, .json]⟩

end Registry

end TableExport
