import TableExport.Index.Plan
import TableExport.Layout.Script
import TableExport.Render.Error

/-!
# Printers

A printer produces one kind of output in five phases. It decides how each phase is spelled, and each of them may fail;
which tables take part, which names are free and which lookup maps there are is the same for all printers.

- `Printer` is the record of decisions.
- `Printer.run` goes through the phases up to the first one that fails.
- `Printer.print` is the output of a run.
-/

namespace TableExport

open TableExport.Layout

/-- A phase of a run. -/
inductive Phase where
  | header
  | tables
  | indexes
  | enums
  | footer
deriving Repr, DecidableEq

namespace Phase

/-- The name of a phase. -/
def name : Phase → String
  | header => "header"
  | tables => "tables"
  | indexes => "indexes"
  | enums => "enums"
  | footer => "footer"

/-- The phases in their order. -/
def all : List Phase := [header, tables, indexes, enums, footer]

end Phase

/-- What is printed: a model, and the version of the generator. -/
structure Export where
  version : String
  model : Model
deriving DecidableEq

/-- How one kind of output is written. -/
structure Printer where
  /-- The name by which the output is asked for. -/
  target : String
  /-- The tag that tables and descriptors have to admit. -/
  tag : String
  extension : String
  indent : Indent
  /-- It builds lookup maps; otherwise they are not even planned. -/
  buildsIndexes : Bool
  header : Export → Script RenderError
  /-- The tables that take part, in order. -/
  tables : List Table → Script RenderError
  /-- The planned lookup maps. -/
  indexes : List IndexSpec → Script RenderError
  /-- All enums, whatever their tags are. -/
  enums : List Descriptor → Script RenderError
  footer : Export → Script RenderError

/-- The output of a run. -/
structure Output where
  target : String
  extension : String
  content : String
deriving Repr, DecidableEq

/-- A run that failed. -/
structure PrintError where
  target : String
  phase : Phase
  reason : RenderError
deriving Repr, DecidableEq

/-- The text of a failed run. -/
def PrintError.message (e : PrintError) : String :=
  e.target ++ " printer aborted while emitting " ++ e.phase.name

/-- The first table whose name is taken, by an earlier table or by the enums. -/
def nameClash? : List String → List Table → Option RenderError
  | _, [] => none
  | taken, t :: ts =>
    if taken.contains t.name then some (.nameClash t.name .table)
    else nameClash? (t.name :: taken) ts

namespace Printer

/-- The tables that take part in the output, in order. -/
def select (p : Printer) (m : Model) : List Table :=
  m.tables.filter (·.tags.admits p.tag)

/-- The script of a phase; the flag tells whether the printer was asked for the phase at all, which it is not if the
phase fails before that. -/
def phaseScript (p : Printer) (x : Export) : Phase → Bool × Script RenderError
  | .header => (true, p.header x)
  | .tables =>
    match nameClash? [enumNamespace] (p.select x.model) with
    | some e => (false, .fail e)
    | none => (true, p.tables (p.select x.model))
  | .indexes =>
    if p.buildsIndexes then
      match planIndexes x.model.descriptors p.tag ((p.select x.model).map (·.name)) with
      | .ok specs => (true, p.indexes specs)
      | .error e => (false, .fail e)
    else (false, {})
  | .enums => (true, p.enums (TableExport.enums x.model.descriptors))
  | .footer => (true, p.footer x)

/-- What a run did: the phases that the printer was asked for, the steps it took, and the phase that failed. A printer
that records its runs can record no more of them than this. -/
structure Trace where
  /-- The phases that the printer was asked for, in order. -/
  entered : List Phase := []
  steps : List Step := []
  /-- The phase that failed, and why. -/
  failure : Option (Phase × RenderError) := none
deriving Repr, DecidableEq

/-- Goes through phases up to the first one that fails. -/
def runPhases (p : Printer) (x : Export) : List Phase → Trace
  | [] => {}
  | phase :: rest =>
    let (entered, script) := p.phaseScript x phase
    let entered := if entered then [phase] else []
    match script.failure with
    | some e => ⟨entered, script.steps, some (phase, e)⟩
    | none =>
      let t := p.runPhases x rest
      ⟨entered ++ t.entered, script.steps ++ t.steps, t.failure⟩

/-- Goes through all phases. -/
def run (p : Printer) (x : Export) : Trace :=
  p.runPhases x Phase.all

/-- The names of the tables that the printer was handed in a run. -/
def Trace.tableNames (t : Trace) (p : Printer) (m : Model) : List String :=
  if t.entered.contains .tables then (p.select m).map (·.name) else []

/-- The output of a run, or the failure that ended it. -/
def print (p : Printer) (x : Export) : Except PrintError Output :=
  let t := p.run x
  match t.failure with
  | some (phase, reason) => .error ⟨p.target, phase, reason⟩
  | none => .ok ⟨p.target, p.extension, ((Builder.new p.indent).run t.steps).text⟩

end Printer

end TableExport
