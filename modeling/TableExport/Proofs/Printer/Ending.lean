import TableExport.Printer.Json
import TableExport.Printer.Lua
import TableExport.Printer.Recording
import TableExport.Printer.Samples
import TableExport.Proofs.Index.Walk
import TableExport.Proofs.Printer.Success
import TableExport.Proofs.Render.Keys

/-!
# How runs end

There are three flaws for which a run can fail. They come in an order: the names of all tables are compared before any
record is looked at, and the lookup maps are planned when the tables are written. A printer could fail in other phases,
and for a text that is not taken, but no printer of the library does.

- `Ending` lists the flaws with what they are found at, `Printer.ending` is the first of them in a model.
- `Printer.Dependable` printers fail for repeated fields in tables alone; `Printer.run_ending` is the run of such a
  printer, `Printer.EndsWith` its result.
- `print_ending` is the outcome for the printers of the library.
-/

namespace TableExport

open TableExport.Layout TableExport.Printer TableExport.Render

/-- How a run ends. -/
inductive Ending where
  /-- The table has a name that is taken. -/
  | clash (table : Table)
  /-- A record or an instance in it names a field again. -/
  | repeated (place : Place)
  /-- The lookup maps cannot be planned. -/
  | unplanned (reason : RenderError)
  | printed

namespace Ending

/-- The phase that fails, and why. -/
def failure? : Ending → Option (Phase × RenderError)
  | clash t => some (.tables, .nameClash t.name .table)
  | repeated q => some (.tables, q.refusal)
  | unplanned e => some (.indexes, e)
  | printed => none

/-- The phases that the printer is asked for, if it builds lookup maps or if it does not. -/
def entered (buildsIndexes : Bool) : Ending → List Phase
  | clash _ => [.header]
  | repeated _ | unplanned _ => [.header, .tables]
  | printed => if buildsIndexes then Phase.all else [.header, .tables, .enums, .footer]

/-- The phases that a printer with lookup maps is asked for are the first ones. -/
theorem entered_prefix (e : Ending) : e.entered true <+: Phase.all := by
  cases e with
  | clash t => exact ⟨[.tables, .indexes, .enums, .footer], rfl⟩
  | repeated q => exact ⟨[.indexes, .enums, .footer], rfl⟩
  | unplanned reason => exact ⟨[.indexes, .enums, .footer], rfl⟩
  | printed => exact List.prefix_rfl

end Ending

namespace Printer

/-- How a run over the model ends: with the first table whose name is that of the enums or of a table in front of it,
else with the first field that is repeated, else with the flaw of the lookup maps, else with an output. -/
def ending (p : Printer) (m : Model) : Ending :=
  match firstRepeat? (·.name) [enumNamespace] (p.select m) with
  | some t => .clash t
  | none =>
    match firstRepeated? ((p.select m).flatMap tablePlaces) with
    | some q => .repeated q
    | none =>
      match p.plan m with
      | .error e => .unplanned e
      | .ok _ => .printed

/-- The tables are refused for the first repeated one of their fields, and for nothing else. -/
def RefusesRepeats (p : Printer) : Prop :=
  ∀ tables, (p.tables tables).failure = (firstRepeated? (tables.flatMap tablePlaces)).map Place.refusal

theorem refusesRepeats_json : json.RefusesRepeats :=
  failure_renderTables

theorem refusesRepeats_recording : recording.RefusesRepeats :=
  failure_renderTables

theorem refusesRepeats_lua : lua.RefusesRepeats := by
  intro tables
  show (luaTables tables).failure = _
  unfold luaTables
  split
  · rename_i he
    rw [List.isEmpty_iff.1 he]
    rfl
  · rw [Script.failure_andThen, Script.failure_andThen, failure_renderTables]
    simp

/-- The printer itself fails for repeated fields only. -/
structure Dependable (p : Printer) : Prop where
  header : ∀ x, (p.header x).failure = none
  tables : p.RefusesRepeats
  indexes : ∀ specs, (p.indexes specs).failure = none
  enums : ∀ ds, (p.enums ds).failure = none
  footer : ∀ x, (p.footer x).failure = none

theorem dependable_lua : lua.Dependable where
  header x := by
    show (luaHeader x.version).failure = none
    simp [luaHeader]
  tables := refusesRepeats_lua
  indexes _ := rfl
  enums _ := rfl
  footer _ := rfl

theorem dependable_json : json.Dependable where
  header _ := rfl
  tables := refusesRepeats_json
  indexes _ := rfl
  enums _ := rfl
  footer _ := rfl

theorem dependable_recording : recording.Dependable where
  header _ := rfl
  tables := refusesRepeats_recording
  indexes _ := rfl
  enums _ := rfl
  footer _ := rfl

variable {p : Printer}

/-- Tables that are not refused have distinct keys. -/
theorem RefusesRepeats.distinctKeys (hp : p.RefusesRepeats) {tables : List Table}
    (h : (p.tables tables).failure = none) : ∀ t ∈ tables, t.data.DistinctKeys := by
  rw [hp, Option.map_eq_none_iff] at h
  exact firstRepeated?_eq_none.1 h

/-! ## Single phases -/

/-- A run fails in the first phase that does. -/
theorem failure_runPhases (p : Printer) (x : Export) (phases : List Phase) : (p.runPhases x phases).failure =
    phases.findSome? fun phase => (p.phaseScript x phase).2.failure.map (phase, ·) := by
  induction phases with
  | nil => rfl
  | cons phase rest ih =>
    rw [runPhases, List.findSome?_cons, ← ih]
    obtain ⟨asked, script⟩ := p.phaseScript x phase
    cases hf : script.failure <;> simp [hf]

/-- Phases are entered up to the first that fails. -/
theorem entered_runPhases (p : Printer) (x : Export) (phase : Phase) (rest : List Phase) :
    (p.runPhases x (phase :: rest)).entered = (if (p.phaseScript x phase).1 then [phase] else []) ++
      if (p.phaseScript x phase).2.failure = none then (p.runPhases x rest).entered else [] := by
  rw [runPhases]
  obtain ⟨asked, script⟩ := p.phaseScript x phase
  cases hf : script.failure <;> simp [hf]

/-- The tables fail where a name clashes, and otherwise where a field is repeated. -/
theorem phaseScript_tables (hp : p.RefusesRepeats) (x : Export) :
    (p.phaseScript x .tables).1 = (firstRepeat? (·.name) [enumNamespace] (p.select x.model)).isNone ∧
      (p.phaseScript x .tables).2.failure =
        ((firstRepeat? (·.name) [enumNamespace] (p.select x.model)).map fun t => .nameClash t.name .table).or
          ((firstRepeated? ((p.select x.model).flatMap tablePlaces)).map Place.refusal) := by
  rw [phaseScript, nameClash?_eq]
  cases firstRepeat? (·.name) [enumNamespace] (p.select x.model) with
  | some t => exact ⟨rfl, rfl⟩
  | none => exact ⟨rfl, hp _⟩

/-- The lookup maps fail where they cannot be planned. -/
theorem phaseScript_indexes (hp : p.Dependable) (x : Export) :
    (p.phaseScript x .indexes).1 = (p.buildsIndexes && (errorOf? (p.plan x.model)).isNone) ∧
      (p.phaseScript x .indexes).2.failure = errorOf? (p.plan x.model) := by
  unfold phaseScript plan
  by_cases hb : p.buildsIndexes
  · rw [if_pos hb, if_pos hb]
    cases planIndexes x.model.descriptors p.tag ((p.select x.model).map (·.name)) <;> simp [hb, Script.fail, hp.indexes]
  · simp [hb]

/-! ## Runs -/

/-- **A run** fails as its ending says, and enters the phases in front of that. -/
theorem run_ending (hp : p.Dependable) (x : Export) : (p.run x).failure = (p.ending x.model).failure? ∧
    (p.run x).entered = (p.ending x.model).entered p.buildsIndexes := by
  have htables := phaseScript_tables hp.tables x
  have hindexes := phaseScript_indexes hp x
  have hheader : p.phaseScript x .header = (true, p.header x) := rfl
  have henums : p.phaseScript x .enums = (true, p.enums (TableExport.enums x.model.descriptors)) := rfl
  have hfooter : p.phaseScript x .footer = (true, p.footer x) := rfl
  simp only [run, Phase.all, failure_runPhases, entered_runPhases, List.findSome?_cons, List.findSome?_nil, hheader,
    henums, hfooter, htables, hindexes, hp.header, hp.enums, hp.footer, ending]
  -- the cases of `ending`, in its order
  cases firstRepeat? (·.name) [enumNamespace] (p.select x.model) with
  | some t => exact ⟨rfl, rfl⟩
  | none =>
    cases firstRepeated? ((p.select x.model).flatMap tablePlaces) with
    | some q => exact ⟨rfl, rfl⟩
    | none =>
      cases p.plan x.model with
      | error e => cases p.buildsIndexes <;> exact ⟨rfl, rfl⟩
      | ok specs => cases p.buildsIndexes <;> exact ⟨rfl, rfl⟩

/-- The result of a run with the ending. -/
def EndsWith (p : Printer) (x : Export) : Ending → Prop
  | .clash t => p.print x = .error ⟨p.target, .tables, .nameClash t.name .table⟩
  | .repeated q => p.print x = .error ⟨p.target, .tables, .duplicateField q.table q.record q.field⟩
  | .unplanned e => p.buildsIndexes = true ∧
    planIndexes x.model.descriptors p.tag ((p.select x.model).map (·.name)) = .error e ∧
    p.print x = .error ⟨p.target, .indexes, e⟩
  | .printed => ∃ content, p.print x = .ok ⟨p.target, p.extension, content⟩

/-- Only a printer that builds lookup maps fails because of them. -/
theorem plan_of_ending {m : Model} {e : RenderError} (h : p.ending m = .unplanned e) : p.buildsIndexes = true ∧
    planIndexes m.descriptors p.tag ((p.select m).map (·.name)) = .error e := by
  have hplan : p.plan m = .error e := by
    unfold ending at h
    split at h
    · cases h
    split at h
    · cases h
    split at h
    · rename_i hplan
      cases h
      exact hplan
    · cases h
  unfold plan at hplan
  split at hplan
  · rename_i hb
    exact ⟨hb, hplan⟩
  · cases hplan

/-- **The result of a run** is that of its ending. -/
theorem endsWith_ending (hp : p.Dependable) (x : Export) : p.EndsWith x (p.ending x.model) := by
  have hfailure := (run_ending hp x).1
  cases hending : p.ending x.model with
  | clash t =>
    rw [hending] at hfailure
    simp [EndsWith, print, hfailure, Ending.failure?]
  | repeated q =>
    rw [hending] at hfailure
    simp [EndsWith, print, hfailure, Ending.failure?, Place.refusal]
  | unplanned e =>
    rw [hending] at hfailure
    obtain ⟨hb, hplan⟩ := plan_of_ending hending
    exact ⟨hb, hplan, by simp [print, hfailure, Ending.failure?]⟩
  | printed =>
    rw [hending] at hfailure
    simp [EndsWith, print, hfailure, Ending.failure?]

/-- Runs fail in two phases only, and never for a text that is not taken. -/
theorem EndsWith.phase {x : Export} {ending : Ending} (h : p.EndsWith x ending) {e : PrintError}
    (he : p.print x = .error e) :
    (e.phase = .tables ∨ e.phase = .indexes ∧ p.buildsIndexes = true) ∧ e.reason ≠ .format := by
  cases ending with
  | clash t =>
    cases he.symm.trans h
    exact ⟨.inl rfl, by simp⟩
  | repeated q =>
    cases he.symm.trans h
    exact ⟨.inl rfl, by simp⟩
  | unplanned reason =>
    obtain ⟨hb, hplan, h⟩ := h
    cases he.symm.trans h
    refine ⟨.inr ⟨rfl, hb⟩, ?_⟩
    intro (heq : reason = .format)
    rw [heq] at hplan
    exact planIndexes_ne_format hplan
  | printed =>
    obtain ⟨content, h⟩ := h
    cases he.symm.trans h

/-- The tables are handed to a printer that is asked for them. -/
theorem tableNames_ending (hp : p.Dependable) (x : Export) : (p.run x).tableNames p x.model =
    if ((p.ending x.model).entered p.buildsIndexes).contains .tables then (p.select x.model).map (·.name) else [] := by
  rw [Trace.tableNames, (run_ending hp x).2]

end Printer

/-- **The outcome of a run.** The first flaw of the model ends it: a table with a taken name, else a repeated field, else
lookup maps that cannot be planned, if the printer builds any; a run without a flaw gives an output. No other phase
fails, and no text is refused. The recording printer is asked for the phases in front of the flaw, and handed the tables
unless their names clash. -/
theorem print_ending (x : Export) :
    (∀ p ∈ [lua, json, recording], p.EndsWith x (p.ending x.model)) ∧
    (∀ p ∈ [lua, json, recording], ∀ e, p.print x = .error e →
      (e.phase = .tables ∨ e.phase = .indexes ∧ p.buildsIndexes = true) ∧ e.reason ≠ .format) ∧
    json.buildsIndexes = false ∧
    (recording.run x).entered <+: Phase.all ∧
    match recording.ending x.model with
    | .clash _ => (recording.run x).entered = [.header] ∧ (recording.run x).tableNames recording x.model = []
    | .repeated _ | .unplanned _ => (recording.run x).entered = [.header, .tables] ∧
      (recording.run x).tableNames recording x.model = (recording.select x.model).map (·.name)
    | .printed => (recording.run x).entered = Phase.all ∧
      (recording.run x).tableNames recording x.model = (recording.select x.model).map (·.name) := by
  have hdependable : ∀ p ∈ [lua, json, recording], p.Dependable := by
    simp [dependable_lua, dependable_json, dependable_recording]
  have hends (p) (hp : p ∈ [lua, json, recording]) := endsWith_ending (hdependable p hp) x
  have hentered := (run_ending dependable_recording x).2
  refine ⟨hends, fun p hp e he => (hends p hp).phase he, rfl, ?_, ?_⟩
  · rw [hentered]
    exact Ending.entered_prefix _
  · rw [tableNames_ending dependable_recording, hentered]
    cases recording.ending x.model <;> exact ⟨rfl, rfl⟩

/-- A table in which a record repeats a field, a link to a descriptor that does not exist, and a table that has the name
of the enums. -/
def flawedModel : Model where
  descriptors := [{ name := "Config", kind := .struct, usage := .combineStruct, fields := [.linked "Item" "Thing"] }]
  tables := [
    { name := "Item", records := [[Samples.scalarNode "id" .int32 "1", Samples.scalarNode "id" .int32 "2"]] },
    { name := "Enum" }]

/-- The clash of names comes first, although it is found behind the others. -/
theorem print_ending_flawed :
    lua.print ⟨Samples.version, flawedModel⟩ = .error ⟨"lua", .tables, .nameClash "Enum" .table⟩ ∧
      json.print ⟨Samples.version, flawedModel⟩ = .error ⟨"json", .tables, .nameClash "Enum" .table⟩ ∧
      recording.print ⟨Samples.version, flawedModel⟩ = .error ⟨"recording", .tables, .nameClash "Enum" .table⟩ ∧
      (recording.run ⟨Samples.version, flawedModel⟩).entered = [.header] := by
  obtain ⟨houtcome, -, -, -, hrecording⟩ := print_ending ⟨Samples.version, flawedModel⟩
  have hlua := houtcome lua (by simp)
  have hjson := houtcome json (by simp)
  have hrec := houtcome recording (by simp)
  exact ⟨hlua, hjson, hrec, hrecording.1⟩

end TableExport
