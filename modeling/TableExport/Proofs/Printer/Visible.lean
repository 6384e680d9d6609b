import TableExport.Printer.Json
import TableExport.Printer.Lua
import TableExport.Printer.Recording
import TableExport.Printer.Samples
import TableExport.Proofs.Printer.Success

/-!
# What a printer sees of a model

A printer sees the tables that its tag admits, the declarations and the version, and each phase of a run depends on
what it sees only. Tables that other outputs are made of can have any names and records: they clash with nothing, and
they are not even checked.

- `ReadsVersion` printers see nothing of an export but its version at the beginning and at the end.
- `Same` says that a printer sees the same of two exports; `Same.phaseScript` is a phase, `Same.run` a whole run.
- `print_visible` says which parts of an export an output depends on; the JSON output depends on still less.
-/

namespace TableExport.Printer

variable {p : Printer} {x x' : Export}

/-- Runs through phases with the same scripts are the same. -/
theorem runPhases_congr {phases : List Phase} (h : ∀ phase, p.phaseScript x phase = p.phaseScript x' phase) :
    p.runPhases x phases = p.runPhases x' phases := by
  induction phases with
  | nil => rfl
  | cons phase rest ih => rw [runPhases, runPhases, h phase, ih]

/-- The printer is handed a whole export at its beginning and at its end, but reads the version only. -/
structure ReadsVersion (p : Printer) : Prop where
  header : ∀ x x' : Export, x.version = x'.version → p.header x = p.header x'
  footer : ∀ x x' : Export, x.version = x'.version → p.footer x = p.footer x'

theorem readsVersion_lua : lua.ReadsVersion where
  header x x' h := by
    show luaHeader x.version = luaHeader x'.version
    rw [h]
  footer _ _ _ := rfl

theorem readsVersion_json : json.ReadsVersion where
  header _ _ _ := rfl
  footer _ _ _ := rfl

theorem readsVersion_recording : recording.ReadsVersion where
  header _ _ _ := rfl
  footer _ _ _ := rfl

/-- The printer sees the same of both exports: it begins and ends in the same way, includes the same tables, plans the
same lookup maps and attaches the same enums. -/
structure Same (p : Printer) (x x' : Export) : Prop where
  header : p.header x = p.header x'
  tables : p.select x.model = p.select x'.model
  plan : p.plan x.model = p.plan x'.model
  enums : TableExport.enums x.model.descriptors = TableExport.enums x'.model.descriptors
  footer : p.footer x = p.footer x'

/-- The declarations and the included tables decide the lookup maps. -/
theorem plan_congr {m m' : Model} (hdescriptors : m.descriptors = m'.descriptors) (htables : p.select m = p.select m') :
    p.plan m = p.plan m' := by
  rw [plan, plan, hdescriptors, htables]

/-- **Every phase** of a printer that sees the same has the same script. -/
theorem Same.phaseScript (h : p.Same x x') (phase : Phase) : p.phaseScript x phase = p.phaseScript x' phase := by
  cases phase with
  | header => simp only [Printer.phaseScript, h.header]
  | tables => simp only [Printer.phaseScript, h.tables]
  | indexes =>
    by_cases hbuilds : p.buildsIndexes = true
    · have hplan := h.plan
      rw [Printer.plan, Printer.plan, if_pos hbuilds, if_pos hbuilds] at hplan
      simp only [Printer.phaseScript, hbuilds, ↓reduceIte, hplan]
    · simp only [Printer.phaseScript, hbuilds, ↓reduceIte, Bool.false_eq_true]
  | enums => simp only [Printer.phaseScript, h.enums]
  | footer => simp only [Printer.phaseScript, h.footer]

theorem Same.run (h : p.Same x x') : p.run x = p.run x' :=
  runPhases_congr h.phaseScript

/-- Runs that are the same have the same output, or the same failure. -/
theorem print_congr (h : p.run x = p.run x') : p.print x = p.print x' := by
  rw [print, print, h]

/-- The JSON printer writes no version and plans nothing. -/
theorem same_json (htables : json.select x.model = json.select x'.model)
    (henums : TableExport.enums x.model.descriptors = TableExport.enums x'.model.descriptors) : json.Same x x' :=
  ⟨rfl, htables, rfl, henums, rfl⟩

/-- **What an output depends on.** For every printer that reads the version only where it is handed an export, exports
with the same version and the same declarations of which it includes the same tables have the same output, or the same
failure in the same phase; the printer is asked for the same phases and tables and takes the same steps. The printers of
the library are such printers. The JSON output depends neither on the version nor on any declaration that is no enum. -/
theorem print_visible :
    (∀ p ∈ [lua, json, recording], p.ReadsVersion) ∧
    (∀ p : Printer, p.ReadsVersion → ∀ x x' : Export, x.version = x'.version →
      x.model.descriptors = x'.model.descriptors → p.select x.model = p.select x'.model →
      p.print x = p.print x' ∧ p.run x = p.run x' ∧
        (p.run x).tableNames p x.model = (p.run x').tableNames p x'.model) ∧
    ∀ x x' : Export, TableExport.enums x.model.descriptors = TableExport.enums x'.model.descriptors →
      json.select x.model = json.select x'.model → json.print x = json.print x' ∧ json.run x = json.run x' := by
  refine ⟨?_, fun p hp x x' hversion hdescriptors htables => ?_, fun x x' henums htables => ?_⟩
  · simp [readsVersion_lua, readsVersion_json, readsVersion_recording]
  · have hrun : p.run x = p.run x' :=
      Same.run ⟨hp.header x x' hversion, htables, plan_congr hdescriptors htables, by rw [hdescriptors],
        hp.footer x x' hversion⟩
    exact ⟨print_congr hrun, hrun, by rw [hrun, Trace.tableNames, Trace.tableNames, htables]⟩
  · have hrun := (same_json htables henums).run
    exact ⟨print_congr hrun, hrun⟩

/-- The samples among tables for the server: one is named like the enums, one like another table, and one repeats a
field. -/
def crowdedModel : Model where
  descriptors := Samples.sampleModel.descriptors
  tables :=
    { name := "Enum", tags := [".server"] } :: Samples.sampleModel.tables ++
      [{ name := "Actor", tags := [".server"],
         records := [[Samples.scalarNode "id" .int32 "1", Samples.scalarNode "id" .int32 "2"]] }]

/-- The tables for the server do not show in the outputs, and the JSON output shows the enums only. -/
theorem print_visible_crowded :
    lua.print ⟨"1.0.0", Samples.sampleModel⟩ = lua.print ⟨"1.0.0", crowdedModel⟩ ∧
      json.print ⟨"1.0.0", Samples.sampleModel⟩ =
        json.print ⟨"2.0.0", { crowdedModel with descriptors := TableExport.enums Samples.sampleModel.descriptors }⟩ :=
  ⟨(print_visible.2.1 lua readsVersion_lua _ _ rfl rfl (by decide)).1,
    (print_visible.2.2 _ _ (by decide) (by decide)).1⟩

end TableExport.Printer
