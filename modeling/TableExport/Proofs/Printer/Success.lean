import TableExport.Printer.Basic
import TableExport.Proofs.Layout.Written
import TableExport.Proofs.Outcome

/-!
# Runs that succeed

A run that succeeds went through all phases: no name was taken twice, the tables were rendered, the lookup maps were
planned, and the output is the text of all steps in their order.

- `Printer.print_eq_ok` takes a successful run apart.
-/

namespace TableExport

open TableExport.Layout

namespace Printer

/-- The lookup maps of an output; a printer that builds none does not plan any. -/
def plan (p : Printer) (m : Model) : Except RenderError (List IndexSpec) :=
  if p.buildsIndexes then planIndexes m.descriptors p.tag ((p.select m).map (·.name)) else .ok []

/-- Neither names nor tables stop the printer, and these are its lookup maps. -/
structure Succeeds (p : Printer) (m : Model) (specs : List IndexSpec) : Prop where
  names : nameClash? [enumNamespace] (p.select m) = none
  tables : (p.tables (p.select m)).failure = none
  plan : p.plan m = .ok specs

/-- The steps of all phases. -/
def allSteps (p : Printer) (x : Export) (specs : List IndexSpec) : List Step :=
  (p.header x).steps ++ (p.tables (p.select x.model)).steps ++
    (if p.buildsIndexes then (p.indexes specs).steps else []) ++
    (p.enums (TableExport.enums x.model.descriptors)).steps ++ (p.footer x).steps

variable {p : Printer} {x : Export}

/-- Going through one more phase. -/
theorem runPhases_cons (phase : Phase) (rest : List Phase) (h : (p.runPhases x (phase :: rest)).failure = none) :
    (p.phaseScript x phase).2.failure = none ∧ (p.runPhases x rest).failure = none ∧
      (p.runPhases x (phase :: rest)).steps = (p.phaseScript x phase).2.steps ++ (p.runPhases x rest).steps := by
  rw [runPhases] at h ⊢
  cases hf : (p.phaseScript x phase).2.failure with
  | none => simp_all
  | some e => simp [hf] at h

/-- The steps of a run without a failure. -/
theorem run_steps (h : (p.run x).failure = none) : ∃ specs, p.Succeeds x.model specs ∧
    (p.run x).steps = p.allSteps x specs := by
  obtain ⟨-, h₁, hs₁⟩ := runPhases_cons _ _ h
  obtain ⟨ht, h₂, hs₂⟩ := runPhases_cons _ _ h₁
  obtain ⟨hi, h₃, hs₃⟩ := runPhases_cons _ _ h₂
  obtain ⟨-, h₄, hs₄⟩ := runPhases_cons _ _ h₃
  obtain ⟨-, -, hs₅⟩ := runPhases_cons _ _ h₄
  have hsteps : (p.run x).steps = (p.header x).steps ++ ((p.phaseScript x .tables).2.steps ++
      ((p.phaseScript x .indexes).2.steps ++ ((p.enums (TableExport.enums x.model.descriptors)).steps ++
        (p.footer x).steps))) := by
    rw [run, Phase.all, hs₁, hs₂, hs₃, hs₄, hs₅]
    simp [phaseScript, runPhases]
  -- the two phases in which the run itself can stop
  cases hn : nameClash? [enumNamespace] (p.select x.model) with
  | some e => simp [phaseScript, hn, Script.fail] at ht
  | none =>
    have htables : (p.phaseScript x .tables).2 = p.tables (p.select x.model) := by simp [phaseScript, hn]
    rw [htables] at ht hsteps
    cases hp : p.plan x.model with
    | error e =>
      by_cases hb : p.buildsIndexes = true
      · rw [plan, if_pos hb] at hp
        simp [phaseScript, hb, hp, Script.fail] at hi
      · rw [plan, if_neg hb] at hp
        cases hp
    | ok specs =>
      refine ⟨specs, ⟨hn, ht, hp⟩, ?_⟩
      have hindexes : (p.phaseScript x .indexes).2.steps =
          if p.buildsIndexes then (p.indexes specs).steps else [] := by
        by_cases hb : p.buildsIndexes = true
        · rw [plan, if_pos hb] at hp
          simp [phaseScript, hb, hp]
        · simp [phaseScript, hb]
      rw [hsteps, hindexes, allSteps]
      simp only [List.append_assoc]

/-- **A successful run** is stopped by nothing, and its output is the text of the steps of all phases. -/
theorem print_eq_ok {o : Output} (h : p.print x = .ok o) : ∃ specs, p.Succeeds x.model specs ∧
    o.content = ((Builder.new p.indent).run (p.allSteps x specs)).text := by
  rw [print] at h
  cases hf : (p.run x).failure with
  | some f => simp [hf] at h
  | none =>
    obtain ⟨specs, hs, hsteps⟩ := run_steps hf
    simp only [hf, Except.ok.injEq] at h
    exact ⟨specs, hs, by rw [← h, hsteps]⟩

end Printer

end TableExport
