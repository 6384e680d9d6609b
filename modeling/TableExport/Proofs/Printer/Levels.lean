import Mathlib.Data.List.Infix
import TableExport.Printer.Json
import TableExport.Printer.Lua
import TableExport.Printer.Recording
import TableExport.Proofs.Layout.Levels

/-!
# The level of indentation in a run

Indents and dedents belong together: tables, enums and lookup maps come back to the level at which they started, and
so does a whole run. A run that fails stays deeper, but no run has nothing less to indent at a dedent.

- `balanced_renderTables` and `balanced_renderEnums` are the renderers.
- `Printer.KeepsLevels` says which level a printer keeps between its header and its footer; `keepsLevels_json`,
  `keepsLevels_lua` and `keepsLevels_recording` are the printers.
- `Printer.KeepsLevels.phaseScript` is one phase, `Printer.KeepsLevels.runPhases` a run through some of them.
- `run_levels` collects what is true of all runs.
-/

namespace TableExport

open TableExport.Layout

/-! ## Renderers -/

namespace Render

variable {style : Literal.Style}

theorem balanced_renderRecords (table : String) (index : Nat) (rs : List Record) :
    (renderRecords style table index rs).Balanced := by
  induction rs generalizing index with
  | nil => exact Script.balanced_ofSteps (balanced_of_flat rfl)
  | cons r rs ih =>
    rw [renderRecords]
    split
    · exact Script.balanced_fail _
    · exact (Script.balanced_ofSteps (balanced_of_flat rfl)).andThen (ih (index + 1))

theorem balanced_renderTable (t : Table) (separated : Bool) : (renderTable style t separated).Balanced := by
  rw [renderTable]
  split
  · exact Script.balanced_ofSteps (balanced_of_flat rfl)
  · exact (balanced_renderRecords t.name 0 t.records).block (balanced_of_flat rfl) _

/-- **Tables** come back to their level. -/
theorem balanced_renderTables (moreFollows : Bool) (ts : List Table) :
    (renderTables style moreFollows ts).Balanced := by
  induction ts with
  | nil => exact Script.balanced_ofSteps (balanced_of_flat rfl)
  | cons t ts ih =>
    rw [renderTables]
    exact (balanced_renderTable t _).andThen ih

theorem isFlat_memberSteps (fs : List FieldDescriptor) : (memberSteps style fs).all Step.isFlat = true := by
  induction fs with
  | nil => rfl
  | cons f fs ih => exact ih

theorem balanced_renderEnum (d : Descriptor) (separated : Bool) : Balanced (renderEnum style d separated) := by
  rw [renderEnum]
  split
  · exact balanced_of_flat rfl
  · exact (balanced_of_flat (isFlat_memberSteps d.fields)).block (balanced_of_flat rfl) _

/-- **Enums** come back to their level. -/
theorem balanced_renderEnums (ds : List Descriptor) : Balanced (renderEnums style ds) := by
  induction ds with
  | nil => exact balanced_of_flat rfl
  | cons d ds ih =>
    rw [renderEnums]
    exact (balanced_renderEnum d _).append ih

end Render

open TableExport.Render

/-! ## Printers -/

namespace Printer

/-- Unless it fails, the printer comes back to one level between its header and its footer, and is not below it on the
way. -/
structure KeepsLevels (p : Printer) (inner : Nat) : Prop where
  header : ∀ x, (p.header x).Reaches 0 0 inner
  tables : ∀ ts, (p.tables ts).Balanced
  indexes : ∀ specs, (p.indexes specs).Balanced
  enums : ∀ ds, (p.enums ds).Balanced
  footer : ∀ x, (p.footer x).Reaches 0 inner 0

theorem keepsLevels_recording : recording.KeepsLevels 0 where
  header _ := Script.balanced_ofSteps (balanced_of_flat rfl) 0
  tables := balanced_renderTables false
  indexes specs := Script.balanced_ofSteps (balanced_of_flat (by simp [Step.isFlat]))
  enums ds := Script.balanced_ofSteps (balanced_renderEnums ds)
  footer _ := Script.balanced_ofSteps (balanced_of_flat rfl) 0

theorem keepsLevels_lua : lua.KeepsLevels 0 where
  header _ := Script.balanced_ofSteps (balanced_of_flat rfl) 0
  tables ts := by
    show (luaTables ts).Balanced
    unfold luaTables
    split
    · exact Script.balanced_ofSteps (balanced_of_flat rfl)
    · exact (balanced_renderTables false ts).block (balanced_of_flat rfl) _
  indexes specs := Script.balanced_ofSteps (Balanced.flatMap fun spec _ => balanced_stepsOf (Lua.indexLoop spec))
  enums ds := by
    refine Script.balanced_ofSteps ?_
    unfold luaEnums
    split
    · exact balanced_of_flat rfl
    · exact (balanced_renderEnums ds).block (balanced_of_flat rfl) _
  footer _ := Script.balanced_ofSteps (balanced_of_flat rfl) 0

theorem keepsLevels_json : json.KeepsLevels 1 where
  header _ := Script.reaches_ofSteps (.cons (Nat.zero_le _) rfl (.cons (Nat.zero_le _) rfl (.nil (Nat.zero_le _))))
  tables := balanced_renderTables true
  indexes _ := Script.balanced_ofSteps (balanced_of_flat rfl)
  enums ds := by
    refine Script.balanced_ofSteps ?_
    unfold jsonEnums
    split
    · exact balanced_of_flat rfl
    · exact (balanced_renderEnums ds).block (balanced_of_flat rfl) _
  footer _ := Script.reaches_ofSteps (.cons (Nat.zero_le _) rfl (.cons (Nat.zero_le _) rfl (.nil (Nat.zero_le _))))

/-! ## Phases -/

/-- The level at which a phase starts. -/
def startLevel (inner : Nat) : Phase → Nat
  | .header => 0
  | _ => inner

/-- The level that a phase leaves behind. -/
def endLevel (inner : Nat) : Phase → Nat
  | .footer => 0
  | _ => inner

/-- The level below which a phase never is. -/
def floorLevel (inner : Nat) : Phase → Nat
  | .header | .footer => 0
  | _ => inner

theorem floorLevel_le_endLevel (inner : Nat) (phase : Phase) : floorLevel inner phase ≤ endLevel inner phase := by
  cases phase <;> simp [floorLevel, endLevel]

variable {p : Printer} {inner : Nat}

/-- **A phase** leads from its level to the next one. -/
theorem KeepsLevels.phaseScript (h : p.KeepsLevels inner) (x : Export) (phase : Phase) :
    (p.phaseScript x phase).2.Reaches (floorLevel inner phase) (startLevel inner phase) (endLevel inner phase) := by
  cases phase with
  | header => exact h.header x
  | tables =>
    rw [Printer.phaseScript]
    split
    · exact Script.reaches_fail _ inner.le_refl
    · exact h.tables _ inner
  | indexes =>
    rw [Printer.phaseScript]
    split
    · split
      · exact h.indexes _ inner
      · exact Script.reaches_fail _ inner.le_refl
    · exact Script.reaches_ofSteps (.nil inner.le_refl)
  | enums => exact h.enums _ inner
  | footer => exact h.footer x

/-! ## Runs -/

/-- What a run did, as a script. -/
def Trace.script (t : Trace) : Script (Phase × RenderError) :=
  ⟨t.steps, t.failure⟩

/-- A phase as a script that says which phase failed. -/
def named (phase : Phase) (a : Script RenderError) : Script (Phase × RenderError) :=
  ⟨a.steps, a.failure.map (phase, ·)⟩

theorem script_runPhases_cons (p : Printer) (x : Export) (phase : Phase) (rest : List Phase) :
    (p.runPhases x (phase :: rest)).script =
      (named phase (p.phaseScript x phase).2).andThen (p.runPhases x rest).script := by
  rw [runPhases]
  obtain ⟨asked, script⟩ := p.phaseScript x phase
  cases hfailure : script.failure <;> simp [Trace.script, named, Script.andThen, hfailure]

/-- A run through more phases goes on where the run through the first ones stopped. -/
theorem script_runPhases_append (p : Printer) (x : Export) (phases rest : List Phase) :
    (p.runPhases x (phases ++ rest)).script = (p.runPhases x phases).script.andThen (p.runPhases x rest).script := by
  induction phases with
  | nil => rfl
  | cons phase phases ih =>
    rw [List.cons_append, script_runPhases_cons, script_runPhases_cons, ih, Script.andThen_assoc]

/-- Each phase starts at the level that the one in front of it leaves behind. -/
def Fits (inner : Nat) : Nat → List Phase → Prop
  | _, [] => True
  | level, phase :: rest => level = startLevel inner phase ∧ Fits inner (endLevel inner phase) rest

/-- The level behind phases. -/
def levelBehind (inner : Nat) : Nat → List Phase → Nat
  | level, [] => level
  | _, phase :: rest => levelBehind inner (endLevel inner phase) rest

/-- **A run** leads from phase to phase, and is below the floor of none of them. -/
theorem KeepsLevels.runPhases (h : p.KeepsLevels inner) (x : Export) {floor : Nat} {phases : List Phase}
    (hfloor : ∀ phase ∈ phases, floor ≤ floorLevel inner phase) {level : Nat} (hlevel : floor ≤ level)
    (hfits : Fits inner level phases) :
    (p.runPhases x phases).script.Reaches floor level (levelBehind inner level phases) := by
  induction phases generalizing level with
  | nil => exact Script.reaches_ofSteps (.nil hlevel)
  | cons phase phases ih =>
    obtain ⟨rfl, hfits⟩ := hfits
    obtain ⟨hphase, hphases⟩ := List.forall_mem_cons.1 hfloor
    obtain ⟨reached, hclimbs, hreached⟩ := h.phaseScript x phase
    have hnamed : (named phase (p.phaseScript x phase).2).Reaches floor _ (endLevel inner phase) :=
      ⟨reached, hclimbs.weaken hphase, fun hfailure => hreached (Option.map_eq_none_iff.1 hfailure)⟩
    rw [script_runPhases_cons]
    exact hnamed.andThen (ih hphases (hphase.trans (floorLevel_le_endLevel inner phase)) hfits)

/-- The level of the printer's builder behind steps. -/
def levelOf (p : Printer) (steps : List Step) : Nat :=
  ((Builder.new p.indent).run steps).level

/-- What a run did in its first phases is the beginning of all that it did. -/
theorem steps_runPhases_prefix (p : Printer) (x : Export) {phases : List Phase} (h : phases <+: Phase.all) :
    (p.runPhases x phases).steps <+: (p.run x).steps := by
  obtain ⟨rest, hrest⟩ := h
  have hscript := script_runPhases_append p x phases rest
  rw [hrest] at hscript
  have hsteps : (p.run x).steps = ((p.runPhases x phases).script.andThen (p.runPhases x rest).script).steps :=
    congrArg Script.steps hscript
  rw [hsteps]
  exact Script.steps_prefix_andThen (p.runPhases x phases).script _

/-- The first phases of a run fit together, and all but the first and the last keep the level of the printer. -/
theorem fits_of_first (inner : Nat) {phases : List Phase} (h : phases <+: Phase.all) : Fits inner 0 phases ∧
    levelBehind inner 0 phases = if .header ∈ phases ∧ .footer ∉ phases then inner else 0 := by
  have hmem : phases ∈ Phase.all.inits := (List.mem_inits _ _).2 h
  simp only [Phase.all, List.inits, List.map_cons, List.map_nil, List.mem_cons, List.not_mem_nil, or_false] at hmem
  rcases hmem with rfl | rfl | rfl | rfl | rfl | rfl <;> simp [Fits, levelBehind, startLevel, endLevel]

namespace KeepsLevels

variable (h : p.KeepsLevels inner) (x : Export)
include h

/-- **A dedent in a run** always has something less to indent, whether or not the run fails. -/
theorem pos_of_dedent {front rest : List Step} (hsteps : (p.run x).steps = front ++ .dedent :: rest) :
    0 < p.levelOf front := by
  have hfits := (fits_of_first inner (List.prefix_refl Phase.all)).1
  obtain ⟨reached, hclimbs, -⟩ := h.runPhases x (fun phase _ => Nat.zero_le _) (Nat.le_refl 0) hfits
  exact hclimbs.pos_of_dedent rfl hsteps

/-- The level behind the first phases of a run. -/
theorem levelOf_runPhases {phases : List Phase} (hphases : phases <+: Phase.all)
    (hfailure : (p.runPhases x phases).failure = none) : p.levelOf (p.runPhases x phases).steps =
      if .header ∈ phases ∧ .footer ∉ phases then inner else 0 := by
  obtain ⟨hfits, hlevel⟩ := fits_of_first inner hphases
  have hreaches := h.runPhases x (fun phase _ => Nat.zero_le _) (Nat.le_refl 0) hfits
  rw [hlevel] at hreaches
  exact (hreaches.climbs hfailure).level_run rfl

/-- Between the header and the footer the level is not below that of the printer. -/
theorem le_levelOf (hsucceeds : (p.header x).failure = none) {front : List Step}
    (hheader : (p.header x).steps <+: front)
    (hfront : front <+: (p.runPhases x [.header, .tables, .indexes, .enums]).steps) : inner ≤ p.levelOf front := by
  obtain ⟨behind, rfl⟩ := hheader
  have hsteps : (p.runPhases x [.header, .tables, .indexes, .enums]).steps =
      (p.header x).steps ++ (p.runPhases x [.tables, .indexes, .enums]).steps := by
    have hscript := congrArg Script.steps (script_runPhases_cons p x .header [.tables, .indexes, .enums])
    rwa [Script.andThen_steps (by simp [named, Printer.phaseScript, hsucceeds])] at hscript
  rw [hsteps, List.prefix_append_right_inj] at hfront
  have hfloor : ∀ phase ∈ [Phase.tables, .indexes, .enums], inner ≤ floorLevel inner phase := by simp [floorLevel]
  have hfits : Fits inner inner [.tables, .indexes, .enums] := by simp [Fits, startLevel, endLevel]
  obtain ⟨reached, hclimbs, -⟩ := h.runPhases x hfloor inner.le_refl hfits
  rw [levelOf, Builder.run_append]
  exact hclimbs.le_of_prefix (((h.header x).climbs hsucceeds).level_run rfl) hfront

end KeepsLevels

end Printer

open Printer

/-- **The levels of a run.** Whether or not a run fails, a dedent always has something less to indent, and a run that
succeeds comes back to level 0. The first phases of a run, if they succeed, leave level 0 behind, but the JSON printer
is at level 1 from the end of its header to the start of its footer, and never less deep in between. Tables that are
rendered and enums come back to the level at which they started. -/
theorem run_levels (x : Export) :
    (∀ p ∈ [lua, json, recording],
      (∀ front rest, (p.run x).steps = front ++ .dedent :: rest → 0 < p.levelOf front) ∧
      ((p.run x).failure = none → p.levelOf (p.run x).steps = 0) ∧
      ∀ phases, phases <+: Phase.all → (p.runPhases x phases).steps <+: (p.run x).steps) ∧
    (∀ p ∈ [lua, recording], ∀ phases, phases <+: Phase.all → (p.runPhases x phases).failure = none →
      p.levelOf (p.runPhases x phases).steps = 0) ∧
    (∀ phases, phases <+: Phase.all → (json.runPhases x phases).failure = none →
      json.levelOf (json.runPhases x phases).steps = if .header ∈ phases ∧ .footer ∉ phases then 1 else 0) ∧
    (∀ front, (json.header x).steps <+: front →
      front <+: (json.runPhases x [.header, .tables, .indexes, .enums]).steps → 1 ≤ json.levelOf front) ∧
    (∀ style moreFollows ts, (renderTables style moreFollows ts).failure = none →
      ∀ b : Builder, (b.run (renderTables style moreFollows ts).steps).level = b.level) ∧
    ∀ style ds, ∀ b : Builder, (b.run (renderEnums style ds)).level = b.level := by
  have hkeeps : ∀ p ∈ [lua, json, recording], ∃ inner, p.KeepsLevels inner := by
    simp only [List.forall_mem_cons]
    exact ⟨⟨0, keepsLevels_lua⟩, ⟨1, keepsLevels_json⟩, ⟨0, keepsLevels_recording⟩, List.forall_mem_nil _⟩
  have hzero : ∀ p ∈ [lua, recording], p.KeepsLevels 0 := by
    simp only [List.forall_mem_cons]
    exact ⟨keepsLevels_lua, keepsLevels_recording, List.forall_mem_nil _⟩
  refine ⟨fun p hp => ?_, fun p hp phases hphases hfailure => ?_, fun phases => keepsLevels_json.levelOf_runPhases x,
    fun front => keepsLevels_json.le_levelOf x rfl, fun style moreFollows ts hfailure =>
      (balanced_renderTables moreFollows ts).level_run hfailure, fun style ds => (balanced_renderEnums ds).level_run⟩
  · obtain ⟨inner, h⟩ := hkeeps p hp
    refine ⟨fun front rest => h.pos_of_dedent x, fun hfailure => ?_, fun phases => steps_runPhases_prefix p x⟩
    have hlevel := h.levelOf_runPhases x (List.prefix_refl Phase.all) hfailure
    rwa [if_neg (by simp [Phase.all])] at hlevel
  · have hlevel := (hzero p hp).levelOf_runPhases x hphases hfailure
    rwa [ite_self] at hlevel

end TableExport
