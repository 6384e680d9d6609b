import TableExport.CommandLine.Program
import TableExport.Proofs.Project.Render

/-!
# Failing runs leave the files alone

The `render` command opens a project, loads its model and renders it. It touches no file before all outputs are
printed, so whatever is wrong with the targets, the configuration, the model or the printing leaves the files as they
were, and so does a run that only shows what would be written.

- `run_openProject` and `run_loadModel`: what comes before the rendering reads only.
- `run_renderCommand_cases` says how far the command gets. `Refused` lists the requests that fail before the first
  file is written; `run_renderCommand_of_refused` and `run_renderCommand_dryRun` are the runs that write nothing.
- `render_leaves_files` is the whole: where a run may fail, and what the tree is then.
-/

namespace TableExport.CommandLine

open FileTree Project

variable {r : Registry} {request : RenderRequest} {t : FileTree}

/-! ## Before the rendering -/

/-- The project that is opened on a tree. -/
abbrev opened (path : Path) (targets : List String) (t : FileTree) : Except ConfigError Project :=
  ((openProject path targets : StateM FileTree (Except ConfigError Project)).run t).1

/-- The model that is loaded on a tree. -/
abbrev loaded (path : Path) (t : FileTree) : Except LoadError Model :=
  ((loadModel path : StateM FileTree (Except LoadError Model)).run t).1

/-- Opening a project reads only. -/
theorem run_openProject (path : Path) (targets : List String) (t : FileTree) :
    (openProject path targets : StateM FileTree (Except ConfigError Project)).run t = (opened path targets t, t) := by
  rw [opened, openProject, StateT.run_bind, run_readText]
  cases t.readText path <;> rfl

/-- Loading a model reads only. -/
theorem run_loadModel (path : Path) (t : FileTree) :
    (loadModel path : StateM FileTree (Except LoadError Model)).run t = (loaded path t, t) := by
  rw [loaded, loadModel, StateT.run_bind, run_readText]
  cases t.readText path <;> rfl

/-- No target is unknown if and only if all of them have a printer. -/
theorem unknownTarget?_eq_none {targets : List String} :
    unknownTarget? r targets = none ↔ ∀ target ∈ targets, target ∈ r.targets := by
  induction targets with
  | nil => simp [unknownTarget?]
  | cons target targets ih =>
    rw [unknownTarget?, List.forall_mem_cons, ← ih]
    cases hget : r.get target with
    | ok printer => simp [Registry.mem_targets, hget]
    | error e => simp [(Registry.get_eq_error.1 hget).1]

/-! ## The command -/

/-- A run of the command on a tree. -/
abbrev runCommand (r : Registry) (request : RenderRequest) (t : FileTree) : Outcome × FileTree :=
  (renderCommand r request : StateM FileTree Outcome).run t

/-- **The command** looks at the targets, opens the project, loads the model and renders, and it stops at the first of
these that fails; only the rendering can change the tree. -/
theorem run_renderCommand (r : Registry) (request : RenderRequest) (t : FileTree) :
    runCommand r request t =
      match unknownTarget? r request.targets with
      | some e => (.failed [e.message], t)
      | none =>
        match opened ⟨request.config⟩ r.targets t with
        | .error e => (.failed (e.message :: e.reason?.toList), t)
        | .ok p =>
          match loaded p.modelPath t with
          | .error e => (.failed [e.message, e.reason], t)
          | .ok model =>
            match runRender p r ⟨version, model⟩ ⟨request.targets, request.dryRun⟩ t with
            | (.error e, t') => (.failed (("failed to render " ++ request.config) :: e.chain), t')
            | (.ok files, t') => ({ output := filesReport request.dryRun files }, t') := by
  rw [runCommand, renderCommand]
  cases unknownTarget? r request.targets with
  | some e => rfl
  | none =>
    show StateT.run (openProject ⟨request.config⟩ r.targets >>= _) t = _
    rw [StateT.run_bind, run_openProject]
    cases hopened : opened ⟨request.config⟩ r.targets t with
    | error e => rfl
    | ok p =>
      show StateT.run (loadModel p.modelPath >>= _) t = _
      rw [StateT.run_bind, run_loadModel]
      cases hloaded : loaded p.modelPath t with
      | error e => simp only [hloaded]; rfl
      | ok model =>
        simp only [hloaded]
        show StateT.run (p.render r ⟨version, model⟩ ⟨request.targets, request.dryRun⟩ >>= _) t = _
        rw [StateT.run_bind]
        cases hrender : runRender p r ⟨version, model⟩ ⟨request.targets, request.dryRun⟩ t with
        | mk result t' => cases result <;> simp only [hrender] <;> rfl

/-- A run of the command fails before the rendering and leaves the tree alone, or it gets as far as the rendering, and
the tree is what that leaves. -/
theorem run_renderCommand_cases (r : Registry) (request : RenderRequest) (t : FileTree) :
    (∃ chain, runCommand r request t = (.failed chain, t)) ∨
      ∃ p model t', (∀ target ∈ request.targets, target ∈ r.targets) ∧
        opened ⟨request.config⟩ r.targets t = .ok p ∧ loaded p.modelPath t = .ok model ∧
        ((∃ e chain, runRender p r ⟨version, model⟩ ⟨request.targets, request.dryRun⟩ t = (.error e, t') ∧
            runCommand r request t = (.failed chain, t')) ∨
          ∃ files output, runRender p r ⟨version, model⟩ ⟨request.targets, request.dryRun⟩ t = (.ok files, t') ∧
            runCommand r request t = ({ output := output }, t')) := by
  rw [run_renderCommand]
  cases hunknown : unknownTarget? r request.targets with
  | some e => exact .inl ⟨_, rfl⟩
  | none =>
    cases hopened : opened ⟨request.config⟩ r.targets t with
    | error e => exact .inl ⟨_, rfl⟩
    | ok p =>
      cases hloaded : loaded p.modelPath t with
      | error e => exact .inl ⟨_, by simp only [hloaded]; rfl⟩
      | ok model =>
        cases hrender : runRender p r ⟨version, model⟩ ⟨request.targets, request.dryRun⟩ t with
        | mk result t' =>
          refine .inr ⟨p, model, t', unknownTarget?_eq_none.1 hunknown, rfl, hloaded, ?_⟩
          simp only [hloaded, hrender]
          cases result with
          | error e => exact .inl ⟨e, _, rfl, rfl⟩
          | ok files => exact .inr ⟨files, _, rfl, rfl⟩

/-- The request fails before the first file is written. -/
inductive Refused (r : Registry) (request : RenderRequest) (t : FileTree) : Prop
  | target {target : String} : target ∈ request.targets → target ∉ r.targets → Refused r request t
  | config {e : ConfigError} : opened ⟨request.config⟩ r.targets t = .error e → Refused r request t
  | model {p : Project} {e : LoadError} :
    opened ⟨request.config⟩ r.targets t = .ok p → loaded p.modelPath t = .error e → Refused r request t
  | printing {p : Project} {model : Model} {o : String × Path} {e : PrintError} :
    opened ⟨request.config⟩ r.targets t = .ok p → loaded p.modelPath t = .ok model →
      o ∈ p.selected request.targets → FailsToPrint r ⟨version, model⟩ o e → Refused r request t

/-- What is left of a refusal when the project is open and the model loaded. -/
theorem Refused.not_printed {p : Project} {model : Model} (h : Refused r request t)
    (htargets : ∀ target ∈ request.targets, target ∈ r.targets)
    (hopened : opened ⟨request.config⟩ r.targets t = .ok p) (hloaded : loaded p.modelPath t = .ok model) :
    ∃ e, p.printed r ⟨version, model⟩ request.targets = .error e := by
  cases h with
  | target hmem hnot => exact absurd (htargets _ hmem) hnot
  | config herror =>
    rw [hopened] at herror
    cases herror
  | model hok herror =>
    rw [hopened] at hok
    cases hok
    rw [hloaded] at herror
    cases herror
  | printing hok hok' ho hfails =>
    rw [hopened] at hok
    cases hok
    rw [hloaded] at hok'
    cases hok'
    exact exists_printed_error ⟨_, ho, _, hfails⟩

/-- **A request that is refused** fails, and the tree is left alone. -/
theorem run_renderCommand_of_refused (h : Refused r request t) :
    ∃ chain, runCommand r request t = (.failed chain, t) := by
  obtain hfailed | ⟨p, model, t', htargets, hopened, hloaded, hrun⟩ := run_renderCommand_cases r request t
  · exact hfailed
  · obtain ⟨e, he⟩ := h.not_printed htargets hopened hloaded
    have hrender : runRender p r ⟨version, model⟩ ⟨request.targets, request.dryRun⟩ t = (.error e, t) :=
      runRender_of_error he
    rw [hrender] at hrun
    obtain ⟨_, chain, hresult, hrun⟩ | ⟨_, _, hresult, _⟩ := hrun
    · cases hresult
      exact ⟨chain, hrun⟩
    · cases hresult

/-- **A request that only shows** what would be written leaves the tree alone. -/
theorem run_renderCommand_dryRun (h : request.dryRun = true) : (runCommand r request t).2 = t := by
  obtain ⟨chain, hrun⟩ | ⟨p, model, t', -, -, -, hrun⟩ := run_renderCommand_cases r request t
  · rw [hrun]
  · have htree : (runRender p r ⟨version, model⟩ ⟨request.targets, request.dryRun⟩ t).2 = t := runRender_dryRun h
    obtain ⟨_, _, hrender, hrun⟩ | ⟨_, _, hrender, hrun⟩ := hrun <;>
    · rw [hrender] at htree
      rw [hrun]
      exact htree

/-! ## The whole -/

/-- A run of the program on a tree. -/
abbrev runOn (args : List String) (t : FileTree) : Outcome × FileTree :=
  (runProgram args : StateM FileTree Outcome).run t

theorem runOn_render {args : List String} (h : parseArguments args = some (.render request)) :
    runOn args t = runCommand .builtin request t := by
  rw [runOn, runProgram, h]

/-- **A failing run leaves the files alone.** A selected output without a printer ends a run, and so does one that
cannot be printed, of which the first one is reported; either way the tree is what it was, as it is when nothing is to
be written. If all outputs are printed, a file that cannot be written ends the run: the files are then those that are
there when the files before that one have been written. The command changes nothing if it fails before it writes, or
if nothing is to be written. -/
theorem render_leaves_files (p : Project) (r : Registry) (x : Export) (options : RenderOptions) (t : FileTree) :
    ((∃ o ∈ p.selected options.only, o.1 ∉ r.targets) →
      ∃ target, target ∉ r.targets ∧
        runRender p r x options t = (.error (.unknownTarget (.unknown target r.targets)), t)) ∧
    ((∀ o ∈ p.selected options.only, o.1 ∈ r.targets) →
      (∃ o ∈ p.selected options.only, ∃ reason, FailsToPrint r x o reason) →
      ∃ before o after reason, p.selected options.only = before ++ o :: after ∧
        (∀ b ∈ before, ∃ f, Prints r x b f) ∧ FailsToPrint r x o reason ∧
        runRender p r x options t = (.error (.aborted reason), t)) ∧
    (options.dryRun = true → (runRender p r x options t).2 = t) ∧
    (∀ before f after, List.Forall₂ (Prints r x) (p.selected options.only) (before ++ f :: after) →
      options.dryRun = false → ∀ t₁ t₂ reason, Written t before t₁ →
      runWriteFile f.path f.content t₁ = (.error reason, t₂) →
      runRender p r x options t = (.error (.unwritable f.path reason), t₂) ∧ SameFiles t₁ t₂) ∧
    (∀ args request, parseArguments args = some (.render request) →
      (Refused .builtin request t → (runOn args t).1.exitCode = 1 ∧ (runOn args t).2 = t) ∧
      (request.dryRun = true → (runOn args t).2 = t)) := by
  refine ⟨fun h => ?_, fun htargets h => ?_, runRender_dryRun,
    fun before f after hprinted hdry t₁ t₂ reason hbefore hf => ?_,
    fun args request hargs => ⟨fun hrefused => ?_, fun hdry => ?_⟩⟩
  · obtain ⟨_, o, _, _, _, hnot, hprinted⟩ := printed_unknown h
    exact ⟨o.1, hnot, runRender_of_error hprinted⟩
  · obtain ⟨before, o, after, reason, hselected, hbefore, hfails, hprinted⟩ := printed_aborted htargets h
    exact ⟨before, o, after, reason, hselected, hbefore, hfails, runRender_of_error hprinted⟩
  · rw [runRender_of_ok (printed_eq_ok.2 hprinted), if_neg (by simp [hdry])]
    exact ⟨run_writeAll_failing hbefore hf, sameFiles_of_writeFile hf⟩
  · obtain ⟨chain, hrun⟩ := run_renderCommand_of_refused hrefused
    rw [runOn_render hargs, hrun]
    exact ⟨rfl, rfl⟩
  · rw [runOn_render hargs]
    exact run_renderCommand_dryRun hdry

/-- A project whose second output has no file to go to. -/
def pathlessProject : Project where
  root := ⟨""⟩
  config := {
    model := ⟨"model.json"⟩
    outputs := [
      ⟨⟨"json", 0, 4⟩, ⟨⟨"a.json"⟩, 5, 6⟩⟩, ⟨⟨"lua", 12, 3⟩, ⟨⟨""⟩, 16, 0⟩⟩,
      ⟨⟨"json", 17, 4⟩, ⟨⟨"b.json"⟩, 22, 6⟩⟩] }

/-- A model with a table for the Lua output only, whose name is taken there. -/
def takenModel : Model where
  tables := [{ name := "Enum", tags := [".lua"] }]

/-- The first file of that project for an empty model. -/
def firstFile : PrintedFile where
  target := "json"
  path := ⟨"a.json"⟩
  content := "\x7b\n  \"Enum\": \x7b\x7d\n\x7d\n"

/-- The second file. -/
def secondFile : PrintedFile where
  target := "lua"
  path := ⟨""⟩
  content :=
    "-- Generated by tabula\n-- Version: 0.1.0\n\nlocal tab = \x7b\x7d\n\ntab.Enum = \x7b\x7d\n\nreturn tab\n"

theorem prints_pathlessProject : List.Forall₂ (Prints .builtin ⟨version, {}⟩) (pathlessProject.selected [])
    ([firstFile] ++ secondFile :: [{ firstFile with path := ⟨"b.json"⟩ }]) :=
  .cons ⟨.json, _, rfl, rfl, rfl⟩ (.cons ⟨.lua, _, rfl, rfl, rfl⟩ (.cons ⟨.json, _, rfl, rfl, rfl⟩ .nil))

/-- The project where one of its targets has no printer, with a model that has no Lua output, without writing, and
with a file that cannot be written behind one that can; a command for a target that does not exist, and one that writes
nothing. -/
theorem render_leaves_files_pathless :
    (∃ target, runRender pathlessProject ⟨[.json]⟩ ⟨version, {}⟩ {} {} =
      (.error (.unknownTarget (.unknown target ["json"])), {})) ∧
    (∃ reason, runRender pathlessProject .builtin ⟨version, takenModel⟩ {} {} = (.error (.aborted reason), {})) ∧
    (runRender pathlessProject .builtin ⟨version, {}⟩ { dryRun := true } {}).2 = {} ∧
    (∃ t₁ t₂, Written {} [firstFile] t₁ ∧
      runRender pathlessProject .builtin ⟨version, {}⟩ {} {} = (.error (.unwritable ⟨""⟩ .notFound), t₂) ∧
      SameFiles t₁ t₂) ∧
    ((runOn ["render", "-t", "xml"] {}).1.exitCode = 1 ∧ (runOn ["render", "-t", "xml"] {}).2 = {}) ∧
    (runOn ["render", "--dry-run"] {}).2 = {} := by
  have hmissing : ∃ o ∈ pathlessProject.selected [], o.1 ∉ (⟨[.json]⟩ : Registry).targets := by
    decide +kernel
  have hknown : ∀ o ∈ pathlessProject.selected [], o.1 ∈ Registry.builtin.targets := by
    decide +kernel
  have hfails : ∃ o ∈ pathlessProject.selected [], ∃ reason, FailsToPrint .builtin ⟨version, takenModel⟩ o reason :=
    ⟨("lua", ⟨""⟩), by decide +kernel, ⟨"lua", .tables, .nameClash "Enum" .table⟩, .lua, rfl, rfl⟩
  have hfirst : (runWriteFile firstFile.path firstFile.content {}).1 = .ok .written := by
    decide +kernel
  have hsecond : (runWriteFile secondFile.path secondFile.content
      (runWriteFile firstFile.path firstFile.content {}).2).1 = .error .notFound := by
    decide +kernel
  have hwritten : Written {} [firstFile] (runWriteFile firstFile.path firstFile.content {}).2 :=
    .cons (Prod.ext hfirst rfl) (.nil _)
  have hunknown : Refused .builtin ⟨"tabula.toml", ["xml"], false⟩ {} :=
    .target (List.mem_singleton.2 rfl) (by decide +kernel)
  have hxml : parseArguments ["render", "-t", "xml"] = some (.render ⟨"tabula.toml", ["xml"], false⟩) := by
    decide +kernel
  have hshow : parseArguments ["render", "--dry-run"] = some (.render ⟨"tabula.toml", [], true⟩) := by
    decide +kernel
  obtain ⟨target, -, htarget⟩ := (render_leaves_files pathlessProject ⟨[.json]⟩ ⟨version, {}⟩ {} {}).1 hmissing
  obtain ⟨_, _, _, reason, -, -, -, hreason⟩ :=
    (render_leaves_files pathlessProject .builtin ⟨version, takenModel⟩ {} {}).2.1 hknown hfails
  have hdry := (render_leaves_files pathlessProject .builtin ⟨version, {}⟩ { dryRun := true } {}).2.2.1 rfl
  obtain ⟨-, -, -, hwriting, hcommand⟩ := render_leaves_files pathlessProject .builtin ⟨version, {}⟩ {} {}
  exact ⟨⟨target, htarget⟩, ⟨reason, hreason⟩, hdry,
    ⟨_, _, hwritten, hwriting _ _ _ prints_pathlessProject rfl _ _ _ hwritten (Prod.ext hsecond rfl)⟩,
    (hcommand _ _ hxml).1 hunknown, (hcommand _ _ hshow).2 rfl⟩

end TableExport.CommandLine
