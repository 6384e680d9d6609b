import TableExport.Project.Render
import TableExport.Proofs.Files.Writing
import TableExport.Proofs.Printer.Registry

/-!
# Rendering in two phases

Rendering prints all outputs that are asked for and then writes their files. The first phase does not touch the files,
and it fails at the first output, in their order, whose target has no printer or, if all have one, that cannot be
printed. The second phase stops at the first file that cannot be written.

- `Prints` and `FailsToPrint` say what becomes of one output in the first phase, `printed_eq_ok` and `printed_aborted`
  what becomes of all.
- `Written` goes through files that are written one after the other; `run_writeAll_failing` is the second phase when
  one of them fails.
- `runRender_of_error` and `runRender_of_ok` put the phases together, `runRender_dryRun` is the run that writes nothing.
-/

namespace TableExport

namespace Project

variable {r : Registry} {x : Export} {p : Project} {only : List String} {o : String × Path}

/-! ## Printing -/

/-- The output is printed, and that is its file. -/
def Prints (r : Registry) (x : Export) (o : String × Path) (f : PrintedFile) : Prop :=
  ∃ printer out, r.get o.1 = .ok printer ∧ printer.print x = .ok out ∧ f = ⟨out.target, o.2, out.content⟩

/-- The output has a printer, and that fails. -/
def FailsToPrint (r : Registry) (x : Export) (o : String × Path) (e : PrintError) : Prop :=
  ∃ printer, r.get o.1 = .ok printer ∧ printer.print x = .error e

theorem Prints.not_fails {f : PrintedFile} {e : PrintError} (h : Prints r x o f) : ¬ FailsToPrint r x o e := by
  rintro ⟨printer, hget, hprint⟩
  obtain ⟨printer', out, hget', hprint', -⟩ := h
  rw [hget] at hget'
  cases hget'
  rw [hprint] at hprint'
  cases hprint'

/-- Finds the printer of an output and prints the output. -/
def printOutput (r : Registry) (x : Export) (o : String × Path) : Except RenderFailure PrintedFile :=
  findJob r o >>= printJob x

theorem findJob_eq_ok {job : Printer × Path} :
    findJob r o = .ok job ↔ ∃ printer, r.get o.1 = .ok printer ∧ job = (printer, o.2) := by
  rw [findJob]
  cases r.get o.1 <;> simp [eq_comm]

theorem findJob_eq_error {e : RenderFailure} :
    findJob r o = .error e ↔ o.1 ∉ r.targets ∧ e = .unknownTarget (.unknown o.1 r.targets) := by
  rw [findJob]
  cases hget : r.get o.1 with
  | ok printer =>
    have hmem : o.1 ∈ r.targets := Registry.mem_targets.2 ⟨printer, hget⟩
    simp [hmem]
  | error reason =>
    obtain ⟨hnot, rfl⟩ := Registry.get_eq_error.1 hget
    simp [hnot, eq_comm]

theorem printOutput_eq_ok {f : PrintedFile} : printOutput r x o = .ok f ↔ Prints r x o f := by
  simp only [printOutput, bind_eq_ok, findJob_eq_ok, Prints]
  constructor
  · rintro ⟨job, ⟨printer, hget, rfl⟩, hjob⟩
    rw [printJob] at hjob
    split at hjob
    · rename_i out hprint
      cases hjob
      exact ⟨printer, out, hget, hprint, rfl⟩
    · cases hjob
  · rintro ⟨printer, out, hget, hprint, rfl⟩
    exact ⟨(printer, o.2), ⟨printer, hget, rfl⟩, by simp only [printJob, hprint]⟩

theorem printOutput_eq_error (h : o.1 ∈ r.targets) {e : RenderFailure} :
    printOutput r x o = .error e ↔ ∃ reason, e = .aborted reason ∧ FailsToPrint r x o reason := by
  obtain ⟨printer, hget⟩ := Registry.mem_targets.1 h
  have hjob : findJob r o = .ok (printer, o.2) := findJob_eq_ok.2 ⟨printer, hget, rfl⟩
  have hprinted : printOutput r x o = printJob x (printer, o.2) := by
    rw [printOutput, hjob]
    rfl
  simp only [hprinted, printJob, FailsToPrint, hget, Except.ok.injEq, exists_eq_left']
  cases printer.print x <;> simp [eq_comm]

theorem mem_targets_of_findJob {outputs : List (String × Path)} {jobs : List (Printer × Path)}
    (h : outputs.mapM (findJob r) = .ok jobs) : ∀ o ∈ outputs, o.1 ∈ r.targets := by
  intro o ho
  obtain ⟨job, -, hjob⟩ := exists_of_forall₂ (mapM_eq_ok.1 h) o ho
  obtain ⟨printer, hget, -⟩ := findJob_eq_ok.1 hjob
  exact Registry.mem_targets.2 ⟨printer, hget⟩

/-- If all targets have a printer, the outputs are printed one after the other. -/
theorem printed_eq (h : ∀ o ∈ p.selected only, o.1 ∈ r.targets) :
    p.printed r x only = (p.selected only).mapM (printOutput r x) := by
  cases hjobs : (p.selected only).mapM (findJob r) with
  | ok jobs =>
    rw [printed, hjobs]
    exact mapM_of_mapM hjobs
  | error e =>
    obtain ⟨before, o, after, hselected, -, ho⟩ := mapM_eq_error.1 hjobs
    exact absurd (h o (by simp [hselected])) (findJob_eq_error.1 ho).1

/-- **All outputs are printed** if and only if each of them is. -/
theorem printed_eq_ok {files : List PrintedFile} :
    p.printed r x only = .ok files ↔ List.Forall₂ (Prints r x) (p.selected only) files := by
  have hmapM (h : ∀ o ∈ p.selected only, o.1 ∈ r.targets) :
      p.printed r x only = .ok files ↔ List.Forall₂ (Prints r x) (p.selected only) files := by
    simp only [printed_eq h, mapM_eq_ok, printOutput_eq_ok]
  constructor
  · intro h
    obtain ⟨jobs, hjobs, -⟩ := bind_eq_ok.1 h
    exact (hmapM (mem_targets_of_findJob hjobs)).1 h
  · intro h
    refine (hmapM fun o ho => ?_).2 h
    obtain ⟨f, -, printer, out, hget, -⟩ := exists_of_forall₂ h o ho
    exact Registry.mem_targets.2 ⟨printer, hget⟩

/-- **A target without a printer** ends the printing, and the first one is named. -/
theorem printed_unknown (h : ∃ o ∈ p.selected only, o.1 ∉ r.targets) :
    ∃ before o after, p.selected only = before ++ o :: after ∧ (∀ b ∈ before, b.1 ∈ r.targets) ∧ o.1 ∉ r.targets ∧
      p.printed r x only = .error (.unknownTarget (.unknown o.1 r.targets)) := by
  cases hjobs : (p.selected only).mapM (findJob r) with
  | ok jobs =>
    obtain ⟨o, ho, hnot⟩ := h
    exact absurd (mem_targets_of_findJob hjobs o ho) hnot
  | error e =>
    obtain ⟨before, o, after, hselected, hbefore, ho⟩ := mapM_eq_error.1 hjobs
    obtain ⟨hnot, rfl⟩ := findJob_eq_error.1 ho
    refine ⟨before, o, after, hselected, fun b hb => ?_, hnot, ?_⟩
    · obtain ⟨job, hjob⟩ := hbefore b hb
      obtain ⟨printer, hget, -⟩ := findJob_eq_ok.1 hjob
      exact Registry.mem_targets.2 ⟨printer, hget⟩
    · rw [printed, hjobs]
      rfl

/-- The printing fails if one of the outputs does, whatever becomes of the others. -/
theorem exists_printed_error (h : ∃ o ∈ p.selected only, ∃ reason, FailsToPrint r x o reason) :
    ∃ e, p.printed r x only = .error e := by
  cases hprinted : p.printed r x only with
  | error e => exact ⟨e, rfl⟩
  | ok files =>
    obtain ⟨o, ho, reason, hfails⟩ := h
    obtain ⟨f, -, hprints⟩ := exists_of_forall₂ (printed_eq_ok.1 hprinted) o ho
    exact absurd hfails hprints.not_fails

/-- **An output that cannot be printed** ends the printing, and the first one is reported. -/
theorem printed_aborted (htargets : ∀ o ∈ p.selected only, o.1 ∈ r.targets)
    (h : ∃ o ∈ p.selected only, ∃ reason, FailsToPrint r x o reason) :
    ∃ before o after reason, p.selected only = before ++ o :: after ∧ (∀ b ∈ before, ∃ f, Prints r x b f) ∧
      FailsToPrint r x o reason ∧ p.printed r x only = .error (.aborted reason) := by
  obtain ⟨e, hprinted⟩ := exists_printed_error h
  have hmapM := hprinted
  rw [printed_eq htargets] at hmapM
  obtain ⟨before, o, after, hselected, hbefore, ho⟩ := mapM_eq_error.1 hmapM
  obtain ⟨reason, rfl, hfails⟩ := (printOutput_eq_error (htargets o (by simp [hselected]))).1 ho
  simp only [printOutput_eq_ok] at hbefore
  exact ⟨before, o, after, reason, hselected, hbefore, hfails, hprinted⟩

/-! ## Writing -/

open FileTree

/-- Files are written one after the other, from one tree to another; files that are up to date count as written. -/
inductive Written : FileTree → List PrintedFile → FileTree → Prop
  | nil (t : FileTree) : Written t [] t
  | cons {t₁ t₂ t₃ : FileTree} {f : PrintedFile} {fs : List PrintedFile} {outcome : WriteOutcome} :
    runWriteFile f.path f.content t₁ = (.ok outcome, t₂) →
      Written t₂ fs t₃ → Written t₁ (f :: fs) t₃

/-- The second phase on a tree. -/
abbrev runWriteAll (fs : List PrintedFile) (t : FileTree) : Except RenderFailure (List RenderedFile) × FileTree :=
  (writeAll fs : StateM FileTree (Except RenderFailure (List RenderedFile))).run t

theorem run_writeAll_cons (f : PrintedFile) (fs : List PrintedFile) (t : FileTree) :
    runWriteAll (f :: fs) t =
      match runWriteFile f.path f.content t with
      | (.error e, t') => (.error (.unwritable f.path e), t')
      | (.ok outcome, t') =>
        match runWriteAll fs t' with
        | (.error e, t'') => (.error e, t'')
        | (.ok rest, t'') => (.ok ({ toPrintedFile := f, status := outcome.status } :: rest), t'') := by
  rw [runWriteAll, writeAll, StateT.run_bind]
  cases hwrite : runWriteFile f.path f.content t with
  | mk outcome t' =>
    cases outcome with
    | error e => simp only [hwrite]; rfl
    | ok outcome =>
      simp only [hwrite]
      show StateT.run (writeAll fs >>= _) t' = _
      rw [StateT.run_bind]
      cases hrest : runWriteAll fs t' with
      | mk rest t'' =>
        cases rest with
        | error e => simp only [hrest]; rfl
        | ok rest => simp only [hrest]; rfl

/-- **A file that cannot be written** ends the second phase behind the files that were written before. -/
theorem run_writeAll_failing {t t₁ t₂ : FileTree} {before after : List PrintedFile} {f : PrintedFile} {e : FileError}
    (h : Written t before t₁)
    (hf : runWriteFile f.path f.content t₁ = (.error e, t₂)) :
    runWriteAll (before ++ f :: after) t = (.error (.unwritable f.path e), t₂) := by
  induction h with
  | nil t => rw [List.nil_append, run_writeAll_cons, hf]
  | @cons t t' t₁ g fs outcome hfirst _ ih =>
    rw [List.cons_append, run_writeAll_cons, hfirst]
    simp only [ih hf]

/-! ## Both phases -/

/-- A run of the two phases on a tree. -/
abbrev runRender (p : Project) (r : Registry) (x : Export) (options : RenderOptions) (t : FileTree) :
    Except RenderFailure (List RenderedFile) × FileTree :=
  (p.render r x options : StateM FileTree (Except RenderFailure (List RenderedFile))).run t

variable {options : RenderOptions} {t : FileTree}

/-- A failure of the first phase is reported, and the tree is left alone. -/
theorem runRender_of_error {e : RenderFailure} (h : p.printed r x options.only = .error e) :
    runRender p r x options t = (.error e, t) := by
  simp only [runRender, render, h]
  rfl

/-- The second phase follows the first one unless nothing is to be written. -/
theorem runRender_of_ok {files : List PrintedFile} (h : p.printed r x options.only = .ok files) :
    runRender p r x options t =
      if options.dryRun then (.ok (files.map fun f => { toPrintedFile := f, status := .preview }), t)
      else runWriteAll files t := by
  simp only [runRender, render, h]
  split <;> rfl

/-- Where nothing is to be written, the tree is left alone. -/
theorem runRender_dryRun (h : options.dryRun = true) : (runRender p r x options t).2 = t := by
  cases hprinted : p.printed r x options.only with
  | error e => rw [runRender_of_error hprinted]
  | ok files => rw [runRender_of_ok hprinted, if_pos h]

end Project

end TableExport
