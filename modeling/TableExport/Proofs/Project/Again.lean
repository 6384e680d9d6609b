import TableExport.Proofs.Project.Render

/-!
# Rendering again

A run that succeeds leaves every output in its file, if no two outputs have the same file. A second run finds all of
them up to date and changes nothing. A file is also left alone by the first run if it holds the output already, unless
its path leads through a directory that is not there when its turn comes: then it cannot be read, and it is written
again after the directory was made.

- `Rendered` goes through files that are written one after the other with the status that each of them gets;
  `Rendered.changesAt` is what they change, `Rendered.upToDate` what they hold in the end, and `Rendered.status_eq` says
  which of them are left alone.
- `render_settles` is a whole run and the one after it, `not_unchanged_detour` a file that is written although it holds
  the output.
-/

namespace TableExport.Project

open FileTree

variable {r : Registry} {x : Export} {p : Project} {o : String × Path} {t t' : FileTree} {files : List RenderedFile}

/-! ## Printed files -/

theorem target_of_get {target : String} {printer : Printer} (h : r.get target = .ok printer) :
    printer.target = target := by
  rw [Registry.get] at h
  split at h
  · rename_i hfind
    cases h
    simpa using List.find?_some hfind
  · cases h

theorem target_of_print {printer : Printer} {out : Output} (h : printer.print x = .ok out) :
    out.target = printer.target := by
  rw [Printer.print] at h
  split at h
  · cases h
  · cases h
    rfl

/-- A printed file goes to the path of its output, and its content is what the printer of its target produces. -/
theorem Prints.origin {f : PrintedFile} (h : Prints r x o f) : (f.target, f.path) = o ∧
    ∃ printer out, r.get f.target = .ok printer ∧ printer.print x = .ok out ∧ f.content = out.content := by
  obtain ⟨printer, out, hget, hprint, rfl⟩ := h
  have htarget : out.target = o.1 := (target_of_print hprint).trans (target_of_get hget)
  refine ⟨by rw [htarget], printer, out, ?_, hprint, rfl⟩
  rw [← hget, ← htarget]

theorem origins_of_prints {outputs : List (String × Path)} {fs : List PrintedFile}
    (h : List.Forall₂ (Prints r x) outputs fs) : fs.map (fun f => (f.target, f.path)) = outputs ∧
      ∀ f ∈ fs, ∃ printer out, r.get f.target = .ok printer ∧ printer.print x = .ok out ∧
        f.content = out.content := by
  induction h with
  | nil => exact ⟨rfl, fun f hf => nomatch hf⟩
  | cons hfirst _ ih =>
    obtain ⟨horigin, hcontent⟩ := hfirst.origin
    exact ⟨by rw [List.map_cons, horigin, ih.1], List.forall_mem_cons.2 ⟨hcontent, ih.2⟩⟩

/-! ## Files that are written in a row -/

/-- Files are written one after the other, from one tree to another, and each gets the status of its write. -/
inductive Rendered : FileTree → List RenderedFile → FileTree → Prop
  | nil (t : FileTree) : Rendered t [] t
  | cons {t₁ t₂ t₃ : FileTree} {f : PrintedFile} {outcome : WriteOutcome} {fs : List RenderedFile} :
    runWriteFile f.path f.content t₁ = (.ok outcome, t₂) → Rendered t₂ fs t₃ →
      Rendered t₁ ({ toPrintedFile := f, status := outcome.status } :: fs) t₃

/-- No two of the files have the same location. -/
def Apart (t : FileTree) (files : List RenderedFile) : Prop :=
  files.Pairwise fun f f' => t.locate f.path ≠ t.locate f'.path

/-- The second phase, when no file fails. -/
theorem rendered_of_writeAll {fs : List PrintedFile} (h : runWriteAll fs t = (.ok files, t')) :
    Rendered t files t' ∧ files.map (·.toPrintedFile) = fs := by
  induction fs generalizing t files with
  | nil =>
    cases h
    exact ⟨.nil _, rfl⟩
  | cons f fs ih =>
    rw [run_writeAll_cons] at h
    cases hwrite : runWriteFile f.path f.content t with
    | mk outcome t₁ =>
      rw [hwrite] at h
      cases outcome with
      | error e => cases h
      | ok outcome =>
        cases hrest : runWriteAll fs t₁ with
        | mk rest t₂ =>
          simp only [hrest] at h
          cases rest with
          | error e => cases h
          | ok rest =>
            cases h
            obtain ⟨hrendered, hfiles⟩ := ih hrest
            exact ⟨.cons hwrite hrendered, by rw [List.map_cons, hfiles]⟩

/-- The second phase, when all files are up to date. -/
theorem runWriteAll_upToDate {fs : List PrintedFile} (h : ∀ f ∈ fs, t.Leads f.path ∧ t.HoldsText f.path f.content) :
    runWriteAll fs t = (.ok (fs.map fun f => { toPrintedFile := f, status := .unchanged }), t) := by
  induction fs with
  | nil => rfl
  | cons f fs ih =>
    obtain ⟨⟨hleads, hholds⟩, hrest⟩ := List.forall_mem_cons.1 h
    rw [run_writeAll_cons, writeFile_upToDate hleads hholds]
    simp only [ih hrest]
    rfl

theorem Rendered.written (h : Rendered t files t') : Written t (files.map (·.toPrintedFile)) t' := by
  induction h with
  | nil t => exact .nil t
  | cons hwrite _ ih => exact .cons hwrite ih

/-- **What is changed** are the files that are written. -/
theorem Rendered.changesAt (h : Rendered t files t') : ChangesAt t t' (files.map fun f => t.locate f.path) := by
  induction h with
  | nil t => exact .refl t _
  | @cons t₁ t₂ t₃ f outcome fs hwrite _ ih =>
    obtain ⟨hfirst, -⟩ := changesAt_writeFile hwrite
    have hlocate : (fs.map fun f => t₂.locate f.path) = fs.map fun f => t₁.locate f.path :=
      List.map_congr_left fun f _ => hfirst.stay.locate f.path
    rw [hlocate] at ih
    exact hfirst.trans ih

theorem Apart.of_stay (h : Apart t files) (hstay : Stay t t') : Apart t' files :=
  h.imp fun hne => by rwa [hstay.locate, hstay.locate]

theorem Apart.notMem {f : RenderedFile} (h : Apart t (f :: files)) :
    t.locate f.path ∉ files.map fun f => t.locate f.path := by
  rw [List.mem_map]
  rintro ⟨f', hf', heq⟩
  exact (List.pairwise_cons.1 h).1 f' hf' heq.symm

/-- **In the end** every file holds its content: later writes leave the earlier ones alone. -/
theorem Rendered.upToDate (h : Rendered t files t') (hapart : Apart t files) :
    ∀ f ∈ files, t'.Leads f.path ∧ t'.HoldsText f.path f.content := by
  induction h with
  | nil t => exact fun f hf => nomatch hf
  | @cons t₁ t₂ t₃ f outcome fs hwrite hrest ih =>
    obtain ⟨hfirst, hleads, hholds⟩ := changesAt_writeFile hwrite
    have hapart₂ := hapart.of_stay hfirst.stay
    refine List.forall_mem_cons.2 ⟨⟨hrest.changesAt.stay.leads hleads, ?_⟩, ih (List.pairwise_cons.1 hapart₂).2⟩
    exact (hrest.changesAt.holdsText hapart₂.notMem).2 hholds

/-- The turn of a file comes behind the files in front of it. -/
theorem Rendered.split {before after : List RenderedFile} {f : RenderedFile}
    (h : Rendered t (before ++ f :: after) t') : ∃ t₁ t₂ outcome, Rendered t before t₁ ∧
      runWriteFile f.path f.content t₁ = (.ok outcome, t₂) ∧ f.status = outcome.status := by
  induction before generalizing t with
  | nil =>
    cases h with
    | @cons _ t₂ _ _ outcome _ hwrite _ => exact ⟨t, t₂, outcome, .nil t, hwrite, rfl⟩
  | cons g before ih =>
    cases h with
    | cons hwrite hrest =>
      obtain ⟨t₁, t₂, outcome, hbefore, hturn⟩ := ih hrest
      exact ⟨t₁, t₂, outcome, .cons hwrite hbefore, hturn⟩

/-- **A file is left alone** exactly if it held its content at first, and its path leads to it when its turn comes. -/
theorem Rendered.status_eq {before after : List RenderedFile} {f : RenderedFile}
    (h : Rendered t (before ++ f :: after) t') (hapart : Apart t (before ++ f :: after)) :
    ∃ t₁, Rendered t before t₁ ∧
      (f.status = .unchanged ∧ t₁.Leads f.path ∧ t.HoldsText f.path f.content ∨
        f.status = .written ∧ ¬(t₁.Leads f.path ∧ t.HoldsText f.path f.content)) := by
  obtain ⟨t₁, t₂, outcome, hbefore, hwrite, hstatus⟩ := h.split
  refine ⟨t₁, hbefore, ?_⟩
  have hnotMem : t.locate f.path ∉ before.map fun f => t.locate f.path := by
    rw [List.mem_map]
    rintro ⟨g, hg, heq⟩
    exact (List.pairwise_append.1 hapart).2.2 g hg f List.mem_cons_self heq
  rw [hstatus, ← hbefore.changesAt.holdsText hnotMem]
  have houtcome := writeFile_outcome hwrite
  cases outcome with
  | unchanged => exact .inl ⟨rfl, houtcome.1 rfl⟩
  | written => exact .inr ⟨rfl, fun hread => nomatch houtcome.2 hread⟩

/-! ## Runs -/

/-- **A run that succeeds**, of a project whose outputs denote different files. It lists the outputs that are asked for,
each with what its printer produces; afterwards their files hold that, and no other file is changed. A file is left
alone exactly if it held its content before and could be reached when its turn came, which is so for every file that
could be reached before. A second run finds all files up to date and leaves the tree as it is, and a run without
writing lists the same. -/
theorem render_settles {options : RenderOptions} (hapart : p.outputs.Pairwise fun o o' => t.locate o.2 ≠ t.locate o'.2)
    (hdry : options.dryRun = false) (h : runRender p r x options t = (.ok files, t')) :
    files.map (fun f => (f.target, f.path)) = p.selected options.only ∧
      (∀ f ∈ files, ∃ printer out, r.get f.target = .ok printer ∧ printer.print x = .ok out ∧
        f.content = out.content) ∧
      (∀ f ∈ files, t'.readText f.path = .ok f.content ∧ t'.HoldsText f.path f.content) ∧
      (∀ l, (∀ f ∈ files, l ≠ t.locate f.path) → ∀ bytes,
        t'.lookup l = some (.file bytes) ↔ t.lookup l = some (.file bytes)) ∧
      (∀ before f after, files = before ++ f :: after → ∃ t₁, Written t (before.map (·.toPrintedFile)) t₁ ∧
        (f.status = .unchanged ∧ t₁.Leads f.path ∧ t.HoldsText f.path f.content ∨
          f.status = .written ∧ ¬(t₁.Leads f.path ∧ t.HoldsText f.path f.content))) ∧
      (∀ f ∈ files, t.Leads f.path → (f.status = .unchanged ↔ t.HoldsText f.path f.content)) ∧
      runRender p r x options t' = (.ok (files.map fun f => { f with status := .unchanged }), t') ∧
      ∀ t'', runRender p r x { options with dryRun := true } t'' =
        (.ok (files.map fun f => { f with status := .preview }), t'') := by
  cases hprinted : p.printed r x options.only with
  | error e =>
    rw [runRender_of_error hprinted] at h
    cases h
  | ok fs =>
    rw [runRender_of_ok hprinted, if_neg (by simp [hdry])] at h
    obtain ⟨hrendered, rfl⟩ := rendered_of_writeAll h
    obtain ⟨horigins, hcontents⟩ := origins_of_prints (printed_eq_ok.1 hprinted)
    rw [List.map_map] at horigins
    have hfiles : Apart t files := by
      have hselected := hapart.filter (fun o => options.only.isEmpty || options.only.contains o.1)
      rw [← selected, ← horigins, List.pairwise_map] at hselected
      exact hselected
    have hupToDate := hrendered.upToDate hfiles
    refine ⟨horigins, fun f hf => hcontents _ (List.mem_map_of_mem hf),
      fun f hf => ⟨readText_eq_ok.2 (hupToDate f hf), (hupToDate f hf).2⟩, fun l hl => ?_,
      fun before f after hsplit => ?_, fun f hf hleads => ?_, ?_, fun t'' => ?_⟩
    · refine hrendered.changesAt.file l ?_
      rw [List.mem_map]
      rintro ⟨f, hf, rfl⟩
      exact hl f hf rfl
    · subst hsplit
      obtain ⟨t₁, hbefore, hstatus⟩ := hrendered.status_eq hfiles
      exact ⟨t₁, hbefore.written, hstatus⟩
    · obtain ⟨before, after, rfl⟩ := List.append_of_mem hf
      obtain ⟨t₁, hbefore, hstatus⟩ := hrendered.status_eq hfiles
      have hturn := hbefore.changesAt.stay.leads hleads
      rcases hstatus with ⟨hstatus, -, hholds⟩ | ⟨hstatus, hnot⟩
      · exact iff_of_true hstatus hholds
      · refine iff_of_false ?_ fun hholds => hnot ⟨hturn, hholds⟩
        rw [hstatus]
        exact nofun
    · have hcontents : ∀ f ∈ files.map (·.toPrintedFile), t'.Leads f.path ∧ t'.HoldsText f.path f.content := by
        simpa using hupToDate
      have hagain := runWriteAll_upToDate hcontents
      rw [runRender_of_ok hprinted, if_neg (by simp [hdry]), hagain, List.map_map]
      rfl
    · have honly : p.printed r x ({ options with dryRun := true } : RenderOptions).only =
          .ok (files.map (·.toPrintedFile)) := hprinted
      rw [runRender_of_ok honly, if_pos rfl, List.map_map]
      rfl

/-- A project with an output in a directory that is not there at first. -/
def plainProject : Project where
  root := ⟨""⟩
  config := {
    model := ⟨"model.json"⟩
    outputs := [⟨⟨"json", 0, 4⟩, ⟨⟨"out/config.json"⟩, 5, 15⟩⟩, ⟨⟨"lua", 20, 3⟩, ⟨⟨"config.lua"⟩, 24, 10⟩⟩] }

/-- The second run of that project with an empty model leaves both files alone. -/
theorem render_settles_plainProject : ∃ files t',
    runRender plainProject .builtin ⟨"0.1.0", {}⟩ {} {} = (.ok files, t') ∧ files.length = 2 ∧
      runRender plainProject .builtin ⟨"0.1.0", {}⟩ {} t' =
        (.ok (files.map fun f => { f with status := .unchanged }), t') := by
  have hrun : (runRender plainProject .builtin ⟨"0.1.0", {}⟩ {} {}).1.toOption.map (·.length) = some 2 := by
    decide +kernel
  cases h : runRender plainProject .builtin ⟨"0.1.0", {}⟩ {} {} with
  | mk result t' =>
    cases result with
    | error e =>
      rw [h] at hrun
      cases hrun
    | ok files =>
      rw [h] at hrun
      have hagain := (render_settles (by decide +kernel) rfl h).2.2.2.2.2.2.1
      exact ⟨files, t', rfl, Option.some.inj hrun, hagain⟩

/-- A project whose output lies behind a directory that is not there at first, and that its path leaves again. -/
def detourProject : Project where
  root := ⟨""⟩
  config := {
    model := ⟨"model.json"⟩
    outputs := [⟨⟨"json", 0, 4⟩, ⟨⟨"new/../b.json"⟩, 5, 13⟩⟩] }

/-- What that project prints for an empty model. -/
def detourFile : PrintedFile where
  target := "json"
  path := ⟨"new/../b.json"⟩
  content := "\x7b\n  \"Enum\": \x7b\x7d\n\x7d\n"

/-- A tree in which the file of the output has that content already. -/
def detourTree : FileTree :=
  ({} : FileTree).set ["b.json"] (.file detourFile.content.toUTF8)

/-- **The file is written** although it holds its content: it cannot be read before the directory is made. -/
theorem not_unchanged_detour : detourTree.HoldsText detourFile.path detourFile.content ∧
    (runRender detourProject .builtin ⟨"0.1.0", {}⟩ {} detourTree).1 =
      .ok [{ toPrintedFile := detourFile, status := .written }] := by
  refine ⟨?_, by decide +kernel⟩
  have hplace : detourTree.locate detourFile.path = ["b.json"] := by
    decide +kernel
  rw [HoldsText, hplace]
  exact lookup_set_self _ (by simp) _

end TableExport.Project
