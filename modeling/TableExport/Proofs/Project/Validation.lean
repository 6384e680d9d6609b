import TableExport.Proofs.Files.Respelling
import TableExport.Proofs.Project.Outputs
import TableExport.Proofs.Project.Render

/-!
# What is wrong with a configuration

The outputs of a configuration are looked at in order. The first one that is not admissible behind those in front of it
is reported: its target may have no printer, or its path may be that of an output in front of it.

- `Admissible` says of outputs that nothing is wrong with them, `Refused` what is wrong with one of them behind others.
- `firstFault?_eq_some` finds the first one that is refused.
- `exists_printer_of_opened` follows the targets of a project into the registry that it was opened with.
- `parse_exact` is the whole: which configurations are accepted, what is reported of the others, and what a project can
  rely on.
-/

namespace TableExport

namespace Config

/-- Every target is known, and no two paths are the same. -/
def Admissible (targets : List String) (outputs : List OutputSpec) : Prop :=
  (∀ o ∈ outputs, o.target.value ∈ targets) ∧ outputs.Pairwise Apart

/-- What is wrong with an output behind others, and the offsets and lengths of what is to be pointed at. An unknown
target comes first; a path is held against the first output that has it. -/
inductive Refused (targets : List String) (before : List OutputSpec) (o : OutputSpec) :
    ConfigError → List (Nat × Nat) → Prop
  | target : o.target.value ∉ targets →
      Refused targets before o (.unknownTarget o.target targets) [(o.target.offset, o.target.length)]
  | path {earlier between : List OutputSpec} {first : OutputSpec} : o.target.value ∈ targets →
      before = earlier ++ first :: between → (∀ b ∈ earlier, Apart b o) →
      first.path.value.sameAs o.path.value = true →
      Refused targets before o (.duplicateOutput first.path o.path)
        [(first.path.offset, first.path.length), (o.path.offset, o.path.length)]

/-- What is wrong with an output behind others, if anything is. -/
def fault? (targets : List String) (before : List OutputSpec) (o : OutputSpec) : Option ConfigError :=
  if !targets.contains o.target.value then some (.unknownTarget o.target targets)
  else (before.find? (·.path.value.sameAs o.path.value)).map fun first => .duplicateOutput first.path o.path

variable {targets : List String} {before outputs : List OutputSpec} {o : OutputSpec} {e : ConfigError}

theorem Refused.labels {ranges : List (Nat × Nat)} (h : Refused targets before o e ranges) :
    e.labels.map (fun l => (l.offset, l.length)) = ranges := by
  cases h <;> rfl

theorem fault?_eq_some : fault? targets before o = some e ↔ ∃ ranges, Refused targets before o e ranges := by
  rw [fault?]
  constructor
  · intro h
    split at h
    · rename_i hunknown
      cases h
      exact ⟨_, .target (by simpa using hunknown)⟩
    · rename_i hknown
      obtain ⟨first, hfind, rfl⟩ := Option.map_eq_some_iff.1 h
      obtain ⟨hsame, earlier, between, hbefore, hearlier⟩ := List.find?_eq_some_iff_append.1 hfind
      exact ⟨_, .path (by simpa using hknown) hbefore (fun b hb => by simpa [Apart] using hearlier b hb) hsame⟩
  · rintro ⟨_, hunknown | @⟨earlier, between, first, hknown, hbefore, hearlier, hsame⟩⟩
    · simp [hunknown]
    · have hfind : before.find? (·.path.value.sameAs o.path.value) = some first :=
        List.find?_eq_some_iff_append.2
          ⟨hsame, earlier, between, hbefore, fun b hb => by simpa [Apart] using hearlier b hb⟩
      simp [hknown, hfind]

theorem firstFaultAfter?_cons (os : List OutputSpec) : firstFaultAfter? targets before (o :: os) =
    (fault? targets before o).or (firstFaultAfter? targets (before ++ [o]) os) := by
  rw [firstFaultAfter?, fault?]
  split
  · rfl
  · cases before.find? (·.path.value.sameAs o.path.value) <;> rfl

/-- Behind outputs that were looked at, the first output that is refused is reported. -/
theorem firstFaultAfter?_eq_some : firstFaultAfter? targets before outputs = some e ↔
    ∃ front o back, outputs = front ++ o :: back ∧ firstFaultAfter? targets before front = none ∧
      fault? targets (before ++ front) o = some e := by
  induction outputs generalizing before with
  | nil => simp [firstFaultAfter?]
  | cons o os ih =>
    rw [firstFaultAfter?_cons, Option.or_eq_some_iff, ih]
    constructor
    · rintro (hfault | ⟨hnone, front, o', back, rfl, hfront, hfault⟩)
      · exact ⟨[], o, os, rfl, rfl, by rwa [List.append_nil]⟩
      · refine ⟨o :: front, o', back, rfl, ?_, ?_⟩
        · rw [firstFaultAfter?_cons, hnone, hfront, Option.or_none]
        · rwa [List.append_assoc] at hfault
    · rintro ⟨front, o', back, hos, hfront, hfault⟩
      cases front with
      | nil =>
        cases hos
        exact .inl (by rwa [List.append_nil] at hfault)
      | cons p front =>
        cases hos
        rw [firstFaultAfter?_cons, Option.or_eq_none_iff] at hfront
        exact .inr ⟨hfront.1, front, o', back, rfl, hfront.2, by rwa [List.append_assoc]⟩

/-- **The first output that is refused** behind admissible ones is reported. -/
theorem firstFault?_eq_some : firstFault? targets outputs = some e ↔
    ∃ before o after ranges, outputs = before ++ o :: after ∧ Admissible targets before ∧
      Refused targets before o e ranges ∧ e.labels.map (fun l => (l.offset, l.length)) = ranges := by
  rw [firstFault?, firstFaultAfter?_eq_some]
  simp only [List.nil_append, fault?_eq_some]
  constructor
  · rintro ⟨before, o, after, houtputs, hbefore, ranges, hrefused⟩
    exact ⟨before, o, after, ranges, houtputs, firstFault?_eq_none.1 hbefore, hrefused, hrefused.labels⟩
  · rintro ⟨before, o, after, ranges, houtputs, hbefore, hrefused, -⟩
    exact ⟨before, o, after, houtputs, firstFault?_eq_none.2 hbefore, ranges, hrefused⟩

variable {content : String} {c : Config}

theorem parse_eq_error (h : read content = .ok c) :
    parse content targets = .error e ↔ firstFault? targets c.outputs = some e := by
  cases hfault : firstFault? targets c.outputs with
  | none =>
    rw [parse_eq_ok.2 ⟨h, hfault⟩]
    exact iff_of_false nofun nofun
  | some e' =>
    have hparse : parse content targets = .error e' := by
      rw [parse, h]
      simp only [bind, Except.bind, hfault]
      rfl
    rw [hparse, Except.error.injEq, Option.some.injEq]

end Config

/-! ## The targets of a project -/

open Config

/-- A project that was opened has a configuration that was parsed. -/
theorem parsed_of_opened {path : Path} {targets : List String} {t t' : FileTree} {p : Project}
    (h : (openProject path targets : StateM FileTree (Except ConfigError Project)).run t = (.ok p, t')) :
    ∃ content, parse content targets = .ok p.config := by
  rw [openProject, StateT.run_bind, run_readText] at h
  cases hread : t.readText path with
  | error e =>
    rw [hread] at h
    cases h
  | ok content =>
    rw [hread] at h
    obtain ⟨c, hc, heq⟩ := bind_eq_ok.1 (Prod.mk.inj h).1
    rw [pure_eq_ok] at heq
    subst heq
    exact ⟨content, hc⟩

/-- Every output of a project has a printer in the registry that the project was opened with. -/
theorem exists_printer_of_opened {path : Path} {r : Registry} {t t' : FileTree} {p : Project}
    (h : (openProject path r.targets : StateM FileTree (Except ConfigError Project)).run t = (.ok p, t')) :
    ∀ o ∈ p.outputs, ∃ printer, r.get o.1 = .ok printer := by
  obtain ⟨content, hparse⟩ := parsed_of_opened h
  obtain ⟨htargets, -⟩ := firstFault?_eq_none.1 (parse_eq_ok.1 hparse).2
  intro o ho
  obtain ⟨spec, hspec, rfl⟩ := List.mem_map.1 ho
  exact Registry.mem_targets.1 (htargets spec hspec)

namespace Project

/-- Where every output has a printer, an output can only fail to be printed. -/
theorem printed_ne_unknownTarget {r : Registry} {p : Project} (h : ∀ o ∈ p.outputs, ∃ printer, r.get o.1 = .ok printer)
    (x : Export) (only : List String) (e : RegistryError) : p.printed r x only ≠ .error (.unknownTarget e) := by
  have htargets : ∀ o ∈ p.selected only, o.1 ∈ r.targets := fun o ho =>
    Registry.mem_targets.2 (h o (List.mem_of_mem_filter ho))
  intro hprinted
  rw [printed_eq htargets] at hprinted
  obtain ⟨before, o, after, hselected, -, ho⟩ := mapM_eq_error.1 hprinted
  obtain ⟨reason, hne, -⟩ := (printOutput_eq_error (htargets o (by simp [hselected]))).1 ho
  cases hne

/-- Writing files asks for no printer. -/
theorem runWriteAll_ne_unknownTarget (fs : List PrintedFile) (t : FileTree) (e : RegistryError) :
    (runWriteAll fs t).1 ≠ .error (.unknownTarget e) := by
  induction fs generalizing t with
  | nil => exact nofun
  | cons f fs ih =>
    rw [run_writeAll_cons]
    cases hwrite : runWriteFile f.path f.content t with
    | mk outcome t' =>
      cases outcome with
      | error reason => exact nofun
      | ok outcome =>
        have hrest := ih t'
        cases hfs : runWriteAll fs t' with
        | mk rest t'' =>
          rw [hfs] at hrest
          cases rest with
          | error reason => simpa only [hfs] using hrest
          | ok files => simp only [hfs, ne_eq, reduceCtorEq, not_false_eq_true]

/-- Where every output has a printer, no rendering asks for one in vain. -/
theorem runRender_ne_unknownTarget {r : Registry} {p : Project}
    (h : ∀ o ∈ p.outputs, ∃ printer, r.get o.1 = .ok printer) (x : Export) (options : RenderOptions) (t : FileTree)
    (e : RegistryError) : (runRender p r x options t).1 ≠ .error (.unknownTarget e) := by
  have hne := printed_ne_unknownTarget h x options.only e
  cases hprinted : p.printed r x options.only with
  | error reason =>
    rw [hprinted] at hne
    rw [runRender_of_error hprinted]
    intro heq
    exact hne (congrArg Except.error (Except.error.inj heq))
  | ok files =>
    rw [runRender_of_ok hprinted]
    split
    · exact nofun
    · exact runWriteAll_ne_unknownTarget files t e

end Project

namespace Config

/-- **A configuration is accepted** if and only if its outputs are admissible; otherwise the first output that is
refused behind admissible ones is reported, and pointed at. Paths are the same if one can be respelt as the other. So in
a project that was opened with the targets of a registry every output has a printer there, and no rendering asks for one
in vain. -/
theorem parse_exact (targets : List String) :
    (∀ content c, read content = .ok c →
      (∀ c', parse content targets = .ok c' ↔ c' = c ∧ Admissible targets c.outputs) ∧
      ∀ e, parse content targets = .error e ↔ ∃ before o after ranges, c.outputs = before ++ o :: after ∧
        Admissible targets before ∧ Refused targets before o e ranges ∧
        e.labels.map (fun l => (l.offset, l.length)) = ranges) ∧
    (∀ p q : Path, p.sameAs q = true ↔ p.Respelt q) ∧
    ∀ (r : Registry) (path : Path) (t t' : FileTree) (p : Project),
      (openProject path r.targets : StateM FileTree (Except ConfigError Project)).run t = (.ok p, t') →
      (∀ o ∈ p.outputs, ∃ printer, r.get o.1 = .ok printer) ∧
      ∀ x options tree e, (Project.runRender p r x options tree).1 ≠ .error (.unknownTarget e) := by
  refine ⟨fun content c hread => ⟨fun c' => ?_, fun e => ?_⟩, fun p q => Path.sameAs_iff_respelt,
    fun r path t t' p hopen => ⟨exists_printer_of_opened hopen, ?_⟩⟩
  · rw [parse_eq_ok, hread, Except.ok.injEq, firstFault?_eq_none]
    constructor
    · rintro ⟨rfl, h⟩
      exact ⟨rfl, h⟩
    · rintro ⟨rfl, h⟩
      exact ⟨rfl, h⟩
  · rw [parse_eq_error hread, firstFault?_eq_some]
  · exact Project.runRender_ne_unknownTarget (exists_printer_of_opened hopen)

/-- A working directory with a configuration that has two outputs. -/
def dottedTree : FileTree :=
  ({} : FileTree).set ["tabula.toml"] (.file Project.dottedConfig.toUTF8)

theorem readText_dotted : dottedTree.readText ⟨"tabula.toml"⟩ = .ok Project.dottedConfig := by
  have hplace : (dottedTree.resolve ⟨"tabula.toml"⟩).toOption = some ["tabula.toml"] := by
    decide +kernel
  cases hresolve : dottedTree.resolve ⟨"tabula.toml"⟩ with
  | error e =>
    rw [hresolve] at hplace
    cases hplace
  | ok l =>
    rw [hresolve] at hplace
    have hlocate : dottedTree.locate ⟨"tabula.toml"⟩ = ["tabula.toml"] :=
      (FileTree.locate_of_resolve hresolve).symm.trans (Option.some.inj hplace)
    refine FileTree.readText_eq_ok.2 ⟨⟨l, hresolve⟩, ?_⟩
    rw [FileTree.HoldsText, hlocate]
    exact FileTree.lookup_set_self _ (by simp) _

theorem openProject_dotted :
    (openProject ⟨"tabula.toml"⟩ Registry.builtin.targets :
      StateM FileTree (Except ConfigError Project)).run dottedTree =
        (.ok ⟨⟨""⟩, ⟨⟨"model.json"⟩, Project.dottedOutputs⟩⟩, dottedTree) := by
  have hroot : (Path.mk "tabula.toml").parent?.getD ⟨""⟩ = ⟨""⟩ := by
    decide +kernel
  have htargets : Registry.builtin.targets = ["lua", "json"] := by
    decide +kernel
  have hcontent := Project.ofContent_dotted ⟨"tabula.toml"⟩
  rw [hroot] at hcontent
  rw [htargets, openProject, StateT.run_bind, run_readText, readText_dotted]
  exact congrArg (·, dottedTree) hcontent

/-- Where only the target of its first output is known, the second output of that configuration is refused. With all
printers of the program a project can be opened, and renders without asking for a printer in vain. -/
theorem parse_exact_dotted : read Project.dottedConfig = .ok ⟨⟨"model.json"⟩, Project.dottedOutputs⟩ ∧
    parse Project.dottedConfig ["lua"] = .error (.unknownTarget ⟨"json", 82, 6⟩ ["lua"]) ∧
    ∃ p, (openProject ⟨"tabula.toml"⟩ Registry.builtin.targets :
        StateM FileTree (Except ConfigError Project)).run dottedTree = (.ok p, dottedTree) ∧
      ∀ x options tree e, (Project.runRender p .builtin x options tree).1 ≠ .error (.unknownTarget e) := by
  have hread := (parse_eq_ok.1 Project.parse_dottedConfig).1
  have hadmissible : Admissible ["lua"] [⟨⟨"lua", 37, 5⟩, ⟨⟨"out.txt"⟩, 18, 9⟩⟩] :=
    ⟨by simp, List.pairwise_singleton _ _⟩
  refine ⟨hread, ?_, _, openProject_dotted, ?_⟩
  · exact (((parse_exact ["lua"]).1 _ _ hread).2 _).2
      ⟨_, _, [], _, rfl, hadmissible, .target (by decide), rfl⟩
  · exact ((parse_exact ["lua"]).2.2 .builtin _ _ _ _ openProject_dotted).2

end Config

end TableExport
