import Mathlib
import TableExport.Project.Open
import TableExport.Proofs.Files.Path
import TableExport.Proofs.Project.Config

/-!
# The files of different outputs

A configuration compares the paths of its outputs as they are written; the files are found by the paths behind the
directory of the project. Two paths that are different as they are written can be the same there.

- `outputs_distinct_iff` says when all outputs of a project have different files.
- `not_outputs_distinct` is a project in which two outputs have the same file.
-/

namespace TableExport

namespace Project

/-- Behind the directory of the project the paths of two outputs are different. -/
def Distinct (x y : String × Path) : Prop :=
  x.2.sameAs y.2 = false

/-- Neither output is the other one, seen from a directory. -/
def Parted (root : Path) (o o' : OutputSpec) : Prop :=
  ¬ root.Meets o.path.value o'.path.value ∧ ¬ root.Meets o'.path.value o.path.value

theorem distinct_iff_parted {root : Path} {o o' : OutputSpec} (h : Config.Apart o o') :
    (root.join o.path.value).sameAs (root.join o'.path.value) = false ↔ root.text = "" ∨ Parted root o o' := by
  rw [← Bool.not_eq_true, Path.sameAs_join_iff root h, Parted]
  tauto

/-- The outputs of a project that was opened are different as they are written. -/
theorem apart_of_ofContent {path : Path} {content : String} {targets : List String} {p : Project}
    (h : Project.ofContent path content targets = .ok p) : p.config.outputs.Pairwise Config.Apart := by
  obtain ⟨c, hc, heq⟩ := bind_eq_ok.1 h
  rw [pure_eq_ok] at heq
  subst heq
  exact Config.apart_of_parse hc

theorem distinct_outputs_iff {p : Project} (h : p.config.outputs.Pairwise Config.Apart) :
    p.outputs.Pairwise Distinct ↔ p.root.text = "" ∨ p.config.outputs.Pairwise (Parted p.root) := by
  rw [outputs, List.pairwise_map]
  constructor
  · intro hdistinct
    by_cases hroot : p.root.text = ""
    · exact .inl hroot
    · refine .inr ((h.and hdistinct).imp ?_)
      rintro o o' ⟨hapart, hne⟩
      exact ((distinct_iff_parted hapart).1 hne).resolve_left hroot
  · intro hparted
    rcases hparted with hroot | hparted
    · exact h.imp fun hapart => (distinct_iff_parted hapart).2 (.inl hroot)
    · exact (h.and hparted).imp fun ⟨hapart, hp⟩ => (distinct_iff_parted hapart).2 (.inr hp)

/-- A relative path that does not start with a `.` is no other path seen from a directory. -/
theorem not_meets_of_beginning {r p : Path} (h : p.beginning = []) (q : Path) : ¬ r.Meets p q := by
  rintro (hhere | ⟨habsolute, -⟩)
  · rw [Path.components_eq_here_cons, h] at hhere
    cases hhere.1
  · rw [Path.beginning_absolute habsolute] at h
    cases h

/-- **The outputs of a project have different paths** if and only if the project has no directory of its own, or no
two of them meet in it: neither is one the other behind a `.`, nor does an absolute one lead through the directory to
where a relative one does. Relative paths that do not start with a `.` never meet. -/
theorem outputs_distinct_iff {path : Path} {content : String} {targets : List String} {p : Project}
    (h : Project.ofContent path content targets = .ok p) :
    (p.outputs.Pairwise Distinct ↔ p.root.text = "" ∨ p.config.outputs.Pairwise (Parted p.root)) ∧
      ((∀ o ∈ p.config.outputs, o.path.value.beginning = []) → p.outputs.Pairwise Distinct) := by
  have hdistinct := distinct_outputs_iff (apart_of_ofContent h)
  refine ⟨hdistinct, fun hbeginning => hdistinct.2 (.inr (List.pairwise_of_forall_mem_list ?_))⟩
  intro o ho o' ho'
  exact ⟨not_meets_of_beginning (hbeginning o ho) _, not_meets_of_beginning (hbeginning o' ho') _⟩

/-! ## Two spellings of one path -/

section Dotted

open Toml

/-- A configuration with two outputs that are different as they are written. -/
def dottedConfig : String :=
  "[[output]]\npath = \"out.txt\"\ntarget = \"lua\"\n" ++
  "[[output]]\npath = \"./out.txt\"\ntarget = \"json\"\n" ++
  "[project]\nmodel = \"model.json\"\n"

/-- A part of that configuration. -/
def dottedSpan (start length : Nat) : Span :=
  ⟨dottedConfig.toList.drop start, dottedConfig.toList.drop (start + length)⟩

/-- The table of that configuration. -/
def dottedEntries : Entries :=
  [(⟨"output", dottedSpan 2 6⟩, dottedSpan 0 10, .array true [
      (dottedSpan 0 10, .table .explicit [
        (⟨"path", dottedSpan 11 4⟩, dottedSpan 18 9, .string "out.txt"),
        (⟨"target", dottedSpan 28 6⟩, dottedSpan 37 5, .string "lua")]),
      (dottedSpan 43 10, .table .explicit [
        (⟨"path", dottedSpan 54 4⟩, dottedSpan 61 11, .string "./out.txt"),
        (⟨"target", dottedSpan 73 6⟩, dottedSpan 82 6, .string "json")])]),
    (⟨"project", dottedSpan 90 7⟩, dottedSpan 89 9, .table .explicit [
      (⟨"model", dottedSpan 99 5⟩, dottedSpan 107 12, .string "model.json")])]

theorem parse_dotted : Toml.parse dottedConfig.toList = some dottedEntries := by
  cbv

/-- The outputs of that configuration. -/
def dottedOutputs : List OutputSpec :=
  [⟨⟨"lua", 37, 5⟩, ⟨⟨"out.txt"⟩, 18, 9⟩⟩, ⟨⟨"json", 82, 6⟩, ⟨⟨"./out.txt"⟩, 61, 11⟩⟩]

theorem parse_dottedConfig : Config.parse dottedConfig ["lua", "json"] = .ok ⟨⟨"model.json"⟩, dottedOutputs⟩ := by
  have hread : Config.read dottedConfig = .ok ⟨⟨"model.json"⟩, dottedOutputs⟩ := by
    have hentries : Config.ofEntries dottedConfig.toList dottedEntries = .ok ⟨⟨"model.json"⟩, dottedOutputs⟩ := by
      refine Config.ofEntries_table "model.json" ?_
      simp only [List.mapM_cons, List.mapM_nil, Config.readOutput_table]
      decide +kernel
    simp only [Config.read, parse_dotted, hentries]
  rw [Config.parse, hread]
  decide +kernel

end Dotted

/-- That configuration in some place. -/
theorem ofContent_dotted (path : Path) : Project.ofContent path dottedConfig ["lua", "json"] =
    .ok ⟨path.parent?.getD ⟨""⟩, ⟨⟨"model.json"⟩, dottedOutputs⟩⟩ := by
  rw [Project.ofContent, parse_dottedConfig]
  rfl

/-- In the working directory the paths of the two outputs are different. -/
theorem outputs_distinct_dotted : ∃ p, Project.ofContent ⟨"tabula.toml"⟩ dottedConfig ["lua", "json"] = .ok p ∧
    p.outputs.Pairwise Distinct := by
  have hopen := ofContent_dotted ⟨"tabula.toml"⟩
  have hroot : (Path.mk "tabula.toml").parent?.getD ⟨""⟩ = ⟨""⟩ := by
    decide +kernel
  exact ⟨_, hopen, (outputs_distinct_iff hopen).1.2 (.inl (by rw [hroot]))⟩

/-- In another directory they are the same: the second output takes the place of the first one. -/
theorem not_outputs_distinct : ∃ p, Project.ofContent ⟨"cfg/tabula.toml"⟩ dottedConfig ["lua", "json"] = .ok p ∧
    p.outputs = [("lua", ⟨"cfg/out.txt"⟩), ("json", ⟨"cfg/./out.txt"⟩)] ∧ ¬ p.outputs.Pairwise Distinct := by
  have houtputs : Project.outputs ⟨(Path.mk "cfg/tabula.toml").parent?.getD ⟨""⟩, ⟨⟨"model.json"⟩, dottedOutputs⟩⟩ =
      [("lua", ⟨"cfg/out.txt"⟩), ("json", ⟨"cfg/./out.txt"⟩)] := by
    decide +kernel
  have hsame : (Path.mk "cfg/out.txt").sameAs ⟨"cfg/./out.txt"⟩ = true := by
    decide +kernel
  refine ⟨_, ofContent_dotted ⟨"cfg/tabula.toml"⟩, houtputs, ?_⟩
  rw [houtputs, List.pairwise_pair, Distinct, hsame]
  exact Bool.noConfusion

end Project

end TableExport
