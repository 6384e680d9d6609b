import Mathlib.Data.List.Basic
import TableExport.Project.ConfigReader
import TableExport.Proofs.Outcome

/-!
# Admissible configurations

- `firstFault?_eq_none` says which outputs are admissible; `apart_of_parse` that those of a parsed configuration are
  different as they are written.
- `ofEntries_table` reads the tables of a configuration, whatever its outputs are.
-/

namespace TableExport

open Toml

namespace Config

/-- The paths of two outputs are different as they are written. -/
def Apart (o o' : OutputSpec) : Prop :=
  o.path.value.sameAs o'.path.value = false

/-- Behind outputs that were looked at, outputs are admissible if and only if their targets are known, and no path was
used before. -/
theorem firstFaultAfter?_eq_none {targets : List String} {before outputs : List OutputSpec} :
    firstFaultAfter? targets before outputs = none ↔
      (∀ o ∈ outputs, o.target.value ∈ targets) ∧ (∀ b ∈ before, ∀ o ∈ outputs, Apart b o) ∧
        outputs.Pairwise Apart := by
  induction outputs generalizing before with
  | nil => simp [firstFaultAfter?]
  | cons o os ih =>
    rw [firstFaultAfter?]
    by_cases htarget : o.target.value ∈ targets
    · cases hfind : before.find? (·.path.value.sameAs o.path.value) with
      | some first =>
        have hmem := List.mem_of_find?_eq_some hfind
        have hsame := List.find?_some hfind
        have hnot : ¬ ∀ b ∈ before, ∀ o' ∈ o :: os, Apart b o' := fun h => by
          rw [h first hmem o List.mem_cons_self] at hsame
          cases hsame
        simp only [List.contains_eq_mem, htarget, decide_true, Bool.not_true, Bool.false_eq_true, ↓reduceIte,
          reduceCtorEq, false_iff]
        exact fun h => hnot h.2.1
      | none =>
        have hbefore : ∀ b ∈ before, Apart b o := by simpa [Apart] using hfind
        simp only [List.contains_eq_mem, htarget, decide_true, Bool.not_true, Bool.false_eq_true, ↓reduceIte, ih,
          List.forall_mem_cons, List.mem_append, List.mem_singleton, List.pairwise_cons, true_and]
        constructor
        · rintro ⟨htargets, hapart, hpairs⟩
          exact ⟨htargets, fun b hb => ⟨hbefore b hb, fun o' ho' => hapart b (.inl hb) o' ho'⟩,
            fun o' ho' => hapart o (.inr rfl) o' ho', hpairs⟩
        · rintro ⟨htargets, hapart, hfirst, hpairs⟩
          refine ⟨htargets, ?_, hpairs⟩
          rintro b (hb | rfl)
          · exact (hapart b hb).2
          · exact hfirst
    · simp [htarget]

/-- **Outputs are admissible** if and only if their targets are known and their paths are different as they are
written. -/
theorem firstFault?_eq_none {targets : List String} {outputs : List OutputSpec} :
    firstFault? targets outputs = none ↔ (∀ o ∈ outputs, o.target.value ∈ targets) ∧ outputs.Pairwise Apart := by
  rw [firstFault?, firstFaultAfter?_eq_none]
  simp

/-- A configuration is parsed if and only if it can be read and its outputs are admissible. -/
theorem parse_eq_ok {content : String} {targets : List String} {c' : Config} :
    parse content targets = .ok c' ↔ read content = .ok c' ∧ firstFault? targets c'.outputs = none := by
  rw [parse, bind_eq_ok]
  constructor
  · rintro ⟨c, hread, h⟩
    split at h
    · cases h
    · rename_i hfault
      rw [pure_eq_ok] at h
      subst h
      exact ⟨hread, hfault⟩
  · rintro ⟨hread, hfault⟩
    refine ⟨c', hread, ?_⟩
    rw [hfault]
    rfl

/-- The paths of the outputs of a configuration that was parsed are different as they are written. -/
theorem apart_of_parse {content : String} {targets : List String} {c : Config} (h : parse content targets = .ok c) :
    c.outputs.Pairwise Apart :=
  (firstFault?_eq_none.1 (parse_eq_ok.1 h).2).2

/-! ## Tables -/

/-- A table whose keys are in order is taken in as it is. -/
theorem asRecord_table {σ : Type} {name : String} {fields : List (RecordField σ)} {start : σ} {span : Span}
    {form : TableForm} {es : Entries} (h : es.Pairwise fun a b => a.1.text ≤ b.1.text) :
    asRecord name fields start (span, .table form es) = (do
      let state ← takeEntries fields start es
      match fields.find? (!·.isDone state) with
      | some f => throw ⟨span, .missingField f.name⟩
      | none => return state) := by
  have hsort : es.mergeSort (fun a b => a.1.text ≤ b.1.text) = es :=
    List.mergeSort_of_pairwise (by simpa using h)
  exact congrArg (fun es => takeEntries fields start es >>= _) hsort

theorem takeEntries_cons {σ : Type} {fields : List (RecordField σ)} {state next : σ} {k : Key} {v : Span × Value}
    {es : Entries} {f : RecordField σ} (hf : fields.find? (·.name = k.text) = some f) (hv : f.take state v = .ok next) :
    takeEntries fields state ((k, v) :: es) = takeEntries fields next es := by
  simp only [takeEntries, hf, hv]
  rfl

/-- A table with a path and a target is an output. -/
theorem readOutput_table (size : Nat) (span k₁ k₂ s₁ s₂ : Span) (form : TableForm) (path target : String) :
    readOutput size (span, .table form [(⟨"path", k₁⟩, s₁, .string path), (⟨"target", k₂⟩, s₂, .string target)]) =
      .ok ⟨locate size s₂ target, locate size s₁ ⟨path⟩⟩ := by
  rw [readOutput, asRecord_table (by simp)]
  rfl

/-- A table with outputs and a project that has a model is a configuration. -/
theorem ofEntries_table {document : List Char} {k₁ k₂ k₃ s₁ s₂ s₃ : Span} {form : TableForm} {ofTables : Bool}
    {items : List (Span × Value)} {outputs : List OutputSpec} (model : String)
    (h : items.mapM (readOutput (Text.utf8Length document)) = .ok outputs) :
    ofEntries document [(⟨"output", k₁⟩, s₁, .array ofTables items),
      (⟨"project", k₂⟩, s₂, .table form [(⟨"model", k₃⟩, s₃, .string model)])] = .ok ⟨⟨model⟩, outputs⟩ := by
  have hproject : readProject (s₂, .table form [(⟨"model", k₃⟩, s₃, .string model)]) = .ok (some ⟨model⟩) := by
    rw [readProject, asRecord_table (by simp)]
    rfl
  have hitems : asList (readOutput (Text.utf8Length document)) (s₁, .array ofTables items) = .ok outputs := h
  have houtput : (do return { ({} : ConfigPart) with
      outputs := ← asList (readOutput (Text.utf8Length document)) (s₁, .array ofTables items) }) =
        (.ok ⟨none, outputs⟩ : Except Fault ConfigPart) := by
    rw [hitems]
    rfl
  have hmodel : (do return { (⟨none, outputs⟩ : ConfigPart) with
      model := ← readProject (s₂, .table form [(⟨"model", k₃⟩, s₃, .string model)]) }) =
        (.ok ⟨some ⟨model⟩, outputs⟩ : Except Fault ConfigPart) := by
    rw [hproject]
    rfl
  rw [ofEntries, asRecord_table (by simp), takeEntries_cons rfl houtput, takeEntries_cons rfl hmodel]
  rfl

end Config

end TableExport
