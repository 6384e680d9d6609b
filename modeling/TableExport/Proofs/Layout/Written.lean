import TableExport.Layout.Fragment
import TableExport.Layout.Script
import TableExport.Proofs.Text.Lexing

/-!
# The tokens that building steps write

Line breaks and indentation only separate tokens, so the tokens of a text follow from its lines alone, at whatever
level they are written.

- `Writes` says which tokens the steps add to any text; `Writes.append` and the lemmas about single steps compute them.
- `Script.failure_andThen_eq_none` and `Script.andThen_steps` take scripts that do not fail apart.
-/

namespace TableExport.Layout

open TableExport.Text

variable {τ : Type} {next : Tokenizer τ}

/-- The tokenizer finds nothing in blanks, tabs and line breaks. -/
structure PassesBlanks (next : Tokenizer τ) : Prop where
  space : Spells next Anything [' '] []
  tab : Spells next Anything ['\t'] []
  newline : Spells next Anything ['\n'] []

/-- An indentation of blanks and tabs. -/
def IsBlankUnit (unit : String) : Prop :=
  ∀ c ∈ unit.toList, c = ' ' ∨ c = '\t'

theorem isBlankUnit_unit (i : Indent) : IsBlankUnit i.unit := by
  intro c hc
  cases i with
  | spaces n =>
    simp only [Indent.unit, String.toList_ofList] at hc
    exact .inl (List.eq_of_mem_replicate hc)
  | tab =>
    simp only [Indent.unit, String.reduceToList, List.mem_singleton] at hc
    exact .inr hc

/-- Whatever the text and the level so far, the steps add a text that spells the tokens. -/
def Writes (next : Tokenizer τ) (steps : List Step) (ts : List τ) : Prop :=
  ∀ b : Builder, IsBlankUnit b.unit →
    ∃ s, (b.run steps).text.toList = b.text.toList ++ s ∧ Spells next Anything s ts

namespace Builder

@[simp] theorem step_unit (b : Builder) (s : Step) : (b.step s).unit = b.unit := by
  cases s <;> rfl

@[simp] theorem run_unit (b : Builder) (steps : List Step) : (b.run steps).unit = b.unit := by
  induction steps generalizing b with
  | nil => rfl
  | cons s ss ih => rw [run_cons, ih, step_unit]

/-- Steps add to a text. -/
theorem exists_text_run (b : Builder) (steps : List Step) : ∃ s, (b.run steps).text = b.text ++ s := by
  induction steps generalizing b with
  | nil => exact ⟨"", (String.append_empty ..).symm⟩
  | cons step steps ih =>
    have hstep : ∃ s, (b.step step).text = b.text ++ s := by
      cases step with
      | line text => exact ⟨b.indentation ++ text ++ "\n", by simp only [Builder.step, String.append_assoc]⟩
      | blank => exact ⟨"\n", rfl⟩
      | indent => exact ⟨"", (String.append_empty ..).symm⟩
      | dedent => exact ⟨"", (String.append_empty ..).symm⟩
      | raw text => exact ⟨text, rfl⟩
    obtain ⟨s, hs⟩ := hstep
    obtain ⟨s', hs'⟩ := ih (b.step step)
    exact ⟨s ++ s', by rw [Builder.run_cons, hs', hs, String.append_assoc]⟩

end Builder

/-- Indentation spells nothing. -/
theorem spells_indentation (hp : PassesBlanks next) {b : Builder} (hb : IsBlankUnit b.unit) :
    Spells next Anything b.indentation.toList [] := by
  refine spells_separators fun c hc => ?_
  simp only [Builder.indentation, String.toList_join, List.mem_flatMap] at hc
  obtain ⟨u, hu, hc⟩ := hc
  rw [List.eq_of_mem_replicate hu] at hc
  rcases hb c hc with rfl | rfl
  · exact hp.space
  · exact hp.tab

section Steps

variable {ss ss' : List Step} {ts us : List τ}

theorem writes_nil : Writes next [] [] :=
  fun b _ => ⟨[], by simp, spells_nil⟩

theorem Writes.append (h : Writes next ss ts) (h' : Writes next ss' us) : Writes next (ss ++ ss') (ts ++ us) := by
  intro b hb
  obtain ⟨s, hs, hts⟩ := h b hb
  obtain ⟨s', hs', hus⟩ := h' (b.run ss) (by rwa [Builder.run_unit])
  refine ⟨s ++ s', ?_, hts.then hus⟩
  rw [Builder.run_append, hs', hs, List.append_assoc]

/-- A line whose text spells the tokens in front of its end. -/
theorem writes_line (hp : PassesBlanks next) {text : String} (h : Spells next AtLineEnd text.toList ts) :
    Writes next [.line text] ts := by
  intro b hb
  refine ⟨b.indentation.toList ++ (text.toList ++ ['\n']), by simp [Builder.step], ?_⟩
  have hline := h.append hp.newline fun r _ => ⟨r, rfl⟩
  simpa using (spells_indentation hp hb).then hline

theorem writes_blank (hp : PassesBlanks next) : Writes next [.blank] [] :=
  fun b _ => ⟨['\n'], by simp [Builder.step], hp.newline⟩

theorem writes_indent : Writes next [.indent] [] :=
  fun b _ => ⟨[], by simp [Builder.step], spells_nil⟩

theorem writes_dedent : Writes next [.dedent] [] :=
  fun b _ => ⟨[], by simp [Builder.step], spells_nil⟩

theorem writes_raw {text : String} (h : Spells next Anything text.toList ts) : Writes next [.raw text] ts :=
  fun b _ => ⟨text.toList, by simp [Builder.step], h⟩

/-- The tokens of the text that the steps build at some level. -/
theorem Writes.tokens?_run (h : Writes next ss ts) {b : Builder} (hb : IsBlankUnit b.unit) (hempty : b.text = "") :
    tokens? next (b.run ss).text.toList = some ts := by
  obtain ⟨s, hs, hts⟩ := h b hb
  have hs : (b.run ss).text.toList = s := by simpa [hempty] using hs
  rw [hs]
  exact hts.tokens? trivial

/-- The tokens of a whole text that the steps build. -/
theorem Writes.tokens? (h : Writes next ss ts) (i : Indent) :
    tokens? next ((Builder.new i).run ss).text.toList = some ts :=
  h.tokens?_run (isBlankUnit_unit i) rfl

end Steps

/-! ## Scripts that do not fail -/

namespace Script

variable {ε : Type} {a b : Script ε}

@[simp] theorem ofSteps_failure (steps : List Step) : (ofSteps steps : Script ε).failure = none := rfl

@[simp] theorem ofSteps_steps (steps : List Step) : (ofSteps steps : Script ε).steps = steps := rfl

@[simp] theorem failure_formatted (text : String) : (formatted text : Script ε).failure = none := rfl

/-- Two scripts in a row fail with the first failure of them. -/
theorem failure_andThen : (a.andThen b).failure = a.failure.or b.failure := by
  unfold andThen
  cases h : a.failure <;> simp [h]

/-- Two scripts in a row do not fail if and only if neither does. -/
@[simp] theorem failure_andThen_eq_none : (a.andThen b).failure = none ↔ a.failure = none ∧ b.failure = none := by
  rw [failure_andThen, Option.or_eq_none_iff]

/-- Three scripts in a row can be put together in either way. -/
theorem andThen_assoc {c : Script ε} : (a.andThen b).andThen c = a.andThen (b.andThen c) := by
  obtain ⟨ss, failure⟩ := a
  obtain ⟨ts, failure'⟩ := b
  cases failure with
  | some e => rfl
  | none =>
    cases failure' with
    | some e => rfl
    | none => simp [andThen, List.append_assoc]

/-- A script that does not fail has steps only. -/
theorem eq_ofSteps (h : a.failure = none) : a = ofSteps a.steps := by
  cases a
  cases h
  rfl

/-- The steps of two scripts in a row of which the first does not fail. -/
theorem andThen_steps (h : a.failure = none) : (a.andThen b).steps = a.steps ++ b.steps := by
  unfold andThen
  rw [h]

end Script

end TableExport.Layout
