import TableExport.Layout.Fragment
import TableExport.Proofs.Layout.Written
import TableExport.Proofs.Text.Lines

/-!
# The lines of generated text

What fragments add to a text follows from their lines and the level alone. Nothing that was written before changes, and
the level is the same behind them, so fragments can be moved to another level without looking at them again.

- `Row` is a line with its depth of nesting, `rowsOf` lists the lines of fragments, `flattening` is their text.
- `Pushes` lists the lines that steps push, from one level to another; `pushes_stepsOf` says that fragments push theirs.
- `linesIn` cuts a text at its line breaks; `linesIn_flattening_add` compares the lines at two levels.
- `Operation` is what can be done to a builder, `emit_flattens` says what comes of fragments and of any operations.
-/

namespace TableExport.Layout

/-- A line of generated text: a text at a depth of nesting, or nothing at all. -/
inductive Row where
  | text (depth : Nat) (content : String)
  | blank
deriving Repr, DecidableEq

mutual

/-- The lines of a fragment that is nested so deep, in the order in which they stand. -/
def Fragment.rows (depth : Nat) : Fragment → List Row
  | .line text => [.text depth text]
  | .blank => [.blank]
  | .block header body close =>
    .text depth header :: rowsOf (depth + 1) body ++ (close.map (Row.text depth)).toList

/-- The lines of fragments that are nested so deep. -/
def rowsOf (depth : Nat) : List Fragment → List Row
  | [] => []
  | f :: fs => f.rows depth ++ rowsOf depth fs

end

/-- So many levels of indentation. -/
def units (unit : String) (n : Nat) : String :=
  String.join (List.replicate n unit)

/-- The text of a line without any indentation. -/
def Row.content : Row → String
  | .text _ content => content
  | .blank => ""

/-- The text of a line without its line break: it is indented by its depth and the level, unless there is nothing. -/
def Row.line (unit : String) (level : Nat) : Row → String
  | .text depth content => units unit (level + depth) ++ content
  | .blank => ""

/-- The text of lines, each ended by a line break. -/
def ended (lines : List String) : String :=
  String.join (lines.map (· ++ "\n"))

/-- The text of fragments at a level. -/
def flattening (unit : String) (level : Nat) (fs : List Fragment) : String :=
  ended ((rowsOf 0 fs).map (Row.line unit level))

namespace Builder

/-- A builder with more text. -/
def add (b : Builder) (s : String) : Builder :=
  { b with text := b.text ++ s }

@[simp] theorem add_text (b : Builder) (s : String) : (b.add s).text = b.text ++ s := rfl

end Builder

/-! ## Lines that are pushed -/

/-- Between two levels the steps push these lines. There is something less to indent at every dedent, and nothing but
lines is written. -/
inductive Pushes (unit : String) : Nat → List Step → List String → Nat → Prop
  | nil (level : Nat) : Pushes unit level [] [] level
  | line {level level' : Nat} {steps : List Step} {lines : List String} (text : String) :
    Pushes unit level steps lines level' →
      Pushes unit level (.line text :: steps) ((units unit level ++ text) :: lines) level'
  | blank {level level' : Nat} {steps : List Step} {lines : List String} :
    Pushes unit level steps lines level' → Pushes unit level (.blank :: steps) ("" :: lines) level'
  | indent {level level' : Nat} {steps : List Step} {lines : List String} :
    Pushes unit (level + 1) steps lines level' → Pushes unit level (.indent :: steps) lines level'
  | dedent {level level' : Nat} {steps : List Step} {lines : List String} :
    Pushes unit level steps lines level' → Pushes unit (level + 1) (.dedent :: steps) lines level'

namespace Pushes

variable {unit : String} {level level' level'' : Nat} {steps steps' : List Step} {lines lines' : List String}

theorem append (h : Pushes unit level steps lines level') (h' : Pushes unit level' steps' lines' level'') :
    Pushes unit level (steps ++ steps') (lines ++ lines') level'' := by
  induction h with
  | nil => exact h'
  | line text _ ih => exact .line text (ih h')
  | blank _ ih => exact .blank (ih h')
  | indent _ ih => exact .indent (ih h')
  | dedent _ ih => exact .dedent (ih h')

/-- Lines are pushed at one level. -/
theorem texts (unit : String) (level : Nat) (texts : List String) :
    Pushes unit level (texts.map .line) (texts.map (units unit level ++ ·)) level := by
  induction texts with
  | nil => exact .nil level
  | cons text texts ih => exact .line text ih

/-- What is pushed one level deeper. -/
theorem indented (h : Pushes unit (level + 1) steps lines (level + 1)) :
    Pushes unit level (.indent :: steps ++ [.dedent]) lines level := by
  have := h.append (.dedent (.nil level))
  rw [List.append_nil] at this
  exact .indent this

/-- **The lines that are pushed** are added to the text, each ended by a line break. -/
theorem run (h : Pushes unit level steps lines level') {b : Builder} (hunit : b.unit = unit)
    (hlevel : b.level = level) : b.run steps = ⟨unit, level', b.text ++ ended lines⟩ := by
  induction h generalizing b with
  | nil level => simp [ended, ← hunit, ← hlevel]
  | line text _ ih =>
    rw [Builder.run_cons, ih (b := b.step (.line text)) hunit hlevel]
    simp [Builder.step, Builder.indentation, ended, units, hunit, hlevel, String.append_assoc]
  | blank _ ih =>
    rw [Builder.run_cons, ih (b := b.step .blank) hunit hlevel]
    simp [Builder.step, ended, String.append_assoc]
  | indent _ ih => exact ih hunit (congrArg (· + 1) hlevel)
  | dedent _ ih => exact ih hunit (congrArg (· - 1) hlevel)

end Pushes

/-! ## Fragments push their lines -/

theorem pushes_closeSteps (unit : String) (level depth : Nat) (close : Option String) :
    Pushes unit (level + depth) (closeSteps close) ((close.map (Row.text depth)).toList.map (Row.line unit level))
      (level + depth) := by
  cases close with
  | none => exact .nil _
  | some text => exact .line text (.nil _)

mutual

/-- A fragment pushes its lines. -/
theorem pushes_steps (unit : String) (level : Nat) : ∀ (f : Fragment) (depth : Nat),
    Pushes unit (level + depth) f.steps ((f.rows depth).map (Row.line unit level)) (level + depth)
  | .line text, _ => .line text (.nil _)
  | .blank, _ => .blank (.nil _)
  | .block header body close, depth => by
    -- the body is pushed one level deeper, behind the header
    have hbody := (pushes_stepsOf unit level body (depth + 1)).indented
    have hblock := Pushes.line header (hbody.append (pushes_closeSteps unit level depth close))
    simpa [Fragment.steps, Fragment.rows, Row.line] using hblock

/-- **Fragments push their lines**, and come back to their level. -/
theorem pushes_stepsOf (unit : String) (level : Nat) : ∀ (fs : List Fragment) (depth : Nat),
    Pushes unit (level + depth) (stepsOf fs) ((rowsOf depth fs).map (Row.line unit level)) (level + depth)
  | [], _ => .nil _
  | f :: fs, depth => by
    rw [stepsOf, rowsOf, List.map_append]
    exact (pushes_steps unit level f depth).append (pushes_stepsOf unit level fs depth)

end

theorem stepsOf_append (fs gs : List Fragment) : stepsOf (fs ++ gs) = stepsOf fs ++ stepsOf gs := by
  induction fs with
  | nil => rfl
  | cons f fs ih => rw [List.cons_append, stepsOf, stepsOf, ih, List.append_assoc]

/-! ## Lines at another level -/

/-- The texts between the line breaks of a text; the last one stands behind all of them. -/
def linesIn (s : String) : List String :=
  (s.toList.splitOn '\n').map String.ofList

/-- Lines that are ended by a line break are the lines of the text, and nothing stands behind them. -/
theorem linesIn_ended {ls : List String} (h : ∀ l ∈ ls, '\n' ∉ l.toList) : linesIn (ended ls) = ls ++ [""] := by
  have htext : (ended ls).toList = Text.endedLines (ls.map String.toList) := by
    simp [ended, Text.endedLines, String.toList_join, List.flatMap_map]
  rw [linesIn, htext, Text.splitOn_endedLines (List.forall_mem_map.2 h), List.map_append, List.map_map]
  simp

theorem notMem_ended {ls : List String} {c : Char} (hc : c ≠ '\n') (h : ∀ l ∈ ls, c ∉ l.toList) :
    c ∉ (ended ls).toList := by
  simpa [ended, String.toList_join, hc] using h

theorem units_add (unit : String) (m n : Nat) : units unit (m + n) = units unit m ++ units unit n := by
  rw [units, List.replicate_add, String.join_append]
  rfl

theorem notMem_units {unit : String} {c : Char} (h : c ∉ unit.toList) (n : Nat) : c ∉ (units unit n).toList := by
  rw [units, String.toList_join, List.mem_flatMap]
  rintro ⟨u, hu, hc⟩
  exact h (List.eq_of_mem_replicate hu ▸ hc)

theorem Row.notMem_line {unit : String} {c : Char} (hunit : c ∉ unit.toList) {r : Row} (h : c ∉ r.content.toList)
    (level : Nat) : c ∉ (r.line unit level).toList := by
  cases r with
  | text depth content =>
    rw [Row.line, String.toList_append, List.mem_append]
    exact fun hc => hc.elim (notMem_units hunit _) h
  | blank => exact h

/-- The text of a line when it is moved so many levels to the right. -/
def Row.shift (unit : String) (k : Nat) : Row → String → String
  | .text .. , line => units unit k ++ line
  | .blank, _ => ""

theorem Row.line_add (unit : String) (level k : Nat) (r : Row) :
    r.line unit (level + k) = r.shift unit k (r.line unit level) := by
  cases r with
  | text depth content =>
    rw [Row.line, Row.shift, Row.line, Nat.add_comm level, Nat.add_assoc, units_add, String.append_assoc]
  | blank => rfl

theorem zipWith_map_append {α β γ : Type} (f : α → β → γ) (g : α → β) (as : List α) (bs : List β) :
    List.zipWith f as (as.map g ++ bs) = as.map fun a => f a (g a) := by
  induction as with
  | nil => rfl
  | cons a as ih => rw [List.map_cons, List.cons_append, List.zipWith_cons_cons, ih, List.map_cons]

section Levels

variable {unit : String} {fs : List Fragment} (hunit : '\n' ∉ unit.toList)
  (h : ∀ r ∈ rowsOf 0 fs, '\n' ∉ r.content.toList)
include hunit h

/-- The lines of a text of fragments are theirs if none of their texts has a line break. -/
theorem linesIn_flattening (level : Nat) :
    linesIn (flattening unit level fs) = (rowsOf 0 fs).map (Row.line unit level) ++ [""] := by
  refine linesIn_ended fun l hl => ?_
  obtain ⟨r, hr, rfl⟩ := List.mem_map.1 hl
  exact Row.notMem_line hunit (h r hr) level

/-- **At another level** fragments have the same lines, with more indentation where there is something on them. -/
theorem linesIn_flattening_add (level k : Nat) : linesIn (flattening unit (level + k) fs) =
    List.zipWith (Row.shift unit k) (rowsOf 0 fs) (linesIn (flattening unit level fs)) ++ [""] := by
  rw [linesIn_flattening hunit h, linesIn_flattening hunit h, zipWith_map_append,
    List.map_congr_left fun r _ => Row.line_add unit level k r]

end Levels

/-! ## Operations -/

/-- What can be done to a builder: a step, or fragments are emitted. -/
inductive Operation where
  | step (s : Step)
  | emit (fs : List Fragment)

namespace Operation

/-- The steps of an operation. -/
def steps : Operation → List Step
  | .step s => [s]
  | .emit fs => stepsOf fs

/-- What an operation adds to the text at a level. -/
def added (unit : String) (level : Nat) : Operation → String
  | .step (.line text) => units unit level ++ text ++ "\n"
  | .step .blank => "\n"
  | .step .indent | .step .dedent => ""
  | .step (.raw text) => text
  | .emit fs => flattening unit level fs

/-- How an operation changes the level. -/
def change : Operation → Int
  | .step .indent => 1
  | .step .dedent => -1
  | _ => 0

/-- The level behind operations: the count of indents and dedents, which does not fall below 0 on the way. -/
def levelBehind (level : Nat) (os : List Operation) : Nat :=
  os.foldl (fun n o => ((n : Int) + o.change).toNat) level

end Operation

open Operation

namespace Builder

/-- Carries out an operation. -/
def perform (b : Builder) (o : Operation) : Builder :=
  b.run o.steps

/-- Carries out operations one after the other. -/
def performAll (b : Builder) (os : List Operation) : Builder :=
  os.foldl perform b

theorem perform_emit (b : Builder) (fs : List Fragment) :
    b.perform (.emit fs) = b.add (flattening b.unit b.level fs) :=
  (pushes_stepsOf b.unit b.level fs 0).run rfl rfl

/-- An operation adds its text and changes the level. -/
theorem perform_eq (b : Builder) (o : Operation) :
    b.perform o = ⟨b.unit, levelBehind b.level [o], b.text ++ o.added b.unit b.level⟩ := by
  cases o with
  | emit fs => exact perform_emit b fs
  | step s =>
    cases s with
    | line text => rw [added, ← String.append_assoc, ← String.append_assoc]; rfl
    | blank => rfl
    | indent => rw [added, String.append_empty]; rfl
    | dedent =>
      have hlevel : levelBehind b.level [.step .dedent] = b.level - 1 := by
        simp only [levelBehind, List.foldl_cons, List.foldl_nil, change]
        omega
      rw [hlevel, added, String.append_empty]
      rfl
    | raw text => rfl

/-- **Operations** add the texts of all of them, each at the level that it finds. -/
theorem performAll_eq (b : Builder) (os : List Operation) : b.performAll os = ⟨b.unit, levelBehind b.level os,
    b.text ++ String.join (os.mapIdx fun i o => o.added b.unit (levelBehind b.level (os.take i)))⟩ := by
  induction os generalizing b with
  | nil => simp [performAll, levelBehind]
  | cons o os ih =>
    have hcons : b.performAll (o :: os) = (b.perform o).performAll os := rfl
    rw [hcons, ih, perform_eq, List.mapIdx_cons, String.join_cons, String.append_assoc]
    rfl

/-- **Fragments are flattened.** They add a text that follows from their lines and the level alone, and leave what was
written before and the level as they were; so fragments can be emitted in parts, and at another level their lines are
the same but for the indentation. In any sequence of operations each one adds its own text at the level that the indents
and dedents in front of it lead to. -/
theorem emit_flattens :
    (∀ (b : Builder) fs, b.perform (.emit fs) = b.add (flattening b.unit b.level fs)) ∧
    (∀ (b : Builder) fs gs, b.perform (.emit (fs ++ gs)) = (b.perform (.emit fs)).perform (.emit gs)) ∧
    (∀ (i : Indent) level k fs, (∀ r ∈ rowsOf 0 fs, '\n' ∉ r.content.toList) →
      (linesIn (flattening i.unit level fs)).length = (rowsOf 0 fs).length + 1 ∧
      linesIn (flattening i.unit (level + k) fs) =
        List.zipWith (Row.shift i.unit k) (rowsOf 0 fs) (linesIn (flattening i.unit level fs)) ++ [""]) ∧
    (∀ (b : Builder) o, b.perform o = ⟨b.unit, levelBehind b.level [o], b.text ++ o.added b.unit b.level⟩) ∧
    ∀ (b : Builder) os, b.performAll os = ⟨b.unit, levelBehind b.level os,
      b.text ++ String.join (os.mapIdx fun i o => o.added b.unit (levelBehind b.level (os.take i)))⟩ := by
  refine ⟨perform_emit, fun b fs gs => ?_, fun i level k fs h => ?_, perform_eq, performAll_eq⟩
  · rw [perform, Operation.steps, stepsOf_append, run_append]
    rfl
  · have hunit : '\n' ∉ i.unit.toList := fun hmem => by
      rcases isBlankUnit_unit i _ hmem with h | h <;> cases h
    refine ⟨?_, linesIn_flattening_add hunit h level k⟩
    rw [linesIn_flattening hunit h, List.length_append, List.length_map]
    rfl

/-- A block inside a block, behind a blank line. -/
def nestedBlocks : List Fragment :=
  [.block "do" [.line "x", .blank, .block "if" [.line "y"] none] (some "end")]

/-- The lines of these blocks two levels further to the right. -/
theorem emit_flattens_nested : (∀ r ∈ rowsOf 0 nestedBlocks, '\n' ∉ r.content.toList) ∧
    linesIn (flattening (Indent.unit .tab) 1 nestedBlocks) = ["\tdo", "\t\tx", "", "\t\tif", "\t\t\ty", "\tend", ""] ∧
    linesIn (flattening (Indent.unit .tab) (1 + 2) nestedBlocks) =
      ["\t\t\tdo", "\t\t\t\tx", "", "\t\t\t\tif", "\t\t\t\t\ty", "\t\t\tend", ""] := by
  have hrows : ∀ r ∈ rowsOf 0 nestedBlocks, '\n' ∉ r.content.toList := by decide
  have hlines : linesIn (flattening (Indent.unit .tab) 1 nestedBlocks) =
      ["\tdo", "\t\tx", "", "\t\tif", "\t\t\ty", "\tend", ""] := by decide
  obtain ⟨-, hshift⟩ := emit_flattens.2.2.1 .tab 1 2 nestedBlocks hrows
  refine ⟨hrows, hlines, ?_⟩
  rw [hshift, hlines]
  decide

end Builder

end TableExport.Layout
