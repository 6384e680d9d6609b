import TableExport.Proofs.Layout.Rows

/-!
# Levels of indentation

A dedent at level 0 would be lost, and all text behind it would stand too far to the right. Whether that can happen
follows from the steps alone: each of them leads from one level to another.

- `Step.levelBehind?` is the level behind a step. `Climbs` says that steps lead from one level to another, with
  something less to indent at every dedent, and that they are never below a floor.
- `Climbs.level_run`, `Climbs.pos_of_dedent` and `Climbs.le_of_prefix` say what this means for a builder.
- `Balanced` steps come back to their level; `balanced_stepsOf` says that fragments do.
- `Script.Reaches` says where a script leads unless it fails; `Script.Reaches.andThen` goes on behind it.
-/

namespace TableExport.Layout

/-- The level behind a step; none behind a dedent that has nothing less to indent. -/
def Step.levelBehind? : Step → Nat → Option Nat
  | .indent, level => some (level + 1)
  | .dedent, 0 => none
  | .dedent, level + 1 => some level
  | _, level => some level

/-- From one level the steps lead to another, and on the way they are never below the floor. -/
inductive Climbs (floor : Nat) : Nat → List Step → Nat → Prop
  | nil {level : Nat} : floor ≤ level → Climbs floor level [] level
  | cons {level level' level'' : Nat} {s : Step} {steps : List Step} :
    floor ≤ level → s.levelBehind? level = some level' → Climbs floor level' steps level'' →
      Climbs floor level (s :: steps) level''

variable {floor floor' level level' level'' : Nat} {s : Step} {steps steps' closing : List Step}

namespace Climbs

theorem le_start (h : Climbs floor level steps level') : floor ≤ level := by
  cases h with
  | nil h => exact h
  | cons h _ _ => exact h

theorem le_end (h : Climbs floor level steps level') : floor ≤ level' := by
  induction h with
  | nil h => exact h
  | cons _ _ _ ih => exact ih

theorem weaken (h : Climbs floor level steps level') (hle : floor' ≤ floor) : Climbs floor' level steps level' := by
  induction h with
  | nil h => exact .nil (hle.trans h)
  | cons h hs _ ih => exact .cons (hle.trans h) hs ih

theorem append (h : Climbs floor level steps level') (h' : Climbs floor level' steps' level'') :
    Climbs floor level (steps ++ steps') level'' := by
  induction h with
  | nil => exact h'
  | cons hle hs _ ih => exact .cons hle hs (ih h')

/-- Steps lead to a place between them first. -/
theorem split (h : Climbs floor level (steps ++ steps') level'') :
    ∃ level', Climbs floor level steps level' ∧ Climbs floor level' steps' level'' := by
  induction steps generalizing level with
  | nil => exact ⟨level, .nil h.le_start, h⟩
  | cons s steps ih =>
    cases h with
    | cons hle hs h =>
      obtain ⟨between, hsteps, hsteps'⟩ := ih h
      exact ⟨between, .cons hle hs hsteps, hsteps'⟩

/-! ### Builders -/

theorem level_step {b : Builder} (h : s.levelBehind? b.level = some level') : (b.step s).level = level' := by
  obtain ⟨unit, level, text⟩ := b
  cases s with
  | dedent =>
    cases level with
    | zero => cases h
    | succ level =>
      cases h
      rfl
  | line text => cases h; rfl
  | blank => cases h; rfl
  | indent => cases h; rfl
  | raw text => cases h; rfl

/-- **A builder** is at the level to which the steps lead. -/
theorem level_run (h : Climbs floor level steps level') {b : Builder} (hb : b.level = level) :
    (b.run steps).level = level' := by
  induction h generalizing b with
  | nil => exact hb
  | cons _ hs _ ih =>
    rw [Builder.run_cons]
    exact ih (level_step (hb ▸ hs))

section Builders

variable {b : Builder} {front rest : List Step} (h : Climbs floor level steps level') (hb : b.level = level)
include h hb

/-- **A dedent** always has something less to indent. -/
theorem pos_of_dedent (hsteps : steps = front ++ .dedent :: rest) : 0 < (b.run front).level := by
  subst hsteps
  obtain ⟨between, hfront, hrest⟩ := h.split
  rw [hfront.level_run hb]
  cases hrest with
  | cons _ hs _ =>
    cases between with
    | zero => cases hs
    | succ n => exact Nat.succ_pos n

/-- **The floor** is kept all the way. -/
theorem le_of_prefix (hfront : front <+: steps) : floor ≤ (b.run front).level := by
  obtain ⟨rest, rfl⟩ := hfront
  obtain ⟨between, hfront, -⟩ := h.split
  rw [hfront.level_run hb]
  exact hfront.le_end

end Builders

end Climbs

/-! ## Steps that come back to their level -/

/-- From any level the steps come back to it, and are not below it on the way. -/
def Balanced (steps : List Step) : Prop :=
  ∀ level, Climbs level level steps level

/-- The step has nothing to do with the level. -/
def Step.isFlat : Step → Bool
  | .indent | .dedent => false
  | _ => true

theorem balanced_of_flat (h : steps.all Step.isFlat = true) : Balanced steps := by
  intro level
  induction steps with
  | nil => exact .nil level.le_refl
  | cons s steps ih =>
    rw [List.all_cons, Bool.and_eq_true] at h
    have hs : s.levelBehind? level = some level := by
      cases s with
      | indent => cases h.1
      | dedent => cases h.1
      | line | blank | raw => rfl
    exact .cons level.le_refl hs (ih h.2)

namespace Balanced

theorem append (h : Balanced steps) (h' : Balanced steps') : Balanced (steps ++ steps') :=
  fun level => (h level).append (h' level)

/-- A block: a line, steps one level deeper, and what closes it. -/
theorem block (h : Balanced steps) (hclosing : Balanced closing) (text : String) :
    Balanced (.line text :: .indent :: steps ++ .dedent :: closing) := by
  intro level
  have hdedent : Climbs level (level + 1) (.dedent :: closing) level := .cons level.le_succ rfl (hclosing level)
  have hinside := ((h (level + 1)).weaken level.le_succ).append hdedent
  exact .cons level.le_refl rfl (.cons level.le_refl rfl hinside)

theorem flatMap {α : Type} {f : α → List Step} {as : List α} (h : ∀ a ∈ as, Balanced (f a)) :
    Balanced (as.flatMap f) := by
  induction as with
  | nil => exact balanced_of_flat rfl
  | cons a as ih =>
    obtain ⟨ha, has⟩ := List.forall_mem_cons.1 h
    exact ha.append (ih has)

theorem level_run (h : Balanced steps) (b : Builder) : (b.run steps).level = b.level :=
  (h b.level).level_run rfl

end Balanced

/-- What pushes lines climbs, however much further to the right it starts. -/
theorem Pushes.climbs {unit : String} {lines : List String} (h : Pushes unit level steps lines level') (k : Nat) :
    Climbs k (k + level) steps (k + level') := by
  have hle (n : Nat) : k ≤ k + n := Nat.le_add_right k n
  induction h with
  | nil => exact .nil (hle _)
  | line _ _ ih => exact .cons (hle _) rfl ih
  | blank _ ih => exact .cons (hle _) rfl ih
  | indent _ ih => exact .cons (hle _) rfl ih
  | dedent _ ih => exact .cons (hle _) rfl ih

/-- **Fragments** come back to their level. -/
theorem balanced_stepsOf (fs : List Fragment) : Balanced (stepsOf fs) :=
  fun level => (pushes_stepsOf "" 0 fs 0).climbs level

/-! ## Scripts -/

namespace Script

variable {ε δ : Type} {a b : Script ε}

/-- The script leads to a level unless it fails, and is never below the floor. -/
def Reaches (floor level : Nat) (a : Script ε) (level' : Nat) : Prop :=
  ∃ reached, Climbs floor level a.steps reached ∧ (a.failure = none → reached = level')

theorem reaches_ofSteps (h : Climbs floor level steps level') : (ofSteps steps : Script ε).Reaches floor level level' :=
  ⟨level', h, fun _ => rfl⟩

theorem reaches_fail (e : ε) (h : floor ≤ level) : (fail e).Reaches floor level level' :=
  ⟨level, .nil h, fun hfailure => by cases hfailure⟩

/-- **Going on** behind a script. -/
theorem Reaches.andThen (h : a.Reaches floor level level') (h' : b.Reaches floor level' level'') :
    (a.andThen b).Reaches floor level level'' := by
  obtain ⟨reached, hclimbs, hreached⟩ := h
  cases hfailure : a.failure with
  | some e =>
    have ha : a.andThen b = a := by rw [Script.andThen, hfailure]
    rw [ha]
    exact ⟨reached, hclimbs, fun hnone => by rw [hfailure] at hnone; cases hnone⟩
  | none =>
    obtain rfl := hreached hfailure
    obtain ⟨reached', hclimbs', hreached'⟩ := h'
    refine ⟨reached', ?_, fun hnone => hreached' (failure_andThen_eq_none.1 hnone).2⟩
    rw [andThen_steps hfailure]
    exact hclimbs.append hclimbs'

theorem Reaches.climbs (h : a.Reaches floor level level') (hfailure : a.failure = none) :
    Climbs floor level a.steps level' := by
  obtain ⟨reached, hclimbs, hreached⟩ := h
  rwa [← hreached hfailure]

theorem steps_prefix_andThen (a b : Script ε) : a.steps <+: (a.andThen b).steps := by
  unfold andThen
  split
  · exact List.prefix_rfl
  · exact List.prefix_append _ _

/-- From any level the script comes back to it unless it fails, and is not below it on the way. -/
def Balanced (a : Script ε) : Prop :=
  ∀ level, a.Reaches level level level

theorem balanced_ofSteps (h : Layout.Balanced steps) : (ofSteps steps : Script ε).Balanced :=
  fun level => reaches_ofSteps (h level)

theorem balanced_fail (e : ε) : (fail e).Balanced :=
  fun level => reaches_fail e level.le_refl

namespace Balanced

theorem andThen (h : a.Balanced) (h' : b.Balanced) : (a.andThen b).Balanced :=
  fun level => (h level).andThen (h' level)

/-- A block: a line, a script one level deeper, and what closes it. -/
theorem block (h : a.Balanced) (hclosing : Layout.Balanced closing) (text : String) :
    ((ofSteps [.line text, .indent]).andThen (a.andThen (ofSteps (.dedent :: closing)))).Balanced := by
  intro level
  have hopening : Climbs level level [.line text, .indent] (level + 1) :=
    .cons level.le_refl rfl (.cons level.le_refl rfl (.nil level.le_succ))
  have hdedent : Climbs level (level + 1) (.dedent :: closing) level := .cons level.le_succ rfl (hclosing level)
  obtain ⟨reached, hclimbs, hreached⟩ := h (level + 1)
  have hinside : a.Reaches level (level + 1) (level + 1) := ⟨reached, hclimbs.weaken level.le_succ, hreached⟩
  exact (reaches_ofSteps hopening).andThen (hinside.andThen (reaches_ofSteps hdedent))

theorem level_run (h : a.Balanced) (hfailure : a.failure = none) (b : Builder) : (b.run a.steps).level = b.level :=
  ((h b.level).climbs hfailure).level_run rfl

end Balanced

end Script

end TableExport.Layout
