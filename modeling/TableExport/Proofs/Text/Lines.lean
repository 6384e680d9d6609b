import Mathlib.Data.List.DropRight
import TableExport.Text.Lines

/-!
# What the lines of a text keep

Two things of a text cannot be told from its lines: whether a line ends with a line feed alone, and whether the last
line is ended at all. All else can.

- `plainBreaks` and `withFinalBreak` are a text without these two things.
- `endedLines_lines` puts the lines of a text together again.
- `lines_inj` says which texts have the same lines, `lines_eq_append_iff` which have the lines of another one and more.
-/

namespace TableExport.Text

/-- A text in which all line breaks are line feeds alone. -/
def plainBreaks : List Char → List Char
  | [] => []
  | '\r' :: '\n' :: s => '\n' :: plainBreaks s
  | c :: s => c :: plainBreaks s

/-- A text whose last line is ended as well. -/
def withFinalBreak (s : List Char) : List Char :=
  if s = [] ∨ s.getLast? = some '\n' then s else s ++ ['\n']

/-- A text without the line feeds at its end. -/
def trimmed (s : List Char) : List Char :=
  s.rdropWhile (· = '\n')

/-- The text of lines, each ended by a line feed. -/
def endedLines (ls : List (List Char)) : List Char :=
  ls.flatMap (· ++ ['\n'])

variable {s t : List Char} {ls ls' : List (List Char)}

/-! ## Breaks -/

theorem withFinalBreak_eq_or (s : List Char) : withFinalBreak s = s ∨ withFinalBreak s = s ++ ['\n'] := by
  rw [withFinalBreak]
  split
  · exact .inl rfl
  · exact .inr rfl

theorem withFinalBreak_eq_nil : withFinalBreak s = [] ↔ s = [] := by
  constructor
  · intro h
    obtain heq | heq := withFinalBreak_eq_or s
    · rwa [heq] at h
    · simp [heq] at h
  · rintro rfl
    rfl

theorem withFinalBreak_cons (c : Char) (hs : s ≠ []) : withFinalBreak (c :: s) = c :: withFinalBreak s := by
  obtain ⟨c', s, rfl⟩ := List.exists_cons_of_ne_nil hs
  simp only [withFinalBreak, List.getLast?_cons_cons, reduceCtorEq, false_or]
  split <;> rfl

theorem withFinalBreak_break (s : List Char) : withFinalBreak ('\n' :: s) = '\n' :: withFinalBreak s := by
  by_cases hs : s = []
  · subst hs
    rfl
  · exact withFinalBreak_cons _ hs

theorem trimmed_withFinalBreak (s : List Char) : trimmed (withFinalBreak s) = trimmed s := by
  obtain h | h := withFinalBreak_eq_or s
  · rw [h]
  · rw [h, trimmed, List.rdropWhile_concat_pos _ _ _ (by decide), trimmed]

/-! ## Lines that are put together -/

theorem endedLines_append (ls ls' : List (List Char)) :
    endedLines (ls ++ ls') = endedLines ls ++ endedLines ls' :=
  List.flatMap_append

theorem endedLines_eq_intercalate (ls : List (List Char)) : endedLines ls = ['\n'].intercalate (ls ++ [[]]) := by
  induction ls with
  | nil => rfl
  | cons l ls ih =>
    rw [List.cons_append, List.intercalate_cons_of_ne_nil (by simp), ← ih]
    simp [endedLines]

/-- Lines that are ended by a line feed are cut apart at the line feeds, and nothing stands behind them. -/
theorem splitOn_endedLines (h : ∀ l ∈ ls, '\n' ∉ l) : (endedLines ls).splitOn '\n' = ls ++ [[]] := by
  rw [endedLines_eq_intercalate]
  exact List.splitOn_intercalate '\n' (List.forall_mem_append.2 ⟨h, by simp⟩) (by simp)

theorem endedLines_inj (h : ∀ l ∈ ls, '\n' ∉ l) (h' : ∀ l ∈ ls', '\n' ∉ l) :
    endedLines ls = endedLines ls' ↔ ls = ls' := by
  refine ⟨fun heq => ?_, congrArg endedLines⟩
  have hsplit := congrArg (List.splitOn '\n') heq
  rw [splitOn_endedLines h, splitOn_endedLines h'] at hsplit
  exact List.append_cancel_right hsplit

/-! ## The lines of a text -/

theorem notMem_lines (s : List Char) : ∀ l ∈ lines s, '\n' ∉ l := by
  fun_induction lines s with
  | case1 => exact fun l hl => absurd hl List.not_mem_nil
  | case2 s ih => exact List.forall_mem_cons.2 ⟨List.not_mem_nil, ih⟩
  | case3 s ih => exact List.forall_mem_cons.2 ⟨List.not_mem_nil, ih⟩
  | case4 c s hc _ _ _ => simpa using Ne.symm hc
  | case5 c s hc _ l ls hls ih =>
    rw [hls] at ih
    obtain ⟨hl, hls⟩ := List.forall_mem_cons.1 ih
    refine List.forall_mem_cons.2 ⟨?_, hls⟩
    simpa [hl] using Ne.symm hc

/-- **The lines of a text**, each ended by a line feed, are the text with plain breaks and a last line that is ended. -/
theorem endedLines_lines (s : List Char) : endedLines (lines s) = withFinalBreak (plainBreaks s) := by
  fun_induction lines s with
  | case1 => rfl
  | case2 s ih =>
    rw [plainBreaks, withFinalBreak_break, ← ih]
    · rfl
    · exact fun _ h _ => absurd h (by decide)
  | case3 s ih =>
    rw [plainBreaks, withFinalBreak_break, ← ih]
    rfl
  | case4 c s hc hbreak hls ih =>
    -- nothing stands behind the character, so it is the last line, without an end
    rw [hls] at ih
    rw [plainBreaks, withFinalBreak_eq_nil.1 ih.symm, withFinalBreak, if_neg (by simpa using hc)]
    · rfl
    · exact hbreak
  | case5 c s hc hbreak l ls hls ih =>
    rw [hls] at ih
    have hrest : plainBreaks s ≠ [] := by
      intro h
      rw [h] at ih
      simp [endedLines, withFinalBreak] at ih
    rw [plainBreaks, withFinalBreak_cons _ hrest, ← ih]
    · rfl
    · exact hbreak

/-- **Texts with the same lines** differ in their kinds of line breaks and in the end of the last line alone. -/
theorem lines_inj : lines s = lines t ↔ withFinalBreak (plainBreaks s) = withFinalBreak (plainBreaks t) := by
  rw [← endedLines_inj (notMem_lines s) (notMem_lines t), endedLines_lines, endedLines_lines]

/-- A text with more lines than another one goes on with them behind its last line. -/
theorem lines_eq_append_iff (h : ∀ l ∈ ls, '\n' ∉ l) : lines s = lines t ++ ls ↔
    withFinalBreak (plainBreaks s) = withFinalBreak (plainBreaks t) ++ endedLines ls := by
  rw [← endedLines_inj (notMem_lines s) (List.forall_mem_append.2 ⟨notMem_lines t, h⟩), endedLines_append,
    endedLines_lines, endedLines_lines]

end TableExport.Text
