import Mathlib.Data.List.GetD
import TableExport.Proofs.Text.Lines
import TableExport.Text.Difference

/-!
# What a comparison of two texts shows

The report on two texts has an entry for every line at which they differ, except where one of them has no line and the
other one reads like the placeholder for a line that is not there. When it has no entry it puts the difference down to
line breaks at the end of the texts, whatever the difference is.

- `Masked` are the differing lines without an entry, `mem_differences` lists those with one.
- `differences_eq_nil` says which texts have no entries.
- `mismatch?_shown` says what is reported.
-/

namespace TableExport.Text

/-- One list has no line there, and that of the other reads like the placeholder. -/
def Masked (es as : List (List Char)) (i : Nat) : Prop :=
  es[i]? = none ∧ as[i]? = some missingLine.toList ∨ es[i]? = some missingLine.toList ∧ as[i]? = none

/-- The report on texts whose differences are not shown on any line. -/
def endReport : String := "Content mismatch:\n  (difference in trailing newlines)\n"

/-! ## Lists with a value for what is not there -/

section Padding

variable {α : Type} {xs ys : List α} {m : α}

/-- A list shows the same when it is filled up with the value for what is not there. -/
theorem getD_append_replicate (xs : List α) (n : Nat) (m : α) (i : Nat) :
    (xs ++ List.replicate n m).getD i m = xs.getD i m := by
  rcases Nat.lt_or_ge i xs.length with hi | hi
  · rw [List.getD_append _ _ _ _ hi]
  · rw [List.getD_append_right _ _ _ _ hi, List.getD_eq_default _ _ hi, List.getD_eq_getElem?_getD,
      List.getElem?_replicate]
    split <;> rfl

/-- A list that shows the same as a shorter one is the shorter one, filled up. -/
theorem eq_append_replicate (h : ∀ i, xs.getD i m = ys.getD i m) (hlength : ys.length ≤ xs.length) :
    xs = ys ++ List.replicate (xs.length - ys.length) m := by
  refine List.ext_getElem (by simp; omega) fun i hi hi' => ?_
  rw [← List.getD_eq_getElem xs m hi, ← List.getD_eq_getElem _ m hi', getD_append_replicate, h]

/-- Two lists show the same if one of them is the other one, filled up. -/
theorem getD_eq_getD_iff : (∀ i, xs.getD i m = ys.getD i m) ↔
    ∃ n, xs = ys ++ List.replicate n m ∨ ys = xs ++ List.replicate n m := by
  constructor
  · intro h
    rcases Nat.le_total ys.length xs.length with hle | hle
    · exact ⟨_, .inl (eq_append_replicate h hle)⟩
    · exact ⟨_, .inr (eq_append_replicate (fun i => (h i).symm) hle)⟩
  · rintro ⟨n, rfl | rfl⟩ i
    · exact getD_append_replicate ys n m i
    · exact (getD_append_replicate xs n m i).symm

end Padding

/-! ## Lines that are shown -/

section Shown

variable {es as : List (List Char)} {i : Nat}

theorem shownLine_eq_shownLine :
    shownLine es i = shownLine as i ↔ es.getD i missingLine.toList = as.getD i missingLine.toList := by
  have hshown : ∀ ls : List (List Char), shownLine ls i = String.ofList (ls.getD i missingLine.toList) := by
    intro ls
    rw [shownLine, List.getD_eq_getElem?_getD]
    cases ls[i]? with
    | none => exact String.ofList_toList.symm
    | some l => rfl
  rw [hshown, hshown, String.ofList_inj]

/-- Two lists of lines show the same line if it is the same, or if the difference is masked. -/
theorem shownLine_eq_iff : shownLine es i = shownLine as i ↔ es[i]? = as[i]? ∨ Masked es as i := by
  rw [shownLine_eq_shownLine, List.getD_eq_getElem?_getD, List.getD_eq_getElem?_getD, Masked]
  cases es[i]? <;> cases as[i]? <;> simp [eq_comm]

theorem shownLine_eq_missingLine (h : es.length ≤ i) : shownLine es i = missingLine := by
  rw [shownLine, List.getElem?_eq_none h]
  rfl

end Shown

/-! ## Entries -/

variable {expected actual : String}

/-- **The entries** are those of the differing lines that are not masked. -/
theorem mem_differences {d : LineDifference} : d ∈ differences expected actual ↔
    ∃ i, d = ⟨i + 1, shownLine (lines expected.toList) i, shownLine (lines actual.toList) i⟩ ∧
      (lines expected.toList)[i]? ≠ (lines actual.toList)[i]? ∧
      ¬ Masked (lines expected.toList) (lines actual.toList) i := by
  simp only [differences, List.mem_filterMap, List.mem_range, ← not_or, ← shownLine_eq_iff, ne_eq]
  constructor
  · rintro ⟨i, -, hd⟩
    split at hd
    · cases hd
    · exact ⟨i, (Option.some.inj hd).symm, ‹_›⟩
  · rintro ⟨i, rfl, hi⟩
    refine ⟨i, ?_, if_neg hi⟩
    -- behind the last line both texts show the placeholder
    by_contra hlength
    exact hi (by rw [shownLine_eq_missingLine (by omega), shownLine_eq_missingLine (by omega)])

/-- Entries stand in the order of their lines, each of which has one at most. -/
theorem pairwise_differences (expected actual : String) :
    (differences expected actual).Pairwise (·.line < ·.line) := by
  refine List.pairwise_filterMap.2 (List.pairwise_lt_range.imp fun {i j} hlt d hd d' hd' => ?_)
  split at hd
  · cases hd
  split at hd'
  · cases hd'
  obtain rfl := Option.some.inj hd
  obtain rfl := Option.some.inj hd'
  exact Nat.succ_lt_succ hlt

/-- **Texts without entries** have the same lines, up to lines that read like the placeholder at the end of one. -/
theorem differences_eq_nil : differences expected actual = [] ↔
    ∃ n, lines expected.toList = lines actual.toList ++ List.replicate n missingLine.toList ∨
      lines actual.toList = lines expected.toList ++ List.replicate n missingLine.toList := by
  simp only [← getD_eq_getD_iff, ← shownLine_eq_shownLine]
  constructor
  · intro h i
    by_contra hi
    have hd := mem_differences.2 ⟨i, rfl, not_or.1 (mt shownLine_eq_iff.2 hi)⟩
    rw [h] at hd
    cases hd
  · intro h
    refine List.eq_nil_iff_forall_not_mem.2 fun d hd => ?_
    obtain ⟨i, -, hne, hmasked⟩ := mem_differences.1 hd
    exact (shownLine_eq_iff.1 (h i)).elim hne hmasked

/-! ## Reports -/

theorem mismatch?_eq_none : mismatch? expected actual = none ↔ expected = actual := by
  rw [mismatch?]
  split
  · simp [*]
  · split <;> simp [*]

/-- The report on texts with entries is the list of them. -/
theorem mismatch?_of_differences (h : expected ≠ actual) (hentries : differences expected actual ≠ []) :
    mismatch? expected actual = some ("Content mismatch:\n" ++
      String.join ((differences expected actual).map LineDifference.report)) := by
  rw [mismatch?, if_neg h]
  split
  · exact absurd ‹_› hentries
  · rfl

/-- A list of entries does not read like the report without any. -/
theorem entries_ne_endReport {ds : List LineDifference} (h : ds ≠ []) :
    "Content mismatch:\n" ++ String.join (ds.map LineDifference.report) ≠ endReport := by
  obtain ⟨d, ds, rfl⟩ := List.exists_cons_of_ne_nil h
  intro heq
  have := congrArg String.toList heq
  simp [LineDifference.report, endReport] at this

theorem mismatch?_eq_endReport :
    mismatch? expected actual = some endReport ↔ expected ≠ actual ∧ differences expected actual = [] := by
  constructor
  · intro h
    have hne : expected ≠ actual := fun heq => by rw [mismatch?_eq_none.2 heq] at h; cases h
    refine ⟨hne, ?_⟩
    by_contra hentries
    rw [mismatch?_of_differences hne hentries] at h
    exact entries_ne_endReport hentries (Option.some.inj h)
  · rintro ⟨hne, hnil⟩
    rw [mismatch?, if_neg hne, hnil]
    rfl

/-- Without a masked line, what is put down to line breaks at the end is a difference in line breaks. -/
theorem trimmed_eq_of_endReport (h : mismatch? expected actual = some endReport)
    (hmasked : ∀ i, ¬ Masked (lines expected.toList) (lines actual.toList) i) :
    trimmed (plainBreaks expected.toList) = trimmed (plainBreaks actual.toList) := by
  have hlines : lines expected.toList = lines actual.toList := by
    refine List.ext_getElem? fun i => ?_
    by_contra hne
    have hd := mem_differences.2 ⟨i, rfl, hne, hmasked i⟩
    rw [(mismatch?_eq_endReport.1 h).2] at hd
    cases hd
  rw [← trimmed_withFinalBreak, lines_inj.1 hlines, trimmed_withFinalBreak]

/-- **What is reported** on two texts. There is a report if they differ. It lists the lines at which they do in ascending
order, with what stands there, apart from those that are masked. If there are no others it speaks of the line breaks at
the end: the texts are the same then but for the kinds of their line breaks, the end of the last line, and lines that
read like the placeholder. Where no line is masked they agree in front of the line breaks at their ends. -/
theorem mismatch?_shown (expected actual : String) :
    (mismatch? expected actual = none ↔ expected = actual) ∧
    (expected ≠ actual → differences expected actual ≠ [] → mismatch? expected actual = some ("Content mismatch:\n" ++
      String.join ((differences expected actual).map LineDifference.report))) ∧
    (differences expected actual).Pairwise (·.line < ·.line) ∧
    (∀ d, d ∈ differences expected actual ↔
      ∃ i, d = ⟨i + 1, shownLine (lines expected.toList) i, shownLine (lines actual.toList) i⟩ ∧
        (lines expected.toList)[i]? ≠ (lines actual.toList)[i]? ∧
        ¬ Masked (lines expected.toList) (lines actual.toList) i) ∧
    (mismatch? expected actual = some endReport ↔ expected ≠ actual ∧ ∃ n,
      withFinalBreak (plainBreaks expected.toList) =
        withFinalBreak (plainBreaks actual.toList) ++ endedLines (List.replicate n missingLine.toList) ∨
      withFinalBreak (plainBreaks actual.toList) =
        withFinalBreak (plainBreaks expected.toList) ++ endedLines (List.replicate n missingLine.toList)) ∧
    (mismatch? expected actual = some endReport →
      (∀ i, ¬ Masked (lines expected.toList) (lines actual.toList) i) →
      trimmed (plainBreaks expected.toList) = trimmed (plainBreaks actual.toList)) := by
  refine ⟨mismatch?_eq_none, mismatch?_of_differences, pairwise_differences expected actual, fun d => mem_differences,
    ?_, trimmed_eq_of_endReport⟩
  rw [mismatch?_eq_endReport, differences_eq_nil]
  have hplaceholders : ∀ n, ∀ l ∈ List.replicate n missingLine.toList, '\n' ∉ l := by
    intro n l hl
    rw [List.eq_of_mem_replicate hl]
    decide
  simp only [lines_eq_append_iff (hplaceholders _)]

example : differences "a\nb\n" "a\nc\nd" = [⟨2, "b", "c"⟩, ⟨3, "<missing>", "d"⟩] := by decide

/-- A line that reads like the placeholder and a line break in the middle: neither difference is shown on a line, and
neither stands at the end of the texts. -/
theorem not_trimmed_endReport :
    (mismatch? "a\n<missing>" "a" = some endReport ∧
      (lines "a\n<missing>".toList)[1]? ≠ (lines "a".toList)[1]? ∧ (∀ d ∈ differences "a\n<missing>" "a", d.line ≠ 2) ∧
      trimmed "a\n<missing>".toList ≠ trimmed "a".toList) ∧
    mismatch? "a\r\nb" "a\nb" = some endReport ∧ trimmed "a\r\nb".toList ≠ trimmed "a\nb".toList := by
  decide

end TableExport.Text
