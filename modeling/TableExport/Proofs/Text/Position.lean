import Mathlib.Data.List.Basic
import Mathlib.Data.List.TakeWhile
import TableExport.Proofs.Text.Utf8

/-!
# Where labels point

A place in a text is found by its bytes: the line feeds in front of it count its line, the bytes behind the last of them
its column. A label for a place points at the byte in front of it, or at the place itself where a line starts. Places that
a text does not have get labels too; where the offset would be no machine word, they point in front of their line.

- `Position.behind` is the place behind bytes, `ofOffset_eq` says that a text is gone through to there.
- `advance_eq` counts the bytes of a text up to a place.
- `offsetOf?_place` says where labels point, `not_offsetOf?_monotone` is a column that is too great.
-/

namespace TableExport.Text

/-- The byte that ends a line. -/
def lineFeed : UInt8 := '\n'.toUInt8

/-- The place behind bytes. -/
def Position.behind (bs : List UInt8) : Position :=
  ⟨1 + bs.count lineFeed, (bs.reverse.takeWhile (· ≠ lineFeed)).length⟩

namespace Position

variable {bs cs : List UInt8}

theorem behind_append (h : lineFeed ∉ cs) :
    behind (bs ++ cs) = ⟨(behind bs).line, (behind bs).column + cs.length⟩ := by
  have hall : ∀ b ∈ cs.reverse, decide (b ≠ lineFeed) = true := by
    intro b hb
    rw [decide_eq_true_eq]
    rintro rfl
    exact h (List.mem_reverse.1 hb)
  rw [behind, List.count_append, List.count_eq_zero.2 h, List.reverse_append, List.takeWhile_append_of_pos hall,
    List.length_append, List.length_reverse, Nat.add_comm cs.length]
  rfl

theorem behind_lineFeed (bs : List UInt8) : behind (bs ++ [lineFeed]) = ⟨(behind bs).line + 1, 0⟩ := by
  simp [behind, Nat.add_assoc]

/-- **A text is gone through** to the place behind its bytes. -/
theorem advance_behind (s : List Char) (n : Nat) (bs : List UInt8) :
    advance (behind bs) s n = behind (bs ++ (s.flatMap String.utf8EncodeChar).take n) := by
  have hlength (c : Char) : (String.utf8EncodeChar c).length = c.utf8Size := String.length_utf8EncodeChar c
  have hnewline : String.utf8EncodeChar '\n' = [lineFeed] := by decide
  have hother {c : Char} (hc : c ≠ '\n') : lineFeed ∉ String.utf8EncodeChar c :=
    fun h => hc (eq_of_mem_utf8EncodeChar (by decide) h)
  induction s generalizing n bs with
  | nil => simp [advance]
  | cons c s ih =>
    rw [advance, List.flatMap_cons, List.take_append, hlength]
    split
    · rename_i hn
      have hrest : n - c.utf8Size = 0 := by omega
      have hfront : lineFeed ∉ (String.utf8EncodeChar c).take n := by
        intro hmem
        by_cases hc : c = '\n'
        · have : '\n'.utf8Size = 1 := by decide
          have hzero : n = 0 := by rw [hc] at hn; omega
          rw [hzero] at hmem
          cases hmem
        · exact hother hc (List.mem_of_mem_take hmem)
      rw [hrest, List.take_zero, List.append_nil, behind_append hfront, List.length_take, hlength,
        Nat.min_eq_left (by omega)]
    · rename_i hn
      rw [List.take_of_length_le (by rw [hlength]; omega), ← List.append_assoc]
      split
      · rename_i hc
        rw [hc, hnewline, ← ih, behind_lineFeed]
      · rename_i hc
        rw [← ih, behind_append (hother hc), hlength]

theorem ofOffset_eq (s : List Char) (n : Nat) : ofOffset s n = behind ((s.flatMap String.utf8EncodeChar).take n) :=
  advance_behind s n []

/-- The lines that were passed since a place, and the bytes of the text up to the new one. -/
theorem advance_eq (s : List Char) (n : Nat) (hn : n ≤ utf8Length s) (p : Position) :
    ∃ k column, advance p s n = ⟨p.line + k, column⟩ ∧
      lineStart s k + column = n + if k = 0 then p.column else 0 := by
  induction s generalizing n p with
  | nil =>
    have hzero : n = 0 := by simpa using hn
    exact ⟨0, p.column, rfl, by simp [hzero, lineStart]⟩
  | cons c s ih =>
    rw [utf8Length_cons] at hn
    rw [advance]
    split
    · exact ⟨0, p.column + n, rfl, by simp [lineStart, Nat.add_comm]⟩
    · split
      · rename_i hsize hc
        obtain ⟨k, column, hadvance, hsum⟩ := ih (n - c.utf8Size) (by omega) ⟨p.line + 1, 0⟩
        refine ⟨k + 1, column, by rw [hadvance, Nat.add_assoc, Nat.add_comm 1], ?_⟩
        rw [lineStart, if_pos hc, if_neg (Nat.succ_ne_zero k)]
        simp only [ite_self] at hsum
        omega
      · rename_i hsize hc
        obtain ⟨k, column, hadvance, hsum⟩ := ih (n - c.utf8Size) (by omega) ⟨p.line, p.column + c.utf8Size⟩
        refine ⟨k, column, hadvance, ?_⟩
        cases k with
        | zero =>
          simp only [lineStart, if_true] at hsum ⊢
          omega
        | succ k =>
          rw [lineStart, if_neg hc]
          simp only [Nat.succ_ne_zero, if_false] at hsum ⊢
          omega

/-- The bytes in front of the line of a place, and those of the line. -/
theorem lineStart_add_column {s : List Char} {n : Nat} (hn : n ≤ utf8Length s) :
    0 < (ofOffset s n).line ∧ lineStart s ((ofOffset s n).line - 1) + (ofOffset s n).column = n := by
  obtain ⟨k, column, hadvance, hsum⟩ := advance_eq s n hn ⟨1, 0⟩
  simp only [ite_self, Nat.add_zero] at hsum
  rw [ofOffset, hadvance, Nat.add_sub_cancel_left]
  exact ⟨Nat.add_pos_left Nat.one_pos k, hsum⟩

/-- The byte in front of a place stands on its line, unless the line starts there. -/
theorem line_behind_concat {b : UInt8} (h : (behind (bs ++ [b])).column ≠ 0) :
    (behind bs).line = (behind (bs ++ [b])).line := by
  by_cases hb : b = lineFeed
  · rw [hb, behind_lineFeed] at h
    exact absurd rfl h
  · rw [behind_append (by simpa using Ne.symm hb)]

theorem line_behind_take {i : Nat} (hi : i ≤ bs.length) (h : (behind (bs.take i)).column ≠ 0) :
    (behind (bs.take (i - 1))).line = (behind (bs.take i)).line := by
  cases i with
  | zero => rfl
  | succ i =>
    rw [List.take_succ_eq_append_getElem hi] at h ⊢
    exact line_behind_concat h

end Position

/-! ## Labels -/

theorem lineStart_le (s : List Char) (n : Nat) : lineStart s n ≤ utf8Length s := by
  induction s generalizing n with
  | nil => cases n <;> exact Nat.le_refl 0
  | cons c s ih =>
    cases n with
    | zero => exact Nat.zero_le _
    | succ n =>
      rw [lineStart, utf8Length_cons]
      split
      · exact Nat.add_le_add_left (ih n) _
      · exact Nat.add_le_add_left (ih (n + 1)) _

theorem offsetOf?_eq_none {s : List Char} {p : Position} : offsetOf? s p = none ↔ p.line = 0 := by
  unfold offsetOf?
  split <;> simp_all

theorem offsetOf?_of_pos {s : List Char} {p : Position} (h : 0 < p.line) : offsetOf? s p =
    some (min ((lineStart s (p.line - 1) + (p.column - 1)) % wordCount) (utf8Length s)) :=
  if_neg (Nat.pos_iff_ne_zero.1 h)

/-- The label of a place is not cut off at the end of the text. -/
theorem offsetOf?_ofOffset {s : List Char} {n : Nat} (hn : n ≤ utf8Length s) (hs : utf8Length s < wordCount) :
    offsetOf? s (Position.ofOffset s n) = some (if (Position.ofOffset s n).column = 0 then n else n - 1) := by
  obtain ⟨hline, hsum⟩ := Position.lineStart_add_column hn
  rw [offsetOf?_of_pos hline, Option.some.injEq, Nat.mod_eq_of_lt (by omega), Nat.min_eq_left (by omega)]
  split <;> omega

section Columns

variable {s : List Char} {line column : Nat} (hline : 0 < line)
include hline

/-- As long as offsets are machine words, a greater column has no label further in front. -/
theorem offsetOf?_mono {column' offset offset' : Nat} (hle : column ≤ column')
    (hword : lineStart s (line - 1) + (column' - 1) < wordCount) (h : offsetOf? s ⟨line, column⟩ = some offset)
    (h' : offsetOf? s ⟨line, column'⟩ = some offset') : offset ≤ offset' := by
  rw [offsetOf?_of_pos hline, Option.some.injEq, Nat.mod_eq_of_lt (by simp only; omega)] at h h'
  subst h h'
  simp only
  omega

/-- Where the offset would be no machine word, the label points in front of the line. -/
theorem offsetOf?_lt_lineStart (hs : utf8Length s < wordCount) (hcolumn : column < wordCount)
    (hword : wordCount ≤ lineStart s (line - 1) + (column - 1)) :
    ∃ offset < lineStart s (line - 1), offsetOf? s ⟨line, column⟩ = some offset := by
  have hstart := lineStart_le s (line - 1)
  refine ⟨_, ?_, offsetOf?_of_pos hline⟩
  simp only
  rw [Nat.mod_eq_sub_mod hword, Nat.mod_eq_of_lt (by omega)]
  omega

end Columns

/-- **Labels point back** at the place in a text that they are computed from: at the byte in front of it, which stands
on the same line, or at the place itself where a line starts. Every other place on a line has a label inside the text;
one with a greater column has none in front of it as long as offsets are machine words, and behind that the labels point
in front of the line. Line 0 alone has no label. -/
theorem offsetOf?_place (document : String) (hmemory : document.utf8ByteSize < wordCount) :
    (∀ i ≤ document.utf8ByteSize, ∃ offset ≤ document.utf8ByteSize,
      offsetOf? document.toList (.behind (document.toUTF8.data.toList.take i)) = some offset ∧
      offset = (if (Position.behind (document.toUTF8.data.toList.take i)).column = 0 then i else i - 1) ∧
      (Position.behind (document.toUTF8.data.toList.take offset)).line =
        (Position.behind (document.toUTF8.data.toList.take i)).line) ∧
    (∀ p : Position, 0 < p.line → ∃ offset ≤ document.utf8ByteSize, offsetOf? document.toList p = some offset) ∧
    (∀ line column column' offset offset', 0 < line → column ≤ column' →
      lineStart document.toList (line - 1) + (column' - 1) < wordCount →
      offsetOf? document.toList ⟨line, column⟩ = some offset →
      offsetOf? document.toList ⟨line, column'⟩ = some offset' → offset ≤ offset') ∧
    (∀ line column, 0 < line → column < wordCount →
      wordCount ≤ lineStart document.toList (line - 1) + (column - 1) →
      ∃ offset < lineStart document.toList (line - 1), offsetOf? document.toList ⟨line, column⟩ = some offset) ∧
    ∀ p, offsetOf? document.toList p = none ↔ p.line = 0 := by
  have hsize : document.utf8ByteSize = utf8Length document.toList := by
    rw [← length_toUTF8, String.toUTF8_eq_toByteArray]
    rfl
  rw [hsize] at hmemory ⊢
  refine ⟨fun i hi => ?_, fun p hp => ⟨_, Nat.min_le_right _ _, offsetOf?_of_pos hp⟩,
    fun line column column' offset offset' hline => offsetOf?_mono hline,
    fun line column hline => offsetOf?_lt_lineStart hline hmemory, fun p => offsetOf?_eq_none⟩
  have hplace := Position.ofOffset_eq document.toList i
  rw [← toUTF8_toList] at hplace
  refine ⟨_, ?_, by rw [← hplace]; exact offsetOf?_ofOffset hi hmemory, by rw [hplace], ?_⟩
  · split <;> omega
  · rw [hplace]
    split
    · rfl
    · rename_i hcolumn
      exact Position.line_behind_take (by rwa [length_toUTF8]) hcolumn

/-- A place inside a character behind a line break, and two places on a line that the text does not have. -/
theorem offsetOf?_place_umlaut : Position.behind ("a\r\nüb".toUTF8.data.toList.take 4) = ⟨2, 1⟩ ∧
    offsetOf? "a\r\nüb".toList ⟨2, 1⟩ = some 3 ∧
    ∃ offset offset', offsetOf? "a\r\nüb".toList ⟨7, 0⟩ = some offset ∧ offset ≤ 6 ∧
      offsetOf? "a\r\nüb".toList ⟨7, 9⟩ = some offset' ∧ offset ≤ offset' := by
  have hsize : "a\r\nüb".utf8ByteSize = 6 := by decide +kernel
  have hbehind : Position.behind ("a\r\nüb".toUTF8.data.toList.take 4) = ⟨2, 1⟩ := by decide +kernel
  obtain ⟨hplace, hline, hcolumns, -⟩ := offsetOf?_place "a\r\nüb" (by rw [hsize]; decide)
  obtain ⟨offset, -, hoffset, rfl, -⟩ := hplace 4 (by rw [hsize]; decide)
  obtain ⟨near, hnear, heq⟩ := hline ⟨7, 0⟩ (by decide)
  obtain ⟨far, -, heq'⟩ := hline ⟨7, 9⟩ (by decide)
  rw [hbehind] at hoffset
  have hle := hcolumns 7 0 9 near far (by decide) (by decide) (by decide +kernel) heq heq'
  exact ⟨hbehind, hoffset, near, far, heq, hsize ▸ hnear, heq', hle⟩

/-- Behind two empty lines, the last column of all has a label in front of that of the first. -/
theorem not_offsetOf?_monotone : offsetOf? "\n\n".toList ⟨3, 1⟩ = some 2 ∧
    offsetOf? "\n\n".toList ⟨3, 18446744073709551615⟩ = some 0 := by
  decide +kernel

end TableExport.Text
