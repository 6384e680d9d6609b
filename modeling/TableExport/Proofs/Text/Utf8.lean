import Mathlib.Tactic.SplitIfs
import TableExport.Text.Position

/-!
# Characters as bytes

A byte below 128 stands for the character of that number and for no other one, so a character below 128 can be found in
the bytes of a text as well as in its characters.

- `toUTF8_toList` are the bytes of a text, `length_toUTF8` counts them.
- `utf8EncodeChar_cases` are the bytes of a character, `eq_of_mem_utf8EncodeChar` finds a character in them.
-/

namespace TableExport.Text

/-- The bytes of a text are those of its characters. -/
theorem toUTF8_toList (s : String) : s.toUTF8.data.toList = s.toList.flatMap String.utf8EncodeChar := by
  rw [String.toUTF8_eq_toByteArray, ← String.utf8Encode_toList]
  simp [List.utf8Encode]

theorem length_flatMap_utf8EncodeChar (s : List Char) : (s.flatMap String.utf8EncodeChar).length = utf8Length s := by
  induction s with
  | nil => rfl
  | cons c s ih => rw [List.flatMap_cons, List.length_append, ih, String.length_utf8EncodeChar, utf8Length_cons]

theorem length_toUTF8 (s : String) : s.toUTF8.data.toList.length = utf8Length s.toList := by
  rw [toUTF8_toList, length_flatMap_utf8EncodeChar]

/-- A character below 128 is one byte, every other one several bytes that are not below 128. -/
theorem utf8EncodeChar_cases (c : Char) :
    c.toNat < 128 ∧ String.utf8EncodeChar c = [UInt8.ofNat c.toNat] ∨
      128 ≤ c.toNat ∧ ∃ b bs, String.utf8EncodeChar c = b :: bs ∧ ∀ x ∈ b :: bs, 128 ≤ x.toNat := by
  have hval : c.toNat = c.val.toNat := rfl
  rw [hval]
  simp only [String.utf8EncodeChar]
  by_cases hc : c.val.toNat ≤ 127
  · left
    rw [if_pos hc]
    exact ⟨by omega, rfl⟩
  · right
    rw [if_neg hc]
    refine ⟨by omega, ?_⟩
    split_ifs
    all_goals
      refine ⟨_, _, rfl, ?_⟩
      simp only [List.mem_cons, List.not_mem_nil, or_false, forall_eq_or_imp, forall_eq, UInt8.toNat_ofNat']
      omega

/-- A byte below 128 is there only for the character of that number. -/
theorem eq_of_mem_utf8EncodeChar {c d : Char} (hd : d.toNat < 128) (h : d.toUInt8 ∈ String.utf8EncodeChar c) :
    c = d := by
  have hbyte : d.toUInt8.toNat = d.toNat := by
    show d.val.toNat % 256 = d.val.toNat
    have : d.val.toNat < 128 := hd
    omega
  rcases utf8EncodeChar_cases c with ⟨hc, hbytes⟩ | ⟨-, b, bs, hbytes, hhigh⟩
  · rw [hbytes, List.mem_singleton] at h
    rw [h, UInt8.toNat_ofNat'] at hbyte
    exact Char.toNat_inj.1 (by omega)
  · rw [hbytes] at h
    have := hhigh _ h
    omega

end TableExport.Text
