import TableExport.Proofs.Text.UpperCase
import TableExport.Text.PascalCase

/-!
# Names in Pascal case, part by part

A name in Pascal case consists of the forms of its parts with nothing between them. It begins with a character that is
its own upper-case form and has no separator left, so there is nothing more to convert.

- `capitalized` is the form of a part; `pascalFrom_eq_flatMap` puts a name together from its parts.
- `isSeparator_of_mem_pascalFrom` and `pascalFrom_eq_nil` say which characters come and which go.
- `pascalFrom_pascalFrom` converts a name again; `pascalCase_parts` collects what is true of names.
-/

namespace TableExport.Text

/-- The form of a part of a name. -/
def capitalized : List Char → List Char
  | [] => []
  | c :: s => upperCase c ++ s

/-- Inside a part the rest of it stays as it is; the parts behind it are capitalized. -/
def pascalParts (start : Bool) : List (List Char) → List Char
  | [] => []
  | part :: parts => (if start then capitalized part else part) ++ parts.flatMap capitalized

/-- A name is converted part by part. -/
theorem pascalFrom_eq_pascalParts (start : Bool) (s : List Char) :
    pascalFrom start s = pascalParts start (s.splitOnP isSeparator) := by
  induction s generalizing start with
  | nil => cases start <;> rfl
  | cons c s ih =>
    obtain ⟨part, parts, hparts⟩ := List.exists_cons_of_ne_nil (List.splitOnP_ne_nil isSeparator s)
    rw [pascalFrom, List.splitOnP_cons_eq_if_modifyHead, ih, ih, hparts]
    split
    · cases start <;> simp [pascalParts, capitalized]
    · cases start <;> simp [pascalParts, capitalized]

/-- **A name** consists of the forms of its parts. -/
theorem pascalFrom_eq_flatMap (s : List Char) : pascalFrom true s = (s.splitOnP isSeparator).flatMap capitalized := by
  obtain ⟨part, parts, hparts⟩ := List.exists_cons_of_ne_nil (List.splitOnP_ne_nil isSeparator s)
  rw [pascalFrom_eq_pascalParts, hparts]
  rfl

/-! ## The characters of a name -/

theorem isSeparator_iff {c : Char} : isSeparator c = true ↔ c = '_' ∨ c = '-' := by
  simp [isSeparator]

/-- Upper-case forms bring in no separator. -/
theorem isSeparator_of_mem_upperCase {c d : Char} (hc : isSeparator c = false) (hd : d ∈ upperCase c) :
    isSeparator d = false := by
  rcases upperCase_cases c with h | ⟨e, es, h, -, hforms⟩
  · rw [h, List.mem_singleton] at hd
    rwa [hd]
  · have hform := (hforms d (h ▸ hd)).2
    rw [← Bool.not_eq_true, isSeparator_iff]
    rintro (rfl | rfl)
    · exact absurd hform (by decide)
    · exact absurd hform (by decide)

theorem isSeparator_of_mem_pascalFrom {start : Bool} {s : List Char} {d : Char} (h : d ∈ pascalFrom start s) :
    isSeparator d = false := by
  induction s generalizing start with
  | nil => cases h
  | cons c s ih =>
    rw [pascalFrom] at h
    split at h
    · exact ih h
    · rename_i hc
      rw [Bool.not_eq_true] at hc
      rcases List.mem_append.1 h with h | h
      · split at h
        · exact isSeparator_of_mem_upperCase hc h
        · rwa [List.mem_singleton.1 h]
      · exact ih h

/-- Nothing is left of separators, and something of every other character. -/
theorem pascalFrom_eq_nil {start : Bool} {s : List Char} :
    pascalFrom start s = [] ↔ ∀ c ∈ s, isSeparator c = true := by
  induction s generalizing start with
  | nil => simp [pascalFrom]
  | cons c s ih =>
    rw [pascalFrom, List.forall_mem_cons]
    by_cases hc : isSeparator c = true
    · rw [if_pos hc, ih]
      simp [hc]
    · rw [if_neg hc]
      cases start <;> simp [hc, upperCase_ne_nil]

/-! ## Converting a name again -/

/-- Inside a part, a text without separators stays as it is. -/
theorem pascalFrom_false {s : List Char} (h : ∀ c ∈ s, isSeparator c = false) : pascalFrom false s = s := by
  induction s with
  | nil => rfl
  | cons c s ih =>
    obtain ⟨hc, hs⟩ := List.forall_mem_cons.1 h
    simp [pascalFrom, hc, ih hs]

/-- A name in Pascal case begins with a character that is its own upper-case form. -/
theorem upperCase_head_pascalFrom {s t : List Char} {d : Char} (h : pascalFrom true s = d :: t) :
    upperCase d = [d] := by
  induction s with
  | nil => cases h
  | cons c s ih =>
    rw [pascalFrom] at h
    split at h
    · exact ih h
    · obtain ⟨e, es, hc, he⟩ := exists_upperCase_eq_cons c
      rw [if_pos rfl, hc] at h
      cases h
      exact he

/-- **A name that is converted** stays as it is when it is converted again. -/
theorem pascalFrom_pascalFrom (s : List Char) : pascalFrom true (pascalFrom true s) = pascalFrom true s := by
  have hseparators : ∀ c ∈ pascalFrom true s, isSeparator c = false := fun _ => isSeparator_of_mem_pascalFrom
  cases h : pascalFrom true s with
  | nil => rfl
  | cons d t =>
    rw [h] at hseparators
    obtain ⟨hd, ht⟩ := List.forall_mem_cons.1 hseparators
    rw [pascalFrom, if_neg (by simp [hd]), if_pos rfl, upperCase_head_pascalFrom h, pascalFrom_false ht]
    rfl

/-- **Pascal case** capitalizes the parts of a name and joins them, so names joined by a separator are converted one by
one. No separator is left, nothing at all only of separators, and converting again changes nothing. -/
theorem pascalCase_parts :
    (∀ s, (pascalCase s).toList = (s.toList.splitOnP isSeparator).flatMap capitalized) ∧
    (∀ a b, pascalCase (a ++ "_" ++ b) = pascalCase a ++ pascalCase b ∧
      pascalCase (a ++ "-" ++ b) = pascalCase a ++ pascalCase b) ∧
    (∀ s, '_' ∉ (pascalCase s).toList ∧ '-' ∉ (pascalCase s).toList) ∧
    (∀ s, pascalCase s = "" ↔ ∀ c ∈ s.toList, c = '_' ∨ c = '-') ∧
    ∀ s, pascalCase (pascalCase s) = pascalCase s := by
  have htoList (s : String) : (pascalCase s).toList = pascalFrom true s.toList := String.toList_ofList
  have hjoined (a b : String) {c : Char} (hc : isSeparator c = true) :
      pascalCase (a ++ String.ofList [c] ++ b) = pascalCase a ++ pascalCase b := by
    rw [← String.toList_inj, String.toList_append, htoList, htoList, htoList,
      ← pascalFrom_append_separator hc]
    simp
  have hseparators (s : String) {c : Char} (hc : isSeparator c = true) : c ∉ (pascalCase s).toList := by
    intro hmem
    rw [htoList] at hmem
    simp [isSeparator_of_mem_pascalFrom hmem] at hc
  refine ⟨fun s => ?_, fun a b => ⟨hjoined a b rfl, hjoined a b rfl⟩, fun s => ⟨hseparators s rfl, hseparators s rfl⟩,
    fun s => ?_, fun s => ?_⟩
  · rw [htoList, pascalFrom_eq_flatMap]
  · rw [← String.toList_eq_nil_iff, htoList, pascalFrom_eq_nil]
    simp only [isSeparator_iff]
  · rw [← String.toList_inj, htoList, htoList, pascalFrom_pascalFrom]

example : pascalCase "_straße--ßig-ŉ" = "StraßeSSigʼN" := by decide +kernel

end TableExport.Text
