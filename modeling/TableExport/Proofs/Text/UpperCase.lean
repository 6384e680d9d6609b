import TableExport.Text.UpperCase

/-!
# Forms that stay as they are

The upper-case form of a character begins with a character that is its own upper-case form, and brings in no sign of
ASCII: what is not an upper-case letter there lies behind ASCII.

- `CaseRun.forms` is the run of the upper-case forms of a run. `cased` lists all characters that change;
  `forms_apart_cased` says that no upper-case form is among them.
- `IsForm` is what a code point of an upper-case form is like.
- `upperCodes_cases` says what becomes of a code point, `upperCase_cases` what becomes of a character.
-/

namespace TableExport.Text

/-! ## Runs -/

namespace CaseRun

/-- The run of the upper-case forms. -/
def forms (r : CaseRun) : CaseRun :=
  ⟨(r.first + r.shift).toNat, (r.last + r.shift).toNat, r.step, 0⟩

/-- The runs have no code point in common: one of them ends in front of the other, or each holds every other code point
and they never meet. -/
def apart (r r' : CaseRun) : Bool :=
  Nat.blt r.last r'.first || Nat.blt r'.last r.first ||
    (r.step == 2 || r.first == r.last) && r'.step == 2 && (r.first + r'.first) % 2 == 1

variable {r r' : CaseRun} {n : Nat}

theorem holds_iff : r.holds n = true ↔ r.first ≤ n ∧ n ≤ r.last ∧ (n - r.first) % r.step = 0 := by
  simp [holds, and_assoc]

theorem holds_eq_false_of_apart (h : r.apart r' = true) (hn : r.holds n = true) : r'.holds n = false := by
  rw [← Bool.not_eq_true, holds_iff]
  rw [holds_iff] at hn
  simp only [apart, Bool.or_eq_true, Bool.and_eq_true, Nat.blt_eq, beq_iff_eq] at h
  rintro ⟨hfirst, hlast, hstep⟩
  rcases h with (h | h) | ⟨⟨h | h, h'⟩, hodd⟩
  · omega
  · omega
  · rw [h] at hn
    rw [h'] at hstep
    omega
  · rw [h'] at hstep
    omega

end CaseRun

/-! ## What upper-case forms are like -/

/-- A code point of a character that is an upper-case letter of ASCII, or lies behind ASCII. -/
def IsForm (n : Nat) : Prop :=
  n.isValidChar ∧ (0x41 ≤ n ∧ n ≤ 0x5A ∨ 0x7F < n)

instance : DecidablePred IsForm :=
  fun n => inferInstanceAs (Decidable (n.isValidChar ∧ (0x41 ≤ n ∧ n ≤ 0x5A ∨ 0x7F < n)))

/-- The forms of a run are on one side of the bounds of `IsForm`. -/
theorem bounds_forms : ∀ r ∈ caseRuns,
    (r.forms.last < 0xD800 ∨ 0xDFFF < r.forms.first ∧ r.forms.last < 0x110000) ∧
      (0x41 ≤ r.forms.first ∧ r.forms.last ≤ 0x5A ∨ 0x7F < r.forms.first) := by
  decide +kernel

/-- The characters that change, as runs. -/
def cased : List CaseRun :=
  caseRuns ++ expansions.map fun e => ⟨e.1, e.1, 1, 0⟩

/-- **Upper-case forms do not change again.** -/
theorem forms_apart_cased : (caseRuns.all fun r => cased.all r.forms.apart) = true := by
  decide +kernel

/-- The same for the first characters of longer forms. -/
theorem expansions_forms : ∀ e ∈ expansions, (∀ m ∈ e.2, IsForm m) ∧ ∀ m ∈ e.2.head?, upperCodes m = [m] := by
  decide +kernel

variable {n m : Nat}

theorem upperCodes_eq_self (h : ∀ r ∈ cased, r.holds n = false) : upperCodes n = [n] := by
  have hlookup : expansions.lookup n = none := by
    refine List.lookup_eq_none_iff.2 fun e he => ?_
    have hheld := h ⟨e.1, e.1, 1, 0⟩ (List.mem_append_right _ (List.mem_map_of_mem he))
    rw [← Bool.not_eq_true, CaseRun.holds_iff] at hheld
    rw [bne_iff_ne]
    rintro rfl
    exact hheld ⟨Nat.le_refl _, Nat.le_refl _, Nat.mod_one _⟩
  have hfind : caseRuns.find? (·.holds n) = none := by
    refine List.find?_eq_none.2 fun r hr => ?_
    simp [h r (List.mem_append_left _ hr)]
  rw [upperCodes, hlookup, hfind]

/-- The form of a code point of a run. -/
theorem holds_forms {r : CaseRun} (hr : r ∈ caseRuns) (h : r.holds n = true) :
    r.forms.holds ((n : Int) + r.shift).toNat = true := by
  obtain ⟨-, hbound⟩ := bounds_forms r hr
  rw [CaseRun.holds_iff] at h ⊢
  simp only [CaseRun.forms] at hbound ⊢
  have hdistance : ((n : Int) + r.shift).toNat - ((r.first : Int) + r.shift).toNat = n - r.first := by omega
  rw [hdistance]
  omega

theorem isForm_of_holds_forms {r : CaseRun} (hr : r ∈ caseRuns) (h : r.forms.holds m = true) : IsForm m := by
  obtain ⟨hvalid, hbound⟩ := bounds_forms r hr
  obtain ⟨hfirst, hlast, -⟩ := CaseRun.holds_iff.1 h
  refine ⟨?_, by omega⟩
  rw [Nat.isValidChar]
  omega

/-- **A code point** stays as it is, or becomes forms the first of which stays as it is. -/
theorem upperCodes_cases (n : Nat) :
    upperCodes n = [n] ∨ ∃ m ms, upperCodes n = m :: ms ∧ upperCodes m = [m] ∧ ∀ k ∈ m :: ms, IsForm k := by
  cases hlookup : expansions.lookup n with
  | some ns =>
    obtain ⟨k, hk⟩ := exists_mem_of_lookup hlookup
    obtain ⟨m, ms, rfl⟩ := List.exists_cons_of_ne_nil (expansions_ne_nil _ hk)
    obtain ⟨hforms, hfirst⟩ := expansions_forms _ hk
    have hcodes : upperCodes n = m :: ms := by rw [upperCodes, hlookup]
    exact .inr ⟨m, ms, hcodes, hfirst m rfl, hforms⟩
  | none =>
    cases hfind : caseRuns.find? (·.holds n) with
    | none =>
      rw [upperCodes, hlookup, hfind]
      exact .inl rfl
    | some r =>
      have hcodes : upperCodes n = [((n : Int) + r.shift).toNat] := by rw [upperCodes, hlookup, hfind]
      have hr := List.mem_of_find?_eq_some hfind
      have hn := List.find?_some hfind
      have hform := holds_forms hr hn
      have hapart := List.all_eq_true.1 (List.all_eq_true.1 forms_apart_cased r hr)
      refine .inr ⟨_, [], hcodes, upperCodes_eq_self fun k hk => ?_, ?_⟩
      · exact CaseRun.holds_eq_false_of_apart (hapart k hk) hform
      · exact List.forall_mem_singleton.2 (isForm_of_holds_forms hr hform)

/-! ## Characters -/

theorem IsForm.toNat_ofNat (h : IsForm m) : (Char.ofNat m).toNat = m := by
  rw [Char.ofNat, dif_pos h.1]
  rfl

/-- **A character** stays as it is, or becomes characters the first of which stays as it is. -/
theorem upperCase_cases (c : Char) :
    upperCase c = [c] ∨ ∃ d ds, upperCase c = d :: ds ∧ upperCase d = [d] ∧ ∀ e ∈ d :: ds, IsForm e.toNat := by
  unfold upperCase
  rcases upperCodes_cases c.toNat with h | ⟨m, ms, h, hm, hforms⟩
  · rw [h, List.map_singleton, Char.ofNat_toNat]
    exact .inl rfl
  · have htoNat (k) (hk : k ∈ m :: ms) := (hforms k hk).toNat_ofNat
    refine .inr ⟨Char.ofNat m, ms.map Char.ofNat, by rw [h, List.map_cons], ?_, ?_⟩
    · rw [htoNat m List.mem_cons_self, hm, List.map_singleton]
    · rw [← List.map_cons, List.forall_mem_map]
      intro k hk
      rw [htoNat k hk]
      exact hforms k hk

/-- The first character of an upper-case form is its own upper-case form. -/
theorem exists_upperCase_eq_cons (c : Char) : ∃ d ds, upperCase c = d :: ds ∧ upperCase d = [d] := by
  rcases upperCase_cases c with h | ⟨d, ds, h, hd, -⟩
  · exact ⟨c, [], h, h⟩
  · exact ⟨d, ds, h, hd⟩

end TableExport.Text
