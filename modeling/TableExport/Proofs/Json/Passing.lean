import TableExport.Proofs.Json.Outline

/-!
# Passing values

A value that nobody wants to know is passed if and only if it has an outline, whatever that is.

- `exists_opens` finds the outline of a value that was passed, and `Opens.passes` passes a value with an outline.
- `skipValue_eq_ok` puts both together.
-/

namespace TableExport.Json

variable {s r : List Char} {v : Outline} {vs : List Outline} {ms : List (Option String × Outline)} {first : Bool}

/-! ## Numbers and keys -/

section Causes

variable {e e' : Cause}

theorem scanDigits_cause {p : List Char × List Char} (h : scanDigits e s = .ok p) : scanDigits e' s = .ok p := by
  unfold scanDigits at h ⊢
  split at h
  · cases h
  · exact h

theorem scanWhole_cause {p : List Char × List Char} (h : scanWhole e s = .ok p) : scanWhole e' s = .ok p := by
  cases s with
  | nil => cases h
  | cons c s =>
    unfold scanWhole at h ⊢
    by_cases hc : c = '0'
    · simpa only [if_pos hc] using h
    · simp only [if_neg hc] at h ⊢
      exact scanDigits_cause h

theorem scanFraction_cause {p : List Char × List Char} (h : scanFraction e s = .ok p) :
    scanFraction e' s = .ok p := by
  cases s with
  | nil => exact h
  | cons c s =>
    unfold scanFraction at h ⊢
    by_cases hc : c = '.'
    · simp only [if_pos hc] at h ⊢
      exact scanDigits_cause h
    · simpa only [if_neg hc] using h

theorem scanExponent_cause {p : Option (Bool × List Char) × List Char} (h : scanExponent e s = .ok p) :
    scanExponent e' s = .ok p := by
  cases s with
  | nil => exact h
  | cons c s =>
    unfold scanExponent at h ⊢
    by_cases hc : (c = 'e' || c = 'E') = true
    · simp only [if_pos hc, bind_eq_ok] at h ⊢
      obtain ⟨q, hq, h⟩ := h
      exact ⟨q, scanDigits_cause hq, h⟩
    · simpa only [if_neg hc] using h

/-- Whether a number is well formed does not depend on the failure at the end of the text. -/
theorem scanNumber_cause {p : Numeral × List Char} (h : scanNumber e s = .ok p) : scanNumber e' s = .ok p := by
  unfold scanNumber at h ⊢
  generalize (if s.head? = some '-' then (true, s.drop 1) else (false, s)) = signed at h ⊢
  obtain ⟨negative, s₀⟩ := signed
  obtain ⟨whole, h₁, h⟩ := bind_eq_ok.1 h
  obtain ⟨fraction, h₂, h⟩ := bind_eq_ok.1 h
  obtain ⟨exponent, h₃, h⟩ := bind_eq_ok.1 h
  exact bind_eq_ok.2 ⟨whole, scanWhole_cause h₁, bind_eq_ok.2 ⟨fraction, scanFraction_cause h₂,
    bind_eq_ok.2 ⟨exponent, scanExponent_cause h₃, h⟩⟩⟩

end Causes

theorem readColon_eq_ok : readColon s = .ok r ↔ skipBlanks s = ':' :: r := by
  unfold readColon
  split
  · rename_i hs
    simp [hs]
  · rename_i c s' hs
    rw [hs]
    split
    · rename_i hc
      simp [hc]
    · rename_i hc
      simp [hc]

theorem skipKey_eq_ok : skipKey s = .ok r ↔
    ∃ s₁ s₂, skipBlanks s = '"' :: s₁ ∧ skipText s₁ = .ok s₂ ∧ skipBlanks s₂ = ':' :: r := by
  unfold skipKey
  split
  · rename_i hs
    simp [hs]
  · rename_i c s' hs
    rw [hs]
    split
    · rename_i hc
      simp only [bind_eq_ok, readColon_eq_ok, hc, List.cons.injEq, true_and]
      constructor
      · rintro ⟨s₂, hskip, hcolon⟩
        exact ⟨s', s₂, rfl, hskip, hcolon⟩
      · rintro ⟨_, s₂, rfl, hskip, hcolon⟩
        exact ⟨s₂, hskip, hcolon⟩
    · rename_i hc
      simp [hc]

/-! ## What was passed has an outline -/

section Loops

variable {skip : List Char → Except Failure (List Char)}
  (hskip : ∀ {s r : List Char}, skip s = .ok r → ∃ v, Opens s (.value v) r)
include hskip

theorem exists_items {bound : List Char} (h : skipElements skip bound first s = .ok r) :
    ∃ vs, Opens s (.items first vs) r := by
  induction bound generalizing first s with
  | nil => cases h
  | cons _ bound ih =>
    unfold skipElements at h
    split at h
    · cases h
    · rename_i c s' hs
      split at h
      · rename_i hc
        cases h
        exact ⟨[], .noItem (hc ▸ hs)⟩
      split at h
      · rename_i hfirst
        obtain ⟨s₂, hvalue, h⟩ := bind_eq_ok.1 h
        obtain ⟨v, hv⟩ := hskip hvalue
        obtain ⟨vs, hvs⟩ := ih h
        rw [← hs, opens_skipBlanks] at hv
        exact ⟨v :: vs, .item (by simp [PassesComma, hfirst]) hv hvs⟩
      · rename_i hfirst
        split at h
        · rename_i hc
          obtain ⟨s₂, hvalue, h⟩ := bind_eq_ok.1 h
          obtain ⟨v, hv⟩ := hskip hvalue
          obtain ⟨vs, hvs⟩ := ih h
          exact ⟨v :: vs, .item (by simp [PassesComma, hfirst, hs, hc]) hv hvs⟩
        · cases h

theorem exists_members {bound : List Char} (h : skipMembers skip bound first s = .ok r) :
    ∃ ms, Opens s (.members first ms) r := by
  induction bound generalizing first s with
  | nil => cases h
  | cons _ bound ih =>
    unfold skipMembers at h
    split at h
    · cases h
    · rename_i c s' hs
      split at h
      · rename_i hc
        cases h
        exact ⟨[], .noMember (hc ▸ hs)⟩
      split at h
      · rename_i hfirst
        obtain ⟨s₁, hkey, h⟩ := bind_eq_ok.1 h
        obtain ⟨s₂, hvalue, h⟩ := bind_eq_ok.1 h
        obtain ⟨k₁, k₂, hquote, htext, hcolon⟩ := skipKey_eq_ok.1 hkey
        obtain ⟨v, hv⟩ := hskip hvalue
        obtain ⟨ms, hms⟩ := ih h
        rw [← hs, skipBlanks_idem] at hquote
        exact ⟨(_, v) :: ms, .member (by simp [PassesComma, hfirst]) hquote htext rfl hcolon hv hms⟩
      · rename_i hfirst
        split at h
        · rename_i hc
          obtain ⟨s₁, hkey, h⟩ := bind_eq_ok.1 h
          obtain ⟨s₂, hvalue, h⟩ := bind_eq_ok.1 h
          obtain ⟨k₁, k₂, hquote, htext, hcolon⟩ := skipKey_eq_ok.1 hkey
          obtain ⟨v, hv⟩ := hskip hvalue
          obtain ⟨ms, hms⟩ := ih h
          exact ⟨(_, v) :: ms, .member (by simp [PassesComma, hfirst, hs, hc]) hquote htext rfl hcolon hv hms⟩
        · cases h

end Loops

/-- **What was passed** has an outline. -/
theorem exists_opens {bound : List Char} (h : skipNested bound s = .ok r) : ∃ v, Opens s (.value v) r := by
  induction bound generalizing s r with
  | nil => cases h
  | cons _ bound ih =>
    unfold skipNested at h
    split at h
    · cases h
    · rename_i c s' hs
      split at h
      · rename_i hc
        exact ⟨.null, .scalar (by rw [hs, hc]; exact .null h)⟩
      split at h
      · rename_i hc
        exact ⟨.boolean true, .scalar (by rw [hs, hc]; exact .yes h)⟩
      split at h
      · rename_i hc
        exact ⟨.boolean false, .scalar (by rw [hs, hc]; exact .no h)⟩
      split at h
      · rename_i hc
        obtain ⟨⟨t, r'⟩, hscan, h⟩ := bind_eq_ok.1 h
        cases h
        exact ⟨.number t, .scalar (by rw [hs]; exact .number hc (scanNumber_cause hscan))⟩
      split at h
      · rename_i hc
        exact ⟨.string _, .scalar (by rw [hs, hc]; exact .string h rfl)⟩
      split at h
      · rename_i hc
        obtain ⟨vs, hvs⟩ := exists_items ih h
        exact ⟨.array vs, .array (hc ▸ hs) hvs⟩
      split at h
      · rename_i hc
        obtain ⟨ms, hms⟩ := exists_members ih h
        exact ⟨.object ms, .object (hc ▸ hs) hms⟩
      · cases h

/-! ## What has an outline is passed -/

/-- The loops pass the piece, if they are given bounds that are large enough. -/
def Passes (s : List Char) (p : Piece) (r : List Char) : Prop :=
  match p with
  | .value _ => ∀ bound : List Char, s.length ≤ bound.length → skipNested bound s = .ok r
  | .items first _ => ∀ inner bound : List Char, s.length ≤ inner.length → s.length < bound.length →
      skipElements (skipNested inner) bound first s = .ok r
  | .members first _ => ∀ inner bound : List Char, s.length ≤ inner.length → s.length < bound.length →
      skipMembers (skipNested inner) bound first s = .ok r

theorem Scalar.passes {bound : List Char} {b : Char} (h : Scalar (skipBlanks s) v r) :
    skipNested (b :: bound) s = .ok r := by
  unfold skipNested
  generalize skipBlanks s = u at h
  cases h with
  | null h => simpa using h
  | yes h => simpa using h
  | no h => simpa using h
  | @number c s r t hnumber h =>
    have hne {d : Char} (hd : (d = '-' || d.isDigit) = false) : c ≠ d := ne_of_startsNumber hnumber hd
    have hletters : c ≠ 'n' ∧ c ≠ 't' ∧ c ≠ 'f' := ⟨hne rfl, hne rfl, hne rfl⟩
    simp only [hletters, hnumber, ↓reduceIte, bind_eq_ok]
    exact ⟨(t, r), scanNumber_cause h, rfl⟩
  | string h => simpa using h

/-- A bound that is as long as a text with something in it. -/
theorem exists_bound {bound : List Char} (h : r.length < s.length) (hbound : s.length ≤ bound.length) :
    ∃ b rest, bound = b :: rest ∧ r.length ≤ rest.length := by
  cases bound with
  | nil => exact absurd hbound (by simp only [List.length_nil]; omega)
  | cons b rest => exact ⟨b, rest, rfl, by simp only [List.length_cons] at hbound; omega⟩

theorem skipNested_skipBlanks {bound : List Char} (h : skipNested bound s = .ok r) :
    skipNested bound (skipBlanks s) = .ok r := by
  cases bound with
  | nil => cases h
  | cons b bound =>
    rw [skipNested] at h ⊢
    rwa [skipBlanks_idem]

section Steps

variable {inner bound s₁ s₂ : List Char} {b : Char} (hcomma : PassesComma first s s₁)
include hcomma

/-- One round of the loop through the items. -/
theorem skipElements_item (h : Opens s₁ (.value v) s₂) (hskip : skipNested inner s₁ = .ok s₂) :
    skipElements (skipNested inner) (b :: bound) first s = skipElements (skipNested inner) bound false s₂ := by
  obtain ⟨c, s', hs, hclose⟩ := h.not_closed hcomma
  rw [skipElements, hs]
  simp only [hclose, ↓reduceIte]
  cases first with
  | true =>
    cases hcomma
    have hvalue := skipNested_skipBlanks hskip
    rw [hs] at hvalue
    simp only [↓reduceIte, hvalue, bind, Except.bind]
  | false =>
    cases hs.symm.trans hcomma
    simp only [↓reduceIte, Bool.false_eq_true, hskip, bind, Except.bind]

/-- One round of the loop through the members. -/
theorem skipMembers_member {k₁ k₂ s₃ : List Char} (hquote : skipBlanks s₁ = '"' :: k₁) (htext : skipText k₁ = .ok k₂)
    (hcolon : skipBlanks k₂ = ':' :: s₂) (hskip : skipNested inner s₂ = .ok s₃) :
    skipMembers (skipNested inner) (b :: bound) first s = skipMembers (skipNested inner) bound false s₃ := by
  obtain ⟨c, s', hs, hclose⟩ := hcomma.not_closed hquote
  rw [skipMembers, hs]
  simp only [hclose, ↓reduceIte]
  cases first with
  | true =>
    cases hcomma
    have hkey : skipKey (c :: s') = .ok s₂ :=
      skipKey_eq_ok.2 ⟨k₁, k₂, by rw [← hs, skipBlanks_idem, hquote], htext, hcolon⟩
    simp only [↓reduceIte, hkey, hskip, bind, Except.bind]
  | false =>
    cases hs.symm.trans hcomma
    have hkey : skipKey s₁ = .ok s₂ := skipKey_eq_ok.2 ⟨k₁, k₂, hquote, htext, hcolon⟩
    simp only [↓reduceIte, Bool.false_eq_true, hkey, hskip, bind, Except.bind]

end Steps

/-- **What has an outline** is passed. -/
theorem Opens.passes {p : Piece} (h : Opens s p r) : Passes s p r := by
  induction h with
  | @scalar s r v h =>
    intro bound hbound
    obtain ⟨b, rest, rfl, -⟩ := exists_bound (Opens.scalar h).length_lt hbound
    exact h.passes
  | @array s s' r vs hs h ih =>
    intro bound hbound
    obtain ⟨b, rest, rfl, hrest⟩ := exists_bound (length_lt_of_skipBlanks hs) hbound
    have hitems := ih rest ('[' :: s') hrest (Nat.lt_succ_self _)
    simpa [skipNested, hs] using hitems
  | @object s s' r ms hs h ih =>
    intro bound hbound
    obtain ⟨b, rest, rfl, hrest⟩ := exists_bound (length_lt_of_skipBlanks hs) hbound
    have hmembers := ih rest ('\x7b' :: s') hrest (Nat.lt_succ_self _)
    simpa [skipNested, hs] using hmembers
  | @noItem s r first hs =>
    intro inner bound _ hbound
    obtain ⟨b, rest, rfl, -⟩ := exists_bound (length_lt_of_skipBlanks hs) hbound.le
    simp [skipElements, hs]
  | @item s s₁ s₂ r first v vs hcomma hv h ihv ih =>
    intro inner bound hinner hbound
    have hs₁ := hcomma.length_le
    have hs₂ := hv.length_lt
    obtain ⟨b, rest, rfl⟩ := List.exists_cons_of_length_pos (Nat.zero_lt_of_lt hbound)
    rw [List.length_cons] at hbound
    rw [skipElements_item hcomma hv (ihv inner (by omega))]
    exact ih inner rest (by omega) (by omega)
  | @noMember s r first hs =>
    intro inner bound _ hbound
    obtain ⟨b, rest, rfl, -⟩ := exists_bound (length_lt_of_skipBlanks hs) hbound.le
    simp [skipMembers, hs]
  | @member s s₁ k₁ k₂ s₂ s₃ r first name v ms hcomma hquote htext hname hcolon hv h ihv ih =>
    intro inner bound hinner hbound
    have hs₁ := hcomma.length_le
    have hk₁ := length_lt_of_skipBlanks hquote
    have hk₂ := (suffix_of_skipText htext).length_le
    have hs₂ := length_lt_of_skipBlanks hcolon
    have hs₃ := hv.length_lt
    obtain ⟨b, rest, rfl⟩ := List.exists_cons_of_length_pos (Nat.zero_lt_of_lt hbound)
    rw [List.length_cons] at hbound
    rw [skipMembers_member hcomma hquote htext hcolon (ihv inner (by omega))]
    exact ih inner rest (by omega) (by omega)

/-- **A value is passed** if and only if it has an outline. -/
theorem skipValue_eq_ok : skipValue s = .ok r ↔ ∃ v, Opens s (.value v) r :=
  ⟨exists_opens, fun ⟨_, h⟩ => h.passes s (Nat.le_refl _)⟩

end TableExport.Json
