import TableExport.Proofs.Json.Token

/-!
# What stands at the start of a text

The tokens of a text tell what comes first in it, behind blanks: a token leaves its character, or what the reader of its
kind leaves.

- `Lexeme` lists what a token can stand for; `exists_lexeme` finds it from the tokens of a text.
- `scanNumber_eq` says what a number was cut from, and `numeral_of_text` that the text of a whole number is cut into the
  numeral of that number, `value?_ofInt` that this has the number as its value.
-/

namespace TableExport.Json

open TableExport.Text

/-! ## What readers leave -/

theorem suffix_of_consText {c : Char} {x : Except Failure (List Char × List Char)} {s t r : List Char}
    (ih : ∀ {t r}, x = .ok (t, r) → r <:+ s) (h : consText c x = .ok (t, r)) : r <:+ s := by
  cases x with
  | error f => cases h
  | ok p =>
    cases h
    exact ih rfl

/-- A string leaves an end of the text. -/
theorem suffix_of_readText {s t r : List Char} (h : readText s = .ok (t, r)) : r <:+ s := by
  fun_induction readText s generalizing t r
  all_goals first
    | contradiction
    | exact (suffix_of_consText (by assumption) h).trans (by simp [List.suffix_cons_iff])
    | cases h; exact List.suffix_cons _ _

/-- A word leaves an end of the text. -/
theorem suffix_of_readWord {w s r : List Char} (h : readWord w s = .ok r) : r <:+ s := by
  fun_induction readWord w s with
  | case1 s => cases h; exact List.suffix_rfl
  | case2 => cases h
  | case3 w ws s ih => exact (ih h).trans (List.suffix_cons _ s)
  | case4 => cases h

/-! ## Numbers -/

/-- The sign of a numeral as it is written. -/
def Numeral.sign (t : Numeral) : List Char :=
  if t.negative then ['-'] else []

section Scanning

variable {e : Cause} {s ds r : List Char}

theorem scanDigits_eq (h : scanDigits e s = .ok (ds, r)) : s = ds ++ r ∧ ds ≠ [] := by
  unfold scanDigits at h
  split at h
  · cases h
  · rename_i hne
    simp only [Except.ok.injEq, Prod.mk.injEq] at h
    exact ⟨by rw [← h.1, ← h.2, List.takeWhile_append_dropWhile], fun hnil => hne (h.1.trans hnil)⟩

theorem scanWhole_eq (h : scanWhole e s = .ok (ds, r)) : s = ds ++ r ∧ ds ≠ [] := by
  cases s with
  | nil => cases h
  | cons c s =>
    simp only [scanWhole] at h
    split at h
    · rename_i hc
      split at h
      · cases h
      · cases h
        exact ⟨by rw [hc]; rfl, by simp⟩
    · exact scanDigits_eq h

/-- What a fraction was cut from: nothing, or a text with a point. -/
theorem scanFraction_eq (h : scanFraction e s = .ok (ds, r)) : ∃ p, s = p ++ r ∧ (p = [] ∧ ds = [] ∨ '.' ∈ p) := by
  cases s with
  | nil =>
    cases h
    exact ⟨[], rfl, .inl ⟨rfl, rfl⟩⟩
  | cons c s =>
    simp only [scanFraction] at h
    split at h
    · rename_i hc
      obtain ⟨rfl, -⟩ := scanDigits_eq h
      exact ⟨c :: ds, rfl, .inr (by simp [hc])⟩
    · cases h
      exact ⟨[], rfl, .inl ⟨rfl, rfl⟩⟩

theorem scanSign_eq (s : List Char) : (scanSign s).2 <:+ s := by
  unfold scanSign
  split
  · exact List.suffix_rfl
  · split
    · exact List.suffix_cons _ _
    split
    · exact List.suffix_cons _ _
    · exact List.suffix_rfl

/-- What an exponent was cut from: nothing, or a text with its letter. -/
theorem scanExponent_eq {x : Option (Bool × List Char)} (h : scanExponent e s = .ok (x, r)) :
    ∃ p, s = p ++ r ∧ (p = [] ∧ x = none ∨ 'e' ∈ p ∨ 'E' ∈ p) := by
  cases s with
  | nil =>
    cases h
    exact ⟨[], rfl, .inl ⟨rfl, rfl⟩⟩
  | cons c s =>
    simp only [scanExponent] at h
    split at h
    · rename_i hc
      obtain ⟨⟨ds, r'⟩, hds, h⟩ := bind_eq_ok.1 h
      cases h
      obtain ⟨q, hq⟩ := scanSign_eq s
      obtain ⟨hsign, -⟩ := scanDigits_eq hds
      refine ⟨c :: (q ++ ds), by rw [← hq, hsign]; simp, .inr ?_⟩
      simp only [Bool.or_eq_true, decide_eq_true_eq] at hc
      rcases hc with rfl | rfl
      · exact .inl List.mem_cons_self
      · exact .inr List.mem_cons_self
    · cases h
      exact ⟨[], rfl, .inl ⟨rfl, rfl⟩⟩

/-- **What a number was cut from**: its sign, its whole part, and texts for its fraction and its exponent, which are
empty or have a point and a letter in them. -/
theorem scanNumber_eq {t : Numeral} (h : scanNumber e s = .ok (t, r)) :
    ∃ f x, s = t.sign ++ (t.whole ++ (f ++ (x ++ r))) ∧ (t.negative = true ↔ s.head? = some '-') ∧ t.whole ≠ [] ∧
      (f = [] ∧ t.fraction = [] ∨ '.' ∈ f) ∧ (x = [] ∧ t.exponent = none ∨ 'e' ∈ x ∨ 'E' ∈ x) := by
  unfold scanNumber at h
  have hsign : s = (if s.head? = some '-' then ['-'] else []) ++
      (if s.head? = some '-' then (true, s.drop 1) else (false, s)).2 := by
    cases s with
    | nil => rfl
    | cons c s => by_cases hc : c = '-' <;> simp [hc]
  have hnegative : (if s.head? = some '-' then (true, s.drop 1) else (false, s)).1 = true ↔ s.head? = some '-' := by
    by_cases hminus : s.head? = some '-' <;> simp [hminus]
  generalize (if s.head? = some '-' then (true, s.drop 1) else (false, s)) = signed at h hsign hnegative
  obtain ⟨negative, s₀⟩ := signed
  obtain ⟨⟨whole, s₁⟩, h₁, h⟩ := bind_eq_ok.1 h
  obtain ⟨⟨fraction, s₂⟩, h₂, h⟩ := bind_eq_ok.1 h
  obtain ⟨⟨exponent, s₃⟩, h₃, h⟩ := bind_eq_ok.1 h
  cases h
  obtain ⟨rfl, hwhole⟩ := scanWhole_eq h₁
  obtain ⟨f, rfl, hf⟩ := scanFraction_eq h₂
  obtain ⟨x, rfl, hx⟩ := scanExponent_eq h₃
  refine ⟨f, x, hsign.trans ?_, hnegative, hwhole, hf, hx⟩
  congr 1
  exact if_congr hnegative.symm rfl rfl

/-- A number leaves an end of the text behind its first character. -/
theorem suffix_of_scanNumber {c : Char} {t : Numeral} (h : scanNumber e (c :: s) = .ok (t, r)) : r <:+ s := by
  obtain ⟨f, x, heq, -, hwhole, -⟩ := scanNumber_eq h
  cases hp : t.sign ++ t.whole with
  | nil => exact absurd (List.append_eq_nil_iff.1 hp).2 hwhole
  | cons d p =>
    rw [← List.append_assoc, hp] at heq
    cases heq
    exact ⟨p ++ (f ++ x), by simp⟩

end Scanning

/-- The numeral of a whole number. -/
def Numeral.ofInt (n : Int) : Numeral :=
  ⟨n < 0, Nat.toDigits 10 n.natAbs, [], none⟩

theorem sign_ofInt (n : Int) : (Numeral.ofInt n).sign = if n < 0 then ['-'] else [] := by
  simp [Numeral.ofInt, Numeral.sign]

theorem toList_toString_int (n : Int) : (toString n).toList = (Numeral.ofInt n).sign ++ Nat.toDigits 10 n.natAbs := by
  rw [sign_ofInt]
  cases n with
  | ofNat n => exact Nat.toList_repr
  | negSucc n =>
    rw [if_pos (Int.negSucc_lt_zero n)]
    show ("-" ++ (n + 1).repr).toList = _
    rw [String.toList_append, Nat.toList_repr]
    rfl

theorem isDigit_of_mem_toDigits {n : Nat} {c : Char} (h : c ∈ Nat.toDigits 10 n) : c.isDigit = true :=
  Nat.isDigit_of_mem_toDigits (by decide) (by decide) h

/-- **The text of a whole number** is cut into its numeral, whatever follows. -/
theorem numeral_of_text {e : Cause} {n : Int} {s r : List Char} {t : Numeral} (h : scanNumber e s = .ok (t, r))
    (htext : textBefore s r = toString n) : t = .ofInt n := by
  obtain ⟨f, x, hs, hnegative, hwhole, hf, hx⟩ := scanNumber_eq h
  have hbefore : s = (t.sign ++ (t.whole ++ (f ++ x))) ++ r := by simp [hs]
  have hchars : t.sign ++ (t.whole ++ (f ++ x)) = (Numeral.ofInt n).sign ++ Nat.toDigits 10 n.natAbs := by
    rw [hbefore, textBefore_append] at htext
    rw [← toList_toString_int, ← htext, String.toList_ofList]
  -- A minus sign is no digit, so that the text has one in front if and only if the number is negative.
  have hminus : t.negative = decide (n < 0) := by
    have hdigit := isDigit_of_mem_toDigits (n := n.natAbs) (c := '-')
    rw [sign_ofInt] at hchars
    by_cases ht : t.negative = true <;> by_cases hn : n < 0
    · simp [ht, hn]
    · rw [if_neg hn, List.nil_append, Numeral.sign, if_pos ht] at hchars
      exact absurd (hdigit (hchars ▸ List.mem_cons_self)) (by decide)
    · rw [hchars, if_pos hn] at hbefore
      exact absurd (hnegative.2 (by rw [hbefore]; rfl)) ht
    · simp [ht, hn]
  have hsign : t.sign = (Numeral.ofInt n).sign := by
    rw [Numeral.sign, Numeral.sign, hminus]
    rfl
  have hdigits : t.whole ++ (f ++ x) = Nat.toDigits 10 n.natAbs := by
    rwa [hsign, List.append_cancel_left_eq] at hchars
  have hmem {c : Char} (hc : c ∈ f ++ x) : c.isDigit = true :=
    isDigit_of_mem_toDigits (hdigits ▸ List.mem_append_right _ hc)
  obtain ⟨rfl, hfraction⟩ := hf.resolve_right fun hpoint =>
    absurd (hmem (List.mem_append_left _ hpoint)) (by decide)
  obtain ⟨rfl, hexponent⟩ := hx.resolve_right fun hletter => by
    rcases hletter with hletter | hletter <;> exact absurd (hmem (List.mem_append_right _ hletter)) (by decide)
  rw [List.append_nil, List.append_nil] at hdigits
  obtain ⟨negative, whole, fraction, exponent⟩ := t
  simp only at hminus hfraction hexponent hdigits
  rw [Numeral.ofInt, hminus, hdigits, hfraction, hexponent]

/-- The digits of a number spell it. -/
theorem ofDigits_toDigits (n : Nat) : ofDigits (Nat.toDigits 10 n) = n := by
  have hdigits := Nat.ofDigitChars_toDigits (b := 10) (n := n) (by decide) (by decide)
  simpa only [ofDigits, Nat.ofDigitChars, Nat.mul_comm 10] using hdigits

/-- A whole number of 32 bits is the value of its numeral. -/
theorem value?_ofInt {n : Int} (h : -(Decimal.twoTo 31 : Int) ≤ n ∧ n < Decimal.twoTo 31) :
    (Numeral.ofInt n).value? = some (.integer n) := by
  have hbounds : Decimal.twoTo 31 = 2147483648 ∧ maxSignificand = 18446744073709551615 ∧
      Decimal.twoTo 63 = 9223372036854775808 := ⟨rfl, rfl, rfl⟩
  rw [hbounds.1] at h
  have hwhole : (Numeral.ofInt n).isWhole = true := rfl
  have hdigits : ofDigits (Numeral.ofInt n).whole = n.natAbs := ofDigits_toDigits _
  unfold Numeral.value?
  simp only [hwhole, hdigits, hbounds]
  by_cases hn : n < 0
  · have hnegative : (Numeral.ofInt n).negative = true := decide_eq_true hn
    have hrange : 0 < n.natAbs ∧ n.natAbs ≤ 9223372036854775808 := by omega
    have hvalue : -(n.natAbs : Int) = n := by omega
    rw [if_neg (by simp [hnegative]), if_pos (by simp [hnegative, hrange]), hvalue]
  · have hnegative : (Numeral.ofInt n).negative = false := decide_eq_false hn
    have hrange : n.natAbs ≤ 18446744073709551615 := by omega
    have hvalue : (n.natAbs : Int) = n := by omega
    rw [if_pos (by simp [hnegative, hrange]), hvalue]

/-! ## Lexemes -/

/-- What a token can stand for at the start of a text, and what it leaves of the text. -/
inductive Lexeme : List Char → Token → List Char → Prop
  | sign {c : Char} {s : List Char} : isBlank c = false → signs.contains c = true → Lexeme (c :: s) (.sign c) s
  | string {s t r : List Char} : readText s = .ok (t, r) → Lexeme ('"' :: s) (.string (String.ofList t)) r
  | number {c : Char} {s r : List Char} {t : Numeral} : (c = '-' || c.isDigit) = true →
      scanNumber .endOfValue (c :: s) = .ok (t, r) → Lexeme (c :: s) (.number (textBefore (c :: s) r)) r
  | yes {s r : List Char} : readWord ['r', 'u', 'e'] s = .ok r → Lexeme ('t' :: s) (.boolean true) r
  | no {s r : List Char} : readWord ['a', 'l', 's', 'e'] s = .ok r → Lexeme ('f' :: s) (.boolean false) r
  | null {s r : List Char} : readWord ['u', 'l', 'l'] s = .ok r → Lexeme ('n' :: s) .null r

/-- A lexeme leaves an end of the text behind its first character, and that is no blank. -/
theorem Lexeme.leaves {s r : List Char} {t : Token} (h : Lexeme s t r) :
    ∃ c s', s = c :: s' ∧ isBlank c = false ∧ r <:+ s' := by
  cases h with
  | sign hblank _ => exact ⟨_, _, rfl, hblank, List.suffix_rfl⟩
  | string h => exact ⟨_, _, rfl, rfl, suffix_of_readText h⟩
  | number hc h => exact ⟨_, _, rfl, (startsNumber_only (by simpa using hc)).1, suffix_of_scanNumber h⟩
  | yes h => exact ⟨_, _, rfl, rfl, suffix_of_readWord h⟩
  | no h => exact ⟨_, _, rfl, rfl, suffix_of_readWord h⟩
  | null h => exact ⟨_, _, rfl, rfl, suffix_of_readWord h⟩

theorem afterWord_eq {t : Token} {x : Except Failure (List Char)} {ts : List Token} {r : List Char}
    (h : afterWord t x = some (ts, r)) : x = .ok r ∧ ts = [t] := by
  cases x with
  | error f => cases h
  | ok r' =>
    cases h
    exact ⟨rfl, rfl⟩

/-- The first step of the tokenizer passes a blank, or takes a lexeme. -/
theorem nextToken_eq {c : Char} {s r : List Char} {ts : List Token} (h : nextToken (c :: s) = some (ts, r)) :
    isBlank c = true ∧ ts = [] ∧ r = s ∨ ∃ t, ts = [t] ∧ Lexeme (c :: s) t r := by
  rw [nextToken] at h
  split at h
  · rename_i hblank
    cases h
    exact .inl ⟨hblank, rfl, rfl⟩
  · rename_i hblank
    right
    split at h
    · rename_i hsign
      cases h
      exact ⟨_, rfl, .sign (by simpa using hblank) hsign⟩
    split at h
    · rename_i hquote
      subst hquote
      split at h
      · rename_i t r' htext
        cases h
        exact ⟨_, rfl, .string htext⟩
      · cases h
    split at h
    · rename_i hnumber
      split at h
      · rename_i t r' hscan
        cases h
        exact ⟨_, rfl, .number hnumber hscan⟩
      · cases h
    split at h
    · rename_i hletter
      obtain ⟨hword, rfl⟩ := afterWord_eq h
      exact ⟨_, rfl, hletter ▸ .yes hword⟩
    split at h
    · rename_i hletter
      obtain ⟨hword, rfl⟩ := afterWord_eq h
      exact ⟨_, rfl, hletter ▸ .no hword⟩
    split at h
    · rename_i hletter
      obtain ⟨hword, rfl⟩ := afterWord_eq h
      exact ⟨_, rfl, hletter ▸ .null hword⟩
    · cases h

/-- A blank in front changes no tokens. -/
theorem tokens?_blank {c : Char} (h : isBlank c = true) (s : List Char) :
    tokens? nextToken (c :: s) = tokens? nextToken s := by
  have hnext : nextToken (c :: [] ++ s) = some ([], s) := by
    rw [List.singleton_append, nextToken, if_pos h]
  have hstep := tokens?_cons hnext
  rw [List.singleton_append] at hstep
  rw [hstep]
  cases tokens? nextToken s <;> rfl

/-- Blanks in front change no tokens. -/
theorem tokens?_skipBlanks (s : List Char) : tokens? nextToken (skipBlanks s) = tokens? nextToken s := by
  induction s with
  | nil => rfl
  | cons c s ih =>
    by_cases hc : isBlank c = true
    · rw [skipBlanks, List.dropWhile_cons_of_pos hc, tokens?_blank hc]
      exact ih
    · rw [skipBlanks, List.dropWhile_cons_of_neg hc]

/-- The tokens of a text behind its first step. -/
theorem tokens?_of_next {c : Char} {s r : List Char} {ts : List Token} (h : nextToken (c :: s) = some (ts, r))
    (hr : r <:+ s) : tokens? nextToken (c :: s) = (tokens? nextToken r).map (ts ++ ·) := by
  obtain ⟨q, rfl⟩ := hr
  exact tokens?_cons (c := c) (s := q) h

/-- A text without a blank in front has a first step, or no tokens. -/
theorem tokens?_cons_none {c : Char} {s : List Char} (h : nextToken (c :: s) = none) :
    tokens? nextToken (c :: s) = none := by
  rw [tokens?, tokensBehind, h]

/-- What is behind the blanks at the start of a text does not start with one. -/
theorem isBlank_of_skipBlanks {s s' : List Char} {c : Char} (h : skipBlanks s = c :: s') : isBlank c = false := by
  have hhead := List.head?_dropWhile_not isBlank s
  rw [skipBlanks] at h
  rw [h] at hhead
  simpa using hhead

/-- A text that is cut into tokens is blank and has none, or has a lexeme behind its blanks. -/
theorem blank_or_lexeme {s : List Char} {ts : List Token} (h : tokens? nextToken s = some ts) :
    skipBlanks s = [] ∧ ts = [] ∨
      ∃ t us r, ts = t :: us ∧ Lexeme (skipBlanks s) t r ∧ tokens? nextToken r = some us := by
  rw [← tokens?_skipBlanks] at h
  cases hs : skipBlanks s with
  | nil =>
    rw [hs] at h
    cases h
    exact .inl ⟨rfl, rfl⟩
  | cons c s' =>
    rw [hs] at h
    cases hnext : nextToken (c :: s') with
    | none =>
      rw [tokens?_cons_none hnext] at h
      cases h
    | some step =>
      obtain ⟨_, r⟩ := step
      rcases nextToken_eq hnext with ⟨hblank, -⟩ | ⟨t, rfl, hlexeme⟩
      · rw [isBlank_of_skipBlanks hs] at hblank
        cases hblank
      · obtain ⟨_, _, heq, -, hr⟩ := hlexeme.leaves
        cases heq
        rw [tokens?_of_next hnext hr, Option.map_eq_some_iff] at h
        obtain ⟨us, hus, h⟩ := h
        exact .inr ⟨t, us, r, h.symm, hlexeme, hus⟩

/-- **The first token** of a text stands for the lexeme behind the blanks at its start. -/
theorem exists_lexeme {s : List Char} {t : Token} {ts : List Token} (h : tokens? nextToken s = some (t :: ts)) :
    ∃ r, Lexeme (skipBlanks s) t r ∧ tokens? nextToken r = some ts := by
  rcases blank_or_lexeme h with ⟨-, hnil⟩ | ⟨u, us, r, heq, hlexeme, hr⟩
  · cases hnil
  · cases heq
    exact ⟨r, hlexeme, hr⟩

/-- A text without tokens is blank. -/
theorem skipBlanks_eq_nil {s : List Char} (h : tokens? nextToken s = some []) : skipBlanks s = [] := by
  rcases blank_or_lexeme h with ⟨hblank, -⟩ | ⟨t, us, r, heq, -⟩
  · exact hblank
  · cases heq

/-- A text has at least as many characters as tokens. -/
theorem length_le_of_tokens? : ∀ {ts : List Token} {s : List Char}, tokens? nextToken s = some ts →
    ts.length ≤ s.length
  | [], _, _ => Nat.zero_le _
  | t :: ts, s, h => by
    obtain ⟨r, hlexeme, hr⟩ := exists_lexeme h
    obtain ⟨c, s', hs, -, hrest⟩ := hlexeme.leaves
    have hts := length_le_of_tokens? hr
    have hblanks : (skipBlanks s).length ≤ s.length := (List.dropWhile_suffix isBlank).length_le
    have hle := hrest.length_le
    rw [hs] at hblanks
    simp only [List.length_cons] at hblanks ⊢
    omega

end TableExport.Json
