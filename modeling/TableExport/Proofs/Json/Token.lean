import TableExport.Json.Number
import TableExport.Json.Quoted
import TableExport.Proofs.Outcome
import TableExport.Proofs.Text.Lexing

/-!
# Tokens of a JSON text

A text is cut into signs, strings, numbers and words. The text of a number is kept, so that nothing is lost of it.

- `nextToken` finds the first token; strings and numbers are found by the readers of documents.
- `readText_quoted` says that a quoted string is read back, whatever its characters are.
- `scanNumber_append` says that a number ends where no more of it can follow.
- `spells_quoted` and `spells_number` are the spellings that follow.
-/

namespace TableExport.Json

open TableExport.Text

/-- A token. -/
inductive Token where
  /-- A bracket, a comma or a colon. -/
  | sign (c : Char)
  /-- A string. -/
  | string (text : String)
  /-- A number as it is written. -/
  | number (text : String)
  | boolean (value : Bool)
  | null
deriving DecidableEq

/-- The brackets, the comma and the colon. -/
def signs : List Char := ['{', '}', '[', ']', ':', ',']

/-- The text in front of a rest of it. -/
def textBefore (s r : List Char) : String :=
  String.ofList (s.take (s.length - r.length))

/-- What follows a word. -/
def afterWord (t : Token) : Except Failure (List Char) → Option (List Token × List Char)
  | .ok r => some ([t], r)
  | .error _ => none

/-- The token at the start of a text, none at a blank. -/
def nextToken : Tokenizer Token
  | [] => none
  | c :: s =>
    if isBlank c then some ([], s)
    else if signs.contains c then some ([.sign c], s)
    else if c = '"' then
      match readText s with
      | .ok (t, r) => some ([.string (String.ofList t)], r)
      | .error _ => none
    else if c = '-' || c.isDigit then
      match scanNumber .endOfValue (c :: s) with
      | .ok (_, r) => some ([.number (textBefore (c :: s) r)], r)
      | .error _ => none
    else if c = 't' then afterWord (.boolean true) (readWord ['r', 'u', 'e'] s)
    else if c = 'f' then afterWord (.boolean false) (readWord ['a', 'l', 's', 'e'] s)
    else if c = 'n' then afterWord .null (readWord ['u', 'l', 'l'] s)
    else none

/-! ## Strings -/

theorem hexDigit?_digitChar : ∀ d < 16, hexDigit? (Nat.digitChar d) = some d := by
  decide

/-- Four hexadecimal digits are read back. -/
theorem hexUnit?_hexCode {n : Nat} (hn : n < 0x10000) :
    hexUnit? (Nat.digitChar (n / 4096 % 16)) (Nat.digitChar (n / 256 % 16)) (Nat.digitChar (n / 16 % 16))
      (Nat.digitChar (n % 16)) = some n := by
  have hvalue : ((n / 4096 % 16 * 16 + n / 256 % 16) * 16 + n / 16 % 16) * 16 + n % 16 = n := by omega
  simp only [hexUnit?, hexDigit?_digitChar _ (Nat.mod_lt _ (by decide : 0 < 16)), Option.bind_eq_bind, Option.bind_some,
    Option.pure_def, hvalue]

theorem readText_quote (r : List Char) : readText ('"' :: r) = .ok ([], r) := by
  rw [readText.eq_def]
  simp

theorem readText_plain {c : Char} (hquote : c ≠ '"') (hbackslash : c ≠ '\\') (hlow : ¬c.toNat < 0x20)
    (r : List Char) : readText (c :: r) = consText c (readText r) := by
  rw [readText.eq_def]
  simp [hquote, hbackslash, hlow]

theorem readText_shortEscape {e c : Char} (he : e ≠ 'u') (h : shortEscape? e = some c) (r : List Char) :
    readText ('\\' :: e :: r) = consText c (readText r) := by
  rw [readText.eq_def]
  simp [he, h]

theorem readText_unit {h₁ h₂ h₃ h₄ : Char} {n : Nat} (hn : hexUnit? h₁ h₂ h₃ h₄ = some n) (hlow : n < 0x20)
    (r : List Char) : readText ('\\' :: 'u' :: h₁ :: h₂ :: h₃ :: h₄ :: r) = consText (Char.ofNat n) (readText r) := by
  have hsurrogates : isLowSurrogate n = false ∧ isHighSurrogate n = false := by
    simp only [isLowSurrogate, isHighSurrogate, Bool.and_eq_false_iff, decide_eq_false_iff_not]
    omega
  rw [readText.eq_def]
  simp [hn, hsurrogates]

/-- A character inside quotes is read back. -/
theorem readText_quotedChar (c : Char) (r : List Char) : readText (quotedChar c ++ r) = consText c (readText r) := by
  unfold quotedChar
  split
  · subst_vars; exact readText_shortEscape (by decide) rfl r
  split
  · subst_vars; exact readText_shortEscape (by decide) rfl r
  split
  · subst_vars; exact readText_shortEscape (by decide) rfl r
  split
  · subst_vars; exact readText_shortEscape (by decide) rfl r
  split
  · subst_vars; exact readText_shortEscape (by decide) rfl r
  split
  · subst_vars; exact readText_shortEscape (by decide) rfl r
  split
  · subst_vars; exact readText_shortEscape (by decide) rfl r
  split
  · rename_i hlow
    have hunit := readText_unit (hexUnit?_hexCode (Nat.lt_trans hlow (by decide))) hlow r
    rwa [Char.ofNat_toNat] at hunit
  · rename_i hquote hbackslash _ _ _ _ _ hlow
    exact readText_plain hquote hbackslash hlow r

/-- **A quoted string is read back** up to its closing quote. -/
theorem readText_quoted (s r : List Char) : readText (s.flatMap quotedChar ++ '"' :: r) = .ok (s, r) := by
  induction s with
  | nil => exact readText_quote r
  | cons c s ih =>
    rw [List.flatMap_cons, List.append_assoc, readText_quotedChar, ih]
    rfl

/-- A quoted string spells itself. -/
theorem spells_quoted (s : String) : Spells nextToken Anything (quoted s).toList [.string s] := by
  rw [quoted, String.toList_ofList]
  refine Spells.of_next fun r _ => ?_
  show nextToken ('"' :: (s.toList.flatMap quotedChar ++ ['"'] ++ r)) = _
  rw [List.append_assoc, List.singleton_append, nextToken, readText_quoted]
  simp [isBlank, signs]

/-! ## Numbers -/

/-- The character may be part of a number. -/
def isNumberPart (c : Char) : Bool :=
  c.isDigit || ['.', 'e', 'E', '+', '-'].contains c

/-- No more of a number follows. -/
def NumberEnds (r : List Char) : Prop :=
  ∀ c ∈ r.head?, isNumberPart c = false

theorem NumberEnds.not_isDigit {r : List Char} (h : NumberEnds r) {c : Char} (hc : c ∈ r.head?) :
    c.isDigit = false := by
  have := h c hc
  simp only [isNumberPart, Bool.or_eq_false_iff] at this
  exact this.1

theorem NumberEnds.of_atBreak {r : List Char} (h : AtBreak r) : NumberEnds r := by
  rcases h with rfl | ⟨c, r, rfl, rfl | rfl | rfl⟩ <;> simp [NumberEnds, isNumberPart]

/-- The text is a number. -/
def isNumber (text : String) : Bool :=
  match scanNumber .endOfValue text.toList with
  | .ok (_, r) => r.isEmpty
  | .error _ => false

section Numbers

variable {e : Cause} {s r : List Char} (hr : NumberEnds r)
include hr

theorem scanDigits_append {ds s' : List Char} (h : scanDigits e s = .ok (ds, s')) :
    scanDigits e (s ++ r) = .ok (ds, s' ++ r) := by
  have hdigits := takeWhile_append_of_head s fun c hc => hr.not_isDigit hc
  unfold scanDigits at h ⊢
  rw [hdigits.1, hdigits.2]
  split at h
  · cases h
  · rename_i hne
    simp only [Except.ok.injEq, Prod.mk.injEq] at h
    rw [h.1, h.2]

theorem scanWhole_append {ds s' : List Char} (h : scanWhole e s = .ok (ds, s')) :
    scanWhole e (s ++ r) = .ok (ds, s' ++ r) := by
  cases s with
  | nil => cases h
  | cons c s =>
    rw [List.cons_append]
    unfold scanWhole at h ⊢
    by_cases hc : c = '0'
    · simp only [hc, ↓reduceIte] at h ⊢
      cases s with
      | nil =>
        cases r with
        | nil => simpa using h
        | cons d r =>
          have hd := hr d rfl
          simp only [isNumberPart, Bool.or_eq_false_iff] at hd
          simp_all
      | cons d s =>
        cases hd : d.isDigit with
        | true => simp [hd] at h
        | false =>
          simp only [List.head?_cons, Option.map_some, Option.getD_some, hd] at h
          cases h
          simp [hd]
    · simp only [hc, ↓reduceIte] at h ⊢
      exact scanDigits_append hr h

theorem scanFraction_append {ds s' : List Char} (h : scanFraction e s = .ok (ds, s')) :
    scanFraction e (s ++ r) = .ok (ds, s' ++ r) := by
  cases s with
  | nil =>
    simp only [scanFraction, Except.ok.injEq, Prod.mk.injEq] at h
    obtain ⟨rfl, rfl⟩ := h
    cases r with
    | nil => rfl
    | cons c r =>
      have hc := hr c rfl
      have hpoint : c ≠ '.' := by rintro rfl; simp [isNumberPart] at hc
      simp [scanFraction, hpoint]
  | cons c s =>
    simp only [scanFraction, List.cons_append] at h ⊢
    split at h
    · rename_i hc
      rw [if_pos hc]
      exact scanDigits_append hr h
    · rename_i hc
      rw [if_neg hc]
      simp only [Except.ok.injEq, Prod.mk.injEq] at h
      rw [← h.1, ← h.2, List.cons_append]

theorem scanSign_append : scanSign (s ++ r) = ((scanSign s).1, (scanSign s).2 ++ r) := by
  cases s with
  | nil =>
    cases r with
    | nil => rfl
    | cons c r =>
      have hc := hr c rfl
      have hsigns : c ≠ '-' ∧ c ≠ '+' := by constructor <;> rintro rfl <;> simp [isNumberPart] at hc
      simp [scanSign, hsigns]
  | cons c s =>
    simp only [scanSign, List.cons_append]
    split
    · rfl
    split <;> rfl

theorem scanExponent_append {x : Option (Bool × List Char)} {s' : List Char} (h : scanExponent e s = .ok (x, s')) :
    scanExponent e (s ++ r) = .ok (x, s' ++ r) := by
  cases s with
  | nil =>
    simp only [scanExponent, Except.ok.injEq, Prod.mk.injEq] at h
    obtain ⟨rfl, rfl⟩ := h
    cases r with
    | nil => rfl
    | cons c r =>
      have hc := hr c rfl
      have hmarks : c ≠ 'e' ∧ c ≠ 'E' := by constructor <;> rintro rfl <;> simp [isNumberPart] at hc
      simp [scanExponent, hmarks]
  | cons c s =>
    simp only [scanExponent, List.cons_append] at h ⊢
    split at h
    · rename_i hc
      rw [if_pos hc]
      obtain ⟨⟨ds, t⟩, hds, h⟩ := bind_eq_ok.1 h
      rw [pure_eq_ok] at h
      simp only [Prod.mk.injEq] at h
      rw [scanSign_append hr, bind_eq_ok]
      exact ⟨_, scanDigits_append hr hds, by simp [h.1, h.2]⟩
    · rename_i hc
      rw [if_neg hc]
      simp only [Except.ok.injEq, Prod.mk.injEq] at h
      rw [← h.1, ← h.2, List.cons_append]

/-- **A number is read the same** in front of a text that cannot be more of it. -/
theorem scanNumber_append {t : Numeral} {s' : List Char} (h : scanNumber e s = .ok (t, s')) :
    scanNumber e (s ++ r) = .ok (t, s' ++ r) := by
  unfold scanNumber at h ⊢
  have hsign : (if (s ++ r).head? = some '-' then (true, (s ++ r).drop 1) else (false, s ++ r)) =
      ((if s.head? = some '-' then (true, s.drop 1) else (false, s)).1,
        (if s.head? = some '-' then (true, s.drop 1) else (false, s)).2 ++ r) := by
    cases s with
    | nil =>
      cases r with
      | nil => rfl
      | cons c r =>
        have hc := hr c rfl
        have hminus : c ≠ '-' := by rintro rfl; simp [isNumberPart] at hc
        simp [hminus]
    | cons c s => by_cases hc : c = '-' <;> simp [hc]
  generalize (if s.head? = some '-' then (true, s.drop 1) else (false, s)) = signed at h hsign
  obtain ⟨negative, s₀⟩ := signed
  rw [hsign]
  obtain ⟨⟨whole, s₁⟩, h₁, h⟩ := bind_eq_ok.1 h
  obtain ⟨⟨fraction, s₂⟩, h₂, h⟩ := bind_eq_ok.1 h
  obtain ⟨⟨exponent, s₃⟩, h₃, h⟩ := bind_eq_ok.1 h
  rw [pure_eq_ok] at h
  simp only [Prod.mk.injEq] at h
  refine bind_eq_ok.2 ⟨_, scanWhole_append hr h₁, bind_eq_ok.2 ⟨_, scanFraction_append hr h₂,
    bind_eq_ok.2 ⟨_, scanExponent_append hr h₃, ?_⟩⟩⟩
  rw [pure_eq_ok, ← h.1, ← h.2]

end Numbers

/-- A number starts with a minus sign or a digit. -/
theorem scanNumber_head {e : Cause} {c : Char} {s s' : List Char} {t : Numeral}
    (h : scanNumber e (c :: s) = .ok (t, s')) : c = '-' ∨ c.isDigit = true := by
  by_cases hc : c = '-'
  · exact .inl hc
  · right
    unfold scanNumber at h
    simp only [List.head?_cons, Option.some.injEq, hc, ↓reduceIte] at h
    obtain ⟨⟨whole, s₁⟩, h, -⟩ := bind_eq_ok.1 h
    by_cases hd : c.isDigit
    · exact hd
    · have hzero : c ≠ '0' := by rintro rfl; simp at hd
      simp [scanWhole, scanDigits, hzero, hd] at h

theorem textBefore_append (s r : List Char) : textBefore (s ++ r) r = String.ofList s := by
  simp [textBefore]

/-- What starts a number starts nothing else. -/
theorem startsNumber_only {c : Char} (h : c = '-' ∨ c.isDigit = true) :
    isBlank c = false ∧ signs.contains c = false ∧ c ≠ '"' := by
  refine ⟨?_, ?_, ?_⟩
  · cases hb : isBlank c with
    | false => rfl
    | true =>
      simp only [isBlank, Bool.or_eq_true, decide_eq_true_eq] at hb
      rcases hb with ((rfl | rfl) | rfl) | rfl <;> simp at h
  · cases hb : signs.contains c with
    | false => rfl
    | true =>
      simp only [signs, List.contains_iff_mem, List.mem_cons, List.not_mem_nil, or_false] at hb
      rcases hb with rfl | rfl | rfl | rfl | rfl | rfl <;> simp at h
  · rintro rfl
    simp at h

/-- A number spells itself in front of a break. -/
theorem spells_number {text : String} (h : isNumber text = true) :
    Spells nextToken AtBreak text.toList [.number text] := by
  unfold isNumber at h
  cases hscan : scanNumber .endOfValue text.toList with
  | error f => simp [hscan] at h
  | ok tr =>
    obtain ⟨t, r⟩ := tr
    simp only [hscan, List.isEmpty_iff] at h
    rw [h] at hscan
    cases htext : text.toList with
    | nil => rw [htext] at hscan; cases hscan
    | cons c s =>
      rw [htext] at hscan
      refine Spells.of_next fun r hr => ?_
      have happend := scanNumber_append (NumberEnds.of_atBreak hr) hscan
      have hhead := scanNumber_head hscan
      have hnumber : (decide (c = '-') || c.isDigit) = true := by simpa using hhead
      rw [List.nil_append, List.cons_append] at happend
      rw [List.cons_append, nextToken]
      simp only [startsNumber_only hhead, Bool.false_eq_true, ↓reduceIte, hnumber, happend]
      rw [← List.cons_append, textBefore_append, ← htext, String.ofList_toList]

/-- The word of a truth value spells it. -/
theorem spells_boolean (b : Bool) : Spells nextToken Anything (toString b).toList [.boolean b] := by
  cases b
  · refine fun r _ => tokens?_cons (c := 'f') (s := ['a', 'l', 's', 'e']) ?_
    simp [nextToken, isBlank, signs, readWord, afterWord]
  · refine fun r _ => tokens?_cons (c := 't') (s := ['r', 'u', 'e']) ?_
    simp [nextToken, isBlank, signs, readWord, afterWord]

/-! ## Whole numbers -/

/-- The digits of a number other than zero do not start with a zero. -/
theorem head?_toDigits_ne_zero {n : Nat} (hn : 0 < n) : (Nat.toDigits 10 n).head? ≠ some '0' := by
  induction n using Nat.strongRecOn with
  | ind n ih =>
    rw [Nat.toDigits_eq_if (by decide)]
    split
    · rename_i hlt
      have : ∀ d < 10, 0 < d → [Nat.digitChar d].head? ≠ some '0' := by decide
      exact this n hlt hn
    · rename_i hge
      have hq := ih (n / 10) (by omega) (by omega)
      cases hd : Nat.toDigits 10 (n / 10) with
      | nil => exact absurd hd Nat.toDigits_ne_nil
      | cons c ds =>
        rw [hd] at hq
        simpa using hq

/-- The digits of a natural number are the whole part of a number. -/
theorem scanWhole_toDigits (e : Cause) (n : Nat) :
    scanWhole e (Nat.toDigits 10 n) = .ok (Nat.toDigits 10 n, []) := by
  rcases Nat.eq_zero_or_pos n with rfl | hn
  · rfl
  · have hdigits : ∀ c ∈ Nat.toDigits 10 n, c.isDigit = true :=
      fun c hc => Nat.isDigit_of_mem_toDigits (by decide) (by decide) hc
    have hhead := head?_toDigits_ne_zero hn
    cases hds : Nat.toDigits 10 n with
    | nil => exact absurd hds Nat.toDigits_ne_nil
    | cons c ds =>
      rw [hds] at hdigits hhead
      have hzero : c ≠ '0' := by rintro rfl; simp at hhead
      have htake : (c :: ds).takeWhile Char.isDigit = c :: ds := List.takeWhile_eq_self_iff.2 hdigits
      have hdrop : (c :: ds).dropWhile Char.isDigit = [] := List.dropWhile_eq_nil_iff.2 hdigits
      simp only [scanWhole, hzero, ↓reduceIte, scanDigits, htake, hdrop]

/-- **A whole number** is written as a number. -/
theorem isNumber_toString (n : Int) : isNumber (toString n) = true := by
  cases n with
  | ofNat n =>
    have hminus : ¬(Nat.toDigits 10 n).head? = some '-' := by
      intro h
      have := Nat.isDigit_of_mem_toDigits (by decide) (by decide) (List.mem_of_mem_head? h)
      simp at this
    have htext : (toString (Int.ofNat n)).toList = Nat.toDigits 10 n := Nat.toList_repr
    simp only [isNumber, htext, scanNumber, hminus, ↓reduceIte, scanWhole_toDigits]
    rfl
  | negSucc n =>
    have htext : (toString (Int.negSucc n)).toList = '-' :: Nat.toDigits 10 (n + 1) := by
      show ("-" ++ (n + 1).repr).toList = _
      rw [String.toList_append, Nat.toList_repr]
      rfl
    simp only [isNumber, htext, scanNumber, List.head?_cons, ↓reduceIte, List.drop_one, List.tail_cons,
      scanWhole_toDigits]
    rfl

end TableExport.Json
