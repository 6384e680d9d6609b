import TableExport.Lua.Name
import TableExport.Proofs.Text.Lexing

/-!
# Tokens of a Lua chunk

A chunk is cut into signs, names, reserved words, strings and numerals; blanks, line breaks and comments separate them.
The text of a numeral is kept. Long brackets, strings between single quotes, operators of several signs and escapes of
bytes above 127 do not occur in generated code and are refused.

- `nextToken` finds the first token.
- `spells_word`, `spells_quoted` and `spells_numeral` are the spellings of tokens with a text, whatever it is.
- `spells_comment` says that a comment without a line break spells nothing.
-/

namespace TableExport.Lua

open TableExport.Text

/-- A token. -/
inductive Token where
  /-- A bracket, a separator or an operator of one sign. -/
  | sign (c : Char)
  | name (text : String)
  /-- A reserved word. -/
  | keyword (text : String)
  /-- A string. -/
  | string (text : String)
  /-- A numeral as it is written. -/
  | numeral (text : String)
deriving DecidableEq

/-- The character separates tokens. -/
def isBlank (c : Char) : Bool :=
  [' ', '\t', '\n', '\r', '\x0b', '\x0c'].contains c

/-- The character ends a line, and a comment with it. -/
def isLineBreak (c : Char) : Bool :=
  c = '\n' || c = '\r'

/-- The signs that are tokens whatever follows them. -/
def plainSigns : List Char := ['{', '}', '(', ')', ']', ',', ';']

/-- The token of a word. -/
def word (text : String) : Token :=
  if keywords.contains text then .keyword text else .name text

/-- The number that three decimal digits stand for behind a backslash, if it is a character of one byte. -/
def decimalUnit? (a b c : Char) : Option Nat :=
  if a.isDigit && b.isDigit && c.isDigit then
    let n := ((a.toNat - '0'.toNat) * 10 + (b.toNat - '0'.toNat)) * 10 + (c.toNat - '0'.toNat)
    if n < 128 then some n else none
  else none

/-- The character that a sign behind a backslash stands for. -/
def shortEscape? (c : Char) : Option Char :=
  if c = '"' then some '"'
  else if c = '\\' then some '\\'
  else if c = '\'' then some '\''
  else if c = 'a' then some '\x07'
  else if c = 'b' then some '\x08'
  else if c = 'f' then some '\x0c'
  else if c = 'n' then some '\n'
  else if c = 'r' then some '\r'
  else if c = 't' then some '\t'
  else if c = 'v' then some '\x0b'
  else none

/-- Puts a character in front of a text that was read. -/
def consText (c : Char) (t : Option (List Char × List Char)) : Option (List Char × List Char) :=
  t.map fun x => (c :: x.1, x.2)

/-- The string behind an opening quote, and the text behind its closing quote. -/
def readText : List Char → Option (List Char × List Char)
  | [] => none
  | c :: s =>
    if c = '"' then some ([], s)
    else if c = '\\' then
      match s with
      | [] => none
      | e :: s =>
        if e.isDigit then
          match s with
          | d₁ :: d₂ :: s =>
            match decimalUnit? e d₁ d₂ with
            | some n => consText (Char.ofNat n) (readText s)
            | none => none
          | _ => none
        else
          match shortEscape? e with
          | some d => consText d (readText s)
          | none => none
    else if isLineBreak c then none
    else consText c (readText s)

/-! ## Numerals -/

/-- The character is a hexadecimal digit. -/
def isHexDigit (c : Char) : Bool :=
  c.isDigit || 'a' ≤ c && c ≤ 'f' || 'A' ≤ c && c ≤ 'F'

/-- The character is the mark of an exponent. -/
def isMark (hex : Bool) (c : Char) : Bool :=
  if hex then c = 'p' || c = 'P' else c = 'e' || c = 'E'

/-- The character goes on a numeral, perhaps behind the mark of an exponent. -/
def continues (hex afterMark : Bool) (c : Char) : Bool :=
  isMark hex c || isHexDigit c || c = '.' || afterMark && (c = '+' || c = '-')

/-- The longest start of a text that can be taken for a numeral, and the text behind it. -/
def munch (hex : Bool) : Bool → List Char → List Char × List Char
  | _, [] => ([], [])
  | afterMark, c :: s =>
    if continues hex afterMark c then (c :: (munch hex (isMark hex c) s).1, (munch hex (isMark hex c) s).2)
    else ([], c :: s)

/-- The text is nothing, or an exponent behind its mark. -/
def isExponent (mark : Char → Bool) : List Char → Bool
  | [] => true
  | c :: s =>
    let digits := if s.head? = some '+' || s.head? = some '-' then s.drop 1 else s
    mark c && !digits.isEmpty && digits.all Char.isDigit

/-- The text consists of digits, at least one, perhaps with a point, and perhaps an exponent. -/
def isFloat (digit mark : Char → Bool) (s : List Char) : Bool :=
  let whole := s.takeWhile digit
  let s := s.dropWhile digit
  let fraction := if s.head? = some '.' then (s.drop 1).takeWhile digit else []
  let rest := if s.head? = some '.' then (s.drop 1).dropWhile digit else s
  !(whole.isEmpty && fraction.isEmpty) && isExponent mark rest

/-- What starts a numeral: a digit, or a point in front of a digit. -/
def startsNumeral (c : Char) (s : List Char) : Bool :=
  c.isDigit || c = '.' && (s.head?.map Char.isDigit).getD false

/-- The text starts as a hexadecimal numeral does. -/
def startsHex : List Char → Bool
  | c :: x :: _ => c = '0' && (x = 'x' || x = 'X')
  | _ => false

/-- The numeral at the start of a text, no letter being behind it, and the text behind it. -/
def readNumeral (s : List Char) : Option (Token × List Char) :=
  let prefixLength := if startsHex s then 2 else 0
  let (t, r) := munch (startsHex s) false (s.drop prefixLength)
  let digit := if startsHex s then isHexDigit else Char.isDigit
  if isFloat digit (isMark (startsHex s)) t && !(r.head?.map isNameStart).getD false then
    some (.numeral (String.ofList (s.take prefixLength ++ t)), r)
  else none

/-- The text is a numeral. -/
def isNumeral (text : String) : Bool :=
  match readNumeral text.toList with
  | some (_, r) => r.isEmpty
  | none => false

/-- The token at the start of a text, none at a blank or a comment. -/
def nextToken : Tokenizer Token
  | [] => none
  | c :: s =>
    if isBlank c then some ([], s)
    else if isNameStart c then
      some ([word (String.ofList (c :: s.takeWhile isNamePart))], s.dropWhile isNamePart)
    else if plainSigns.contains c then some ([.sign c], s)
    else if c = '"' then (readText s).map fun x => ([.string (String.ofList x.1)], x.2)
    else if startsNumeral c s then
      (readNumeral (c :: s)).map fun x => ([x.1], x.2)
    else if c = '-' then
      if s.head? = some '-' then
        if (s.drop 1).head? = some '[' then none else some ([], s.dropWhile fun d => !isLineBreak d)
      else some ([.sign c], s)
    else if c = '.' then if s.head? = some '.' then none else some ([.sign c], s)
    else if c = '=' then if s.head? = some '=' then none else some ([.sign c], s)
    else if c = '[' then if s.head? = some '[' || s.head? = some '=' then none else some ([.sign c], s)
    else none

/-! ## Strings -/

theorem readText_quote (r : List Char) : readText ('"' :: r) = some ([], r) := by
  rw [readText.eq_def]
  simp

theorem readText_plain {c : Char} (hquote : c ≠ '"') (hbackslash : c ≠ '\\') (hbreak : isLineBreak c = false)
    (r : List Char) : readText (c :: r) = consText c (readText r) := by
  rw [readText.eq_def]
  simp [hquote, hbackslash, hbreak]

theorem readText_shortEscape {e c : Char} (he : e.isDigit = false) (h : shortEscape? e = some c) (r : List Char) :
    readText ('\\' :: e :: r) = consText c (readText r) := by
  rw [readText.eq_def]
  simp [he, h]

theorem isDigit_digitChar : ∀ d < 10, (Nat.digitChar d).isDigit = true ∧ (Nat.digitChar d).toNat - 48 = d := by
  decide

/-- Three decimal digits are read back. -/
theorem decimalUnit?_decimalCode {n : Nat} (hn : n < 128) :
    decimalUnit? (Nat.digitChar (n / 100 % 10)) (Nat.digitChar (n / 10 % 10)) (Nat.digitChar (n % 10)) = some n := by
  have hdigit (m : Nat) := isDigit_digitChar (m % 10) (Nat.mod_lt _ (by decide))
  have hvalue : (n / 100 % 10 * 10 + n / 10 % 10) * 10 + n % 10 = n := by omega
  simp [decimalUnit?, hdigit, hvalue, hn]

theorem readText_unit {n : Nat} (hn : n < 128) (r : List Char) :
    readText ('\\' :: (decimalCode n ++ r)) = consText (Char.ofNat n) (readText r) := by
  have hdigit := isDigit_digitChar (n / 100 % 10) (Nat.mod_lt _ (by decide))
  rw [decimalCode, readText.eq_def]
  simp [hdigit.1, decimalUnit?_decimalCode hn]

/-- A character inside quotes is read back. -/
theorem readText_quotedChar (c : Char) (r : List Char) : readText (quotedChar c ++ r) = consText c (readText r) := by
  unfold quotedChar
  split
  · subst_vars; exact readText_shortEscape (by decide) rfl r
  split
  · subst_vars; exact readText_shortEscape (by decide) rfl r
  split
  · subst_vars; exact readText_shortEscape (by decide) rfl r
  split
  · subst_vars; exact readText_shortEscape (by decide) rfl r
  split
  · subst_vars; exact readText_shortEscape (by decide) rfl r
  split
  · rename_i hlow
    have hn : c.toNat < 128 := by
      simp only [Bool.or_eq_true, decide_eq_true_eq] at hlow
      omega
    have hunit := readText_unit hn r
    rwa [Char.ofNat_toNat] at hunit
  · rename_i hquote hbackslash hline hreturn _ _
    exact readText_plain hquote hbackslash (by simp [isLineBreak, hline, hreturn]) r

/-- **A quoted string is read back** up to its closing quote. -/
theorem readText_quoted (s r : List Char) : readText (s.flatMap quotedChar ++ '"' :: r) = some (s, r) := by
  induction s with
  | nil => exact readText_quote r
  | cons c s ih =>
    rw [List.flatMap_cons, List.append_assoc, readText_quotedChar, ih]
    rfl

/-- A quoted string spells itself. -/
theorem spells_quoted (s : String) : Spells nextToken Anything (quoted s).toList [.string s] := by
  rw [quoted, String.toList_ofList]
  refine Spells.of_next fun r _ => ?_
  show nextToken ('"' :: (s.toList.flatMap quotedChar ++ ['"'] ++ r)) = _
  rw [List.append_assoc, List.singleton_append, nextToken, readText_quoted]
  simp [isBlank, isNameStart, plainSigns, String.ofList_toList]

/-! ## Numerals -/

/-- No more of a numeral follows. -/
def NumeralEnds (r : List Char) : Prop :=
  ∀ c ∈ r.head?, isNameStart c = false ∧ ∀ hex afterMark, continues hex afterMark c = false

theorem NumeralEnds.of_atBreak {r : List Char} (h : AtBreak r) : NumeralEnds r := by
  rcases h with rfl | ⟨c, r, rfl, rfl | rfl | rfl⟩
  · intro c hc
    cases hc
  all_goals
    intro c hc
    obtain rfl := Option.some.inj hc
    decide

section Numerals

variable {r : List Char} (hr : NumeralEnds r)
include hr

theorem munch_append (hex : Bool) (s : List Char) : ∀ afterMark,
    munch hex afterMark (s ++ r) = ((munch hex afterMark s).1, (munch hex afterMark s).2 ++ r) := by
  induction s with
  | nil =>
    intro afterMark
    cases r with
    | nil => rfl
    | cons c r =>
      have hc := (hr c rfl).2 hex afterMark
      simp [munch, hc]
  | cons c s ih =>
    intro afterMark
    rw [List.cons_append, munch, munch]
    split
    · rw [ih]
    · rfl

theorem startsHex_append {s : List Char} (hs : s ≠ []) : startsHex (s ++ r) = startsHex s := by
  match s with
  | [c] =>
    cases r with
    | nil => rfl
    | cons x r =>
      have hx := (hr x rfl).1
      have hmark : x ≠ 'x' ∧ x ≠ 'X' := by constructor <;> rintro rfl <;> simp [isNameStart] at hx
      simp [startsHex, hmark]
  | c :: x :: s => rfl

/-- **A numeral is read the same** in front of a text that cannot be more of it. -/
theorem readNumeral_append {s r' : List Char} {t : Token} (hs : s ≠ []) (h : readNumeral s = some (t, r')) :
    readNumeral (s ++ r) = some (t, r' ++ r) := by
  have htake (n : Nat) (hn : n ≤ s.length) : (s ++ r).take n = s.take n := List.take_append_of_le_length hn
  have hdrop (n : Nat) (hn : n ≤ s.length) : (s ++ r).drop n = s.drop n ++ r := List.drop_append_of_le_length hn
  have hletter (s' : List Char) : (((s' ++ r).head?.map isNameStart).getD false) =
      ((s'.head?.map isNameStart).getD false) := by
    cases s' with
    | nil =>
      cases r with
      | nil => rfl
      | cons c r => simp [(hr c rfl).1]
    | cons c s' => rfl
  have hlength : (if startsHex s then 2 else 0) ≤ s.length := by
    match s with
    | [c] => simp [startsHex]
    | c :: x :: s => split <;> simp
  unfold readNumeral at h ⊢
  rw [startsHex_append hr hs]
  generalize (if startsHex s then 2 else 0) = k at h hlength ⊢
  generalize (if startsHex s then isHexDigit else Char.isDigit) = digit at h ⊢
  simp only [htake _ hlength, hdrop _ hlength, munch_append hr, hletter] at h ⊢
  simp only [Option.ite_none_right_eq_some, Option.some.injEq, Prod.mk.injEq] at h ⊢
  obtain ⟨hform, ht, hrest⟩ := h
  exact ⟨hform, ht, by rw [hrest]⟩

end Numerals

theorem munch_eq (hex : Bool) (s : List Char) : ∀ afterMark,
    (munch hex afterMark s).1 ++ (munch hex afterMark s).2 = s := by
  induction s with
  | nil => intro _; rfl
  | cons c s ih =>
    intro afterMark
    rw [munch]
    split
    · rw [List.cons_append, ih]
    · rfl

theorem takeWhile_munch {hex afterMark : Bool} {c : Char} {s : List Char} (hc : ¬c.isDigit) :
    (munch hex afterMark (c :: s)).1.takeWhile Char.isDigit = [] := by
  rw [munch]
  split <;> simp [hc]

/-- A numeral that takes the whole text keeps it. -/
theorem readNumeral_whole {s : List Char} {t : Token} (h : readNumeral s = some (t, [])) :
    t = .numeral (String.ofList s) := by
  unfold readNumeral at h
  generalize (if startsHex s then 2 else 0) = k at h
  generalize (if startsHex s then isHexDigit else Char.isDigit) = digit at h
  have hmunch := munch_eq (startsHex s) (s.drop k) false
  simp only [Option.ite_none_right_eq_some, Option.some.injEq, Prod.mk.injEq] at h
  obtain ⟨-, ht, hr⟩ := h
  rw [hr, List.append_nil] at hmunch
  rw [← ht, hmunch, List.take_append_drop]

theorem startsNumeral_of_readNumeral {c : Char} {s : List Char} {x : Token × List Char}
    (h : readNumeral (c :: s) = some x) : startsNumeral c s = true := by
  unfold readNumeral at h
  cases hhex : startsHex (c :: s) with
  | true =>
    cases s with
    | nil => cases hhex
    | cons d s =>
      simp only [startsHex, Bool.and_eq_true, decide_eq_true_eq] at hhex
      rw [hhex.1]
      rfl
  | false =>
    by_cases hc : c.isDigit
    · simp [startsNumeral, hc]
    · simp only [hhex, Bool.false_eq_true, ↓reduceIte, List.drop_zero, Option.ite_none_right_eq_some,
        Bool.and_eq_true] at h
      obtain ⟨⟨hfloat, -⟩, -⟩ := h
      rw [munch] at hfloat
      split at hfloat
      · simp only [isFloat, List.takeWhile_cons, List.dropWhile_cons, hc, Bool.false_eq_true, ↓reduceIte,
          List.head?_cons, Option.some.injEq, List.isEmpty_nil, Bool.true_and] at hfloat
        by_cases hpoint : c = '.'
        · subst hpoint
          cases s with
          | nil => simp [munch] at hfloat
          | cons d s =>
            by_cases hd : d.isDigit
            · simp [startsNumeral, hd]
            · simp [takeWhile_munch hd] at hfloat
        · simp [hpoint] at hfloat
      · simp [isFloat] at hfloat

/-- What starts a numeral starts nothing else. -/
theorem startsNumeral_only {c : Char} {s : List Char} (h : startsNumeral c s = true) :
    isBlank c = false ∧ isNameStart c = false ∧ plainSigns.contains c = false ∧ c ≠ '"' := by
  have hc : c = '.' ∨ c.isDigit = true := by
    simp only [startsNumeral, Bool.or_eq_true, Bool.and_eq_true, decide_eq_true_eq] at h
    exact h.symm.imp_left And.left
  have hletter : c.isDigit = true → isNameStart c = false := by
    intro hd
    have halpha : c.isAlpha = (c.isUpper || c.isLower) := rfl
    have hupper : c.isUpper = decide (c.val ≥ 65 ∧ c.val ≤ 90) := rfl
    have hlower : c.isLower = (decide (c.val ≥ 97) && decide (c.val ≤ 122)) := rfl
    simp only [Char.isDigit, isNameStart, halpha, hupper, hlower, ge_iff_le, Bool.and_eq_true,
      Bool.or_eq_false_iff, Bool.and_eq_false_iff, decide_eq_true_eq, decide_eq_false_iff_not,
      UInt32.le_iff_toNat_le] at hd ⊢
    refine ⟨⟨?_, ?_⟩, ?_⟩
    · simp at hd ⊢; omega
    · simp at hd ⊢; omega
    · rintro rfl; simp at hd
  refine ⟨?_, ?_, ?_, ?_⟩
  · cases hb : isBlank c with
    | false => rfl
    | true =>
      simp only [isBlank, List.contains_iff_mem, List.mem_cons, List.not_mem_nil, or_false] at hb
      rcases hb with rfl | rfl | rfl | rfl | rfl | rfl <;> simp at hc
  · rcases hc with rfl | hc
    · rfl
    · exact hletter hc
  · cases hb : plainSigns.contains c with
    | false => rfl
    | true =>
      simp only [plainSigns, List.contains_iff_mem, List.mem_cons, List.not_mem_nil, or_false] at hb
      rcases hb with rfl | rfl | rfl | rfl | rfl | rfl | rfl <;> simp at hc
  · rintro rfl
    simp at hc

/-- A numeral spells itself in front of a break. -/
theorem spells_numeral {text : String} (h : isNumeral text = true) :
    Spells nextToken AtBreak text.toList [.numeral text] := by
  unfold isNumeral at h
  cases hread : readNumeral text.toList with
  | none => simp [hread] at h
  | some tr =>
    obtain ⟨t, r⟩ := tr
    simp only [hread, List.isEmpty_iff] at h
    rw [h] at hread
    have ht := readNumeral_whole hread
    rw [String.ofList_toList] at ht
    cases htext : text.toList with
    | nil => rw [htext] at hread; cases hread
    | cons c s =>
      rw [htext] at hread
      refine Spells.of_next fun r hr => ?_
      have happend := readNumeral_append (NumeralEnds.of_atBreak hr) (by simp) hread
      have hstart : startsNumeral c (s ++ r) = true := startsNumeral_of_readNumeral happend
      have honly := startsNumeral_only hstart
      rw [List.cons_append] at happend ⊢
      rw [nextToken]
      simp only [honly, Bool.false_eq_true, ↓reduceIte]
      rw [if_pos hstart, happend, ht]
      rfl

/-- The digits of a natural number are a numeral. -/
theorem isNumeral_toDigits (n : Nat) : isNumeral (String.ofList (Nat.toDigits 10 n)) = true := by
  have hdigits : ∀ c ∈ Nat.toDigits 10 n, c.isDigit = true :=
    fun c hc => Nat.isDigit_of_mem_toDigits (by decide) (by decide) hc
  have hne : Nat.toDigits 10 n ≠ [] := Nat.toDigits_ne_nil
  generalize Nat.toDigits 10 n = ds at hdigits hne
  have hhex : startsHex ds = false := by
    match ds with
    | [] => rfl
    | [c] => rfl
    | c :: x :: ds =>
      have hx := hdigits x (by simp)
      have hmark : x ≠ 'x' ∧ x ≠ 'X' := by constructor <;> rintro rfl <;> simp at hx
      simp [startsHex, hmark]
  have hmunch : ∀ afterMark, munch false afterMark ds = (ds, []) := by
    clear hne hhex
    induction ds with
    | nil => intro _; rfl
    | cons c ds ih =>
      intro afterMark
      have hc : continues false afterMark c = true := by simp [continues, isHexDigit, hdigits c]
      rw [munch, if_pos hc, ih fun d hd => hdigits d (List.mem_cons_of_mem c hd)]
  have htake : ds.takeWhile Char.isDigit = ds := List.takeWhile_eq_self_iff.2 hdigits
  have hdrop : ds.dropWhile Char.isDigit = [] := List.dropWhile_eq_nil_iff.2 hdigits
  have hfloat : isFloat Char.isDigit (isMark false) ds = true := by simp [isFloat, htake, hdrop, hne, isExponent]
  have hread : readNumeral ds = some (.numeral (String.ofList ds), []) := by
    rw [readNumeral]
    simp only [hhex, Bool.false_eq_true, ↓reduceIte, List.drop_zero, hmunch, hfloat]
    rfl
  unfold isNumeral
  rw [String.toList_ofList, hread]
  rfl

/-! ## Words -/

/-- No more of a word follows. -/
def NameEnds (r : List Char) : Prop :=
  ∀ c ∈ r.head?, isNamePart c = false

theorem NameEnds.of_atBreak {r : List Char} (h : AtBreak r) : NameEnds r := by
  rcases h with rfl | ⟨c, r, rfl, rfl | rfl | rfl⟩ <;> simp [NameEnds, isNamePart]

theorem NameEnds.of_atLineEnd {r : List Char} (h : AtLineEnd r) : NameEnds r := by
  obtain ⟨r, rfl⟩ := h
  simp [NameEnds, isNamePart]

theorem isBlank_of_isNameStart {c : Char} (h : isNameStart c = true) : isBlank c = false := by
  cases hb : isBlank c with
  | false => rfl
  | true =>
    simp only [isBlank, List.contains_iff_mem, List.mem_cons, List.not_mem_nil, or_false] at hb
    rcases hb with rfl | rfl | rfl | rfl | rfl | rfl <;> simp [isNameStart] at h

/-- A word spells itself where no more of it follows. -/
theorem spells_word {c : Char} {s : List Char} (hc : isNameStart c = true) (hs : s.all isNamePart = true) :
    Spells nextToken NameEnds (c :: s) [word (String.ofList (c :: s))] := by
  refine Spells.of_next fun r hr => ?_
  have hsplit := takeWhile_append_of_head s hr
  have htake : s.takeWhile isNamePart = s := List.takeWhile_eq_self_iff.2 (List.all_eq_true.1 hs)
  have hdrop : s.dropWhile isNamePart = [] := List.dropWhile_eq_nil_iff.2 (List.all_eq_true.1 hs)
  rw [List.cons_append, nextToken]
  simp [isBlank_of_isNameStart hc, hc, hsplit, htake, hdrop]

/-- An identifier spells itself. -/
theorem spells_name {name : String} (h : isIdentifier name = true) :
    Spells nextToken NameEnds name.toList [.name name] := by
  unfold isIdentifier at h
  split at h
  · cases h
  · rename_i c s hname
    simp only [Bool.and_eq_true, Bool.not_eq_true'] at h
    have hword := spells_word h.1.1 h.1.2
    rw [← hname, String.ofList_toList, word, h.2] at hword
    exact hword

/-- A reserved word spells itself. -/
theorem spells_keyword {w : String} (h : keywords.contains w = true) :
    Spells nextToken NameEnds w.toList [.keyword w] := by
  have hall : ∀ w ∈ keywords, ∃ c s, w.toList = c :: s ∧ isNameStart c = true ∧ s.all isNamePart = true := by
    simp [keywords, isNameStart, isNamePart]
  obtain ⟨c, s, hw, hc, hs⟩ := hall w (List.contains_iff_mem.1 h)
  have hword := spells_word hc hs
  rw [← hw, String.ofList_toList, word, if_pos h] at hword
  exact hword

/-! ## Blanks, signs and comments -/

theorem spells_blank {c : Char} (h : isBlank c = true) : Spells nextToken Anything [c] [] :=
  Spells.of_next fun r _ => by simp [nextToken, h]

theorem spells_sign {c : Char} (h : plainSigns.contains c = true) : Spells nextToken Anything [c] [.sign c] := by
  refine Spells.of_next fun r _ => ?_
  simp only [plainSigns, List.contains_iff_mem, List.mem_cons, List.not_mem_nil, or_false] at h
  rcases h with rfl | rfl | rfl | rfl | rfl | rfl | rfl <;> rfl

theorem spells_equals : Spells nextToken Anything ['=', ' '] [.sign '='] := by
  have hsign : Spells nextToken (fun r => r.head? = some ' ') ['='] [.sign '='] :=
    Spells.of_next fun r hr => by
      simp [nextToken, isBlank, isNameStart, plainSigns, startsNumeral, hr]
  exact hsign.append (spells_blank rfl) fun _ _ => rfl

theorem spells_minus : Spells nextToken (fun r => r.head? ≠ some '-') ['-'] [.sign '-'] :=
  Spells.of_next fun r hr => by
    simp [nextToken, isBlank, isNameStart, plainSigns, startsNumeral, hr]

theorem spells_point : Spells nextToken (fun r => ∃ c s, r = c :: s ∧ isNameStart c = true) ['.'] [.sign '.'] :=
  Spells.of_next fun r hr => by
    obtain ⟨c, s, rfl, hc⟩ := hr
    have hdigit : c.isDigit = false := by
      cases hd : c.isDigit with
      | false => rfl
      | true =>
        have hstart : startsNumeral c s = true := by simp [startsNumeral, hd]
        have := (startsNumeral_only hstart).2.1
        rw [hc] at this
        cases this
    have hpoint : c ≠ '.' := by rintro rfl; simp [isNameStart] at hc
    simp [nextToken, isBlank, isNameStart, plainSigns, startsNumeral, hdigit, hpoint]

/-- A bracket in front of something that does not make it a long one. -/
theorem spells_bracket : Spells nextToken (fun r => r.head? ≠ some '[' ∧ r.head? ≠ some '=') ['['] [.sign '['] :=
  Spells.of_next fun r hr => by
    simp [nextToken, isBlank, isNameStart, plainSigns, startsNumeral, hr]

/-- The text is part of one line. -/
def OneLine (text : String) : Prop :=
  ∀ c ∈ text.toList, isLineBreak c = false

instance (text : String) : Decidable (OneLine text) :=
  List.decidableBAll (fun c => isLineBreak c = false) text.toList

/-- **A comment** with a text on one line spells nothing up to the line break. -/
theorem spells_comment {text : String} (h : OneLine text) :
    Spells nextToken AtLineEnd ("-- " ++ text).toList [] := by
  rw [String.toList_append]
  refine Spells.of_next fun r hr => ?_
  obtain ⟨r, rfl⟩ := hr
  have hrest : ([' '] ++ text.toList ++ '\n' :: r).dropWhile (fun d => !isLineBreak d) = '\n' :: r := by
    rw [List.dropWhile_append_of_pos fun c hc => ?_]
    · rfl
    · rcases List.mem_append.1 hc with hc | hc
      · rw [List.mem_singleton.1 hc]
        rfl
      · rw [h c hc]
        rfl
  show nextToken ('-' :: '-' :: ([' '] ++ text.toList ++ '\n' :: r)) = _
  have hdash : (!isLineBreak '-') = true := rfl
  simp only [nextToken, List.head?_cons, List.dropWhile_cons, hdash, ↓reduceIte, hrest]
  rfl

end TableExport.Lua
