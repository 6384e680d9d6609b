import Mathlib.Data.List.DropRight
import TableExport.Json.Value
import TableExport.Proofs.Json.Lexeme

/-!
# Outlines of a JSON text

An outline is what a text says when nothing is asked of it but that it is well formed: numbers may have any size, strings
may be such that they cannot be decoded, members may have the same name, and nesting is not limited. Blanks may stand in
front of every token and at the end.

- `Opens` is the grammar: it says that a text opens with a value, with the items of an array or with the members of an
  object, and what it leaves of the text.
- `Shows` says that a whole text has an outline, and `Shows.unique` that it has only one.
-/

namespace TableExport.Json

/-- A value as it is written. -/
inductive Outline where
  | null
  | boolean (value : Bool)
  | number (value : Numeral)
  /-- A string, none if it has an escape that stands for no character. -/
  | string (text : Option String)
  | array (items : List Outline)
  /-- Members in order; names may occur again. -/
  | object (members : List (Option String × Outline))

/-- What stands between quotes, if it can be decoded. -/
def decoded? (s : List Char) : Option String :=
  (readText s).toOption.map fun p => String.ofList p.1

/-- The text starts with a value that has no parts, and so much is left of it. -/
inductive Scalar : List Char → Outline → List Char → Prop
  | null {s r : List Char} : readWord ['u', 'l', 'l'] s = .ok r → Scalar ('n' :: s) .null r
  | yes {s r : List Char} : readWord ['r', 'u', 'e'] s = .ok r → Scalar ('t' :: s) (.boolean true) r
  | no {s r : List Char} : readWord ['a', 'l', 's', 'e'] s = .ok r → Scalar ('f' :: s) (.boolean false) r
  | number {c : Char} {s r : List Char} {t : Numeral} : (c = '-' || c.isDigit) = true →
      scanNumber .endOfValue (c :: s) = .ok (t, r) → Scalar (c :: s) (.number t) r
  | string {s r : List Char} {text : Option String} : skipText s = .ok r → decoded? s = text →
      Scalar ('"' :: s) (.string text) r

/-- A part of an outline that a text can open with. -/
inductive Piece where
  | value (v : Outline)
  /-- The items that are left of an array, with its closing bracket; the first one has no comma in front. -/
  | items (first : Bool) (vs : List Outline)
  /-- The members that are left of an object, with its closing bracket. -/
  | members (first : Bool) (ms : List (Option String × Outline))

/-- Passes the comma in front of an item or a member that is not the first one. -/
def PassesComma (first : Bool) (s r : List Char) : Prop :=
  if first then r = s else skipBlanks s = ',' :: r

/-- The text opens with the piece, and so much is left of it. -/
inductive Opens : List Char → Piece → List Char → Prop
  | scalar {s r : List Char} {v : Outline} : Scalar (skipBlanks s) v r → Opens s (.value v) r
  | array {s s' r : List Char} {vs : List Outline} : skipBlanks s = '[' :: s' → Opens s' (.items true vs) r →
      Opens s (.value (.array vs)) r
  | object {s s' r : List Char} {ms : List (Option String × Outline)} : skipBlanks s = '\x7b' :: s' →
      Opens s' (.members true ms) r → Opens s (.value (.object ms)) r
  | noItem {s r : List Char} {first : Bool} : skipBlanks s = ']' :: r → Opens s (.items first []) r
  | item {s s₁ s₂ r : List Char} {first : Bool} {v : Outline} {vs : List Outline} : PassesComma first s s₁ →
      Opens s₁ (.value v) s₂ → Opens s₂ (.items false vs) r → Opens s (.items first (v :: vs)) r
  | noMember {s r : List Char} {first : Bool} : skipBlanks s = '\x7d' :: r → Opens s (.members first []) r
  | member {s s₁ s₂ s₃ s₄ s₅ r : List Char} {first : Bool} {name : Option String} {v : Outline}
      {ms : List (Option String × Outline)} : PassesComma first s s₁ → skipBlanks s₁ = '"' :: s₂ →
      skipText s₂ = .ok s₃ → decoded? s₂ = name → skipBlanks s₃ = ':' :: s₄ → Opens s₄ (.value v) s₅ →
      Opens s₅ (.members false ms) r → Opens s (.members first ((name, v) :: ms)) r

/-- The text has this outline, and nothing but blanks behind it. -/
def Shows (text : String) (v : Outline) : Prop :=
  ∃ r, Opens text.toList (.value v) r ∧ skipBlanks r = []

variable {s r r' : List Char} {v v' : Outline} {vs : List Outline} {ms : List (Option String × Outline)} {first : Bool}

/-! ## Blanks -/

theorem skipBlanks_idem (s : List Char) : skipBlanks (skipBlanks s) = skipBlanks s :=
  List.dropWhile_idempotent isBlank s

theorem length_skipBlanks_le (s : List Char) : (skipBlanks s).length ≤ s.length :=
  (List.dropWhile_suffix isBlank).length_le

theorem length_lt_of_skipBlanks {c : Char} (h : skipBlanks s = c :: r) : r.length < s.length := by
  have hle := length_skipBlanks_le s
  rw [h] at hle
  exact hle

/-- Blanks in front do not matter to a value. -/
theorem opens_skipBlanks : Opens (skipBlanks s) (.value v) r ↔ Opens s (.value v) r := by
  constructor
  · intro h
    cases h with
    | scalar h => exact .scalar (by rwa [skipBlanks_idem] at h)
    | array hs h => exact .array (by rwa [skipBlanks_idem] at hs) h
    | object hs h => exact .object (by rwa [skipBlanks_idem] at hs) h
  · intro h
    cases h with
    | scalar h => exact .scalar (by rwa [skipBlanks_idem])
    | array hs h => exact .array (by rwa [skipBlanks_idem]) h
    | object hs h => exact .object (by rwa [skipBlanks_idem]) h

/-! ## Strings -/

theorem exists_of_consText {c : Char} {x : Except Failure (List Char × List Char)} {t : List Char}
    (h : consText c x = .ok (t, r)) : ∃ t', x = .ok (t', r) := by
  cases x with
  | error f => cases h
  | ok p =>
    cases h
    exact ⟨p.1, rfl⟩

theorem skipText_unit {h₁ h₂ h₃ h₄ : Char} {n : Nat} (h : hexUnit? h₁ h₂ h₃ h₄ = some n) (r : List Char) :
    skipText ('\\' :: 'u' :: h₁ :: h₂ :: h₃ :: h₄ :: r) = skipText r := by
  rw [skipText.eq_def]
  simp [h]

/-- A string that can be decoded is passed. -/
theorem skipText_of_readText {t : List Char} (h : readText s = .ok (t, r)) : skipText s = .ok r := by
  fun_induction readText s generalizing t r
  all_goals try contradiction
  case case2 =>
    cases h
    rw [skipText.eq_def]
    simp
  -- The two halves of a pair are passed one by one.
  case case9 hhigh _ _ _ _ _ _ _ _ hlow _ _ ih =>
    obtain ⟨t', h⟩ := exists_of_consText h
    rw [skipText_unit hhigh, skipText_unit hlow, ih h]
  case case14 hunit _ _ _ ih =>
    obtain ⟨t', h⟩ := exists_of_consText h
    rw [skipText_unit hunit, ih h]
  case case16 hletter _ hescape _ ih =>
    obtain ⟨t', h⟩ := exists_of_consText h
    rw [skipText.eq_def]
    simp [hletter, hescape, ih h]
  case case19 hquote hbackslash hlow ih =>
    obtain ⟨t', h⟩ := exists_of_consText h
    rw [skipText.eq_def]
    simp [hquote, hbackslash, hlow, ih h]

/-- A string that is passed leaves an end of the text. -/
theorem suffix_of_skipText (h : skipText s = .ok r) : r <:+ s := by
  fun_induction skipText s
  all_goals try contradiction
  all_goals first
    | exact (by assumption : _ → _ <:+ _) h |>.trans (by simp [List.suffix_cons_iff])
    | cases h; exact List.suffix_cons _ _

/-- A string is passed and can be decoded if and only if it is read. -/
theorem readText_eq_ok {text : String} :
    skipText s = .ok r ∧ decoded? s = some text ↔ ∃ t, readText s = .ok (t, r) ∧ String.ofList t = text := by
  constructor
  · rintro ⟨hskip, htext⟩
    rw [decoded?] at htext
    cases hread : readText s with
    | error f =>
      rw [hread] at htext
      cases htext
    | ok p =>
      obtain ⟨t, r'⟩ := p
      rw [hread] at htext
      rw [skipText_of_readText hread] at hskip
      cases hskip
      exact ⟨t, rfl, Option.some.inj htext⟩
  · rintro ⟨t, hread, rfl⟩
    exact ⟨skipText_of_readText hread, by rw [decoded?, hread]; rfl⟩

/-! ## What is left -/

/-- What does not start a number is not its first character. -/
theorem ne_of_startsNumber {c d : Char} (hc : (c = '-' || c.isDigit) = true) (hd : (d = '-' || d.isDigit) = false) :
    c ≠ d := by
  rintro rfl
  rw [hd] at hc
  cases hc

/-- A value without parts starts with a character of its own. -/
theorem Scalar.leaves (h : Scalar s v r) : ∃ c s', s = c :: s' ∧ r <:+ s' ∧
    c ≠ '[' ∧ c ≠ '\x7b' ∧ c ≠ ']' ∧ (c = 'n' ↔ v = .null) := by
  cases h with
  | null h => exact ⟨_, _, rfl, suffix_of_readWord h, by simp⟩
  | yes h => exact ⟨_, _, rfl, suffix_of_readWord h, by simp⟩
  | no h => exact ⟨_, _, rfl, suffix_of_readWord h, by simp⟩
  | @number c s r t hnumber h =>
    have hne {d : Char} (hd : (d = '-' || d.isDigit) = false) : c ≠ d := ne_of_startsNumber hnumber hd
    exact ⟨c, s, rfl, suffix_of_scanNumber h, hne rfl, hne rfl, hne rfl, iff_of_false (hne rfl) nofun⟩
  | string h => exact ⟨_, _, rfl, suffix_of_skipText h, by simp⟩

/-- The first character of a value. -/
theorem Opens.head (h : Opens s (.value v) r) : ∃ c s', skipBlanks s = c :: s' ∧ c ≠ ']' ∧ (c = 'n' ↔ v = .null) := by
  cases h with
  | scalar h =>
    obtain ⟨c, s', hs, -, -, -, hclose, hnull⟩ := h.leaves
    exact ⟨c, s', hs, hclose, hnull⟩
  | array hs _ => exact ⟨_, _, hs, by simp⟩
  | object hs _ => exact ⟨_, _, hs, by simp⟩

theorem PassesComma.length_le (h : PassesComma first s r) : r.length ≤ s.length := by
  cases first with
  | true => exact (congrArg List.length h).le
  | false => exact (length_lt_of_skipBlanks h).le

/-- Every piece has a character at least. -/
theorem Opens.length_lt {p : Piece} (h : Opens s p r) : r.length < s.length := by
  induction h with
  | @scalar s r v h =>
    obtain ⟨c, s', hs, hr, -⟩ := h.leaves
    exact hr.length_le.trans_lt (length_lt_of_skipBlanks hs)
  | array hs _ ih => exact ih.trans (length_lt_of_skipBlanks hs)
  | object hs _ ih => exact ih.trans (length_lt_of_skipBlanks hs)
  | noItem hs => exact length_lt_of_skipBlanks hs
  | item hcomma _ _ ihv ih => exact ih.trans (ihv.trans_le hcomma.length_le)
  | noMember hs => exact length_lt_of_skipBlanks hs
  | member hcomma hquote hname _ hcolon _ _ ihv ih =>
    have hvalue := ihv.trans (length_lt_of_skipBlanks hcolon)
    have hkey := (suffix_of_skipText hname).length_le.trans_lt (length_lt_of_skipBlanks hquote)
    exact ih.trans (hvalue.trans (hkey.trans_le hcomma.length_le))

/-! ## Uniqueness -/

theorem Scalar.unique (h : Scalar s v r) (h' : Scalar s v' r') : v = v' ∧ r = r' := by
  cases h <;> cases h' <;> simp_all

theorem PassesComma.unique (h : PassesComma first s r) (h' : PassesComma first s r') : r = r' := by
  cases first with
  | true => exact h.trans h'.symm
  | false => exact (List.cons.inj (h.symm.trans h')).2

/-- Where another item follows, the array does not end. -/
theorem Opens.not_closed (hcomma : PassesComma first s r) (h : Opens r (.value v) r') :
    ∃ c s', skipBlanks s = c :: s' ∧ c ≠ ']' := by
  cases first with
  | true =>
    cases hcomma
    obtain ⟨c, s', hs, hclose, -⟩ := h.head
    exact ⟨c, s', hs, hclose⟩
  | false => exact ⟨',', _, hcomma, by decide⟩

/-- Where another member follows, the object does not end. -/
theorem PassesComma.not_closed {s' : List Char} (hcomma : PassesComma first s r) (h : skipBlanks r = '"' :: s') :
    ∃ c s', skipBlanks s = c :: s' ∧ c ≠ '\x7d' := by
  cases first with
  | true =>
    cases hcomma
    exact ⟨'"', _, h, by decide⟩
  | false => exact ⟨',', _, hcomma, by decide⟩

/-- The pieces are of one kind, at the same place. -/
def Piece.Alike : Piece → Piece → Prop
  | .value _, .value _ => True
  | .items first _, .items first' _ => first = first'
  | .members first _, .members first' _ => first = first'
  | _, _ => False

/-- **The grammar is unambiguous**: a text opens with one piece of a kind. -/
theorem Opens.unique {p p' : Piece} (h : Opens s p r) (h' : Opens s p' r') (hp : p.Alike p') : p = p' ∧ r = r' := by
  induction h generalizing p' r' with
  | scalar h =>
    obtain ⟨c, s', hs, -, hbracket, hbrace, -⟩ := h.leaves
    cases h' with
    | scalar h' =>
      obtain ⟨rfl, rfl⟩ := h.unique h'
      exact ⟨rfl, rfl⟩
    | array hs' _ => exact absurd (List.cons.inj (hs.symm.trans hs')).1 hbracket
    | object hs' _ => exact absurd (List.cons.inj (hs.symm.trans hs')).1 hbrace
    | noItem | item | noMember | member => cases hp
  | array hs _ ih =>
    cases h' with
    | scalar h' =>
      obtain ⟨c, s', hs', -, hbracket, -⟩ := h'.leaves
      exact absurd (List.cons.inj (hs'.symm.trans hs)).1 hbracket
    | array hs' h' =>
      cases hs.symm.trans hs'
      obtain ⟨heq, rfl⟩ := ih h' rfl
      cases heq
      exact ⟨rfl, rfl⟩
    | object hs' _ => cases hs.symm.trans hs'
    | noItem | item | noMember | member => cases hp
  | object hs _ ih =>
    cases h' with
    | scalar h' =>
      obtain ⟨c, s', hs', -, -, hbrace, -⟩ := h'.leaves
      exact absurd (List.cons.inj (hs'.symm.trans hs)).1 hbrace
    | array hs' _ => cases hs.symm.trans hs'
    | object hs' h' =>
      cases hs.symm.trans hs'
      obtain ⟨heq, rfl⟩ := ih h' rfl
      cases heq
      exact ⟨rfl, rfl⟩
    | noItem | item | noMember | member => cases hp
  | noItem hs =>
    cases h' with
    | noItem hs' =>
      cases hp
      cases hs.symm.trans hs'
      exact ⟨rfl, rfl⟩
    | item hcomma hv _ =>
      obtain ⟨c, s', hs', hclose⟩ := hv.not_closed hcomma
      exact absurd (List.cons.inj (hs'.symm.trans hs)).1 hclose
    | scalar | array | object | noMember | member => cases hp
  | item hcomma hv _ ihv ih =>
    cases h' with
    | noItem hs' =>
      obtain ⟨c, s', hs, hclose⟩ := hv.not_closed hcomma
      exact absurd (List.cons.inj (hs.symm.trans hs')).1 hclose
    | item hcomma' hv' h' =>
      cases hp
      cases hcomma.unique hcomma'
      obtain ⟨heq, rfl⟩ := ihv hv' trivial
      cases heq
      obtain ⟨heq, rfl⟩ := ih h' rfl
      cases heq
      exact ⟨rfl, rfl⟩
    | scalar | array | object | noMember | member => cases hp
  | noMember hs =>
    cases h' with
    | noMember hs' =>
      cases hp
      cases hs.symm.trans hs'
      exact ⟨rfl, rfl⟩
    | member hcomma hquote _ _ _ _ _ =>
      obtain ⟨c, s', hs', hclose⟩ := hcomma.not_closed hquote
      exact absurd (List.cons.inj (hs'.symm.trans hs)).1 hclose
    | scalar | array | object | noItem | item => cases hp
  | member hcomma hquote hskip htext hcolon _ _ ihv ih =>
    cases h' with
    | noMember hs' =>
      obtain ⟨c, s', hs, hclose⟩ := hcomma.not_closed hquote
      exact absurd (List.cons.inj (hs.symm.trans hs')).1 hclose
    | member hcomma' hquote' hskip' htext' hcolon' hv' h' =>
      cases hp
      cases hcomma.unique hcomma'
      cases hquote.symm.trans hquote'
      cases hskip.symm.trans hskip'
      cases htext.symm.trans htext'
      cases hcolon.symm.trans hcolon'
      obtain ⟨heq, rfl⟩ := ihv hv' trivial
      cases heq
      obtain ⟨heq, rfl⟩ := ih h' rfl
      cases heq
      exact ⟨rfl, rfl⟩
    | scalar | array | object | noItem | item => cases hp

/-- **A text has one outline** at most. -/
theorem Shows.unique {text : String} (h : Shows text v) (h' : Shows text v') : v = v' := by
  obtain ⟨r, h, -⟩ := h
  obtain ⟨r', h', -⟩ := h'
  obtain ⟨heq, -⟩ := h.unique h' trivial
  cases heq
  rfl

end TableExport.Json
