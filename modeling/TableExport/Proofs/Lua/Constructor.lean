import TableExport.Literal.Lua
import TableExport.Proofs.Lua.Syntax
import TableExport.Proofs.Render.Tokens

/-!
# Constructors of data

Data are written as constructors: items without keys, entries under names, which are bare or strings in brackets.

- `dataExpr` is the expression that shows data, and `parses_tokens` says that their tokens are parsed into it.
- `spelt_lua` says that the Lua style spells the tokens of a lexicon.
-/

namespace TableExport.Lua

open TableExport.Literal TableExport.Render TableExport.Text

/-- A text without the minus sign in front of it, and whether there is one. -/
def unsigned (text : String) : Bool × String :=
  match text.toList with
  | [] => (false, text)
  | c :: s => if c = '-' then (true, String.ofList s) else (false, text)

/-- The text of a scalar is a numeral, perhaps with a minus sign, or a truth value. -/
def IsLiteral (text : String) : Prop :=
  text = "true" ∨ text = "false" ∨ isNumeral (unsigned text).2 = true

instance (text : String) : Decidable (IsLiteral text) :=
  inferInstanceAs (Decidable (text = "true" ∨ text = "false" ∨ isNumeral (unsigned text).2 = true))

/-- The expression of a number. -/
def numberExpr (text : String) : Expr :=
  if (unsigned text).1 then .negative (.numeral (unsigned text).2) else .numeral (unsigned text).2

/-- The expression of a scalar: its text, or what the text stands for. -/
def scalarExpr (type : ScalarType) (text : String) : Expr :=
  if type.isQuoted then .string text
  else if text = "true" then .boolean true
  else if text = "false" then .boolean false
  else numberExpr text

/-- The expression of data: items without keys, entries under their names. -/
def dataExpr : Data → Expr :=
  Data.fold scalarExpr (fun items => .table (items.map fun e => (none, e)))
    fun entries => .table (entries.map fun e => (some e.1, e.2))

/-! ## Tokens -/

/-- The tokens of a number. -/
def numberTokens (text : String) : List Token :=
  if (unsigned text).1 then [.sign '-', .numeral (unsigned text).2] else [.numeral (unsigned text).2]

/-- The tokens of a scalar. -/
def scalarTokens (type : ScalarType) (text : String) : List Token :=
  if type.isQuoted then [.string text]
  else if text = "true" then [.keyword "true"]
  else if text = "false" then [.keyword "false"]
  else numberTokens text

/-- The key of a map entry. -/
def mapKey (name : String) : List Token :=
  [.sign '[', .string name, .sign ']', .sign '=']

/-- The key of a field. -/
def fieldKey (name : String) : List Token :=
  if isIdentifier name then [.name name, .sign '='] else mapKey name

/-- The tokens of Lua data. -/
def lexicon : Lexicon Token where
  comma := .sign ','
  listOpen := .sign '\x7b'
  listClose := .sign '\x7d'
  fieldsOpen := .sign '\x7b'
  fieldsClose := .sign '\x7d'
  fieldKey := fieldKey
  mapKey := mapKey
  scalar := scalarTokens

/-- The tokens of entries with keys of one form whose values have keys of another. -/
def entriesTokens (key key' : String → List Token) (entries : List (String × Data)) : List Token :=
  .sign '{' :: List.intercalate [.sign ','] (entries.map fun e => key e.1 ++ lexicon.tokens key' e.2) ++ [.sign '}']

/-! ## Parsing -/

/-- Keys of that form are read in front of values, and do not start with a closing bracket. -/
structure IsKey (key : String → List Token) : Prop where
  field (name : String) {value : Parser Token Expr} {ts : List Token} {e : Expr} (h : Parses value ts e) :
    Parses (parseField value) (key name ++ ts) (some name, e)
  head (name : String) : ∃ t r, key name = t :: r ∧ t ≠ .sign '\x7d'

theorem isKey_mapKey : IsKey mapKey where
  field name {_ _ _} h r := h.map (fun e => (some name, e)) r
  head _ := ⟨_, _, rfl, by simp⟩

theorem isKey_fieldKey : IsKey fieldKey where
  field name {value ts e} h := by
    unfold fieldKey
    split
    · exact fun r => h.map (fun e => (some name, e)) r
    · exact isKey_mapKey.field name h
  head name := by
    unfold fieldKey
    split
    · exact ⟨_, _, rfl, by simp⟩
    · exact isKey_mapKey.head name

/-- The token starts an expression that stands without a key. -/
def Token.opensItem : Token → Bool
  | .name _ => false
  | .sign c => c ≠ '[' && c ≠ '\x7d'
  | _ => true

/-- Tokens of an expression are read as an item without a key. -/
theorem parses_item {value : Parser Token Expr} {t : Token} {ts : List Token} {e : Expr}
    (h : Parses value (t :: ts) e) (ht : t.opensItem = true) : Parses (parseField value) (t :: ts) (none, e) := by
  intro r
  have hvalue := h.map (fun e => ((none : Option String), e)) r
  rw [List.cons_append] at hvalue ⊢
  unfold parseField
  split
  · rename_i heq
    obtain ⟨rfl, -⟩ := List.cons.inj heq
    cases ht
  · rename_i heq
    obtain ⟨rfl, -⟩ := List.cons.inj heq
    cases ht
  · exact hvalue

section Data

variable {key : String → List Token}

/-- The tokens of data start an item. -/
theorem tokens_head (key : String → List Token) (d : Data) :
    ∃ t r, lexicon.tokens key d = t :: r ∧ t.opensItem = true := by
  cases d with
  | scalar type text =>
    rw [Lexicon.tokens_scalar]
    simp only [lexicon, scalarTokens, numberTokens]
    split
    · exact ⟨_, _, rfl, rfl⟩
    split
    · exact ⟨_, _, rfl, rfl⟩
    split
    · exact ⟨_, _, rfl, rfl⟩
    split <;> exact ⟨_, _, rfl, rfl⟩
  | list items =>
    rw [Lexicon.tokens_list]
    exact ⟨_, _, rfl, rfl⟩
  | fields entries =>
    rw [Lexicon.tokens_fields]
    exact ⟨_, _, rfl, rfl⟩

theorem parses_scalar (n : Nat) (type : ScalarType) (text : String) :
    Parses (parseExpr (n + 1)) (scalarTokens type text) (scalarExpr type text) := by
  intro r
  unfold scalarTokens scalarExpr numberTokens numberExpr
  split
  · rfl
  split
  · rfl
  split
  · rfl
  split <;> rfl

/-- Entries whose values are read, behind keys of any form. -/
theorem parses_entries {key' : String → List Token} (hkey : IsKey key) {entries : List (String × Data)}
    (h : ∀ e ∈ entries, ∀ n, (lexicon.tokens key' e.2).length ≤ n →
      Parses (parseExpr n) (lexicon.tokens key' e.2) (dataExpr e.2)) :
    ∀ n, (entriesTokens key key' entries).length ≤ n →
      Parses (parseExpr n) (entriesTokens key key' entries) (dataExpr (.fields entries)) := by
  intro n hn
  unfold entriesTokens at hn ⊢
  obtain ⟨m, rfl⟩ : ∃ m, n = m + 1 := ⟨n - 1, by simp at hn; omega⟩
  rw [dataExpr, Data.fold_fields, List.map_map]
  refine parses_constructor ?_ fun ts hts => ?_
  · rw [List.forall₂_map_left_iff, List.forall₂_map_right_iff, List.forall₂_same]
    intro e he
    have hlength := length_le_intercalate_of_mem (.sign ',')
      (List.mem_map_of_mem (f := fun e => key e.1 ++ lexicon.tokens key' e.2) he)
    simp only [List.length_append, List.length_cons, List.length_nil] at hn hlength
    exact hkey.field e.1 (h e he m (by omega))
  · obtain ⟨e, -, rfl⟩ := List.mem_map.1 hts
    obtain ⟨t, r, hr, ht⟩ := hkey.head e.1
    exact ⟨t, r ++ lexicon.tokens key' e.2, by simp [hr], ht⟩

/-- **The tokens of data** are parsed into their expression. -/
theorem parses_tokens (hkey : IsKey key) (d : Data) : ∀ n, (lexicon.tokens key d).length ≤ n →
    Parses (parseExpr n) (lexicon.tokens key d) (dataExpr d) := by
  induction d using Data.induct with
  | scalar type text =>
    intro n hn
    obtain ⟨t, r, ht, -⟩ := tokens_head key (.scalar type text)
    obtain ⟨m, rfl⟩ : ∃ m, n = m + 1 := ⟨n - 1, by rw [ht, List.length_cons] at hn; omega⟩
    rw [Lexicon.tokens_scalar, dataExpr, Data.fold_scalar]
    exact parses_scalar m type text
  | list items ih =>
    intro n hn
    rw [Lexicon.tokens_list] at hn ⊢
    obtain ⟨m, rfl⟩ : ∃ m, n = m + 1 := ⟨n - 1, by simp at hn; omega⟩
    rw [dataExpr, Data.fold_list, List.map_map]
    refine parses_constructor ?_ fun ts hts => ?_
    · rw [List.forall₂_map_left_iff, List.forall₂_map_right_iff, List.forall₂_same]
      intro d hd
      have hlength := length_le_intercalate_of_mem lexicon.comma (List.mem_map_of_mem (f := lexicon.tokens key) hd)
      simp only [List.length_append, List.length_cons, List.length_nil] at hn
      have hitem := ih d hd m (by omega)
      obtain ⟨t, r, htokens, ht⟩ := tokens_head key d
      rw [htokens] at hitem ⊢
      exact parses_item hitem ht
    · obtain ⟨d, -, rfl⟩ := List.mem_map.1 hts
      obtain ⟨t, r, htokens, ht⟩ := tokens_head key d
      refine ⟨t, r, htokens, ?_⟩
      rintro rfl
      cases ht
  | fields entries ih =>
    rw [Lexicon.tokens_fields]
    exact parses_entries hkey ih

end Data

/-! ## The Lua style -/

theorem passesBlanks_nextToken : Layout.PassesBlanks nextToken where
  space := spells_blank rfl
  tab := spells_blank rfl
  newline := spells_blank rfl

/-- A string in brackets. -/
theorem spells_bracketed (name : String) : Spells nextToken Anything ("[" ++ quoted name ++ "]").toList
    [.sign '[', .string name, .sign ']'] := by
  have hstring := (spells_quoted name).then (spells_sign (c := ']') rfl)
  have := spells_bracket.append hstring fun r (_ : Anything r) => by
    simp [quoted]
  simpa using this

theorem spells_mapKey (name : String) :
    Spells nextToken Anything ("[" ++ quoted name ++ "] = ").toList (mapKey name) := by
  have := (spells_bracketed name).then ((spells_blank (c := ' ') rfl).then spells_equals)
  simpa [mapKey] using this

theorem spells_fieldKey (name : String) :
    Spells nextToken Anything (tableKey name ++ " = ").toList (fieldKey name) := by
  unfold tableKey fieldKey
  split
  · rename_i h
    have := (spells_name h).append ((spells_blank (c := ' ') rfl).then spells_equals) fun r _ => by
      simp [NameEnds, isNamePart]
    simpa using this
  · simpa using spells_mapKey name

/-- A minus sign is taken off in front of the rest. -/
theorem toList_of_unsigned {text : String} (h : (unsigned text).1 = true) :
    text.toList = '-' :: (unsigned text).2.toList := by
  unfold unsigned at h ⊢
  split at h
  · cases h
  · rename_i c s htext
    split at h
    · rename_i hc
      simp [htext, hc]
    · cases h

theorem unsigned_eq_self {text : String} (h : text.toList.head? ≠ some '-') : unsigned text = (false, text) := by
  unfold unsigned
  split
  · rfl
  · rename_i c s htext
    rw [htext] at h
    rw [if_neg fun hc => h (by rw [hc]; rfl)]

/-- A numeral does not start with a minus sign. -/
theorem head?_ne_of_isNumeral {text : String} (h : isNumeral text = true) : text.toList.head? ≠ some '-' := by
  unfold isNumeral at h
  cases hread : readNumeral text.toList with
  | none => simp [hread] at h
  | some x =>
    cases htext : text.toList with
    | nil => simp
    | cons c s =>
      rw [htext] at hread
      have hstart := startsNumeral_of_readNumeral hread
      rintro ⟨⟩
      cases hstart

/-- A numeral and a minus sign in front of it spell themselves. -/
theorem spells_number {text : String} (h : isNumeral (unsigned text).2 = true) :
    Spells nextToken AtBreak text.toList (numberTokens text) := by
  have hnumeral := spells_numeral h
  unfold numberTokens
  cases hsign : (unsigned text).1 with
  | true =>
    rw [toList_of_unsigned hsign, if_pos rfl]
    refine spells_minus.append hnumeral fun r _ => ?_
    have hhead := head?_ne_of_isNumeral h
    cases htext : (unsigned text).2.toList with
    | nil =>
      rw [isNumeral, htext] at h
      cases h
    | cons c s =>
      rw [htext] at hhead
      show ((unsigned text).2.toList ++ r).head? ≠ some '-'
      rw [htext]
      exact hhead
  | false =>
    have htext : (unsigned text).2 = text := by
      unfold unsigned at hsign ⊢
      split
      · rfl
      · rename_i c s htext
        rw [htext] at hsign
        by_cases hc : c = '-' <;> simp_all
    rw [htext] at hnumeral
    rw [if_neg (by simp), htext]
    exact hnumeral

/-- **The Lua style** spells the tokens of the lexicon. -/
theorem spelt_lua : Spelt nextToken Literal.lua lexicon IsLiteral where
  blanks := passesBlanks_nextToken
  comma := spells_sign rfl
  collection := rfl
  listOpen := spells_sign rfl
  listClose := spells_sign rfl
  fieldsOpen := spells_sign rfl
  fieldsClose := spells_sign rfl
  fieldKey := spells_fieldKey
  mapKey := spells_mapKey
  scalar {type text} h := by
    show Spells nextToken AtBreak (quoting quoted type text).toList (scalarTokens type text)
    unfold quoting scalarTokens
    split
    · exact (spells_quoted text).before
    · rename_i htype
      split
      · subst_vars
        exact (spells_keyword rfl).weaken fun _ => NameEnds.of_atBreak
      split
      · subst_vars
        exact (spells_keyword rfl).weaken fun _ => NameEnds.of_atBreak
      · rename_i htrue hfalse
        rcases h (by simpa using htype) with h | h | h
        · exact absurd h htrue
        · exact absurd h hfalse
        · exact spells_number h
  unquoted h _ := if_neg (by simp [h])

/-- Whole numbers are written as literals. -/
theorem isLiteral_toString (n : Int) : IsLiteral (toString n) := by
  refine .inr (.inr ?_)
  cases n with
  | ofNat n =>
    have htext : toString (Int.ofNat n) = String.ofList (Nat.toDigits 10 n) := rfl
    have hnumeral := isNumeral_toDigits n
    rw [← htext] at hnumeral
    rw [unsigned_eq_self (head?_ne_of_isNumeral hnumeral)]
    exact hnumeral
  | negSucc n =>
    have htext : (toString (Int.negSucc n)).toList = '-' :: Nat.toDigits 10 (n + 1) := by
      show ("-" ++ (n + 1).repr).toList = _
      rw [String.toList_append, Nat.toList_repr]
      rfl
    have hnumeral := isNumeral_toDigits (n + 1)
    simp only [unsigned, htext, ↓reduceIte]
    exact hnumeral

end TableExport.Lua
