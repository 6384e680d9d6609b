import TableExport.Literal.Json
import TableExport.Proofs.Json.Token
import TableExport.Proofs.Render.Tokens
import TableExport.Proofs.Text.Parsing

/-!
# The value of a JSON text

A text is parsed into a tree that keeps everything: the order of members, members with the same name, and the digits
of numbers.

- `parse` parses a text.
- `Data.tree` is the tree that shows data, and `parses_tokens` says that their tokens are parsed into it.
- `spelt_json` says that the JSON style spells the tokens of a lexicon.
-/

namespace TableExport.Json

open TableExport.Literal TableExport.Render TableExport.Text

/-- A value. -/
inductive Tree where
  | null
  | boolean (value : Bool)
  /-- A number as it is written. -/
  | number (text : String)
  | string (text : String)
  | array (items : List Tree)
  /-- Members in order; names may occur again. -/
  | object (members : List (String × Tree))

/-- A name, a colon and a value. -/
def parseMember (value : Parser Token Tree) : Parser Token (String × Tree)
  | .string name :: .sign c :: r => if c = ':' then value.map (fun t => (name, t)) r else none
  | _ => none

/-- A value in which others are nested at most so deep. -/
def parseValue : Nat → Parser Token Tree
  | 0, _ => none
  | _ + 1, [] => none
  | _ + 1, .null :: r => some (.null, r)
  | _ + 1, .boolean b :: r => some (.boolean b, r)
  | _ + 1, .number text :: r => some (.number text, r)
  | _ + 1, .string text :: r => some (.string text, r)
  | n + 1, .sign c :: r =>
    if c = '[' then (enclosed (parseValue n) (.sign ',') (.sign ']')).map .array r
    else if c = '\x7b' then (enclosed (parseMember (parseValue n)) (.sign ',') (.sign '\x7d')).map .object r
    else none

/-- Parses tokens of which nothing may be left. -/
def parseTokens (ts : List Token) : Option Tree :=
  match parseValue ts.length ts with
  | some (t, []) => some t
  | _ => none

/-- Parses a text. -/
def parse (text : String) : Option Tree :=
  (tokens? nextToken text.toList).bind parseTokens

/-! ## The tree of data -/

/-- The text of a scalar is a number or a truth value. -/
def IsLiteral (text : String) : Prop :=
  text = "true" ∨ text = "false" ∨ isNumber text = true

instance (text : String) : Decidable (IsLiteral text) :=
  inferInstanceAs (Decidable (text = "true" ∨ text = "false" ∨ isNumber text = true))

/-- The tree of a scalar: its text, or what the text stands for. -/
def scalarTree (type : ScalarType) (text : String) : Tree :=
  if type.isQuoted then .string text
  else if text = "true" then .boolean true
  else if text = "false" then .boolean false
  else .number text

/-- The tree of data: arrays of items, objects of entries. -/
def dataTree : Data → Tree :=
  Data.fold scalarTree .array .object

/-- The token of a scalar. -/
def scalarToken (type : ScalarType) (text : String) : Token :=
  if type.isQuoted then .string text
  else if text = "true" then .boolean true
  else if text = "false" then .boolean false
  else .number text

/-- A name and a colon. -/
def memberKey (name : String) : List Token :=
  [.string name, .sign ':']

/-- The tokens of JSON data. -/
def lexicon : Lexicon Token where
  comma := .sign ','
  listOpen := .sign '['
  listClose := .sign ']'
  fieldsOpen := .sign '\x7b'
  fieldsClose := .sign '\x7d'
  fieldKey := memberKey
  mapKey := memberKey
  scalar type text := [scalarToken type text]

/-- A scalar is parsed, and its token closes nothing. -/
theorem parseValue_scalar (n : Nat) (type : ScalarType) (text : String) :
    Parses (parseValue (n + 1)) [scalarToken type text] (scalarTree type text) := by
  intro r
  unfold scalarToken scalarTree
  split
  · rfl
  split
  · rfl
  split
  · rfl
  · rfl

theorem parses_member {value : Parser Token Tree} {ts : List Token} {t : Tree} (h : Parses value ts t)
    (name : String) : Parses (parseMember value) (memberKey name ++ ts) (name, t) := by
  intro r
  exact h.map (fun t => (name, t)) r

/-- The tokens of data start neither with a closing bracket nor with `null`. -/
theorem tokens_head (d : Data) : ∃ t r, lexicon.tokens memberKey d = t :: r ∧ t ≠ .sign ']' ∧ t ≠ .null := by
  cases d with
  | scalar type text =>
    rw [Lexicon.tokens_scalar]
    refine ⟨scalarToken type text, [], rfl, ?_⟩
    unfold scalarToken
    split
    · simp
    split
    · simp
    split <;> simp
  | list items =>
    rw [Lexicon.tokens_list]
    exact ⟨_, _, rfl, by simp [lexicon], by simp [lexicon]⟩
  | fields entries =>
    rw [Lexicon.tokens_fields]
    exact ⟨_, _, rfl, by simp [lexicon], by simp [lexicon]⟩

/-- **The tokens of data** are parsed into their tree. -/
theorem parses_tokens (d : Data) : ∀ n, (lexicon.tokens memberKey d).length ≤ n →
    Parses (parseValue n) (lexicon.tokens memberKey d) (dataTree d) := by
  induction d using Data.induct with
  | scalar type text =>
    intro n hn
    rw [Lexicon.tokens_scalar] at hn ⊢
    obtain ⟨m, rfl⟩ : ∃ m, n = m + 1 := ⟨n - 1, by simp [lexicon] at hn; omega⟩
    rw [dataTree, Data.fold_scalar]
    exact parseValue_scalar m type text
  | list items ih =>
    intro n hn
    rw [Lexicon.tokens_list] at hn ⊢
    obtain ⟨m, rfl⟩ : ∃ m, n = m + 1 := ⟨n - 1, by simp at hn; omega⟩
    have hitems : List.Forall₂ (Parses (parseValue m)) (items.map (lexicon.tokens memberKey)) (items.map dataTree) := by
      rw [List.forall₂_map_left_iff, List.forall₂_map_right_iff, List.forall₂_same]
      intro d hd
      have hlength := length_le_intercalate_of_mem lexicon.comma
        (List.mem_map_of_mem (f := lexicon.tokens memberKey) hd)
      refine ih d hd m (hlength.trans ?_)
      simp only [List.length_append, List.length_cons, List.length_nil] at hn
      omega
    have henclosed : Parses (enclosed (parseValue m) (.sign ',') (.sign ']')) _ _ :=
      parses_enclosed (by simp) hitems fun ts hts => by
        obtain ⟨d, -, rfl⟩ := List.mem_map.1 hts
        obtain ⟨t, r, heq, hclose, -⟩ := tokens_head d
        exact ⟨t, r, heq, hclose⟩
    rw [dataTree, Data.fold_list]
    exact henclosed.map Tree.array
  | fields entries ih =>
    intro n hn
    rw [Lexicon.tokens_fields] at hn ⊢
    obtain ⟨m, rfl⟩ : ∃ m, n = m + 1 := ⟨n - 1, by simp at hn; omega⟩
    have hmembers : List.Forall₂ (Parses (parseMember (parseValue m)))
        (entries.map fun e => memberKey e.1 ++ lexicon.tokens memberKey e.2)
        (entries.map fun e => (e.1, dataTree e.2)) := by
      rw [List.forall₂_map_left_iff, List.forall₂_map_right_iff, List.forall₂_same]
      intro e he
      have hlength := length_le_intercalate_of_mem lexicon.comma
        (List.mem_map_of_mem (f := fun e => memberKey e.1 ++ lexicon.tokens memberKey e.2) he)
      refine parses_member (ih e he m ?_) e.1
      simp only [List.length_append, List.length_cons, List.length_nil] at hn hlength
      omega
    have henclosed : Parses (enclosed (parseMember (parseValue m)) (.sign ',') (.sign '\x7d')) _ _ :=
      parses_enclosed (by simp) hmembers fun ts hts => by
        obtain ⟨e, -, rfl⟩ := List.mem_map.1 hts
        exact ⟨.string e.1, _, rfl, by simp⟩
    rw [dataTree, Data.fold_fields]
    exact henclosed.map Tree.object

/-- The tokens of data are parsed into their tree, with nothing left. -/
theorem parseTokens_tokens (d : Data) : parseTokens (lexicon.tokens memberKey d) = some (dataTree d) := by
  have := parses_tokens d _ (Nat.le_refl _) []
  rw [List.append_nil] at this
  rw [parseTokens, this]

/-! ## The JSON style -/

theorem spells_blank {c : Char} (h : isBlank c = true) : Spells nextToken Anything [c] [] :=
  Spells.of_next fun r _ => by simp [nextToken, h]

theorem spells_sign {c : Char} (hb : isBlank c = false) (h : signs.contains c = true) :
    Spells nextToken Anything [c] [.sign c] :=
  Spells.of_next fun r _ => by
    simp only [List.singleton_append, nextToken, hb, h, ↓reduceIte, Bool.false_eq_true]

theorem passesBlanks_nextToken : Layout.PassesBlanks nextToken where
  space := spells_blank rfl
  tab := spells_blank rfl
  newline := spells_blank rfl

theorem spells_memberKey (name : String) :
    Spells nextToken Anything (quoted name ++ ": ").toList (memberKey name) := by
  rw [String.toList_append]
  exact (spells_quoted name).then ((spells_sign rfl rfl).then (spells_blank rfl))

/-- **The JSON style** spells the tokens of the lexicon. -/
theorem spelt_json : Spelt nextToken Literal.json lexicon IsLiteral where
  blanks := passesBlanks_nextToken
  comma := spells_sign rfl rfl
  collection := rfl
  listOpen := spells_sign rfl rfl
  listClose := spells_sign rfl rfl
  fieldsOpen := spells_sign rfl rfl
  fieldsClose := spells_sign rfl rfl
  fieldKey := spells_memberKey
  mapKey := spells_memberKey
  scalar {type text} h := by
    show Spells nextToken AtBreak (quoting quoted type text).toList [scalarToken type text]
    unfold quoting scalarToken
    split
    · exact (spells_quoted text).before
    · rename_i htype
      split
      · subst_vars
        exact (spells_boolean true).before
      split
      · subst_vars
        exact (spells_boolean false).before
      · rename_i htrue hfalse
        rcases h (by simpa using htype) with h | h | h
        · exact absurd h htrue
        · exact absurd h hfalse
        · exact spells_number h
  unquoted h _ := if_neg (by simp [h])

theorem isLiteral_toString (n : Int) : IsLiteral (toString n) :=
  .inr (.inr (isNumber_toString n))

end TableExport.Json
