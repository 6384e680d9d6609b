import TableExport.Proofs.Json.Tree

/-!
# The JSON texts of data

Data have a text in the JSON style, and many others: with other blanks, with other escapes in the strings. All of them
have the same tree, and all texts with that tree have the same tokens.

- `write` is the text in the JSON style, and `parse_write` its tree.
- `tokens_of_parse` are the tokens of any text with the tree of data.
-/

namespace TableExport.Json

open TableExport.Render TableExport.Text

/-! ## Writing -/

/-- The text of data in the JSON style. -/
def write : Data → String :=
  Data.fold Literal.json.value Literal.json.array.wrap fun es =>
    Literal.json.object.wrap (es.map fun e => entry Literal.json e.1 e.2)

/-- The scalars in the data that are written without quotes are numbers and truth values. -/
def Literals : Data → Prop :=
  Data.fold (fun type text => type.isQuoted = false → IsLiteral text) (fun ps => ∀ p ∈ ps, p) fun es => ∀ e ∈ es, e.2

@[simp] theorem literals_scalar (type : ScalarType) (text : String) :
    Literals (.scalar type text) ↔ (type.isQuoted = false → IsLiteral text) := by
  rw [Literals, Data.fold_scalar]

@[simp] theorem literals_list (ds : List Data) : Literals (.list ds) ↔ ∀ d ∈ ds, Literals d := by
  rw [Literals, Data.fold_list, List.forall_mem_map]

@[simp] theorem literals_fields (es : List (String × Data)) : Literals (.fields es) ↔ ∀ e ∈ es, Literals e.2 := by
  rw [Literals, Data.fold_fields, List.forall_mem_map]

/-- The text of data spells their tokens. -/
theorem spells_write (d : Data) (h : Literals d) :
    Spells nextToken AtBreak (write d).toList (lexicon.tokens memberKey d) := by
  induction d using Data.induct with
  | scalar type text =>
    rw [write, Data.fold_scalar, Lexicon.tokens_scalar]
    exact spelt_json.scalar ((literals_scalar type text).1 h)
  | list ds ih =>
    rw [literals_list] at h
    rw [write, Data.fold_list]
    refine (spells_list spelt_json memberKey ?_).before
    rw [List.map_map, List.forall₂_map_left_iff, List.forall₂_map_right_iff, List.forall₂_same]
    exact fun d hd => ih d hd (h d hd)
  | fields es ih =>
    rw [literals_fields] at h
    rw [write, Data.fold_fields, List.map_map]
    refine (spells_fields spelt_json memberKey ?_).before
    rw [List.map_map, List.forall₂_map_left_iff, List.forall₂_map_right_iff, List.forall₂_same]
    exact fun e he => spells_entry spelt_json (ih e he (h e he))

/-- **The text of data** has their tree. -/
theorem parse_write {d : Data} (h : Literals d) : parse (write d) = some (dataTree d) := by
  rw [parse, (spells_write d h).tokens? (.inl rfl)]
  exact parseTokens_tokens d

/-! ## Reading back the tokens -/

/-- What a tree is read from, when others may be nested in it at most so deep. -/
inductive TreeOf (n : Nat) : List Token → Tree → List Token → Prop
  | null (r : List Token) : TreeOf n (.null :: r) .null r
  | boolean (b : Bool) (r : List Token) : TreeOf n (.boolean b :: r) (.boolean b) r
  | number (text : String) (r : List Token) : TreeOf n (.number text :: r) (.number text) r
  | string (text : String) (r : List Token) : TreeOf n (.string text :: r) (.string text) r
  | array {us r : List Token} {items : List Tree} :
    enclosed (parseValue n) (.sign ',') (.sign ']') us = some (items, r) → TreeOf n (.sign '[' :: us) (.array items) r
  | object {us r : List Token} {members : List (String × Tree)} :
    enclosed (parseMember (parseValue n)) (.sign ',') (.sign '\x7d') us = some (members, r) →
      TreeOf n (.sign '\x7b' :: us) (.object members) r

/-- A value is read from one of these. -/
theorem treeOf_parseValue {n : Nat} {us r : List Token} {t : Tree} (h : parseValue n us = some (t, r)) :
    ∃ m, TreeOf m us t r := by
  fun_cases parseValue n us with
  | case1 | case2 => cases h
  | case3 m s =>
    cases h
    exact ⟨m, .null r⟩
  | case4 m b s =>
    cases h
    exact ⟨m, .boolean b r⟩
  | case5 m text s =>
    cases h
    exact ⟨m, .number text r⟩
  | case6 m text s =>
    cases h
    exact ⟨m, .string text r⟩
  | case7 m s =>
    rw [parseValue, if_pos rfl] at h
    obtain ⟨⟨items, r'⟩, hitems, heq⟩ := Option.map_eq_some_iff.1 h
    cases heq
    exact ⟨m, .array hitems⟩
  | case8 m s =>
    rw [parseValue, if_neg (by decide), if_pos rfl] at h
    obtain ⟨⟨members, r'⟩, hmembers, heq⟩ := Option.map_eq_some_iff.1 h
    cases heq
    exact ⟨m, .object hmembers⟩
  | case9 m c s hlist hobject =>
    rw [parseValue, if_neg hlist, if_neg hobject] at h
    cases h

theorem readFrom_member {value : Parser Token Tree} {ts : List Token} {t : Tree} (h : ReadFrom value ts t)
    (name : String) : ReadFrom (parseMember value) (memberKey name ++ ts) (name, t) := by
  intro us r hread
  unfold parseMember at hread
  split at hread
  · split at hread
    · rename_i hcolon
      obtain ⟨⟨t', r'⟩, hvalue, heq⟩ := Option.map_eq_some_iff.1 hread
      cases heq
      rw [h _ _ hvalue, hcolon]
      rfl
    · cases hread
  · cases hread

/-- **The tree of data** is read from the tokens of the data only. -/
theorem readFrom_tokens (d : Data) : ∀ n, ReadFrom (parseValue n) (lexicon.tokens memberKey d) (dataTree d) := by
  induction d using Data.induct with
  | scalar type text =>
    intro n us r h
    obtain ⟨m, h⟩ := treeOf_parseValue h
    rw [dataTree, Data.fold_scalar, scalarTree] at h
    rw [Lexicon.tokens_scalar]
    show us = [scalarToken type text] ++ r
    unfold scalarToken
    split_ifs at h ⊢ with hquoted htrue hfalse
    all_goals
      cases h
      rfl
  | list ds ih =>
    intro n us r h
    obtain ⟨m, h⟩ := treeOf_parseValue h
    rw [dataTree, Data.fold_list] at h
    rw [Lexicon.tokens_list]
    cases h with
    | array hitems =>
      have hread : ReadFrom (enclosed (parseValue m) (.sign ',') (.sign ']')) _ _ := readFrom_enclosed (by
        rw [List.forall₂_map_right_iff, List.forall₂_map_left_iff, List.forall₂_same]
        exact fun d hd => ih d hd m)
      rw [hread _ _ hitems]
      rfl
  | fields es ih =>
    intro n us r h
    obtain ⟨m, h⟩ := treeOf_parseValue h
    rw [dataTree, Data.fold_fields] at h
    rw [Lexicon.tokens_fields]
    cases h with
    | object hmembers =>
      have hread : ReadFrom (enclosed (parseMember (parseValue m)) (.sign ',') (.sign '\x7d')) _ _ :=
        readFrom_enclosed (by
          rw [List.forall₂_map_right_iff, List.forall₂_map_left_iff, List.forall₂_same]
          exact fun e he => readFrom_member (ih e he m) e.1)
      rw [hread _ _ hmembers]
      rfl

/-- **The tokens of a text** that has the tree of data are those of the data. -/
theorem tokens_of_parse {text : String} {d : Data} (h : parse text = some (dataTree d)) :
    tokens? nextToken text.toList = some (lexicon.tokens memberKey d) := by
  obtain ⟨us, hus, h⟩ := Option.bind_eq_some_iff.1 h
  rw [hus]
  unfold parseTokens at h
  split at h
  · rename_i t hread
    cases h
    have htokens := readFrom_tokens d _ _ _ hread
    rw [htokens, List.append_nil]
  · cases h

end TableExport.Json
