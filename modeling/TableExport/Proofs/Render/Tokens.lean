import TableExport.Proofs.Layout.Written
import TableExport.Proofs.Outcome
import TableExport.Proofs.Render.Data
import TableExport.Render.Enum
import TableExport.Render.Table

/-!
# The tokens of rendered tables and enums

A lexicon says by which tokens an output writes brackets, keys and scalars; `Lexicon.tokens` are then the tokens of
data. If the texts of a style spell the tokens of a lexicon (`Spelt`), what is rendered in that style spells the tokens
of the data that it shows, whatever the names and the numbers of records, fields and items are:

- `spells_renderRecord` for the literal of a record,
- `writes_renderTables` for the lines of tables, `writes_renderEnums` for the lines of enums.
-/

namespace TableExport.Render

open TableExport.Layout TableExport.Literal TableExport.Text

/-- The tokens by which an output writes data. -/
structure Lexicon (τ : Type) where
  /-- Between items and between entries. -/
  comma : τ
  /-- Around items. -/
  listOpen : τ
  listClose : τ
  /-- Around entries. -/
  fieldsOpen : τ
  fieldsClose : τ
  /-- In front of the value of a field or a table. -/
  fieldKey : String → List τ
  /-- In front of the value of a map entry. -/
  mapKey : String → List τ
  /-- A scalar. -/
  scalar : ScalarType → String → List τ

namespace Lexicon

variable {τ : Type} (L : Lexicon τ) (key : String → List τ)

/-- The tokens of data whose fields have keys of that form. -/
def tokens : Data → List τ :=
  Data.fold L.scalar (fun items => L.listOpen :: List.intercalate [L.comma] items ++ [L.listClose])
    fun entries => L.fieldsOpen :: List.intercalate [L.comma] (entries.map fun e => key e.1 ++ e.2) ++ [L.fieldsClose]

@[simp] theorem tokens_scalar (type : ScalarType) (text : String) :
    L.tokens key (.scalar type text) = L.scalar type text := by
  rw [tokens, Data.fold_scalar]

theorem tokens_list (ds : List Data) : L.tokens key (.list ds) =
    L.listOpen :: List.intercalate [L.comma] (ds.map (L.tokens key)) ++ [L.listClose] := by
  rw [tokens, Data.fold_list]

theorem tokens_fields (es : List (String × Data)) : L.tokens key (.fields es) =
    L.fieldsOpen :: List.intercalate [L.comma] (es.map fun e => key e.1 ++ L.tokens key e.2) ++ [L.fieldsClose] := by
  rw [tokens, Data.fold_fields, List.map_map]
  rfl

/-- The comma behind an entry that others follow. -/
def separator (separated : Bool) : List τ :=
  if separated then [L.comma] else []

@[simp] theorem separator_false : L.separator false = [] := rfl

@[simp] theorem separator_true : L.separator true = [L.comma] := rfl

/-- Entries with a comma behind each of them, the last only if more follows. -/
def separated (more : Bool) : List (List τ) → List τ
  | [] => []
  | ts :: rest => ts ++ (L.separator (more || !rest.isEmpty) ++ separated more rest)

theorem separated_false : ∀ tss : List (List τ), L.separated false tss = List.intercalate [L.comma] tss
  | [] => rfl
  | [ts] => by simp [separated, separator]
  | ts :: us :: rest => by
    rw [separated, separated_false (us :: rest), List.intercalate_cons_cons]
    simp [separator]

theorem separated_true_append (ts : List τ) :
    ∀ tss : List (List τ), L.separated true tss ++ ts = List.intercalate [L.comma] (tss ++ [ts])
  | [] => by simp [separated]
  | us :: rest => by
    rw [separated, List.append_assoc, List.append_assoc, separated_true_append ts rest, List.cons_append,
      List.intercalate_cons_of_ne_nil (by simp)]
    simp [separator]

end Lexicon

/-- The pieces of a style spell the tokens of a lexicon; texts that are written without quotes have the property
`plain`. -/
structure Spelt {τ : Type} (next : Tokenizer τ) (style : Style) (L : Lexicon τ) (plain : String → Prop) : Prop where
  blanks : PassesBlanks next
  comma : Spells next Anything [','] [L.comma]
  collection : style.collection = style.array
  listOpen : Spells next Anything style.array.opening.toList [L.listOpen]
  listClose : Spells next Anything style.array.closing.toList [L.listClose]
  fieldsOpen : Spells next Anything style.object.opening.toList [L.fieldsOpen]
  fieldsClose : Spells next Anything style.object.closing.toList [L.fieldsClose]
  fieldKey (name : String) : Spells next Anything (style.fieldKey name).toList (L.fieldKey name)
  mapKey (name : String) : Spells next Anything (style.mapKey name).toList (L.mapKey name)
  scalar {type : ScalarType} {text : String} (h : type.isQuoted = false → plain text) :
    Spells next AtBreak (style.value type text).toList (L.scalar type text)
  unquoted {type : ScalarType} (h : type.isQuoted = false) (text : String) : style.value type text = text

variable {τ : Type} {next : Tokenizer τ} {style : Style} {L : Lexicon τ} {plain : String → Prop}

section Literals

variable (hs : Spelt next style L plain)
include hs

/-- A comma and a blank between two items. -/
theorem spells_comma : Spells next Anything [',', ' '] [L.comma] :=
  hs.comma.then hs.blanks.space

/-- Items inside brackets. -/
theorem spells_wrap {b : Brackets} {opening closing : τ} (ho : Spells next Anything b.opening.toList [opening])
    (hc : Spells next Anything b.closing.toList [closing]) {texts : List String} {spelt : List (List τ)}
    (h : List.Forall₂ (Spells next AtBreak) (texts.map String.toList) spelt) :
    Spells next Anything (b.wrap texts).toList (opening :: List.intercalate [L.comma] spelt ++ [closing]) := by
  cases texts with
  | nil =>
    cases h
    simpa [Brackets.wrap, Brackets.empty] using ho.then hc
  | cons t texts =>
    have hitems := spells_joined (spells_comma hs) rfl (.inl rfl) h
    have hclose := hs.blanks.space.then hc
    have := (ho.then hs.blanks.space).then (hitems.append hclose fun r _ => atBreak_cons (.inr (.inl rfl)) _)
    simpa [Brackets.wrap, String.toList_intercalate] using this

/-- A list of data whose items are spelled. -/
theorem spells_list (key : String → List τ) {texts : List String} {items : List Data}
    (h : List.Forall₂ (Spells next AtBreak) (texts.map String.toList) (items.map (L.tokens key))) :
    Spells next Anything (style.array.wrap texts).toList (L.tokens key (.list items)) := by
  rw [Lexicon.tokens_list]
  exact spells_wrap hs hs.listOpen hs.listClose h

/-- Named data whose entries are spelled. -/
theorem spells_fields (key : String → List τ) {texts : List String} {entries : List (String × Data)}
    (h : List.Forall₂ (Spells next AtBreak) (texts.map String.toList)
      (entries.map fun e => key e.1 ++ L.tokens key e.2)) :
    Spells next Anything (style.object.wrap texts).toList (L.tokens key (.fields entries)) := by
  rw [Lexicon.tokens_fields]
  exact spells_wrap hs hs.fieldsOpen hs.fieldsClose h

/-- An entry behind its key. -/
theorem spells_entry {name text : String} {ts : List τ} (h : Spells next AtBreak text.toList ts) :
    Spells next AtBreak (entry style name text).toList (L.fieldKey name ++ ts) := by
  rw [entry, String.toList_append]
  exact (hs.fieldKey name).then h

theorem spells_leafEntries {leaves : Instance} :
    ∀ {seen : List String} {texts : List String}, leafEntries style seen leaves = .ok texts →
      PlainScalars plain (instanceScalars leaves) →
      List.Forall₂ (Spells next AtBreak) (texts.map String.toList)
        ((leaves.map Leaf.entry).map fun e => L.fieldKey e.1 ++ L.tokens L.fieldKey e.2) := by
  induction leaves with
  | nil =>
    intro seen texts h _
    simp only [leafEntries, Except.ok.injEq] at h
    rw [← h]
    exact .nil
  | cons l ls ih =>
    intro seen texts h hp
    rw [leafEntries] at h
    split at h
    · cases h
    · obtain ⟨rest, hrest, h⟩ := bind_eq_ok.1 h
      rw [pure_eq_ok] at h
      rw [← h]
      have hleaf := hs.scalar (hp (l.type, l.value) (by simp [instanceScalars]))
      exact .cons (spells_entry hs hleaf) (ih hrest fun x hx => hp x (List.mem_cons_of_mem _ hx))

theorem spells_renderInstance {i : Instance} {text : String} (h : renderInstance style i = .ok text)
    (hp : PlainScalars plain (instanceScalars i)) :
    Spells next Anything text.toList (L.tokens L.fieldKey (instanceData i)) := by
  rw [renderInstance] at h
  obtain ⟨texts, htexts, h⟩ := bind_eq_ok.1 h
  rw [pure_eq_ok] at h
  rw [← h]
  exact spells_fields hs L.fieldKey (spells_leafEntries hs htexts hp)

theorem spells_instances {is : List Instance} {texts : List String}
    (h : List.Forall₂ (fun i text => renderInstance style i = .ok text) is texts)
    (hp : PlainScalars plain (is.flatMap instanceScalars)) :
    List.Forall₂ (Spells next AtBreak) (texts.map String.toList) ((is.map instanceData).map (L.tokens L.fieldKey)) := by
  induction h with
  | nil => exact .nil
  | @cons i text is texts hi _ ih =>
    exact .cons (spells_renderInstance hs hi (hp.of_mem_flatMap List.mem_cons_self)).before (ih hp.of_flatMap_cons)

/-- **The literal of a value** spells its data. -/
theorem spells_renderValue {v : NodeValue} {text : String} (h : renderValue style v = .ok text)
    (hp : PlainScalars plain v.scalars) : Spells next AtBreak text.toList (L.tokens L.fieldKey v.data) := by
  cases v with
  | scalar type value =>
    simp only [renderValue, Except.ok.injEq] at h
    rw [← h, NodeValue.data, Lexicon.tokens_scalar]
    exact hs.scalar (hp (type, value) (by simp [NodeValue.scalars]))
  | array type values =>
    simp only [renderValue, Except.ok.injEq] at h
    rw [← h, NodeValue.data]
    refine (spells_list hs L.fieldKey ?_).before
    simp only [List.map_map, List.forall₂_map_left_iff, List.forall₂_map_right_iff, List.forall₂_same]
    intro value hv
    simp only [Function.comp_apply, Lexicon.tokens_scalar]
    exact hs.scalar (hp (type, value) (by simpa [NodeValue.scalars] using hv))
  | struct i =>
    exact (spells_renderInstance hs h hp).before
  | structArray is =>
    rw [renderValue] at h
    obtain ⟨texts, htexts, h⟩ := bind_eq_ok.1 h
    rw [pure_eq_ok] at h
    rw [← h, NodeValue.data]
    exact (spells_list hs L.fieldKey (spells_instances hs (mapM_eq_ok.1 htexts) hp)).before

theorem spells_nodeEntries {nodes : Record} :
    ∀ {seen : List String} {texts : List String}, nodeEntries style seen nodes = .ok texts →
      PlainScalars plain (recordScalars nodes) →
      List.Forall₂ (Spells next AtBreak) (texts.map String.toList)
        ((nodes.map Node.entry).map fun e => L.fieldKey e.1 ++ L.tokens L.fieldKey e.2) := by
  induction nodes with
  | nil =>
    intro seen texts h _
    simp only [nodeEntries, Except.ok.injEq] at h
    rw [← h]
    exact .nil
  | cons n ns ih =>
    intro seen texts h hp
    rw [nodeEntries] at h
    split at h
    · cases h
    · cases hv : renderValue style n.value with
      | error leaf => rw [hv] at h; cases h
      | ok value =>
        rw [hv] at h
        obtain ⟨rest, hrest, h⟩ := bind_eq_ok.1 h
        rw [pure_eq_ok] at h
        rw [← h]
        have hvalue := spells_renderValue hs hv (PlainScalars.of_mem_record hp List.mem_cons_self)
        exact .cons (spells_entry hs hvalue) (ih hrest (PlainScalars.of_flatMap_cons hp))

/-- **The literal of a record** spells its data. -/
theorem spells_renderRecord {table : String} {index : Nat} {r : Record} {text : String}
    (h : renderRecord style table index r = .ok text) (hp : PlainScalars plain (recordScalars r)) :
    Spells next Anything text.toList (L.tokens L.fieldKey (recordData r)) := by
  rw [renderRecord] at h
  cases hn : nodeEntries style [] r with
  | error field => rw [hn] at h; cases h
  | ok texts =>
    rw [hn] at h
    simp only [Except.ok.injEq] at h
    rw [← h]
    exact spells_fields hs L.fieldKey (spells_nodeEntries hs hn hp)

end Literals

/-! ## Lines -/

section Lines

variable (hs : Spelt next style L plain)
include hs

/-- A text with the comma behind it. -/
theorem spells_separator {text : String} {ts : List τ} (h : Spells next AtBreak text.toList ts) (separated : Bool) :
    Spells next AtLineEnd (text ++ separator separated).toList (ts ++ L.separator separated) := by
  cases separated with
  | false => simpa [separator] using h.atLineEnd
  | true =>
    have := h.append hs.comma.before fun r (_ : AtLineEnd r) => atBreak_cons (.inl rfl) r
    simpa [separator] using this

/-- The only line of something without entries. -/
theorem writes_empty {b : Brackets} {key : String} {ks : List τ} {opening closing : τ}
    (hk : Spells next Anything key.toList ks) (ho : Spells next Anything b.opening.toList [opening])
    (hc : Spells next Anything b.closing.toList [closing]) (separated : Bool) :
    Writes next [.line (key ++ b.empty ++ separator separated)]
      (ks ++ [opening, closing] ++ L.separator separated) := by
  refine writes_line hs.blanks (spells_separator hs ?_ separated)
  rw [String.toList_append, Brackets.empty, String.toList_append]
  exact (hk.then (ho.then hc)).before

/-- The first line, indented lines and the last line of something with entries. -/
theorem writes_block {b : Brackets} {key : String} {ks ts : List τ} {opening closing : τ} {lines : List Step}
    (hk : Spells next Anything key.toList ks) (ho : Spells next Anything b.opening.toList [opening])
    (hc : Spells next Anything b.closing.toList [closing]) (hlines : Writes next lines ts) (separated : Bool) :
    Writes next ([.line (key ++ b.opening), .indent] ++ (lines ++ [.dedent, .line (b.closing ++ separator separated)]))
      (ks ++ (opening :: ts ++ [closing]) ++ L.separator separated) := by
  have hfirst : Writes next [.line (key ++ b.opening)] (ks ++ [opening]) :=
    writes_line hs.blanks (by rw [String.toList_append]; exact (hk.then ho).before)
  have hlast := writes_line hs.blanks (spells_separator hs hc.before separated)
  have := (hfirst.append writes_indent).append (hlines.append (writes_dedent.append hlast))
  simpa using this

theorem writes_renderRecords {table : String} {rs : List Record} :
    ∀ {index : Nat}, (renderRecords style table index rs).failure = none →
      PlainScalars plain (rs.flatMap recordScalars) →
      Writes next (renderRecords style table index rs).steps
        (L.separated false ((rs.map recordData).map (L.tokens L.fieldKey))) := by
  induction rs with
  | nil =>
    intro index _ _
    exact writes_nil
  | cons r rs ih =>
    intro index h hp
    cases hr : renderRecord style table index r with
    | error e => simp [renderRecords, hr, Script.fail] at h
    | ok literal =>
      simp only [renderRecords, hr, Script.failure_andThen_eq_none, Script.ofSteps_failure, true_and] at h ⊢
      rw [Script.andThen_steps rfl, Script.ofSteps_steps]
      have hline := spells_renderRecord hs hr (hp.of_mem_flatMap List.mem_cons_self)
      have := (writes_line hs.blanks (spells_separator hs hline.before (!rs.isEmpty))).append
        (ih h hp.of_flatMap_cons)
      simpa [Lexicon.separated] using this

/-- **The lines of a table** spell its key and its data. -/
theorem writes_renderTable {t : Table} {separated : Bool} (h : (renderTable style t separated).failure = none)
    (hp : PlainScalars plain t.scalars) :
    Writes next (renderTable style t separated).steps
      (L.fieldKey t.name ++ L.tokens L.fieldKey t.data ++ L.separator separated) := by
  rw [Table.data, Lexicon.tokens_list]
  unfold renderTable at h ⊢
  split
  · rename_i he
    rw [List.isEmpty_iff.1 he]
    have := writes_empty hs (hs.fieldKey t.name) hs.listOpen hs.listClose separated
    simpa [hs.collection] using this
  · rename_i he
    rw [if_neg he] at h
    simp only [Script.failure_andThen_eq_none, Script.ofSteps_failure, true_and, and_true] at h
    rw [Script.andThen_steps rfl, Script.andThen_steps h, ← Lexicon.separated_false, hs.collection]
    exact writes_block hs (hs.fieldKey t.name) hs.listOpen hs.listClose (writes_renderRecords hs h hp) separated

/-- **The lines of tables** spell their keys and their data, with a comma behind the last if more follows. -/
theorem writes_renderTables {more : Bool} :
    ∀ {tables : List Table}, (renderTables style more tables).failure = none →
      (∀ t ∈ tables, PlainScalars plain t.scalars) →
      Writes next (renderTables style more tables).steps
        (L.separated more ((tables.map Table.entry).map fun e => L.fieldKey e.1 ++ L.tokens L.fieldKey e.2))
  | [], _, _ => writes_nil
  | t :: ts, h, hp => by
    rw [renderTables, Script.failure_andThen_eq_none] at h
    rw [renderTables, Script.andThen_steps h.1]
    have := (writes_renderTable hs h.1 (hp t List.mem_cons_self)).append
      (writes_renderTables h.2 fun u hu => hp u (List.mem_cons_of_mem t hu))
    simpa [Lexicon.separated, Table.entry] using this

/-- Numbers of enum members may be written without quotes. -/
theorem writes_memberSteps (hn : ∀ n : Int, plain (toString n)) :
    ∀ fs : List FieldDescriptor, Writes next (memberSteps style fs)
      (L.separated false ((fs.map FieldDescriptor.memberEntry).map fun e => L.mapKey e.1 ++ L.tokens L.mapKey e.2))
  | [] => writes_nil
  | f :: fs => by
    have hnumber : Spells next AtBreak (style.value .int32 (toString f.ordinal.toInt)).toList
        (L.scalar .int32 (toString f.ordinal.toInt)) := hs.scalar fun _ => hn f.ordinal.toInt
    rw [hs.unquoted rfl] at hnumber
    have hline : Spells next AtBreak (style.mapKey f.name ++ toString f.ordinal.toInt).toList
        (L.mapKey f.name ++ L.scalar .int32 (toString f.ordinal.toInt)) := by
      rw [String.toList_append]
      exact (hs.mapKey f.name).then hnumber
    have := (writes_line hs.blanks (spells_separator hs hline (!fs.isEmpty))).append (writes_memberSteps hn fs)
    simpa [memberSteps, Lexicon.separated, FieldDescriptor.memberEntry] using this

/-- **The lines of an enum** spell its key and its data. -/
theorem writes_renderEnum (hn : ∀ n : Int, plain (toString n)) (d : Descriptor) (separated : Bool) :
    Writes next (renderEnum style d separated)
      (L.fieldKey d.name ++ L.tokens L.mapKey (enumData d) ++ L.separator separated) := by
  rw [enumData, Lexicon.tokens_fields]
  unfold renderEnum
  split
  · rename_i he
    rw [List.isEmpty_iff.1 he]
    exact writes_empty hs (hs.fieldKey d.name) hs.fieldsOpen hs.fieldsClose separated
  · rw [← Lexicon.separated_false]
    exact writes_block hs (hs.fieldKey d.name) hs.fieldsOpen hs.fieldsClose (writes_memberSteps hs hn d.fields)
      separated

/-- **The lines of enums** spell their keys and their data. -/
theorem writes_renderEnums (hn : ∀ n : Int, plain (toString n)) :
    ∀ ds : List Descriptor, Writes next (renderEnums style ds)
      (L.separated false ((ds.map Descriptor.enumEntry).map fun e => L.fieldKey e.1 ++ L.tokens L.mapKey e.2))
  | [] => writes_nil
  | d :: ds => by
    have := (writes_renderEnum hs hn d (!ds.isEmpty)).append (writes_renderEnums hn ds)
    simpa [renderEnums, Lexicon.separated, Descriptor.enumEntry] using this

end Lines

end TableExport.Render
