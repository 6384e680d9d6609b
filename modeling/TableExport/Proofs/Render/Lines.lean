import TableExport.Literal.Json
import TableExport.Literal.Lua
import TableExport.Proofs.Layout.Rows
import TableExport.Proofs.Lua.IndexLines
import TableExport.Proofs.Render.Partial

/-!
# One record to a line

Tables are written line by line. No name and no text in them brings in a line break of its own, so a table stands on
lines that can be counted: one if it has no records, and otherwise one for each record between two others.

- `KeepsLines` is what this takes of a style; `keepsLines_lua` and `keepsLines_json` say that it is given.
- `oneLine_record` says that a record stays on its line.
- `pushes_renderTables` computes the lines of tables, `StandsOn` says how a table stands on its lines, and
  `renderTables_lines` that all tables do.
-/

namespace TableExport.Render

open TableExport.Layout TableExport.Literal
open TableExport.Lua (OneLine OneLine.append isLineBreak)

/-! ## Styles that keep to the lines -/

/-- A pair of brackets of the outputs. -/
def CommonBrackets (b : Brackets) : Prop :=
  b = .curly ∨ b = .square

/-- Whatever is written, the style brings no line break into it. -/
structure KeepsLines (style : Style) : Prop where
  value {type : ScalarType} {text : String} (h : type.isQuoted = false → OneLine text) :
    OneLine (style.value type text)
  fieldKey : ∀ name, OneLine (style.fieldKey name)
  collection : CommonBrackets style.collection
  array : CommonBrackets style.array
  object : CommonBrackets style.object

/-- Values stay on their line if quoted texts and the texts without quotes do. -/
theorem oneLine_quoting {quote : String → String} (hquote : ∀ text, OneLine (quote text)) {type : ScalarType}
    {text : String} (h : type.isQuoted = false → OneLine text) : OneLine (quoting quote type text) := by
  rw [quoting]
  split
  · exact hquote text
  · exact h (by simpa using ‹¬ type.isQuoted = true›)

theorem keepsLines_lua : KeepsLines lua where
  value := oneLine_quoting Lua.oneLine_quoted
  fieldKey name := by
    have hkey : OneLine (Lua.tableKey name) := by
      unfold Lua.tableKey
      split
      · exact Lua.oneLine_identifier ‹_›
      · exact ((by decide : OneLine "[").append (Lua.oneLine_quoted name)).append (by decide)
    exact hkey.append (by decide)
  collection := .inl rfl
  array := .inl rfl
  object := .inl rfl

/-- No character needs a line break inside the quotes of JSON. -/
theorem isLineBreak_quotedChar_json (c : Char) : ∀ d ∈ Json.quotedChar c, isLineBreak d = false := by
  unfold Json.quotedChar
  split
  · exact Lua.isLineBreak_escape rfl
  split
  · exact Lua.isLineBreak_escape rfl
  split
  · exact Lua.isLineBreak_escape rfl
  split
  · exact Lua.isLineBreak_escape rfl
  split
  · exact Lua.isLineBreak_escape rfl
  split
  · exact Lua.isLineBreak_escape rfl
  split
  · exact Lua.isLineBreak_escape rfl
  split
  · simp [Json.hexCode, isLineBreak]
  · rename_i hnewline hreturn _ _
    simp [isLineBreak, hnewline, hreturn]

theorem keepsLines_json : KeepsLines json where
  value := oneLine_quoting (Lua.oneLine_betweenQuotes isLineBreak_quotedChar_json)
  fieldKey name := (Lua.oneLine_betweenQuotes isLineBreak_quotedChar_json name).append (by decide)
  collection := .inr rfl
  array := .inr rfl
  object := .inl rfl

/-! ## Records stay on their line -/

theorem oneLine_intercalate {items : List String} (h : ∀ item ∈ items, OneLine item) :
    OneLine (", ".intercalate items) := by
  induction items with
  | nil => decide
  | cons item items ih =>
    obtain ⟨hitem, hitems⟩ := List.forall_mem_cons.1 h
    cases items with
    | nil => rwa [String.intercalate_singleton]
    | cons next rest =>
      rw [String.intercalate_cons_cons]
      exact (hitem.append (by decide)).append (ih hitems)

theorem oneLine_wrap {b : Brackets} (hb : CommonBrackets b) {items : List String} (h : ∀ item ∈ items, OneLine item) :
    OneLine (b.wrap items) := by
  have hbrackets : OneLine b.empty ∧ OneLine (b.opening ++ " ") ∧ OneLine (" " ++ b.closing) := by
    rcases hb with rfl | rfl <;> decide
  rw [Brackets.wrap]
  split
  · exact hbrackets.1
  · rw [String.append_assoc]
    exact (hbrackets.2.1.append (oneLine_intercalate h)).append hbrackets.2.2

section Records

variable {style : Style} (hs : KeepsLines style)
include hs

theorem oneLine_fields {es : List (String × Data)} (h : ∀ e ∈ es, OneLine (literal style e.2)) :
    OneLine (literal style (.fields es)) := by
  rw [literal_fields]
  refine oneLine_wrap hs.object (List.forall_mem_map.2 fun e he => ?_)
  exact (hs.fieldKey e.1).append (h e he)

theorem oneLine_list {ds : List Data} (h : ∀ d ∈ ds, OneLine (literal style d)) :
    OneLine (literal style (.list ds)) := by
  rw [literal_list]
  exact oneLine_wrap hs.array (List.forall_mem_map.2 h)

theorem oneLine_instance {i : Instance} (h : PlainScalars OneLine (instanceScalars i)) :
    OneLine (literal style (instanceData i)) := by
  refine oneLine_fields hs (List.forall_mem_map.2 fun l hl => ?_)
  rw [Leaf.entry, literal_scalar]
  exact hs.value (h (l.type, l.value) (List.mem_map_of_mem hl))

theorem oneLine_value {v : NodeValue} (h : PlainScalars OneLine v.scalars) : OneLine (literal style v.data) := by
  cases v with
  | scalar type text =>
    rw [NodeValue.data, literal_scalar]
    exact hs.value (h (type, text) List.mem_cons_self)
  | array type texts =>
    refine oneLine_list hs (List.forall_mem_map.2 fun text htext => ?_)
    rw [literal_scalar]
    exact hs.value (h (type, text) (List.mem_map_of_mem htext))
  | struct i => exact oneLine_instance hs h
  | structArray is =>
    exact oneLine_list hs (List.forall_mem_map.2 fun i hi => oneLine_instance hs (h.of_mem_flatMap hi))

/-- **A record stays on its line**, whatever its names and texts are. -/
theorem oneLine_record {r : Record} (h : PlainScalars OneLine (recordScalars r)) :
    OneLine (literal style (recordData r)) :=
  oneLine_fields hs (List.forall_mem_map.2 fun _ hn => oneLine_value hs (h.of_mem_record hn))

end Records

/-! ## The lines of tables -/

/-- The lines of records without indentation: a comma stands behind each of them but the last one. -/
def recordTexts (style : Style) (rs : List Record) : List String :=
  rs.mapIdx fun i r => literal style (recordData r) ++ separator (i + 1 < rs.length)

/-- The lines of a table at a level. -/
def tableLines (style : Style) (unit : String) (level : Nat) (separated : Bool) (t : Table) : List String :=
  if t.records.isEmpty then
    [units unit level ++ (style.fieldKey t.name ++ style.collection.empty ++ separator separated)]
  else
    (units unit level ++ (style.fieldKey t.name ++ style.collection.opening)) ::
      (recordTexts style t.records).map (units unit (level + 1) ++ ·) ++
      [units unit level ++ (style.collection.closing ++ separator separated)]

section Tables

variable {style : Style} {unit : String} {level : Nat}

theorem renderRecords_eq {rs : List Record} (h : ∀ r ∈ rs, DistinctFields r) (table : String) (index : Nat) :
    renderRecords style table index rs = .ofSteps ((recordTexts style rs).map .line) := by
  induction rs generalizing index with
  | nil => rfl
  | cons r rs ih =>
    obtain ⟨hr, hrs⟩ := List.forall_mem_cons.1 h
    have hmore : (!rs.isEmpty) = decide (0 + 1 < (r :: rs).length) := by
      cases rs <;> simp
    have hrest : recordTexts style (r :: rs) =
        (literal style (recordData r) ++ separator (0 + 1 < (r :: rs).length)) :: recordTexts style rs := by
      simp [recordTexts, List.mapIdx_cons]
    rw [renderRecords, renderRecord_eq_ok hr, hrest, ih hrs, hmore]
    rfl

theorem pushes_renderTable {t : Table} (h : ∀ r ∈ t.records, DistinctFields r) (separated : Bool) :
    (renderTable style t separated).failure = none ∧
      Pushes unit level (renderTable style t separated).steps (tableLines style unit level separated t) level := by
  rw [renderTable, tableLines]
  split
  · exact ⟨rfl, .line _ (.nil level)⟩
  · rw [renderRecords_eq h]
    have hrecords := (Pushes.texts unit (level + 1) (recordTexts style t.records)).indented
    have hclosing : Pushes unit level [.line (style.collection.closing ++ separator separated)] _ level :=
      .line _ (.nil level)
    refine ⟨rfl, ?_⟩
    have hlines := Pushes.line (style.fieldKey t.name ++ style.collection.opening) (hrecords.append hclosing)
    simpa [Script.andThen, Script.ofSteps] using hlines

/-- The lines of tables at a level, table by table. -/
def blocksOf (style : Style) (unit : String) (level : Nat) (more : Bool) (tables : List Table) : List (List String) :=
  tables.mapIdx fun j t => tableLines style unit level (more || j + 1 < tables.length) t

/-- **Tables push their lines**, and come back to their level. -/
theorem pushes_renderTables {tables : List Table} (h : ∀ t ∈ tables, ∀ r ∈ t.records, DistinctFields r) (more : Bool) :
    (renderTables style more tables).failure = none ∧ Pushes unit level (renderTables style more tables).steps
      (blocksOf style unit level more tables).flatten level := by
  induction tables with
  | nil => exact ⟨rfl, .nil level⟩
  | cons t ts ih =>
    obtain ⟨ht, hts⟩ := List.forall_mem_cons.1 h
    obtain ⟨hfailure, hpushes⟩ := ih hts
    obtain ⟨htable, hlines⟩ := @pushes_renderTable style unit level t ht (more || !ts.isEmpty)
    have hmore : (more || !ts.isEmpty) = (more || decide (0 + 1 < (t :: ts).length)) := by
      cases ts <;> simp
    have hrest : blocksOf style unit level more (t :: ts) =
        tableLines style unit level (more || !ts.isEmpty) t :: blocksOf style unit level more ts := by
      rw [hmore]
      simp [blocksOf, List.mapIdx_cons]
    rw [renderTables, Script.failure_andThen, Script.andThen_steps htable, htable, hrest, List.flatten_cons]
    exact ⟨hfailure, hlines.append hpushes⟩

/-! ## How a table stands on its lines -/

/-- The last character is a comma. -/
def EndsInComma (text : String) : Prop :=
  text.toList.getLast? = some ','

theorem endsInComma_append {text text' : String} (h : text' ≠ "") :
    EndsInComma (text ++ text') ↔ EndsInComma text' := by
  have hne : text'.toList ≠ [] := by simpa using h
  rw [EndsInComma, EndsInComma, String.toList_append, List.getLast?_append_of_ne_nil _ hne]

theorem endsInComma_separator {text : String} (h : ¬ EndsInComma text) (separated : Bool) :
    EndsInComma (text ++ separator separated) ↔ separated = true := by
  cases separated with
  | true => exact iff_of_true ((endsInComma_append (by decide)).2 rfl) rfl
  | false => simpa [separator] using h

theorem not_endsInComma_closing {b : Brackets} (hb : CommonBrackets b) (text : String) :
    ¬ EndsInComma (text ++ b.closing) := by
  have hclosing : b.closing ≠ "" ∧ b.closing.toList.getLast? ≠ some ',' := by
    rcases hb with rfl | rfl <;> decide
  rw [endsInComma_append hclosing.1]
  exact hclosing.2

theorem not_endsInComma_record (hs : KeepsLines style) (text : String) (r : Record) :
    ¬ EndsInComma (text ++ literal style (recordData r)) := by
  rw [recordData, literal_fields, Brackets.wrap]
  split
  · rw [Brackets.empty, ← String.append_assoc]
    exact not_endsInComma_closing hs.object _
  · rw [← String.append_assoc]
    exact not_endsInComma_closing hs.object _

/-- How a table stands on lines at a level. -/
structure StandsOn (style : Style) (unit : String) (level : Nat) (separated : Bool) (t : Table) (lines : List String) :
    Prop where
  /-- Without records everything is on one line. -/
  alone : t.records = [] →
    lines = [units unit level ++ (style.fieldKey t.name ++ style.collection.empty ++ separator separated)]
  length : t.records ≠ [] → lines.length = t.records.length + 2
  first : t.records ≠ [] → lines.head? = some (units unit level ++ (style.fieldKey t.name ++ style.collection.opening))
  /-- Behind the first line each record has its own one, one level deeper, with a comma if another one follows. -/
  record : ∀ i r, t.records[i]? = some r → ∃ text line, renderRecord style t.name i r = .ok text ∧
    lines[i + 1]? = some line ∧ line = units unit (level + 1) ++ (text ++ separator (i + 1 < t.records.length)) ∧
    (EndsInComma line ↔ i + 1 < t.records.length)
  last : t.records ≠ [] → lines.getLast? = some (units unit level ++ (style.collection.closing ++ separator separated))
  /-- The last line ends in a comma if something follows the table. -/
  comma : ∃ line, lines.getLast? = some line ∧ (EndsInComma line ↔ separated = true)

theorem standsOn_tableLines (hs : KeepsLines style) {t : Table} (h : ∀ r ∈ t.records, DistinctFields r)
    (separated : Bool) : StandsOn style unit level separated t (tableLines style unit level separated t) := by
  rw [tableLines]
  split
  · rename_i hempty
    rw [List.isEmpty_iff] at hempty
    refine ⟨fun _ => rfl, absurd hempty, absurd hempty, fun i r hr => ?_, absurd hempty, _, rfl, ?_⟩
    · rw [hempty] at hr
      cases hr
    · rw [Brackets.empty, ← String.append_assoc, ← String.append_assoc, ← String.append_assoc]
      exact endsInComma_separator (not_endsInComma_closing hs.collection _) separated
  · rename_i hempty
    have hne : t.records ≠ [] := by simpa using hempty
    refine ⟨fun hnil => absurd hnil hne, fun _ => by simp [recordTexts], fun _ => rfl, fun i r hr => ?_,
      fun _ => List.getLast?_concat, _, List.getLast?_concat, ?_⟩
    · obtain ⟨hi, rfl⟩ := List.getElem?_eq_some_iff.1 hr
      refine ⟨_, _, renderRecord_eq_ok (h _ (List.getElem_mem hi)), ?_, rfl, ?_⟩
      · simp [recordTexts, hi, List.getElem?_append]
      · rw [← String.append_assoc, endsInComma_separator (not_endsInComma_record hs _ _), decide_eq_true_iff]
    · rw [← String.append_assoc]
      exact endsInComma_separator (not_endsInComma_closing hs.collection _) separated

/-- No line of a table is broken. -/
theorem oneLine_tableLines (hs : KeepsLines style) (hunits : ∀ n, OneLine (units unit n)) {t : Table}
    (h : PlainScalars OneLine t.scalars) (separated : Bool) :
    ∀ line ∈ tableLines style unit level separated t, OneLine line := by
  have hcollection : OneLine style.collection.opening ∧ OneLine style.collection.closing := by
    rcases hs.collection with hb | hb <;> rw [hb] <;> decide
  have hseparator (separated : Bool) : OneLine (separator separated) := by
    cases separated <;> decide
  rw [tableLines]
  split
  · simp only [List.forall_mem_singleton]
    exact (hunits _).append (((hs.fieldKey _).append (hcollection.1.append hcollection.2)).append (hseparator _))
  · simp only [List.forall_mem_cons, List.forall_mem_append, List.cons_append, List.forall_mem_map]
    refine ⟨(hunits _).append ((hs.fieldKey _).append hcollection.1), fun text htext => (hunits _).append ?_,
      (hunits _).append (hcollection.2.append (hseparator _)), List.forall_mem_nil _⟩
    obtain ⟨i, hi, rfl⟩ := List.mem_mapIdx.1 htext
    exact (oneLine_record hs (h.of_mem_flatMap (List.getElem_mem hi))).append (hseparator _)

end Tables

theorem oneLine_units (i : Indent) (n : Nat) : OneLine (units i.unit n) := by
  intro c hc
  by_contra hbreak
  refine notMem_units (fun hunit => ?_) n hc
  rcases isBlankUnit_unit i c hunit with rfl | rfl <;> exact hbreak rfl

/-- **One record to a line.** Where no field is named twice and what is written without quotes stays on its line, tables
are rendered without a failure, at any level and behind any text. The text has exactly the lines that are pushed, and no
other line break. Table by table these are one line for a table without records, and otherwise a line for each record,
one level deeper, between the first and the last one; commas stand behind all records of a table but the last, and
behind a table if another one or something else follows. -/
theorem renderTables_lines {style : Style} (hstyle : style ∈ [lua, json]) {tables : List Table}
    (hdistinct : ∀ t ∈ tables, ∀ r ∈ t.records, DistinctFields r)
    (hplain : ∀ t ∈ tables, PlainScalars OneLine t.scalars) (more : Bool) (i : Indent) {b : Builder}
    (hb : b.unit = i.unit) :
    (renderTables style more tables).failure = none ∧ ∃ (text : String) (blocks : List (List String)),
      b.run (renderTables style more tables).steps = b.add text ∧
      Pushes b.unit b.level (renderTables style more tables).steps blocks.flatten b.level ∧
      linesIn text = blocks.flatten ++ [""] ∧ '\r' ∉ text.toList ∧ blocks.length = tables.length ∧
      ∀ j t, tables[j]? = some t → ∃ lines, blocks[j]? = some lines ∧
        StandsOn style b.unit b.level (more || j + 1 < tables.length) t lines := by
  have hs : KeepsLines style := by
    simp only [List.mem_cons, List.not_mem_nil, or_false] at hstyle
    rcases hstyle with rfl | rfl
    · exact keepsLines_lua
    · exact keepsLines_json
  obtain ⟨hfailure, hpushes⟩ := @pushes_renderTables style b.unit b.level tables hdistinct more
  have hlines : ∀ line ∈ (blocksOf style b.unit b.level more tables).flatten, OneLine line := by
    simp only [List.mem_flatten, blocksOf, List.mem_mapIdx]
    rintro line ⟨_, ⟨j, hj, rfl⟩, hline⟩
    have hunits := oneLine_units i
    rw [← hb] at hunits
    exact oneLine_tableLines hs hunits (hplain _ (List.getElem_mem hj)) _ line hline
  refine ⟨hfailure, ended (blocksOf style b.unit b.level more tables).flatten, _, hpushes.run rfl rfl, hpushes,
    linesIn_ended fun line hline hmem => ?_, notMem_ended (by decide) fun line hline hmem => ?_, List.length_mapIdx,
    fun j t ht => ?_⟩
  · cases hlines line hline '\n' hmem
  · cases hlines line hline '\r' hmem
  · refine ⟨_, by rw [blocksOf, List.getElem?_mapIdx, ht]; rfl, ?_⟩
    exact standsOn_tableLines hs (hdistinct t (List.mem_of_getElem? ht)) _

/-- Two tables with line breaks in their names and texts; the second one has no records. -/
def brokenTables : List Table := [
  { name := "two\nlines",
    records := [
      [⟨"id", .scalar .int32 "1"⟩, ⟨"text", .scalar .string "a\r\nb"⟩],
      [⟨"id", .scalar .int32 "2"⟩, ⟨"at\r", .struct [⟨"kind", .enumeration, "\n"⟩]⟩]] },
  { name := "end" }]

/-- Their lines, in a literal that goes on behind them. -/
theorem renderTables_lines_broken : (∀ t ∈ brokenTables, ∀ r ∈ t.records, DistinctFields r) ∧
    (∀ t ∈ brokenTables, PlainScalars OneLine t.scalars) ∧ ∃ blocks : List (List String),
      Pushes "\t" 1 (renderTables json true brokenTables).steps blocks.flatten 1 ∧
      blocks.flatten = [
        "\t\"two\\nlines\": [",
        "\t\t\x7b \"id\": 1, \"text\": \"a\\r\\nb\" \x7d,",
        "\t\t\x7b \"id\": 2, \"at\\r\": \x7b \"kind\": \"\\n\" \x7d \x7d",
        "\t],",
        "\t\"end\": [],"] := by
  have hdistinct : ∀ t ∈ brokenTables, ∀ r ∈ t.records, DistinctFields r := by
    decide
  have hplain : ∀ t ∈ brokenTables, PlainScalars OneLine t.scalars := by
    unfold PlainScalars
    decide
  obtain ⟨-, text, blocks, hrun, hpushes, hlines, -⟩ :=
    @renderTables_lines json (by simp) brokenTables hdistinct hplain true .tab ⟨"\t", 1, ""⟩ rfl
  refine ⟨hdistinct, hplain, blocks, hpushes, List.append_cancel_right (hlines.symm.trans ?_)⟩
  have htext : text = (Builder.run ⟨"\t", 1, ""⟩ (renderTables json true brokenTables).steps).text := by
    rw [hrun, Builder.add_text, String.empty_append]
  rw [htext]
  decide +kernel

end TableExport.Render
