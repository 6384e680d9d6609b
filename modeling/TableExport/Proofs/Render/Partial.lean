import TableExport.Literal.Plain
import TableExport.Printer.Samples
import TableExport.Proofs.Render.Keys

/-!
# What a failed rendering leaves behind

Tables are rendered up to the first record that names a field twice. The lines that are written by then are those of the
tables in front, the opening line of the table, and those of the records in front; nothing of the record itself is among
them, and what comes behind it does not matter.

- `DistinctFields` is a record that names no field twice, `FirstRepetition` the field at which another one stops.
- `renderRecord_eq_ok` and `renderRecord_eq_error` are about records.
- `Cut` is a list of tables that is cut at a record, `Cut.front` the lines in front of that, `renderTables_cut` what is
  rendered.
- `renderTables_stops` says where a rendering stops, and what has been written by then.
-/

namespace TableExport.Render

open TableExport.Layout TableExport.Literal

/-! ## Records -/

/-- No two nodes of the record have the same name, and no two leaves of an instance in it. -/
def DistinctFields (r : Record) : Prop :=
  (r.map (·.name)).Nodup ∧ ∀ n ∈ r, ∀ i ∈ instances n.value, (i.map (·.name)).Nodup

instance (r : Record) : Decidable (DistinctFields r) :=
  inferInstanceAs (Decidable ((r.map (·.name)).Nodup ∧ ∀ n ∈ r, ∀ i ∈ instances n.value, (i.map (·.name)).Nodup))

/-- The first field of a record that has a name for the second time, in column order; the leaves of a node come behind
it, instance by instance. -/
inductive FirstRepetition (r : Record) : String → Prop
  | node {columns rest : Record} {n : Node} : r = columns ++ n :: rest → DistinctFields columns →
      n.name ∈ columns.map (·.name) → FirstRepetition r n.name
  | leaf {columns rest : Record} {n : Node} {is is' : List Instance} {ls ls' : Instance} {l : Leaf} :
      r = columns ++ n :: rest → DistinctFields columns → n.name ∉ columns.map (·.name) →
      instances n.value = is ++ (ls ++ l :: ls') :: is' → (∀ i ∈ is, (i.map (·.name)).Nodup) →
      (ls.map (·.name)).Nodup → l.name ∈ ls.map (·.name) → FirstRepetition r (n.name ++ "." ++ l.name)

theorem distinctFields_iff {r : Record} : DistinctFields r ↔ (recordData r).DistinctKeys := by
  rw [distinctKeys_record, DistinctFields]
  simp only [distinctKeys_value]

theorem distinctFields_table {t : Table} : t.data.DistinctKeys ↔ ∀ r ∈ t.records, DistinctFields r := by
  simp only [Table.data, Data.distinctKeys_list, List.forall_mem_map, distinctFields_iff]

section Records

variable {style : Style} {table field : String} {index : Nat} {r : Record}

theorem valueFault?_eq_some {v : NodeValue} {leaf : String} : valueFault? v = some leaf ↔
    ∃ is ls l ls' is', instances v = is ++ (ls ++ l :: ls') :: is' ∧ (∀ i ∈ is, (i.map (·.name)).Nodup) ∧
      (ls.map (·.name)).Nodup ∧ l.name ∈ ls.map (·.name) ∧ l.name = leaf := by
  simp only [valueFault?, List.findSome?_eq_some_iff, Option.map_eq_some_iff, Option.map_eq_none_iff,
    firstRepeat?_eq_some, firstRepeat?_eq_none, distinct_iff_nodup, List.nil_append]
  constructor
  · rintro ⟨is, i, is', hv, ⟨l, ⟨ls, ls', rfl, hl, hls⟩, rfl⟩, his⟩
    exact ⟨is, ls, l, ls', is', hv, his, hls, hl, rfl⟩
  · rintro ⟨is, ls, l, ls', is', hv, his, hls, hl, rfl⟩
    exact ⟨is, _, is', hv, ⟨l, ⟨ls, ls', rfl, hl, hls⟩, rfl⟩, his⟩

/-- No node is refused if and only if no name is there twice. -/
theorem findSome?_nodeFault?_eq_none : (withFront r).findSome? (nodeFault? []) = none ↔ DistinctFields r := by
  have hplaces : (firstRepeated? (recordPlaces "" 0 r)).map Place.refusal = none ↔
      ((withFront r).findSome? (nodeFault? [])).map (RenderError.duplicateField "" 0) = none := by
    rw [refusal_recordPlaces]
  rw [Option.map_eq_none_iff, Option.map_eq_none_iff, firstRepeated?_recordPlaces, ← distinctFields_iff] at hplaces
  exact hplaces.symm

/-- The first node that is refused has the first repetition. -/
theorem findSome?_nodeFault?_eq_some :
    (withFront r).findSome? (nodeFault? []) = some field ↔ FirstRepetition r field := by
  rw [findSome?_withFront_eq_some]
  simp only [findSome?_nodeFault?_eq_none, nodeFault?, repeats, List.nil_append, List.contains_iff_mem]
  constructor
  · rintro ⟨columns, n, rest, hr, hfield, hcolumns⟩
    by_cases hn : n.name ∈ columns.map (·.name)
    · rw [if_pos hn] at hfield
      cases hfield
      exact .node hr hcolumns hn
    · rw [if_neg hn, Option.map_eq_some_iff] at hfield
      obtain ⟨leaf, hleaf, rfl⟩ := hfield
      obtain ⟨is, ls, l, ls', is', hv, his, hls, hl, rfl⟩ := valueFault?_eq_some.1 hleaf
      exact .leaf hr hcolumns hn hv his hls hl
  · intro h
    cases h with
    | @node columns rest n hr hcolumns hn => exact ⟨columns, n, rest, hr, if_pos hn, hcolumns⟩
    | @leaf columns rest n is is' ls ls' l hr hcolumns hn hv his hls hl =>
      have hleaf : valueFault? n.value = some l.name :=
        valueFault?_eq_some.2 ⟨is, ls, l, ls', is', hv, his, hls, hl, rfl⟩
      refine ⟨columns, n, rest, hr, ?_, hcolumns⟩
      rw [if_neg hn, hleaf]
      rfl

/-- There is a first repetition if and only if some name is there twice. -/
theorem exists_firstRepetition : (∃ field, FirstRepetition r field) ↔ ¬ DistinctFields r := by
  simp only [← findSome?_nodeFault?_eq_none, ← findSome?_nodeFault?_eq_some, Option.eq_none_iff_forall_ne_some, ne_eq,
    not_forall, not_not]

/-- **A record is refused** for the first repetition. -/
theorem renderRecord_eq_error {e : RenderError} : renderRecord style table index r = .error e ↔
    ∃ field, FirstRepetition r field ∧ e = .duplicateField table index field := by
  simp only [← findSome?_nodeFault?_eq_some, ← @errorOf?_nodeEntries style, renderRecord]
  cases nodeEntries style [] r with
  | ok entries => simp
  | error field => simp [eq_comm]

/-! ## The text of a record -/

/-- The literal of data in a style. -/
def literal (style : Style) : Data → String :=
  Data.fold style.value style.array.wrap fun es => style.object.wrap (es.map fun e => entry style e.1 e.2)

@[simp] theorem literal_scalar (type : ScalarType) (text : String) :
    literal style (.scalar type text) = style.value type text := by
  rw [literal, Data.fold_scalar]

theorem literal_list (ds : List Data) : literal style (.list ds) = style.array.wrap (ds.map (literal style)) := by
  rw [literal, Data.fold_list]

theorem literal_fields (es : List (String × Data)) : literal style (.fields es) =
    style.object.wrap (es.map fun e => entry style e.1 (literal style e.2)) := by
  rw [literal, Data.fold_fields, List.map_map]
  rfl

theorem leafEntries_eq_ok {leaves : Instance} {seen : List String} (h : Distinct seen (leaves.map (·.name))) :
    leafEntries style seen leaves = .ok (leaves.map fun l => entry style l.name (style.value l.type l.value)) := by
  induction leaves generalizing seen with
  | nil => rfl
  | cons l ls ih =>
    obtain ⟨hl, hls⟩ := distinct_cons.1 h
    rw [leafEntries, if_neg (by simpa using hl), ih hls]
    rfl

theorem renderInstance_eq_ok {i : Instance} (h : (i.map (·.name)).Nodup) :
    renderInstance style i = .ok (literal style (instanceData i)) := by
  rw [renderInstance, leafEntries_eq_ok (distinct_iff_nodup.2 h), instanceData, literal_fields, List.map_map]
  simp only [Function.comp_def, Leaf.entry, literal_scalar]
  rfl

theorem renderValue_eq_ok {v : NodeValue} (h : ∀ i ∈ instances v, (i.map (·.name)).Nodup) :
    renderValue style v = .ok (literal style v.data) := by
  cases v with
  | scalar type text => rw [renderValue, NodeValue.data, literal_scalar]
  | array type texts =>
    rw [renderValue, NodeValue.data, literal_list, List.map_map]
    simp only [Function.comp_def, literal_scalar]
  | struct i => exact renderInstance_eq_ok (h i List.mem_cons_self)
  | structArray is =>
    have hinstances : is.mapM (renderInstance style) = .ok (is.map fun i => literal style (instanceData i)) := by
      rw [mapM_eq_ok, List.forall₂_map_right_iff, List.forall₂_same]
      intro i hi
      exact renderInstance_eq_ok (h i hi)
    rw [renderValue, hinstances, NodeValue.data, literal_list, List.map_map]
    rfl

theorem nodeEntries_eq_ok {nodes : Record} {seen : List String} (h : Distinct seen (nodes.map (·.name)))
    (hvalues : ∀ n ∈ nodes, ∀ i ∈ instances n.value, (i.map (·.name)).Nodup) :
    nodeEntries style seen nodes = .ok (nodes.map fun n => entry style n.name (literal style n.value.data)) := by
  induction nodes generalizing seen with
  | nil => rfl
  | cons n ns ih =>
    obtain ⟨hn, hns⟩ := distinct_cons.1 h
    obtain ⟨hvalue, hvalues⟩ := List.forall_mem_cons.1 hvalues
    rw [nodeEntries, if_neg (by simpa using hn), renderValue_eq_ok hvalue, ih hns hvalues]
    rfl

/-- **A record** that names no field twice is written as the literal of its data. -/
theorem renderRecord_eq_ok (h : DistinctFields r) :
    renderRecord style table index r = .ok (literal style (recordData r)) := by
  rw [renderRecord, nodeEntries_eq_ok (distinct_iff_nodup.2 h.1) h.2, recordData, literal_fields, List.map_map]
  rfl

end Records

/-! ## Tables -/

/-- Tables with a record in them, in front of which no field is named twice. -/
structure Cut where
  /-- The tables in front of the one with the record. -/
  before : List Table
  /-- The name of the table with the record. -/
  name : String
  tags : OutputTags := []
  /-- The records in front. -/
  earlier : List Record
  record : Record
  later : List Record
  after : List Table
  before_distinct : ∀ t ∈ before, ∀ r ∈ t.records, DistinctFields r
  earlier_distinct : ∀ r ∈ earlier, DistinctFields r

namespace Cut

/-- The table with the record. -/
def table (c : Cut) : Table :=
  ⟨c.name, c.tags, c.earlier ++ c.record :: c.later⟩

/-- All tables. -/
def tables (c : Cut) : List Table :=
  c.before ++ c.table :: c.after

/-- The tables with another record in its place, and with others behind it. -/
def replace (c : Cut) (record : Record) (later : List Record) (after : List Table) : Cut :=
  { c with record, later, after }

/-- What a renderer reports if a field of the record is refused. -/
def refusal (c : Cut) (field : String) : RenderError :=
  .duplicateField c.name c.earlier.length field

/-- The lines in front of the record: the tables with a comma behind each, the opening line of the table, and the
records with a comma behind each. -/
def front (style : Style) (c : Cut) : List Step :=
  (c.before.flatMap fun t => (renderTable style t true).steps) ++
    .line (style.fieldKey c.name ++ style.collection.opening) :: .indent ::
      c.earlier.map fun r => .line (literal style (recordData r) ++ ",")

/-- What is rendered from the record on. -/
def rest (style : Style) (more : Bool) (c : Cut) : Script RenderError :=
  ((renderRecords style c.name c.earlier.length (c.record :: c.later)).andThen
    (.ofSteps [.dedent, .line (style.collection.closing ++ separator (more || !c.after.isEmpty))])).andThen
      (renderTables style more c.after)

end Cut

variable {style : Style} {more : Bool}

/-- **Tables fail** if and only if a record of them names a field twice. -/
theorem failure_renderTables_eq_none {tables : List Table} :
    (renderTables style more tables).failure = none ↔ ∀ t ∈ tables, ∀ r ∈ t.records, DistinctFields r := by
  rw [failure_renderTables, Option.map_eq_none_iff, firstRepeated?_eq_none]
  simp only [distinctFields_table]

theorem renderRecords_append {earlier rest : List Record} (h : ∀ r ∈ earlier, DistinctFields r) (hrest : rest ≠ [])
    (table : String) (index : Nat) : renderRecords style table index (earlier ++ rest) =
      (Script.ofSteps (earlier.map fun r => .line (literal style (recordData r) ++ ","))).andThen
        (renderRecords style table (index + earlier.length) rest) := by
  induction earlier generalizing index with
  | nil => rfl
  | cons r rs ih =>
    obtain ⟨hr, hrs⟩ := List.forall_mem_cons.1 h
    have hmore : (rs ++ rest).isEmpty = false := by simp [hrest]
    have hindex : index + (r :: rs).length = index + 1 + rs.length := by
      rw [List.length_cons]
      omega
    rw [List.cons_append, renderRecords, renderRecord_eq_ok hr, hmore, ih hrs, hindex]
    rfl

theorem renderTables_append {before rest : List Table} (h : ∀ t ∈ before, ∀ r ∈ t.records, DistinctFields r)
    (hrest : rest ≠ []) : renderTables style more (before ++ rest) =
      (Script.ofSteps (before.flatMap fun t => (renderTable style t true).steps)).andThen
        (renderTables style more rest) := by
  induction before with
  | nil => rfl
  | cons t ts ih =>
    obtain ⟨ht, hts⟩ := List.forall_mem_cons.1 h
    have hmore : (more || !(ts ++ rest).isEmpty) = true := by simp [hrest]
    have htable : (renderTable style t true).failure = none := by
      rwa [failure_renderTable, Option.map_eq_none_iff, firstRepeated?_tablePlaces, distinctFields_table]
    rw [List.cons_append, renderTables, hmore, ih hts, ← Script.andThen_assoc]
    conv_lhs => rw [Script.eq_ofSteps htable]
    rfl

/-- **Tables are rendered** up to the record, and from the record on. -/
theorem renderTables_cut (c : Cut) :
    renderTables style more c.tables = (Script.ofSteps (c.front style)).andThen (c.rest style more) := by
  have htable (separated : Bool) : renderTable style c.table separated =
      (Script.ofSteps (.line (style.fieldKey c.name ++ style.collection.opening) :: .indent ::
        c.earlier.map fun r => .line (literal style (recordData r) ++ ","))).andThen
      ((renderRecords style c.name c.earlier.length (c.record :: c.later)).andThen
        (.ofSteps [.dedent, .line (style.collection.closing ++ separator separated)])) := by
    rw [renderTable, Cut.table, if_neg (by simp), renderRecords_append c.earlier_distinct (List.cons_ne_nil _ _),
      Nat.zero_add, Script.andThen_assoc, ← Script.andThen_assoc]
    rfl
  rw [Cut.tables, renderTables_append c.before_distinct (List.cons_ne_nil _ _), renderTables, htable,
    Script.andThen_assoc, ← Script.andThen_assoc]
  rfl

/-- A record that is refused ends the rendering. -/
theorem renderTables_refused {c : Cut} {field : String} (h : FirstRepetition c.record field) :
    renderTables style more c.tables = ⟨c.front style, some (c.refusal field)⟩ := by
  have hrecord : renderRecord style c.name c.earlier.length c.record = .error (c.refusal field) :=
    renderRecord_eq_error.2 ⟨field, h, rfl⟩
  have hrest : c.rest style more = .fail (c.refusal field) := by
    rw [Cut.rest, renderRecords, hrecord]
    rfl
  rw [renderTables_cut, hrest]
  simp [Script.andThen, Script.ofSteps, Script.fail]

theorem exists_first {α : Type} {p : α → Prop} {as : List α} (h : ¬ ∀ a ∈ as, p a) :
    ∃ front a back, as = front ++ a :: back ∧ (∀ b ∈ front, p b) ∧ ¬ p a := by
  induction as with
  | nil => simp at h
  | cons a as ih =>
    by_cases ha : p a
    · have hrest : ¬ ∀ b ∈ as, p b := fun has => h (List.forall_mem_cons.2 ⟨ha, has⟩)
      obtain ⟨front, b, back, rfl, hfront, hb⟩ := ih hrest
      exact ⟨a :: front, b, back, rfl, List.forall_mem_cons.2 ⟨ha, hfront⟩, hb⟩
    · exact ⟨[], a, as, rfl, by simp, ha⟩

/-- Tables can be cut at the first record that names a field twice. -/
theorem exists_cut {tables : List Table} (h : ¬ ∀ t ∈ tables, ∀ r ∈ t.records, DistinctFields r) :
    ∃ c : Cut, c.tables = tables ∧ ∃ field, FirstRepetition c.record field := by
  obtain ⟨before, ⟨name, tags, records⟩, after, rfl, hbefore, htable⟩ := exists_first h
  obtain ⟨earlier, r, later, rfl, hearlier, hr⟩ := exists_first htable
  exact ⟨⟨before, name, tags, earlier, r, later, after, hbefore, hearlier⟩, rfl, exists_firstRepetition.2 hr⟩

/-- **A rendering stops** at the first field that is named twice in a record or in an instance, and only there. By then
the tables in front are written with a comma behind each, the opening line of the table, and the records in front with a
comma behind each. That is the beginning of what is written if the record and what comes behind it are replaced by
something that names no field twice. -/
theorem renderTables_stops (style : Style) (more : Bool) :
    (∀ tables, (∃ e, (renderTables style more tables).failure = some e) ↔
      ∃ t ∈ tables, ∃ r ∈ t.records, ¬ DistinctFields r) ∧
    (∀ tables e, (renderTables style more tables).failure = some e ↔
      ∃ (c : Cut) (field : String), c.tables = tables ∧ FirstRepetition c.record field ∧ c.refusal field = e) ∧
    ∀ (c : Cut) (field : String), FirstRepetition c.record field →
      (renderTables style more c.tables).steps = c.front style ∧
      ∀ r later after, DistinctFields r → (∀ r ∈ later, DistinctFields r) →
        (∀ t ∈ after, ∀ r ∈ t.records, DistinctFields r) →
        (renderTables style more (c.replace r later after).tables).failure = none ∧
        ∀ b : Builder, ∃ s, (b.run (renderTables style more (c.replace r later after).tables).steps).text =
          (b.run (renderTables style more c.tables).steps).text ++ s := by
  refine ⟨fun tables => ?_, fun tables e => ?_, fun c field h => ⟨?_, fun r later after hr hlater hafter => ⟨?_, ?_⟩⟩⟩
  · rw [← Option.isSome_iff_exists, Option.isSome_iff_ne_none, ne_eq, failure_renderTables_eq_none]
    simp only [not_forall, exists_prop]
  · constructor
    · intro h
      have hnone : ¬ ∀ t ∈ tables, ∀ r ∈ t.records, DistinctFields r := by
        rw [← @failure_renderTables_eq_none style more, h]
        exact Option.some_ne_none e
      obtain ⟨c, rfl, field, hfield⟩ := exists_cut hnone
      rw [renderTables_refused hfield] at h
      exact ⟨c, field, rfl, hfield, Option.some.inj h⟩
    · rintro ⟨c, field, rfl, hfield, rfl⟩
      rw [renderTables_refused hfield]
  · rw [renderTables_refused h]
  · have htable : ∀ q ∈ c.earlier ++ r :: later, DistinctFields q :=
      List.forall_mem_append.2 ⟨c.earlier_distinct, List.forall_mem_cons.2 ⟨hr, hlater⟩⟩
    rw [failure_renderTables_eq_none]
    exact List.forall_mem_append.2 ⟨c.before_distinct, List.forall_mem_cons.2 ⟨htable, hafter⟩⟩
  · intro b
    -- both renderings begin with the lines in front of the record
    have hfront : (c.replace r later after).front style = c.front style := rfl
    rw [renderTables_refused h, renderTables_cut, hfront, Script.andThen_steps rfl, Script.ofSteps_steps,
      Builder.run_append]
    exact Builder.exists_text_run _ _

/-- A table whose second record has a skill with two numbers, behind a table without records. -/
def brokenCut : Cut where
  before := [{ name := "Empty" }]
  name := "Item"
  earlier := [Samples.itemRecord "1" "Sword"]
  record := [⟨"skills", .structArray [[⟨"id", .int32, "7"⟩], [⟨"id", .int32, "8"⟩, ⟨"id", .int32, "9"⟩]]⟩]
  later := [[]]
  after := []
  before_distinct := by decide
  earlier_distinct := by decide

/-- The text ends in front of that record. -/
theorem renderTables_brokenCut : FirstRepetition brokenCut.record "skills.id" ∧
    (renderTables Literal.plain false brokenCut.tables).failure = some (.duplicateField "Item" 1 "skills.id") ∧
    (renderTables Literal.plain false brokenCut.tables).text .tab =
      "Empty = \x7b\x7d,\nItem = \x7b\n\t\x7b id = 1, name = \"Sword\" \x7d,\n" ∧
    ∃ s, (renderTables Literal.plain false (brokenCut.replace [] [[]] []).tables).text .tab =
      "Empty = \x7b\x7d,\nItem = \x7b\n\t\x7b id = 1, name = \"Sword\" \x7d,\n" ++ s := by
  have hrecord : FirstRepetition brokenCut.record "skills.id" :=
    @FirstRepetition.leaf _ [] [] _ [[⟨"id", .int32, "7"⟩]] [] [⟨"id", .int32, "8"⟩] [] ⟨"id", .int32, "9"⟩ rfl
      (by decide) (by decide) rfl (by decide) (by decide) (by decide)
  obtain ⟨-, hfailure, hcut⟩ := renderTables_stops Literal.plain false
  obtain ⟨hsteps, hreplace⟩ := hcut brokenCut "skills.id" hrecord
  have htext : (renderTables Literal.plain false brokenCut.tables).text .tab =
      "Empty = \x7b\x7d,\nItem = \x7b\n\t\x7b id = 1, name = \"Sword\" \x7d,\n" := by
    rw [Script.text, hsteps]
    rfl
  refine ⟨hrecord, (hfailure _ _).2 ⟨brokenCut, "skills.id", rfl, hrecord, rfl⟩, htext, ?_⟩
  rw [← htext]
  exact (hreplace [] [[]] [] (by decide) (by decide) (by decide)).2 (Builder.new .tab)

end TableExport.Render
