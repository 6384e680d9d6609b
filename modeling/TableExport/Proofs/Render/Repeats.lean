import TableExport.Proofs.Layout.Written
import TableExport.Proofs.Outcome
import TableExport.Proofs.Render.Distinct
import TableExport.Render.Table

/-!
# The field at which rendering stops

A renderer goes through the fields of tables in their order and stops at the first one whose name was there before in
the same record or instance. The fields of a list of tables are listed here once and for all, each with the names in
front of it, so the field at which a renderer stops is the first repeated one of the list.

- `Place` is a field in that list, `tablePlaces` lists the fields of a table.
- `firstRepeated?` is the first repeated field.
- `failure_renderTables` says that tables are refused for it, and for nothing else.
-/

namespace TableExport.Render

open TableExport.Layout TableExport.Literal

/-- A field of a record, or of an instance in it. -/
structure Place where
  table : String
  /-- The index of the record. -/
  record : Nat
  /-- The field as messages name it. -/
  field : String
  name : String
  /-- The names in front of it in the same record or instance. -/
  front : List String
deriving Repr, DecidableEq

/-- The name is there before. -/
def Place.isRepeated (p : Place) : Bool :=
  p.front.contains p.name

/-- What a renderer reports of the field. -/
def Place.refusal (p : Place) : RenderError :=
  .duplicateField p.table p.record p.field

/-- The instances of a value. -/
def instances : NodeValue → List Instance
  | .scalar .. | .array .. => []
  | .struct i => [i]
  | .structArray is => is

section Places

variable (table : String) (record : Nat)

/-- The fields of an instance under a node. -/
def leafPlaces (node : String) (i : Instance) : List Place :=
  (withFront i).map fun x => ⟨table, record, node ++ "." ++ x.2.name, x.2.name, x.1.map (·.name)⟩

/-- A node behind others, and the fields of its instances. -/
def nodePlaces (x : List Node × Node) : List Place :=
  ⟨table, record, x.2.name, x.2.name, x.1.map (·.name)⟩ ::
    (instances x.2.value).flatMap (leafPlaces table record x.2.name)

/-- The fields of a record, in column order. -/
def recordPlaces (r : Record) : List Place :=
  (withFront r).flatMap (nodePlaces table record)

end Places

/-- The fields of a table, record by record. -/
def tablePlaces (t : Table) : List Place :=
  t.records.zipIdx.flatMap fun x => recordPlaces t.name x.2 x.1

/-- The first field whose name is there before. -/
def firstRepeated? (ps : List Place) : Option Place :=
  ps.find? Place.isRepeated

variable {style : Style}

/-! ## Instances and values -/

theorem errorOf?_leafEntries {leaves : Instance} : ∀ {seen : List String},
    errorOf? (leafEntries style seen leaves) = (firstRepeat? (·.name) seen leaves).map (·.name) := by
  induction leaves with
  | nil => exact fun {seen} => rfl
  | cons l ls ih =>
    intro seen
    rw [leafEntries, firstRepeat?_cons]
    split
    · rfl
    · rw [errorOf?_bind_pure, ih]

theorem errorOf?_renderInstance (i : Instance) :
    errorOf? (renderInstance style i) = (firstRepeat? (·.name) [] i).map (·.name) := by
  rw [renderInstance, errorOf?_bind_pure, errorOf?_leafEntries]

/-- The repeated leaf for which a value is refused. -/
def valueFault? (v : NodeValue) : Option String :=
  (instances v).findSome? fun i => (firstRepeat? (·.name) [] i).map (·.name)

theorem errorOf?_renderValue (v : NodeValue) : errorOf? (renderValue style v) = valueFault? v := by
  cases v with
  | scalar type value => rfl
  | array type values => rfl
  | struct i => rw [renderValue, errorOf?_renderInstance, valueFault?, instances, List.findSome?_singleton]
  | structArray is =>
    rw [renderValue, errorOf?_bind_pure, errorOf?_mapM]
    simp only [errorOf?_renderInstance]
    rfl

/-! ## Records -/

/-- The field for which a node is refused behind others: the node itself, or a leaf of its value. -/
def nodeFault? (taken : List String) (x : List Node × Node) : Option String :=
  if repeats (·.name) taken x then some x.2.name else (valueFault? x.2.value).map (x.2.name ++ "." ++ ·)

theorem nodeFault?_cons (taken : List String) (n : Node) :
    (nodeFault? taken ∘ fun x : List Node × Node => (n :: x.1, x.2)) = nodeFault? (n.name :: taken) := by
  funext x
  simp only [Function.comp_apply, nodeFault?, repeats_cons]

/-- Nodes are refused for the first of them that is. -/
theorem errorOf?_nodeEntries {nodes : Record} : ∀ {seen : List String},
    errorOf? (nodeEntries style seen nodes) = (withFront nodes).findSome? (nodeFault? seen) := by
  induction nodes with
  | nil => exact fun {seen} => rfl
  | cons n ns ih =>
    intro seen
    have hvalue : errorOf? (renderValue style n.value) = valueFault? n.value := errorOf?_renderValue n.value
    rw [withFront_cons, List.findSome?_cons, List.findSome?_map, nodeFault?_cons, ← ih, nodeEntries, nodeFault?,
      repeats_nil, ← hvalue]
    -- the name of a node is compared before its value is rendered, and its value before the other nodes
    cases seen.contains n.name with
    | true => rfl
    | false =>
      cases renderValue style n.value with
      | error leaf => rfl
      | ok value => exact errorOf?_bind_pure ..

section Refusals

variable (table : String) (record : Nat)

theorem refusal_leafPlaces (node : String) (i : Instance) :
    (firstRepeated? (leafPlaces table record node i)).map Place.refusal =
      (firstRepeat? (·.name) [] i).map fun l => .duplicateField table record (node ++ "." ++ l.name) := by
  rw [firstRepeated?, leafPlaces, List.find?_map, firstRepeat?, Option.map_map, Option.map_map]
  rfl

theorem refusal_nodePlaces (x : List Node × Node) :
    (firstRepeated? (nodePlaces table record x)).map Place.refusal =
      (nodeFault? [] x).map (.duplicateField table record) := by
  have hnode : Place.isRepeated ⟨table, record, x.2.name, x.2.name, x.1.map (·.name)⟩ = repeats (·.name) [] x := rfl
  rw [firstRepeated?, nodePlaces, List.find?_cons, hnode, nodeFault?]
  cases repeats (·.name) [] x with
  | true => rfl
  | false =>
    simp only [valueFault?, List.find?_flatMap, List.map_findSome?, Bool.false_eq_true, ↓reduceIte]
    congr 1
    funext i
    have hleaf := refusal_leafPlaces table record x.2.name i
    rw [firstRepeated?] at hleaf
    simp only [Function.comp_apply, hleaf, Option.map_map]
    rfl

theorem refusal_recordPlaces (r : Record) : (firstRepeated? (recordPlaces table record r)).map Place.refusal =
    ((withFront r).findSome? (nodeFault? [])).map (.duplicateField table record) := by
  -- both sides search the nodes in order, so they are compared node by node
  rw [firstRepeated?, recordPlaces, List.find?_flatMap, List.map_findSome?, List.map_findSome?]
  congr 1
  funext x
  exact refusal_nodePlaces table record x

/-- **A record is refused** for the first repeated one of its fields. -/
theorem errorOf?_renderRecord (r : Record) : errorOf? (renderRecord style table record r) =
    (firstRepeated? (recordPlaces table record r)).map Place.refusal := by
  have hnodes : errorOf? (renderRecord style table record r) =
      (errorOf? (nodeEntries style [] r)).map (.duplicateField table record) := by
    rw [renderRecord]
    cases nodeEntries style [] r <;> rfl
  rw [hnodes, errorOf?_nodeEntries, refusal_recordPlaces]

/-! ## Tables -/

theorem failure_renderRecords (rs : List Record) : ∀ index, (renderRecords style table index rs).failure =
    (rs.zipIdx index).findSome? fun x => errorOf? (renderRecord style table x.2 x.1) := by
  induction rs with
  | nil => exact fun _ => rfl
  | cons r rs ih =>
    intro index
    rw [renderRecords, List.zipIdx_cons, List.findSome?_cons]
    cases renderRecord style table index r with
    | error e => rfl
    | ok literal =>
      simp only [Script.failure_andThen, ih]
      rfl

end Refusals

theorem failure_renderTable (t : Table) (separated : Bool) : (renderTable style t separated).failure =
    (firstRepeated? (tablePlaces t)).map Place.refusal := by
  have hrecords : (firstRepeated? (tablePlaces t)).map Place.refusal =
      (renderRecords style t.name 0 t.records).failure := by
    rw [failure_renderRecords, firstRepeated?, tablePlaces, List.find?_flatMap, List.map_findSome?]
    congr 1
    funext x
    exact (errorOf?_renderRecord t.name x.2 x.1).symm
  rw [hrecords, renderTable]
  split
  · rename_i he
    rw [List.isEmpty_iff.1 he]
    rfl
  · rw [Script.failure_andThen, Script.failure_andThen]
    simp

/-- **Tables are refused** for the first repeated one of their fields, and for nothing else. -/
theorem failure_renderTables {more : Bool} (tables : List Table) : (renderTables style more tables).failure =
    (firstRepeated? (tables.flatMap tablePlaces)).map Place.refusal := by
  induction tables with
  | nil => rfl
  | cons t ts ih =>
    rw [renderTables, Script.failure_andThen, failure_renderTable, ih, List.flatMap_cons, firstRepeated?,
      firstRepeated?, firstRepeated?, List.find?_append, Option.map_or]

end TableExport.Render
