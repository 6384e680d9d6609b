import TableExport.Model.Table

/-!
# What tables and enums say

Tables, records, instances and enums all say the same kinds of things: scalars, lists, and fields with names. `Data`
says them without regard to any output; outputs are compared with it.

- `Data.fold` goes through data, `Data.induct` proves things about them; both pass over the lists inside.
- `NodeValue.data`, `recordData`, `Table.data` and `enumData` are the data of the parts of a model.
- `Table.scalars` lists the scalars of a table.
-/

namespace TableExport

/-- Data without regard to how they are written. -/
inductive Data where
  /-- A scalar as loaded. -/
  | scalar (type : ScalarType) (text : String)
  /-- Items in order. -/
  | list (items : List Data)
  /-- Named values in order. -/
  | fields (entries : List (String × Data))

namespace Data

section Fold

variable {α : Type} (scalar : ScalarType → String → α) (list : List α → α) (fields : List (String × α) → α)

mutual

/-- What data come to when scalars, lists and fields come to something. -/
def fold : Data → α
  | .scalar type text => scalar type text
  | .list items => list (foldItems items)
  | .fields entries => fields (foldEntries entries)

/-- What the items of a list come to. -/
def foldItems : List Data → List α
  | [] => []
  | d :: ds => fold d :: foldItems ds

/-- What named values come to, under their names. -/
def foldEntries : List (String × Data) → List (String × α)
  | [] => []
  | (name, d) :: es => (name, fold d) :: foldEntries es

end

theorem foldItems_eq_map (ds : List Data) : foldItems scalar list fields ds = ds.map (fold scalar list fields) := by
  induction ds with
  | nil => rfl
  | cons d ds ih => rw [foldItems, ih, List.map_cons]

theorem foldEntries_eq_map (es : List (String × Data)) :
    foldEntries scalar list fields es = es.map fun e => (e.1, fold scalar list fields e.2) := by
  induction es with
  | nil => rfl
  | cons e es ih => rw [foldEntries, ih, List.map_cons]

@[simp] theorem fold_scalar (type : ScalarType) (text : String) :
    fold scalar list fields (.scalar type text) = scalar type text := by
  rw [fold]

@[simp] theorem fold_list (ds : List Data) :
    fold scalar list fields (.list ds) = list (ds.map (fold scalar list fields)) := by
  rw [fold, foldItems_eq_map]

@[simp] theorem fold_fields (es : List (String × Data)) :
    fold scalar list fields (.fields es) = fields (es.map fun e => (e.1, fold scalar list fields e.2)) := by
  rw [fold, foldEntries_eq_map]

end Fold

/-- Proving something of data from the items and the named values inside. -/
theorem induct {P : Data → Prop} (scalar : ∀ type text, P (.scalar type text))
    (list : ∀ ds : List Data, (∀ d ∈ ds, P d) → P (.list ds))
    (fields : ∀ es : List (String × Data), (∀ e ∈ es, P e.2) → P (.fields es)) (d : Data) : P d := by
  refine Data.rec (motive_1 := P) (motive_2 := fun ds => ∀ d ∈ ds, P d) (motive_3 := fun es => ∀ e ∈ es, P e.2)
    (motive_4 := fun e => P e.2) scalar list fields ?_ ?_ ?_ ?_ ?_ d
  · intro d hd
    cases hd
  · intro d ds hd hds x hx
    rcases List.mem_cons.1 hx with rfl | hx
    · exact hd
    · exact hds x hx
  · intro e he
    cases he
  · intro e es he hes x hx
    rcases List.mem_cons.1 hx with rfl | hx
    · exact he
    · exact hes x hx
  · intro name d hd
    exact hd

end Data

/-- The data of a leaf under its name. -/
def Leaf.entry (l : Leaf) : String × Data :=
  (l.name, .scalar l.type l.value)

/-- The data of an instance. -/
def instanceData (i : Instance) : Data :=
  .fields (i.map Leaf.entry)

/-- The data of a value. -/
def NodeValue.data : NodeValue → Data
  | .scalar type text => .scalar type text
  | .array type texts => .list (texts.map (.scalar type))
  | .struct i => instanceData i
  | .structArray is => .list (is.map instanceData)

/-- The data of a node under its name. -/
def Node.entry (n : Node) : String × Data :=
  (n.name, n.value.data)

/-- The data of a record. -/
def recordData (r : Record) : Data :=
  .fields (r.map Node.entry)

/-- The data of a table. -/
def Table.data (t : Table) : Data :=
  .list (t.records.map recordData)

/-- The data of a table under its name. -/
def Table.entry (t : Table) : String × Data :=
  (t.name, t.data)

/-- The data of an enum member under its name. -/
def FieldDescriptor.memberEntry (f : FieldDescriptor) : String × Data :=
  (f.name, .scalar .int32 (toString f.ordinal.toInt))

/-- The data of an enum. -/
def enumData (d : Descriptor) : Data :=
  .fields (d.fields.map FieldDescriptor.memberEntry)

/-- The data of an enum under its name. -/
def Descriptor.enumEntry (d : Descriptor) : String × Data :=
  (d.name, enumData d)

/-! ## Scalars -/

/-- The scalars of an instance, with their types. -/
def instanceScalars (i : Instance) : List (ScalarType × String) :=
  i.map fun l => (l.type, l.value)

/-- The scalars of a value. -/
def NodeValue.scalars : NodeValue → List (ScalarType × String)
  | .scalar type text => [(type, text)]
  | .array type texts => texts.map fun text => (type, text)
  | .struct i => instanceScalars i
  | .structArray is => is.flatMap instanceScalars

/-- The scalars of a record. -/
def recordScalars (r : Record) : List (ScalarType × String) :=
  r.flatMap fun n => n.value.scalars

/-- The scalars of a table. -/
def Table.scalars (t : Table) : List (ScalarType × String) :=
  t.records.flatMap recordScalars

/-- All scalars of the list that are not written between quotes have a text with the property. -/
def PlainScalars (plain : String → Prop) (scalars : List (ScalarType × String)) : Prop :=
  ∀ s ∈ scalars, s.1.isQuoted = false → plain s.2

variable {plain : String → Prop} {α : Type} {f : α → List (ScalarType × String)} {a : α} {as : List α}

theorem PlainScalars.of_mem_flatMap (h : PlainScalars plain (as.flatMap f)) (ha : a ∈ as) : PlainScalars plain (f a) :=
  fun s hs => h s (List.mem_flatMap.2 ⟨a, ha, hs⟩)

theorem PlainScalars.of_flatMap_cons (h : PlainScalars plain ((a :: as).flatMap f)) :
    PlainScalars plain (as.flatMap f) :=
  fun s hs => h s (by rw [List.flatMap_cons]; exact List.mem_append_right _ hs)

theorem PlainScalars.of_mem_record {r : Record} {n : Node} (h : PlainScalars plain (recordScalars r)) (hn : n ∈ r) :
    PlainScalars plain n.value.scalars :=
  fun s hs => h s (List.mem_flatMap.2 ⟨n, hn, hs⟩)

end TableExport
