import TableExport.Document.Load
import TableExport.Proofs.Json.Reading
import TableExport.Proofs.Json.Written

/-!
# The document of a model

A model is written as a document: every part with all of its fields, and every node in the uniform shape, with value
nodes below scalars and instances below structs.

- `Model.wire` are the data of the document, `Model.document` its text.
- `Node.toDocument` is the node of a document that stands for a node of a record.
- `reads_modelDocument` says that the readers find the parts of a model in the data of its document; there is one lemma
  for every kind of record.
-/

namespace TableExport

open Json

/-! ## Data of the parts -/

/-- The data of a field descriptor. -/
def FieldDescriptor.wire (f : FieldDescriptor) : Data :=
  .fields ([("name", textData f.name), ("type", textData f.type.name), ("repeated", flagData f.repeated),
    ("enum_value", intData f.ordinal.toInt)] ++ f.link.toList.map fun link => ("complex", textData link))

/-- The data of a descriptor. -/
def Descriptor.wire (d : Descriptor) : Data :=
  .fields [("name", textData d.name), ("kind", textData d.kind.name), ("usage", textData d.usage.name),
    ("fields", .list (d.fields.map FieldDescriptor.wire)), ("indexes", .list (d.indexes.map textData)),
    ("tags", .list (d.tags.map textData))]

/-- The data of a value node. -/
def valueWire (text : String) : Data :=
  .fields [("value", textData text)]

/-- The data of a field node with that type, repeated mark and children. -/
def fieldWire (name : String) (type : FieldType) (repeated : Bool) (child : List Data) : Data :=
  .fields [("name", textData name), ("type", textData type.name), ("repeated", flagData repeated),
    ("child", .list child)]

/-- The data of a leaf: a field that is not repeated, with one value. -/
def Leaf.wire (l : Leaf) : Data :=
  fieldWire l.name (.scalar l.type) false [valueWire l.value]

/-- The data of an instance. -/
def instanceWire (i : Instance) : Data :=
  .fields [("child", .list (i.map Leaf.wire))]

/-- The data of a node: a field that is repeated if the value is an array, with one child for each scalar or
instance. -/
def Node.wire (n : Node) : Data :=
  match n.value with
  | .scalar type value => fieldWire n.name (.scalar type) false [valueWire value]
  | .array type values => fieldWire n.name (.scalar type) true (values.map valueWire)
  | .struct i => fieldWire n.name .struct false [instanceWire i]
  | .structArray is => fieldWire n.name .struct true (is.map instanceWire)

/-- The data of a table. -/
def Table.wire (t : Table) : Data :=
  .fields [("name", textData t.name), ("tags", .list (t.tags.map textData)),
    ("records", .list (t.records.map fun r => .list (r.map Node.wire)))]

/-- The data of the document of a model. -/
def Model.wire (m : Model) : Data :=
  .fields [("descriptors", .list (m.descriptors.map Descriptor.wire)), ("tables", .list (m.tables.map Table.wire))]

/-- The document of a model. -/
def Model.document (m : Model) : String :=
  write m.wire

/-! ## Nodes of the document -/

/-- The field node of a leaf. -/
def Leaf.toDocument (l : Leaf) : DocumentNode :=
  .scalar l.name l.type l.value

/-- The node of an instance. -/
def instanceNode (i : Instance) : DocumentNode :=
  { child := i.map Leaf.toDocument }

/-- The field node of a node. -/
def Node.toDocument (n : Node) : DocumentNode :=
  match n.value with
  | .scalar type value => .scalar n.name type value
  | .array type values => { DocumentNode.field n.name (.scalar type) with
      repeated := true, child := values.map .ofValue }
  | .struct i => (DocumentNode.field n.name .struct).addChild (instanceNode i)
  | .structArray is => { DocumentNode.field n.name .struct with repeated := true, child := is.map instanceNode }

/-- A table with the field nodes of its nodes. -/
def Table.toDocument (t : Table) : Document.TableDocument :=
  ⟨t.name, t.tags, t.records.map (·.map Node.toDocument)⟩

/-- The parts of the document of a model. -/
def Model.toDocument (m : Model) : Document.ModelDocument :=
  ⟨m.descriptors, m.tables.map Table.toDocument⟩

namespace Document

/-! ## Reading descriptors -/

section Slots

variable {σ α : Type} {fields : List (RecordField σ)} {name : String} {optional : Bool} {get : σ → Option α}
  {set : σ → α → σ} {read : Reader α} {d : Data} {es : List (String × Data)} {state final : σ} {a : α}

/-- A member that fills a slot, in front of others. -/
theorem readsMembers_slot (hfield : fields.find? (·.name = name) = some (slot name optional get set read))
    (hget : get state = none) (hread : Reads read d a) (hrest : ReadsMembers fields es (set state a) final) :
    ReadsMembers fields ((name, d) :: es) state final :=
  .cons hfield (by simp [slot, hget]) (hread.map (set state)) hrest

end Slots

/-- Items with data of their own are read one by one. -/
theorem reads_map {α β : Type} {read : Reader β} {data : α → Data} {f : α → β} (as : List α)
    (h : ∀ a ∈ as, Reads read (data a) (f a)) : Reads (readSequence (some read)) (.list (as.map data)) (as.map f) := by
  refine reads_sequence ?_
  rw [List.forall₂_map_left_iff, List.forall₂_map_right_iff, List.forall₂_same]
  exact h

theorem reads_strings (depth : Nat) (texts : List String) :
    Reads (readStrings (depth + 1)) (.list (texts.map textData)) texts := by
  have h := reads_map texts fun text _ => reads_string text
  rwa [List.map_id'] at h

theorem reads_fieldType (depth : Nat) (type : FieldType) : Reads (readFieldType depth) (textData type.name) type :=
  reads_alternative type.ofName?_name depth

theorem reads_kind (depth : Nat) (kind : DescriptorKind) :
    Reads (readVariant DescriptorKind.all DescriptorKind.name depth) (textData kind.name) kind :=
  reads_variant (by cases kind <;> rfl) depth

theorem reads_usage (depth : Nat) (usage : DescriptorUsage) :
    Reads (readVariant DescriptorUsage.all DescriptorUsage.name depth) (textData usage.name) usage :=
  reads_variant (by cases usage <;> rfl) depth

/-- **A field descriptor** is read from its data. -/
theorem reads_fieldDescriptor (depth : Nat) (f : FieldDescriptor) :
    Reads (readFieldDescriptor (depth + 1)) f.wire f := by
  obtain ⟨name, type, repeated, ordinal, link⟩ := f
  have hrecord : Reads (readRecord "FieldDescriptor" (some (fieldDescriptorShape depth)))
      (FieldDescriptor.wire ⟨name, type, repeated, ordinal, link⟩)
      ⟨some name, some type, some repeated, some ordinal, link.map some⟩ := by
    refine reads_record ?_ rfl
    refine readsMembers_slot rfl rfl (reads_string name) ?_
    refine readsMembers_slot rfl rfl (reads_fieldType depth type) ?_
    refine readsMembers_slot rfl rfl (reads_boolean repeated) ?_
    refine readsMembers_slot rfl rfl (reads_int32 ordinal) ?_
    -- The link is left out if there is none.
    cases link with
    | none => exact .nil _
    | some link => exact readsMembers_slot rfl rfl (reads_nullable (reads_string link)) (.nil _)
  have hread := hrecord.map FieldDescriptorPart.finish
  cases link <;> exact hread

/-- **A descriptor** is read from its data. -/
theorem reads_descriptor (depth : Nat) (d : Descriptor) : Reads (readDescriptor (depth + 3)) d.wire d := by
  have hfields : Reads (readListOf readFieldDescriptor (depth + 2)) (.list (d.fields.map FieldDescriptor.wire))
      d.fields := by
    have h := reads_map d.fields fun f _ => reads_fieldDescriptor depth f
    rwa [List.map_id'] at h
  have hrecord : Reads (readRecord "Descriptor" (some (descriptorShape (depth + 2)))) d.wire
      ⟨some d.name, some d.kind, some d.usage, some d.fields, some d.indexes, some d.tags⟩ := by
    refine reads_record ?_ rfl
    refine readsMembers_slot rfl rfl (reads_string d.name) ?_
    refine readsMembers_slot rfl rfl (reads_kind _ d.kind) ?_
    refine readsMembers_slot rfl rfl (reads_usage _ d.usage) ?_
    refine readsMembers_slot rfl rfl hfields ?_
    refine readsMembers_slot rfl rfl (reads_strings _ d.indexes) ?_
    exact readsMembers_slot rfl rfl (reads_strings _ d.tags) (.nil _)
  exact hrecord.map DescriptorPart.finish

/-! ## Reading nodes -/

/-- Where a container may be opened, a node is read, with some reader of its children. -/
theorem readDocumentNode_succ (depth : Nat) :
    ∃ child, readDocumentNode (depth + 1) = readNodeOf (some (nodeShape depth child)) := by
  cases depth with
  | zero => exact ⟨_, rfl⟩
  | succ depth => exact ⟨_, rfl⟩

/-- A value node is read from its data. -/
theorem reads_valueNode (depth : Nat) (text : String) :
    Reads (readDocumentNode (depth + 1)) (valueWire text) (.ofValue text) := by
  obtain ⟨child, hchild⟩ := readDocumentNode_succ depth
  have hrecord : Reads (readRecord "RawNode" (some (nodeShape depth child))) (valueWire text)
      ⟨none, none, none, some text, none⟩ := by
    refine reads_record ?_ rfl
    exact readsMembers_slot rfl rfl (reads_string text) (.nil _)
  rw [hchild]
  exact hrecord.map NodePart.finish

section Containers

variable {α : Type} {depth : Nat} {data : α → Data} {node : α → DocumentNode}

/-- A field node is read from its data if its children are. -/
theorem reads_fieldNode (name : String) (type : FieldType) (repeated : Bool)
    (h : ∀ a, Reads (readDocumentNode depth) (data a) (node a)) (as : List α) :
    Reads (readDocumentNode (depth + 2)) (fieldWire name type repeated (as.map data))
      { DocumentNode.field name type with repeated, child := as.map node } := by
  have hrecord : Reads (readRecord "RawNode" (some (nodeShape (depth + 1) (some (readDocumentNode depth)))))
      (fieldWire name type repeated (as.map data))
      ⟨some name, some (some type), some repeated, none, some (as.map node)⟩ := by
    refine reads_record ?_ rfl
    refine readsMembers_slot rfl rfl (reads_string name) ?_
    refine readsMembers_slot rfl rfl (reads_nullable (reads_fieldType _ type)) ?_
    refine readsMembers_slot rfl rfl (reads_boolean repeated) ?_
    exact readsMembers_slot rfl rfl (reads_map as fun a _ => h a) (.nil _)
  exact hrecord.map NodePart.finish

/-- A node that has children only is read from its data if its children are. -/
theorem reads_childNode (h : ∀ a, Reads (readDocumentNode depth) (data a) (node a)) (as : List α) :
    Reads (readDocumentNode (depth + 2)) (.fields [("child", .list (as.map data))])
      { child := as.map node : DocumentNode } := by
  have hrecord : Reads (readRecord "RawNode" (some (nodeShape (depth + 1) (some (readDocumentNode depth)))))
      (.fields [("child", .list (as.map data))]) ⟨none, none, none, none, some (as.map node)⟩ := by
    refine reads_record ?_ rfl
    exact readsMembers_slot rfl rfl (reads_map as fun a _ => h a) (.nil _)
  exact hrecord.map NodePart.finish

end Containers

theorem reads_leaf (depth : Nat) (l : Leaf) : Reads (readDocumentNode (depth + 3)) l.wire l.toDocument :=
  reads_fieldNode l.name (.scalar l.type) false (reads_valueNode depth) [l.value]

theorem reads_instance (depth : Nat) (i : Instance) :
    Reads (readDocumentNode (depth + 5)) (instanceWire i) (instanceNode i) :=
  reads_childNode (reads_leaf depth) i

/-- **A node** is read from its data. -/
theorem reads_node (depth : Nat) (n : Node) : Reads (readDocumentNode (depth + 7)) n.wire n.toDocument := by
  obtain ⟨name, value⟩ := n
  have hvalue := reads_valueNode (depth + 4)
  have hinstance := reads_instance depth
  cases value with
  | scalar type value => exact reads_fieldNode name (.scalar type) false hvalue [value]
  | array type values => exact reads_fieldNode name (.scalar type) true hvalue values
  | struct i => exact reads_fieldNode name .struct false hinstance [i]
  | structArray is => exact reads_fieldNode name .struct true hinstance is

/-! ## Reading documents -/

/-- **A table** is read from its data. -/
theorem reads_table (depth : Nat) (t : Table) : Reads (readTable (depth + 10)) t.wire t.toDocument := by
  have hnodes (r : Record) : Reads (readListOf readDocumentNode (depth + 8)) (.list (r.map Node.wire))
      (r.map Node.toDocument) :=
    reads_map r fun n _ => reads_node depth n
  have hrecords : Reads (readListOf (readListOf readDocumentNode) (depth + 9))
      (.list (t.records.map fun r => .list (r.map Node.wire))) (t.records.map (·.map Node.toDocument)) :=
    reads_map t.records fun r _ => hnodes r
  have hrecord : Reads (readRecord "TableDocument" (some (tableShape (depth + 9)))) t.wire
      ⟨some t.name, some t.tags, some (t.records.map (·.map Node.toDocument))⟩ := by
    refine reads_record ?_ rfl
    refine readsMembers_slot rfl rfl (reads_string t.name) ?_
    refine readsMembers_slot rfl rfl (reads_strings _ t.tags) ?_
    exact readsMembers_slot rfl rfl hrecords (.nil _)
  exact hrecord.map TablePart.finish

/-- **A model** is read from the data of its document. -/
theorem reads_modelDocument (depth : Nat) (m : Model) :
    Reads (readModelDocument (depth + 12)) m.wire m.toDocument := by
  have hdescriptors : Reads (readListOf readDescriptor (depth + 11)) (.list (m.descriptors.map Descriptor.wire))
      m.descriptors := by
    have h := reads_map m.descriptors fun d _ => reads_descriptor (depth + 7) d
    rwa [List.map_id'] at h
  have htables : Reads (readListOf readTable (depth + 11)) (.list (m.tables.map Table.wire))
      (m.tables.map Table.toDocument) :=
    reads_map m.tables fun t _ => reads_table depth t
  have hrecord : Reads (readRecord "ModelDocument" (some (modelShape (depth + 11)))) m.wire
      ⟨some m.descriptors, some (m.tables.map Table.toDocument)⟩ := by
    refine reads_record ?_ rfl
    refine readsMembers_slot rfl rfl hdescriptors ?_
    exact readsMembers_slot rfl rfl htables (.nil _)
  exact hrecord.map ModelPart.finish

end Document

end TableExport
