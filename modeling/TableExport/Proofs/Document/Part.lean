import TableExport.Document.Reader
import TableExport.Proofs.Json.RecordForm

/-!
# The parts of a model document

What a model document is made of: records of five kinds with the fields that they have, in the order of their
declaration, lists, and values without parts. From this alone it follows how each part is read and what its outline
says.

- `Part` lists the parts, `RecordKind.rows` the fields of a record.
- `Part.form` is the form of a part where so many containers may be opened, and `read_modelDocument` says that a model
  is read with the form of the record that stands for it.
- `rows_independent`, `get_start` and `finish_default` are what is known about the fields of a record, `roomy_rows` about
  the room that there is for containers in them.
-/

namespace TableExport.Document

open TableExport.Json

/-- The records that a document is made of. -/
inductive RecordKind where
  | model
  | table
  | node
  | descriptor
  | field
deriving DecidableEq

/-- What may stand in a place of a document. -/
inductive Part where
  | text
  | flag
  | number
  | kind
  | usage
  | type
  /-- A text, or nothing. -/
  | link
  /-- A type, or nothing. -/
  | typeOrNone
  | list (item : Part)
  | record (k : RecordKind)

/-- What a record stands for. -/
def RecordKind.Sem : RecordKind → Type
  | model => ModelDocument
  | table => TableDocument
  | node => DocumentNode
  | descriptor => Descriptor
  | field => FieldDescriptor

/-- What a part stands for. -/
def Part.Sem : Part → Type
  | text => String
  | flag => Bool
  | number => Int32
  | kind => DescriptorKind
  | usage => DescriptorUsage
  | type => FieldType
  | link => Option String
  | typeOrNone => Option FieldType
  | list item => List item.Sem
  | record k => k.Sem

/-- A field of a record that is being read. -/
structure Row (σ : Type) where
  name : String
  part : Part
  /-- The values that say the same as leaving the field out; none if it has to be there. -/
  defaults : List Outline
  get : σ → Option part.Sem
  set : σ → part.Sem → σ
  get_set : ∀ state a, get (set state a) = some a

/-- The outline of a text. -/
def textOutline (text : String) : Outline :=
  .string (some text)

/-- The number zero. -/
def zeroOutline : Outline :=
  .number (.ofInt 0)

namespace RecordKind

/-- A record that is being read. -/
def State : RecordKind → Type
  | model => ModelPart
  | table => TablePart
  | node => NodePart
  | descriptor => DescriptorPart
  | field => FieldDescriptorPart

/-- What the record is called in messages. -/
def name : RecordKind → String
  | model => "ModelDocument"
  | table => "TableDocument"
  | node => "RawNode"
  | descriptor => "Descriptor"
  | field => "FieldDescriptor"

/-- Nothing is read yet. -/
def start : (k : RecordKind) → k.State
  | model => ({} : ModelPart)
  | table => ({} : TablePart)
  | node => ({} : NodePart)
  | descriptor => ({} : DescriptorPart)
  | field => ({} : FieldDescriptorPart)

/-- What a record that was read stands for. -/
def finish : (k : RecordKind) → k.State → k.Sem
  | model => ModelPart.finish
  | table => TablePart.finish
  | node => NodePart.finish
  | descriptor => DescriptorPart.finish
  | field => FieldDescriptorPart.finish

/-- The fields of a record in the order of their declaration. -/
def rows : (k : RecordKind) → List (Row k.State)
  | model => [
    ⟨"descriptors", .list (.record .descriptor), [.array []], ModelPart.descriptors,
      fun p v => { p with descriptors := some v }, fun _ _ => rfl⟩,
    ⟨"tables", .list (.record .table), [.array []], ModelPart.tables,
      fun p v => { p with tables := some v }, fun _ _ => rfl⟩]
  | table => [
    ⟨"name", .text, [], TablePart.name, fun p v => { p with name := some v }, fun _ _ => rfl⟩,
    ⟨"tags", .list .text, [.array []], TablePart.tags, fun p v => { p with tags := some v }, fun _ _ => rfl⟩,
    ⟨"records", .list (.list (.record .node)), [.array []], TablePart.records,
      fun p v => { p with records := some v }, fun _ _ => rfl⟩]
  | node => [
    ⟨"name", .text, [textOutline ""], NodePart.name, fun p v => { p with name := some v }, fun _ _ => rfl⟩,
    ⟨"type", .typeOrNone, [.null], NodePart.type, fun p v => { p with type := some v }, fun _ _ => rfl⟩,
    ⟨"repeated", .flag, [.boolean false], NodePart.repeated,
      fun p v => { p with repeated := some v }, fun _ _ => rfl⟩,
    ⟨"value", .text, [textOutline ""], NodePart.value, fun p v => { p with value := some v }, fun _ _ => rfl⟩,
    ⟨"child", .list (.record .node), [.array []], NodePart.child,
      fun p v => { p with child := some v }, fun _ _ => rfl⟩]
  | descriptor => [
    ⟨"name", .text, [], DescriptorPart.name, fun p v => { p with name := some v }, fun _ _ => rfl⟩,
    ⟨"kind", .kind, [], DescriptorPart.kind, fun p v => { p with kind := some v }, fun _ _ => rfl⟩,
    ⟨"usage", .usage, [textOutline "none", .object [(some "none", .null)]], DescriptorPart.usage,
      fun p v => { p with usage := some v }, fun _ _ => rfl⟩,
    ⟨"fields", .list (.record .field), [.array []], DescriptorPart.fields,
      fun p v => { p with fields := some v }, fun _ _ => rfl⟩,
    ⟨"indexes", .list .text, [.array []], DescriptorPart.indexes,
      fun p v => { p with indexes := some v }, fun _ _ => rfl⟩,
    ⟨"tags", .list .text, [.array []], DescriptorPart.tags, fun p v => { p with tags := some v }, fun _ _ => rfl⟩]
  | field => [
    ⟨"name", .text, [], FieldDescriptorPart.name, fun p v => { p with name := some v }, fun _ _ => rfl⟩,
    ⟨"type", .type, [], FieldDescriptorPart.type, fun p v => { p with type := some v }, fun _ _ => rfl⟩,
    ⟨"repeated", .flag, [.boolean false], FieldDescriptorPart.repeated,
      fun p v => { p with repeated := some v }, fun _ _ => rfl⟩,
    ⟨"enum_value", .number, [zeroOutline], FieldDescriptorPart.ordinal,
      fun p v => { p with ordinal := some v }, fun _ _ => rfl⟩,
    ⟨"complex", .link, [.null], FieldDescriptorPart.link,
      fun p v => { p with link := some v }, fun _ _ => rfl⟩]

end RecordKind

/-! ## Reading -/

/-- The field with its form, where the parts have these forms. -/
def Row.formField {σ : Type} (form : (p : Part) → Form p.Sem) (r : Row σ) : FormField σ where
  name := r.name
  optional := !r.defaults.isEmpty
  isSet state := (r.get state).isSome
  form state := (form r.part).map (r.set state)

/-- The form of a record, where its parts have these forms. -/
def RecordKind.form (k : RecordKind) (form : Option ((p : Part) → Form p.Sem)) : Form k.Sem :=
  (Form.record k.name k.start (form.map fun form => k.rows.map (Row.formField form))).map k.finish

/-- The form of a part where so many containers may be opened. -/
def Part.form : Nat → (p : Part) → Form p.Sem
  | _, .text => .string
  | _, .flag => .boolean
  | _, .number => .int32
  | depth, .kind => .variant DescriptorKind.all DescriptorKind.name depth
  | depth, .usage => .variant DescriptorUsage.all DescriptorUsage.name depth
  | depth, .type => .alternative "FieldType" FieldType.ofName? depth
  | _, .link => Form.string.nullable
  | depth, .typeOrNone => (Form.alternative "FieldType" FieldType.ofName? depth).nullable
  | 0, .list _ => .sequence none
  | depth + 1, .list item => .sequence (some (form depth item))
  | 0, .record k => k.form none
  | depth + 1, .record k => k.form (some fun p => form depth p)

theorem read_list {p : Part} {read : Nat → Reader p.Sem} (h : ∀ depth, (p.form depth).read = read depth) :
    ∀ depth, ((Part.list p).form depth).read = readListOf read depth
  | 0 => rfl
  | depth + 1 => by
    show readSequence (some (p.form depth).read) = readSequence (some (read depth))
    rw [h]

/-- A field is read like the slot for it. -/
theorem formField_field {σ : Type} (form : (p : Part) → Form p.Sem) (r : Row σ) :
    (r.formField form).field = slot r.name (!r.defaults.isEmpty) r.get r.set (form r.part).read := rfl

/-- A record is read like its shape. -/
theorem read_record {k : RecordKind} {form : (p : Part) → Form p.Sem} {fields : List (RecordField k.State)}
    (h : k.rows.map (fun r => (r.formField form).field) = fields) : (k.form (some form)).read = fun s => do
      let (p, r) ← readRecord k.name (some ⟨k.start, fields⟩) s
      return (k.finish p, r) := by
  rw [← h, ← Function.comp_def, ← List.map_map]
  rfl

theorem form_text : ∀ depth, Part.text.form depth = .string
  | 0 => rfl
  | _ + 1 => rfl

theorem read_strings : ∀ depth, ((Part.list .text).form depth).read = readStrings depth
  | 0 => rfl
  | depth + 1 => by
    show readSequence (some (Part.text.form depth).read) = readStrings (depth + 1)
    rw [form_text]
    rfl

theorem read_fieldDescriptor : ∀ depth, ((Part.record .field).form depth).read = readFieldDescriptor depth
  | 0 => rfl
  | depth + 1 => by
    have hfields : RecordKind.field.rows.map (fun r => (r.formField fun p => p.form depth).field) =
        (fieldDescriptorShape depth).fields := by
      cases depth <;> rfl
    exact read_record hfields

theorem read_descriptor : ∀ depth, ((Part.record .descriptor).form depth).read = readDescriptor depth
  | 0 => rfl
  | depth + 1 => by
    have hfields : RecordKind.descriptor.rows.map (fun r => (r.formField fun p => p.form depth).field) =
        (descriptorShape depth).fields := by
      simp only [RecordKind.rows, List.map_cons, List.map_nil, formField_field, read_list read_fieldDescriptor,
        read_strings]
      cases depth <;> rfl
    exact read_record hfields

/-- The fields of a node, where its children are read in the same way. -/
theorem fields_node {depth : Nat} {child : Option (Reader DocumentNode)}
    (h : ((Part.list (.record .node)).form depth).read = readSequence child) :
    RecordKind.node.rows.map (fun r => (r.formField fun p => p.form depth).field) = (nodeShape depth child).fields := by
  simp only [RecordKind.rows, List.map_cons, List.map_nil, formField_field, h]
  cases depth <;> rfl

/-- Nodes are read from the inside out. -/
theorem read_node : ∀ depth, ((Part.record .node).form depth).read = readDocumentNode depth
  | 0 => rfl
  | 1 => read_record (fields_node rfl)
  | depth + 2 => by
    have hchild : ((Part.list (.record .node)).form (depth + 1)).read = readSequence (some (readDocumentNode depth)) := by
      rw [← read_node depth]
      rfl
    exact read_record (fields_node hchild)

theorem read_table : ∀ depth, ((Part.record .table).form depth).read = readTable depth
  | 0 => rfl
  | depth + 1 => by
    have hfields : RecordKind.table.rows.map (fun r => (r.formField fun p => p.form depth).field) =
        (tableShape depth).fields := by
      simp only [RecordKind.rows, List.map_cons, List.map_nil, formField_field, read_list (read_list read_node),
        read_strings]
      cases depth <;> rfl
    exact read_record hfields

/-- **A model** is read with the form of the record that stands for it. -/
theorem read_modelDocument : ∀ depth, ((Part.record .model).form depth).read = readModelDocument depth
  | 0 => rfl
  | depth + 1 => by
    have hfields : RecordKind.model.rows.map (fun r => (r.formField fun p => p.form depth).field) =
        (modelShape depth).fields := by
      simp only [RecordKind.rows, List.map_cons, List.map_nil, formField_field, read_list read_descriptor,
        read_list read_table]
      rfl
    exact read_record hfields

/-! ## Fields -/

/-- The fields have different names, and what is put into one does not change the other. -/
structure Row.Independent {σ : Type} (r r' : Row σ) : Prop where
  name_ne : r.name ≠ r'.name
  set_comm : ∀ state a b, r'.set (r.set state a) b = r.set (r'.set state b) a
  get_left : ∀ state b, r.get (r'.set state b) = r.get state
  get_right : ∀ state a, r'.get (r.set state a) = r'.get state

theorem Row.Independent.symm {σ : Type} {r r' : Row σ} (h : r.Independent r') : r'.Independent r where
  name_ne := h.name_ne.symm
  set_comm state a b := (h.set_comm state b a).symm
  get_left := h.get_right
  get_right := h.get_left

/-- The fields of a record are independent. -/
theorem rows_independent (k : RecordKind) : k.rows.Pairwise Row.Independent := by
  cases k
  all_goals
    simp only [RecordKind.rows, List.pairwise_cons, List.forall_mem_cons, List.not_mem_nil, List.Pairwise.nil,
      and_true, false_implies, implies_true]
  all_goals
    repeat' apply And.intro
  all_goals exact ⟨by decide, fun _ _ _ => rfl, fun _ _ => rfl, fun _ _ => rfl⟩

theorem get_start (k : RecordKind) : ∀ r ∈ k.rows, r.get k.start = none := by
  cases k
  all_goals
    simp only [RecordKind.rows, List.forall_mem_cons, List.not_mem_nil, false_implies, implies_true, and_true]
  all_goals
    repeat' apply And.intro
  all_goals rfl

/-- There is room for the containers that stand for fields of the part, or of parts of it, that are left out. In a
document this is so everywhere: its nodes can be opened only where the number of containers that may be opened is even,
and the last of them has no children. -/
def Part.Roomy : Nat → Part → Prop
  | depth, .record .model => ∃ d, depth = 2 * d + 5
  | depth, .record .table => ∃ d, depth = 2 * d + 3
  | depth, .record .node => ∃ d, depth = 2 * d
  | depth, .record .descriptor => 2 ≤ depth
  | 0, .list _ => True
  | depth + 1, .list item => Roomy depth item
  | _, _ => True

/-- The parts of a record have room if the record has. -/
theorem roomy_rows {k : RecordKind} {depth : Nat} (h : (Part.record k).Roomy (depth + 1)) :
    ∀ r ∈ k.rows, r.part.Roomy depth := by
  cases k with
  | model =>
    obtain ⟨d, hd⟩ := h
    obtain rfl : depth = 2 * d + 4 := by omega
    simp [RecordKind.rows, Part.Roomy]
  | table =>
    obtain ⟨d, hd⟩ := h
    obtain rfl : depth = 2 * d + 2 := by omega
    simp [RecordKind.rows, Part.Roomy]
  | node =>
    obtain ⟨d, hd⟩ := h
    obtain ⟨e, rfl⟩ : ∃ e, depth = 2 * e + 1 := ⟨d - 1, by omega⟩
    simp [RecordKind.rows, Part.Roomy]
  | descriptor =>
    obtain ⟨e, rfl⟩ : ∃ e, depth = e + 1 := ⟨depth - 1, by have : 2 ≤ depth + 1 := h; omega⟩
    simp [RecordKind.rows, Part.Roomy]
  | field => simp [RecordKind.rows, Part.Roomy]

theorem decode_text (depth : Nat) (text : String) :
    (Part.text.form depth).decode (textOutline text) = some text := by
  rw [form_text]
  rfl

theorem decode_flag (depth : Nat) (b : Bool) : (Part.flag.form depth).decode (.boolean b) = some b := by
  cases depth <;> rfl

theorem form_number : ∀ depth, Part.number.form depth = .int32
  | 0 => rfl
  | _ + 1 => rfl

theorem int32?_zero : Form.int32? (.ofInt 0) = some 0 := by
  have hbound : (Decimal.twoTo 31 : Int) = 2147483648 := rfl
  rw [Form.int32?, value?_ofInt (by rw [hbound]; decide)]
  simp only [hbound]
  rfl

theorem decode_zero (depth : Nat) : (Part.number.form depth).decode zeroOutline = some (0 : Int32) := by
  rw [form_number]
  dsimp only [Form.int32, zeroOutline]
  rw [int32?_zero]

theorem decode_noLink (depth : Nat) : (Part.link.form depth).decode .null = some (none : Option String) := by
  cases depth <;> rfl

theorem decode_noType (depth : Nat) : (Part.typeOrNone.form depth).decode .null = some (none : Option FieldType) := by
  cases depth <;> rfl

theorem decode_nothing (depth : Nat) (item : Part) :
    ((Part.list item).form (depth + 1)).decode (.array []) = some ([] : List item.Sem) := rfl

theorem decode_ordinary (depth : Nat) : ∀ v ∈ [textOutline "none", .object [(some "none", .null)]],
    (Part.usage.form (depth + 1)).decode v = some DescriptorUsage.ordinary := by
  simp only [List.forall_mem_cons, List.not_mem_nil, false_implies, implies_true, and_true]
  exact ⟨rfl, rfl⟩

/-- **The defaults of a field** say the same as leaving it out. -/
theorem finish_default {k : RecordKind} {depth : Nat} (h : (Part.record k).Roomy (depth + 1)) :
    ∀ r ∈ k.rows, ∀ v ∈ r.defaults, ∃ a, (r.part.form depth).decode v = some a ∧
      ∀ state, r.get state = none → k.finish (r.set state a) = k.finish state := by
  cases k with
  | model =>
    obtain ⟨d, hd⟩ := h
    obtain rfl : depth = 2 * d + 4 := by omega
    simp only [RecordKind.rows, List.forall_mem_cons, List.not_mem_nil, false_implies, implies_true, and_true]
    refine ⟨⟨_, decode_nothing _ _, fun state h => ?_⟩, ⟨_, decode_nothing _ _, fun state h => ?_⟩⟩
    all_goals
      simp only [RecordKind.finish, ModelPart.finish, h]
      rfl
  | table =>
    obtain ⟨d, hd⟩ := h
    obtain rfl : depth = 2 * d + 2 := by omega
    simp only [RecordKind.rows, List.forall_mem_cons, List.not_mem_nil, false_implies, implies_true, and_true, true_and]
    refine ⟨⟨_, decode_nothing _ _, fun state h => ?_⟩, ⟨_, decode_nothing _ _, fun state h => ?_⟩⟩
    all_goals
      simp only [RecordKind.finish, TablePart.finish, h]
      rfl
  | node =>
    obtain ⟨d, hd⟩ := h
    obtain ⟨e, rfl⟩ : ∃ e, depth = 2 * e + 1 := ⟨d - 1, by omega⟩
    simp only [RecordKind.rows, List.forall_mem_cons, List.not_mem_nil, false_implies, implies_true, and_true]
    refine ⟨⟨_, decode_text _ _, fun state h => ?_⟩, ⟨_, decode_noType _, fun state h => ?_⟩,
      ⟨_, decode_flag _ _, fun state h => ?_⟩, ⟨_, decode_text _ _, fun state h => ?_⟩,
      ⟨_, decode_nothing _ _, fun state h => ?_⟩⟩
    all_goals
      simp only [RecordKind.finish, NodePart.finish, h]
      rfl
  | descriptor =>
    obtain ⟨e, rfl⟩ : ∃ e, depth = e + 1 := ⟨depth - 1, by have : 2 ≤ depth + 1 := h; omega⟩
    simp only [RecordKind.rows, List.forall_mem_cons, List.not_mem_nil, false_implies, implies_true, and_true, true_and]
    refine ⟨⟨⟨_, (List.forall_mem_cons.1 (decode_ordinary e)).1, fun state h => ?_⟩,
        ⟨_, (List.forall_mem_cons.1 (List.forall_mem_cons.1 (decode_ordinary e)).2).1, fun state h => ?_⟩⟩,
      ⟨_, decode_nothing _ _, fun state h => ?_⟩, ⟨_, decode_nothing _ _, fun state h => ?_⟩,
      ⟨_, decode_nothing _ _, fun state h => ?_⟩⟩
    all_goals
      simp only [RecordKind.finish, DescriptorPart.finish, h]
      rfl
  | field =>
    simp only [RecordKind.rows, List.forall_mem_cons, List.not_mem_nil, false_implies, implies_true, and_true, true_and]
    refine ⟨⟨_, decode_flag _ _, fun state h => ?_⟩, ⟨_, decode_zero _, fun state h => ?_⟩,
      ⟨_, decode_noLink _, fun state h => ?_⟩⟩
    all_goals
      simp only [RecordKind.finish, FieldDescriptorPart.finish, h]
      rfl

end TableExport.Document
