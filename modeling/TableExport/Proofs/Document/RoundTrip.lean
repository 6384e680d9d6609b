import TableExport.Proofs.Document.Shape
import TableExport.Proofs.Document.Wire

/-!
# Models are read back

The document of a model is loaded as that model: its nodes say the nodes of the model, and its texts are read as they
were written. The same holds of every text that says the same as the document.

- `lower_toDocument` converts the nodes of a document back.
- `literals_wire` checks that the document is a JSON text.
- `load_document` puts reading and conversion together.
-/

namespace TableExport

open Document Json

/-! ## Converting the nodes back -/

theorem saysInstance_instanceNode (i : Instance) : (instanceNode i).SaysInstance i := by
  show List.Forall₂ DocumentNode.SaysLeaf (i.map Leaf.toDocument) i
  rw [List.forall₂_map_left_iff, List.forall₂_same]
  exact fun l _ => ⟨rfl, rfl, rfl, .ofValue l.value, rfl, rfl, rfl⟩

/-- The field node of a node says it. -/
theorem Node.says_toDocument (n : Node) : n.toDocument.Says n := by
  obtain ⟨name, value⟩ := n
  cases value with
  | scalar type value => exact ⟨rfl, rfl, rfl, .ofValue value, rfl, rfl, rfl⟩
  | array type values =>
    have htexts : List.Forall₂ DocumentNode.SaysText (values.map .ofValue) values := by
      rw [List.forall₂_map_left_iff, List.forall₂_same]
      exact fun value _ => ⟨rfl, rfl⟩
    exact ⟨rfl, rfl, rfl, htexts⟩
  | struct i => exact ⟨rfl, rfl, rfl, instanceNode i, rfl, saysInstance_instanceNode i⟩
  | structArray is =>
    have hinstances : List.Forall₂ DocumentNode.SaysInstance (is.map instanceNode) is := by
      rw [List.forall₂_map_left_iff, List.forall₂_same]
      exact fun i _ => saysInstance_instanceNode i
    exact ⟨rfl, rfl, rfl, hinstances⟩

/-- The field node of a node is converted back, wherever it stands. -/
theorem Node.lower_toDocument (path : String) (n : Node) : n.toDocument.lower path = .ok n := by
  have h := n.says_toDocument
  rw [DocumentNode.lower_eq_ok, h.pruned_eq]
  exact h

theorem lowerRecords_toDocument (table : String) (rs : List Record) :
    ∀ index, DocumentNode.lowerRecords table index (rs.map (·.map Node.toDocument)) = .ok rs := by
  induction rs with
  | nil => exact fun _ => rfl
  | cons r rs ih =>
    intro index
    have hnodes : (r.map Node.toDocument).mapM (DocumentNode.lower (DocumentNode.indexed table index)) = .ok r := by
      rw [mapM_eq_ok, List.forall₂_map_left_iff, List.forall₂_same]
      exact fun n _ => n.lower_toDocument _
    rw [List.map_cons, DocumentNode.lowerRecords, bind_eq_ok]
    refine ⟨r, hnodes, ?_⟩
    rw [bind_eq_ok]
    exact ⟨rs, ih (index + 1), rfl⟩

theorem lowerTables_toDocument (ts : List Table) : lowerTables (ts.map Table.toDocument) = .ok ts := by
  induction ts with
  | nil => rfl
  | cons t ts ih =>
    have hrecords := lowerRecords_toDocument t.name t.records 0
    simp only [List.map_cons, lowerTables, Table.toDocument, hrecords]
    rw [bind_eq_ok]
    exact ⟨ts, ih, rfl⟩

/-- The parts of the document of a model are converted back. -/
theorem Model.lower_toDocument (m : Model) : m.toDocument.lower = .ok m := by
  rw [ModelDocument.lower, bind_eq_ok]
  exact ⟨m.tables, lowerTables_toDocument m.tables, rfl⟩

/-! ## The document as a JSON text -/

@[simp] theorem literals_textData (text : String) : Literals (textData text) := by
  rw [textData, literals_scalar]
  exact fun hplain => Bool.noConfusion hplain

@[simp] theorem literals_flagData (flag : Bool) : Literals (flagData flag) := by
  rw [flagData, literals_scalar]
  cases flag
  · exact fun _ => .inr (.inl rfl)
  · exact fun _ => .inl rfl

@[simp] theorem literals_intData (n : Int) : Literals (intData n) := by
  rw [intData, literals_scalar]
  exact fun _ => isLiteral_toString n

@[simp] theorem literals_valueWire (text : String) : Literals (valueWire text) := by
  simp [valueWire]

@[simp] theorem literals_fieldWire (name : String) (type : FieldType) (repeated : Bool) (child : List Data) :
    Literals (fieldWire name type repeated child) ↔ ∀ d ∈ child, Literals d := by
  simp [fieldWire]

@[simp] theorem literals_instanceWire (i : Instance) : Literals (instanceWire i) := by
  simp [instanceWire, Leaf.wire]

@[simp] theorem literals_node (n : Node) : Literals n.wire := by
  obtain ⟨name, value⟩ := n
  cases value <;> simp [Node.wire]

@[simp] theorem literals_fieldDescriptor (f : FieldDescriptor) : Literals f.wire := by
  obtain ⟨name, type, repeated, ordinal, link⟩ := f
  cases link <;> simp [FieldDescriptor.wire]

/-- The data of a document have a JSON text. -/
theorem literals_wire (m : Model) : Literals m.wire := by
  simp [Model.wire, Descriptor.wire, Table.wire]

/-- A text that says the same as the document of a model is loaded as the model. -/
theorem load_of_parse {m : Model} {text : String} (h : parse text = some (dataTree m.wire)) :
    Model.load text = .ok m := by
  have hread : readDocument (readModelDocument maxDepth) text.toList = .ok m.toDocument :=
    readDocument_eq (reads_modelDocument 115 m) (tokens_of_parse h)
  simp only [Model.load, hread]
  exact m.lower_toDocument

/-- **Models are read back.** The document of a model is a JSON text that says everything about the model, and loading
it gives the model, as does loading any other text that says the same; different models have different documents. -/
theorem load_document :
    (∀ m : Model, parse m.document = some (dataTree m.wire) ∧ Model.load m.document = .ok m) ∧
      (∀ (m : Model) (text : String), parse text = some (dataTree m.wire) → Model.load text = .ok m) ∧
      Function.Injective Model.document := by
  have hparse (m : Model) : parse m.document = some (dataTree m.wire) := parse_write (literals_wire m)
  refine ⟨fun m => ⟨hparse m, load_of_parse (hparse m)⟩, fun m text => load_of_parse, fun m₁ m₂ h => ?_⟩
  have hload := load_of_parse (hparse m₁)
  rw [h, load_of_parse (hparse m₂)] at hload
  exact (Except.ok.inj hload).symm

/-- A model with an empty table whose name lies beyond the basic plane. -/
def faceModel : Model where
  tables := [{ name := "😀" }]

/-- The same model with other blanks and with escapes in a key and in the name. -/
def faceDocument : String :=
  "\x7b \"descriptors\": [],\n\"t\\u0061bles\":[\x7b\"name\":\"\\ud83d\\ude00\", \"tags\" : [], \"records\":[] \x7d]\x7d\n"

/-- A document that is spelled in another way is loaded as the same model. -/
theorem load_faceDocument :
    parse faceDocument = some (dataTree faceModel.wire) ∧ Model.load faceDocument = .ok faceModel := by
  have htokens : Text.tokens? nextToken faceDocument.toList = some (lexicon.tokens memberKey faceModel.wire) := by
    decide +kernel
  have hparse : parse faceDocument = some (dataTree faceModel.wire) := by
    rw [parse, htokens]
    exact parseTokens_tokens faceModel.wire
  exact ⟨hparse, load_document.2.1 faceModel faceDocument hparse⟩

end TableExport
