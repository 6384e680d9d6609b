import TableExport.Document.Lowering
import TableExport.Proofs.Outcome

/-!
# What the nodes of a document say

A document node says a value if it has the shape of the value and nothing besides: a mark on the repeated fields and on
no others, and no children below the nodes that hold texts.

- `DocumentNode.Says` is that relation, written down without the conversion to typed values.
- `DocumentNode.pruned` is a node without the two things that the conversion passes over: the marks of fields inside
  instances, and what hangs below the nodes that hold texts.
- `lower_eq_ok_iff` says that a node is accepted if and only if it says a value when it is pruned.
- `not_says_accepted` shows one accepted node for each thing that gets lost.
-/

namespace TableExport.DocumentNode

/-- A node that holds a text, and nothing below it. -/
def SaysText (c : DocumentNode) (text : String) : Prop :=
  c.value = text ∧ c.child = []

/-- Nodes that hold one text. -/
def SaysSingle (cs : List DocumentNode) (text : String) : Prop :=
  ∃ c, cs = [c] ∧ c.SaysText text

/-- A field of an instance says a leaf: it is not repeated. -/
def SaysLeaf (f : DocumentNode) (l : Leaf) : Prop :=
  f.name = l.name ∧ f.type = some (.scalar l.type) ∧ f.repeated = false ∧ SaysSingle f.child l.value

/-- An instance says its leaves in order. -/
def SaysInstance (i : DocumentNode) (fields : Instance) : Prop :=
  List.Forall₂ SaysLeaf i.child fields

/-- A field says a value: the mark tells whether it is repeated, the type whether it is a struct. -/
def SaysValue (n : DocumentNode) : NodeValue → Prop
  | .scalar type text => n.type = some (.scalar type) ∧ n.repeated = false ∧ SaysSingle n.child text
  | .array type texts => n.type = some (.scalar type) ∧ n.repeated = true ∧ List.Forall₂ SaysText n.child texts
  | .struct fields => n.type = some .struct ∧ n.repeated = false ∧ ∃ i, n.child = [i] ∧ i.SaysInstance fields
  | .structArray is => n.type = some .struct ∧ n.repeated = true ∧ List.Forall₂ SaysInstance n.child is

/-- A field of a record says a node. -/
def Says (n : DocumentNode) (node : Node) : Prop :=
  n.name = node.name ∧ n.SaysValue node.value

/-- The bits of the field are those of the node that it says. -/
theorem Says.bits {n : DocumentNode} {node : Node} (h : n.Says node) :
    node.isRepeated = n.repeated ∧ (node.isStruct = true ↔ n.type = some .struct) := by
  obtain ⟨name, value⟩ := node
  obtain ⟨-, h⟩ := h
  cases value <;> simp_all [SaysValue, Node.isRepeated, Node.isStruct]

/-! ## What the conversion passes over -/

/-- A node without its children. -/
def cut (c : DocumentNode) : DocumentNode :=
  { c with child := [] }

/-- A field of an instance without its mark and without what hangs below its texts. -/
def prunedLeaf (f : DocumentNode) : DocumentNode :=
  { f with repeated := false, child := f.child.map cut }

/-- An instance with such fields. -/
def prunedInstance (i : DocumentNode) : DocumentNode :=
  { i with child := i.child.map prunedLeaf }

/-- A field of a record without marks inside of its instances and without what hangs below its texts. -/
def pruned (n : DocumentNode) : DocumentNode :=
  { n with child := n.child.map (if n.type = some .struct then prunedInstance else cut) }

/-- Writing the children of a node into it again changes nothing. -/
theorem with_child {n : DocumentNode} {cs : List DocumentNode} (h : cs = n.child) : { n with child := cs } = n := by
  subst h
  cases n
  rfl

/-- Nodes that each say something are left alone if whatever says something is. -/
theorem map_eq_of_related {α : Type} {R : DocumentNode → α → Prop} {f : DocumentNode → DocumentNode}
    (hf : ∀ {c a}, R c a → f c = c) {cs : List DocumentNode} {as : List α} (h : List.Forall₂ R cs as) :
    cs.map f = cs := by
  induction h with
  | nil => rfl
  | cons hc _ ih => rw [List.map_cons, hf hc, ih]

theorem SaysText.cut_eq {c : DocumentNode} {text : String} (h : c.SaysText text) : c.cut = c :=
  with_child h.2.symm

theorem SaysSingle.map_cut {cs : List DocumentNode} {text : String} (h : SaysSingle cs text) : cs.map cut = cs := by
  obtain ⟨c, rfl, hc⟩ := h
  rw [List.map_singleton, hc.cut_eq]

theorem SaysLeaf.pruned_eq {f : DocumentNode} {l : Leaf} (h : f.SaysLeaf l) : f.prunedLeaf = f := by
  obtain ⟨-, -, hmark, htext⟩ := h
  rw [prunedLeaf, htext.map_cut, ← hmark]
  exact with_child rfl

theorem SaysInstance.pruned_eq {i : DocumentNode} {fields : Instance} (h : i.SaysInstance fields) :
    i.prunedInstance = i :=
  with_child (map_eq_of_related SaysLeaf.pruned_eq h)

/-- Nothing is passed over in a node that says a value. -/
theorem Says.pruned_eq {n : DocumentNode} {node : Node} (h : n.Says node) : n.pruned = n := by
  obtain ⟨name, value⟩ := node
  obtain ⟨-, h⟩ := h
  refine with_child ?_
  cases value with
  | scalar type text => simpa [h.1] using h.2.2.map_cut
  | array type texts => simpa [h.1] using map_eq_of_related SaysText.cut_eq h.2.2
  | struct fields =>
    obtain ⟨htype, -, i, hi, hfields⟩ := h
    simp [htype, hi, hfields.pruned_eq]
  | structArray is => simpa [h.1] using map_eq_of_related SaysInstance.pruned_eq h.2.2

/-! ## What the conversion accepts -/

theorem singleValue_eq_ok {path text : String} {cs : List DocumentNode} :
    singleValue path cs = .ok text ↔ SaysSingle (cs.map cut) text := by
  cases cs with
  | nil => simp [singleValue, SaysSingle]
  | cons c cs =>
    cases cs with
    | nil => simp [singleValue, SaysSingle, SaysText, cut]
    | cons d ds => simp [singleValue, SaysSingle]

theorem lowerLeaf_eq_ok {path : String} {f : DocumentNode} {l : Leaf} :
    lowerLeaf path f = .ok l ↔ SaysLeaf f.prunedLeaf l := by
  obtain ⟨name, type, text⟩ := l
  unfold lowerLeaf SaysLeaf prunedLeaf
  cases htype : f.type with
  | none => simp
  | some t =>
    cases t with
    | struct => simp
    | scalar t =>
      simp only [bind_eq_ok, singleValue_eq_ok, pure_eq_ok, Leaf.mk.injEq, Option.some.injEq, FieldType.scalar.injEq,
        true_and]
      constructor
      · rintro ⟨u, hu, rfl, rfl, rfl⟩
        exact ⟨rfl, rfl, hu⟩
      · rintro ⟨rfl, rfl, hu⟩
        exact ⟨text, hu, rfl, rfl, rfl⟩

theorem lowerInstances_eq_ok {path : String} : ∀ {index : Nat} {cs : List DocumentNode} {is : List Instance},
    lowerInstances path index cs = .ok is ↔ List.Forall₂ SaysInstance (cs.map prunedInstance) is
  | _, [], is => by
    cases is <;> simp [lowerInstances]
  | index, c :: cs, is => by
    have hfields {fields : Instance} : c.child.mapM (lowerLeaf (indexed path index)) = .ok fields ↔
        SaysInstance c.prunedInstance fields := by
      rw [mapM_eq_ok, SaysInstance, prunedInstance, List.forall₂_map_left_iff]
      simp only [lowerLeaf_eq_ok]
    simp only [lowerInstances, bind_eq_ok, pure_eq_ok, hfields, lowerInstances_eq_ok, List.map_cons,
      List.forall₂_cons_left_iff]
    constructor
    · rintro ⟨fields, hc, rest, hcs, rfl⟩
      exact ⟨fields, rest, hc, hcs, rfl⟩
    · rintro ⟨fields, rest, hc, hcs, rfl⟩
      exact ⟨fields, hc, rest, hcs, rfl⟩

/-- The texts of nodes, whatever hangs below them. -/
theorem saysText_map_cut {cs : List DocumentNode} {texts : List String} :
    List.Forall₂ SaysText (cs.map cut) texts ↔ cs.map (·.value) = texts := by
  rw [List.forall₂_map_left_iff, ← List.forall₂_eq_eq_eq, List.forall₂_map_left_iff]
  simp only [SaysText, cut, and_true]

section Fields

variable {path : String} {n : DocumentNode} {node : Node} {type : ScalarType}

theorem lower_untyped (htype : n.type = none) : n.lower path ≠ .ok node := by
  simp [lower, htype]

theorem lower_scalar (htype : n.type = some (.scalar type)) (hmark : n.repeated = false) :
    n.lower path = .ok node ↔ ∃ text, SaysSingle (n.child.map cut) text ∧ ⟨n.name, .scalar type text⟩ = node := by
  simp only [lower, htype, hmark, Bool.false_eq_true, ↓reduceIte, bind_eq_ok, singleValue_eq_ok, pure_eq_ok]

theorem lower_array (htype : n.type = some (.scalar type)) (hmark : n.repeated = true) :
    n.lower path = .ok node ↔
      ∃ texts, List.Forall₂ SaysText (n.child.map cut) texts ∧ ⟨n.name, .array type texts⟩ = node := by
  simp only [lower, htype, hmark, ↓reduceIte, Except.ok.injEq, saysText_map_cut, exists_eq_left']

theorem lower_struct (htype : n.type = some .struct) (hmark : n.repeated = false) :
    n.lower path = .ok node ↔ ∃ i fields, n.child.map prunedInstance = [i] ∧ SaysInstance i fields ∧
      ⟨n.name, .struct fields⟩ = node := by
  simp only [lower, htype, hmark, Bool.false_eq_true, ↓reduceIte, bind_eq_ok, lowerInstances_eq_ok]
  constructor
  · rintro ⟨is, his, h⟩
    split at h
    · obtain ⟨i, _, hi, hnone, hcs⟩ := List.forall₂_cons_right_iff.1 his
      rw [List.forall₂_nil_right_iff.1 hnone] at hcs
      exact ⟨i, _, hcs, hi, pure_eq_ok.1 h⟩
    · cases h
  · rintro ⟨i, fields, hcs, hi, rfl⟩
    rw [hcs]
    exact ⟨[fields], .cons hi .nil, rfl⟩

theorem lower_structArray (htype : n.type = some .struct) (hmark : n.repeated = true) :
    n.lower path = .ok node ↔
      ∃ is, List.Forall₂ SaysInstance (n.child.map prunedInstance) is ∧ ⟨n.name, .structArray is⟩ = node := by
  simp only [lower, htype, hmark, ↓reduceIte, bind_eq_ok, lowerInstances_eq_ok, pure_eq_ok]

/-- A field is accepted if and only if it says a value when it is pruned. -/
theorem lower_eq_ok : n.lower path = .ok node ↔ n.pruned.Says node := by
  obtain ⟨name, value⟩ := node
  cases htype : n.type with
  | none =>
    refine iff_of_false (lower_untyped htype) ?_
    cases value <;> simp [Says, SaysValue, pruned, htype]
  | some t =>
    cases t with
    | scalar t =>
      cases hmark : n.repeated with
      | false =>
        rw [lower_scalar htype hmark]
        cases value <;> grind [Says, SaysValue, pruned]
      | true =>
        rw [lower_array htype hmark]
        cases value <;> grind [Says, SaysValue, pruned]
    | struct =>
      cases hmark : n.repeated with
      | false =>
        rw [lower_struct htype hmark]
        cases value <;> grind [Says, SaysValue, pruned]
      | true =>
        rw [lower_structArray htype hmark]
        cases value <;> grind [Says, SaysValue, pruned]

end Fields

/-- **A node is accepted** at any place if and only if it says a value when it is pruned, and that is the value it is
converted to; the mark and the type of the node itself are kept. A node says a value without being pruned if and only if
it is accepted and there is nothing to be pruned. -/
theorem lower_eq_ok_iff (path : String) (n : DocumentNode) (node : Node) :
    (n.lower path = .ok node ↔ n.pruned.Says node) ∧
      (n.lower path = .ok node → node.isRepeated = n.repeated ∧ (node.isStruct = true ↔ n.type = some .struct)) ∧
      (n.Says node ↔ n.lower path = .ok node ∧ n.pruned = n) := by
  refine ⟨lower_eq_ok, fun h => (lower_eq_ok.1 h).bits, fun h => ⟨?_, h.pruned_eq⟩, fun ⟨h, hpruned⟩ => ?_⟩
  · rwa [lower_eq_ok, h.pruned_eq]
  · rwa [lower_eq_ok, hpruned] at h

/-- Skills, of one of which the level is marked as repeated. -/
def markedLevel : DocumentNode where
  name := "skills"
  type := some .struct
  repeated := true
  child := [{ child := [(scalar "lv" .int32 "5").asRepeated] }]

/-- A number with a second one below its text. -/
def hiddenNumber : DocumentNode where
  name := "id"
  type := some (.scalar .int32)
  child := [{ value := "1", child := [ofValue "2"] }]

/-- The mark of a field inside an instance gets lost, and so does what hangs below a text: both nodes are accepted,
although they say no value. -/
theorem not_says_accepted :
    (markedLevel.lower "" = .ok ⟨"skills", .structArray [[⟨"lv", .int32, "5"⟩]]⟩ ∧ ∀ node, ¬ markedLevel.Says node) ∧
    hiddenNumber.lower "" = .ok ⟨"id", .scalar .int32 "1"⟩ ∧ ∀ node, ¬ hiddenNumber.Says node := by
  refine ⟨⟨rfl, fun node h => ?_⟩, rfl, fun node h => ?_⟩
  · have hmarks := congrArg (fun n => n.child.map fun i => i.child.map (·.repeated)) h.pruned_eq
    exact absurd hmarks (by decide)
  · have hbelow := congrArg (fun n => n.child.map fun c => c.child.length) h.pruned_eq
    exact absurd hbelow (by decide)

end TableExport.DocumentNode
