import TableExport.Document.Load
import TableExport.Proofs.Document.Shape

/-!
# The first violation of a document

The conversion to typed values checks the fields of records and the fields of instances, one after the other. Here these
fields are listed in the order of the document together with their positions, and the rules that a field has to obey are
written down as a relation of their own.

- `Spot` is a field with its positions, `Spot.path` its address, and `spots` lists the fields of a document.
- `Violates` is the violation of a rule by a field, `FirstViolation` the first one of a document.
- `errorOf?_lower` says what the conversion of a node of a record fails with, `errorOf?_document` that of a document.
- `load_first_violation` says that loading fails with the first violation, and only with that.
-/

namespace TableExport

open DocumentNode Document

/-! ## The fields of a document -/

/-- A field of a record, or a field of an instance below one, with the positions that lead to it. -/
inductive Spot where
  | root (table : String) (row : Nat) (node : DocumentNode)
  | leaf (table : String) (row : Nat) (field : String) (index : Nat) (node : DocumentNode)

namespace Spot

/-- The table that the field stands in. -/
def table : Spot → String
  | root t .. | leaf t .. => t

/-- The node that the field is written as. -/
def node : Spot → DocumentNode
  | root _ _ n | leaf _ _ _ _ n => n

/-- The address of the field. -/
def path : Spot → String
  | root t r n => t ++ "[" ++ toString r ++ "]" ++ "." ++ n.name
  | leaf t r f i n => t ++ "[" ++ toString r ++ "]" ++ "." ++ f ++ "[" ++ toString i ++ "]" ++ "." ++ n.name

end Spot

/-- The field stands at its positions in the document; only structs have fields below them. -/
inductive Stands (d : ModelDocument) : Spot → Prop
  | root {t : TableDocument} {row : Nat} {r : List DocumentNode} {n : DocumentNode} :
      t ∈ d.tables → t.records[row]? = some r → n ∈ r → Stands d (.root t.name row n)
  | leaf {t : TableDocument} {row index : Nat} {r : List DocumentNode} {n i l : DocumentNode} :
      t ∈ d.tables → t.records[row]? = some r → n ∈ r → n.type = some .struct → n.child[index]? = some i → l ∈ i.child →
      Stands d (.leaf t.name row n.name index l)

/-- The fields that are checked for a node of a record: those of its instances come first. -/
def nodeSpots (table : String) (row : Nat) (n : DocumentNode) : List Spot :=
  (if n.type = some .struct then
    n.child.zipIdx.flatMap fun i => i.1.child.map (Spot.leaf table row n.name i.2)
  else []) ++ [.root table row n]

/-- The fields of a table in the order in which they are checked. -/
def tableSpots (t : TableDocument) : List Spot :=
  t.records.zipIdx.flatMap fun r => r.1.flatMap (nodeSpots t.name r.2)

/-- The fields of a document in the order in which they are checked. -/
def spots (d : ModelDocument) : List Spot :=
  d.tables.flatMap tableSpots

theorem mem_nodeSpots {table : String} {row : Nat} {n : DocumentNode} {s : Spot} : s ∈ nodeSpots table row n ↔
    s = .root table row n ∨ n.type = some .struct ∧
      ∃ index i l, n.child[index]? = some i ∧ l ∈ i.child ∧ s = .leaf table row n.name index l := by
  rw [nodeSpots, List.mem_append, List.mem_singleton, or_comm]
  refine or_congr_right ?_
  by_cases hstruct : n.type = some .struct
  · rw [if_pos hstruct]
    simp only [hstruct, true_and, List.mem_flatMap, List.mem_zipIdx_iff_getElem?, List.mem_map]
    constructor
    · rintro ⟨⟨i, index⟩, hi, l, hl, rfl⟩
      exact ⟨index, i, l, hi, hl, rfl⟩
    · rintro ⟨index, i, l, hi, hl, rfl⟩
      exact ⟨(i, index), hi, l, hl, rfl⟩
  · simp [hstruct]

/-- The list has the fields of the document, and no others. -/
theorem mem_spots {d : ModelDocument} {s : Spot} : s ∈ spots d ↔ Stands d s := by
  simp only [spots, tableSpots, List.mem_flatMap, List.mem_zipIdx_iff_getElem?, mem_nodeSpots]
  constructor
  · rintro ⟨t, ht, ⟨r, row⟩, hr, n, hn, rfl | ⟨hstruct, index, i, l, hi, hl, rfl⟩⟩
    · exact .root ht hr hn
    · exact .leaf ht hr hn hstruct hi hl
  · intro h
    cases h with
    | @root t row r n ht hr hn => exact ⟨t, ht, (r, row), hr, n, hn, .inl rfl⟩
    | @leaf t row index r n i l ht hr hn hstruct hi hl =>
      exact ⟨t, ht, (r, row), hr, n, hn, .inr ⟨hstruct, index, i, l, hi, hl, rfl⟩⟩

/-! ## The rules -/

/-- The field violates a rule; the error has its address and the number of its children. -/
inductive Violates : Spot → LoweringError → Prop
  | missingType {s : Spot} : s.node.type = none → Violates s (.missingType s.path)
  | rootArity {t : String} {r : Nat} {n : DocumentNode} {type : ScalarType} : n.type = some (.scalar type) →
      n.repeated = false → n.child.length ≠ 1 →
      Violates (.root t r n) (.valueArity (Spot.root t r n).path n.child.length)
  /-- A field of an instance holds one value, be it marked as repeated or not. -/
  | leafArity {t f : String} {r i : Nat} {n : DocumentNode} {type : ScalarType} : n.type = some (.scalar type) →
      n.child.length ≠ 1 → Violates (.leaf t r f i n) (.valueArity (Spot.leaf t r f i n).path n.child.length)
  | structArity {t : String} {r : Nat} {n : DocumentNode} : n.type = some .struct → n.repeated = false →
      n.child.length ≠ 1 → Violates (.root t r n) (.structArity (Spot.root t r n).path n.child.length)
  | nestedStruct {t f : String} {r i : Nat} {n : DocumentNode} : n.type = some .struct →
      Violates (.leaf t r f i n) (.nestedStruct (Spot.leaf t r f i n).path)

/-- The field is the first one of the document that violates a rule. -/
def FirstViolation (d : ModelDocument) (s : Spot) (e : LoweringError) : Prop :=
  ∃ before after, spots d = before ++ s :: after ∧ Violates s e ∧ ∀ b ∈ before, ∀ e', ¬ Violates b e'

/-- The rule that a field violates. -/
def Spot.violation? (s : Spot) : Option LoweringError :=
  match s, s.node.type with
  | _, none => some (.missingType s.path)
  | .root _ _ n, some (.scalar _) =>
    if n.repeated = false ∧ n.child.length ≠ 1 then some (.valueArity s.path n.child.length) else none
  | .root _ _ n, some .struct =>
    if n.repeated = false ∧ n.child.length ≠ 1 then some (.structArity s.path n.child.length) else none
  | .leaf _ _ _ _ n, some (.scalar _) =>
    if n.child.length ≠ 1 then some (.valueArity s.path n.child.length) else none
  | .leaf .., some .struct => some (.nestedStruct s.path)

/-- A field violates one rule at most. -/
theorem violates_iff {s : Spot} {e : LoweringError} : Violates s e ↔ s.violation? = some e := by
  constructor
  · intro h
    cases h with
    | missingType htype => cases s <;> simp [Spot.violation?, htype]
    | rootArity htype hmark hlength => simp [Spot.violation?, Spot.node, htype, hmark, hlength]
    | leafArity htype hlength => simp [Spot.violation?, Spot.node, htype, hlength]
    | structArity htype hmark hlength => simp [Spot.violation?, Spot.node, htype, hmark, hlength]
    | nestedStruct htype => simp [Spot.violation?, Spot.node, htype]
  · intro h
    unfold Spot.violation? at h
    split at h
    next htype =>
      cases h
      exact .missingType htype
    next htype =>
      obtain ⟨⟨hmark, hlength⟩, he⟩ := Option.ite_none_right_eq_some.1 h
      cases he
      exact .rootArity htype hmark hlength
    next htype =>
      obtain ⟨⟨hmark, hlength⟩, he⟩ := Option.ite_none_right_eq_some.1 h
      cases he
      exact .structArity htype hmark hlength
    next htype =>
      obtain ⟨hlength, he⟩ := Option.ite_none_right_eq_some.1 h
      cases he
      exact .leafArity htype hlength
    next htype =>
      cases h
      exact .nestedStruct htype

theorem not_violates_iff {s : Spot} : (∀ e, ¬ Violates s e) ↔ s.violation? = none := by
  simp only [violates_iff, Option.eq_none_iff_forall_ne_some, ne_eq]

/-! ## What the conversion fails with -/

theorem errorOf?_singleValue (path : String) (cs : List DocumentNode) :
    errorOf? (singleValue path cs) = if cs.length ≠ 1 then some (.valueArity path cs.length) else none := by
  rcases cs with - | ⟨c, - | ⟨d, ds⟩⟩
  · rfl
  · rfl
  · simp [singleValue]

section Errors

variable (table : String) (row : Nat)

theorem fieldPath_indexed (name : String) :
    fieldPath (indexed table row) name = table ++ "[" ++ toString row ++ "]" ++ "." ++ name := by
  have hne : (indexed table row).isEmpty = false := by
    rw [Bool.eq_false_iff, ne_eq, String.isEmpty_iff]
    simp [indexed]
  rw [fieldPath, hne]
  rfl

theorem errorOf?_lowerLeaf (field : String) (index : Nat) (l : DocumentNode) :
    errorOf? (lowerLeaf (indexed (table ++ "[" ++ toString row ++ "]" ++ "." ++ field) index) l) =
      (Spot.leaf table row field index l).violation? := by
  unfold lowerLeaf Spot.violation?
  simp only [Spot.node]
  cases l.type with
  | none => rfl
  | some type =>
    cases type with
    | struct => rfl
    | scalar type =>
      rw [errorOf?_bind_pure, errorOf?_singleValue]
      rfl

theorem errorOf?_lowerInstances (path : String) (cs : List DocumentNode) (index : Nat) :
    errorOf? (lowerInstances path index cs) =
      (cs.zipIdx index).findSome? fun i => i.1.child.findSome? fun l => errorOf? (lowerLeaf (indexed path i.2) l) := by
  induction cs generalizing index with
  | nil => rfl
  | cons c cs ih =>
    rw [lowerInstances, errorOf?_bind_bind, errorOf?_mapM, ih, List.zipIdx_cons, List.findSome?_cons]
    cases c.child.findSome? fun l => errorOf? (lowerLeaf (indexed path index) l) <;> rfl

/-- The instances of a struct fail with the first violation in them. -/
theorem errorOf?_instances {n : DocumentNode} :
    errorOf? (lowerInstances (table ++ "[" ++ toString row ++ "]" ++ "." ++ n.name) 0 n.child) =
      (n.child.zipIdx.flatMap fun i => i.1.child.map (Spot.leaf table row n.name i.2)).findSome? Spot.violation? := by
  simp only [errorOf?_lowerInstances, errorOf?_lowerLeaf, findSome?_flatMap, List.findSome?_map]
  rfl

theorem length_of_lowerInstances {path : String} {cs : List DocumentNode} {is : List Instance}
    (h : lowerInstances path 0 cs = .ok is) : is.length = cs.length := by
  rw [← (lowerInstances_eq_ok.1 h).length_eq, List.length_map]

/-- A node of a record fails with the first violation in it: its instances are checked before it is. -/
theorem errorOf?_lower (n : DocumentNode) :
    errorOf? (n.lower (indexed table row)) = (nodeSpots table row n).findSome? Spot.violation? := by
  rw [nodeSpots, List.findSome?_append, List.findSome?_singleton, lower, fieldPath_indexed]
  cases htype : n.type with
  | none =>
    simp only [Spot.violation?, Spot.node, htype]
    rfl
  | some type =>
    cases type with
    | scalar type =>
      simp only [Spot.violation?, Spot.node, htype]
      cases hmark : n.repeated with
      | false =>
        simp only [Bool.false_eq_true, ↓reduceIte, true_and]
        rw [errorOf?_bind_pure, errorOf?_singleValue]
        rfl
      | true => rfl
    | struct =>
      rw [if_pos rfl, ← errorOf?_instances]
      simp only [Spot.violation?, Spot.node, htype]
      cases his : lowerInstances (table ++ "[" ++ toString row ++ "]" ++ "." ++ n.name) 0 n.child with
      | error e => rfl
      | ok is =>
        cases hmark : n.repeated with
        | true => rfl
        | false =>
          rw [← length_of_lowerInstances his]
          rcases is with - | ⟨i, - | ⟨j, is⟩⟩
          · rfl
          · rfl
          · have hlength : (i :: j :: is).length ≠ 1 := by simp
            rw [if_pos ⟨rfl, hlength⟩]
            rfl

end Errors

/-- The records of a table fail with the first violation in them. -/
theorem errorOf?_lowerRecords (table : String) (rs : List (List DocumentNode)) (row : Nat) :
    errorOf? (lowerRecords table row rs) =
      ((rs.zipIdx row).flatMap fun r => r.1.flatMap (nodeSpots table r.2)).findSome? Spot.violation? := by
  induction rs generalizing row with
  | nil => rfl
  | cons r rs ih =>
    have hrecord : errorOf? (r.mapM (lower (indexed table row))) =
        (r.flatMap (nodeSpots table row)).findSome? Spot.violation? := by
      rw [errorOf?_mapM, findSome?_flatMap]
      simp only [errorOf?_lower]
    rw [lowerRecords, errorOf?_bind_bind, hrecord, ih, List.zipIdx_cons, List.flatMap_cons, List.findSome?_append]

theorem table_of_mem_tableSpots {t : TableDocument} {s : Spot} (h : s ∈ tableSpots t) : s.table = t.name := by
  simp only [tableSpots, List.mem_flatMap, mem_nodeSpots] at h
  obtain ⟨r, -, n, -, rfl | ⟨-, index, i, l, -, -, rfl⟩⟩ := h
  · rfl
  · rfl

/-- Tables fail with the first violation in them, and name the one that it is in. -/
theorem errorOf?_lowerTables (ts : List TableDocument) : errorOf? (lowerTables ts) =
    (ts.flatMap tableSpots).findSome? fun s => s.violation?.map (LoadError.malformed s.table) := by
  induction ts with
  | nil => rfl
  | cons t ts ih =>
    have htable : (tableSpots t).findSome? (fun s => s.violation?.map (LoadError.malformed s.table)) =
        (errorOf? (lowerRecords t.name 0 t.records)).map (LoadError.malformed t.name) := by
      rw [errorOf?_lowerRecords, ← tableSpots, List.map_findSome?]
      refine findSome?_congr fun s hs => ?_
      rw [table_of_mem_tableSpots hs]
      rfl
    rw [List.flatMap_cons, List.findSome?_append, ← ih, htable, lowerTables]
    cases lowerRecords t.name 0 t.records with
    | error e => rfl
    | ok records => exact errorOf?_bind_pure _ _

/-- **A document fails** with the first violation in it, and names the table of it. -/
theorem lower_eq_error {d : ModelDocument} {table : String} {e : LoweringError} :
    d.lower = .error (.malformed table e) ↔ ∃ s, s.table = table ∧ FirstViolation d s e := by
  have hlower : errorOf? d.lower = (spots d).findSome? fun s => s.violation?.map (LoadError.malformed s.table) := by
    rw [ModelDocument.lower, errorOf?_bind_pure, errorOf?_lowerTables, spots]
  rw [← errorOf?_eq_some, hlower, List.findSome?_eq_some_iff]
  simp only [FirstViolation, not_violates_iff]
  simp only [violates_iff, Option.map_eq_some_iff, Option.map_eq_none_iff, LoadError.malformed.injEq]
  constructor
  · rintro ⟨before, s, after, hspots, ⟨e', he, rfl, rfl⟩, hbefore⟩
    exact ⟨s, rfl, before, after, hspots, he, hbefore⟩
  · rintro ⟨s, rfl, before, after, hspots, he, hbefore⟩
    exact ⟨before, s, after, hspots, ⟨e, he, rfl, rfl⟩, hbefore⟩

/-- If there is a violation in a document, there is a first one. -/
theorem exists_firstViolation {d : ModelDocument} :
    (∃ s e, FirstViolation d s e) ↔ ∃ s e, Stands d s ∧ Violates s e := by
  constructor
  · rintro ⟨s, e, before, after, hspots, he, -⟩
    have hmem : s ∈ spots d := hspots ▸ List.mem_append_right _ List.mem_cons_self
    exact ⟨s, e, mem_spots.1 hmem, he⟩
  · rintro ⟨s, e, hs, he⟩
    have hsome : ((spots d).findSome? Spot.violation?).isSome := by
      rw [List.findSome?_isSome_iff]
      exact ⟨s, mem_spots.2 hs, Option.isSome_of_eq_some (violates_iff.1 he)⟩
    obtain ⟨first, hfirst⟩ := Option.isSome_iff_exists.1 hsome
    obtain ⟨before, b, after, hspots, hb, hbefore⟩ := List.findSome?_eq_some_iff.1 hfirst
    refine ⟨b, first, before, after, hspots, violates_iff.2 hb, ?_⟩
    intro x hx
    exact not_violates_iff.2 (hbefore x hx)

/-! ## Loading -/

theorem load_eq_malformed {document table : String} {e : LoweringError} :
    Model.load document = .error (.malformed table e) ↔
      ∃ d, Json.readDocument (readModelDocument Json.maxDepth) document.toList = .ok d ∧
        d.lower = .error (.malformed table e) := by
  simp only [Model.load]
  cases Json.readDocument (readModelDocument Json.maxDepth) document.toList with
  | error f => simp [LoadError.atPosition]
  | ok d => simp

/-- **Loading reports the first violation.** Loading a text fails because of a violation if and only if the text is read
as a document and a field of that violates a rule. The failure has the first violation among the fields, listed in the
order of the document with those of instances before the struct that holds them, and the table that the field is in.
The list has the fields that stand somewhere in the document, and no others. -/
theorem load_first_violation :
    (∀ document table e, Model.load document = .error (.malformed table e) ↔
      ∃ d s, Json.readDocument (readModelDocument Json.maxDepth) document.toList = .ok d ∧ s.table = table ∧
        FirstViolation d s e) ∧
    (∀ document, (∃ table e, Model.load document = .error (.malformed table e)) ↔
      ∃ d s e, Json.readDocument (readModelDocument Json.maxDepth) document.toList = .ok d ∧ Stands d s ∧
        Violates s e) ∧
    ∀ d s, s ∈ spots d ↔ Stands d s := by
  have hfirst (document table : String) (e : LoweringError) : Model.load document = .error (.malformed table e) ↔
      ∃ d s, Json.readDocument (readModelDocument Json.maxDepth) document.toList = .ok d ∧ s.table = table ∧
        FirstViolation d s e := by
    simp only [load_eq_malformed, lower_eq_error, exists_and_left]
  refine ⟨hfirst, fun document => ?_, fun d s => mem_spots⟩
  simp only [hfirst]
  constructor
  · rintro ⟨table, e, d, s, hd, -, hs⟩
    obtain ⟨s', e', hs', he'⟩ := exists_firstViolation.1 ⟨s, e, hs⟩
    exact ⟨d, s', e', hd, hs', he'⟩
  · rintro ⟨d, s, e, hd, hs, he⟩
    obtain ⟨s', e', hs'⟩ := exists_firstViolation.2 ⟨s, e, hs, he⟩
    exact ⟨s'.table, e', d, s', hd, rfl, hs'⟩

/-- An item with a level that is marked as repeated and has two values, and with points that have none. -/
def markedDocument : String :=
  "\x7b\"tables\":[\x7b\"name\":\"Item\",\"records\":[[" ++
  "\x7b\"name\":\"skills\",\"type\":\"struct\",\"repeated\":true,\"child\":[\x7b\"child\":[" ++
  "\x7b\"name\":\"lv\",\"type\":\"int32\",\"repeated\":true," ++
  "\"child\":[\x7b\"value\":\"5\"\x7d,\x7b\"value\":\"6\"\x7d]\x7d]\x7d]\x7d," ++
  "\x7b\"name\":\"hp\",\"type\":\"int32\"\x7d]]\x7d]\x7d"

set_option maxRecDepth 2000 in
/-- The mark on a field of an instance does not help: loading fails because of the level, although that is a scalar that
is marked as repeated. -/
theorem marked_leaf_violates :
    Model.load markedDocument = .error (.malformed "Item" (.valueArity "Item[0].skills[0].lv" 2)) ∧
    ∃ d, Json.readDocument (readModelDocument Json.maxDepth) markedDocument.toList = .ok d ∧
      (spots d).map (fun s => (s.path, s.node.type, s.node.repeated, s.node.child.length)) =
        [("Item[0].skills[0].lv", some (.scalar .int32), true, 2), ("Item[0].skills", some .struct, true, 1),
          ("Item[0].hp", some (.scalar .int32), false, 0)] := by
  have hcs : ∃ cs, markedDocument.toList = cs ∧
      ((Json.readDocument (readModelDocument Json.maxDepth) cs).toOption.bind fun d => errorOf? d.lower) =
        some (.malformed "Item" (.valueArity "Item[0].skills[0].lv" 2)) ∧
      ((Json.readDocument (readModelDocument Json.maxDepth) cs).toOption.map fun d =>
        (spots d).map fun s => (s.path, s.node.type, s.node.repeated, s.node.child.length)) =
        some [("Item[0].skills[0].lv", some (.scalar .int32), true, 2), ("Item[0].skills", some .struct, true, 1),
          ("Item[0].hp", some (.scalar .int32), false, 0)] := by
    unfold markedDocument
    simp only [String.toList_append]
    refine ⟨_, congrArg₂ _ (congrArg₂ _ (congrArg₂ _ (congrArg₂ _ String.toList_ofList String.toList_ofList)
      String.toList_ofList) String.toList_ofList) String.toList_ofList, ?_, ?_⟩
    · decide +kernel
    · decide +kernel
  obtain ⟨cs, rfl, herror, hspots⟩ := hcs
  cases hd : Json.readDocument (readModelDocument Json.maxDepth) markedDocument.toList with
  | error f =>
    rw [hd] at herror
    cases herror
  | ok d =>
    rw [hd] at herror hspots
    exact ⟨load_eq_malformed.2 ⟨d, hd, errorOf?_eq_some.1 herror⟩, d, rfl, Option.some.inj hspots⟩

end TableExport
