import TableExport.Proofs.Json.RoundTrip
import TableExport.Proofs.Lua.ReadBack
import TableExport.Proofs.Printer.Ending
import TableExport.Proofs.Render.Keys

/-!
# Repeated keys in outputs

Outputs are read back into trees that would show a repeated key. There is none in the tables and none between them; the
enums are the one place where keys can be repeated, and they are if the declarations repeat names.

- `Json.Tree.DistinctKeys` and `Lua.Stat.DistinctKeys` say that no key is repeated anywhere inside.
- `distinctKeys_dataTree` and `distinctKeys_dataExpr` go back to the data.
- `distinctKeys_outputs` is about the outputs of runs.
-/

namespace TableExport

open TableExport.Layout TableExport.Literal TableExport.Printer TableExport.Render

/-! ## JSON -/

/-- No object inside has two members with the same name. -/
inductive Json.Tree.DistinctKeys : Json.Tree → Prop
  | null : DistinctKeys .null
  | boolean (value : Bool) : DistinctKeys (.boolean value)
  | number (text : String) : DistinctKeys (.number text)
  | string (text : String) : DistinctKeys (.string text)
  | array {items : List Json.Tree} : (∀ t ∈ items, t.DistinctKeys) → DistinctKeys (.array items)
  | object {members : List (String × Json.Tree)} : (members.map Prod.fst).Nodup →
      (∀ e ∈ members, e.2.DistinctKeys) → DistinctKeys (.object members)

namespace Json

theorem distinctKeys_array {items : List Tree} : (Tree.array items).DistinctKeys ↔ ∀ t ∈ items, t.DistinctKeys := by
  constructor
  · rintro (_ | _ | _ | _ | hitems)
    exact hitems
  · exact .array

theorem distinctKeys_object {members : List (String × Tree)} : (Tree.object members).DistinctKeys ↔
    (members.map Prod.fst).Nodup ∧ ∀ e ∈ members, e.2.DistinctKeys := by
  constructor
  · rintro (_ | _ | _ | _ | _ | ⟨hnodup, hmembers⟩)
    exact ⟨hnodup, hmembers⟩
  · rintro ⟨hnodup, hmembers⟩
    exact .object hnodup hmembers

theorem distinctKeys_scalarTree (type : ScalarType) (text : String) : (scalarTree type text).DistinctKeys := by
  unfold scalarTree
  split
  · exact .string text
  split
  · exact .boolean true
  split
  · exact .boolean false
  · exact .number text

/-- The tree of data repeats a key if and only if the data do. -/
theorem distinctKeys_dataTree (d : Data) : (dataTree d).DistinctKeys ↔ d.DistinctKeys := by
  induction d using Data.induct with
  | scalar type text =>
    rw [dataTree, Data.fold_scalar]
    exact iff_of_true (distinctKeys_scalarTree type text) (.scalar type text)
  | list ds ih =>
    rw [dataTree, Data.fold_list, distinctKeys_array, Data.distinctKeys_list, List.forall_mem_map]
    exact forall₂_congr ih
  | fields es ih =>
    rw [dataTree, Data.fold_fields, distinctKeys_object, Data.distinctKeys_fields, List.map_map, List.forall_mem_map]
    exact and_congr Iff.rfl (forall₂_congr ih)

end Json

/-! ## Lua -/

/-- No constructor inside has two entries under the same name. -/
inductive Lua.Expr.DistinctKeys : Lua.Expr → Prop
  | boolean (value : Bool) : DistinctKeys (.boolean value)
  | numeral (text : String) : DistinctKeys (.numeral text)
  | negative {operand : Lua.Expr} : operand.DistinctKeys → DistinctKeys (.negative operand)
  | string (text : String) : DistinctKeys (.string text)
  | table {fields : List (Option String × Lua.Expr)} : (fields.filterMap Prod.fst).Nodup →
      (∀ f ∈ fields, f.2.DistinctKeys) → DistinctKeys (.table fields)
  | name (text : String) : DistinctKeys (.name text)
  | index {base key : Lua.Expr} : base.DistinctKeys → key.DistinctKeys → DistinctKeys (.index base key)
  | call {function argument : Lua.Expr} : function.DistinctKeys → argument.DistinctKeys →
      DistinctKeys (.call function argument)

/-- No constructor in a statement has two entries under the same name. -/
inductive Lua.Stat.DistinctKeys : Lua.Stat → Prop
  | declare {name : String} {value : Lua.Expr} : value.DistinctKeys → DistinctKeys (.declare name value)
  | assign {target value : Lua.Expr} : target.DistinctKeys → value.DistinctKeys → DistinctKeys (.assign target value)
  | loop {first second : String} {iterator : Lua.Expr} {body : List Lua.Stat} : iterator.DistinctKeys →
      (∀ s ∈ body, s.DistinctKeys) → DistinctKeys (.loop first second iterator body)
  | give {value : Lua.Expr} : value.DistinctKeys → DistinctKeys (.give value)

namespace Lua

theorem distinctKeys_table {fields : List (Option String × Expr)} : (Expr.table fields).DistinctKeys ↔
    (fields.filterMap Prod.fst).Nodup ∧ ∀ f ∈ fields, f.2.DistinctKeys := by
  constructor
  · rintro (_ | _ | _ | _ | ⟨hnodup, hfields⟩)
    exact ⟨hnodup, hfields⟩
  · rintro ⟨hnodup, hfields⟩
    exact .table hnodup hfields

theorem distinctKeys_scalarExpr (type : ScalarType) (text : String) : (scalarExpr type text).DistinctKeys := by
  unfold scalarExpr numberExpr
  split
  · exact .string text
  split
  · exact .boolean true
  split
  · exact .boolean false
  split
  · exact .negative (.numeral _)
  · exact .numeral _

theorem distinctKeys_items {items : List Expr} :
    (Expr.table (items.map fun e => (none, e))).DistinctKeys ↔ ∀ e ∈ items, e.DistinctKeys := by
  rw [distinctKeys_table, List.forall_mem_map]
  have hkeys : (items.map fun e => ((none : Option String), e)).filterMap Prod.fst = [] := by simp [List.filterMap_map]
  rw [hkeys]
  exact and_iff_right List.nodup_nil

theorem distinctKeys_entries {entries : List (String × Expr)} :
    (Expr.table (entries.map fun e => (some e.1, e.2))).DistinctKeys ↔
      (entries.map Prod.fst).Nodup ∧ ∀ e ∈ entries, e.2.DistinctKeys := by
  rw [distinctKeys_table, List.forall_mem_map]
  have hkeys : (entries.map fun e => (some e.1, e.2)).filterMap Prod.fst = entries.map Prod.fst := by
    rw [List.filterMap_map]
    exact congrFun List.filterMap_eq_map' entries
  rw [hkeys]

/-- The constructor of data repeats a key if and only if the data do. -/
theorem distinctKeys_dataExpr (d : Data) : (dataExpr d).DistinctKeys ↔ d.DistinctKeys := by
  induction d using Data.induct with
  | scalar type text =>
    rw [dataExpr, Data.fold_scalar]
    exact iff_of_true (distinctKeys_scalarExpr type text) (.scalar type text)
  | list ds ih =>
    rw [dataExpr, Data.fold_list, distinctKeys_items, Data.distinctKeys_list, List.forall_mem_map]
    exact forall₂_congr ih
  | fields es ih =>
    rw [dataExpr, Data.fold_fields, distinctKeys_entries, Data.distinctKeys_fields, List.map_map, List.forall_mem_map]
    exact and_congr Iff.rfl (forall₂_congr ih)

theorem distinctKeys_field {base : Expr} (h : base.DistinctKeys) (name : String) : (base.field name).DistinctKeys :=
  .index h (.string name)

/-- The code of lookup maps has no keys but computed ones. -/
theorem distinctKeys_indexStats (spec : IndexSpec) : ∀ s ∈ indexStats spec, s.DistinctKeys := by
  have htab : tabVar.DistinctKeys := .name "tab"
  have hrec : recVar.DistinctKeys := .name "rec"
  have hmap := distinctKeys_field htab spec.mapName
  intro s hs
  simp only [indexStats, List.mem_cons, List.not_mem_nil, or_false] at hs
  rcases hs with rfl | rfl
  · exact .assign hmap (.table List.nodup_nil fun f hf => by cases hf)
  · refine .loop (.call (.name "ipairs") (distinctKeys_field htab spec.table)) fun s hs => ?_
    rw [List.mem_singleton] at hs
    rw [hs]
    exact .assign (.index hmap (distinctKeys_field hrec spec.key.name)) hrec

end Lua

/-! ## Outputs -/

/-- The text is one JSON object in which no key is repeated but perhaps in its last member. That shows the enums, and
repeats a key if and only if the declarations repeat a name. -/
def Json.DistinctButEnums (text : String) (ds : List Descriptor) : Prop :=
  ∃ members enums, Json.parse text = some (.object (members ++ [(enumNamespace, enums)])) ∧
    ((members ++ [(enumNamespace, enums)]).map Prod.fst).Nodup ∧ (∀ e ∈ members, e.2.DistinctKeys) ∧
    (enums.DistinctKeys ↔ DistinctEnums ds)

/-- The text is a Lua chunk in which no key is repeated but perhaps in the assignment of the enums. That repeats a key if
and only if the declarations repeat a name. -/
def Lua.DistinctButEnums (text : String) (ds : List Descriptor) : Prop :=
  ∃ body enums, Lua.parse text = some (body ++ [.assign (Lua.tabVar.field enumNamespace) enums, .give Lua.tabVar]) ∧
    (∀ s ∈ body, s.DistinctKeys) ∧ (enums.DistinctKeys ↔ DistinctEnums ds)

section Runs

variable {x : Export} {o : Output}

theorem distinctKeys_json (h : json.print x = .ok o)
    (hp : ∀ t ∈ json.select x.model, PlainScalars Json.IsLiteral t.scalars) :
    Json.DistinctButEnums o.content x.model.descriptors := by
  obtain ⟨specs, hs, hcontent⟩ := print_eq_ok h
  have hparse : Json.parse o.content = some (Json.dataTree (Json.jsonData x.model)) := by
    rw [Json.parse, hcontent, (Json.writes_json hs hp x.version).tokens? json.indent]
    exact Json.parseTokens_tokens _
  refine ⟨(json.select x.model).map fun t => (t.name, Json.dataTree t.data),
    Json.dataTree (.fields ((enums x.model.descriptors).map Descriptor.enumEntry)), ?_, ?_, ?_, ?_⟩
  · rw [hparse, Json.jsonData]
    conv_lhs => rw [Json.dataTree, Data.fold_fields, List.map_append, List.map_map]
    rfl
  · rw [List.map_append, List.map_map]
    exact (distinct_of_nameClash? hs.names).nodup_append
  · rw [List.forall_mem_map]
    exact fun t ht => (Json.distinctKeys_dataTree _).2 (refusesRepeats_json.distinctKeys hs.tables t ht)
  · rw [Json.distinctKeys_dataTree]
    exact distinctKeys_enums

theorem distinctKeys_lua (h : lua.print x = .ok o) (hv : Lua.OneLine x.version)
    (hnames : ∀ specs, lua.plan x.model = .ok specs → ∀ spec ∈ specs, Lua.OnOneLine spec)
    (hp : ∀ t ∈ lua.select x.model, PlainScalars Lua.IsLiteral t.scalars) :
    Lua.DistinctButEnums o.content x.model.descriptors := by
  obtain ⟨specs, hs, hread⟩ := Lua.parse_of_print h
  have hparse := hread hv (hnames specs hs.plan) hp
  have htables : (Lua.tablesData x.model).DistinctKeys := by
    have hdistinct := (distinct_of_nameClash? hs.names).1
    rw [Lua.tablesData, Data.distinctKeys_fields, List.map_map, List.forall_mem_map]
    exact ⟨hdistinct, fun t ht => refusesRepeats_lua.distinctKeys hs.tables t ht⟩
  refine ⟨.declare "tab" (Lua.dataExpr (Lua.tablesData x.model)) :: specs.flatMap Lua.indexStats,
    Lua.dataExpr (Lua.enumsData x.model), ?_, ?_, ?_⟩
  · rw [hparse, Lua.chunk, Lua.bodyStats]
    simp
  · intro s hs
    rcases List.mem_cons.1 hs with rfl | hs
    · exact .declare ((Lua.distinctKeys_dataExpr _).2 htables)
    · obtain ⟨spec, -, hspec⟩ := List.mem_flatMap.1 hs
      exact Lua.distinctKeys_indexStats spec s hspec
  · rw [Lua.distinctKeys_dataExpr]
    exact distinctKeys_enums

end Runs

/-- **Only enums repeat keys.** In the output of every run that succeeds, for scalars and names that are written as they
are and can be read back, the keys at one place are distinct: those of the tables, records and instances always, those
of the enums if and only if no name is declared twice among them or in one of them. -/
theorem distinctKeys_outputs (x : Export) :
    (∀ o, json.print x = .ok o → (∀ t ∈ json.select x.model, PlainScalars Json.IsLiteral t.scalars) →
      Json.DistinctButEnums o.content x.model.descriptors) ∧
    ∀ o, lua.print x = .ok o → Lua.OneLine x.version →
      (∀ specs, lua.plan x.model = .ok specs → ∀ spec ∈ specs, Lua.OnOneLine spec) →
      (∀ t ∈ lua.select x.model, PlainScalars Lua.IsLiteral t.scalars) →
      Lua.DistinctButEnums o.content x.model.descriptors :=
  ⟨fun _ h hp => distinctKeys_json h hp, fun _ h hv hnames hp => distinctKeys_lua h hv hnames hp⟩

/-- The sample enums are distinct, and so are all keys of the sample outputs. -/
theorem distinctKeys_outputs_samples : ∃ o o', json.print ⟨Samples.version, Samples.sampleModel⟩ = .ok o ∧
    lua.print ⟨Samples.version, Samples.sampleModel⟩ = .ok o' ∧
    Json.DistinctButEnums o.content Samples.sampleModel.descriptors ∧
    Lua.DistinctButEnums o'.content Samples.sampleModel.descriptors ∧
    DistinctEnums Samples.sampleModel.descriptors := by
  obtain ⟨o, ho⟩ : ∃ o, json.print ⟨Samples.version, Samples.sampleModel⟩ = .ok o := ⟨_, rfl⟩
  obtain ⟨o', ho'⟩ : ∃ o, lua.print ⟨Samples.version, Samples.sampleModel⟩ = .ok o := ⟨_, rfl⟩
  obtain ⟨hjson, hlua⟩ := distinctKeys_outputs ⟨Samples.version, Samples.sampleModel⟩
  refine ⟨o, o', ho, ho', hjson o ho ?_,
    hlua o' ho' (by decide) (fun _ => Lua.onOneLine_sampleModel) Lua.plainScalars_sampleModel, by decide⟩
  unfold PlainScalars
  decide

/-- Two enums with one name, of which the second has two members with one name. -/
def twinEnums : Model where
  descriptors := [
    { name := "Element", kind := .enumeration, fields := [.member "Fire" 10, .member "Ice" 20] },
    { name := "Element", kind := .enumeration, fields := [.member "Wind" 30, .member "Wind" 40] }]

/-- Both printers accept the twin enums, and repeat their names. -/
theorem not_distinctKeys_twinEnums :
    (∃ o tree, json.print ⟨Samples.version, twinEnums⟩ = .ok o ∧ Json.parse o.content = some tree ∧
      ¬ tree.DistinctKeys) ∧
    ∃ o ss, lua.print ⟨Samples.version, twinEnums⟩ = .ok o ∧ Lua.parse o.content = some ss ∧
      ∃ s ∈ ss, ¬ s.DistinctKeys := by
  have htwins : ¬ DistinctEnums twinEnums.descriptors := by decide
  have hnone (p : Printer) : p.select twinEnums = [] := rfl
  obtain ⟨o, ho⟩ : ∃ o, json.print ⟨Samples.version, twinEnums⟩ = .ok o := ⟨_, rfl⟩
  obtain ⟨o', ho'⟩ : ∃ o, lua.print ⟨Samples.version, twinEnums⟩ = .ok o := ⟨_, rfl⟩
  obtain ⟨members, enums, hparse, -, -, henums⟩ := distinctKeys_json ho (by simp [hnone])
  obtain ⟨body, enums', hparse', -, henums'⟩ := distinctKeys_lua ho' (by decide)
    (fun specs hspecs => by cases hspecs; simp) (by simp [hnone])
  refine ⟨⟨o, _, ho, hparse, fun hdistinct => ?_⟩,
    o', _, ho', hparse', .assign (Lua.tabVar.field enumNamespace) enums', by simp, fun hdistinct => ?_⟩
  · have hmembers := (Json.distinctKeys_object.1 hdistinct).2
    exact htwins (henums.1 (hmembers (enumNamespace, enums) (by simp)))
  · obtain _ | ⟨-, hvalue⟩ := hdistinct
    exact htwins (henums'.1 hvalue)

end TableExport
