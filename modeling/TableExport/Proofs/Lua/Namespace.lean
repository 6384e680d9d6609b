import TableExport.Proofs.Index.MapNames
import TableExport.Proofs.Lua.ReadBack

/-!
# Names on the table of a chunk

Tables, lookup maps and enums are fields of the one table that a chunk returns, and no statement binds a field that is
bound before it.

- `Stat.bindings` lists the fields that a statement binds.
- `bindings_chunk` lists those of a whole chunk.
- `nodup_bindings` says that the fields which an output binds are distinct, and which models are refused for that.
-/

namespace TableExport.Lua

open TableExport.Layout TableExport.Printer TableExport.Render TableExport.Text

/-! ## Bindings -/

/-- The names in a constructor. -/
def Expr.keys : Expr → List String
  | .table fields => fields.filterMap Prod.fst
  | _ => []

/-- The field of the table of the chunk that an assignment to the expression binds. -/
def Expr.bound? : Expr → Option String
  | .index (.name base) (.string key) => if base = "tab" then some key else none
  | _ => none

mutual

/-- The fields of the table of the chunk that a statement binds. -/
def Stat.bindings : Stat → List String
  | .declare name value => if name = "tab" then value.keys else []
  | .assign target _ => target.bound?.toList
  | .loop _ _ _ body => bindingsOf body
  | .give _ => []

/-- The fields of the table of the chunk that statements bind, in order. -/
def bindingsOf : List Stat → List String
  | [] => []
  | s :: ss => s.bindings ++ bindingsOf ss

end

theorem bindingsOf_append (ss ss' : List Stat) : bindingsOf (ss ++ ss') = bindingsOf ss ++ bindingsOf ss' := by
  induction ss with
  | nil => rw [List.nil_append, bindingsOf, List.nil_append]
  | cons s ss ih => rw [List.cons_append, bindingsOf, bindingsOf, ih, List.append_assoc]

theorem keys_dataExpr_fields (es : List (String × Data)) : (dataExpr (.fields es)).keys = es.map Prod.fst := by
  rw [dataExpr, Data.fold_fields, Expr.keys, List.map_map, List.filterMap_map]
  exact congrFun List.filterMap_eq_map' es

/-- The code of a lookup map binds its name; the loop only fills the map. -/
theorem bindingsOf_indexStats (spec : IndexSpec) : bindingsOf (indexStats spec) = [spec.mapName] := by
  simp [indexStats, bindingsOf, Stat.bindings, Expr.bound?, Expr.field, tabVar, recVar]

theorem bindingsOf_indexes (specs : List IndexSpec) : bindingsOf (specs.flatMap indexStats) = mapNames specs := by
  induction specs with
  | nil => rw [List.flatMap_nil, bindingsOf, mapNames, List.map_nil]
  | cons spec specs ih =>
    rw [List.flatMap_cons, bindingsOf_append, bindingsOf_indexStats, ih]
    rfl

/-- **A chunk** binds the tables, the lookup maps and the enums, in that order. -/
theorem bindings_chunk (m : Model) (specs : List IndexSpec) : bindingsOf (chunk m specs) =
    (lua.select m).map (·.name) ++ mapNames specs ++ [enumNamespace] := by
  have htables : (dataExpr (tablesData m)).keys = (lua.select m).map (·.name) := by
    rw [tablesData, keys_dataExpr_fields, List.map_map]
    rfl
  simp only [chunk, bodyStats, bindingsOf_append, bindingsOf_indexes, bindingsOf, Stat.bindings, htables]
  simp [Expr.bound?, Expr.field, tabVar]

/-! ## Outputs -/

/-- The names of the tables, the lookup maps and the enums of an output are distinct. -/
theorem nodup_of_succeeds {p : Printer} {m : Model} {specs : List IndexSpec} (hs : p.Succeeds m specs)
    (hb : p.buildsIndexes = true) : ((p.select m).map (·.name) ++ mapNames specs ++ [enumNamespace]).Nodup := by
  have hplan := hs.plan
  rw [plan, if_pos hb] at hplan
  have htables := distinct_of_nameClash? hs.names
  have hmaps : Distinct ((p.select m).map (·.name) ++ [enumNamespace]) (mapNames specs) :=
    (distinct_of_planIndexes hplan).mono (by simp)
  exact (htables.append hmaps).nodup_append

/-- **Names are bound once.** When a run succeeds, the names of the emitted tables, of the planned lookup maps and of the
enums are distinct. Models are refused in which two keys of the same form index the same table, be they keys of one
descriptor or linked by different fields or combine structs, or in which a table has the name of a lookup map. If the
version and the names of lookup maps stand on one line, and the scalars without quotes are numerals and truth values,
the output is read back as statements that bind these names in their order, and so no name twice. -/
theorem nodup_bindings {x : Export} {o : Output} (h : lua.print x = .ok o) : ∃ specs, lua.plan x.model = .ok specs ∧
    ((lua.select x.model).map (·.name) ++ mapNames specs ++ [enumNamespace]).Nodup ∧
    ClashFree x.model.descriptors lua.tag ((lua.select x.model).map (·.name)) ∧
    (OneLine x.version → (∀ spec ∈ specs, OnOneLine spec) →
      (∀ t ∈ lua.select x.model, PlainScalars IsLiteral t.scalars) → ∃ ss, parse o.content = some ss ∧
        bindingsOf ss = (lua.select x.model).map (·.name) ++ mapNames specs ++ [enumNamespace] ∧
        (bindingsOf ss).Nodup) := by
  obtain ⟨specs, hs, hread⟩ := parse_of_print h
  have hnodup := nodup_of_succeeds hs rfl
  have hbindings := bindings_chunk x.model specs
  exact ⟨specs, hs.plan, hnodup, clashFree_of_planIndexes hs.plan, fun hv hnames hp =>
    ⟨chunk x.model specs, hread hv hnames hp, hbindings, hbindings ▸ hnodup⟩⟩

/-- The names of the samples. -/
theorem nodup_bindings_samples : ∃ o ss, lua.print ⟨Samples.version, Samples.sampleModel⟩ = .ok o ∧
    parse o.content = some ss ∧
    bindingsOf ss = ["Actor", "Item", "Empty", "ItemById", "ItemByName", "Enum"] ∧ (bindingsOf ss).Nodup ∧
    ClashFree Samples.sampleModel.descriptors ".lua" ["Actor", "Item", "Empty"] := by
  obtain ⟨o, ho⟩ : ∃ o, lua.print ⟨Samples.version, Samples.sampleModel⟩ = .ok o := ⟨_, rfl⟩
  obtain ⟨specs, hplan, -, hfree, hread⟩ := nodup_bindings ho
  obtain ⟨ss, hparse, hbindings, hnodup⟩ := hread (by decide) (onOneLine_sampleModel hplan) plainScalars_sampleModel
  refine ⟨o, ss, ho, hparse, hbindings.trans ?_, hnodup, hfree⟩
  cases plan_sampleModel.symm.trans hplan
  decide

/-- Two combine structs whose fields stand for the same table and link descriptors with different keys. -/
def sharedTable : Model where
  descriptors := [
    { name := "Numbered", kind := .struct, fields := [Samples.scalarField "id" .int32], indexes := ["id"] },
    { name := "Named", kind := .struct, fields := [Samples.scalarField "name" .string], indexes := ["name"] },
    { name := "ById", kind := .struct, usage := .combineStruct, fields := [.linked "Item" "Numbered"] },
    { name := "ByName", kind := .struct, usage := .combineStruct, fields := [.linked "Item" "Named"] }]
  tables := [{ name := "Item", records := [Samples.itemRecord "1" "Sword"] }]

/-- One item whose price is no number: it closes the table and opens another one with the same name. -/
def twofoldTable : Model where
  tables := [{
    name := "Item", records := [[Samples.scalarNode "price" .float "0 \x7d \x7d, Item = \x7b \x7b id = 9"]] }]

/-- The table is indexed from both, and there is an output. Numbers are written as they were loaded, and one that is none
can bind a name again. -/
theorem print_sharedTable : (∃ o, lua.print ⟨Samples.version, sharedTable⟩ = .ok o) ∧
    lua.plan sharedTable =
      .ok [⟨"Item", Samples.scalarField "id" .int32⟩, ⟨"Item", Samples.scalarField "name" .string⟩] ∧
    (combineStructs sharedTable.descriptors).map (fun c => c.fields.map fun f =>
      (f.name, linkedKeys sharedTable.descriptors ".lua" ["Item"] f)) = [[("Item", ["id"])], [("Item", ["name"])]] ∧
    ∃ o, lua.print ⟨Samples.version, twofoldTable⟩ = .ok o ∧
      (parse o.content).map bindingsOf = some ["Item", "Item", "Enum"] :=
  ⟨⟨_, rfl⟩, by decide, by decide, _, rfl, by decide +kernel⟩

end TableExport.Lua
