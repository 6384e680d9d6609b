import TableExport.Document.Load
import TableExport.Proofs.Lua.LookupMaps

/-!
# What lookup maps are indexed with

Nothing compares the records of a table with the descriptor that a combine struct links to it, neither when a document
is loaded nor when it is printed. The loop of a lookup map takes from every record whatever is there under the name of
the key.

- `Record.Offers` says what that is: nil, a table or a scalar.
- `keys_of_runs` says that code which comes to its end has found a key in every record.
- `offers_of_succeeds` says both of printed tables, `offers_lua` of the output of a run that is read back.
-/

namespace TableExport

/-- Generated code finds that value under a name in the table of the record. -/
structure Record.Offers (r : Record) (name : String) (v : Lua.Value) : Prop where
  /-- There are no two nodes of that name. -/
  unique : (r.filter (·.name = name)).length ≤ 1
  /-- It is nil if there is no node of that name. -/
  nil : v = .nil ↔ ∀ n ∈ r, n.name ≠ name
  /-- It is a table if the node is repeated or a struct. -/
  table : (∃ a, v = .table a) ↔ ∃ n ∈ r, n.name = name ∧ (n.isRepeated || n.isStruct) = true
  /-- Otherwise it is the scalar of the node. -/
  scalar : ∀ type text, ⟨name, .scalar type text⟩ ∈ r → v = Lua.scalarValue type text

namespace Lua

open TableExport.Layout TableExport.Printer TableExport.Render

section Nodes

variable {r : Record} {name : String} {h : Heap} {among : Nat → Prop} {v : Value}

theorem length_filter_le_one (hr : (r.map (·.name)).Nodup) : (r.filter (·.name = name)).length ≤ 1 := by
  have hcount := List.nodup_iff_count_le_one.1 hr name
  rw [List.count, List.countP_map, List.countP_eq_length_filter] at hcount
  exact hcount

/-- The value of a node is never nil, and a table if the node is no single scalar. -/
theorem value_of_node {n : Node} (hshows : Shows h among n.value.data v) :
    v ≠ .nil ∧ ((∃ a, v = .table a) ↔ (n.isRepeated || n.isStruct) = true) := by
  obtain ⟨name, value⟩ := n
  cases value with
  | scalar type text =>
    obtain ⟨hnil, htable⟩ := scalarValue_ne type text
    obtain rfl := shows_scalar.1 hshows
    exact ⟨hnil, ⟨fun ⟨a, ha⟩ => absurd ha (htable a), fun hn => by cases hn⟩⟩
  | array type texts =>
    obtain ⟨a, -, rfl, -⟩ := shows_list.1 hshows
    exact ⟨by simp, ⟨fun _ => rfl, fun _ => ⟨a, rfl⟩⟩⟩
  | struct i =>
    obtain ⟨a, -, rfl, -⟩ := shows_fields.1 hshows
    exact ⟨by simp, ⟨fun _ => rfl, fun _ => ⟨a, rfl⟩⟩⟩
  | structArray is =>
    obtain ⟨a, -, rfl, -⟩ := shows_list.1 hshows
    exact ⟨by simp, ⟨fun _ => rfl, fun _ => ⟨a, rfl⟩⟩⟩

/-- A table that shows a record has nothing under other names. -/
theorem field_eq_nil {q : Nat} (hshows : Shows h among (recordData r) (.table q)) (hname : ∀ n ∈ r, n.name ≠ name) :
    h.cell q (.string name) = .nil := by
  obtain ⟨q', vs, hq, -, hall, hcell⟩ := shows_fields.1 hshows
  obtain rfl := Value.table.inj hq
  rw [hcell]
  refine writeAll_of_notMem fun hmem => ?_
  rw [named, List.map_fst_zip (by simp [← hall.length_eq])] at hmem
  obtain ⟨x, hx, hkey⟩ := List.mem_map.1 hmem
  rw [List.map_map] at hx
  obtain ⟨n, hn, rfl⟩ := List.mem_map.1 hx
  exact hname n hn (Key.string.inj hkey)

/-- **The table of a record** has under a name what the record offers. -/
theorem offers_of_shows {q : Nat} (hr : (r.map (·.name)).Nodup) (hshows : Shows h among (recordData r) (.table q))
    (name : String) : r.Offers name (h.cell q (.string name)) := by
  by_cases hname : ∃ n ∈ r, n.name = name
  · obtain ⟨n, hn, rfl⟩ := hname
    have honly : ∀ n' ∈ r, n'.name = n.name → n' = n := fun n' hn' heq => List.inj_on_of_nodup_map hr hn' hn heq
    have hvalue := field_of_shows hr hshows hn
    obtain ⟨hnil, htable⟩ := value_of_node hvalue
    refine ⟨length_filter_le_one hr, ?_, htable.trans ?_, fun type text hmem => ?_⟩
    · exact ⟨fun heq => absurd heq hnil, fun hall => absurd rfl (hall n hn)⟩
    · constructor
      · exact fun hshape => ⟨n, hn, rfl, hshape⟩
      · rintro ⟨n', hn', heq, hshape⟩
        rw [← honly n' hn' heq]
        exact hshape
    · rw [← honly _ hmem rfl] at hvalue ⊢
      exact shows_scalar.1 hvalue
  · have hnone : ∀ n ∈ r, n.name ≠ name := fun n hn heq => hname ⟨n, hn, heq⟩
    rw [field_eq_nil hshows hnone]
    refine ⟨length_filter_le_one hr, ⟨fun _ => hnone, fun _ => rfl⟩, ?_, fun type text hmem => ?_⟩
    · constructor
      · rintro ⟨a, ha⟩
        cases ha
      · rintro ⟨n, hn, heq, -⟩
        exact absurd heq (hnone n hn)
    · exact absurd rfl (hnone _ hmem)

end Nodes

/-! ## Code that comes to its end -/

/-- **The code of all lookup maps**, if it comes to its end, has found a key in every record. -/
theorem keys_of_runs {ρ : Env} {h₀ : Heap} {T : Nat} {addresses : IndexSpec → List Nat} {ss : List Stat}
    {h' : Heap} {w : Option Value} (hT : ρ "tab" = some (.table T)) (hT₀ : T < h₀.size) :
    ∀ (specs done : List IndexSpec) (h : Heap), Kept h₀ T done h →
      (∀ s ∈ specs, ∀ s' ∈ done ++ specs, s.table ≠ s'.mapName) →
      (∀ s ∈ specs, Stored h₀ T s.table (addresses s)) →
      Runs ρ h (.block (specs.flatMap indexStats ++ ss)) h' w →
        ∀ s ∈ specs, ∀ q ∈ addresses s, toKey (h₀.cell q (.string s.key.name)) ≠ none
  | [], _, _, _, _, _, _, s, hs => by cases hs
  | spec :: specs, done, h, hkept, htables, hstored, hruns, s, hs => by
    rw [List.flatMap_cons, List.append_assoc] at hruns
    obtain ⟨rs, hrs, hfound, hrest⟩ := index_of_runs hT hT₀ hkept
      (fun s' hs' => htables spec List.mem_cons_self s' (List.mem_append_left _ hs'))
      (htables spec List.mem_cons_self spec (List.mem_append_right _ List.mem_cons_self))
      (hstored spec List.mem_cons_self) hruns
    rcases List.mem_cons.1 hs with rfl | hs
    · -- this map; the others follow from what runs behind it
      rw [← hrs]
      intro q hq
      obtain ⟨x, hx, rfl⟩ := List.mem_map.1 hq
      rw [hfound x hx]
      simp
    · have hassoc : done ++ [spec] ++ specs = done ++ spec :: specs := by simp
      exact keys_of_runs hT hT₀ specs (done ++ [spec]) _ (hkept.index hT₀)
        (by rw [hassoc]; exact fun s' hs' => htables s' (List.mem_cons_of_mem _ hs'))
        (fun s' hs' => hstored s' (List.mem_cons_of_mem _ hs')) hrest s hs

/-! ## Printed tables -/

/-- When the tables are built, whatever maps were filled since, the loop of a map finds in every record of the table
what the record offers. -/
def Indexed (h₀ : Heap) (T : Nat) (t : Table) (spec : IndexSpec) (qs : List Nat) : Prop :=
  Stored h₀ T t.name qs ∧ List.Forall₂ (fun r q => ∀ done h ρ, Kept h₀ T done h → ρ "rec" = some (.table q) →
    ∃ v, eval ρ (recVar.field spec.key.name) h = some (v, h) ∧ r.Offers spec.key.name v) t.records qs

theorem indexed_of_shows {h₀ : Heap} {T : Nat} {among : Nat → Prop} {t : Table} {spec : IndexSpec} {qs : List Nat}
    (hnodup : ∀ r ∈ t.records, (r.map (·.name)).Nodup) (hstored : Stored h₀ T t.name qs)
    (hall : List.Forall₂ (fun r q => Shows h₀ among (recordData r) (.table q)) t.records qs) :
    Indexed h₀ T t spec qs := by
  refine ⟨hstored, forall₂_imp_of_mem hall fun r hr q hq hshows done h ρ hkept hrec => ?_⟩
  obtain ⟨hq₀, hqT⟩ := hstored.record q hq
  refine ⟨h.cell q (.string spec.key.name), eval_field hrec spec.key.name, ?_⟩
  rw [hkept.old q hq₀ hqT]
  exact offers_of_shows (hnodup r hr) hshows spec.key.name

/-- The records of every table with lookup maps have addresses. -/
theorem exists_addresses {m : Model} {specs : List IndexSpec} {h₀ : Heap} {T : Nat}
    (hnames : ((lua.select m).map (·.name)).Nodup)
    (hshows : ∀ t ∈ lua.select m, Shows h₀ (fun a => a < h₀.size ∧ a ≠ T) t.data (h₀.cell T (.string t.name)))
    (htables : ∀ s ∈ specs, s.table ∈ (lua.select m).map (·.name)) :
    ∃ addresses : IndexSpec → List Nat, ∀ s ∈ specs, ∀ t ∈ lua.select m, t.name = s.table →
      Stored h₀ T t.name (addresses s) ∧
        List.Forall₂ (fun r q => Shows h₀ (fun a => a < h₀.size ∧ a ≠ T) (recordData r) (.table q)) t.records
          (addresses s) := by
  have hready : ∀ s, ∃ qs, s ∈ specs → ∀ t ∈ lua.select m, t.name = s.table → Stored h₀ T t.name qs ∧
      List.Forall₂ (fun r q => Shows h₀ (fun a => a < h₀.size ∧ a ≠ T) (recordData r) (.table q)) t.records qs := by
    intro s
    by_cases hs : s ∈ specs
    · obtain ⟨t, ht, hname⟩ := List.mem_map.1 (htables s hs)
      obtain ⟨qs, hstored, hall⟩ := exists_stored (hshows t ht) fun a ha => ha
      refine ⟨qs, fun _ t' ht' hname' => ?_⟩
      obtain rfl : t' = t := List.inj_on_of_nodup_map hnames ht' ht (hname'.trans hname.symm)
      exact ⟨hstored, hall⟩
    · exact ⟨[], fun hs' => absurd hs' hs⟩
  choose addresses haddresses using hready
  exact ⟨addresses, haddresses⟩

/-- **Tables that are printed** offer their records to the loops of the lookup maps. Statements with a record that has
nothing for the key of a map do not run to their end. -/
theorem offers_of_succeeds {m : Model} {specs : List IndexSpec} (hs : lua.Succeeds m specs) : ∃ T h₀,
    eval (fun _ => none) (dataExpr (tablesData m)) .empty = some (.table T, h₀) ∧
      ∀ spec ∈ specs, ∀ t ∈ lua.select m, t.name = spec.table → (∃ qs, Indexed h₀ T t spec qs) ∧
        ∀ r ∈ t.records, (∀ n ∈ r, n.name ≠ spec.key.name) →
          ∀ h' w, ¬Runs (fun _ => none) .empty (.block (chunk m specs)) h' w := by
  have hplan : planIndexes m.descriptors lua.tag ((lua.select m).map (·.name)) = .ok specs := hs.plan
  have hplanned := planned_of_planIndexes hplan
  have hnodup := nodup_of_luaTables hs.tables
  have htables := (distinct_of_nameClash? hs.names).1
  obtain ⟨T, h₀, hT, heval, hshows⟩ := eval_tables htables
  obtain ⟨addresses, haddresses⟩ := exists_addresses htables hshows fun s hs => (hplanned s hs).emitted
  refine ⟨T, h₀, heval, fun spec hspec t ht hname => ?_⟩
  obtain ⟨hstored, hall⟩ := haddresses spec hspec t ht hname
  refine ⟨⟨_, indexed_of_shows (hnodup t ht) hstored hall⟩, fun r hr hnone h' w hruns => ?_⟩
  obtain ⟨q, hq, hrecord⟩ := exists_of_forall₂ hall r hr
  -- the loop of the map would find nil in the record
  have hkeys : ∀ s ∈ specs, ∀ q ∈ addresses s, toKey (h₀.cell q (.string s.key.name)) ≠ none := by
    rw [chunk, bodyStats, List.append_assoc, List.append_assoc] at hruns
    cases hruns with
    | declare he hrest =>
      cases heval.symm.trans he
      refine keys_of_runs (Function.update_self ..) hT specs [] h₀ (kept_nil h₀ T) (table_ne_mapName hplan)
        (fun s hs => ?_) hrest
      obtain ⟨t', ht', hname'⟩ := List.mem_map.1 (hplanned s hs).emitted
      rw [← hname']
      exact (haddresses s hs t' ht' hname').1
  refine hkeys spec hspec q hq ?_
  rw [field_eq_nil hrecord hnone]
  rfl

/-- **What lookup maps are indexed with.** When a run succeeds, no record of a table with a lookup map has two nodes of
the name of its key. If the version and the names of lookup maps stand on one line, and the scalars without quotes are
numerals and truth values, the output is read back, and the loop of every planned map finds in each record what the
record offers for the key: the scalar of the only node of that name, a table if that node is repeated or a struct, and
nil if there is no such node. Then the output does not run to its end. -/
theorem offers_lua {x : Export} {o : Output} (h : lua.print x = .ok o) : ∃ specs, lua.plan x.model = .ok specs ∧
    (∀ spec ∈ specs, ∀ t ∈ lua.select x.model, t.name = spec.table →
      ∀ r ∈ t.records, (r.filter (·.name = spec.key.name)).length ≤ 1) ∧
    (OneLine x.version → (∀ spec ∈ specs, OnOneLine spec) →
      (∀ t ∈ lua.select x.model, PlainScalars IsLiteral t.scalars) →
      parse o.content = some (chunk x.model specs) ∧ ∃ T h₀,
        eval (fun _ => none) (dataExpr (tablesData x.model)) .empty = some (.table T, h₀) ∧
        ∀ spec ∈ specs, ∀ t ∈ lua.select x.model, t.name = spec.table → (∃ qs, Indexed h₀ T t spec qs) ∧
          ∀ r ∈ t.records, (∀ n ∈ r, n.name ≠ spec.key.name) →
            ∀ h' w, ¬Runs (fun _ => none) .empty (.block (chunk x.model specs)) h' w) := by
  obtain ⟨specs, hs, hread⟩ := parse_of_print h
  have hnodup := nodup_of_luaTables hs.tables
  refine ⟨specs, hs.plan, fun spec _ t ht _ r hr => length_filter_le_one (hnodup t ht r hr), fun hv hnames hp => ?_⟩
  exact ⟨hread hv hnames hp, offers_of_succeeds hs⟩

/-- The maps of the samples. -/
theorem offers_lua_samples : ∃ o specs T h₀, lua.print ⟨Samples.version, Samples.sampleModel⟩ = .ok o ∧
    lua.plan Samples.sampleModel = .ok specs ∧ parse o.content = some (chunk Samples.sampleModel specs) ∧
    eval (fun _ => none) (dataExpr (tablesData Samples.sampleModel)) .empty = some (.table T, h₀) ∧ specs ≠ [] ∧
    ∀ spec ∈ specs, ∀ t ∈ lua.select Samples.sampleModel, t.name = spec.table → ∃ qs, Indexed h₀ T t spec qs := by
  have hprint : ∃ o, lua.print ⟨Samples.version, Samples.sampleModel⟩ = .ok o := ⟨_, rfl⟩
  obtain ⟨o, ho⟩ := hprint
  obtain ⟨specs, hplan, -, hread⟩ := offers_lua ho
  obtain ⟨hparse, T, h₀, heval, hmaps⟩ := hread (by decide) (onOneLine_sampleModel hplan) plainScalars_sampleModel
  refine ⟨o, specs, T, h₀, ho, hplan, hparse, heval, ?_, fun spec hspec t ht hname => (hmaps spec hspec t ht hname).1⟩
  cases plan_sampleModel.symm.trans hplan
  simp

/-! ## Records without the key -/

/-- A document with items that are indexed by their `id`: one has no `id`, the other a list. -/
def looseDocument : String :=
  "\x7b\"descriptors\":[\x7b\"name\":\"Item\",\"kind\":\"struct\"," ++
  "\"fields\":[\x7b\"name\":\"id\",\"type\":\"int32\"\x7d],\"indexes\":[\"id\"]\x7d," ++
  "\x7b\"name\":\"Config\",\"kind\":\"struct\",\"usage\":\"combine_struct\",\"fields\":" ++
  "[\x7b\"name\":\"Item\",\"type\":\"struct\",\"repeated\":true,\"complex\":\"Item\"\x7d]\x7d]," ++
  "\"tables\":[\x7b\"name\":\"Item\",\"records\":" ++
  "[[],[\x7b\"name\":\"id\",\"type\":\"int32\",\"repeated\":true\x7d]]\x7d]\x7d"

/-- The model of the document. -/
def looseModel : Model where
  descriptors := [
    { name := "Item", kind := .struct, fields := [Samples.scalarField "id" .int32], indexes := ["id"] },
    { name := "Config", kind := .struct, usage := .combineStruct, fields := [.linked "Item" "Item"] }]
  tables := [{ name := "Item", records := [[], [⟨"id", .array .int32 []⟩]] }]

/-- Loading a document whose characters are known. -/
theorem load_eq_ok {document : String} {cs : List Char} {m : Model} (hcs : document.toList = cs)
    (h : ((Json.readDocument (Document.readModelDocument Json.maxDepth) cs).toOption.bind fun d => d.lower.toOption) =
      some m) : Model.load document = .ok m := by
  subst hcs
  simp only [Model.load]
  cases hd : Json.readDocument (Document.readModelDocument Json.maxDepth) document.toList with
  | error f =>
    rw [hd] at h
    cases h
  | ok d =>
    rw [hd] at h
    cases hm : d.lower with
    | error e =>
      simp only [Except.toOption, Option.bind_some, hm] at h
      cases h
    | ok m' =>
      simp only [Except.toOption, Option.bind_some, hm] at h
      rw [← Option.some.inj h]
      exact hm

set_option maxRecDepth 2000 in
theorem load_looseDocument : Model.load looseDocument = .ok looseModel := by
  have hcs : ∃ cs, looseDocument.toList = cs ∧
      ((Json.readDocument (Document.readModelDocument Json.maxDepth) cs).toOption.bind fun d => d.lower.toOption) =
        some looseModel := by
    unfold looseDocument
    simp only [String.toList_append]
    refine ⟨_, congrArg₂ _ (congrArg₂ _ (congrArg₂ _ (congrArg₂ _ (congrArg₂ _ String.toList_ofList
      String.toList_ofList) String.toList_ofList) String.toList_ofList) String.toList_ofList) String.toList_ofList, ?_⟩
    decide +kernel
  obtain ⟨cs, hcs, h⟩ := hcs
  exact load_eq_ok hcs h

/-- A table of items with one record, indexed by their `id`. -/
def indexedItem (r : Record) : Model where
  descriptors := looseModel.descriptors
  tables := [{ name := "Item", records := [r] }]

/-- Nothing asks whether records have the key of a map: the document is loaded and printed, and one of its records has
no node of that name, another a repeated one. Numbers are written as they were loaded, so that a record without such a
node can be printed like one that has it. -/
theorem loose_records_indexed : (∃ o t, Model.load looseDocument = .ok looseModel ∧
    lua.print ⟨Samples.version, looseModel⟩ = .ok o ∧ lua.plan looseModel = .ok [itemById] ∧
    t ∈ lua.select looseModel ∧ t.name = itemById.table ∧ (∃ r ∈ t.records, ∀ n ∈ r, n.name ≠ itemById.key.name) ∧
    ∃ r ∈ t.records, ∃ n ∈ r, n.name = itemById.key.name ∧ n.isRepeated = true) ∧
    lua.print ⟨Samples.version, indexedItem [Samples.scalarNode "price" .float "0, id = 5"]⟩ = lua.print
      ⟨Samples.version, indexedItem [Samples.scalarNode "price" .float "0", Samples.scalarNode "id" .int32 "5"]⟩ :=
  ⟨⟨_, _, load_looseDocument, rfl, by decide, .head _, rfl, ⟨[], .head _, by decide⟩,
    ⟨_, .tail _ (.head _), _, .head _, rfl, rfl⟩⟩, by decide +kernel⟩

end Lua

end TableExport
