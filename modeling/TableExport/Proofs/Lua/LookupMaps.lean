import TableExport.Proofs.Lua.ReadBack
import TableExport.Proofs.Lua.RecordLoops
import TableExport.Proofs.Printer.Ending

/-!
# Lookup maps lead to the last record

The statements of a chunk are run one after the other: the tables are built, every lookup map is filled in a loop over
the records of its table, and the enums are attached.

- `Record.Carries` says that a record has a field that can be a key.
- `Built` is what the code of lookup maps leads to, `runs_indexes` runs it.
- `Resolves` says what a lookup map is in the end.
- `runs_chunk` runs a chunk, `resolves_lua` the output of a printer run.
-/

namespace TableExport

/-- The record has a field of that name with one scalar, which is the key. -/
def Record.Carries (r : Record) (name : String) (k : Lua.Key) : Prop :=
  ∃ type text, (⟨name, .scalar type text⟩ : Node) ∈ r ∧ Lua.keyOf? type text = some k

namespace Lua

open TableExport.Layout TableExport.Printer TableExport.Render

/-- The key that a node is. -/
def nodeKey? (n : Node) : Option Key :=
  match n.value with
  | .scalar type text => keyOf? type text
  | _ => none

theorem exists_carries_iff {r : Record} {name : String} :
    (∃ k, r.Carries name k) ↔ ∃ n ∈ r, n.name = name ∧ (nodeKey? n).isSome := by
  constructor
  · rintro ⟨k, type, text, hmem, hk⟩
    exact ⟨_, hmem, rfl, Option.isSome_of_eq_some hk⟩
  · rintro ⟨⟨_, value⟩, hmem, rfl, hk⟩
    cases value with
    | scalar type text =>
      obtain ⟨k, hk⟩ := Option.isSome_iff_exists.1 hk
      exact ⟨k, type, text, hmem, hk⟩
    | array | struct | structArray => cases hk

instance (r : Record) (name : String) : Decidable (∃ k, r.Carries name k) :=
  decidable_of_iff _ exists_carries_iff.symm

/-- A record that names no field twice carries one key. -/
theorem carries_unique {r : Record} (hr : (r.map (·.name)).Nodup) {name : String} {k k' : Key}
    (h : r.Carries name k) (h' : r.Carries name k') : k = k' := by
  obtain ⟨type, text, hmem, hk⟩ := h
  obtain ⟨type', text', hmem', hk'⟩ := h'
  have hnode : (⟨name, .scalar type text⟩ : Node) = ⟨name, .scalar type' text'⟩ :=
    List.inj_on_of_nodup_map hr hmem hmem' rfl
  cases hnode
  rw [hk] at hk'
  exact Option.some.inj hk'

/-! ## One map after the other -/

/-- When all tables are built, the records of the map's table have those keys and addresses. -/
structure Rounds (tables : List Table) (h₀ : Heap) (T : Nat) (spec : IndexSpec) (rs : List (Key × Nat)) : Prop where
  stored : Stored h₀ T spec.table (rs.map (·.2))
  keys : ∀ x ∈ rs, toKey (h₀.cell x.2 (.string spec.key.name)) = some x.1
  carries : ∃ t ∈ tables, t.name = spec.table ∧ List.Forall₂ (fun r x => r.Carries spec.key.name x.1) t.records rs

/-- What the code of lookup maps leads to: the tables stay as they were built, and every map is filled. -/
structure Built (tables : List Table) (h₀ : Heap) (T : Nat) (specs : List IndexSpec) (h : Heap) : Prop
    extends Kept h₀ T specs h where
  map : ∀ s ∈ specs, ∃ M rs, Rounds tables h₀ T s rs ∧ h₀.size ≤ M ∧ M < h.size ∧
    h.cell T (.string s.mapName) = .table M ∧ h.cell M = contents (mapEntries rs)

section Maps

variable {ρ : Env} {tables : List Table} {h₀ h : Heap} {T : Nat} {done : List IndexSpec} {spec : IndexSpec}
  {rs : List (Key × Nat)}

theorem built_nil (tables : List Table) (h₀ : Heap) (T : Nat) : Built tables h₀ T [] h₀ where
  toKept := kept_nil h₀ T
  map s hs := by cases hs

/-- One more map is filled. -/
theorem Built.index (hbuilt : Built tables h₀ T done h) (hT : T < h₀.size) (hrounds : Rounds tables h₀ T spec rs)
    (hnew : ∀ s ∈ done, s.mapName ≠ spec.mapName) : Built tables h₀ T (done ++ [spec]) (indexHeap h T spec rs) := by
  have hsize := hbuilt.size
  have hcell := cell_indexHeap spec rs (h := h) (T := T) (by omega)
  have hnext : (indexHeap h T spec rs).size = h.size + 1 := rfl
  refine ⟨hbuilt.toKept.index hT, fun s hs => ?_⟩
  rcases List.mem_append.1 hs with hs | hs
  · obtain ⟨M, rs', hrounds', hM, hMlt, htab, hmap⟩ := hbuilt.map s hs
    have hne : Key.string s.mapName ≠ .string spec.mapName := fun heq => hnew s hs (Key.string.inj heq)
    refine ⟨M, rs', hrounds', hM, by omega, ?_, ?_⟩
    · rw [hcell, if_neg (by omega), if_pos rfl, Function.update_of_ne hne, htab]
    · rw [hcell, if_neg (by omega), if_neg (by omega), hmap]
  · obtain rfl := List.mem_singleton.1 hs
    refine ⟨h.size, rs, hrounds, by omega, by omega, ?_, ?_⟩
    · rw [hcell, if_neg (by omega), if_pos rfl, Function.update_self]
    · rw [hcell, if_pos rfl]

/-- **The code of all lookup maps** runs, and fills them all. -/
theorem runs_indexes (hT : ρ "tab" = some (.table T)) (hglobal : ρ "ipairs" = none) (hT₀ : T < h₀.size) :
    ∀ (specs done : List IndexSpec) (h : Heap), Built tables h₀ T done h → (mapNames (done ++ specs)).Nodup →
      (∀ s ∈ specs, ∀ s' ∈ done ++ specs, s.table ≠ s'.mapName) → (∀ s ∈ specs, ∃ rs, Rounds tables h₀ T s rs) →
        ∃ h₁, Built tables h₀ T (done ++ specs) h₁ ∧ ∀ ss h' w, Runs ρ h₁ (.block ss) h' w →
          Runs ρ h (.block (specs.flatMap indexStats ++ ss)) h' w
  | [], done, h, hbuilt, _, _, _ => ⟨h, by simpa using hbuilt, fun ss h' w hs => hs⟩
  | spec :: specs, done, h, hbuilt, hnames, htables, hrounds => by
    obtain ⟨rs, hrs⟩ := hrounds spec List.mem_cons_self
    have hnew : ∀ s ∈ done, s.mapName ≠ spec.mapName := by
      intro s hs heq
      rw [mapNames, List.map_append, List.nodup_append] at hnames
      exact hnames.2.2 _ (List.mem_map_of_mem hs) _ (List.mem_map_of_mem List.mem_cons_self) heq
    have hstep := hbuilt.index hT₀ hrs hnew
    have hassoc : done ++ [spec] ++ specs = done ++ spec :: specs := by simp
    obtain ⟨h₁, hbuilt₁, hruns⟩ := runs_indexes hT hglobal hT₀ specs (done ++ [spec]) _ hstep
      (by rw [hassoc]; exact hnames) (by rw [hassoc]; exact fun s hs => htables s (List.mem_cons_of_mem _ hs))
      (fun s hs => hrounds s (List.mem_cons_of_mem _ hs))
    rw [hassoc] at hbuilt₁
    refine ⟨h₁, hbuilt₁, fun ss h' w hs => ?_⟩
    rw [List.flatMap_cons, List.append_assoc]
    refine runs_index hT hT₀ hbuilt.toKept (fun s hs => ?_) ?_ hglobal hrs.stored hrs.keys (hruns ss h' w hs)
    · exact htables spec List.mem_cons_self s (List.mem_append_left _ hs)
    · exact htables spec List.mem_cons_self spec (List.mem_append_right _ List.mem_cons_self)

end Maps

/-! ## Tables in front of the maps -/

/-- The nodes of a record that is shown are the fields of its table. -/
theorem field_of_shows {h : Heap} {among : Nat → Prop} {r : Record} {q : Nat} (hr : (r.map (·.name)).Nodup)
    (hshows : Shows h among (recordData r) (.table q)) {n : Node} (hn : n ∈ r) :
    Shows h among n.value.data (h.cell q (.string n.name)) := by
  obtain ⟨q', vs, hq, -, hall, hcell⟩ := shows_fields.1 hshows
  obtain rfl := Value.table.inj hq
  have hnames : ((r.map Node.entry).map (·.1)).Nodup := by
    rw [List.map_map]
    exact hr
  have hvalue := contents_named hall hnames (List.mem_map_of_mem hn)
  rw [hcell]
  exact hvalue

/-- A record that is shown has the keys that it carries. -/
theorem key_of_shows {h : Heap} {among : Nat → Prop} {r : Record} {q : Nat} {name : String} {k : Key}
    (hr : (r.map (·.name)).Nodup) (hshows : Shows h among (recordData r) (.table q)) (hk : r.Carries name k) :
    toKey (h.cell q (.string name)) = some k := by
  obtain ⟨type, text, hmem, hkey⟩ := hk
  have hvalue := field_of_shows hr hshows hmem
  rw [NodeValue.data, shows_scalar] at hvalue
  rw [hvalue, toKey_scalarValue, hkey]

/-- A table that is shown is an array of its records. -/
theorem exists_stored {h₀ : Heap} {T : Nat} {among : Nat → Prop} {t : Table}
    (hshows : Shows h₀ among t.data (h₀.cell T (.string t.name))) (hamong : ∀ a, among a → a < h₀.size ∧ a ≠ T) :
    ∃ qs, Stored h₀ T t.name qs ∧ List.Forall₂ (fun r q => Shows h₀ among (recordData r) (.table q)) t.records qs := by
  obtain ⟨A, vs, htab, hA, hall, hcell⟩ := shows_list.1 hshows
  rw [List.forall₂_map_left_iff] at hall
  obtain ⟨qs, rfl, hqs, hrecord⟩ : ∃ qs, vs = recordArray qs ∧
      List.Forall₂ (fun r q => Shows h₀ among (recordData r) (.table q)) t.records qs ∧ ∀ q ∈ qs, among q := by
    clear hcell hshows
    generalize t.records = records at hall ⊢
    induction hall with
    | nil => exact ⟨[], rfl, .nil, fun q hq => by cases hq⟩
    | cons hr _ ih =>
      obtain ⟨q, -, rfl, hq, -⟩ := shows_fields.1 hr
      obtain ⟨qs, rfl, hqs, hrecord⟩ := ih
      refine ⟨q :: qs, rfl, .cons hr hqs, fun q' hq' => ?_⟩
      rcases List.mem_cons.1 hq' with rfl | hq'
      · exact hq
      · exact hrecord q' hq'
  exact ⟨qs, ⟨⟨A, (hamong A hA).1, (hamong A hA).2, htab, hcell⟩, fun q hq => hamong q (hrecord q hq)⟩, hqs⟩

/-- A table whose records carry keys is ready for the loop. -/
theorem exists_rounds {tables : List Table} {h₀ : Heap} {T : Nat} {among : Nat → Prop} {t : Table} {spec : IndexSpec}
    (ht : t ∈ tables) (hname : t.name = spec.table) (hnodup : ∀ r ∈ t.records, (r.map (·.name)).Nodup)
    (hshows : Shows h₀ among t.data (h₀.cell T (.string t.name))) (hamong : ∀ a, among a → a < h₀.size ∧ a ≠ T)
    (hkeys : ∀ r ∈ t.records, ∃ k, r.Carries spec.key.name k) : ∃ rs, Rounds tables h₀ T spec rs := by
  obtain ⟨qs, hstored, hall⟩ := exists_stored hshows hamong
  obtain ⟨rs, rfl, hfound, hcarries⟩ : ∃ rs : List (Key × Nat), qs = rs.map (·.2) ∧
      (∀ x ∈ rs, toKey (h₀.cell x.2 (.string spec.key.name)) = some x.1) ∧
      List.Forall₂ (fun r x => r.Carries spec.key.name x.1) t.records rs := by
    clear hstored
    generalize t.records = records at hnodup hkeys hall
    induction hall with
    | nil => exact ⟨[], rfl, fun x hx => (by cases hx), .nil⟩
    | @cons r q records qs hr _ ih =>
      obtain ⟨rs, rfl, hfound, hcarries⟩ := ih (fun r' hr' => hnodup r' (List.mem_cons_of_mem r hr'))
        (fun r' hr' => hkeys r' (List.mem_cons_of_mem r hr'))
      obtain ⟨k, hk⟩ := hkeys r List.mem_cons_self
      refine ⟨(k, q) :: rs, rfl, fun x hx => ?_, .cons hk hcarries⟩
      rcases List.mem_cons.1 hx with rfl | hx
      · exact key_of_shows (hnodup r List.mem_cons_self) hr hk
      · exact hfound x hx
  exact ⟨rs, hname ▸ hstored, hfound, t, ht, hname, hcarries⟩

/-! ## What a lookup map is -/

/-- The map has the keys that the records of the table carry, and leads from each to the last record that carries
it. -/
def Resolves (h : Heap) (T : Nat) (t : Table) (spec : IndexSpec) : Prop :=
  ∃ array map, h.cell T (.string t.name) = .table array ∧ h.cell T (.string spec.mapName) = .table map ∧
    (∀ k, h.cell map k ≠ .nil ↔ ∃ r ∈ t.records, r.Carries spec.key.name k) ∧
    ∀ before r after k, t.records = before ++ r :: after → r.Carries spec.key.name k →
      (∀ r' ∈ after, ¬r'.Carries spec.key.name k) →
      h.cell map k = h.cell array (.integer ((1 + before.length : Nat) : Int))

/-- The keys of the rounds are those that records carry. -/
theorem mem_keys_iff {name : String} {records : List Record} {rs : List (Key × Nat)}
    (hnodup : ∀ r ∈ records, (r.map (·.name)).Nodup)
    (h : List.Forall₂ (fun r x => r.Carries name x.1) records rs) (k : Key) :
    k ∈ (mapEntries rs).map Prod.fst ↔ ∃ r ∈ records, r.Carries name k := by
  induction h with
  | nil => simp [mapEntries]
  | @cons r x records rs hr _ ih =>
    have hrest := ih fun r' hr' => hnodup r' (List.mem_cons_of_mem r hr')
    have hfirst : k = x.1 ↔ r.Carries name k :=
      ⟨fun hk => hk ▸ hr, fun hk => carries_unique (hnodup r List.mem_cons_self) hk hr⟩
    rw [mapEntries, List.map_cons, List.map_cons, List.mem_cons, List.exists_mem_cons_iff, ← hfirst, ← hrest]
    rfl

/-- **A map that the rounds fill** leads to the last records. -/
theorem resolves_of_rounds {h : Heap} {T A M : Nat} {t : Table} {spec : IndexSpec} {rs : List (Key × Nat)}
    (hnodup : ∀ r ∈ t.records, (r.map (·.name)).Nodup)
    (hcarries : List.Forall₂ (fun r x => r.Carries spec.key.name x.1) t.records rs)
    (harray : h.cell T (.string t.name) = .table A) (hmap : h.cell T (.string spec.mapName) = .table M)
    (hA : h.cell A = contents (positions 1 (recordArray (rs.map (·.2))))) (hM : h.cell M = contents (mapEntries rs)) :
    Resolves h T t spec := by
  have hvalues : ∀ kv ∈ mapEntries rs, kv.2 ≠ .nil := by
    intro kv hkv
    obtain ⟨x, -, rfl⟩ := List.mem_map.1 hkv
    simp
  refine ⟨A, M, harray, hmap, fun k => ?_, fun before r after k hsplit hk hlast => ?_⟩
  · rw [hM, contents_ne_nil hvalues, mem_keys_iff hnodup hcarries]
  · -- the entries behind that of the record have other keys
    rw [hsplit] at hcarries hnodup
    have hbefore := List.forall₂_take before.length hcarries
    have hrest := List.forall₂_drop before.length hcarries
    rw [List.take_left] at hbefore
    rw [List.drop_left] at hrest
    obtain ⟨⟨k', q⟩, rs₃, hx, hafter, hdrop⟩ := List.forall₂_cons_left_iff.1 hrest
    have hrs : rs = rs.take before.length ++ (k', q) :: rs₃ := by rw [← hdrop, List.take_append_drop]
    generalize rs.take before.length = rs₁ at hbefore hrs
    obtain rfl := carries_unique (hnodup r (by simp)) hk hx
    have hfree : k ∉ (mapEntries rs₃).map Prod.fst := by
      rw [mem_keys_iff (fun r' hr' => hnodup r' (by simp [hr'])) hafter]
      rintro ⟨r', hr', hk'⟩
      exact hlast r' hr' hk'
    have hentries : mapEntries rs = mapEntries rs₁ ++ (k, .table q) :: mapEntries rs₃ := by simp [hrs, mapEntries]
    rw [hM, hA, contents, hentries, writeAll_last hfree, contents, writeAll_positions, hbefore.length_eq]
    simp [hrs, recordArray]

/-! ## Chunks -/

/-- The records of tables that the Lua printer prints name no field twice. -/
theorem nodup_of_luaTables {tables : List Table} (h : (luaTables tables).failure = none) :
    ∀ t ∈ tables, ∀ r ∈ t.records, (r.map (·.name)).Nodup :=
  fun t ht => nodup_of_distinctKeys (refusesRepeats_lua.distinctKeys h t ht)

/-- The tables of a chunk are built first. -/
theorem eval_tables {m : Model} (hnames : ((lua.select m).map (·.name)).Nodup) : ∃ T h₀, T < h₀.size ∧
    eval (fun _ => none) (dataExpr (tablesData m)) .empty = some (.table T, h₀) ∧
    ∀ t ∈ lua.select m, Shows h₀ (fun a => a < h₀.size ∧ a ≠ T) t.data (h₀.cell T (.string t.name)) := by
  have hfields : ∀ f ∈ (lua.select m).map fun t => (some t.name, t.data), Evaluates f.2 := fun f _ => eval_data f.2
  obtain ⟨h₀, vs, heval, -, hnew, hall, hcell⟩ := eval_constructor (fun _ => none) _ hfields .empty
  refine ⟨_, h₀, hnew.2, ?_, fun t ht => ?_⟩
  · rw [tablesData, dataExpr, Data.fold_fields, List.map_map, List.map_map]
    rw [List.map_map] at heval
    exact heval
  · have hentries : List.Forall₂ (fun e v => Shows h₀ (Heap.empty.alloc.Between h₀) e.2 v)
        ((lua.select m).map Table.entry) vs := by
      rw [List.forall₂_map_left_iff] at hall ⊢
      exact hall
    have hentryNames : ((lua.select m).map Table.entry).map (·.1) = (lua.select m).map (·.name) := by
      rw [List.map_map]
      rfl
    have hvalue := contents_named hentries (by rw [hentryNames]; exact hnames) (List.mem_map_of_mem ht)
    have hwritten := written_entries 1 ((lua.select m).map (·.name)) vs
    rw [List.map_map] at hcell hwritten
    rw [hcell]
    rw [hentryNames, ← hwritten] at hvalue
    refine Shows.frame hvalue fun a ha => ⟨⟨ha.2, ?_⟩, rfl⟩
    have := ha.1
    rw [Heap.size_alloc] at this
    omega

/-- The enums are attached in the end, and the tables are returned. -/
theorem runs_enums {ρ : Env} {h : Heap} {T : Nat} (m : Model) (hT : ρ "tab" = some (.table T)) (hTlt : T < h.size) :
    ∃ h', Runs ρ h (.block [.assign (tabVar.field enumNamespace) (dataExpr (enumsData m)), .give tabVar]) h'
        (some (.table T)) ∧
      (∀ a < h.size, a ≠ T → h'.cell a = h.cell a) ∧
      ∀ k, k ≠ .string enumNamespace → h'.cell T k = h.cell T k := by
  obtain ⟨v, h₁, henums, hgrows, -⟩ := eval_data (enumsData m) ρ h
  refine ⟨h₁.write T (.string enumNamespace) v, ?_, fun a ha haT => ?_, fun k hk => ?_⟩
  · exact .assign (eval_name hT) (eval_string ρ h enumNamespace) rfl henums (.give (eval_name hT))
  · rw [Heap.cell_write_of_ne _ haT, hgrows.old a ha]
  · rw [Heap.cell_write_self, Function.update_of_ne hk, hgrows.old T hTlt]

/-- **A chunk** runs to its end and returns a table with all tables and all lookup maps. -/
theorem runs_chunk {m : Model} {specs : List IndexSpec} (hs : lua.Succeeds m specs)
    (hkeys : ∀ spec ∈ specs, ∀ t ∈ lua.select m, t.name = spec.table →
      ∀ r ∈ t.records, ∃ k, r.Carries spec.key.name k) :
    ∃ T h, Runs (fun _ => none) .empty (.block (chunk m specs)) h (some (.table T)) ∧
      (∀ t ∈ lua.select m, Shows h (fun _ => True) t.data (h.cell T (.string t.name))) ∧
      ∀ spec ∈ specs, ∃ t ∈ lua.select m, t.name = spec.table ∧ Resolves h T t spec := by
  have hplan : planIndexes m.descriptors lua.tag ((lua.select m).map (·.name)) = .ok specs := hs.plan
  have hmaps := distinct_of_planIndexes hplan
  have hplanned := planned_of_planIndexes hplan
  have htables := distinct_of_nameClash? hs.names
  have hnodup := nodup_of_luaTables hs.tables
  obtain ⟨T, h₀, hT, heval, hshows⟩ := eval_tables htables.1
  have htab : Function.update (fun _ => none : Env) "tab" (some (.table T)) "tab" = some (.table T) :=
    Function.update_self ..
  -- every map finds its table
  have hrounds : ∀ s ∈ specs, ∃ rs, Rounds (lua.select m) h₀ T s rs := by
    intro s hs
    obtain ⟨t, ht, hname⟩ := List.mem_map.1 (hplanned s hs).emitted
    exact exists_rounds ht hname (hnodup t ht) (hshows t ht) (fun a ha => ha) (hkeys s hs t ht hname)
  obtain ⟨h₁, hbuilt, hruns⟩ := runs_indexes htab (by rw [Function.update_of_ne (by decide)]) hT specs [] h₀
    (built_nil _ h₀ T) hmaps.1 (table_ne_mapName hplan) hrounds
  rw [List.nil_append] at hbuilt
  have hsize := hbuilt.size
  obtain ⟨h₂, henums, hcell, htabCell⟩ := runs_enums m htab (by omega : T < h₁.size)
  -- neither the maps nor the enums touch the tables
  have hold : ∀ a < h₀.size, a ≠ T → h₂.cell a = h₀.cell a := by
    intro a ha haT
    rw [hcell a (by omega) haT, hbuilt.old a ha haT]
  have htable : ∀ t ∈ lua.select m, h₂.cell T (.string t.name) = h₀.cell T (.string t.name) := by
    intro t ht
    have hmem : t.name ∈ (lua.select m).map (·.name) := List.mem_map_of_mem ht
    rw [htabCell _ fun heq => htables.2 t.name hmem (by simp [Key.string.inj heq])]
    refine hbuilt.tab _ fun s hs heq => hmaps.2 s.mapName (List.mem_map_of_mem hs) ?_
    rw [← Key.string.inj heq]
    exact List.mem_cons_of_mem _ hmem
  refine ⟨T, h₂, ?_, fun t ht => ?_, fun spec hspec => ?_⟩
  · rw [chunk, bodyStats, List.append_assoc, List.append_assoc]
    exact .declare heval (hruns _ _ _ henums)
  · rw [htable t ht]
    exact (hshows t ht).frame fun a ha => ⟨trivial, hold a ha.1 ha.2⟩
  · obtain ⟨M, rs, hrs, hM, hMlt, hmap, hmapCell⟩ := hbuilt.map spec hspec
    obtain ⟨A, hA, hAT, harray, harrayCell⟩ := hrs.stored.array
    obtain ⟨t, ht, htname, hcarries⟩ := hrs.carries
    refine ⟨t, ht, htname, resolves_of_rounds (hnodup t ht) hcarries ?_ ?_ (by rw [hold A hA hAT, harrayCell])
      (by rw [hcell M hMlt (by omega), hmapCell])⟩
    · rw [htable t ht, htname, harray]
    · refine (htabCell _ fun heq => hmaps.2 spec.mapName (List.mem_map_of_mem hspec) ?_).trans hmap
      simp [Key.string.inj heq]

/-- The chunk has one result: it returns the table at that address, with that heap. -/
def Returns (ss : List Stat) (T : Nat) (h : Heap) : Prop :=
  ∀ h' w, Runs (fun _ => none) .empty (.block ss) h' w ↔ h' = h ∧ w = some (.table T)

theorem returns_of_runs {ss : List Stat} {T : Nat} {h : Heap}
    (hruns : Runs (fun _ => none) .empty (.block ss) h (some (.table T))) : Returns ss T h := by
  intro h' w
  constructor
  · intro hr
    obtain ⟨hheap, hvalue⟩ := hruns.unique hr
    exact ⟨hheap.symm, hvalue.symm⟩
  · rintro ⟨rfl, rfl⟩
    exact hruns

/-- **Lookup maps lead to the last record.** The output of a run that succeeds, read back and run, returns a table with
all tables that were printed and all lookup maps that were planned, if every record of a table with lookup maps carries
their keys. -/
theorem resolves_lua {x : Export} {o : Output} (h : lua.print x = .ok o) (hv : OneLine x.version)
    (hnames : ∀ specs, lua.plan x.model = .ok specs → ∀ spec ∈ specs, OnOneLine spec)
    (hp : ∀ t ∈ lua.select x.model, PlainScalars IsLiteral t.scalars)
    (hkeys : ∀ specs, lua.plan x.model = .ok specs → ∀ spec ∈ specs, ∀ t ∈ lua.select x.model, t.name = spec.table →
      ∀ r ∈ t.records, ∃ k, r.Carries spec.key.name k) :
    ∃ specs ss T heap, lua.plan x.model = .ok specs ∧ parse o.content = some ss ∧ Returns ss T heap ∧
      (∀ t ∈ lua.select x.model, Shows heap (fun _ => True) t.data (heap.cell T (.string t.name))) ∧
      ∀ spec ∈ specs, ∃ t ∈ lua.select x.model, t.name = spec.table ∧ Resolves heap T t spec := by
  obtain ⟨specs, hs, hread⟩ := parse_of_print h
  obtain ⟨T, heap, hruns, htables, hmaps⟩ := runs_chunk hs (hkeys specs hs.plan)
  have hparse : parse o.content = some (chunk x.model specs) := hread hv (hnames specs hs.plan) hp
  exact ⟨specs, chunk x.model specs, T, heap, hs.plan, hparse, returns_of_runs hruns, htables, hmaps⟩

/-- The maps of the samples. -/
theorem resolves_lua_samples : ∃ o specs ss T heap,
    lua.print ⟨Samples.version, Samples.sampleModel⟩ = .ok o ∧ lua.plan Samples.sampleModel = .ok specs ∧
      parse o.content = some ss ∧ Returns ss T heap ∧ specs ≠ [] ∧
      ∀ spec ∈ specs, ∃ t ∈ lua.select Samples.sampleModel, t.name = spec.table ∧ Resolves heap T t spec := by
  have hprint : ∃ o, lua.print ⟨Samples.version, Samples.sampleModel⟩ = .ok o := ⟨_, rfl⟩
  obtain ⟨o, ho⟩ := hprint
  have hkeys : ∀ specs, lua.plan Samples.sampleModel = .ok specs → ∀ spec ∈ specs,
      ∀ t ∈ lua.select Samples.sampleModel, t.name = spec.table → ∀ r ∈ t.records,
        ∃ k, r.Carries spec.key.name k := by
    intro specs hspecs
    cases plan_sampleModel.symm.trans hspecs
    decide
  obtain ⟨specs, ss, T, heap, hspecs, hparse, hreturns, -, hmaps⟩ :=
    resolves_lua ho (by decide) (fun _ => onOneLine_sampleModel) plainScalars_sampleModel hkeys
  refine ⟨o, specs, ss, T, heap, ho, hspecs, hparse, hreturns, ?_, hmaps⟩
  cases plan_sampleModel.symm.trans hspecs
  simp

/-! ## Numbers that are no numbers -/

/-- Items with prices, indexed by their `id`. -/
def pricedItems (prices : List (String × String)) : Model where
  descriptors := [
    { name := "Item", kind := .struct, fields := [Samples.scalarField "id" .int32, Samples.scalarField "price" .float],
      indexes := ["id"] },
    { name := "Config", kind := .struct, usage := .combineStruct, fields := [.linked "Item" "Item"] }]
  tables := [{
    name := "Item",
    records := prices.map fun p => [Samples.scalarNode "id" .int32 p.1, Samples.scalarNode "price" .float p.2] }]

/-- One item whose price is no number: it closes the record and opens another. -/
def twofoldItem : Model :=
  pricedItems [("1", "0 \x7d,\n\t\t\x7b id = 2, price = 0")]

/-- The lookup map of the items. -/
def itemById : IndexSpec :=
  ⟨"Item", Samples.scalarField "id" .int32⟩

/-- Numbers are written as they were loaded. The output of one item with such a price is the output of two items, and
the lookup map has a key that no record carries. -/
theorem not_resolves_twofoldItem : ∃ o t ss T heap, lua.print ⟨Samples.version, twofoldItem⟩ = .ok o ∧
    lua.plan twofoldItem = .ok [itemById] ∧ lua.select twofoldItem = [t] ∧ t.name = itemById.table ∧
    (∀ r ∈ t.records, ∃ k, r.Carries itemById.key.name k) ∧ parse o.content = some ss ∧ Returns ss T heap ∧
    ¬Resolves heap T t itemById := by
  have hprint : ∃ o, lua.print ⟨Samples.version, pricedItems [("1", "0"), ("2", "0")]⟩ = .ok o := ⟨_, rfl⟩
  obtain ⟨o, ho⟩ := hprint
  have hsame : lua.print ⟨Samples.version, twofoldItem⟩ =
      lua.print ⟨Samples.version, pricedItems [("1", "0"), ("2", "0")]⟩ := by decide +kernel
  obtain ⟨specs, hs, hread⟩ := parse_of_print ho
  have hplan : lua.plan (pricedItems [("1", "0"), ("2", "0")]) = .ok [itemById] := by decide
  obtain rfl : [itemById] = specs := by
    have hspecs := hs.plan
    rw [hplan] at hspecs
    exact Except.ok.inj hspecs
  have hkeys : ∀ spec ∈ [itemById], ∀ t ∈ lua.select (pricedItems [("1", "0"), ("2", "0")]), t.name = spec.table →
      ∀ r ∈ t.records, ∃ k, r.Carries spec.key.name k := by decide
  obtain ⟨T, heap, hruns, -, hmaps⟩ := runs_chunk hs hkeys
  refine ⟨o, _, _, T, heap, by rw [hsame, ho], by decide, rfl, rfl, by decide, ?_, returns_of_runs hruns, ?_⟩
  · refine hread (by decide) ?_ ?_
    · unfold OnOneLine
      decide
    · unfold PlainScalars
      decide
  · -- the second item is in the map, but not in the table
    rintro ⟨-, map, -, hmap, hdomain, -⟩
    obtain ⟨t, ht, -, -, map', -, hmap', hdomain', -⟩ := hmaps itemById List.mem_cons_self
    obtain rfl : map = map' := by
      rw [hmap] at hmap'
      exact Value.table.inj hmap'
    have hsecond : ∃ r ∈ t.records, r.Carries "id" (.integer 2) := by
      obtain rfl := List.mem_singleton.1 ht
      exact ⟨_, .tail _ (.head _), .int32, "2", by decide, by decide⟩
    obtain ⟨r, hr, type, text, hnode, hkey⟩ := (hdomain _).1 ((hdomain' _).2 hsecond)
    obtain rfl := List.mem_singleton.1 hr
    obtain ⟨rfl, rfl⟩ : type = .int32 ∧ text = "1" := by
      simpa [Samples.scalarNode, itemById, Samples.scalarField, FieldDescriptor.plain] using hnode
    revert hkey
    decide

end Lua

end TableExport
