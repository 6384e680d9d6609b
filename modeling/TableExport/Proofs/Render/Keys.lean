import TableExport.Proofs.Render.Data
import TableExport.Proofs.Render.Repeats

/-!
# Keys that occur once

Data have distinct keys if no two named values at one place bear the same name. Tables have distinct keys if and only if
no field of them is repeated; enums have distinct keys if and only if their declarations do.

- `Data.DistinctKeys` says that data have distinct keys.
- `firstRepeated?_eq_none` is about tables, `distinctKeys_enums` about enums.
-/

namespace TableExport

/-- No two named values at one place have the same name. -/
inductive Data.DistinctKeys : Data → Prop
  | scalar (type : ScalarType) (text : String) : DistinctKeys (.scalar type text)
  | list {ds : List Data} : (∀ d ∈ ds, d.DistinctKeys) → DistinctKeys (.list ds)
  | fields {es : List (String × Data)} : (es.map Prod.fst).Nodup → (∀ e ∈ es, e.2.DistinctKeys) →
      DistinctKeys (.fields es)

namespace Data

theorem distinctKeys_list {ds : List Data} : (list ds).DistinctKeys ↔ ∀ d ∈ ds, d.DistinctKeys := by
  constructor
  · rintro (_ | hds)
    exact hds
  · exact .list

theorem distinctKeys_fields {es : List (String × Data)} :
    (fields es).DistinctKeys ↔ (es.map Prod.fst).Nodup ∧ ∀ e ∈ es, e.2.DistinctKeys := by
  constructor
  · rintro (_ | _ | ⟨hnodup, hes⟩)
    exact ⟨hnodup, hes⟩
  · rintro ⟨hnodup, hes⟩
    exact .fields hnodup hes

end Data

open TableExport.Render

/-! ## Tables -/

theorem distinctKeys_instance {i : Instance} : (instanceData i).DistinctKeys ↔ (i.map (·.name)).Nodup := by
  rw [instanceData, Data.distinctKeys_fields, List.map_map]
  constructor
  · exact fun h => h.1
  · refine fun h => ⟨h, fun e he => ?_⟩
    obtain ⟨l, -, rfl⟩ := List.mem_map.1 he
    exact .scalar ..

theorem distinctKeys_value {v : NodeValue} :
    v.data.DistinctKeys ↔ ∀ i ∈ instances v, (i.map (·.name)).Nodup := by
  cases v with
  | scalar type text => simp [NodeValue.data, instances, Data.DistinctKeys.scalar]
  | array type texts => simp [NodeValue.data, instances, Data.distinctKeys_list, Data.DistinctKeys.scalar]
  | struct i => simp [NodeValue.data, instances, distinctKeys_instance]
  | structArray is => simp [NodeValue.data, instances, Data.distinctKeys_list, distinctKeys_instance]

theorem distinctKeys_record {r : Record} : (recordData r).DistinctKeys ↔
    (r.map (·.name)).Nodup ∧ ∀ n ∈ r, n.value.data.DistinctKeys := by
  rw [recordData, Data.distinctKeys_fields, List.map_map, List.forall_mem_map]
  rfl

/-- The elements of a list are there without those in front of them. -/
theorem forall_withFront {α : Type} {P : α → Prop} {as : List α} :
    (∀ x ∈ withFront as, P x.2) ↔ ∀ a ∈ as, P a := by
  rw [← List.forall_mem_map (f := Prod.snd), map_snd_withFront]

theorem forall_repeats {α : Type} {name : α → String} {as : List α} :
    (∀ x ∈ withFront as, repeats name [] x = false) ↔ (as.map name).Nodup := by
  have hfirst : firstRepeat? name [] as = none ↔ Distinct [] (as.map name) := firstRepeat?_eq_none
  rw [firstRepeat?, Option.map_eq_none_iff, List.find?_eq_none, distinct_iff_nodup] at hfirst
  simpa using hfirst

theorem valueFault?_eq_none {v : NodeValue} : valueFault? v = none ↔ v.data.DistinctKeys := by
  rw [valueFault?, List.findSome?_eq_none_iff, distinctKeys_value]
  simp [firstRepeat?_eq_none, distinct_iff_nodup]

/-- Nothing is repeated in a record if and only if its keys are distinct. -/
theorem firstRepeated?_recordPlaces {table : String} {record : Nat} {r : Record} :
    firstRepeated? (recordPlaces table record r) = none ↔ (recordData r).DistinctKeys := by
  have hnode (x : List Node × Node) : (∀ q ∈ nodePlaces table record x, ¬ q.isRepeated = true) ↔
      repeats (·.name) [] x = false ∧ x.2.value.data.DistinctKeys := by
    have hrefusal := refusal_nodePlaces table record x
    rw [← List.find?_eq_none, ← firstRepeated?, ← Option.map_eq_none_iff (f := Place.refusal), hrefusal,
      Option.map_eq_none_iff, ← valueFault?_eq_none, nodeFault?]
    cases repeats (·.name) [] x <;> simp
  have hplaces : firstRepeated? (recordPlaces table record r) = none ↔
      ∀ x ∈ withFront r, repeats (·.name) [] x = false ∧ x.2.value.data.DistinctKeys := by
    rw [firstRepeated?, List.find?_eq_none, recordPlaces, List.forall_mem_flatMap]
    exact forall₂_congr fun x _ => hnode x
  have hvalues : (∀ x ∈ withFront r, x.2.value.data.DistinctKeys) ↔ ∀ n ∈ r, n.value.data.DistinctKeys :=
    forall_withFront (P := fun n : Node => n.value.data.DistinctKeys)
  -- what is left is a conjunction under the quantifier on one side and outside on the other
  rw [hplaces, distinctKeys_record, ← forall_repeats, ← hvalues]
  exact ⟨fun h => ⟨fun x hx => (h x hx).1, fun x hx => (h x hx).2⟩, fun h x hx => ⟨h.1 x hx, h.2 x hx⟩⟩

theorem firstRepeated?_tablePlaces {t : Table} : firstRepeated? (tablePlaces t) = none ↔ t.data.DistinctKeys := by
  have hrecords : (∀ x ∈ t.records.zipIdx, (recordData x.1).DistinctKeys) ↔
      ∀ r ∈ t.records, (recordData r).DistinctKeys := by
    rw [← List.forall_mem_map (f := Prod.fst) (P := fun r => (recordData r).DistinctKeys), List.zipIdx_map_fst]
  rw [Table.data, Data.distinctKeys_list, List.forall_mem_map, ← hrecords, firstRepeated?, tablePlaces,
    List.find?_eq_none, List.forall_mem_flatMap]
  refine forall₂_congr fun x _ => ?_
  rw [← firstRepeated?_recordPlaces, firstRepeated?, List.find?_eq_none]

/-- **Nothing is repeated in tables** if and only if their keys are distinct. -/
theorem firstRepeated?_eq_none {tables : List Table} :
    firstRepeated? (tables.flatMap tablePlaces) = none ↔ ∀ t ∈ tables, t.data.DistinctKeys := by
  rw [firstRepeated?, List.find?_eq_none, List.forall_mem_flatMap]
  refine forall₂_congr fun t _ => ?_
  rw [← firstRepeated?_tablePlaces, firstRepeated?, List.find?_eq_none]

/-- The records of a table with distinct keys name no field twice. -/
theorem nodup_of_distinctKeys {t : Table} (h : t.data.DistinctKeys) : ∀ r ∈ t.records, (r.map (·.name)).Nodup := by
  intro r hr
  rw [Table.data, Data.distinctKeys_list] at h
  exact (distinctKeys_record.1 (h _ (List.mem_map_of_mem hr))).1

/-! ## Enums -/

/-- The enums of a declaration have distinct names, and so have the members of each. -/
def DistinctEnums (ds : List Descriptor) : Prop :=
  ((enums ds).map (·.name)).Nodup ∧ ∀ d ∈ enums ds, (d.fields.map (·.name)).Nodup

instance (ds : List Descriptor) : Decidable (DistinctEnums ds) :=
  inferInstanceAs (Decidable (((enums ds).map (·.name)).Nodup ∧ ∀ d ∈ enums ds, (d.fields.map (·.name)).Nodup))

theorem distinctKeys_enum {d : Descriptor} : (enumData d).DistinctKeys ↔ (d.fields.map (·.name)).Nodup := by
  rw [enumData, Data.distinctKeys_fields, List.map_map]
  constructor
  · exact fun h => h.1
  · refine fun h => ⟨h, fun e he => ?_⟩
    obtain ⟨f, -, rfl⟩ := List.mem_map.1 he
    exact .scalar ..

/-- **The data of enums** have distinct keys if and only if their declarations do. -/
theorem distinctKeys_enums {ds : List Descriptor} :
    (Data.fields ((enums ds).map Descriptor.enumEntry)).DistinctKeys ↔ DistinctEnums ds := by
  rw [Data.distinctKeys_fields, List.map_map, List.forall_mem_map]
  refine and_congr Iff.rfl (forall₂_congr fun d _ => distinctKeys_enum)

end TableExport
