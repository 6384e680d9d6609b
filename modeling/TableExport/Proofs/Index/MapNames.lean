import TableExport.Proofs.Index.Plan

/-!
# The names of lookup maps

The name of a map is made of a table and a key, and different keys can give the same name. Lookup maps that are planned
have different names all the same, so keys that would give the same name are never planned together.

- `linkedKeys` lists the keys by which the table of a field is indexed.
- `mapNames_eq` lists the names of all maps from the combine structs.
- `clashFree_of_planIndexes` says which keys and tables there cannot be next to each other.
-/

namespace TableExport

open TableExport.Text

section Names

variable (ds : List Descriptor) (tag : String) (emitted : List String)

/-- The keys by which the table of a field of a combine struct is indexed. -/
def linkedKeys (f : FieldDescriptor) : List String :=
  match f.link with
  | none => []
  | some link =>
    match descriptor? ds link with
    | none => []
    | some d => if !d.tags.admits tag || d.indexes.isEmpty || !emitted.contains f.name then [] else d.indexes

/-- The name of the map for a key of the table of a field. -/
def keyMapName (f : FieldDescriptor) (key : String) : String :=
  f.name ++ "By" ++ pascalCase key

/-- No two of the maps that the combine structs ask for have the same name, and no emitted table has one of the names. -/
structure ClashFree : Prop where
  /-- The keys of one descriptor differ in their form. -/
  keys : ∀ c ∈ combineStructs ds, ∀ f ∈ c.fields, ((linkedKeys ds tag emitted f).map pascalCase).Nodup
  /-- No emitted table and no namespace has the name of a map. -/
  tables : ∀ c ∈ combineStructs ds, ∀ f ∈ c.fields, ∀ key ∈ linkedKeys ds tag emitted f,
    keyMapName f key ∉ enumNamespace :: emitted
  /-- Two fields of a struct index the same table only by keys that differ in their form. -/
  fields : ∀ c ∈ combineStructs ds, c.fields.Pairwise fun f f' => f.name = f'.name →
    ∀ key ∈ linkedKeys ds tag emitted f, ∀ key' ∈ linkedKeys ds tag emitted f', pascalCase key ≠ pascalCase key'
  /-- Two structs index the same table only by keys that differ in their form. -/
  structs : (combineStructs ds).Pairwise fun c c' => ∀ f ∈ c.fields, ∀ f' ∈ c'.fields, f.name = f'.name →
    ∀ key ∈ linkedKeys ds tag emitted f, ∀ key' ∈ linkedKeys ds tag emitted f', pascalCase key ≠ pascalCase key'

end Names

/-- The name of the map that is asked for. -/
def Request.mapName? : Request → Option String
  | .map spec => some spec.mapName
  | .fault _ => none

variable {ds : List Descriptor} {tag : String} {emitted : List String}

/-- If the requests of a field are for maps, there is one for each key. -/
theorem mapNames_fieldRequests {owner : String} {f : FieldDescriptor}
    (h : ∀ r ∈ fieldRequests ds tag emitted owner f, ∃ spec, r = .map spec) :
    (fieldRequests ds tag emitted owner f).filterMap Request.mapName? =
      (linkedKeys ds tag emitted f).map (keyMapName f) := by
  revert h
  unfold fieldRequests linkedKeys
  cases f.link with
  | none => exact fun _ => rfl
  | some link =>
    cases hd : descriptor? ds link with
    | none =>
      simp only [hd]
      intro h
      obtain ⟨spec, hspec⟩ := h _ (List.mem_singleton_self _)
      cases hspec
    | some d =>
      simp only [hd]
      split
      · exact fun _ => rfl
      · intro h
        have hkey : ∀ key ∈ d.indexes, (keyRequest d f.name (key, d.field? key)).mapName? = some (keyMapName f key) := by
          intro key hkey
          obtain ⟨spec, hspec⟩ := h _ (List.mem_map_of_mem (List.mem_map_of_mem hkey))
          cases hfield : d.field? key with
          | none =>
            rw [hfield] at hspec
            cases hspec
          | some field =>
            have hname : field.name = key := by simpa using List.find?_some hfield
            simp [keyRequest, Request.mapName?, IndexSpec.mapName, keyMapName, hname]
        rw [Descriptor.indexFields, List.map_map, List.filterMap_map]
        exact (List.filterMap_congr hkey).trans (congrFun List.filterMap_eq_map' d.indexes)

section Plan

variable {specs : List IndexSpec} (h : planIndexes ds tag emitted = .ok specs)
include h

/-- **The names of the maps** come from the keys of the combine structs, in order. -/
theorem mapNames_eq : mapNames specs = (combineStructs ds).flatMap fun c => c.fields.flatMap fun f =>
    (linkedKeys ds tag emitted f).map (keyMapName f) := by
  have hrequests := (planIndexes_eq_ok.1 h).1
  have hnames : mapNames specs = (requests ds tag emitted).filterMap Request.mapName? := by
    rw [hrequests, List.filterMap_map]
    exact (congrFun List.filterMap_eq_map' specs).symm
  rw [hnames, requests, List.filterMap_flatMap]
  refine List.flatMap_congr fun c hc => ?_
  rw [List.filterMap_flatMap]
  refine List.flatMap_congr fun f hf => mapNames_fieldRequests fun r hr => ?_
  have hmem : r ∈ requests ds tag emitted := List.mem_flatMap.2 ⟨c, hc, List.mem_flatMap.2 ⟨f, hf, hr⟩⟩
  rw [hrequests] at hmem
  obtain ⟨spec, -, rfl⟩ := List.mem_map.1 hmem
  exact ⟨spec, rfl⟩

theorem clashFree_of_planIndexes : ClashFree ds tag emitted := by
  obtain ⟨hnodup, hfree⟩ := distinct_of_planIndexes h
  rw [mapNames_eq h, List.nodup_flatMap] at hnodup
  obtain ⟨hstructs, hpairs⟩ := hnodup
  -- two keys of the same form give the same name for the same table
  have hname {f f' : FieldDescriptor} {key key' : String} (hf : f.name = f'.name)
      (hkey : pascalCase key = pascalCase key') : keyMapName f key = keyMapName f' key' := by
    rw [keyMapName, keyMapName, hf, hkey]
  refine ⟨fun c hc f hf => ?_, fun c hc f hf key hkey => ?_, fun c hc => ?_, ?_⟩
  · have hfield := (List.nodup_flatMap.1 (hstructs c hc)).1 f hf
    have hforms : (linkedKeys ds tag emitted f).map (keyMapName f) =
        ((linkedKeys ds tag emitted f).map pascalCase).map (f.name ++ "By" ++ ·) := by
      rw [List.map_map]
      rfl
    rw [hforms] at hfield
    exact hfield.of_map
  · refine hfree _ ?_
    rw [mapNames_eq h]
    exact List.mem_flatMap.2 ⟨c, hc, List.mem_flatMap.2 ⟨f, hf, List.mem_map_of_mem hkey⟩⟩
  · refine (List.nodup_flatMap.1 (hstructs c hc)).2.imp fun hdisjoint hf key hkey key' hkey' heq => ?_
    refine hdisjoint (List.mem_map_of_mem hkey) ?_
    rw [hname hf heq]
    exact List.mem_map_of_mem hkey'
  · refine hpairs.imp fun hdisjoint f hf f' hf' hff key hkey key' hkey' heq => ?_
    refine hdisjoint (List.mem_flatMap.2 ⟨f, hf, List.mem_map_of_mem hkey⟩) ?_
    rw [hname hff heq]
    exact List.mem_flatMap.2 ⟨f', hf', List.mem_map_of_mem hkey'⟩

end Plan

end TableExport
