import TableExport.Index.Plan
import TableExport.Proofs.Outcome
import TableExport.Proofs.Render.Distinct

/-!
# Planned lookup maps

What the combine structs ask for can be listed before any name is compared. The planner then goes through the list once:
it grants maps as long as their names are free, and stops at the first request that it cannot grant.

- `requests` is the list, `grant` goes through it, and `planIndexes_eq` says that the planner does nothing else.
- `planIndexes_eq_ok` says which maps there are if every request is granted.
- `planned_of_planIndexes` says where a map comes from: a field of a combine struct that stands for an emitted table,
  and a key of the descriptor that the field links.
-/

namespace TableExport

open TableExport.Index TableExport.Text

/-- The names of lookup maps. -/
def mapNames (specs : List IndexSpec) : List String :=
  specs.map IndexSpec.mapName

/-! ## Requests -/

/-- What a combine struct asks for. -/
inductive Request where
  | map (spec : IndexSpec)
  /-- A map that there cannot be. -/
  | fault (reason : RenderError)
deriving DecidableEq

/-- The request for a key of a descriptor. -/
def keyRequest (d : Descriptor) (table : String) : String × Option FieldDescriptor → Request
  | (key, none) => .fault (.unknownIndexKey d.name key)
  | (_, some field) => .map ⟨table, field⟩

section Requests

variable (ds : List Descriptor) (tag : String) (emitted : List String)

/-- The requests of a field of a combine struct. -/
def fieldRequests (owner : String) (f : FieldDescriptor) : List Request :=
  match f.link with
  | none => []
  | some link =>
    match descriptor? ds link with
    | none => [.fault (.unknownDescriptor owner f.name link)]
    | some d =>
      if !d.tags.admits tag || d.indexes.isEmpty || !emitted.contains f.name then []
      else d.indexFields.map (keyRequest d f.name)

/-- The requests of all combine structs, in the order of the planner. -/
def requests : List Request :=
  (combineStructs ds).flatMap fun c => c.fields.flatMap (fieldRequests ds tag emitted c.name)

end Requests

/-- Grants requests for maps whose names are free when those names are taken; and the names that are taken afterwards. -/
def grant : List String → List Request → Except RenderError (List IndexSpec × List String)
  | taken, [] => .ok ([], taken)
  | _, .fault reason :: _ => .error reason
  | taken, .map spec :: rs =>
    if taken.contains spec.mapName then .error (.nameClash spec.mapName (.index spec.table spec.key.name))
    else do
      let (specs, taken) ← grant (spec.mapName :: taken) rs
      return (spec :: specs, taken)

/-- Requests are granted in parts. -/
theorem grant_append {rs rs' : List Request} : ∀ {taken : List String}, grant taken (rs ++ rs') = (do
    let (specs, taken) ← grant taken rs
    let (rest, taken) ← grant taken rs'
    return (specs ++ rest, taken)) := by
  induction rs with
  | nil =>
    intro taken
    show grant taken rs' = (grant taken rs' >>= fun x => pure ([] ++ x.1, x.2))
    cases grant taken rs' <;> rfl
  | cons r rs ih =>
    intro taken
    cases r with
    | fault reason => rfl
    | map spec =>
      rw [List.cons_append, grant, grant]
      split
      · rfl
      · rw [ih]
        cases grant (spec.mapName :: taken) rs with
        | error e => rfl
        | ok first =>
          simp only [bind, Except.bind, pure, Except.pure]
          cases grant first.2 rs' <;> rfl

/-- A request for a map is granted in front of others if and only if its name is not taken. -/
theorem grant_map_eq_ok {spec : IndexSpec} {rs : List Request} {taken taken' : List String} {specs : List IndexSpec} :
    grant taken (.map spec :: rs) = .ok (specs, taken') ↔ spec.mapName ∉ taken ∧
      ∃ rest, grant (spec.mapName :: taken) rs = .ok (rest, taken') ∧ spec :: rest = specs := by
  rw [grant]
  by_cases htaken : spec.mapName ∈ taken
  · simp [htaken]
  · rw [if_neg (by simpa using htaken), bind_eq_ok]
    constructor
    · rintro ⟨⟨rest, taken₁⟩, hrest, h⟩
      simp only [pure_eq_ok, Prod.mk.injEq] at h
      obtain ⟨rfl, rfl⟩ := h
      exact ⟨htaken, rest, hrest, rfl⟩
    · rintro ⟨-, rest, hrest, rfl⟩
      exact ⟨(rest, taken'), hrest, rfl⟩

/-- Every request is granted if and only if it asks for a map, with a name that is not taken by then. -/
theorem grant_eq_ok {rs : List Request} : ∀ {taken taken' : List String} {specs : List IndexSpec},
    grant taken rs = .ok (specs, taken') ↔
      rs = specs.map .map ∧ Distinct taken (mapNames specs) ∧ taken' = (mapNames specs).reverse ++ taken := by
  induction rs with
  | nil =>
    intro taken taken' specs
    simp only [grant, Except.ok.injEq, Prod.mk.injEq]
    constructor
    · rintro ⟨rfl, rfl⟩
      exact ⟨rfl, distinct_nil, rfl⟩
    · rintro ⟨hspecs, -, rfl⟩
      obtain rfl := List.map_eq_nil_iff.1 hspecs.symm
      exact ⟨rfl, rfl⟩
  | cons r rs ih =>
    intro taken taken' specs
    cases r with
    | fault reason =>
      refine iff_of_false (by simp [grant]) ?_
      rintro ⟨hspecs, -⟩
      cases specs <;> simp at hspecs
    | map spec =>
      rw [grant_map_eq_ok]
      constructor
      · rintro ⟨htaken, rest, hrest, rfl⟩
        obtain ⟨rfl, hdistinct, rfl⟩ := ih.1 hrest
        exact ⟨rfl, distinct_cons.2 ⟨htaken, hdistinct⟩, by simp [mapNames]⟩
      · -- the first map of the plan is the one that is asked for first
        rintro ⟨hspecs, hdistinct, rfl⟩
        cases specs with
        | nil => cases hspecs
        | cons s rest =>
          simp only [List.map_cons, List.cons.injEq, Request.map.injEq] at hspecs
          obtain ⟨rfl, hrest⟩ := hspecs
          obtain ⟨htaken, hdistinct⟩ := distinct_cons.1 hdistinct
          exact ⟨htaken, rest, ih.2 ⟨hrest, hdistinct, by simp [mapNames]⟩, rfl⟩

/-! ## The planner -/

variable {ds : List Descriptor} {tag : String} {emitted : List String}

theorem planKeys_eq {d : Descriptor} {table : String} {keys : List (String × Option FieldDescriptor)} :
    ∀ {taken : List String}, planKeys d table taken keys = grant taken (keys.map (keyRequest d table)) := by
  induction keys with
  | nil => exact fun {taken} => rfl
  | cons k keys ih =>
    intro taken
    obtain ⟨key, field⟩ := k
    cases field with
    | none => rfl
    | some field =>
      simp only [planKeys, List.map_cons, keyRequest, grant, ih]

theorem planFields_eq {owner : String} {fs : List FieldDescriptor} : ∀ {taken : List String},
    planFields ds tag emitted owner taken fs = grant taken (fs.flatMap (fieldRequests ds tag emitted owner)) := by
  induction fs with
  | nil => exact fun {taken} => rfl
  | cons f fs ih =>
    intro taken
    rw [planFields, List.flatMap_cons, fieldRequests]
    cases f.link with
    | none => exact ih
    | some link =>
      cases hd : descriptor? ds link with
      | none => simp [hd, grant]
      | some d =>
        simp only [hd]
        split
        · exact ih
        · simp only [grant_append, planKeys_eq, ih]

theorem planStructs_eq {cs : List Descriptor} : ∀ {taken : List String}, planStructs ds tag emitted taken cs =
    grant taken (cs.flatMap fun c => c.fields.flatMap (fieldRequests ds tag emitted c.name)) := by
  induction cs with
  | nil => exact fun {taken} => rfl
  | cons c cs ih =>
    intro taken
    simp only [planStructs, List.flatMap_cons, grant_append, planFields_eq, ih]

/-- **The planner** grants the requests of the combine structs. -/
theorem planIndexes_eq : planIndexes ds tag emitted =
    (grant (enumNamespace :: emitted) (requests ds tag emitted)).map Prod.fst := by
  rw [planIndexes, planStructs_eq, requests]
  cases grant (enumNamespace :: emitted) _ <;> rfl

/-- **The lookup maps are planned** if and only if they are what is asked for, and their names are distinct and taken by
no emitted table and no namespace. -/
theorem planIndexes_eq_ok {specs : List IndexSpec} : planIndexes ds tag emitted = .ok specs ↔
    requests ds tag emitted = specs.map .map ∧ Distinct (enumNamespace :: emitted) (mapNames specs) := by
  rw [planIndexes_eq]
  constructor
  · intro h
    cases hgrant : grant (enumNamespace :: emitted) (requests ds tag emitted) with
    | error e => simp [hgrant, Except.map] at h
    | ok granted =>
      simp only [hgrant, Except.map, Except.ok.injEq] at h
      subst h
      obtain ⟨hrequests, hdistinct, -⟩ := grant_eq_ok.1 hgrant
      exact ⟨hrequests, hdistinct⟩
  · rintro ⟨hrequests, hdistinct⟩
    rw [grant_eq_ok.2 ⟨hrequests, hdistinct, rfl⟩]
    rfl

/-! ## Where maps come from -/

/-- A map comes from a key of a descriptor that an emitted table links. -/
structure Planned (ds : List Descriptor) (tag : String) (emitted : List String) (cs : List Descriptor)
    (spec : IndexSpec) : Prop where
  emitted : spec.table ∈ emitted
  linked : ∃ c ∈ cs, ∃ f ∈ c.fields, f.name = spec.table ∧ ∃ link d, f.link = some link ∧
    descriptor? ds link = some d ∧ d.tags.admits tag = true ∧ ∃ key ∈ d.indexes, d.field? key = some spec.key

theorem mem_fieldRequests {owner : String} {f : FieldDescriptor} {spec : IndexSpec}
    (h : .map spec ∈ fieldRequests ds tag emitted owner f) : f.name = spec.table ∧ spec.table ∈ emitted ∧
      ∃ link d, f.link = some link ∧ descriptor? ds link = some d ∧ d.tags.admits tag = true ∧
        ∃ key ∈ d.indexes, d.field? key = some spec.key := by
  unfold fieldRequests at h
  split at h
  · cases h
  rename_i link hlink
  split at h
  · simp at h
  rename_i d hd
  split at h
  · cases h
  rename_i hskip
  simp only [Bool.or_eq_true, Bool.not_eq_true', not_or, Bool.not_eq_false, List.contains_iff_mem] at hskip
  obtain ⟨⟨key, field⟩, hpair, hrequest⟩ := List.mem_map.1 h
  obtain ⟨key', hkey, heq⟩ := List.mem_map.1 hpair
  simp only [Prod.mk.injEq] at heq
  obtain ⟨rfl, hfield⟩ := heq
  cases field with
  | none => cases hrequest
  | some field =>
    cases hrequest
    exact ⟨rfl, hskip.2, link, d, hlink, hd, hskip.1.1, key', hkey, hfield⟩

section Plan

variable {specs : List IndexSpec} (h : planIndexes ds tag emitted = .ok specs)
include h

/-- The names of lookup maps are distinct, and no emitted table and no namespace has one of them. -/
theorem distinct_of_planIndexes : Distinct (enumNamespace :: emitted) (mapNames specs) :=
  (planIndexes_eq_ok.1 h).2

/-- **A lookup map** comes from a combine struct. -/
theorem planned_of_planIndexes : ∀ s ∈ specs, Planned ds tag emitted (combineStructs ds) s := by
  intro s hs
  have hmem : Request.map s ∈ requests ds tag emitted := by
    rw [(planIndexes_eq_ok.1 h).1]
    exact List.mem_map_of_mem hs
  obtain ⟨c, hc, hfields⟩ := List.mem_flatMap.1 hmem
  obtain ⟨f, hf, hrequest⟩ := List.mem_flatMap.1 hfields
  obtain ⟨hname, hemitted, hlinked⟩ := mem_fieldRequests hrequest
  exact ⟨hemitted, c, hc, f, hf, hname, hlinked⟩

/-- No table with a lookup map has the name of a lookup map. -/
theorem table_ne_mapName : ∀ s ∈ specs, ∀ s' ∈ specs, s.table ≠ s'.mapName := by
  intro s hs s' hs' heq
  have hmem := (planned_of_planIndexes h s hs).emitted
  rw [heq] at hmem
  exact (distinct_of_planIndexes h).2 s'.mapName (List.mem_map_of_mem hs') (List.mem_cons_of_mem _ hmem)

end Plan

end TableExport
