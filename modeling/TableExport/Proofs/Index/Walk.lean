import TableExport.Printer.Samples
import TableExport.Proofs.Index.Plan

/-!
# The walk of the planner

The planner walks through the fields of the combine structs. What it meets there does not depend on the maps that it has
granted, so the walk is written down here as a relation of its own: a field asks for nothing, for one thing that there
cannot be, or for one thing with each key of the descriptor that it links.

- `AsksKey` and `AsksField` say what a key and a field ask for, `Walks` what is met on the whole walk.
- `walks_iff` says that there is one walk, through the requests of the planner.
- `Stops` says at what requests stop, and `grant_eq_error` that granting does.
- `planIndexes_follows_walk` is the result of the planner in terms of the walk.
-/

namespace TableExport

open TableExport.Index TableExport.Text

/-! ## What is asked for -/

/-- The first of some elements that has the name. -/
def IsFirst {α : Type} (name : α → String) (as : List α) (x : String) (a : α) : Prop :=
  ∃ before after, as = before ++ a :: after ∧ name a = x ∧ ∀ b ∈ before, name b ≠ x

theorem isFirst_iff {α : Type} {name : α → String} {as : List α} {x : String} {a : α} :
    IsFirst name as x a ↔ as.find? (name · = x) = some a := by
  rw [List.find?_eq_some_iff_append]
  simp only [decide_eq_true_eq, Bool.not_eq_eq_eq_not, Bool.not_true, decide_eq_false_iff_not]
  constructor
  · rintro ⟨before, after, has, ha, hbefore⟩
    exact ⟨ha, before, after, has, hbefore⟩
  · rintro ⟨ha, before, after, has, hbefore⟩
    exact ⟨before, after, has, ha, hbefore⟩

/-- What a key of a descriptor asks for: a map whose key is the first field of that name, if there is such a field. -/
inductive AsksKey (d : Descriptor) (table key : String) : Request → Prop
  | unknown : (∀ f ∈ d.fields, f.name ≠ key) → AsksKey d table key (.fault (.unknownIndexKey d.name key))
  | known {spec : IndexSpec} : spec.table = table → IsFirst (·.name) d.fields key spec.key →
      spec.mapName = table ++ "By" ++ pascalCase key → AsksKey d table key (.map spec)

section Walk

variable (ds : List Descriptor) (tag : String) (emitted : List String)

/-- What a field of a combine struct asks for. -/
inductive AsksField (owner : String) (f : FieldDescriptor) : List Request → Prop
  | unlinked : f.link = none → AsksField owner f []
  /-- There is no descriptor of that name, be the table emitted or not. -/
  | dangling {link : String} : f.link = some link → (∀ d ∈ ds, d.name ≠ link) →
      AsksField owner f [.fault (.unknownDescriptor owner f.name link)]
  | skipped {link : String} {d : Descriptor} : f.link = some link → IsFirst (·.name) ds link d →
      (d.tags.admits tag = false ∨ d.indexes = [] ∨ f.name ∉ emitted) → AsksField owner f []
  | indexed {link : String} {d : Descriptor} {rs : List Request} : f.link = some link → IsFirst (·.name) ds link d →
      d.tags.admits tag = true → d.indexes ≠ [] → f.name ∈ emitted →
      List.Forall₂ (AsksKey d f.name) d.indexes rs → AsksField owner f rs

/-- The fields of the combine structs with the structs that declare them, in declaration order. -/
def tableFields : List (Descriptor × FieldDescriptor) :=
  (combineStructs ds).flatMap fun c => c.fields.map fun f => (c, f)

/-- What is met on the walk through the fields of the combine structs. -/
def Walks (rs : List Request) : Prop :=
  ∃ asked, List.Forall₂ (fun x => AsksField ds tag emitted x.1.name x.2) (tableFields ds) asked ∧ rs = asked.flatten

end Walk

/-! ## The requests of the planner -/

/-- Lists are related element by element by a relation that is a function if and only if they are by the function. -/
theorem forall₂_graph {α β : Type} {R : α → β → Prop} {f : α → β} (h : ∀ a b, R a b ↔ b = f a) {as : List α}
    {bs : List β} : List.Forall₂ R as bs ↔ bs = as.map f := by
  obtain rfl : R = fun a b => b = f a := by
    funext a b
    exact propext (h a b)
  have heq : List.Forall₂ (fun a b => f a = b) as bs ↔ as.map f = bs := by
    rw [← List.forall₂_map_left_iff (R := Eq), List.forall₂_eq_eq_eq]
  simpa only [eq_comm] using heq

theorem asksKey_iff {d : Descriptor} {table key : String} {r : Request} :
    AsksKey d table key r ↔ r = keyRequest d table (key, d.field? key) := by
  constructor
  · rintro (hunknown | ⟨rfl, hfirst, -⟩)
    · have hnone : d.field? key = none := by simpa [Descriptor.field?] using hunknown
      rw [hnone]
      rfl
    · rw [Descriptor.field?, isFirst_iff.1 hfirst]
      rfl
  · rintro rfl
    cases hfield : d.field? key with
    | none =>
      apply AsksKey.unknown
      simpa [Descriptor.field?] using hfield
    | some field =>
      have hfirst : IsFirst (·.name) d.fields key field := isFirst_iff.2 hfield
      refine @AsksKey.known d table key ⟨table, field⟩ rfl hfirst ?_
      have hname : field.name = key := by simpa using List.find?_some hfield
      rw [IndexSpec.mapName, hname]

variable {ds : List Descriptor} {tag : String} {emitted : List String}

theorem asksField_iff {owner : String} {f : FieldDescriptor} {rs : List Request} :
    AsksField ds tag emitted owner f rs ↔ rs = fieldRequests ds tag emitted owner f := by
  -- a field that is not skipped asks with its keys in order
  have hkeys (d : Descriptor) (rs : List Request) :
      List.Forall₂ (AsksKey d f.name) d.indexes rs ↔ rs = d.indexFields.map (keyRequest d f.name) := by
    rw [Descriptor.indexFields, List.map_map]
    refine forall₂_graph ?_
    intro key r
    exact asksKey_iff
  have hskip (d : Descriptor) : (!d.tags.admits tag || d.indexes.isEmpty || !emitted.contains f.name) = true ↔
      d.tags.admits tag = false ∨ d.indexes = [] ∨ f.name ∉ emitted := by
    simp [or_assoc]
  constructor
  · intro h
    cases h with
    | unlinked hlink => rw [fieldRequests, hlink]
    | @dangling link hlink hdangling =>
      have hnone : descriptor? ds link = none := List.find?_eq_none.2 fun d hd => by simpa using hdangling d hd
      simp only [fieldRequests, hlink, hnone]
    | @skipped link d hlink hfirst hskipped =>
      have hd : descriptor? ds link = some d := isFirst_iff.1 hfirst
      simp only [fieldRequests, hlink, hd, if_pos ((hskip d).2 hskipped)]
    | @indexed link d rs hlink hfirst htag hindexes hemitted hrs =>
      have hd : descriptor? ds link = some d := isFirst_iff.1 hfirst
      have hreached := mt (hskip d).1 (by simp [htag, hindexes, hemitted])
      simp only [fieldRequests, hlink, hd, if_neg hreached]
      exact (hkeys d rs).1 hrs
  · rintro rfl
    rw [fieldRequests]
    cases hlink : f.link with
    | none => exact .unlinked hlink
    | some link =>
      cases hd : descriptor? ds link with
      | none =>
        simp only [hd]
        refine .dangling hlink fun d hmem => ?_
        simpa using List.find?_eq_none.1 hd d hmem
      | some d =>
        have hfirst : IsFirst (·.name) ds link d := isFirst_iff.2 hd
        simp only [hd]
        by_cases hskipped : d.tags.admits tag = false ∨ d.indexes = [] ∨ f.name ∉ emitted
        · rw [if_pos ((hskip d).2 hskipped)]
          exact .skipped hlink hfirst hskipped
        · rw [if_neg (mt (hskip d).1 hskipped)]
          rw [not_or, not_or, Bool.not_eq_false, not_not] at hskipped
          obtain ⟨htag, hindexes, hemitted⟩ := hskipped
          exact .indexed hlink hfirst htag hindexes hemitted ((hkeys d _).2 rfl)

/-- **There is one walk**, and it meets the requests of the planner. -/
theorem walks_iff {rs : List Request} : Walks ds tag emitted rs ↔ rs = requests ds tag emitted := by
  have hrequests : requests ds tag emitted =
      ((tableFields ds).map fun x => fieldRequests ds tag emitted x.1.name x.2).flatten := by
    rw [requests, tableFields, ← List.flatMap_def, List.flatMap_assoc]
    simp only [List.flatMap_map]
  have hasked (asked : List (List Request)) :
      List.Forall₂ (fun x => AsksField ds tag emitted x.1.name x.2) (tableFields ds) asked ↔
        asked = (tableFields ds).map fun x => fieldRequests ds tag emitted x.1.name x.2 := by
    refine forall₂_graph ?_
    intro x rs
    exact asksField_iff
  simp only [Walks, hasked, exists_eq_left, hrequests]

/-! ## Where the planner stops -/

/-- The request is refused when those names are taken. -/
inductive Refused (taken : List String) : Request → RenderError → Prop
  | fault (reason : RenderError) : Refused taken (.fault reason) reason
  | clash {spec : IndexSpec} : spec.mapName ∈ taken →
      Refused taken (.map spec) (.nameClash spec.mapName (.index spec.table spec.key.name))

/-- Requests stop at the first one that is refused when those names are taken; those in front of it are for maps with
distinct names that are free. -/
def Stops (taken : List String) (rs : List Request) (e : RenderError) : Prop :=
  ∃ granted r rest, rs = granted.map .map ++ r :: rest ∧ Distinct taken (mapNames granted) ∧
    Refused (mapNames granted ++ taken) r e

section Stops

variable {taken taken' : List String} {r : Request} {rs : List Request} {e : RenderError}

theorem refused_congr (h : ∀ x, x ∈ taken ↔ x ∈ taken') : Refused taken r e ↔ Refused taken' r e := by
  constructor
  · rintro (_ | hclash)
    · exact .fault _
    · exact .clash ((h _).1 hclash)
  · rintro (_ | hclash)
    · exact .fault _
    · exact .clash ((h _).2 hclash)

theorem stops_congr (h : ∀ x, x ∈ taken ↔ x ∈ taken') : Stops taken rs e ↔ Stops taken' rs e := by
  refine exists_congr fun granted => exists_congr fun r => exists_congr fun rest => and_congr_right fun _ =>
    and_congr (distinct_congr h) (refused_congr fun x => ?_)
  rw [List.mem_append, List.mem_append, h]

/-- A map is refused for its name only. -/
theorem Refused.mem {spec : IndexSpec} (h : Refused taken (.map spec) e) : spec.mapName ∈ taken := by
  cases h
  assumption

/-- Requests stop at the first of them, or the others stop behind it. -/
theorem stops_cons : Stops taken (r :: rs) e ↔ Refused taken r e ∨
    ∃ spec, r = .map spec ∧ spec.mapName ∉ taken ∧ Stops (spec.mapName :: taken) rs e := by
  -- the names that are taken for the others, in the two orders in which they are listed
  have htaken (spec : IndexSpec) (granted : List IndexSpec) (x : String) :
      x ∈ mapNames granted ++ spec.mapName :: taken ↔ x ∈ mapNames (spec :: granted) ++ taken := by
    simp only [mapNames, List.map_cons, List.mem_append, List.mem_cons, or_assoc]
    exact or_left_comm
  constructor
  · rintro ⟨granted, r', rest, hrs, hdistinct, hrefused⟩
    cases granted with
    | nil =>
      obtain ⟨rfl, -⟩ := List.cons.inj hrs
      exact .inl hrefused
    | cons spec granted =>
      obtain ⟨rfl, hrest⟩ := List.cons.inj hrs
      obtain ⟨hfree, hdistinct⟩ := distinct_cons.1 hdistinct
      exact .inr ⟨spec, rfl, hfree, granted, r', rest, hrest, hdistinct,
        (refused_congr (htaken spec granted)).2 hrefused⟩
  · rintro (hrefused | ⟨spec, rfl, hfree, granted, r', rest, rfl, hdistinct, hrefused⟩)
    · exact ⟨[], r, rs, rfl, distinct_nil, hrefused⟩
    · exact ⟨spec :: granted, r', rest, rfl, distinct_cons.2 ⟨hfree, hdistinct⟩,
        (refused_congr (htaken spec granted)).1 hrefused⟩

/-- Granting fails at the first request, or it fails for the others. -/
theorem grant_cons_eq_error : grant taken (r :: rs) = .error e ↔ Refused taken r e ∨
    ∃ spec, r = .map spec ∧ spec.mapName ∉ taken ∧ grant (spec.mapName :: taken) rs = .error e := by
  cases r with
  | fault reason =>
    rw [grant]
    constructor
    · intro h
      cases h
      exact .inl (.fault _)
    · rintro (hrefused | ⟨spec, hspec, -⟩)
      · cases hrefused
        rfl
      · cases hspec
  | map spec =>
    rw [grant]
    by_cases hclash : spec.mapName ∈ taken
    · rw [if_pos (by simpa using hclash)]
      constructor
      · intro h
        cases h
        exact .inl (.clash hclash)
      · rintro (hrefused | ⟨spec', hspec, hfree, -⟩)
        · cases hrefused
          rfl
        · cases hspec
          exact absurd hclash hfree
    · rw [if_neg (by simpa using hclash)]
      cases hrest : grant (spec.mapName :: taken) rs with
      | error reason =>
        constructor
        · intro h
          exact .inr ⟨spec, rfl, hclash, hrest.trans h⟩
        · rintro (hrefused | ⟨spec', hspec, -, h⟩)
          · exact absurd hrefused.mem hclash
          · cases hspec
            exact hrest.symm.trans h
      | ok granted =>
        refine iff_of_false (fun h => by cases h) ?_
        rintro (hrefused | ⟨spec', hspec, -, h⟩)
        · exact absurd hrefused.mem hclash
        · cases hspec
          cases hrest.symm.trans h

/-- **Granting stops** at the first request that is refused. -/
theorem grant_eq_error : grant taken rs = .error e ↔ Stops taken rs e := by
  induction rs generalizing taken with
  | nil =>
    refine iff_of_false (by simp [grant]) ?_
    rintro ⟨granted, r, rest, hrs, -⟩
    simp at hrs
  | cons r rs ih =>
    rw [grant_cons_eq_error, stops_cons]
    simp only [ih]

end Stops

theorem planIndexes_eq_error {e : RenderError} :
    planIndexes ds tag emitted = .error e ↔ Stops (enumNamespace :: emitted) (requests ds tag emitted) e := by
  rw [planIndexes_eq, ← grant_eq_error]
  cases grant (enumNamespace :: emitted) (requests ds tag emitted) <;> simp [Except.map]

/-- A request is for a map, or its fault is a descriptor or a key that does not exist. -/
theorem ne_format_of_mem_requests {reason : RenderError} (h : .fault reason ∈ requests ds tag emitted) :
    reason ≠ .format := by
  obtain ⟨c, -, hc⟩ := List.mem_flatMap.1 h
  obtain ⟨f, -, hf⟩ := List.mem_flatMap.1 hc
  unfold fieldRequests at hf
  split at hf
  · cases hf
  split at hf
  · cases List.mem_singleton.1 hf
    simp
  split at hf
  · cases hf
  · obtain ⟨⟨key, field⟩, -, hkey⟩ := List.mem_map.1 hf
    cases field with
    | none =>
      cases hkey
      simp
    | some field => cases hkey

/-- The planner writes nothing, so it fails for no text that is not taken. -/
theorem planIndexes_ne_format : planIndexes ds tag emitted ≠ .error .format := by
  rw [Ne, planIndexes_eq_error]
  rintro ⟨granted, r, rest, hrequests, -, hrefused⟩
  have hr : r ∈ requests ds tag emitted := hrequests ▸ List.mem_append_right _ List.mem_cons_self
  cases hrefused
  exact ne_format_of_mem_requests hr rfl

/-! ## Emitted tables as a set -/

section Congruence

variable {emitted' : List String} (h : ∀ x, x ∈ emitted ↔ x ∈ emitted')
include h

theorem requests_congr : requests ds tag emitted = requests ds tag emitted' := by
  have hcontains (x : String) : emitted.contains x = emitted'.contains x := by
    rw [Bool.eq_iff_iff, List.contains_iff_mem, List.contains_iff_mem]
    exact h x
  have hfield (owner : String) : fieldRequests ds tag emitted owner = fieldRequests ds tag emitted' owner := by
    funext f
    simp only [fieldRequests, hcontains]
  simp only [requests, hfield]

/-- The planner only asks which tables are emitted. -/
theorem planIndexes_congr : planIndexes ds tag emitted = planIndexes ds tag emitted' := by
  have htaken : ∀ x, x ∈ enumNamespace :: emitted ↔ x ∈ enumNamespace :: emitted' := by
    intro x
    rw [List.mem_cons, List.mem_cons, h]
  cases hplan : planIndexes ds tag emitted with
  | ok specs =>
    rw [planIndexes_eq_ok, requests_congr h, distinct_congr htaken] at hplan
    exact (planIndexes_eq_ok.2 hplan).symm
  | error e =>
    rw [planIndexes_eq_error, requests_congr h, stops_congr htaken] at hplan
    exact (planIndexes_eq_error.2 hplan).symm

end Congruence

/-! ## The planner -/

/-- **Planning follows the walk.** There is one walk through the fields of the combine structs. The planner gives maps
if and only if these are all that is met on it, and no map has the name of another, of an emitted table or of the
enums; it fails if and only if something is met that is refused, and then for the first such thing. It only asks which
names the emitted tables have. -/
theorem planIndexes_follows_walk (ds : List Descriptor) (tag : String) (tables : List Table) :
    (∃! rs, Walks ds tag (tables.map (·.name)) rs) ∧
    (∀ specs, planIndexes ds tag (tables.map (·.name)) = .ok specs ↔
      Walks ds tag (tables.map (·.name)) (specs.map .map) ∧
        Distinct (enumNamespace :: tables.map (·.name)) (mapNames specs)) ∧
    (∀ e, planIndexes ds tag (tables.map (·.name)) = .error e ↔
      ∃ rs, Walks ds tag (tables.map (·.name)) rs ∧ Stops (enumNamespace :: tables.map (·.name)) rs e) ∧
    ∀ tables' : List Table, (∀ x, x ∈ tables.map (·.name) ↔ x ∈ tables'.map (·.name)) →
      planIndexes ds tag (tables.map (·.name)) = planIndexes ds tag (tables'.map (·.name)) := by
  refine ⟨⟨_, walks_iff.2 rfl, fun rs hrs => walks_iff.1 hrs⟩, fun specs => ?_, fun e => ?_, fun tables' h => ?_⟩
  · rw [planIndexes_eq_ok, walks_iff, eq_comm]
  · simp only [walks_iff, exists_eq_left]
    exact planIndexes_eq_error
  · exact planIndexes_congr h

/-- The tables of the samples in another order, one of them twice. -/
def shuffledTables : List Table :=
  ["Item", "ServerOnly", "Empty", "Actor", "Item"].map fun name => { name }

/-- The same maps are planned for them. -/
theorem planIndexes_shuffledTables :
    (∀ x, x ∈ Samples.sampleModel.tables.map (·.name) ↔ x ∈ shuffledTables.map (·.name)) ∧
      planIndexes Samples.sampleModel.descriptors ".lua" (shuffledTables.map (·.name)) =
        .ok [⟨"Item", Samples.scalarField "id" .int32⟩, ⟨"Item", Samples.scalarField "name" .string⟩] := by
  have hnames : ∀ x, x ∈ Samples.sampleModel.tables.map (·.name) ↔ x ∈ shuffledTables.map (·.name) := by
    intro x
    have hsamples : Samples.sampleModel.tables.map (·.name) = ["Actor", "Item", "Empty", "ServerOnly"] := rfl
    have hshuffled : shuffledTables.map (·.name) = ["Item", "ServerOnly", "Empty", "Actor", "Item"] := rfl
    simp only [hsamples, hshuffled, List.mem_cons, List.not_mem_nil, or_false]
    tauto
  have hset := (planIndexes_follows_walk Samples.sampleModel.descriptors ".lua" Samples.sampleModel.tables).2.2.2
  refine ⟨hnames, (hset shuffledTables hnames).symm.trans ?_⟩
  decide

end TableExport
