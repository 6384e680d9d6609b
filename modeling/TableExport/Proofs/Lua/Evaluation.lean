import Mathlib.Data.List.Nodup
import TableExport.Proofs.Lua.Execution

/-!
# Constructors build what they show

Evaluating the constructor of data makes new tables that hold exactly the data, and leaves all tables alone that were
there before.

- `Shows` says that a value is data: a scalar, or a table that holds exactly the items or the entries.
- `eval_data` evaluates the expression of data.
- `Shows.frame` keeps data while their tables keep what they hold.
-/

namespace TableExport.Lua

/-! ## Data in a heap -/

/-- Values under names. -/
def named (names : List String) (vs : List Value) : List (Key × Value) :=
  (names.map Key.string).zip vs

/-- In the heap, the value is the data, and the tables that it takes are among those. -/
def Shows (h : Heap) (among : Nat → Prop) : Data → Value → Prop :=
  Data.fold (fun type text v => v = scalarValue type text)
    (fun items v => ∃ a vs, v = .table a ∧ among a ∧ List.Forall₂ (fun shows v => shows v) items vs ∧
      h.cell a = contents (positions 1 vs))
    (fun entries v => ∃ a vs, v = .table a ∧ among a ∧ List.Forall₂ (fun entry v => entry.2 v) entries vs ∧
      h.cell a = contents (named (entries.map (·.1)) vs))

section Shows

variable {h h' : Heap} {among among' : Nat → Prop} {v : Value}

@[simp] theorem shows_scalar {type : ScalarType} {text : String} :
    Shows h among (.scalar type text) v ↔ v = scalarValue type text := by
  rw [Shows, Data.fold_scalar]

theorem shows_list {items : List Data} : Shows h among (.list items) v ↔
    ∃ a vs, v = .table a ∧ among a ∧ List.Forall₂ (Shows h among) items vs ∧ h.cell a = contents (positions 1 vs) := by
  rw [Shows, Data.fold_list]
  simp only [List.forall₂_map_left_iff]

theorem shows_fields {entries : List (String × Data)} : Shows h among (.fields entries) v ↔
    ∃ a vs, v = .table a ∧ among a ∧ List.Forall₂ (fun e v => Shows h among e.2 v) entries vs ∧
      h.cell a = contents (named (entries.map (·.1)) vs) := by
  rw [Shows, Data.fold_fields]
  simp only [List.forall₂_map_left_iff, List.map_map]
  rfl

theorem forall₂_imp_of_mem {α β : Type} {R S : α → β → Prop} {as : List α} {bs : List β} (h : List.Forall₂ R as bs)
    (himp : ∀ a ∈ as, ∀ b ∈ bs, R a b → S a b) : List.Forall₂ S as bs := by
  induction h with
  | nil => exact .nil
  | cons hab _ ih =>
    exact .cons (himp _ List.mem_cons_self _ List.mem_cons_self hab)
      (ih fun a ha b hb => himp a (List.mem_cons_of_mem _ ha) b (List.mem_cons_of_mem _ hb))

/-- **Data stay** while the tables that they take keep what they hold. -/
theorem Shows.frame {d : Data} (hd : Shows h among d v) (hkeep : ∀ a, among a → among' a ∧ h'.cell a = h.cell a) :
    Shows h' among' d v := by
  induction d using Data.induct generalizing v with
  | scalar type text => simpa using hd
  | list items ih =>
    obtain ⟨a, vs, rfl, ha, hitems, hcell⟩ := shows_list.1 hd
    refine shows_list.2 ⟨a, vs, rfl, (hkeep a ha).1, ?_, by rw [(hkeep a ha).2, hcell]⟩
    exact forall₂_imp_of_mem hitems fun d hd v _ hv => ih d hd hv
  | fields entries ih =>
    obtain ⟨a, vs, rfl, ha, hentries, hcell⟩ := shows_fields.1 hd
    refine shows_fields.2 ⟨a, vs, rfl, (hkeep a ha).1, ?_, by rw [(hkeep a ha).2, hcell]⟩
    exact forall₂_imp_of_mem hentries fun e he v _ hv => ih e he hv

end Shows

/-! ## Evaluation -/

namespace Heap

/-- The address is new in the second heap. -/
def Between (h h' : Heap) (a : Nat) : Prop :=
  h.size ≤ a ∧ a < h'.size

/-- The second heap keeps the tables of the first. -/
structure Grows (h h' : Heap) : Prop where
  size : h.size ≤ h'.size
  old : ∀ a < h.size, h'.cell a = h.cell a

theorem Grows.refl (h : Heap) : Grows h h :=
  ⟨Nat.le_refl _, fun _ _ => rfl⟩

end Heap

/-- What the fields of a constructor write: items under successive numbers, entries under their names. -/
def written : Nat → List (Option String) → List Value → List (Key × Value)
  | i, none :: keys, v :: vs => (.integer i, v) :: written (i + 1) keys vs
  | i, some x :: keys, v :: vs => (.string x, v) :: written i keys vs
  | _, _, _ => []

theorem written_items {α : Type} : ∀ (as : List α) (vs : List Value) (i : Nat), as.length = vs.length →
    written i (as.map fun _ => none) vs = positions i vs
  | [], [], _, _ => rfl
  | _ :: as, v :: vs, i, h => by
    rw [List.map_cons, written, positions, written_items as vs (i + 1) (by simpa using h)]

theorem written_entries (i : Nat) : ∀ (names : List String) (vs : List Value),
    written i (names.map some) vs = named names vs
  | [], _ => rfl
  | _ :: _, [] => rfl
  | x :: names, v :: vs => by
    have hrest := written_entries i names vs
    rw [List.map_cons, written, hrest]
    rfl

/-- Evaluating the data makes new tables for them and keeps the others. -/
def Evaluates (d : Data) : Prop :=
  ∀ ρ h, ∃ v h', eval ρ (dataExpr d) h = some (v, h') ∧ h.Grows h' ∧ Shows h' (h.Between h') d v

/-- **The fields of a constructor** are written to its table one after the other; other tables are only made. -/
theorem fill_data (ρ : Env) (a : Nat) : ∀ {fields : List (Option String × Data)}, (∀ f ∈ fields, Evaluates f.2) →
    ∀ (i : Nat) (h : Heap), a < h.size → ∃ h' vs,
      fill ρ a i (fields.map fun f => (f.1, dataExpr f.2)) h = some h' ∧ h.size ≤ h'.size ∧
        (∀ b < h.size, b ≠ a → h'.cell b = h.cell b) ∧
        List.Forall₂ (fun f v => Shows h' (h.Between h') f.2 v) fields vs ∧
        h'.cell a = writeAll (h.cell a) (written i (fields.map (·.1)) vs)
  | [], _, _, h, _ => ⟨h, [], by rw [List.map_nil, fill], Nat.le_refl _, fun _ _ _ => rfl, .nil, rfl⟩
  | (key, d) :: fields, hfields, i, h, ha => by
    obtain ⟨v, h₁, hv, hgrows, hshows⟩ := hfields (key, d) List.mem_cons_self ρ h
    have hrest : ∀ f ∈ fields, Evaluates f.2 := fun f hf => hfields f (List.mem_cons_of_mem _ hf)
    -- the value is written under the key or the position, and the others are evaluated behind it
    have hstep : ∀ (k : Key) (j : Nat), ∃ h' vs,
        fill ρ a j (fields.map fun f => (f.1, dataExpr f.2)) (h₁.write a k v) = some h' ∧ h.size ≤ h'.size ∧
          (∀ b < h.size, b ≠ a → h'.cell b = h.cell b) ∧
          List.Forall₂ (fun f v => Shows h' (h.Between h') f.2 v) ((key, d) :: fields) (v :: vs) ∧
          h'.cell a = writeAll (h.cell a) ((k, v) :: written j (fields.map (·.1)) vs) := by
      intro k j
      have hsize := hgrows.size
      obtain ⟨h', vs, hfill, hle, hkeep, hall, hcell⟩ := fill_data ρ a hrest j (h₁.write a k v) (by
        rw [Heap.size_write]
        omega)
      rw [Heap.size_write] at hle hkeep
      refine ⟨h', vs, hfill, by omega, fun b hb hne => ?_, .cons ?_ ?_, ?_⟩
      · rw [hkeep b (by omega) hne, Heap.cell_write_of_ne _ hne, hgrows.old b hb]
      · refine hshows.frame fun b hb => ⟨⟨hb.1, by have := hb.2; omega⟩, ?_⟩
        have hne : b ≠ a := by
          have := hb.1
          omega
        rw [hkeep b hb.2 hne, Heap.cell_write_of_ne _ hne]
      · refine forall₂_imp_of_mem hall fun f _ w _ hw => hw.frame fun b hb => ⟨⟨?_, hb.2⟩, rfl⟩
        have := hb.1
        rw [Heap.size_write] at this
        omega
      · rw [hcell, Heap.cell_write_self, hgrows.old a ha, writeAll_cons]
    cases key with
    | none =>
      obtain ⟨h', vs, hfill, hle, hkeep, hall, hcell⟩ := hstep (.integer i) (i + 1)
      refine ⟨h', v :: vs, ?_, hle, hkeep, hall, hcell⟩
      rw [List.map_cons, fill]
      simp only [hv, Option.bind_eq_bind, Option.bind_some]
      exact hfill
    | some x =>
      obtain ⟨h', vs, hfill, hle, hkeep, hall, hcell⟩ := hstep (.string x) i
      refine ⟨h', v :: vs, ?_, hle, hkeep, hall, hcell⟩
      rw [List.map_cons, fill]
      simp only [hv, Option.bind_eq_bind, Option.bind_some]
      exact hfill

/-- A constructor makes a new table with exactly its fields, and further ones for their values. -/
theorem eval_constructor (ρ : Env) (fields : List (Option String × Data)) (hfields : ∀ f ∈ fields, Evaluates f.2)
    (h : Heap) : ∃ h' vs, eval ρ (.table (fields.map fun f => (f.1, dataExpr f.2))) h = some (.table h.size, h') ∧
      h.Grows h' ∧ h.Between h' h.size ∧ List.Forall₂ (fun f v => Shows h' (h.alloc.Between h') f.2 v) fields vs ∧
      h'.cell h.size = contents (written 1 (fields.map (·.1)) vs) := by
  obtain ⟨h', vs, hfill, hle, hkeep, hall, hcell⟩ := fill_data ρ h.size hfields 1 h.alloc (Nat.lt_succ_self _)
  rw [Heap.size_alloc] at hle hkeep
  refine ⟨h', vs, by rw [eval, hfill]; rfl, ⟨by omega, fun b hb => ?_⟩, ⟨Nat.le_refl _, by omega⟩, hall, ?_⟩
  · have hne : b ≠ h.size := by omega
    rw [hkeep b (by omega) hne, Heap.cell_alloc_of_ne _ hne]
  · rw [hcell, Heap.cell_alloc_self]
    rfl

/-- What is among the tables for the values of a constructor is among all its tables. -/
theorem Shows.ofAlloc {h h' : Heap} {d : Data} {v : Value} (hd : Shows h' (h.alloc.Between h') d v) :
    Shows h' (h.Between h') d v := by
  refine hd.frame fun b hb => ⟨⟨?_, hb.2⟩, rfl⟩
  have := hb.1
  rw [Heap.size_alloc] at this
  omega

/-- **The expression of data** has a value that shows them, in new tables. -/
theorem eval_data (d : Data) : Evaluates d := by
  induction d using Data.induct with
  | scalar type text =>
    intro ρ h
    rw [dataExpr, Data.fold_scalar]
    exact ⟨_, h, eval_scalar ρ h type text, Heap.Grows.refl h, shows_scalar.2 rfl⟩
  | list items ih =>
    intro ρ h
    have hfields : ∀ f ∈ items.map fun d => ((none : Option String), d), Evaluates f.2 := by
      intro f hf
      obtain ⟨d, hd, rfl⟩ := List.mem_map.1 hf
      exact ih d hd
    obtain ⟨h', vs, heval, hgrows, hnew, hall, hcell⟩ := eval_constructor ρ _ hfields h
    rw [List.forall₂_map_left_iff] at hall
    rw [List.map_map] at heval hcell
    refine ⟨_, h', ?_, hgrows, shows_list.2 ⟨_, vs, rfl, hnew, hall.imp fun _ _ => Shows.ofAlloc, ?_⟩⟩
    · rw [dataExpr, Data.fold_list, List.map_map]
      exact heval
    · rw [hcell, ← written_items items vs 1 hall.length_eq]
      rfl
  | fields entries ih =>
    intro ρ h
    have hfields : ∀ f ∈ entries.map fun e => (some e.1, e.2), Evaluates f.2 := by
      intro f hf
      obtain ⟨e, he, rfl⟩ := List.mem_map.1 hf
      exact ih e he
    obtain ⟨h', vs, heval, hgrows, hnew, hall, hcell⟩ := eval_constructor ρ _ hfields h
    rw [List.forall₂_map_left_iff] at hall
    rw [List.map_map] at heval hcell
    refine ⟨_, h', ?_, hgrows, shows_fields.2 ⟨_, vs, rfl, hnew, hall.imp fun _ _ => Shows.ofAlloc, ?_⟩⟩
    · rw [dataExpr, Data.fold_fields, List.map_map]
      exact heval
    · rw [hcell, ← written_entries 1, List.map_map]
      rfl

/-- Entries with distinct names are found under them. -/
theorem contents_named {α : Type} {entries : List (String × α)} {vs : List Value} {R : String × α → Value → Prop}
    (hall : List.Forall₂ R entries vs) (hnames : (entries.map (·.1)).Nodup) {e : String × α} (he : e ∈ entries) :
    R e (contents (named (entries.map (·.1)) vs) (.string e.1)) := by
  have hkeys : ((named (entries.map (·.1)) vs).map Prod.fst).Nodup := by
    have hlength : ((entries.map (·.1)).map Key.string).length ≤ vs.length := by simp [hall.length_eq]
    rw [named, List.map_fst_zip hlength]
    exact List.Nodup.map (fun _ _ h => Key.string.inj h) hnames
  obtain ⟨v, hR, hmem⟩ : ∃ v, R e v ∧ (Key.string e.1, v) ∈ named (entries.map (·.1)) vs := by
    clear hkeys hnames
    induction hall with
    | nil => cases he
    | cons hab _ ih =>
      rcases List.mem_cons.1 he with rfl | he
      · exact ⟨_, hab, List.mem_cons_self⟩
      · obtain ⟨v, hR, hmem⟩ := ih he
        exact ⟨v, hR, List.mem_cons_of_mem _ hmem⟩
  rw [contents, writeAll_of_mem hkeys hmem]
  exact hR

end TableExport.Lua
