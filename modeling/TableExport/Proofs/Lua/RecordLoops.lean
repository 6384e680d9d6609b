import TableExport.Proofs.Index.Plan
import TableExport.Proofs.Lua.Evaluation
import TableExport.Proofs.Lua.Phases

/-!
# Loops over records

The code of a lookup map makes an empty table and puts every record under what it has for its key. The tables that were
built before stay as they are.

- `runs_rounds` is the loop over records that have keys; `rounds_of_runs` says that a loop which ends has found them.
- `Stored` says that a table is an array of records, `Kept` what the code of lookup maps leaves alone.
- `runs_index` is the code of one map, and `index_of_runs` the way back.
-/

namespace TableExport.Lua

/-! ## Writing under keys -/

/-- Writes values to a table, one after the other. -/
def Heap.writeEach (h : Heap) (a : Nat) (kvs : List (Key × Value)) : Heap :=
  ⟨h.size, Function.update h.cell a (writeAll (h.cell a) kvs)⟩

theorem Heap.cell_writeEach_self (h : Heap) (a : Nat) (kvs : List (Key × Value)) :
    (h.writeEach a kvs).cell a = writeAll (h.cell a) kvs := by
  simp [Heap.writeEach]

theorem Heap.cell_writeEach_of_ne (h : Heap) {a b : Nat} (kvs : List (Key × Value)) (hb : b ≠ a) :
    (h.writeEach a kvs).cell b = h.cell b := by
  simp [Heap.writeEach, hb]

theorem Heap.writeEach_nil (h : Heap) (a : Nat) : h.writeEach a [] = h := by
  simp [Heap.writeEach]

theorem Heap.writeEach_cons (h : Heap) (a : Nat) (k : Key) (v : Value) (kvs : List (Key × Value)) :
    h.writeEach a ((k, v) :: kvs) = (h.write a k v).writeEach a kvs := by
  simp [Heap.writeEach, Heap.write]

/-- What the loop writes for records with those keys at those addresses. -/
def mapEntries (rs : List (Key × Nat)) : List (Key × Value) :=
  rs.map fun x => (x.1, .table x.2)

/-- The array of the records at those addresses. -/
def recordArray (qs : List Nat) : List Value :=
  qs.map .table

/-! ## Rounds -/

theorem eval_name {ρ : Env} {h : Heap} {x : String} {v : Value} (hx : ρ x = some v) :
    eval ρ (.name x) h = some (v, h) := by
  rw [eval, hx]
  rfl

theorem eval_string (ρ : Env) (h : Heap) (text : String) : eval ρ (.string text) h = some (.string text, h) := by
  rw [eval]

theorem eval_noFields (ρ : Env) (h : Heap) : eval ρ (.table []) h = some (.table h.size, h.alloc) := by
  rw [eval, fill]
  rfl

/-- The field of a table that a variable holds. -/
theorem eval_field {ρ : Env} {h : Heap} {x : String} {a : Nat} (hx : ρ x = some (.table a)) (name : String) :
    eval ρ (Expr.field (.name x) name) h = some (h.cell a (.string name), h) := by
  simp [Expr.field, eval, hx, toKey]

/-- The body of the loop. -/
def loopBody (spec : IndexSpec) : List Stat :=
  [.assign (.index (tabVar.field spec.mapName) (recVar.field spec.key.name)) recVar]

/-- The variables in a round. -/
def roundEnv (ρ : Env) (i : Nat) (v : Value) : Env :=
  Function.update (Function.update ρ "_" (some (.integer i))) "rec" (some v)

section Rounds

variable {ρ : Env} {T A M : Nat} {spec : IndexSpec}

theorem roundEnv_tab {i : Nat} {v : Value} (hT : ρ "tab" = some (.table T)) :
    roundEnv ρ i v "tab" = some (.table T) := by
  rw [roundEnv, Function.update_of_ne (by decide), Function.update_of_ne (by decide), hT]

theorem roundEnv_rec (i : Nat) (v : Value) : roundEnv ρ i v "rec" = some v := by
  rw [roundEnv, Function.update_self]

/-- One round puts the record under its key. -/
theorem runs_loopBody {h : Heap} {q : Nat} {k : Key} (hT : ρ "tab" = some (.table T))
    (hM : h.cell T (.string spec.mapName) = .table M) (hrec : ρ "rec" = some (.table q))
    (hk : toKey (h.cell q (.string spec.key.name)) = some k) :
    Runs ρ h (.block (loopBody spec)) (h.write M k (.table q)) none := by
  have hmap := eval_field hT spec.mapName (h := h)
  rw [hM] at hmap
  exact .assign hmap (eval_field hrec spec.key.name) hk (eval_name hrec) .done

/-- A round that ends has found a key. -/
theorem loopBody_of_runs {h h' : Heap} {q : Nat} {w : Option Value} (hT : ρ "tab" = some (.table T))
    (hM : h.cell T (.string spec.mapName) = .table M) (hrec : ρ "rec" = some (.table q))
    (hruns : Runs ρ h (.block (loopBody spec)) h' w) :
    ∃ k, toKey (h.cell q (.string spec.key.name)) = some k ∧ h' = h.write M k (.table q) ∧ w = none := by
  have hmap := eval_field hT spec.mapName (h := h)
  rw [hM] at hmap
  cases hruns with
  | assign hb hkv hk he hs =>
    cases hmap.symm.trans hb
    cases (eval_field hrec spec.key.name).symm.trans hkv
    cases (eval_name hrec).symm.trans he
    cases hs
    exact ⟨_, hk, rfl, rfl⟩

/-- **The rounds of a loop** put every record of the array under its key. -/
theorem runs_rounds (hT : ρ "tab" = some (.table T)) (hTM : T ≠ M) (hAM : A ≠ M) : ∀ (rs : List (Key × Nat)) (i : Nat)
    (h : Heap), h.cell T (.string spec.mapName) = .table M →
      (∀ j : Nat, h.cell A (.integer ((i + j : Nat) : Int)) = ((recordArray (rs.map (·.2)))[j]?).getD .nil) →
      (∀ x ∈ rs, x.2 ≠ M ∧ toKey (h.cell x.2 (.string spec.key.name)) = some x.1) →
      Runs ρ h (.iterate A i "_" "rec" (loopBody spec)) (h.writeEach M (mapEntries rs)) none
  | [], i, h, _, harray, _ => by
    rw [mapEntries, List.map_nil, Heap.writeEach_nil]
    exact .stop (by simpa [recordArray] using harray 0)
  | (k, q) :: rs, i, h, hM, harray, hrecords => by
    have hfirst : h.cell A (.integer i) = .table q := by simpa [recordArray] using harray 0
    obtain ⟨hq, hk⟩ := hrecords (k, q) List.mem_cons_self
    have hkeep (a : Nat) (ha : a ≠ M) : (h.write M k (.table q)).cell a = h.cell a := Heap.cell_write_of_ne h ha
    rw [mapEntries, List.map_cons, Heap.writeEach_cons]
    -- a round writes to the map alone, so the array and the other records are what they were
    refine .next (by rw [hfirst]; simp) (runs_loopBody (roundEnv_tab hT) hM ?_ hk) ?_
    · rw [← hfirst]
      exact roundEnv_rec i _
    · refine runs_rounds hT hTM hAM rs (i + 1) _ (by rw [hkeep T hTM, hM]) (fun j => ?_) fun x hx => ?_
      · have hj := harray (j + 1)
        rw [hkeep A hAM, show i + 1 + j = i + (j + 1) by omega, hj]
        rfl
      · obtain ⟨hx₁, hx₂⟩ := hrecords x (List.mem_cons_of_mem _ hx)
        exact ⟨hx₁, by rw [hkeep x.2 hx₁, hx₂]⟩

/-- **A loop that ends** has found a key in every record, and put the record under it. -/
theorem rounds_of_runs (hT : ρ "tab" = some (.table T)) (hTM : T ≠ M) (hAM : A ≠ M) : ∀ (qs : List Nat) (i : Nat)
    (h h' : Heap) (w : Option Value), h.cell T (.string spec.mapName) = .table M →
      (∀ j : Nat, h.cell A (.integer ((i + j : Nat) : Int)) = ((recordArray qs)[j]?).getD .nil) → (∀ q ∈ qs, q ≠ M) →
      Runs ρ h (.iterate A i "_" "rec" (loopBody spec)) h' w →
        ∃ rs : List (Key × Nat), rs.map (·.2) = qs ∧
          (∀ x ∈ rs, toKey (h.cell x.2 (.string spec.key.name)) = some x.1) ∧ h' = h.writeEach M (mapEntries rs) ∧
          w = none
  | [], i, h, h', w, _, harray, _, hruns => by
    have hfirst : h.cell A (.integer i) = .nil := by simpa [recordArray] using harray 0
    cases hruns with
    | stop => exact ⟨[], rfl, fun x hx => (by cases hx), by rw [mapEntries, List.map_nil, Heap.writeEach_nil], rfl⟩
    | next hv => exact absurd hfirst hv
    | exit hv => exact absurd hfirst hv
  | q :: qs, i, h, h', w, hM, harray, hqs, hruns => by
    have hfirst : h.cell A (.integer i) = .table q := by simpa [recordArray] using harray 0
    have hrec : roundEnv ρ i (h.cell A (.integer i)) "rec" = some (.table q) := by rw [roundEnv_rec, hfirst]
    cases hruns with
    | stop hv => exact absurd (hfirst.symm.trans hv) (by simp)
    | exit _ hbody => exact absurd (loopBody_of_runs (roundEnv_tab hT) hM hrec hbody).choose_spec.2.2 (by simp)
    | next _ hbody hrest =>
      obtain ⟨k, hk, rfl, -⟩ := loopBody_of_runs (roundEnv_tab hT) hM hrec hbody
      have hkeep (a : Nat) (ha : a ≠ M) : (h.write M k (.table q)).cell a = h.cell a := Heap.cell_write_of_ne h ha
      obtain ⟨rs, rfl, hkeys, rfl, rfl⟩ := rounds_of_runs hT hTM hAM qs (i + 1) _ h' w (by rw [hkeep T hTM, hM])
        (fun j => by
          have hj := harray (j + 1)
          rw [hkeep A hAM, show i + 1 + j = i + (j + 1) by omega, hj]
          rfl)
        (fun q' hq' => hqs q' (List.mem_cons_of_mem _ hq')) hrest
      refine ⟨(k, q) :: rs, rfl, fun x hx => ?_, (Heap.writeEach_cons ..).symm, rfl⟩
      rcases List.mem_cons.1 hx with rfl | hx
      · exact hk
      · have hxM := hqs x.2 (List.mem_cons_of_mem _ (List.mem_map_of_mem hx))
        rw [← hkeep x.2 hxM]
        exact hkeys x hx

end Rounds

/-! ## The code of a map -/

/-- The table of that name is an array of records at those addresses. -/
structure Stored (h₀ : Heap) (T : Nat) (name : String) (qs : List Nat) : Prop where
  array : ∃ A, A < h₀.size ∧ A ≠ T ∧ h₀.cell T (.string name) = .table A ∧
    h₀.cell A = contents (positions 1 (recordArray qs))
  record : ∀ q ∈ qs, q < h₀.size ∧ q ≠ T

/-- What the code of lookup maps leaves alone: the tables that were built, and all fields of `tab` but the maps. -/
structure Kept (h₀ : Heap) (T : Nat) (specs : List IndexSpec) (h : Heap) : Prop where
  size : h₀.size ≤ h.size
  old : ∀ a < h₀.size, a ≠ T → h.cell a = h₀.cell a
  tab : ∀ k, (∀ s ∈ specs, k ≠ .string s.mapName) → h.cell T k = h₀.cell T k

theorem kept_nil (h₀ : Heap) (T : Nat) : Kept h₀ T [] h₀ where
  size := Nat.le_refl _
  old _ _ _ := rfl
  tab _ _ := rfl

/-- The heap when an empty map was attached. -/
def mapHeap (h : Heap) (T : Nat) (spec : IndexSpec) : Heap :=
  h.alloc.write T (.string spec.mapName) (.table h.size)

/-- The heap behind the code of a lookup map. -/
def indexHeap (h : Heap) (T : Nat) (spec : IndexSpec) (rs : List (Key × Nat)) : Heap :=
  (mapHeap h T spec).writeEach h.size (mapEntries rs)

section Maps

variable {ρ : Env} {h₀ h : Heap} {T : Nat} {done : List IndexSpec} {spec : IndexSpec} {qs : List Nat}
  {rs : List (Key × Nat)}

/-- The map is new, and all other tables but `tab` stay. -/
theorem cell_indexHeap (spec : IndexSpec) (rs : List (Key × Nat)) (hT : T < h.size) (a : Nat) :
    (indexHeap h T spec rs).cell a =
    if a = h.size then contents (mapEntries rs)
    else if a = T then Function.update (h.cell T) (.string spec.mapName) (.table h.size)
    else h.cell a := by
  have hne : h.size ≠ T := by omega
  unfold indexHeap mapHeap
  by_cases ha : a = h.size
  · subst ha
    rw [if_pos rfl, Heap.cell_writeEach_self, Heap.cell_write_of_ne _ hne, Heap.cell_alloc_self]
    rfl
  · rw [if_neg ha, Heap.cell_writeEach_of_ne _ _ ha]
    by_cases haT : a = T
    · subst haT
      rw [if_pos rfl, Heap.cell_write_self, Heap.cell_alloc_of_ne _ ha]
    · rw [if_neg haT, Heap.cell_write_of_ne _ haT, Heap.cell_alloc_of_ne _ ha]

/-- One more map leaves the tables alone. -/
theorem Kept.index (hkept : Kept h₀ T done h) (hT : T < h₀.size) :
    Kept h₀ T (done ++ [spec]) (indexHeap h T spec rs) := by
  have hsize := hkept.size
  have hcell := cell_indexHeap spec rs (h := h) (T := T) (by omega)
  have hnext : (indexHeap h T spec rs).size = h.size + 1 := rfl
  refine ⟨by omega, fun a ha haT => ?_, fun k hk => ?_⟩
  · rw [hcell, if_neg (by omega), if_neg haT, hkept.old a ha haT]
  · rw [hcell, if_neg (by omega), if_pos rfl, Function.update_of_ne (hk spec (by simp))]
    exact hkept.tab k fun s hs => hk s (List.mem_append_left _ hs)

/-- What the loop finds when the empty map was attached: the map, and the records as they were. -/
theorem Kept.mapHeap (hkept : Kept h₀ T done h) (hT₀ : T < h₀.size) (hT : ρ "tab" = some (.table T))
    (hstored : Stored h₀ T spec.table qs) (htable : ∀ s ∈ done, spec.table ≠ s.mapName)
    (hself : spec.table ≠ spec.mapName) :
    (mapHeap h T spec).cell T (.string spec.mapName) = .table h.size ∧
      (∀ q ∈ qs, q ≠ h.size ∧ (mapHeap h T spec).cell q = h₀.cell q) ∧
      ∃ A, A ≠ h.size ∧ eval ρ (tabVar.field spec.table) (mapHeap h T spec) = some (.table A, mapHeap h T spec) ∧
        ∀ j : Nat, (mapHeap h T spec).cell A (.integer ((1 + j : Nat) : Int)) = ((recordArray qs)[j]?).getD .nil := by
  obtain ⟨A, hA, hAT, harray, hcell⟩ := hstored.array
  have hsize := hkept.size
  have hT' : T ≠ h.size := by omega
  have hTcell : (Lua.mapHeap h T spec).cell T = Function.update (h.cell T) (.string spec.mapName) (.table h.size) := by
    rw [Lua.mapHeap, Heap.cell_write_self, Heap.cell_alloc_of_ne _ hT']
  have hother (a : Nat) (ha : a < h₀.size) (haT : a ≠ T) : (Lua.mapHeap h T spec).cell a = h₀.cell a := by
    rw [Lua.mapHeap, Heap.cell_write_of_ne _ haT, Heap.cell_alloc_of_ne _ (by omega), hkept.old a ha haT]
  refine ⟨by rw [hTcell, Function.update_self], fun q hq => ?_, A, by omega, ?_, fun j => ?_⟩
  · obtain ⟨hq₀, hqT⟩ := hstored.record q hq
    exact ⟨by omega, hother q hq₀ hqT⟩
  · have hover := eval_field hT spec.table (h := Lua.mapHeap h T spec)
    have hkey : Key.string spec.table ≠ .string spec.mapName := fun heq => hself (Key.string.inj heq)
    rw [hTcell, Function.update_of_ne hkey, hkept.tab _ fun s hs heq => htable s hs (Key.string.inj heq), harray]
      at hover
    exact hover
  · rw [hother A hA hAT, hcell]
    exact writeAll_positions

section Code

variable {ss : List Stat} {h' : Heap} {w : Option Value}
variable (hT : ρ "tab" = some (.table T)) (hT₀ : T < h₀.size) (hkept : Kept h₀ T done h)
variable (htable : ∀ s ∈ done, spec.table ≠ s.mapName) (hself : spec.table ≠ spec.mapName)
include hT hT₀ hkept htable hself

/-- **The code of a lookup map** runs, whatever maps were filled before under other names. -/
theorem runs_index (hglobal : ρ "ipairs" = none) (hstored : Stored h₀ T spec.table (rs.map (·.2)))
    (hkeys : ∀ x ∈ rs, toKey (h₀.cell x.2 (.string spec.key.name)) = some x.1)
    (hs : Runs ρ (indexHeap h T spec rs) (.block ss) h' w) : Runs ρ h (.block (indexStats spec ++ ss)) h' w := by
  obtain ⟨hmap, hrecords, A, hA, hover, harray⟩ := hkept.mapHeap hT₀ hT hstored htable hself
  have hsize := hkept.size
  refine .assign (eval_name hT) (eval_string ρ h spec.mapName) rfl (eval_noFields ρ h) (.loop hglobal hover ?_ hs)
  refine runs_rounds hT (by omega) hA rs 1 _ hmap harray fun x hx => ?_
  obtain ⟨hx', hcell⟩ := hrecords x.2 (List.mem_map_of_mem hx)
  exact ⟨hx', by rw [hcell, hkeys x hx]⟩

/-- **Code of a lookup map that comes to its end** has found a key in every record. -/
theorem index_of_runs (hstored : Stored h₀ T spec.table qs) (hruns : Runs ρ h (.block (indexStats spec ++ ss)) h' w) :
    ∃ rs : List (Key × Nat), rs.map (·.2) = qs ∧
      (∀ x ∈ rs, toKey (h₀.cell x.2 (.string spec.key.name)) = some x.1) ∧
      Runs ρ (indexHeap h T spec rs) (.block ss) h' w := by
  obtain ⟨hmap, hrecords, A, hA, hover, harray⟩ := hkept.mapHeap hT₀ hT hstored htable hself
  have hsize := hkept.size
  -- the keys were found when the map was attached, but the records are those of the first heap
  have hrounds (h₁ : Heap) (w₁ : Option Value) :=
    rounds_of_runs hT (by omega) hA qs 1 (mapHeap h T spec) h₁ w₁ hmap harray fun q hq => (hrecords q hq).1
  have hkeys {rs : List (Key × Nat)} (hqs : rs.map (·.2) = qs)
      (hkeys : ∀ x ∈ rs, toKey ((mapHeap h T spec).cell x.2 (.string spec.key.name)) = some x.1) (x : Key × Nat)
      (hx : x ∈ rs) : toKey (h₀.cell x.2 (.string spec.key.name)) = some x.1 := by
    have hmem : x.2 ∈ qs := by
      rw [← hqs]
      exact List.mem_map_of_mem hx
    rw [← (hrecords x.2 hmem).2]
    exact hkeys x hx
  cases hruns with
  | assign hb hkv hk he hs =>
    cases (eval_name hT).symm.trans hb
    cases (eval_string ρ h spec.mapName).symm.trans hkv
    cases hk
    cases (eval_noFields ρ h).symm.trans he
    cases hs with
    | loop _ hiter hr hs =>
      cases hover.symm.trans hiter
      obtain ⟨rs, hqs, hfound, rfl, -⟩ := hrounds _ _ hr
      exact ⟨rs, hqs, hkeys hqs hfound, hs⟩
    | leave _ hiter hr =>
      cases hover.symm.trans hiter
      obtain ⟨-, -, -, -, hnone⟩ := hrounds _ _ hr
      cases hnone

end Code

end Maps

end TableExport.Lua
