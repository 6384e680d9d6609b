import TableExport.Proofs.Lua.Constructor
import TableExport.Proofs.Lua.Heap

/-!
# Running Lua chunks

Expressions are evaluated in a heap, statements change it. An expression or a statement without a rule, such as
indexing something that is no table or writing under nil, is an error and has no result.

- `eval` evaluates an expression.
- `Runs` says that a task ends with a heap and perhaps a value that is returned; `Runs.unique` says that both follow
  from the task.
- `toKey_scalarValue` says which keys the scalars of data are.
-/

namespace TableExport.Lua

/-! ## Numbers -/

/-- The number that a text of decimal digits stands for. -/
def decimal? (text : String) : Option Nat :=
  if text.toList.isEmpty || !text.toList.all Char.isDigit then none else some (Nat.ofDigitChars 10 text.toList 0)

/-- Whole numbers of 64 bits end before this number. -/
def integerEnd : Nat := 0x8000000000000000

/-- The value of a numeral: a whole number if it is written with decimal digits and fits. -/
def numeralValue (text : String) : Value :=
  match decimal? text with
  | some n => if n < integerEnd then .integer n else .number false text
  | none => .number false text

/-- The value with the opposite sign. -/
def negate : Value → Option Value
  | .integer z => some (.integer (-z))
  | .number negative text => some (.number (!negative) text)
  | _ => none

/-- The key that a value is. The least whole number is written with a numeral that alone does not fit; the other number
that stands for it is the same key. Nothing is said of further numbers of that kind. -/
def toKey : Value → Option Key
  | .nil => none
  | .boolean b => some (.boolean b)
  | .integer z => some (.integer z)
  | .number negative text => if negative && decimal? text = some integerEnd then some (.integer (-integerEnd)) else none
  | .string text => some (.string text)
  | .table a => some (.table a)

/-! ## Expressions -/

/-- The values of local variables. -/
abbrev Env := String → Option Value

mutual

/-- The value of an expression, and the heap with the tables that were made for it. -/
def eval (ρ : Env) : Expr → Heap → Option (Value × Heap)
  | .boolean b, h => some (.boolean b, h)
  | .numeral text, h => some (numeralValue text, h)
  | .negative e, h => do
    let (v, h) ← eval ρ e h
    let v ← negate v
    return (v, h)
  | .string text, h => some (.string text, h)
  | .table fields, h => (fill ρ h.size 1 fields h.alloc).map fun h' => (.table h.size, h')
  | .name x, h => (ρ x).map fun v => (v, h)
  | .index base key, h => do
    let (b, h) ← eval ρ base h
    let (k, h) ← eval ρ key h
    match b, toKey k with
    | .table a, some k => return (h.cell a k, h)
    | _, _ => none
  | .call _ _, _ => none

/-- Writes the fields of a constructor to a table, items from that position on. -/
def fill (ρ : Env) (a : Nat) : Nat → List (Option String × Expr) → Heap → Option Heap
  | _, [], h => some h
  | i, (none, e) :: fields, h => do
    let (v, h) ← eval ρ e h
    fill ρ a (i + 1) fields (h.write a (.integer i) v)
  | i, (some x, e) :: fields, h => do
    let (v, h) ← eval ρ e h
    fill ρ a i fields (h.write a (.string x) v)

end

/-! ## Statements -/

/-- What is to be done. -/
inductive Task where
  /-- Statements, one after the other. -/
  | block (ss : List Stat)
  /-- The rounds of a loop over the array at an address, from a position on. -/
  | iterate (a i : Nat) (first second : String) (body : List Stat)

/-- With these variables and this heap, the task ends with that heap, and with a value if one is returned. -/
inductive Runs : Env → Heap → Task → Heap → Option Value → Prop where
  | done {ρ h} : Runs ρ h (.block []) h none
  | declare {ρ h h₁ h₂ x e v ss w} (he : eval ρ e h = some (v, h₁))
      (hs : Runs (Function.update ρ x (some v)) h₁ (.block ss) h₂ w) : Runs ρ h (.block (.declare x e :: ss)) h₂ w
  | assign {ρ h h₁ h₂ h₃ h₄ base key e a kv k v ss w} (hb : eval ρ base h = some (.table a, h₁))
      (hkv : eval ρ key h₁ = some (kv, h₂)) (hk : toKey kv = some k) (he : eval ρ e h₂ = some (v, h₃))
      (hs : Runs ρ (h₃.write a k v) (.block ss) h₄ w) : Runs ρ h (.block (.assign (.index base key) e :: ss)) h₄ w
  /-- A loop that ends by itself. -/
  | loop {ρ h h₁ h₂ h₃ x y e a body ss w} (hglobal : ρ "ipairs" = none) (he : eval ρ e h = some (.table a, h₁))
      (hrounds : Runs ρ h₁ (.iterate a 1 x y body) h₂ none) (hs : Runs ρ h₂ (.block ss) h₃ w) :
      Runs ρ h (.block (.loop x y (.call (.name "ipairs") e) body :: ss)) h₃ w
  /-- A loop whose body returns. -/
  | leave {ρ h h₁ h₂ x y e a body ss v} (hglobal : ρ "ipairs" = none) (he : eval ρ e h = some (.table a, h₁))
      (hrounds : Runs ρ h₁ (.iterate a 1 x y body) h₂ (some v)) :
      Runs ρ h (.block (.loop x y (.call (.name "ipairs") e) body :: ss)) h₂ (some v)
  | give {ρ h h₁ e v} (he : eval ρ e h = some (v, h₁)) : Runs ρ h (.block [.give e]) h₁ (some v)
  /-- The array has ended. -/
  | stop {ρ h a x y body} {i : Nat} (hv : h.cell a (.integer i) = .nil) : Runs ρ h (.iterate a i x y body) h none
  | next {ρ h h₁ h₂ a x y body w} {i : Nat} (hv : h.cell a (.integer i) ≠ .nil)
      (hbody : Runs (Function.update (Function.update ρ x (some (.integer i))) y (some (h.cell a (.integer i)))) h
        (.block body) h₁ none)
      (hrest : Runs ρ h₁ (.iterate a (i + 1) x y body) h₂ w) : Runs ρ h (.iterate a i x y body) h₂ w
  /-- The body returns. -/
  | exit {ρ h h₁ a x y body v} {i : Nat} (hv : h.cell a (.integer i) ≠ .nil)
      (hbody : Runs (Function.update (Function.update ρ x (some (.integer i))) y (some (h.cell a (.integer i)))) h
        (.block body) h₁ (some v)) : Runs ρ h (.iterate a i x y body) h₁ (some v)

/-- **A run** has one result. -/
theorem Runs.unique {ρ : Env} {h h₁ h₂ : Heap} {t : Task} {w₁ w₂ : Option Value} (r₁ : Runs ρ h t h₁ w₁)
    (r₂ : Runs ρ h t h₂ w₂) : h₁ = h₂ ∧ w₁ = w₂ := by
  induction r₁ generalizing h₂ w₂ with
  | done => cases r₂; exact ⟨rfl, rfl⟩
  | declare he _ ih =>
    cases r₂ with
    | declare he' hs' =>
      rw [he] at he'
      cases he'
      exact ih hs'
  | assign hb hkv hk he _ ih =>
    cases r₂ with
    | assign hb' hkv' hk' he' hs' =>
      rw [hb] at hb'
      cases hb'
      rw [hkv] at hkv'
      cases hkv'
      rw [hk] at hk'
      cases hk'
      rw [he] at he'
      cases he'
      exact ih hs'
  | loop _ he _ _ ihr ihs =>
    cases r₂ with
    | loop _ he' hrounds' hs' =>
      rw [he] at he'
      cases he'
      obtain ⟨rfl, -⟩ := ihr hrounds'
      exact ihs hs'
    | leave _ he' hrounds' =>
      rw [he] at he'
      cases he'
      cases (ihr hrounds').2
  | leave _ he _ ihr =>
    cases r₂ with
    | loop _ he' hrounds' _ =>
      rw [he] at he'
      cases he'
      cases (ihr hrounds').2
    | leave _ he' hrounds' =>
      rw [he] at he'
      cases he'
      exact ihr hrounds'
  | give he =>
    cases r₂ with
    | give he' =>
      rw [he] at he'
      cases he'
      exact ⟨rfl, rfl⟩
  | stop hv =>
    cases r₂ with
    | stop _ => exact ⟨rfl, rfl⟩
    | next hv' => exact absurd hv hv'
    | exit hv' => exact absurd hv hv'
  | next hv _ _ ihb ihr =>
    cases r₂ with
    | stop hv' => exact absurd hv' hv
    | next _ hbody' hrest' =>
      obtain ⟨rfl, -⟩ := ihb hbody'
      exact ihr hrest'
    | exit _ hbody' => cases (ihb hbody').2
  | exit hv _ ihb =>
    cases r₂ with
    | stop hv' => exact absurd hv' hv
    | next _ hbody' _ => cases (ihb hbody').2
    | exit _ hbody' => exact ihb hbody'

/-! ## Scalars -/

/-- The value of a number. -/
def numberValue (text : String) : Value :=
  if (unsigned text).1 then (negate (numeralValue (unsigned text).2)).getD .nil else numeralValue (unsigned text).2

/-- The value of a scalar. -/
def scalarValue (type : ScalarType) (text : String) : Value :=
  if type.isQuoted then .string text
  else if text = "true" then .boolean true
  else if text = "false" then .boolean false
  else numberValue text

/-- The whole number of 64 bits that a decimal literal stands for. -/
def int64? (text : String) : Option Int :=
  match decimal? (unsigned text).2 with
  | none => none
  | some n =>
    let z : Int := if (unsigned text).1 then -n else n
    if -(integerEnd : Int) ≤ z ∧ z < integerEnd then some z else none

/-- The key that a scalar is: a string, a truth value or a whole number of 64 bits. -/
def keyOf? (type : ScalarType) (text : String) : Option Key :=
  if type.isQuoted then some (.string text)
  else if text = "true" then some (.boolean true)
  else if text = "false" then some (.boolean false)
  else (int64? text).map .integer

theorem numeralValue_cases (text : String) :
    (∃ n, decimal? text = some n ∧ n < integerEnd ∧ numeralValue text = .integer n) ∨
    (∀ n, decimal? text = some n → integerEnd ≤ n) ∧ numeralValue text = .number false text := by
  unfold numeralValue
  cases h : decimal? text with
  | none => exact .inr ⟨fun n hn => (by cases hn), rfl⟩
  | some n =>
    by_cases hn : n < integerEnd
    · exact .inl ⟨n, rfl, hn, if_pos hn⟩
    · refine .inr ⟨fun m hm => ?_, if_neg hn⟩
      obtain rfl := Option.some.inj hm
      omega

/-- A scalar has its value, and needs no table. -/
theorem eval_scalar (ρ : Env) (h : Heap) (type : ScalarType) (text : String) :
    eval ρ (scalarExpr type text) h = some (scalarValue type text, h) := by
  unfold scalarExpr scalarValue
  split
  · rw [eval]
  split
  · rw [eval]
  split
  · rw [eval]
  unfold numberExpr numberValue
  split
  · rw [eval, eval]
    rcases numeralValue_cases (unsigned text).2 with ⟨n, -, -, hv⟩ | ⟨-, hv⟩ <;> simp [hv, negate]
  · rw [eval]

/-- A scalar is neither nil nor a table. -/
theorem scalarValue_ne (type : ScalarType) (text : String) :
    scalarValue type text ≠ .nil ∧ ∀ a, scalarValue type text ≠ .table a := by
  unfold scalarValue
  split
  · simp
  split
  · simp
  split
  · simp
  unfold numberValue
  rcases numeralValue_cases (unsigned text).2 with ⟨n, -, -, hv⟩ | ⟨-, hv⟩ <;> split <;> simp [hv, negate]

/-- **The key of a scalar** is the key that its value is. -/
theorem toKey_scalarValue (type : ScalarType) (text : String) : toKey (scalarValue type text) = keyOf? type text := by
  unfold scalarValue keyOf?
  split
  · rfl
  split
  · rfl
  split
  · rfl
  unfold numberValue int64?
  rcases numeralValue_cases (unsigned text).2 with ⟨n, hn, hlt, hv⟩ | ⟨hlarge, hv⟩
  · rw [hn, hv]
    cases (unsigned text).1 with
    | true =>
      have hrange : (-integerEnd : Int) ≤ -n ∧ (-n : Int) < integerEnd := by omega
      simp only [negate, ↓reduceIte, Option.getD_some, toKey, if_pos hrange, Option.map_some]
    | false =>
      have hrange : (-integerEnd : Int) ≤ n ∧ (n : Int) < integerEnd := by omega
      simp only [Bool.false_eq_true, ↓reduceIte, toKey, if_pos hrange, Option.map_some]
  · rw [hv]
    cases hn : decimal? (unsigned text).2 with
    | none => cases (unsigned text).1 <;> simp [negate, toKey, hn]
    | some n =>
      have hge := hlarge n hn
      cases (unsigned text).1 with
      | true =>
        by_cases hmin : n = integerEnd
        · subst hmin
          have hpos : 0 < integerEnd := by decide
          have hless : (-integerEnd : Int) < integerEnd := by omega
          simp [negate, toKey, hn, hless]
        · have hrange : ¬((-integerEnd : Int) ≤ -n ∧ (-n : Int) < integerEnd) := by omega
          simp only [negate, ↓reduceIte, Option.getD_some, toKey, hn, if_neg hrange, Option.map_none]
          simp [hmin]
      | false =>
        have hrange : ¬((-integerEnd : Int) ≤ n ∧ (n : Int) < integerEnd) := by omega
        simp only [Bool.false_eq_true, ↓reduceIte, toKey, Bool.false_and, if_neg hrange, Option.map_none]

end TableExport.Lua
