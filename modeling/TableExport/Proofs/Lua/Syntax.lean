import TableExport.Proofs.Lua.Token
import TableExport.Proofs.Text.Parsing

/-!
# The syntax of Lua chunks

Expressions and statements as far as generated chunks use them, and a parser. A chunk is refused where Lua would read
anything else: what might go on an expression, such as a call with a string or a constructor, is no end of it.

- `parse` parses a chunk.
- `parses_constructor` puts the fields of a constructor together.
- `parseSuffixes_access`, `parseSuffixes_index` and `parseSuffixes_call` go through an access path.
- `Reads` says that tokens are a list of statements; `Reads.append` and `Reads.of_stat` compose them.
-/

namespace TableExport.Lua

open TableExport.Text

/-- An expression. -/
inductive Expr where
  | boolean (value : Bool)
  /-- A numeral as it is written. -/
  | numeral (text : String)
  | negative (operand : Expr)
  | string (text : String)
  /-- A constructor: items without a key and entries under a name, in order. -/
  | table (fields : List (Option String × Expr))
  /-- A variable. -/
  | name (text : String)
  | index (base key : Expr)
  /-- A call with one argument. -/
  | call (function argument : Expr)

/-- A statement. -/
inductive Stat where
  /-- The declaration of a local variable. -/
  | declare (name : String) (value : Expr)
  | assign (target value : Expr)
  /-- A loop with two variables over what an iterator gives. -/
  | loop (first second : String) (iterator : Expr) (body : List Stat)
  /-- The end of the chunk, with what it returns. -/
  | give (value : Expr)

/-! ## Expressions -/

/-- Takes a token off. -/
def take? (t : Token) : List Token → Option (List Token)
  | [] => none
  | u :: r => if u = t then some r else none

/-- An expression and a closing bracket. -/
def upTo (close : Char) (inner : Parser Token Expr) : Parser Token Expr := fun ts => do
  let (e, r) ← inner ts
  let r ← take? (.sign close) r
  return (e, r)

/-- The rest of a path behind an expression: accesses to fields and calls, at most so many less one. -/
def parseSuffixes (inner : Parser Token Expr) : Nat → Expr → Parser Token Expr
  | 0, _, _ => none
  | _ + 1, e, [] => some (e, [])
  | n + 1, e, t :: r =>
    match t with
    | .sign c =>
      if c = '.' then
        match r with
        | .name x :: r => parseSuffixes inner n (.index e (.string x)) r
        | _ => none
      else if c = '[' then do
        let (k, r) ← upTo ']' inner r
        parseSuffixes inner n (.index e k) r
      else if c = '(' then do
        let (a, r) ← upTo ')' inner r
        parseSuffixes inner n (.call e a) r
      else if c = '\x7b' then none
      else some (e, .sign c :: r)
    | .string _ => none
    | t => some (e, t :: r)

/-- A field of a constructor: an expression, alone or behind its key. -/
def parseField (value : Parser Token Expr) : Parser Token (Option String × Expr)
  | .sign '[' :: .string x :: .sign ']' :: .sign '=' :: r => value.map (fun e => (some x, e)) r
  | .name x :: .sign '=' :: r => value.map (fun e => (some x, e)) r
  | ts => value.map (fun e => (none, e)) ts

/-- An expression in which others are nested at most so deep. -/
def parseExpr : Nat → Parser Token Expr
  | 0, _ => none
  | _ + 1, [] => none
  | n + 1, t :: r =>
    match t with
    | .keyword w =>
      if w = "true" then some (.boolean true, r)
      else if w = "false" then some (.boolean false, r)
      else none
    | .numeral text => some (.numeral text, r)
    | .string text => some (.string text, r)
    | .name x => parseSuffixes (parseExpr n) (n + 1) (.name x) r
    | .sign c =>
      if c = '\x7b' then (enclosed (parseField (parseExpr n)) (.sign ',') (.sign '\x7d')).map .table r
      else if c = '-' then
        match r with
        | .numeral text :: r => some (.negative (.numeral text), r)
        | _ => none
      else none

/-- An expression. -/
def expression : Parser Token Expr :=
  fun ts => parseExpr ts.length ts

/-! ## Statements -/

/-- A name. -/
def identifier : Parser Token String
  | .name x :: r => some (x, r)
  | _ => none

/-- The expression stands for a variable or a field. -/
def Expr.isTarget : Expr → Bool
  | .name _ | .index .. => true
  | _ => false

/-- A statement; `block` reads the body of a loop. -/
def parseStat (block : Parser Token (List Stat)) (ts : List Token) : Option (Stat × List Token) :=
  match ts with
  | .keyword w :: r =>
    if w = "local" then do
      let (x, r) ← identifier r
      let r ← take? (.sign '=') r
      let (e, r) ← expression r
      return (.declare x e, r)
    else if w = "for" then do
      let (x, r) ← identifier r
      let r ← take? (.sign ',') r
      let (y, r) ← identifier r
      let r ← take? (.keyword "in") r
      let (e, r) ← expression r
      let r ← take? (.keyword "do") r
      let (body, r) ← block r
      let r ← take? (.keyword "end") r
      return (.loop x y e body, r)
    else if w = "return" then do
      let (e, r) ← expression r
      return (.give e, r)
    else none
  | .name _ :: _ => do
    let (target, r) ← expression ts
    if target.isTarget then
      let r ← take? (.sign '=') r
      let (e, r) ← expression r
      return (.assign target e, r)
    else none
  | _ => none

/-- The token ends a block. -/
def Token.isEnd (t : Token) : Bool :=
  t = .keyword "end"

/-- Statements up to the end of their block, at most so many less one; nothing may stand behind a return. -/
def parseBlock : Nat → Parser Token (List Stat)
  | 0, _ => none
  | n + 1, ts =>
    if (ts.head?.map Token.isEnd).getD true then some ([], ts)
    else do
      let (s, r) ← parseStat (parseBlock n) ts
      match s with
      | .give _ => if (r.head?.map Token.isEnd).getD true then return ([s], r) else none
      | _ => do
        let (ss, r) ← parseBlock n r
        return (s :: ss, r)

/-- Parses a chunk. -/
def parse (text : String) : Option (List Stat) := do
  let ts ← tokens? nextToken text.toList
  match parseBlock (ts.length + 1) ts with
  | some (ss, []) => some ss
  | _ => none

/-! ## Parsing what is generated -/

/-- The token goes on an expression in front of it. -/
def Token.goesOn : Token → Bool
  | .sign c => ['.', '[', '(', '\x7b'].contains c
  | .string _ => true
  | _ => false

/-- Nothing goes on an expression in front of the tokens. -/
def EndsExpr (ts : List Token) : Prop :=
  ∀ t ∈ ts.head?, t.goesOn = false

/-- The access to a field. -/
def accessTokens (name : String) : List Token :=
  if isIdentifier name then [.sign '.', .name name] else [.sign '[', .string name, .sign ']']

section Suffixes

variable {inner : Parser Token Expr} {n : Nat} {e : Expr} {name : String} {ts r : List Token}

theorem parseSuffixes_end (h : EndsExpr r) : parseSuffixes inner (n + 1) e r = some (e, r) := by
  cases r with
  | nil => rfl
  | cons t r =>
    have ht := h t rfl
    cases t with
    | sign c =>
      simp only [Token.goesOn, List.contains_eq_mem, List.mem_cons, List.not_mem_nil, or_false, not_or,
        decide_eq_false_iff_not] at ht
      simp [parseSuffixes, ht]
    | string text => cases ht
    | _ => rfl

theorem parseSuffixes_access (h : Parses inner [.string name] (.string name)) :
    parseSuffixes inner (n + 1) e (accessTokens name ++ r) = parseSuffixes inner n (.index e (.string name)) r := by
  unfold accessTokens
  split
  · rfl
  · have hinner := h (.sign ']' :: r)
    rw [List.singleton_append] at hinner
    simp [parseSuffixes, upTo, hinner, take?]

theorem parseSuffixes_index {k : Expr} (h : inner ts = some (k, .sign ']' :: r)) :
    parseSuffixes inner (n + 1) e (.sign '[' :: ts) = parseSuffixes inner n (.index e k) r := by
  simp [parseSuffixes, upTo, h, take?]

theorem parseSuffixes_call {a : Expr} (h : inner ts = some (a, .sign ')' :: r)) :
    parseSuffixes inner (n + 1) e (.sign '(' :: ts) = parseSuffixes inner n (.call e a) r := by
  simp [parseSuffixes, upTo, h, take?]

end Suffixes

/-- **Fields between the brackets of a constructor** are read if each of them is. -/
theorem parses_constructor {n : Nat} {tss : List (List Token)} {fields : List (Option String × Expr)}
    (h : List.Forall₂ (Parses (parseField (parseExpr n))) tss fields)
    (hhead : ∀ ts ∈ tss, ∃ t r, ts = t :: r ∧ t ≠ .sign '\x7d') :
    Parses (parseExpr (n + 1)) (.sign '\x7b' :: List.intercalate [.sign ','] tss ++ [.sign '\x7d'])
      (.table fields) :=
  (parses_enclosed (by simp) h hhead).map Expr.table

/-! ## Lists of statements -/

/-- The token may start a statement or end a block. -/
def Token.startsStat : Token → Bool
  | .name _ | .keyword _ => true
  | _ => false

/-- The tokens may stand behind a statement. -/
def FollowsStat (ts : List Token) : Prop :=
  ∀ t ∈ ts.head?, t.startsStat = true

theorem FollowsStat.endsExpr {ts : List Token} (h : FollowsStat ts) : EndsExpr ts := by
  intro t ht
  have := h t ht
  cases t <;> simp_all [Token.startsStat, Token.goesOn]

/-- The tokens are those statements, whatever follows them; the parser takes no more steps than there are tokens. -/
structure Reads (ts : List Token) (ss : List Stat) : Prop where
  length : ss.length ≤ ts.length
  follows : FollowsStat ts
  block (n : Nat) (r : List Token) (hr : FollowsStat r) (hn : ts.length < n) :
    parseBlock n (ts ++ r) = (parseBlock (n - ss.length) r).map fun x => (ss ++ x.1, x.2)

theorem FollowsStat.append {ts r : List Token} (h : FollowsStat ts) (hr : FollowsStat r) : FollowsStat (ts ++ r) := by
  cases ts with
  | nil => exact hr
  | cons t ts => exact h

theorem reads_nil : Reads [] [] where
  length := Nat.le_refl _
  follows := by intro t ht; cases ht
  block n r _ _ := by
    cases h : parseBlock n r <;> simp [h]

/-- Statements in a row. -/
theorem Reads.append {ts us : List Token} {ss ss' : List Stat} (h : Reads ts ss) (h' : Reads us ss') :
    Reads (ts ++ us) (ss ++ ss') where
  length := by
    have := h.length
    have := h'.length
    simp only [List.length_append]
    omega
  follows := h.follows.append h'.follows
  block n r hr hn := by
    have hlength := h.length
    rw [List.length_append] at hn
    rw [List.append_assoc, h.block n (us ++ r) (h'.follows.append hr) (by omega),
      h'.block (n - ss.length) r hr (by omega), Option.map_map, List.length_append, Nat.sub_sub]
    congr 1
    funext x
    simp

theorem reads_flatMap {α : Type} {f : α → List Token} {g : α → List Stat} :
    ∀ {as : List α}, (∀ a ∈ as, Reads (f a) (g a)) → Reads (as.flatMap f) (as.flatMap g)
  | [], _ => reads_nil
  | a :: as, h => by
    rw [List.flatMap_cons, List.flatMap_cons]
    exact (h a List.mem_cons_self).append (reads_flatMap fun b hb => h b (List.mem_cons_of_mem a hb))

/-- The token starts a statement and ends no block. -/
def Token.opensStat (t : Token) : Bool :=
  t.startsStat && !t.isEnd

/-- **One statement**, if it is no return. -/
theorem Reads.of_stat {ts : List Token} {s : Stat} (ht : ∃ t us, ts = t :: us ∧ t.opensStat = true)
    (hs : ∀ e, s ≠ .give e)
    (h : ∀ n r, FollowsStat r → ts.length ≤ n → parseStat (parseBlock n) (ts ++ r) = some (s, r)) :
    Reads ts [s] := by
  obtain ⟨t, us, rfl, ht⟩ := ht
  simp only [Token.opensStat, Bool.and_eq_true, Bool.not_eq_true'] at ht
  refine ⟨by simp, ?_, fun n r hr hn => ?_⟩
  · intro u hu
    obtain rfl := Option.some.inj hu
    exact ht.1
  · obtain ⟨n, rfl⟩ : ∃ m, n = m + 1 := ⟨n - 1, by omega⟩
    have hstat := h n r hr (by omega)
    rw [List.cons_append] at hstat ⊢
    rw [parseBlock]
    simp only [List.head?_cons, Option.map_some, Option.getD_some, ht.2, Bool.false_eq_true, ↓reduceIte, hstat]
    cases s with
    | give e => exact absurd rfl (hs e)
    | _ => cases hrest : parseBlock n r <;> simp [hrest]

/-! ## Single statements -/

theorem parses_expression {ts : List Token} {e : Expr} (h : ∀ n, ts.length ≤ n → Parses (parseExpr n) ts e) :
    Parses expression ts e := by
  intro r
  exact h _ (by simp) r

section Stats

variable {block : Parser Token (List Stat)} {x y : String} {e target : Expr} {body : List Stat}
variable {ts r r' : List Token}

theorem parseStat_declare (h : expression ts = some (e, r)) :
    parseStat block (.keyword "local" :: .name x :: .sign '=' :: ts) = some (.declare x e, r) := by
  simp [parseStat, identifier, take?, h]

theorem parseStat_assign (ht : expression (.name x :: ts) = some (target, .sign '=' :: r))
    (hkind : target.isTarget = true) (h : expression r = some (e, r')) :
    parseStat block (.name x :: ts) = some (.assign target e, r') := by
  simp [parseStat, ht, hkind, take?, h]

theorem parseStat_loop (h : expression ts = some (e, .keyword "do" :: r))
    (hbody : block r = some (body, .keyword "end" :: r')) :
    parseStat block (.keyword "for" :: .name x :: .sign ',' :: .name y :: .keyword "in" :: ts) =
      some (.loop x y e body, r') := by
  simp [parseStat, identifier, take?, h, hbody]

theorem parseStat_give (h : expression ts = some (e, r)) :
    parseStat block (.keyword "return" :: ts) = some (.give e, r) := by
  simp [parseStat, h]

/-- The last statement of a chunk. -/
theorem parseBlock_give {n : Nat} (h : expression ts = some (e, [])) :
    parseBlock (n + 1) (.keyword "return" :: ts) = some ([.give e], []) := by
  have hend : Token.isEnd (.keyword "return") = false := by decide
  simp [parseBlock, hend, parseStat_give h]

/-- The end of the body of a loop. -/
theorem parseBlock_end {n : Nat} : parseBlock (n + 1) (.keyword "end" :: r) = some ([], .keyword "end" :: r) := by
  have hend : Token.isEnd (.keyword "end") = true := by decide
  simp [parseBlock, hend]

end Stats

end TableExport.Lua
