import Mathlib.Data.List.Forall2
import Mathlib.Data.List.TakeWhile

/-!
# Cutting a text into tokens

A tokenizer finds the tokens at the start of a text, none where the text only separates tokens, and the text behind
them. Applied again and again it cuts a whole text.

- `tokens?` cuts a text with a tokenizer.
- `Spells` says that a text is cut into certain tokens whatever follows it, as long as what follows may stand there;
  spellings compose (`Spells.append`), and one step of the tokenizer gives one (`Spells.of_next`).
- `spells_joined` composes the items of a list with a separator between them.
-/

namespace TableExport.Text

/-- What finds the tokens at the start of a text that is not empty, and the text behind them. -/
abbrev Tokenizer (τ : Type) := List Char → Option (List τ × List Char)

variable {τ : Type}

/-- The tokens of a text behind its first characters, so many of which belong to tokens that are read already. -/
def tokensBehind (next : Tokenizer τ) : Nat → List Char → Option (List τ)
  | _, [] => some []
  | n + 1, _ :: s => tokensBehind next n s
  | 0, c :: s =>
    match next (c :: s) with
    | none => none
    | some (ts, r) => (tokensBehind next (s.length - r.length) s).map (ts ++ ·)

/-- The tokens of a text. -/
def tokens? (next : Tokenizer τ) (s : List Char) : Option (List τ) :=
  tokensBehind next 0 s

variable {next : Tokenizer τ}

@[simp] theorem tokens?_nil : tokens? next [] = some [] := rfl

/-- Reading on behind some characters is reading the rest of the text. -/
theorem tokensBehind_eq_drop : ∀ (n : Nat) (s : List Char), tokensBehind next n s = tokens? next (s.drop n)
  | 0, _ => rfl
  | n + 1, [] => rfl
  | n + 1, _ :: s => by
    rw [List.drop_succ_cons, ← tokensBehind_eq_drop n s]
    rfl

/-- One step of the tokenizer that takes some text off. -/
theorem tokens?_cons {c : Char} {s r : List Char} {ts : List τ} (h : next (c :: s ++ r) = some (ts, r)) :
    tokens? next (c :: s ++ r) = (tokens? next r).map (ts ++ ·) := by
  have hd : (s ++ r).drop ((s ++ r).length - r.length) = r := by simp
  rw [List.cons_append] at h ⊢
  rw [tokens?, tokensBehind, h]
  simp only [tokensBehind_eq_drop, hd]

/-! ## Spellings -/

/-- In front of every text with the property, `s` is cut into the tokens `ts`. -/
def Spells (next : Tokenizer τ) (follows : List Char → Prop) (s : List Char) (ts : List τ) : Prop :=
  ∀ r, follows r → tokens? next (s ++ r) = (tokens? next r).map (ts ++ ·)

/-- Every text may follow. -/
def Anything (_ : List Char) : Prop := True

/-- What the renderers write behind a value: nothing, a comma, a blank or a line break. -/
def AtBreak (s : List Char) : Prop :=
  s = [] ∨ ∃ c r, s = c :: r ∧ (c = ',' ∨ c = ' ' ∨ c = '\n')

/-- What the builder writes behind a line. -/
def AtLineEnd (s : List Char) : Prop :=
  ∃ r, s = '\n' :: r

variable {follows : List Char → Prop} {s t : List Char} {ts us : List τ}

/-- The text spells the tokens alone. -/
theorem Spells.tokens? (h : Spells next follows s ts) (hf : follows []) : tokens? next s = some ts := by
  have := h [] hf
  simpa using this

theorem Spells.weaken {follows' : List Char → Prop} (h : Spells next follows s ts) (hf : ∀ r, follows' r → follows r) :
    Spells next follows' s ts :=
  fun r hr => h r (hf r hr)

/-- A spelling in front of anything holds in front of everything. -/
theorem Spells.before (h : Spells next Anything s ts) : Spells next follows s ts :=
  h.weaken fun _ _ => trivial

theorem Spells.atLineEnd (h : Spells next AtBreak s ts) : Spells next AtLineEnd s ts :=
  h.weaken fun _ ⟨r, hr⟩ => .inr ⟨'\n', r, hr, .inr (.inr rfl)⟩

theorem spells_nil : Spells next follows [] [] := by
  intro r _
  cases h : Text.tokens? next r <;> simp [h]

/-- One step of the tokenizer is a spelling. -/
theorem Spells.of_next {c : Char} (h : ∀ r, follows r → next (c :: s ++ r) = some (ts, r)) :
    Spells next follows (c :: s) ts :=
  fun r hr => tokens?_cons (h r hr)

/-- Two spellings in a row. -/
theorem Spells.append {between : List Char → Prop} (hs : Spells next between s ts) (ht : Spells next follows t us)
    (hb : ∀ r, follows r → between (t ++ r)) : Spells next follows (s ++ t) (ts ++ us) := by
  intro r hr
  rw [List.append_assoc, hs _ (hb r hr), ht r hr, Option.map_map]
  congr 1
  funext x
  simp

/-- Two spellings in a row, when anything may stand behind the first. -/
theorem Spells.then (hs : Spells next Anything s ts) (ht : Spells next follows t us) :
    Spells next follows (s ++ t) (ts ++ us) :=
  hs.append ht fun _ _ => trivial

/-- Characters that separate tokens spell nothing. -/
theorem spells_separators (hblank : ∀ c ∈ s, Spells next Anything [c] []) : Spells next Anything s [] := by
  induction s with
  | nil => exact spells_nil
  | cons c s ih =>
    have hs := ih fun d hd => hblank d (List.mem_cons_of_mem _ hd)
    exact (hblank c List.mem_cons_self).then hs

/-- What is of one kind ends where something of another kind follows. -/
theorem takeWhile_append_of_head {α : Type} {p : α → Bool} (s : List α) {r : List α} (h : ∀ c ∈ r.head?, p c = false) :
    (s ++ r).takeWhile p = s.takeWhile p ∧ (s ++ r).dropWhile p = s.dropWhile p ++ r := by
  induction s with
  | nil =>
    cases r with
    | nil => simp
    | cons c r => simp [h c rfl]
  | cons c s ih =>
    by_cases hc : p c
    · simp [hc, ih]
    · simp [hc]

theorem atBreak_cons {c : Char} (hc : c = ',' ∨ c = ' ' ∨ c = '\n') (r : List Char) : AtBreak (c :: r) :=
  .inr ⟨c, r, rfl, hc⟩

/-! ## Lists of items -/

/-- Items in front of breaks with a separator between them that starts with one. -/
theorem spells_joined {separator : List Char} {sep : List τ} {c : Char} {tail : List Char}
    (hsep : Spells next Anything separator sep) (hc : separator = c :: tail) (hbreak : c = ',' ∨ c = ' ' ∨ c = '\n') :
    ∀ {items : List (List Char)} {spelt : List (List τ)}, List.Forall₂ (Spells next AtBreak) items spelt →
      Spells next AtBreak (List.intercalate separator items) (List.intercalate sep spelt)
  | _, _, .nil => spells_nil
  | _, _, .cons ha .nil => by simpa using ha
  | _, _, .cons ha (.cons hb h) => by
    have hrest := spells_joined hsep hc hbreak (.cons hb h)
    simp only [List.intercalate_cons_cons, List.append_assoc]
    refine ha.append (hsep.then hrest) fun r _ => ?_
    rw [hc]
    exact atBreak_cons hbreak _

end TableExport.Text
