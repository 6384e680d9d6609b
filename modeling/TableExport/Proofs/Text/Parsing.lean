import Mathlib.Data.List.Forall2

/-!
# Parsing tokens

A parser reads something off the start of a list of tokens.

- `enclosed` reads items with commas between them up to a closing bracket.
- `Parses` says that certain tokens are read as something whatever follows them.
- `parses_enclosed` puts the tokens of items together.
- `ReadFrom` says that something is read from certain tokens only, and `readFrom_enclosed` goes through items.
-/

namespace TableExport.Text

/-- What reads something off the start of a list of tokens, and gives the tokens behind it. -/
abbrev Parser (τ α : Type) := List τ → Option (α × List τ)

variable {τ α β : Type}

/-- What a parser reads, in another form. -/
def Parser.map (f : α → β) (p : Parser τ α) : Parser τ β :=
  fun ts => (p ts).map fun x => (f x.1, x.2)

/-- The tokens are read as `a`, whatever follows them. -/
def Parses (p : Parser τ α) (ts : List τ) (a : α) : Prop :=
  ∀ r, p (ts ++ r) = some (a, r)

theorem Parses.map {p : Parser τ α} {ts : List τ} {a : α} (h : Parses p ts a) (f : α → β) :
    Parses (p.map f) ts (f a) := by
  intro r
  simp [Parser.map, h r]

/-- There are not more items than tokens in them and between them. -/
theorem length_le_intercalate (comma : τ) : ∀ {tss : List (List τ)}, (∀ ts ∈ tss, ts ≠ []) →
    tss.length ≤ (List.intercalate [comma] tss).length
  | [], _ => Nat.zero_le _
  | [ts], h => by
    have hts := List.length_pos_of_ne_nil (h ts (by simp))
    simpa using Nat.succ_le_of_lt hts
  | ts :: us :: tss, h => by
    have hrest := length_le_intercalate comma fun vs hvs => h vs (List.mem_cons_of_mem ts hvs)
    simp only [List.intercalate_cons_cons, List.length_append, List.length_cons, List.length_nil] at hrest ⊢
    omega

/-- The tokens of an item are among those of all items. -/
theorem length_le_intercalate_of_mem (comma : τ) {ts : List τ} : ∀ {tss : List (List τ)}, ts ∈ tss →
    ts.length ≤ (List.intercalate [comma] tss).length
  | [us], h => by
    rw [List.mem_singleton] at h
    simp [h]
  | us :: vs :: tss, h => by
    simp only [List.intercalate_cons_cons, List.length_append]
    rcases List.mem_cons.1 h with rfl | h
    · omega
    · have := length_le_intercalate_of_mem comma h
      omega

section Enclosed

variable [DecidableEq τ]

/-- At most so many items with commas between them, at least one, and the closing bracket. -/
def itemsUpTo (item : Parser τ α) (comma close : τ) : Nat → Parser τ (List α)
  | 0, _ => none
  | n + 1, ts =>
    match item ts with
    | some (a, t :: r) =>
      if t = close then some ([a], r)
      else if t = comma then (itemsUpTo item comma close n r).map fun x => (a :: x.1, x.2)
      else none
    | _ => none

/-- The items behind an opening bracket, and the closing bracket. -/
def enclosed (item : Parser τ α) (comma close : τ) : Parser τ (List α)
  | [] => none
  | t :: r => if t = close then some ([], r) else itemsUpTo item comma close (t :: r).length (t :: r)

variable {item : Parser τ α} {comma close : τ}

theorem parses_itemsUpTo (hne : comma ≠ close) : ∀ {n : Nat} {tss : List (List τ)} {as : List α},
    List.Forall₂ (Parses item) tss as → tss ≠ [] → tss.length ≤ n →
      Parses (itemsUpTo item comma close n) (List.intercalate [comma] tss ++ [close]) as
  | _, _, _, .nil, hnil, _ => absurd rfl hnil
  | 0, _, _, .cons _ _, _, hn => by simp at hn
  | n + 1, [ts], [a], .cons h .nil, _, _ => by
    intro r
    simp [itemsUpTo, h (close :: r)]
  | n + 1, ts :: us :: tss, a :: b :: as, .cons h (.cons h' hs), _, hn => by
    intro r
    have hrest := parses_itemsUpTo hne (.cons h' hs) (by simp) (Nat.le_of_succ_le_succ hn) r
    have hfirst := h (comma :: (List.intercalate [comma] (us :: tss) ++ [close] ++ r))
    rw [List.intercalate_cons_cons]
    simp only [List.append_assoc, List.cons_append, List.nil_append] at hrest hfirst ⊢
    rw [itemsUpTo, hfirst]
    simp [hne, hrest]

/-- **Items with commas between them** are read behind an opening bracket if each of them is, and none of them starts
with the closing bracket. -/
theorem parses_enclosed (hne : comma ≠ close) {tss : List (List τ)} {as : List α}
    (h : List.Forall₂ (Parses item) tss as) (hhead : ∀ ts ∈ tss, ∃ t r, ts = t :: r ∧ t ≠ close) :
    Parses (enclosed item comma close) (List.intercalate [comma] tss ++ [close]) as := by
  intro r
  cases tss with
  | nil =>
    cases h
    simp [enclosed]
  | cons ts tss =>
    obtain ⟨t, us, hts, ht⟩ := hhead ts List.mem_cons_self
    have hlength := length_le_intercalate comma fun vs (hvs : vs ∈ ts :: tss) => by
      obtain ⟨u, ws, rfl, -⟩ := hhead vs hvs
      simp
    obtain ⟨vs, hvs⟩ : ∃ vs, List.intercalate [comma] (ts :: tss) ++ [close] ++ r = t :: vs := by
      cases tss <;> simp [hts]
    have hitems := parses_itemsUpTo (n := (t :: vs).length) hne h (by simp) (by
      rw [← hvs]
      simp only [List.length_append]
      omega) r
    rw [hvs] at hitems ⊢
    rw [enclosed, if_neg ht]
    exact hitems

end Enclosed

/-! ## What was read -/

/-- Something is read from the tokens only, and what follows them is left. -/
def ReadFrom (p : Parser τ α) (ts : List τ) (a : α) : Prop :=
  ∀ us r, p us = some (a, r) → us = ts ++ r

theorem ReadFrom.map {p : Parser τ α} {ts : List τ} {a : α} (h : ReadFrom p ts a) {f : α → β}
    (hf : Function.Injective f) : ReadFrom (p.map f) ts (f a) := by
  intro us r hmap
  obtain ⟨⟨a', r'⟩, hread, heq⟩ := Option.map_eq_some_iff.1 hmap
  simp only [Prod.mk.injEq] at heq
  obtain ⟨ha, rfl⟩ := heq
  exact h us r' (hf ha ▸ hread)

section Enclosed

variable [DecidableEq τ] {item : Parser τ α} {comma close : τ}

theorem itemsUpTo_ne_nil {n : Nat} {us r : List τ} {as : List α} (h : itemsUpTo item comma close n us = some (as, r)) :
    as ≠ [] := by
  cases n with
  | zero => cases h
  | succ n =>
    rw [itemsUpTo] at h
    split at h
    · split at h
      · cases h
        exact List.cons_ne_nil _ _
      split at h
      · obtain ⟨x, -, heq⟩ := Option.map_eq_some_iff.1 h
        cases heq
        exact List.cons_ne_nil _ _
      · cases h
    · cases h

theorem readFrom_itemsUpTo : ∀ {n : Nat} {tss : List (List τ)} {as : List α}, List.Forall₂ (ReadFrom item) tss as →
    ReadFrom (itemsUpTo item comma close n) (List.intercalate [comma] tss ++ [close]) as
  | 0, _, _, _ => fun us r h => nomatch h
  | _ + 1, _, _, .nil => fun us r h => absurd rfl (itemsUpTo_ne_nil h)
  | n + 1, ts :: tss, a :: as, .cons hitem hitems => by
    intro us r h
    rw [itemsUpTo] at h
    split at h
    · rename_i a' t r' hread
      split at h
      · rename_i hclose
        cases h
        cases hitems
        simp [hitem us _ hread, hclose]
      split at h
      · rename_i hcomma
        obtain ⟨⟨as', r''⟩, hrest, heq⟩ := Option.map_eq_some_iff.1 h
        cases heq
        obtain ⟨us', tss', rfl⟩ : ∃ us' tss', tss = us' :: tss' := by
          cases hitems with
          | nil => exact absurd rfl (itemsUpTo_ne_nil hrest)
          | cons _ _ => exact ⟨_, _, rfl⟩
        rw [List.intercalate_cons_cons, hitem us _ hread, hcomma, readFrom_itemsUpTo hitems _ _ hrest]
        simp
      · cases h
    · cases h

/-- **Items with commas between them** are read behind an opening bracket from the tokens of the items only. -/
theorem readFrom_enclosed {tss : List (List τ)} {as : List α} (h : List.Forall₂ (ReadFrom item) tss as) :
    ReadFrom (enclosed item comma close) (List.intercalate [comma] tss ++ [close]) as := by
  intro us r hread
  cases us with
  | nil => cases hread
  | cons t us =>
    rw [enclosed] at hread
    split at hread
    · rename_i hclose
      cases hread
      cases h
      simp [hclose]
    · exact readFrom_itemsUpTo h _ _ hread

end Enclosed

end TableExport.Text
