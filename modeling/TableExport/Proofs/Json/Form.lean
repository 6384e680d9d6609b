import TableExport.Json.Record
import TableExport.Proofs.Json.Passing

/-!
# Readers and outlines

What a reader finds depends only on the outline of the text in front of it: it succeeds exactly where the text opens
with a value from whose outline the result can be taken.

- `Form` is a reader together with what it takes from an outline, and the proof that they agree.
- `opens_null` and its like say what a text looks like that opens with a value of some kind.
- `Form.string`, `Form.boolean`, `Form.int32` and `Form.variant` are the forms of values without parts.
- `Form.map` and `Form.nullable` make forms of others.
-/

namespace TableExport.Json

/-- A kind of values: how they are read, and what their outlines say. -/
structure Form (α : Type) where
  read : Reader α
  decode : Outline → Option α
  agrees : ∀ {s r : List Char} {a : α}, read s = .ok (a, r) ↔ ∃ v, Opens s (.value v) r ∧ decode v = some a

variable {α β σ : Type} {s r : List Char} {v : Outline} {first : Bool}

/-- What a reader finds, in another form. -/
theorem readMap_eq_ok {x : Except Failure (α × List Char)} {f : α → β} {b : β} :
    (do
      let (a, r) ← x
      return (f a, r)) = .ok (b, r) ↔ ∃ a, x = .ok (a, r) ∧ f a = b := by
  cases x with
  | error e => exact ⟨nofun, nofun⟩
  | ok p =>
    obtain ⟨a, r'⟩ := p
    constructor
    · intro h
      cases h
      exact ⟨a, rfl, rfl⟩
    · rintro ⟨a, h, rfl⟩
      cases h
      rfl

theorem readAs_eq_ok {x : Except Failure (List Char)} {a b : α} :
    (do return (a, ← x)) = .ok (b, r) ↔ x = .ok r ∧ a = b := by
  cases x with
  | error e => exact ⟨nofun, nofun⟩
  | ok r' =>
    constructor
    · intro h
      cases h
      exact ⟨rfl, rfl⟩
    · rintro ⟨h, rfl⟩
      cases h
      rfl

theorem readNumber_eq_ok {n : Number} :
    readNumber s = .ok (n, r) ↔ ∃ t, scanNumber .endOfValue s = .ok (t, r) ∧ t.value? = some n := by
  rw [readNumber, bind_eq_ok]
  constructor
  · rintro ⟨⟨t, r'⟩, hscan, h⟩
    dsimp only at h
    split at h
    · rename_i hvalue
      cases h
      exact ⟨t, hscan, hvalue⟩
    · cases h
  · rintro ⟨t, hscan, hvalue⟩
    refine ⟨(t, r), hscan, ?_⟩
    simp only [hvalue]
    rfl

/-! ## What a text opens with -/

theorem opens_null : Opens s (.value .null) r ↔ ∃ s', skipBlanks s = 'n' :: s' ∧ readWord ['u', 'l', 'l'] s' = .ok r := by
  constructor
  · intro h
    cases h with
    | scalar h =>
      generalize skipBlanks s = u at h
      cases h with
      | null h => exact ⟨_, rfl, h⟩
  · rintro ⟨s', hs, h⟩
    exact .scalar (hs ▸ .null h)

theorem opens_yes : Opens s (.value (.boolean true)) r ↔
    ∃ s', skipBlanks s = 't' :: s' ∧ readWord ['r', 'u', 'e'] s' = .ok r := by
  constructor
  · intro h
    cases h with
    | scalar h =>
      generalize skipBlanks s = u at h
      cases h with
      | yes h => exact ⟨_, rfl, h⟩
  · rintro ⟨s', hs, h⟩
    exact .scalar (hs ▸ .yes h)

theorem opens_no : Opens s (.value (.boolean false)) r ↔
    ∃ s', skipBlanks s = 'f' :: s' ∧ readWord ['a', 'l', 's', 'e'] s' = .ok r := by
  constructor
  · intro h
    cases h with
    | scalar h =>
      generalize skipBlanks s = u at h
      cases h with
      | no h => exact ⟨_, rfl, h⟩
  · rintro ⟨s', hs, h⟩
    exact .scalar (hs ▸ .no h)

theorem opens_number {t : Numeral} : Opens s (.value (.number t)) r ↔
    ∃ c s', skipBlanks s = c :: s' ∧ (c = '-' || c.isDigit) = true ∧ scanNumber .endOfValue (c :: s') = .ok (t, r) := by
  constructor
  · intro h
    cases h with
    | scalar h =>
      generalize skipBlanks s = u at h
      cases h with
      | number hc h => exact ⟨_, _, rfl, hc, h⟩
  · rintro ⟨c, s', hs, hc, h⟩
    exact .scalar (hs ▸ .number hc h)

theorem opens_string {text : String} : Opens s (.value (.string (some text))) r ↔
    ∃ s' t, skipBlanks s = '"' :: s' ∧ readText s' = .ok (t, r) ∧ String.ofList t = text := by
  constructor
  · intro h
    cases h with
    | scalar h =>
      generalize skipBlanks s = u at h
      cases h with
      | string hskip htext =>
        obtain ⟨t, hread, ht⟩ := readText_eq_ok.1 ⟨hskip, htext⟩
        exact ⟨_, t, rfl, hread, ht⟩
  · rintro ⟨s', t, hs, hread, ht⟩
    obtain ⟨hskip, htext⟩ := readText_eq_ok.2 ⟨t, hread, ht⟩
    exact .scalar (hs ▸ .string hskip htext)

theorem opens_array {vs : List Outline} : Opens s (.value (.array vs)) r ↔
    ∃ s', skipBlanks s = '[' :: s' ∧ Opens s' (.items true vs) r := by
  constructor
  · intro h
    cases h with
    | scalar h =>
      generalize skipBlanks s = u at h
      cases h
    | array hs h => exact ⟨_, hs, h⟩
  · rintro ⟨s', hs, h⟩
    exact .array hs h

theorem opens_object {ms : List (Option String × Outline)} : Opens s (.value (.object ms)) r ↔
    ∃ s', skipBlanks s = '\x7b' :: s' ∧ Opens s' (.members true ms) r := by
  constructor
  · intro h
    cases h with
    | scalar h =>
      generalize skipBlanks s = u at h
      cases h
    | object hs h => exact ⟨_, hs, h⟩
  · rintro ⟨s', hs, h⟩
    exact .object hs h

namespace Form

/-! ## Values without parts -/

/-- Strings that can be decoded. -/
def string : Form String where
  read := readString
  decode
    | .string text => text
    | _ => none
  agrees {s r a} := by
    unfold readString readStringAs
    constructor
    · intro h
      split at h
      · cases h
      · rename_i c s' hs
        split at h
        · rename_i hc
          obtain ⟨t, hread, rfl⟩ := readMap_eq_ok.1 h
          exact ⟨.string (some (String.ofList t)), opens_string.2 ⟨s', t, hc ▸ hs, hread, rfl⟩, rfl⟩
        · cases h
    · rintro ⟨v, hv, hdecode⟩
      cases v with
      | string text =>
        cases hdecode
        obtain ⟨s', t, hs, hread, ht⟩ := opens_string.1 hv
        simp only [hs, ↓reduceIte]
        exact readMap_eq_ok.2 ⟨t, hread, ht⟩
      | _ => cases hdecode

/-- Truth values. -/
def boolean : Form Bool where
  read := readBoolean
  decode
    | .boolean b => some b
    | _ => none
  agrees {s r b} := by
    unfold readBoolean
    constructor
    · intro h
      split at h
      · cases h
      · rename_i c s' hs
        split at h
        · rename_i hc
          obtain ⟨hword, rfl⟩ := readAs_eq_ok.1 h
          exact ⟨.boolean true, opens_yes.2 ⟨s', hc ▸ hs, hword⟩, rfl⟩
        split at h
        · rename_i hc
          obtain ⟨hword, rfl⟩ := readAs_eq_ok.1 h
          exact ⟨.boolean false, opens_no.2 ⟨s', hc ▸ hs, hword⟩, rfl⟩
        · cases h
    · rintro ⟨v, hv, hdecode⟩
      cases v with
      | boolean b =>
        cases hdecode
        cases b with
        | true =>
          obtain ⟨s', hs, hword⟩ := opens_yes.1 hv
          simp only [hs, ↓reduceIte]
          exact readAs_eq_ok.2 ⟨hword, rfl⟩
        | false =>
          obtain ⟨s', hs, hword⟩ := opens_no.1 hv
          simp only [hs, (by decide : 'f' ≠ 't'), ↓reduceIte]
          exact readAs_eq_ok.2 ⟨hword, rfl⟩
      | _ => cases hdecode

/-- The whole number of 32 bits that a numeral stands for. -/
def int32? (t : Numeral) : Option Int32 :=
  match t.value? with
  | some (.integer n) =>
    if -(Decimal.twoTo 31 : Int) ≤ n ∧ n < Decimal.twoTo 31 then some (Int32.ofInt n) else none
  | _ => none

/-- Whole numbers of 32 bits. -/
def int32 : Form Int32 where
  read := readInt32
  decode
    | .number t => int32? t
    | _ => none
  agrees {s r n} := by
    unfold readInt32
    constructor
    · intro h
      split at h
      · cases h
      · rename_i c s' hs
        split at h
        · rename_i hc
          split at h
          · cases h
          · cases h
          · rename_i m r' hnumber
            obtain ⟨t, hscan, hvalue⟩ := readNumber_eq_ok.1 hnumber
            split at h
            · rename_i hrange
              cases h
              refine ⟨.number t, opens_number.2 ⟨c, s', hs, hc, hscan⟩, ?_⟩
              simp only [int32?, hvalue]
              exact if_pos hrange
            · cases h
        · cases h
    · rintro ⟨v, hv, hdecode⟩
      cases v with
      | number t =>
        obtain ⟨c, s', hs, hc, hscan⟩ := opens_number.1 hv
        simp only [int32?] at hdecode
        split at hdecode
        · rename_i m hvalue
          have hnumber := readNumber_eq_ok.2 ⟨t, hscan, hvalue⟩
          simp only [hs, hc, ↓reduceIte, hnumber]
          obtain ⟨hrange, hdecode⟩ := Option.ite_none_right_eq_some.1 hdecode
          cases hdecode
          exact if_pos hrange
        · cases hdecode
      | _ => cases hdecode

/-- What a form gives, in another shape. -/
def map (form : Form α) (f : α → β) : Form β where
  read s := do
    let (a, r) ← form.read s
    return (f a, r)
  decode v := (form.decode v).map f
  agrees {s r b} := by
    rw [readMap_eq_ok]
    simp only [form.agrees, Option.map_eq_some_iff]
    constructor
    · rintro ⟨a, ⟨v, h, hv⟩, hb⟩
      exact ⟨v, h, a, hv, hb⟩
    · rintro ⟨v, h, a, hv, hb⟩
      exact ⟨a, ⟨v, h, hv⟩, hb⟩

/-- What an outline says, if it is not `null`. -/
def orNull (decode : Outline → Option α) : Outline → Option (Option α)
  | .null => some none
  | v => (decode v).map some

theorem orNull_of_ne {decode : Outline → Option α} (hv : v ≠ .null) : orNull decode v = (decode v).map some := by
  cases v with
  | null => exact absurd rfl hv
  | _ => rfl

/-- What a form gives, or `null`. -/
def nullable (form : Form α) : Form (Option α) where
  read := readNullable form.read
  decode := orNull form.decode
  agrees {s r a} := by
    unfold readNullable
    constructor
    · intro h
      split at h
      · cases hread : form.read [] with
        | error f =>
          rw [hread] at h
          cases h
        | ok p =>
          obtain ⟨v, hv, -⟩ := form.agrees.1 hread
          exact absurd hv.length_lt (Nat.not_lt_zero _)
      · rename_i c s' hs
        split at h
        · rename_i hc
          obtain ⟨hword, rfl⟩ := readAs_eq_ok.1 h
          exact ⟨.null, opens_null.2 ⟨s', hc ▸ hs, hword⟩, rfl⟩
        · rename_i hc
          obtain ⟨a, hread, rfl⟩ := readMap_eq_ok.1 h
          obtain ⟨v, hv, hdecode⟩ := form.agrees.1 hread
          rw [← hs, opens_skipBlanks] at hv
          refine ⟨v, hv, ?_⟩
          obtain ⟨d, s'', hd, -, hnull⟩ := hv.head
          cases hs.symm.trans hd
          rw [orNull_of_ne fun hv => hc (hnull.2 hv), hdecode]
          rfl
    · rintro ⟨v, hv, hdecode⟩
      obtain ⟨c, s', hs, -, hnull⟩ := hv.head
      by_cases hc : c = 'n'
      · obtain rfl := hnull.1 hc
        obtain ⟨s'', hs', hword⟩ := opens_null.1 hv
        cases hdecode
        simp only [hs', ↓reduceIte]
        exact readAs_eq_ok.2 ⟨hword, rfl⟩
      · rw [orNull_of_ne fun hv => hc (hnull.2 hv), Option.map_eq_some_iff] at hdecode
        obtain ⟨a, hdecode, rfl⟩ := hdecode
        rw [← opens_skipBlanks, hs] at hv
        simp only [hs, hc, ↓reduceIte]
        exact readMap_eq_ok.2 ⟨a, form.agrees.2 ⟨v, hv, hdecode⟩, rfl⟩

end Form

/-! ## Variants -/

theorem readVariantKey_eq_ok {name : String} : readVariantKey s = .ok (name, r) ↔
    ∃ s' t, skipBlanks s = '"' :: s' ∧ readText s' = .ok (t, r) ∧ String.ofList t = name := by
  rw [readVariantKey]
  cases skipBlanks s with
  | nil => simp
  | cons c s' =>
    by_cases hc : c = '"'
    · simp only [hc, ↓reduceIte, readMap_eq_ok, List.cons.injEq, true_and, exists_and_left, exists_eq_left']
    · simp [hc]

theorem readNull_eq_ok : readNull s = .ok r ↔ Opens s (.value .null) r := by
  rw [opens_null, readNull]
  cases skipBlanks s with
  | nil => simp
  | cons c s' =>
    by_cases hc : c = 'n'
    · simp only [hc, ↓reduceIte, List.cons.injEq, true_and, exists_eq_left']
    · simp [hc]

theorem variantNamed_eq_ok {variants : List α} {name : α → String} {n : String} {a : α} :
    variantNamed variants name n s = .ok (a, r) ↔ variants.find? (name · = n) = some a ∧ s = r := by
  rw [variantNamed]
  cases variants.find? (name · = n) with
  | none => simp
  | some b => simp

/-- The object with one member that has `null` as its value. -/
theorem opens_single {name : String} : Opens s (.value (.object [(some name, .null)])) r ↔
    ∃ s₁ s₂ s₃ s₄, skipBlanks s = '\x7b' :: s₁ ∧ readVariantKey s₁ = .ok (name, s₂) ∧ readColon s₂ = .ok s₃ ∧
      readNull s₃ = .ok s₄ ∧ skipBlanks s₄ = '\x7d' :: r := by
  simp only [opens_object, readVariantKey_eq_ok, readColon_eq_ok, readNull_eq_ok]
  constructor
  · rintro ⟨s₁, hs, h⟩
    cases h with
    | member hcomma hquote hskip htext hcolon hnull hend =>
      cases hcomma
      obtain ⟨t, hread, ht⟩ := readText_eq_ok.1 ⟨hskip, htext⟩
      cases hend with
      | noMember hclose => exact ⟨_, _, _, _, hs, ⟨_, t, hquote, hread, ht⟩, hcolon, hnull, hclose⟩
  · rintro ⟨s₁, s₂, s₃, s₄, hs, ⟨k, t, hquote, hread, ht⟩, hcolon, hnull, hclose⟩
    obtain ⟨hskip, htext⟩ := readText_eq_ok.2 ⟨t, hread, ht⟩
    exact ⟨s₁, hs, .member rfl hquote hskip htext hcolon hnull (.noMember hclose)⟩

/-- What is found by a name: the name itself, or an object with `null` under it. -/
def named (find? : String → Option α) (depth : Nat) : Outline → Option α
  | .string text => text.bind find?
  | .object [(name, .null)] => if depth = 0 then none else name.bind find?
  | _ => none

theorem named_eq_some {find? : String → Option α} {depth : Nat} {a : α} : named find? depth v = some a ↔
    ∃ name, find? name = some a ∧ (v = .string (some name) ∨ depth ≠ 0 ∧ v = .object [(some name, .null)]) := by
  constructor
  · intro h
    unfold named at h
    split at h
    · obtain ⟨name, rfl, hname⟩ := Option.bind_eq_some_iff.1 h
      exact ⟨name, hname, .inl rfl⟩
    · split at h
      · cases h
      · rename_i hdepth
        obtain ⟨name, rfl, hname⟩ := Option.bind_eq_some_iff.1 h
        exact ⟨name, hname, .inr ⟨hdepth, rfl⟩⟩
    · cases h
  · rintro ⟨name, hname, rfl | ⟨hdepth, rfl⟩⟩
    · exact hname
    · exact (if_neg hdepth).trans hname

/-- One of several variants. -/
def Form.variant (variants : List α) (name : α → String) (depth : Nat) : Form α where
  read := readVariant variants name depth
  decode := named (fun n => variants.find? (name · = n)) depth
  agrees {s r a} := by
    simp only [named_eq_some]
    unfold readVariant
    constructor
    · intro h
      split at h
      · cases h
      · rename_i c s₁ hs
        split at h
        · rename_i hc
          obtain ⟨⟨t, r'⟩, hread, h⟩ := bind_eq_ok.1 h
          obtain ⟨hfind, rfl⟩ := variantNamed_eq_ok.1 h
          exact ⟨_, opens_string.2 ⟨s₁, t, hc ▸ hs, hread, rfl⟩, _, hfind, .inl rfl⟩
        split at h
        · rename_i hc
          split at h
          · cases h
          · rename_i hdepth
            obtain ⟨⟨n, s₂⟩, hkey, h⟩ := bind_eq_ok.1 h
            obtain ⟨⟨a', s₂'⟩, hvariant, h⟩ := bind_eq_ok.1 h
            obtain ⟨hfind, rfl⟩ := variantNamed_eq_ok.1 hvariant
            obtain ⟨s₃, hcolon, h⟩ := bind_eq_ok.1 h
            obtain ⟨s₄, hnull, h⟩ := bind_eq_ok.1 h
            split at h
            · cases h
            · rename_i d r' hclose
              split at h
              · rename_i hd
                cases h
                exact ⟨_, opens_single.2 ⟨s₁, s₂, s₃, s₄, hc ▸ hs, hkey, hcolon, hnull, hd ▸ hclose⟩, n, hfind,
                  .inr ⟨hdepth, rfl⟩⟩
              · cases h
        · cases h
    · rintro ⟨v, h, n, hfind, rfl | ⟨hdepth, rfl⟩⟩
      · obtain ⟨s₁, t, hs, hread, ht⟩ := opens_string.1 h
        simp only [hs, ↓reduceIte]
        exact bind_eq_ok.2 ⟨(t, r), hread, variantNamed_eq_ok.2 ⟨ht ▸ hfind, rfl⟩⟩
      · obtain ⟨s₁, s₂, s₃, s₄, hs, hkey, hcolon, hnull, hclose⟩ := opens_single.1 h
        simp only [hs, (by decide : '\x7b' ≠ '"'), hdepth, ↓reduceIte]
        refine bind_eq_ok.2 ⟨(n, s₂), hkey, bind_eq_ok.2 ⟨(a, s₂), variantNamed_eq_ok.2 ⟨hfind, rfl⟩, ?_⟩⟩
        refine bind_eq_ok.2 ⟨s₃, hcolon, bind_eq_ok.2 ⟨s₄, hnull, ?_⟩⟩
        simp only [hclose, ↓reduceIte]

end TableExport.Json
