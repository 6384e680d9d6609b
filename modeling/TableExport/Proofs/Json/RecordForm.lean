import TableExport.Proofs.Json.Container

/-!
# Forms of records

A record takes in the members of an object one by one, whatever their order is, or the items of an array in the order
of its fields.

- `FormField` is a field whose values have a form.
- `decodeRecord` takes a record from an outline, and `Form.record` is the form of the record.
-/

namespace TableExport.Json

variable {σ : Type} {s r : List Char} {v : Outline} {first : Bool}

/-- A field of a record, with the form of its values. -/
structure FormField (σ : Type) where
  name : String
  optional : Bool
  isSet : σ → Bool
  form : σ → Form σ

/-- How the field is read. -/
def FormField.field (e : FormField σ) : RecordField σ where
  name := e.name
  optional := e.optional
  isSet := e.isSet
  read state := (e.form state).read

variable {es : List (FormField σ)} {state final : σ}

/-! ## Objects -/

/-- What is taken from a member: nothing if its name is unknown, and it fails if the name was there before. -/
def takeKnown (es : List (FormField σ)) (state : σ) (key : String) (v : Outline) : Option σ :=
  match es.find? (·.name = key) with
  | none => some state
  | some e => if e.isSet state then none else (e.form state).decode v

theorem find?_fields (p : RecordField σ → Bool) :
    (es.map FormField.field).find? p = (es.find? fun e => p e.field).map FormField.field :=
  List.find?_map

theorem readMember_agrees (es : List (FormField σ)) :
    StepAgrees (readMember (es.map FormField.field)) (takeKnown es) := by
  intro state key s state' r
  have hfind : (es.map FormField.field).find? (·.name = key) = (es.find? (·.name = key)).map FormField.field :=
    find?_fields _
  simp only [readMember, hfind, takeKnown]
  cases es.find? (·.name = key) with
  | none =>
    simp only [Option.map_none, bind_eq_ok, readColon_eq_ok, skipValue_eq_ok, pure_eq_ok, Prod.mk.injEq]
    constructor
    · rintro ⟨s', hcolon, r', ⟨v, hv⟩, rfl, rfl⟩
      exact ⟨s', v, hcolon, hv, rfl⟩
    · rintro ⟨s', v, hcolon, hv, h⟩
      cases h
      exact ⟨s', hcolon, r, ⟨v, hv⟩, rfl, rfl⟩
  | some e =>
    rw [Option.map_some]
    show (if e.isSet state then _ else _) = _ ↔ _
    by_cases hset : e.isSet state = true
    · simp [hset]
    · simp only [hset, Bool.false_eq_true, ↓reduceIte, bind_eq_ok, readColon_eq_ok]
      show (∃ s', skipBlanks s = ':' :: s' ∧ (e.form state).read s' = _) ↔ _
      simp only [(e.form state).agrees]
      constructor
      · rintro ⟨s', hcolon, v, hv, hdecode⟩
        exact ⟨s', v, hcolon, hv, hdecode⟩
      · rintro ⟨s', v, hcolon, hv, hdecode⟩
        exact ⟨s', hcolon, v, hv, hdecode⟩

/-- Every field is set that cannot be left out. -/
def complete (es : List (FormField σ)) (state : σ) : Bool :=
  es.all fun e => e.optional || e.isSet state

theorem find?_missing :
    ((es.map FormField.field).find? fun f => !f.optional && !f.isSet state) = none ↔ complete es state = true := by
  rw [find?_fields, Option.map_eq_none_iff, List.find?_eq_none, complete, List.all_eq_true]
  refine forall₂_congr fun e _ => ?_
  show ¬(!e.optional && !e.isSet state) = true ↔ _
  cases e.optional <;> cases e.isSet state <;> decide

theorem readMembers_eq_ok : readMembers (es.map FormField.field) state s = .ok (final, r) ↔
    ∃ ms r', r = '\x7d' :: r' ∧ Opens s (.members true ms) r' ∧
      (ms.foldlM (takeMember (takeKnown es)) state).filter (complete es) = some final := by
  simp only [readMembers, bind_eq_ok, Option.filter_eq_some_iff]
  constructor
  · rintro ⟨⟨state', r'⟩, hfold, h⟩
    obtain ⟨ms, r'', rfl, hms, hfold⟩ := (foldMembers_eq_ok (readMember_agrees es)).1 hfold
    dsimp only at h
    split at h
    · cases h
    · rename_i hmissing
      cases h
      exact ⟨ms, r'', rfl, hms, hfold, find?_missing.1 hmissing⟩
  · rintro ⟨ms, r', rfl, hms, hfold, hcomplete⟩
    refine ⟨(final, '\x7d' :: r'), (foldMembers_eq_ok (readMember_agrees es)).2 ⟨ms, r', rfl, hms, hfold⟩, ?_⟩
    simp only [find?_missing.2 hcomplete]
    rfl

/-! ## Arrays -/

/-- What is taken from the items of an array: one for each field, where fields at the end may be left out. -/
def takeItems : List (FormField σ) → σ → List Outline → Option σ
  | [], state, [] => some state
  | [], _, _ :: _ => none
  | e :: es, state, [] => if e.optional then takeItems es state [] else none
  | e :: es, state, v :: vs => ((e.form state).decode v).bind fun state => takeItems es state vs

theorem endOfFields_eq_ok : endOfFields s = .ok r ↔ skipBlanks s = ']' :: r := by
  constructor
  · intro h
    unfold endOfFields at h
    split at h
    · cases h
    · rename_i c s' hs
      split at h
      · rename_i hc
        cases h
        exact hc ▸ hs
      split at h
      · split at h <;> cases h
      · cases h
  · intro hs
    simp only [endOfFields, hs, ↓reduceIte]

/-- Behind the end of the array, fields are left out. -/
theorem readFields_ended {expected : String} {index : Nat} :
    readFields expected (es.map FormField.field) index first true state s = .ok (final, r) ↔
      takeItems es state [] = some final ∧ s = r := by
  induction es generalizing index with
  | nil => simp [readFields, takeItems]
  | cons e es ih =>
    rw [List.map_cons, readFields, if_pos rfl, takeItems]
    show (if e.optional then _ else _) = _ ↔ _
    by_cases hoptional : e.optional = true
    · simp only [hoptional, ↓reduceIte, ih]
    · simp [hoptional]

theorem items_of_readFields {expected : String} {index : Nat} {r' : List Char}
    (h : readFields expected (es.map FormField.field) index first false state s = .ok (final, r'))
    (hend : endOfFields r' = .ok r) : ∃ vs, Opens s (.items first vs) r ∧ takeItems es state vs = some final := by
  induction es generalizing index first state s with
  | nil =>
    cases h
    exact ⟨[], .noItem (endOfFields_eq_ok.1 hend), rfl⟩
  | cons e es ih =>
    rw [List.map_cons, readFields, if_neg (by decide), bind_eq_ok] at h
    obtain ⟨⟨more, r₁⟩, hnext, h⟩ := h
    cases more with
    | true =>
      obtain ⟨s', hcomma, rfl, -⟩ := nextElement_more_iff.1 hnext
      simp only [↓reduceIte, bind_eq_ok] at h
      obtain ⟨⟨state', r₂⟩, hread, h⟩ := h
      obtain ⟨v, hv, hdecode⟩ := (e.form state).agrees.1 hread
      obtain ⟨vs, hvs, htake⟩ := ih h
      exact ⟨v :: vs, .item hcomma (opens_skipBlanks.1 hv) hvs, by rw [takeItems, hdecode, Option.bind_some, htake]⟩
    | false =>
      obtain ⟨r₁, hs, rfl⟩ := nextElement_end_iff.1 hnext
      simp only [Bool.false_eq_true, ↓reduceIte] at h
      split at h
      · rename_i hoptional
        obtain ⟨htake, rfl⟩ := readFields_ended.1 h
        cases endOfFields_eq_ok.1 hend
        exact ⟨[], .noItem hs, (if_pos (hoptional : e.optional = true)).trans htake⟩
      · cases h

theorem readFields_of_items (expected : String) (index : Nat) {vs : List Outline}
    (h : Opens s (.items first vs) r) (htake : takeItems es state vs = some final) :
    ∃ r', readFields expected (es.map FormField.field) index first false state s = .ok (final, r') ∧
      endOfFields r' = .ok r := by
  induction es generalizing index first state s vs with
  | nil =>
    cases h with
    | noItem hs =>
      cases htake
      exact ⟨s, rfl, endOfFields_eq_ok.2 hs⟩
    | item => cases htake
  | cons e es ih =>
    rw [List.map_cons]
    cases h with
    | noItem hs =>
      rw [takeItems] at htake
      obtain ⟨hoptional, htake⟩ := Option.ite_none_right_eq_some.1 htake
      have hnext : nextElement first s = .ok (false, ']' :: r) := nextElement_end_iff.2 ⟨r, hs, rfl⟩
      refine ⟨']' :: r, ?_, endOfFields_eq_ok.2 rfl⟩
      rw [readFields, if_neg (by decide), hnext]
      show (if e.optional then _ else _) = _
      rw [if_pos hoptional]
      exact readFields_ended.2 ⟨htake, rfl⟩
    | @item _ s₁ s₂ _ _ v vs hcomma hv hvs =>
      obtain ⟨state', hdecode, htake⟩ := Option.bind_eq_some_iff.1 htake
      obtain ⟨c, t, hc, hclose, -⟩ := hv.head
      have hnext : nextElement first s = .ok (true, skipBlanks s₁) :=
        nextElement_more_iff.2 ⟨s₁, hcomma, rfl, c, t, hc, hclose⟩
      have hread : e.field.read state (skipBlanks s₁) = .ok (state', s₂) :=
        (e.form state).agrees.2 ⟨v, opens_skipBlanks.2 hv, hdecode⟩
      obtain ⟨r', hrest, hend⟩ := ih (index + 1) hvs htake
      refine ⟨r', ?_, hend⟩
      rw [readFields, if_neg (by decide), hnext]
      simp only [bind, Except.bind, ↓reduceIte, hread, hrest]

/-! ## Records -/

/-- What is taken from an outline: from the members of an object, of which none may be missing, or from the items of an
array. -/
def decodeRecord (es : List (FormField σ)) (start : σ) : Outline → Option σ
  | .object ms => (ms.foldlM (takeMember (takeKnown es)) start).filter (complete es)
  | .array vs => takeItems es start vs
  | _ => none

/-- Records; none as their fields means that no further container may be opened. -/
def Form.record (name : String) (start : σ) (es : Option (List (FormField σ))) : Form σ where
  read := readRecord name (es.map fun es => ⟨start, es.map FormField.field⟩)
  decode v := es.bind fun es => decodeRecord es start v
  agrees {s r final} := by
    unfold readRecord
    constructor
    · intro h
      split at h
      · cases h
      · rename_i c s' hs
        split at h
        · rename_i hc
          cases es with
          | none => cases h
          | some es =>
            dsimp only [Option.map_some] at h
            split at h
            · rename_i hmembers
              cases h
              obtain ⟨ms, r', rfl, hms, htake⟩ := readMembers_eq_ok.1 hmembers
              exact ⟨.object ms, .object (hc ▸ hs) hms, htake⟩
            · cases h
        split at h
        · rename_i hc
          cases es with
          | none => cases h
          | some es =>
            dsimp only [Option.map_some] at h
            split at h
            · rename_i hfields
              obtain ⟨hend, rfl⟩ := readAs_eq_ok.1 h
              obtain ⟨vs, hvs, htake⟩ := items_of_readFields hfields hend
              exact ⟨.array vs, .array (hc ▸ hs) hvs, htake⟩
            · cases h
        · cases h
    · rintro ⟨v, hv, hdecode⟩
      obtain ⟨es, rfl, hdecode⟩ := Option.bind_eq_some_iff.1 hdecode
      cases v with
      | object ms =>
        obtain ⟨s', hs, hms⟩ := opens_object.1 hv
        simp only [hs, ↓reduceIte, Option.map_some, readMembers_eq_ok.2 ⟨ms, r, rfl, hms, hdecode⟩]
        rfl
      | array vs =>
        obtain ⟨s', hs, hvs⟩ := opens_array.1 hv
        obtain ⟨r', hfields, hend⟩ := readFields_of_items
          ("struct " ++ name ++ " with " ++ Text.elementCount (es.map FormField.field).length) 0 hvs hdecode
        simp only [hs, (by decide : '[' ≠ '\x7b'), ↓reduceIte, Option.map_some, hfields]
        exact readAs_eq_ok.2 ⟨hend, rfl⟩
      | _ => cases hdecode

end TableExport.Json
