import TableExport.Proofs.Json.Form

/-!
# Forms of containers

A container is read from the outlines of what it contains, if that has a form.

- `readList_eq_ok` goes through the items of an array, and `Form.sequence` is the form of lists.
- `foldMembers_eq_ok` goes through the members of an object.
- `valueAgrees` says that values of any kind are read from their outlines, and `Form.alternative` is the form of what is
  found by the name that such a value gives.
-/

namespace TableExport.Json

variable {α β σ : Type} {s r : List Char} {v : Outline} {first : Bool}

/-! ## Items -/

theorem nextElement_end_iff : nextElement first s = .ok (false, r) ↔
    ∃ r', skipBlanks s = ']' :: r' ∧ r = ']' :: r' := by
  constructor
  · intro h
    unfold nextElement at h
    split at h
    · cases h
    · rename_i c s' hs
      split at h
      · rename_i hc
        cases h
        exact ⟨s', hc ▸ hs, hc ▸ rfl⟩
      split at h
      · cases h
      split at h
      · split at h
        · cases h
        · split at h <;> cases h
      · cases h
  · rintro ⟨r', hs, rfl⟩
    simp only [nextElement, hs, ↓reduceIte]

/-- Where another item follows, its first character is found. -/
theorem nextElement_more_iff : nextElement first s = .ok (true, r) ↔
    ∃ s', PassesComma first s s' ∧ skipBlanks s' = r ∧ ∃ c t, r = c :: t ∧ c ≠ ']' := by
  constructor
  · intro h
    unfold nextElement at h
    split at h
    · cases h
    · rename_i c s' hs
      split at h
      · cases h
      rename_i hc
      split at h
      · rename_i hfirst
        cases h
        exact ⟨s, by simp [PassesComma, hfirst], hs, c, s', rfl, hc⟩
      rename_i hfirst
      split at h
      · rename_i hcomma
        split at h
        · cases h
        · rename_i d t ht
          split at h
          · cases h
          · rename_i hd
            cases h
            exact ⟨s', by simp [PassesComma, hfirst, hs, hcomma], ht, d, t, rfl, hd⟩
      · cases h
  · rintro ⟨s', hcomma, hs', c, t, rfl, hc⟩
    cases first with
    | true =>
      cases hcomma
      simp only [nextElement, hs', hc, ↓reduceIte]
    | false =>
      have hs : skipBlanks s = ',' :: s' := hcomma
      simp only [nextElement, hs, hs', hc, (by decide : ',' ≠ ']'), Bool.false_eq_true, ↓reduceIte]

/-- What is read from the elements of a list comes from the items of an array. -/
theorem items_of_readElements {form : Form α} {bound : List Char} {as : List α}
    (h : readElements form.read bound first s = .ok (as, r)) :
    ∃ vs r', r = ']' :: r' ∧ Opens s (.items first vs) r' ∧ vs.mapM form.decode = some as := by
  induction bound generalizing first s as with
  | nil => cases h
  | cons b bound ih =>
    rw [readElements, bind_eq_ok] at h
    obtain ⟨⟨more, r₁⟩, hnext, h⟩ := h
    cases more with
    | false =>
      obtain ⟨r', hs, rfl⟩ := nextElement_end_iff.1 hnext
      cases h
      exact ⟨[], r', rfl, .noItem hs, rfl⟩
    | true =>
      obtain ⟨s', hcomma, rfl, -⟩ := nextElement_more_iff.1 hnext
      simp only [↓reduceIte, bind_eq_ok] at h
      obtain ⟨⟨a, r₂⟩, hread, ⟨as', r₃⟩, hrest, h⟩ := h
      cases h
      obtain ⟨v, hv, hdecode⟩ := form.agrees.1 hread
      obtain ⟨vs, r', rfl, hvs, hdecodes⟩ := ih hrest
      exact ⟨v :: vs, r', rfl, .item hcomma (opens_skipBlanks.1 hv) hvs, by simp [List.mapM_cons, hdecode, hdecodes]⟩

/-- The items of an array are read as the elements of a list, if the bound is longer than their text. -/
theorem readElements_of_items {form : Form α} {vs : List Outline} {as : List α} (h : Opens s (.items first vs) r)
    (hdecode : vs.mapM form.decode = some as) {bound : List Char} (hbound : s.length < bound.length) :
    readElements form.read bound first s = .ok (as, ']' :: r) := by
  induction vs generalizing first s as bound with
  | nil =>
    cases hdecode
    cases h with
    | noItem hs =>
      obtain ⟨b, bound, rfl⟩ := List.exists_cons_of_length_pos (Nat.zero_lt_of_lt hbound)
      rw [readElements, nextElement_end_iff.2 ⟨r, hs, rfl⟩]
      rfl
  | cons v vs ih =>
    cases h with
    | @item _ s₁ s₂ _ _ _ _ hcomma hv hvs =>
      obtain ⟨b, bound, rfl⟩ := List.exists_cons_of_length_pos (Nat.zero_lt_of_lt hbound)
      have hs₁ := hcomma.length_le
      have hs₂ := hv.length_lt
      rw [List.length_cons] at hbound
      obtain ⟨c, t, hc, hclose, -⟩ := hv.head
      rw [List.mapM_cons, Option.bind_eq_bind, Option.bind_eq_some_iff] at hdecode
      obtain ⟨a, ha, hdecode⟩ := hdecode
      rw [Option.bind_eq_bind, Option.bind_eq_some_iff] at hdecode
      obtain ⟨as', has', hdecode⟩ := hdecode
      cases hdecode
      have hnext : nextElement first s = .ok (true, skipBlanks s₁) :=
        nextElement_more_iff.2 ⟨s₁, hcomma, rfl, c, t, hc, hclose⟩
      have hread : form.read (skipBlanks s₁) = .ok (a, s₂) := form.agrees.2 ⟨v, opens_skipBlanks.2 hv, ha⟩
      have hrest : readElements form.read bound false s₂ = .ok (as', ']' :: r) := ih hvs has' (by omega)
      rw [readElements, hnext]
      simp only [bind, Except.bind, ↓reduceIte, hread, hrest]
      rfl

/-- **A list** is read from the items of an array. -/
theorem readList_eq_ok (form : Form α) {as : List α} :
    readList form.read s = .ok (as, r) ↔ ∃ vs, Opens s (.items true vs) r ∧ vs.mapM form.decode = some as := by
  rw [readList, bind_eq_ok]
  constructor
  · rintro ⟨⟨as', r'⟩, h, hdrop⟩
    obtain ⟨vs, r'', rfl, hvs, hdecode⟩ := items_of_readElements h
    cases hdrop
    exact ⟨vs, hvs, hdecode⟩
  · rintro ⟨vs, hvs, hdecode⟩
    exact ⟨(as, ']' :: r), readElements_of_items hvs hdecode (Nat.lt_succ_self _), rfl⟩

/-- Lists; none as the form of their items means that no further container may be opened. -/
def Form.sequence (form : Option (Form α)) : Form (List α) where
  read := readSequence (form.map Form.read)
  decode
    | .array vs => form.bind fun form => vs.mapM form.decode
    | _ => none
  agrees {s r as} := by
    unfold readSequence
    constructor
    · intro h
      split at h
      · cases h
      · rename_i c s' hs
        split at h
        · rename_i hc
          cases form with
          | none => cases h
          | some form =>
            obtain ⟨vs, hvs, hdecode⟩ := (readList_eq_ok form).1 h
            exact ⟨.array vs, .array (hc ▸ hs) hvs, hdecode⟩
        · cases h
    · rintro ⟨v, hv, hdecode⟩
      split at hdecode
      · rename_i vs
        obtain ⟨form, rfl, hdecode⟩ := Option.bind_eq_some_iff.1 hdecode
        obtain ⟨s', hs, hvs⟩ := opens_array.1 hv
        simp only [hs, ↓reduceIte, Option.map_some]
        exact (readList_eq_ok form).2 ⟨vs, hvs, hdecode⟩
      · cases hdecode

/-! ## Members -/

theorem nextMember_end_iff : nextMember first s = .ok (false, r) ↔
    ∃ r', skipBlanks s = '\x7d' :: r' ∧ r = '\x7d' :: r' := by
  constructor
  · intro h
    unfold nextMember at h
    split at h
    · cases h
    · rename_i c s' hs
      split at h
      · rename_i hc
        cases h
        exact ⟨s', hc ▸ hs, hc ▸ rfl⟩
      split at h
      · split at h <;> cases h
      split at h
      · split at h
        · cases h
        · split at h
          · cases h
          · split at h <;> cases h
      · cases h
  · rintro ⟨r', hs, rfl⟩
    simp only [nextMember, hs, ↓reduceIte]

theorem nextMember_more_iff : nextMember first s = .ok (true, r) ↔
    ∃ s', PassesComma first s s' ∧ skipBlanks s' = '"' :: r := by
  constructor
  · intro h
    unfold nextMember at h
    split at h
    · cases h
    · rename_i c s' hs
      split at h
      · cases h
      split at h
      · rename_i hfirst
        split at h
        · rename_i hquote
          cases h
          exact ⟨s, by simp [PassesComma, hfirst], hquote ▸ hs⟩
        · cases h
      rename_i hfirst
      split at h
      · rename_i hcomma
        split at h
        · cases h
        · rename_i d t ht
          split at h
          · rename_i hquote
            cases h
            exact ⟨s', by simp [PassesComma, hfirst, hs, hcomma], hquote ▸ ht⟩
          · split at h <;> cases h
      · cases h
  · rintro ⟨s', hcomma, hs'⟩
    cases first with
    | true =>
      cases hcomma
      simp only [nextMember, hs', (by decide : '"' ≠ '\x7d'), ↓reduceIte]
    | false =>
      have hs : skipBlanks s = ',' :: s' := hcomma
      simp only [nextMember, hs, hs', (by decide : ',' ≠ '\x7d'), Bool.false_eq_true, ↓reduceIte]

/-- What is taken from a member, if its name can be decoded. -/
def takeMember (take : σ → String → Outline → Option σ) (state : σ) (m : Option String × Outline) : Option σ :=
  m.1.bind fun key => take state key m.2

/-- A step that starts behind a name takes in the colon and the value. -/
def StepAgrees (step : σ → String → Reader σ) (take : σ → String → Outline → Option σ) : Prop :=
  ∀ state key s state' r, step state key s = .ok (state', r) ↔
    ∃ s' v, skipBlanks s = ':' :: s' ∧ Opens s' (.value v) r ∧ take state key v = some state'

section Members

variable {step : σ → String → Reader σ} {take : σ → String → Outline → Option σ} (hstep : StepAgrees step take)
include hstep

/-- What is taken in comes from the members of an object. -/
theorem members_of_foldMembers {bound : List Char} {state final : σ}
    (h : foldMembers step bound first state s = .ok (final, r)) :
    ∃ ms r', r = '\x7d' :: r' ∧ Opens s (.members first ms) r' ∧ ms.foldlM (takeMember take) state = some final := by
  induction bound generalizing first s state with
  | nil => cases h
  | cons b bound ih =>
    rw [foldMembers, bind_eq_ok] at h
    obtain ⟨⟨more, r₁⟩, hnext, h⟩ := h
    cases more with
    | false =>
      obtain ⟨r', hs, rfl⟩ := nextMember_end_iff.1 hnext
      cases h
      exact ⟨[], r', rfl, .noMember hs, rfl⟩
    | true =>
      obtain ⟨s', hcomma, hquote⟩ := nextMember_more_iff.1 hnext
      simp only [↓reduceIte, bind_eq_ok] at h
      obtain ⟨⟨key, r₂⟩, hkey, ⟨state', r₃⟩, htake, h⟩ := h
      obtain ⟨s₄, v, hcolon, hv, htake⟩ := (hstep ..).1 htake
      obtain ⟨hskip, htext⟩ := readText_eq_ok.2 ⟨key, hkey, rfl⟩
      obtain ⟨ms, r', rfl, hms, hfold⟩ := ih h
      refine ⟨(_, v) :: ms, r', rfl, .member hcomma hquote hskip htext hcolon hv hms, ?_⟩
      rw [List.foldlM_cons, Option.bind_eq_bind, takeMember, Option.bind_some, htake, Option.bind_some, hfold]

/-- The members of an object are taken in, if the bound is longer than their text. -/
theorem foldMembers_of_members {ms : List (Option String × Outline)} {state final : σ}
    (h : Opens s (.members first ms) r) (hfold : ms.foldlM (takeMember take) state = some final)
    {bound : List Char} (hbound : s.length < bound.length) :
    foldMembers step bound first state s = .ok (final, '\x7d' :: r) := by
  induction ms generalizing first s state bound with
  | nil =>
    cases hfold
    cases h with
    | noMember hs =>
      obtain ⟨b, bound, rfl⟩ := List.exists_cons_of_length_pos (Nat.zero_lt_of_lt hbound)
      rw [foldMembers, nextMember_end_iff.2 ⟨r, hs, rfl⟩]
      rfl
  | cons m ms ih =>
    cases h with
    | @member _ s₁ k₁ k₂ s₂ s₃ _ _ name v _ hcomma hquote hskip htext hcolon hv hms =>
      obtain ⟨b, bound, rfl⟩ := List.exists_cons_of_length_pos (Nat.zero_lt_of_lt hbound)
      have hs₁ := hcomma.length_le
      have hk₁ := length_lt_of_skipBlanks hquote
      have hk₂ := (suffix_of_skipText hskip).length_le
      have hs₂ := length_lt_of_skipBlanks hcolon
      have hs₃ := hv.length_lt
      rw [List.length_cons] at hbound
      rw [List.foldlM_cons, Option.bind_eq_bind, Option.bind_eq_some_iff] at hfold
      obtain ⟨state', htake, hfold⟩ := hfold
      obtain ⟨key, rfl, htake⟩ := Option.bind_eq_some_iff.1 htake
      obtain ⟨t, hkey, rfl⟩ := readText_eq_ok.1 ⟨hskip, htext⟩
      have hnext : nextMember first s = .ok (true, k₁) := nextMember_more_iff.2 ⟨s₁, hcomma, hquote⟩
      have hmember : step state (String.ofList t) k₂ = .ok (state', s₃) :=
        (hstep ..).2 ⟨s₂, v, hcolon, hv, htake⟩
      rw [foldMembers, hnext]
      simp only [bind, Except.bind, ↓reduceIte, hkey, hmember]
      exact ih hms hfold (by omega)

/-- **Members** are taken in one by one from the text behind an opening bracket. -/
theorem foldMembers_eq_ok {b : Char} {state final : σ} :
    foldMembers step (b :: s) true state s = .ok (final, r) ↔ ∃ ms r', r = '\x7d' :: r' ∧
      Opens s (.members true ms) r' ∧ ms.foldlM (takeMember take) state = some final := by
  constructor
  · exact members_of_foldMembers hstep
  · rintro ⟨ms, r', rfl, hms, hfold⟩
    exact foldMembers_of_members hstep hms hfold (Nat.lt_succ_self _)

end Members

/-! ## Values of any kind -/

/-- A value as it is read: its strings can be decoded, its numbers are not too large, and no more containers are nested
in it than allowed. -/
def strict : Nat → Outline → Option Value
  | _, .null => some .null
  | _, .boolean b => some (.boolean b)
  | _, .number t => if t.value?.isSome then some (.number t) else none
  | _, .string text => text.map .string
  | 0, .array _ => none
  | depth + 1, .array vs => (vs.mapM (strict depth)).map .array
  | 0, .object _ => none
  | depth + 1, .object ms =>
    (ms.foldlM (takeMember fun members key v => (strict depth v).map fun v => members ++ [(key, v)]) []).map .object

theorem readNumeral_eq_ok {t : Numeral} :
    readNumeral s = .ok (t, r) ↔ scanNumber .endOfValue s = .ok (t, r) ∧ t.value?.isSome = true := by
  rw [readNumeral, bind_eq_ok]
  constructor
  · rintro ⟨⟨t', r'⟩, hscan, h⟩
    dsimp only at h
    split at h
    · rename_i hvalue
      cases h
      exact ⟨hscan, by rw [hvalue]; rfl⟩
    · cases h
  · rintro ⟨hscan, hvalue⟩
    obtain ⟨n, hn⟩ := Option.isSome_iff_exists.1 hvalue
    refine ⟨(t, r), hscan, ?_⟩
    simp only [hn]
    rfl

/-- What is read with room for so many containers, if that agrees with the outlines. -/
def ValueAgrees (depth : Nat) : Prop :=
  ∀ s r a, readValue depth s = .ok (a, r) ↔ ∃ v, Opens s (.value v) r ∧ strict depth v = some a

/-- The form of values, if they agree. -/
def ValueAgrees.form {depth : Nat} (h : ValueAgrees depth) : Form Value where
  read := readValue depth
  decode := strict depth
  agrees := h _ _ _

/-- The step through the members of an object. -/
theorem valueStep_agrees {depth : Nat} (h : ValueAgrees depth) : StepAgrees
    (fun members key r => do
      let (v, r) ← readValue depth (← readColon r)
      return (members ++ [(key, v)], r))
    (fun members key v => (strict depth v).map fun v => members ++ [(key, v)]) := by
  intro members key s members' r
  simp only [bind_eq_ok, readColon_eq_ok, pure_eq_ok, Prod.mk.injEq, Prod.exists, Option.map_eq_some_iff]
  constructor
  · rintro ⟨s', hcolon, a, r', hread, rfl, rfl⟩
    obtain ⟨v, hv, hstrict⟩ := (h ..).1 hread
    exact ⟨s', v, hcolon, hv, a, hstrict, rfl⟩
  · rintro ⟨s', v, hcolon, hv, a, hstrict, rfl⟩
    exact ⟨s', hcolon, a, r, (h ..).2 ⟨v, hv, hstrict⟩, rfl, rfl⟩

/-- What a value is read as comes from its outline. -/
theorem opens_of_readValue {depth : Nat} (ih : ∀ d < depth, ValueAgrees d) {a : Value}
    (h : readValue depth s = .ok (a, r)) : ∃ v, Opens s (.value v) r ∧ strict depth v = some a := by
  unfold readValue at h
  split at h
  · cases h
  · rename_i c s' hs
    split at h
    · rename_i hc
      obtain ⟨hword, rfl⟩ := readAs_eq_ok.1 h
      exact ⟨.null, opens_null.2 ⟨s', hc ▸ hs, hword⟩, by cases depth <;> rfl⟩
    split at h
    · rename_i hc
      obtain ⟨hword, rfl⟩ := readAs_eq_ok.1 h
      exact ⟨.boolean true, opens_yes.2 ⟨s', hc ▸ hs, hword⟩, by cases depth <;> rfl⟩
    split at h
    · rename_i hc
      obtain ⟨hword, rfl⟩ := readAs_eq_ok.1 h
      exact ⟨.boolean false, opens_no.2 ⟨s', hc ▸ hs, hword⟩, by cases depth <;> rfl⟩
    split at h
    · rename_i hc
      obtain ⟨t, hread, rfl⟩ := readMap_eq_ok.1 h
      obtain ⟨hscan, hvalue⟩ := readNumeral_eq_ok.1 hread
      exact ⟨.number t, opens_number.2 ⟨c, s', hs, hc, hscan⟩, by cases depth <;> exact if_pos hvalue⟩
    split at h
    · rename_i hc
      obtain ⟨t, hread, rfl⟩ := (readMap_eq_ok (f := fun t => Value.string (String.ofList t))).1 h
      exact ⟨.string (some (String.ofList t)), opens_string.2 ⟨s', t, hc ▸ hs, hread, rfl⟩, by cases depth <;> rfl⟩
    split at h
    · rename_i hc
      cases depth with
      | zero => cases h
      | succ depth =>
        obtain ⟨items, hread, rfl⟩ := readMap_eq_ok.1 h
        obtain ⟨vs, hvs, hdecode⟩ := (readList_eq_ok (ih depth (Nat.lt_succ_self _)).form).1 hread
        exact ⟨.array vs, opens_array.2 ⟨s', hc ▸ hs, hvs⟩, Option.map_eq_some_iff.2 ⟨items, hdecode, rfl⟩⟩
    split at h
    · rename_i hc
      cases depth with
      | zero => cases h
      | succ depth =>
        obtain ⟨⟨members, r'⟩, hread, h⟩ := bind_eq_ok.1 h
        have hstep := valueStep_agrees (ih depth (Nat.lt_succ_self _))
        obtain ⟨ms, r'', rfl, hms, hfold⟩ := (foldMembers_eq_ok hstep).1 hread
        cases h
        exact ⟨.object ms, opens_object.2 ⟨s', hc ▸ hs, hms⟩, Option.map_eq_some_iff.2 ⟨members, hfold, rfl⟩⟩
    · cases h

/-- **Values of any kind** are read from their outlines. -/
theorem valueAgrees (depth : Nat) : ValueAgrees depth := by
  induction depth using Nat.strongRecOn with
  | ind depth ih =>
    intro s r a
    refine ⟨opens_of_readValue ih, ?_⟩
    rintro ⟨v, hv, hstrict⟩
    unfold readValue
    cases v with
    | null =>
      obtain ⟨s', hs, hword⟩ := opens_null.1 hv
      obtain rfl : Value.null = a := by cases depth <;> exact Option.some.inj hstrict
      simp only [hs, ↓reduceIte]
      exact readAs_eq_ok.2 ⟨hword, rfl⟩
    | boolean b =>
      obtain rfl : Value.boolean b = a := by cases depth <;> exact Option.some.inj hstrict
      cases b with
      | true =>
        obtain ⟨s', hs, hword⟩ := opens_yes.1 hv
        simp only [hs, (by decide : 't' ≠ 'n'), ↓reduceIte]
        exact readAs_eq_ok.2 ⟨hword, rfl⟩
      | false =>
        obtain ⟨s', hs, hword⟩ := opens_no.1 hv
        simp only [hs, (by decide : 'f' ≠ 'n' ∧ 'f' ≠ 't'), ↓reduceIte]
        exact readAs_eq_ok.2 ⟨hword, rfl⟩
    | number t =>
      obtain ⟨c, s', hs, hc, hscan⟩ := opens_number.1 hv
      have hletters : c ≠ 'n' ∧ c ≠ 't' ∧ c ≠ 'f' :=
        ⟨ne_of_startsNumber hc rfl, ne_of_startsNumber hc rfl, ne_of_startsNumber hc rfl⟩
      obtain ⟨hvalue, ha⟩ : t.value?.isSome = true ∧ some (Value.number t) = some a := by
        cases depth <;> exact Option.ite_none_right_eq_some.1 hstrict
      cases ha
      simp only [hs, hletters, hc, ↓reduceIte]
      exact readMap_eq_ok.2 ⟨t, readNumeral_eq_ok.2 ⟨hscan, hvalue⟩, rfl⟩
    | string text =>
      obtain ⟨text, rfl, rfl⟩ : ∃ name, text = some name ∧ Value.string name = a := by
        cases depth <;> exact Option.map_eq_some_iff.1 hstrict
      obtain ⟨s', t, hs, hread, rfl⟩ := opens_string.1 hv
      simp only [hs, (by decide : '"' ≠ 'n' ∧ '"' ≠ 't' ∧ '"' ≠ 'f'), ↓reduceIte]
      exact (readMap_eq_ok (f := fun t => Value.string (String.ofList t))).2 ⟨t, hread, rfl⟩
    | array vs =>
      obtain ⟨s', hs, hvs⟩ := opens_array.1 hv
      cases depth with
      | zero => cases hstrict
      | succ depth =>
        obtain ⟨items, hdecode, rfl⟩ := Option.map_eq_some_iff.1 hstrict
        have hlist := (readList_eq_ok (ih depth (Nat.lt_succ_self _)).form).2 ⟨vs, hvs, hdecode⟩
        simp only [hs, ↓reduceIte]
        exact readMap_eq_ok.2 ⟨items, hlist, rfl⟩
    | object ms =>
      obtain ⟨s', hs, hms⟩ := opens_object.1 hv
      cases depth with
      | zero => cases hstrict
      | succ depth =>
        obtain ⟨members, hfold, rfl⟩ := Option.map_eq_some_iff.1 hstrict
        have hstep := valueStep_agrees (ih depth (Nat.lt_succ_self _))
        have hmembers := (foldMembers_eq_ok hstep (b := '\x7b')).2 ⟨ms, _, rfl, hms, hfold⟩
        simp only [hs, ↓reduceIte]
        exact bind_eq_ok.2 ⟨_, hmembers, rfl⟩

/-- What is found by the name that a value gives. -/
def Form.alternative (type : String) (find? : String → Option α) (depth : Nat) : Form α where
  read := readAlternative type find? depth
  decode v := (strict depth v).bind fun v => v.alternative?.bind find?
  agrees {s r a} := by
    rw [readAlternative, bind_eq_ok]
    constructor
    · rintro ⟨⟨v, r'⟩, hread, h⟩
      dsimp only at h
      split at h
      · rename_i hfind
        cases h
        obtain ⟨o, ho, hstrict⟩ := (valueAgrees depth ..).1 hread
        exact ⟨o, ho, Option.bind_eq_some_iff.2 ⟨v, hstrict, hfind⟩⟩
      · cases h
    · rintro ⟨o, ho, hdecode⟩
      obtain ⟨v, hstrict, hfind⟩ := Option.bind_eq_some_iff.1 hdecode
      refine ⟨(v, r), (valueAgrees depth ..).2 ⟨o, ho, hstrict⟩, ?_⟩
      simp only [hfind]
      rfl

end TableExport.Json
