import TableExport.Json.Record
import TableExport.Proofs.Json.Lexeme
import TableExport.Proofs.Json.Tree

/-!
# Typed readers on the tokens of data

A typed reader is compared with the tokens of the text that it reads: it reads data as a value if it takes the tokens of
the data off every text that starts with them, however they are spelled.

- `Reads` is that relation; there is one lemma for each kind of scalar.
- `reads_sequence` puts the elements of a list together.
- `ReadsMembers` goes through the members of a record one by one, and `reads_record` closes the record.
-/

namespace TableExport.Json

open TableExport.Text TableExport.Render

/-- In every text that starts with the tokens of the data, the reader finds the value and leaves what follows. -/
def Reads {α : Type} (read : Reader α) (d : Data) (a : α) : Prop :=
  ∀ s ts, tokens? nextToken s = some (lexicon.tokens memberKey d ++ ts) →
    ∃ r, read s = .ok (a, r) ∧ tokens? nextToken r = some ts

variable {α σ : Type} {s : List Char} {ts : List Token}

/-! ## What a token tells about the text -/

/-- A sign starts no other token. -/
theorem Lexeme.sign_eq {c : Char} {r : List Char} {t : Token} (h : Lexeme (c :: s) t r) (hc : signs.contains c = true) :
    t = .sign c := by
  cases h with
  | sign => rfl
  | number hnumber _ =>
    rw [(startsNumber_only (by simpa using hnumber)).2.1] at hc
    cases hc
  | string | yes | no | null => cases hc

/-- The letter of `null` starts no other token. -/
theorem Lexeme.null_eq {r : List Char} {t : Token} (h : Lexeme ('n' :: s) t r) : t = .null := by
  cases h with
  | sign _ hsign => cases hsign
  | number hnumber _ => cases hnumber
  | null => rfl

theorem exists_sign {c : Char} (h : tokens? nextToken s = some (.sign c :: ts)) :
    ∃ r, skipBlanks s = c :: r ∧ tokens? nextToken r = some ts := by
  obtain ⟨r, hlexeme, hr⟩ := exists_lexeme h
  generalize skipBlanks s = u at hlexeme
  cases hlexeme
  exact ⟨r, rfl, hr⟩

theorem exists_string {text : String} (h : tokens? nextToken s = some (.string text :: ts)) :
    ∃ s' t r, skipBlanks s = '"' :: s' ∧ readText s' = .ok (t, r) ∧ String.ofList t = text ∧
      tokens? nextToken r = some ts := by
  obtain ⟨r, hlexeme, hr⟩ := exists_lexeme h
  generalize skipBlanks s = u at hlexeme
  cases hlexeme with
  | string htext => exact ⟨_, _, r, rfl, htext, rfl, hr⟩

/-- What is behind the blanks of a text with tokens, and the tokens from there on. -/
theorem exists_head {t : Token} (h : tokens? nextToken s = some (t :: ts)) :
    ∃ c s' r, skipBlanks s = c :: s' ∧ Lexeme (c :: s') t r ∧ tokens? nextToken (c :: s') = some (t :: ts) := by
  obtain ⟨r, hlexeme, -⟩ := exists_lexeme h
  obtain ⟨c, s', hs, -, -⟩ := hlexeme.leaves
  rw [← tokens?_skipBlanks, hs] at h
  rw [hs] at hlexeme
  exact ⟨c, s', r, hs, hlexeme, h⟩

/-! ## Scalars -/

/-- A text. -/
def textData (text : String) : Data :=
  .scalar .string text

/-- A truth value. -/
def flagData (flag : Bool) : Data :=
  .scalar .bool (toString flag)

/-- A whole number. -/
def intData (n : Int) : Data :=
  .scalar .int32 (toString n)

@[simp] theorem tokens_textData (text : String) : lexicon.tokens memberKey (textData text) = [.string text] := by
  rw [textData, Lexicon.tokens_scalar]
  rfl

@[simp] theorem tokens_flagData (flag : Bool) : lexicon.tokens memberKey (flagData flag) = [.boolean flag] := by
  rw [flagData, Lexicon.tokens_scalar]
  cases flag <;> rfl

/-- A whole number is written without the letters of the truth values. -/
theorem toString_int_ne {n : Int} {text : String} (h : 'e' ∈ text.toList) : toString n ≠ text := by
  rintro rfl
  rw [toList_toString_int, sign_ofInt, List.mem_append] at h
  rcases h with h | h
  · split at h <;> simp at h
  · exact absurd (isDigit_of_mem_toDigits h) (by decide)

@[simp] theorem tokens_intData (n : Int) : lexicon.tokens memberKey (intData n) = [.number (toString n)] := by
  have htrue : toString n ≠ "true" := toString_int_ne (by decide)
  have hfalse : toString n ≠ "false" := toString_int_ne (by decide)
  rw [intData, Lexicon.tokens_scalar]
  show [scalarToken .int32 (toString n)] = _
  rw [scalarToken, if_neg (by decide), if_neg htrue, if_neg hfalse]

theorem reads_string (text : String) : Reads readString (textData text) text := by
  intro s ts h
  rw [tokens_textData] at h
  obtain ⟨s', t, r, hs, htext, rfl, hr⟩ := exists_string h
  refine ⟨r, ?_, hr⟩
  simp only [readString, readStringAs, hs, ↓reduceIte, htext]
  rfl

theorem reads_boolean (flag : Bool) : Reads readBoolean (flagData flag) flag := by
  intro s ts h
  rw [tokens_flagData] at h
  obtain ⟨r, hlexeme, hr⟩ := exists_lexeme h
  refine ⟨r, ?_, hr⟩
  unfold readBoolean
  generalize skipBlanks s = u at hlexeme
  cases hlexeme with
  | yes hword =>
    simp only [↓reduceIte, hword]
    rfl
  | no hword =>
    simp only [↓reduceIte, hword, (by decide : 'f' ≠ 't')]
    rfl

/-- A number of 32 bits is read back. -/
theorem reads_int32 (n : Int32) : Reads readInt32 (intData n.toInt) n := by
  intro s ts h
  rw [tokens_intData] at h
  obtain ⟨r, hlexeme, hr⟩ := exists_lexeme h
  refine ⟨r, ?_, hr⟩
  have hrange : -(Decimal.twoTo 31 : Int) ≤ n.toInt ∧ n.toInt < Decimal.twoTo 31 :=
    ⟨n.le_toInt, n.toInt_lt⟩
  unfold readInt32
  generalize htext : toString n.toInt = text at hlexeme
  generalize skipBlanks s = u at hlexeme
  cases hlexeme with
  | @number c s' _ _ hnumber hscan =>
    have ht := numeral_of_text hscan htext.symm
    subst ht
    have hread : readNumber (c :: s') = .ok (.integer n.toInt, r) := by
      rw [readNumber, bind_eq_ok]
      refine ⟨_, hscan, ?_⟩
      simp only [value?_ofInt hrange]
      rfl
    simp only [hnumber, ↓reduceIte, hread, hrange, and_self, Int32.ofInt_toInt]

/-- The name of a variant is read as the variant that it belongs to. -/
theorem reads_variant {variants : List α} {name : α → String} {a : α}
    (h : variants.find? (name · = name a) = some a) (depth : Nat) :
    Reads (readVariant variants name depth) (textData (name a)) a := by
  intro s ts htokens
  rw [tokens_textData] at htokens
  obtain ⟨s', t, r, hs, htext, ht, hr⟩ := exists_string htokens
  refine ⟨r, ?_, hr⟩
  simp only [readVariant, hs, ↓reduceIte, bind_eq_ok]
  exact ⟨_, htext, by simp only [variantNamed, ht, h]⟩

/-- The name of an alternative is read as the alternative that it stands for. -/
theorem reads_alternative {type name : String} {find? : String → Option α} {a : α} (h : find? name = some a)
    (depth : Nat) : Reads (readAlternative type find? depth) (textData name) a := by
  intro s ts htokens
  rw [tokens_textData] at htokens
  obtain ⟨s', t, r, hs, htext, ht, hr⟩ := exists_string htokens
  refine ⟨r, ?_, hr⟩
  have hvalue : readValue depth s = .ok (.string name, r) := by
    unfold readValue
    simp only [hs, (by decide : '"' ≠ 'n' ∧ '"' ≠ 't' ∧ '"' ≠ 'f'), htext]
    rw [← ht]
    rfl
  rw [readAlternative, bind_eq_ok]
  refine ⟨_, hvalue, ?_⟩
  simp only [Value.alternative?, Option.bind_some, h]
  rfl

/-- What is not `null` is read as something. -/
theorem reads_nullable {read : Reader α} {d : Data} {a : α} (h : Reads read d a) :
    Reads (readNullable read) d (some a) := by
  intro s ts htokens
  obtain ⟨t, us, ht, -, hnull⟩ := tokens_head d
  have hhead := htokens
  rw [ht, List.cons_append] at hhead
  obtain ⟨c, s', r', hs, hlexeme, -⟩ := exists_head hhead
  rw [← tokens?_skipBlanks, hs] at htokens
  obtain ⟨r, hread, hr⟩ := h _ _ htokens
  have hc : c ≠ 'n' := fun hc => hnull (Lexeme.null_eq (hc ▸ hlexeme))
  refine ⟨r, ?_, hr⟩
  simp only [readNullable, hs, hc, ↓reduceIte, hread]
  rfl

/-- What a reader finds, in another form. -/
theorem Reads.map {β : Type} {read : Reader α} {d : Data} {a : α} (h : Reads read d a) (f : α → β) :
    Reads (fun s => do
      let (a, r) ← read s
      return (f a, r)) d (f a) := by
  intro s ts htokens
  obtain ⟨r, hread, hr⟩ := h s ts htokens
  refine ⟨r, ?_, hr⟩
  simp only [hread]
  rfl

/-! ## Lists -/

/-- The comma in front of an item that is not the first one. -/
def lead (first : Bool) : List Token :=
  if first then [] else [.sign ',']

/-- The tokens of the items that are left, and the commas in front of them. -/
def remaining (first : Bool) : List (List Token) → List Token
  | [] => []
  | us :: uss => lead first ++ (us ++ remaining false uss)

theorem remaining_true : ∀ uss : List (List Token), remaining true uss = List.intercalate [.sign ','] uss
  | [] => rfl
  | [us] => by simp [remaining, lead]
  | us :: vs :: uss => by
    rw [List.intercalate_cons_cons, ← remaining_true (vs :: uss)]
    simp [remaining, lead]

theorem nextElement_end (first : Bool) (h : tokens? nextToken s = some (.sign ']' :: ts)) :
    ∃ r, nextElement first s = .ok (false, ']' :: r) ∧ tokens? nextToken r = some ts := by
  obtain ⟨r, hs, hr⟩ := exists_sign h
  exact ⟨r, by simp only [nextElement, hs, ↓reduceIte], hr⟩

theorem nextElement_item {first : Bool} {t : Token} (h : tokens? nextToken s = some (lead first ++ t :: ts))
    (ht : t ≠ .sign ']') :
    ∃ r, nextElement first s = .ok (true, r) ∧ tokens? nextToken r = some (t :: ts) := by
  have hbracket {c : Char} {s' r' : List Char} (hlexeme : Lexeme (c :: s') t r') : c ≠ ']' := by
    rintro rfl
    exact ht (hlexeme.sign_eq rfl)
  cases first with
  | true =>
    obtain ⟨c, s', r', hs, hlexeme, hr⟩ := exists_head h
    exact ⟨c :: s', by simp only [nextElement, hs, hbracket hlexeme, ↓reduceIte], hr⟩
  | false =>
    obtain ⟨r, hs, hr⟩ := exists_sign h
    obtain ⟨c, s', r', hs', hlexeme, hr'⟩ := exists_head hr
    refine ⟨c :: s', ?_, hr'⟩
    simp only [nextElement, hs, hs', hbracket hlexeme, (by decide : ',' ≠ ']'), ↓reduceIte, Bool.false_eq_true]

/-- **The elements of a list** are read one by one, if the bound is larger than their number. -/
theorem readElements_eq {element : Reader α} {ds : List Data} {as : List α} (h : List.Forall₂ (Reads element) ds as) :
    ∀ {bound : List Char} {first : Bool} {s : List Char}, ds.length < bound.length →
      tokens? nextToken s = some (remaining first (ds.map (lexicon.tokens memberKey)) ++ .sign ']' :: ts) →
        ∃ r, readElements element bound first s = .ok (as, ']' :: r) ∧ tokens? nextToken r = some ts := by
  induction h with
  | nil =>
    intro bound first s hbound htokens
    obtain ⟨b, bound, rfl⟩ := List.exists_cons_of_length_pos (by omega : 0 < bound.length)
    obtain ⟨r, hnext, hr⟩ := nextElement_end first htokens
    refine ⟨r, ?_, hr⟩
    rw [readElements, hnext]
    rfl
  | @cons d a ds as hd _ ih =>
    intro bound first s hbound htokens
    obtain ⟨b, bound, rfl⟩ := List.exists_cons_of_length_pos (by omega : 0 < bound.length)
    obtain ⟨t, us, ht, hclose, -⟩ := tokens_head d
    simp only [List.map_cons, remaining, ht, List.append_assoc, List.cons_append] at htokens
    obtain ⟨r₁, hnext, hr₁⟩ := nextElement_item htokens hclose
    rw [← List.cons_append, ← ht] at hr₁
    obtain ⟨r₂, hread, hr₂⟩ := hd _ _ hr₁
    obtain ⟨r, hrest, hr⟩ := ih (Nat.lt_of_succ_lt_succ hbound) hr₂
    refine ⟨r, ?_, hr⟩
    rw [readElements, hnext]
    simp only [bind, Except.bind, ↓reduceIte, hread, hrest]
    rfl

/-- A text in which further items are cut into tokens has more characters than there are items. -/
theorem length_lt_of_tokens? {uss : List (List Token)} {c : Char} (hne : ∀ us ∈ uss, us ≠ [])
    (h : tokens? nextToken s = some (List.intercalate [.sign ','] uss ++ ts)) : uss.length < (c :: s).length := by
  have hitems := length_le_intercalate (Token.sign ',') hne
  have htokens := length_le_of_tokens? h
  simp only [List.length_append, List.length_cons] at htokens ⊢
  omega

/-- **A list** is read if its items are. -/
theorem reads_sequence {element : Reader α} {ds : List Data} {as : List α} (h : List.Forall₂ (Reads element) ds as) :
    Reads (readSequence (some element)) (.list ds) as := by
  intro s ts htokens
  rw [Lexicon.tokens_list, List.append_assoc] at htokens
  obtain ⟨s', hs, hs'⟩ := exists_sign htokens
  have hbound : ds.length < ('[' :: s').length := by
    have hlength := length_lt_of_tokens? (c := '[') (fun us hus => ?_) hs'
    · rwa [List.length_map] at hlength
    · obtain ⟨d, -, rfl⟩ := List.mem_map.1 hus
      obtain ⟨t, us, ht, -⟩ := tokens_head d
      rw [ht]
      exact List.cons_ne_nil t us
  have hitems :
      tokens? nextToken s' = some (remaining true (ds.map (lexicon.tokens memberKey)) ++ .sign ']' :: ts) := by
    rw [remaining_true]
    exact hs'
  obtain ⟨r, hread, hr⟩ := readElements_eq h hbound hitems
  refine ⟨r, ?_, hr⟩
  simp only [readSequence, hs, readList, hread, ↓reduceIte]
  rfl

/-! ## Records -/

theorem nextMember_end (first : Bool) (h : tokens? nextToken s = some (.sign '\x7d' :: ts)) :
    ∃ r, nextMember first s = .ok (false, '\x7d' :: r) ∧ tokens? nextToken r = some ts := by
  obtain ⟨r, hs, hr⟩ := exists_sign h
  exact ⟨r, by simp only [nextMember, hs, ↓reduceIte], hr⟩

theorem nextMember_key {first : Bool} {name : String}
    (h : tokens? nextToken s = some (lead first ++ .string name :: ts)) :
    ∃ r r' t, nextMember first s = .ok (true, r) ∧ readText r = .ok (t, r') ∧ String.ofList t = name ∧
      tokens? nextToken r' = some ts := by
  cases first with
  | true =>
    obtain ⟨r, t, r', hs, htext, ht, hr⟩ := exists_string h
    refine ⟨r, r', t, ?_, htext, ht, hr⟩
    simp only [nextMember, hs, (by decide : '"' ≠ '\x7d'), ↓reduceIte]
  | false =>
    obtain ⟨s', hs, hs'⟩ := exists_sign h
    obtain ⟨r, t, r', hr, htext, ht, hr'⟩ := exists_string hs'
    refine ⟨r, r', t, ?_, htext, ht, hr'⟩
    simp only [nextMember, hs, hr, (by decide : ',' ≠ '\x7d'), ↓reduceIte, Bool.false_eq_true]

theorem readColon_eq (h : tokens? nextToken s = some (.sign ':' :: ts)) :
    ∃ r, readColon s = .ok r ∧ tokens? nextToken r = some ts := by
  obtain ⟨r, hs, hr⟩ := exists_sign h
  exact ⟨r, by simp only [readColon, hs, ↓reduceIte], hr⟩

/-- The named data are members of the record that lead from one state to another one: each has the name of a field
that is not set, and that reads it. -/
inductive ReadsMembers (fields : List (RecordField σ)) : List (String × Data) → σ → σ → Prop
  | nil (state : σ) : ReadsMembers fields [] state state
  | cons {name : String} {d : Data} {es : List (String × Data)} {f : RecordField σ} {state next final : σ} :
    fields.find? (·.name = name) = some f → f.isSet state = false → Reads (f.read state) d next →
      ReadsMembers fields es next final → ReadsMembers fields ((name, d) :: es) state final

/-- The tokens of a member. -/
def memberTokens (e : String × Data) : List Token :=
  memberKey e.1 ++ lexicon.tokens memberKey e.2

/-- **The members of a record** are taken in one by one, if the bound is larger than their number. -/
theorem foldMembers_eq {fields : List (RecordField σ)} {es : List (String × Data)} {state final : σ}
    (h : ReadsMembers fields es state final) :
    ∀ {bound : List Char} {first : Bool} {s : List Char}, es.length < bound.length →
      tokens? nextToken s = some (remaining first (es.map memberTokens) ++ .sign '\x7d' :: ts) →
        ∃ r, foldMembers (readMember fields) bound first state s = .ok (final, '\x7d' :: r) ∧
          tokens? nextToken r = some ts := by
  induction h with
  | nil state =>
    intro bound first s hbound htokens
    obtain ⟨b, bound, rfl⟩ := List.exists_cons_of_length_pos (by omega : 0 < bound.length)
    obtain ⟨r, hnext, hr⟩ := nextMember_end first htokens
    refine ⟨r, ?_, hr⟩
    rw [foldMembers, hnext]
    rfl
  | @cons name d es f state next final hfield hset hread _ ih =>
    intro bound first s hbound htokens
    obtain ⟨b, bound, rfl⟩ := List.exists_cons_of_length_pos (by omega : 0 < bound.length)
    simp only [List.map_cons, remaining, memberTokens, memberKey, List.append_assoc, List.cons_append,
      List.nil_append] at htokens
    obtain ⟨s₁, s₂, key, hnext, hkey, rfl, hs₂⟩ := nextMember_key htokens
    obtain ⟨s₃, hcolon, hs₃⟩ := readColon_eq hs₂
    obtain ⟨s₄, hvalue, hs₄⟩ := hread _ _ hs₃
    obtain ⟨r, hrest, hr⟩ := ih (Nat.lt_of_succ_lt_succ hbound) hs₄
    refine ⟨r, ?_, hr⟩
    have hmember : readMember fields state (String.ofList key) s₂ = .ok (next, s₄) := by
      simp only [readMember, hfield, hset, hcolon, Bool.false_eq_true, ↓reduceIte]
      exact hvalue
    rw [foldMembers, hnext]
    simp only [bind, Except.bind, ↓reduceIte, hkey, hmember, hrest]

/-- **A record** is read if its members are and no field without a default is left out. -/
theorem reads_record {name : String} {shape : RecordShape σ} {es : List (String × Data)} {final : σ}
    (h : ReadsMembers shape.fields es shape.start final)
    (hcomplete : shape.fields.find? (fun f => !f.optional && !f.isSet final) = none) :
    Reads (readRecord name (some shape)) (.fields es) final := by
  intro s ts htokens
  rw [Lexicon.tokens_fields, List.append_assoc] at htokens
  obtain ⟨s', hs, hs'⟩ := exists_sign htokens
  have hbound : es.length < ('\x7b' :: s').length := by
    have hlength := length_lt_of_tokens? (c := '\x7b') (fun us hus => ?_) hs'
    · rwa [List.length_map] at hlength
    · obtain ⟨e, -, rfl⟩ := List.mem_map.1 hus
      exact List.cons_ne_nil _ _
  have hitems : tokens? nextToken s' = some (remaining true (es.map memberTokens) ++ .sign '\x7d' :: ts) := by
    rw [remaining_true]
    exact hs'
  obtain ⟨r, hread, hr⟩ := foldMembers_eq h hbound hitems
  have hmembers : readMembers shape.fields shape.start s' = .ok (final, '\x7d' :: r) := by
    rw [readMembers, bind_eq_ok]
    exact ⟨_, hread, by simp only [hcomplete]; rfl⟩
  refine ⟨r, ?_, hr⟩
  simp only [readRecord, hs, hmembers, ↓reduceIte]
  rfl

/-- A text that has the tokens of data only is read as a whole. -/
theorem readDocument_eq {read : Reader α} {d : Data} {a : α} (h : Reads read d a)
    (htokens : tokens? nextToken s = some (lexicon.tokens memberKey d)) : readDocument read s = .ok a := by
  obtain ⟨r, hread, hr⟩ := h s [] (by rw [htokens, List.append_nil])
  rw [readDocument, bind_eq_ok]
  refine ⟨_, hread, ?_⟩
  simp only [skipBlanks_eq_nil hr]
  rfl

end TableExport.Json
