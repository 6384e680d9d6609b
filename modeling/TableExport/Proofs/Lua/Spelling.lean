import TableExport.Lua.Name
import TableExport.Proofs.Lua.ByteLexis
import TableExport.Proofs.Text.Lexing
import TableExport.Proofs.Text.Utf8

/-!
# Strings and names are read back

What is written for a string or a name is read by the rules of the language as that string or name, byte by byte. All
that the rules ask for are bytes below 128, so quotes, backslashes, line breaks and the parts of names can be found in the
bytes as well as in the characters.

- `Spelled` relates bytes inside double quotes to the bytes that they stand for; `spelled_quotedChar` says that a
  character is spelled as its bytes, and three lemmas about `Spelled` say what follows for a whole string.
- `isIdentifier_iff` says which names can be written bare.
- `ConstructorKey` and `AccessKey` say which key a text is read as.
- `spelling_read_back` brings these together.
-/

namespace TableExport.Lua

open TableExport.Text (toUTF8_toList utf8EncodeChar_cases eq_of_mem_utf8EncodeChar)

/-! ## The bytes of characters -/

/-- The bytes of characters. -/
def utf8 (cs : List Char) : List UInt8 :=
  cs.flatMap String.utf8EncodeChar

@[simp] theorem utf8_cons (c : Char) (cs : List Char) : utf8 (c :: cs) = String.utf8EncodeChar c ++ utf8 cs :=
  List.flatMap_cons

@[simp] theorem utf8_append (cs ds : List Char) : utf8 (cs ++ ds) = utf8 cs ++ utf8 ds :=
  List.flatMap_append

theorem bytes_eq (s : String) : bytes s = utf8 s.toList := by
  rw [bytes, toUTF8_toList, utf8]

theorem bytes_append (s t : String) : bytes (s ++ t) = bytes s ++ bytes t := by
  rw [bytes_eq, bytes_eq, bytes_eq, String.toList_append, utf8_append]

theorem bytes_inj {s t : String} : bytes s = bytes t ↔ s = t := by
  constructor
  · intro h
    rw [bytes, bytes, String.toUTF8_eq_toByteArray, String.toUTF8_eq_toByteArray] at h
    exact String.toByteArray_inj.1 (ByteArray.ext (Array.toList_inj.1 h))
  · rintro rfl
    rfl

/-! ## Strings -/

/-- The byte stands for itself in a string between double quotes. -/
def IsPlain (b : UInt8) : Prop :=
  b ≠ '"'.toUInt8 ∧ b ≠ '\\'.toUInt8 ∧ isBreakByte b = false

theorem isPlain_iff {b : UInt8} :
    IsPlain b ↔ b ≠ '"'.toUInt8 ∧ b ≠ '\\'.toUInt8 ∧ b ≠ '\n'.toUInt8 ∧ b ≠ '\r'.toUInt8 := by
  simp only [IsPlain, isBreakByte, Bool.or_eq_false_iff, decide_eq_false_iff_not, ne_eq]

/-- Bytes inside double quotes stand for bytes: plain bytes for themselves, escapes for what they are read as. -/
inductive Spelled : List UInt8 → List UInt8 → Prop
  | plain {bs : List UInt8} : (∀ b ∈ bs, IsPlain b) → Spelled bs bs
  | escape {e : UInt8} {rest text : List UInt8} : (∀ r, escape? (e :: (rest ++ r)) = some (text, rest.length + 1)) →
      isBreakByte e = false → (∀ b ∈ rest, IsPlain b) → Spelled ('\\'.toUInt8 :: e :: rest) text
  | append {s s' t t' : List UInt8} : Spelled s t → Spelled s' t' → Spelled (s ++ s') (t ++ t')

theorem notMem_unescaped {bs r : List UInt8} (hbs : ∀ b ∈ bs, IsPlain b) (hr : '"'.toUInt8 ∉ unescaped r) :
    '"'.toUInt8 ∉ unescaped (bs ++ r) := by
  induction bs with
  | nil => exact hr
  | cons b bs ih =>
    obtain ⟨⟨hquote, hbackslash, -⟩, hbs⟩ := List.forall_mem_cons.1 hbs
    have hcons : unescaped (b :: (bs ++ r)) = b :: unescaped (bs ++ r) := by
      cases bs ++ r with
      | nil => rfl
      | cons c s => rw [unescaped, if_neg hbackslash]
    rw [List.cons_append, hcons, List.mem_cons, not_or]
    exact ⟨hquote.symm, ih hbs⟩

namespace Spelled

variable {s t : List UInt8} (h : Spelled s t)
include h

/-- The bytes are read as what they stand for, whatever is behind them. -/
theorem readBody (r : List UInt8) : readBody '"'.toUInt8 0 (s ++ r) =
    (readBody '"'.toUInt8 0 r).map fun x => (t ++ x.1, x.2) := by
  induction h generalizing r with
  | @plain bs hbs =>
    induction bs with
    | nil => simp
    | cons b bs ih =>
      obtain ⟨⟨hquote, hbackslash, hbreak⟩, hbs⟩ := List.forall_mem_cons.1 hbs
      rw [List.cons_append, Lua.readBody, if_neg hquote, if_neg hbackslash, hbreak, if_neg Bool.false_ne_true, ih hbs,
        Option.map_map]
      rfl
  | @escape e rest text hread hbreak hrest =>
    have hdrop : (e :: (rest ++ r)).drop (rest.length + 1) = r := by simp
    show Lua.readBody _ 0 ('\\'.toUInt8 :: e :: (rest ++ r)) = _
    rw [Lua.readBody, if_neg (by decide), if_pos rfl, hread]
    simp only [readBody_eq_drop _ (rest.length + 1), hdrop]
  | append _ _ ih ih' =>
    rw [List.append_assoc, ih, ih', Option.map_map]
    simp only [Function.comp_def, List.append_assoc]

/-- There is no line break among them. -/
theorem isBreakByte_eq_false : ∀ b ∈ s, isBreakByte b = false := by
  induction h with
  | plain hbs => exact fun b hb => (hbs b hb).2.2
  | escape _ hbreak hrest =>
    exact List.forall_mem_cons.2 ⟨rfl, List.forall_mem_cons.2 ⟨hbreak, fun b hb => (hrest b hb).2.2⟩⟩
  | append _ _ ih ih' => exact List.forall_mem_append.2 ⟨ih, ih'⟩

/-- Every quote among them has a backslash in front of it. -/
theorem unescaped_append (r : List UInt8) (hr : '"'.toUInt8 ∉ unescaped r) : '"'.toUInt8 ∉ unescaped (s ++ r) := by
  induction h generalizing r with
  | plain hbs => exact notMem_unescaped hbs hr
  | escape _ _ hrest =>
    rw [List.cons_append, List.cons_append, unescaped, if_pos rfl]
    exact notMem_unescaped hrest hr
  | append _ _ ih ih' =>
    rw [List.append_assoc]
    exact ih _ (ih' r hr)

end Spelled

theorem digit_byte : ∀ d < 10, String.utf8EncodeChar (Nat.digitChar d) = [UInt8.ofNat (d + 48)] ∧
    isDigitByte (UInt8.ofNat (d + 48)) = true ∧ (UInt8.ofNat (d + 48)).toNat - '0'.toNat = d := by
  decide

theorem isPlain_of_isDigitByte {b : UInt8} (h : isDigitByte b = true) : IsPlain b := by
  refine isPlain_iff.2 ⟨?_, ?_, ?_, ?_⟩
  all_goals
    rintro rfl
    cases h

/-- Three decimal digits are read as their number, whatever is behind them. -/
theorem escape?_digits {a b c : UInt8} (ha : isDigitByte a = true) (hb : isDigitByte b = true)
    (hc : isDigitByte c = true) (hn : decimalValue [a, b, c] < 256) (r : List UInt8) :
    escape? (a :: ([b, c] ++ r)) = some ([UInt8.ofNat (decimalValue [a, b, c])], 3) := by
  unfold escape?
  simp only [ha, List.cons_append, List.nil_append, List.takeWhile_cons, hb, hc, ↓reduceIte, List.take_succ_cons,
    List.take_zero, if_pos hn]
  rfl

/-- A code with three digits is spelled as the byte of that number, also in front of other digits. -/
theorem spelled_decimalCode {n : Nat} (hn : n < 256) :
    Spelled ('\\'.toUInt8 :: utf8 (decimalCode n)) [UInt8.ofNat n] := by
  obtain ⟨ha, hdigita, hvaluea⟩ := digit_byte (n / 100 % 10) (Nat.mod_lt _ (by decide))
  obtain ⟨hb, hdigitb, hvalueb⟩ := digit_byte (n / 10 % 10) (Nat.mod_lt _ (by decide))
  obtain ⟨hc, hdigitc, hvaluec⟩ := digit_byte (n % 10) (Nat.mod_lt _ (by decide))
  have hvalue : decimalValue [UInt8.ofNat (n / 100 % 10 + 48), UInt8.ofNat (n / 10 % 10 + 48),
      UInt8.ofNat (n % 10 + 48)] = n := by
    simp only [decimalValue, List.foldl_cons, List.foldl_nil, hvaluea, hvalueb, hvaluec]
    omega
  have hread := escape?_digits hdigita hdigitb hdigitc (hvalue.symm ▸ hn)
  rw [hvalue] at hread
  simp only [decimalCode, utf8_cons, ha, hb, hc]
  refine .escape hread (isPlain_of_isDigitByte hdigita).2.2 ?_
  exact List.forall_mem_cons.2 ⟨isPlain_of_isDigitByte hdigitb,
    List.forall_mem_cons.2 ⟨isPlain_of_isDigitByte hdigitc, fun _ hx => nomatch hx⟩⟩

/-- A character is spelled inside quotes as its bytes. -/
theorem spelled_quotedChar (c : Char) : Spelled (utf8 (quotedChar c)) (String.utf8EncodeChar c) := by
  unfold quotedChar
  split
  · subst_vars; exact .escape (fun _ => rfl) rfl (by simp)
  split
  · subst_vars; exact .escape (fun _ => rfl) rfl (by simp)
  split
  · subst_vars; exact .escape (fun _ => rfl) rfl (by simp)
  split
  · subst_vars; exact .escape (fun _ => rfl) rfl (by simp)
  split
  · subst_vars; exact .escape (fun _ => rfl) rfl (by simp)
  split
  · rename_i hcontrol
    have hlow : c.toNat < 128 := by
      simp only [Bool.or_eq_true, decide_eq_true_eq] at hcontrol
      omega
    have hbyte : String.utf8EncodeChar c = [UInt8.ofNat c.toNat] := by
      rcases utf8EncodeChar_cases c with ⟨-, hbyte⟩ | ⟨hhigh, -⟩
      · exact hbyte
      · omega
    rw [hbyte, utf8_cons]
    exact spelled_decimalCode (by omega)
  · rename_i hquote hbackslash hline hreturn htab _
    have hutf8 : utf8 [c] = String.utf8EncodeChar c := List.append_nil _
    rw [hutf8]
    refine .plain fun b hb => isPlain_iff.2 ⟨?_, ?_, ?_, ?_⟩
    · rintro rfl
      exact hquote (eq_of_mem_utf8EncodeChar (by decide) hb)
    · rintro rfl
      exact hbackslash (eq_of_mem_utf8EncodeChar (by decide) hb)
    · rintro rfl
      exact hline (eq_of_mem_utf8EncodeChar (by decide) hb)
    · rintro rfl
      exact hreturn (eq_of_mem_utf8EncodeChar (by decide) hb)

theorem spelled_flatMap (cs : List Char) : Spelled (utf8 (cs.flatMap quotedChar)) (utf8 cs) := by
  induction cs with
  | nil => exact .plain fun _ hb => nomatch hb
  | cons c cs ih =>
    rw [List.flatMap_cons, utf8_append, utf8_cons]
    exact (spelled_quotedChar c).append ih

theorem bytes_quoted (s : String) :
    bytes (quoted s) = '"'.toUInt8 :: (utf8 (s.toList.flatMap quotedChar) ++ ['"'.toUInt8]) := by
  rw [bytes_eq, quoted, String.toList_ofList, List.cons_append, utf8_cons, utf8_append]
  rfl

/-- **A quoted string is read back**, whatever is behind it. -/
theorem readString_quoted (s : String) (r : List UInt8) : readString (bytes (quoted s) ++ r) = some (bytes s, r) := by
  have hquote : readBody '"'.toUInt8 0 ('"'.toUInt8 :: r) = some ([], r) := rfl
  rw [bytes_quoted, List.cons_append, List.append_assoc, readString, if_pos (by decide), (spelled_flatMap _).readBody,
    List.singleton_append, hquote, bytes_eq]
  simp

theorem isBreakByte_quoted (s : String) : ∀ b ∈ bytes (quoted s), isBreakByte b = false := by
  rw [bytes_quoted, List.forall_mem_cons, List.forall_mem_append, List.forall_mem_singleton]
  exact ⟨rfl, (spelled_flatMap _).isBreakByte_eq_false, rfl⟩

/-- The quotes of a quoted string are the first byte and the last one, and those that are escaped. -/
theorem unescaped_quoted (s : String) :
    ∃ body, bytes (quoted s) = '"'.toUInt8 :: (body ++ ['"'.toUInt8]) ∧ '"'.toUInt8 ∉ unescaped body := by
  have hbody := (spelled_flatMap s.toList).unescaped_append [] (by simp [unescaped])
  rw [List.append_nil] at hbody
  exact ⟨_, bytes_quoted s, hbody⟩

/-! ## Names -/

theorem nameBytes : ∀ n < 128, isNameStartByte (UInt8.ofNat n) = isNameStart (Char.ofNat n) ∧
    isNamePartByte (UInt8.ofNat n) = isNamePart (Char.ofNat n) := by
  decide

theorem nameBytes_high : ∀ n < 128, isNamePartByte (UInt8.ofNat (n + 128)) = false := by
  decide

/-- The characters of names are below 128. -/
theorem toNat_of_isNamePart {c : Char} (h : isNamePart c = true) : c.toNat < 128 := by
  have hle (d : Char) (hd : d.toNat < 128) (hcd : c.val ≤ d.val) : c.toNat < 128 :=
    Nat.lt_of_le_of_lt (UInt32.le_iff_toNat_le.1 hcd) hd
  simp only [isNamePart, Char.isAlphanum, Bool.or_eq_true, decide_eq_true_eq] at h
  rcases h with (halpha | hdigit) | rfl
  · rcases (Bool.or_eq_true_iff.1 halpha : c.isUpper = true ∨ c.isLower = true) with hupper | hlower
    · have hrange : 'A'.val ≤ c.val ∧ c.val ≤ 'Z'.val := of_decide_eq_true hupper
      exact hle 'Z' (by decide) hrange.2
    · have hrange : 'a'.val ≤ c.val ∧ c.val ≤ 'z'.val := (Bool.and_eq_true_iff.1 hlower).imp of_decide_eq_true
        of_decide_eq_true
      exact hle 'z' (by decide) hrange.2
  · have hrange : '0'.val ≤ c.val ∧ c.val ≤ '9'.val := (Bool.and_eq_true_iff.1 hdigit).imp of_decide_eq_true
      of_decide_eq_true
    exact hle '9' (by decide) hrange.2
  · decide

/-- The bytes of a character are those of a name if and only if the character is that of a name. -/
theorem nameBytes_cases (c : Char) :
    (∃ b, String.utf8EncodeChar c = [b] ∧ isNameStartByte b = isNameStart c ∧ isNamePartByte b = isNamePart c) ∨
      ∃ b bs, String.utf8EncodeChar c = b :: bs ∧ isNamePartByte b = false ∧ isNamePart c = false := by
  rcases utf8EncodeChar_cases c with ⟨hc, hbytes⟩ | ⟨hc, b, bs, hbytes, hhigh⟩
  · obtain ⟨hstart, hpart⟩ := nameBytes c.toNat hc
    rw [Char.ofNat_toNat] at hstart hpart
    exact .inl ⟨_, hbytes, hstart, hpart⟩
  · refine .inr ⟨b, bs, hbytes, ?_, ?_⟩
    · have hb : 128 ≤ b.toNat := hhigh b List.mem_cons_self
      have hlt : b.toNat < 256 := b.toNat_lt
      have hnot := nameBytes_high (b.toNat - 128) (by omega)
      rwa [Nat.sub_add_cancel hb, UInt8.ofNat_toNat] at hnot
    · rw [← Bool.not_eq_true]
      exact fun hpart => absurd (toNat_of_isNamePart hpart) (Nat.not_lt.2 hc)

theorem all_isNamePartByte (cs : List Char) : (utf8 cs).all isNamePartByte = cs.all isNamePart := by
  induction cs with
  | nil => rfl
  | cons c cs ih =>
    rw [utf8_cons, List.all_append, ih, List.all_cons]
    rcases nameBytes_cases c with ⟨b, hbytes, -, hpart⟩ | ⟨b, bs, hbytes, hbyte, hpart⟩
    · rw [hbytes, List.all_cons, List.all_nil, Bool.and_true, hpart]
    · rw [hbytes, List.all_cons, hbyte, hpart, Bool.false_and]

theorem readName_eq_self {bs : List UInt8} : readName bs = some (bs, []) ↔
    ∃ b t, bs = b :: t ∧ isNameStartByte b = true ∧ t.all isNamePartByte = true := by
  cases bs with
  | nil => simp [readName]
  | cons b t =>
    rw [readName, Option.ite_none_right_eq_some, Option.some.injEq, Prod.mk.injEq, List.cons.injEq,
      List.dropWhile_eq_nil_iff, List.takeWhile_eq_self_iff]
    simp

/-- **A name can be written bare** if and only if it is read as a name and is not reserved. -/
theorem isIdentifier_iff {s : String} :
    isIdentifier s = true ↔ readName (bytes s) = some (bytes s, []) ∧ s ∉ reservedWords := by
  have hreserved : s ∈ reservedWords ↔ keywords.contains s = true := List.contains_iff_mem.symm
  rw [readName_eq_self, bytes_eq, hreserved, isIdentifier]
  cases s.toList with
  | nil => simp [utf8]
  | cons c cs =>
    simp only [Bool.and_eq_true, Bool.not_eq_true', Bool.not_eq_true]
    refine and_congr_left fun _ => ?_
    rw [utf8_cons]
    rcases nameBytes_cases c with ⟨b, hbytes, hstart, -⟩ | ⟨b, bs, hbytes, hbyte, hpart⟩
    · rw [hbytes, List.singleton_append, ← hstart, ← all_isNamePartByte]
      constructor
      · exact fun h => ⟨b, _, rfl, h⟩
      · rintro ⟨b', t, heq, h⟩
        cases heq
        exact h
    · rw [hbytes]
      refine iff_of_false (fun h => ?_) ?_
      · rw [isNamePart_of_isNameStart h.1] at hpart
        cases hpart
      · rintro ⟨b', t, heq, h, -⟩
        cases heq
        rw [isNamePartByte, h] at hbyte
        cases hbyte

/-! ## Keys -/

/-- No more of a name follows. -/
def NameStops (r : List UInt8) : Prop :=
  ∀ b ∈ r.head?, isNamePartByte b = false

theorem readName_append {bs r : List UInt8} (h : readName bs = some (bs, [])) (hr : NameStops r) :
    readName (bs ++ r) = some (bs, r) := by
  cases bs with
  | nil => cases h
  | cons b t =>
    obtain ⟨htake, hdrop⟩ := Text.takeWhile_append_of_head t hr
    rw [readName, Option.ite_none_right_eq_some, Option.some.injEq, Prod.mk.injEq] at h
    obtain ⟨hstart, hname, hrest⟩ := h
    rw [List.cons_append, readName, if_pos hstart, htake, hdrop, hname, hrest]
    rfl

theorem isReserved_bytes {s : String} : isReserved (bytes s) = true ↔ s ∈ reservedWords := by
  simp only [isReserved, List.any_eq_true, decide_eq_true_eq, bytes_inj, exists_eq_right]

theorem nameKey?_identifier {s : String} (h : isIdentifier s = true) {r : List UInt8} (hr : NameStops r) :
    nameKey? (bytes s ++ r) = some (bytes s, r) := by
  obtain ⟨hname, hfree⟩ := isIdentifier_iff.1 h
  rw [nameKey?, readName_append hname hr, Option.filter_some_pos]
  rw [Bool.not_eq_true', ← Bool.not_eq_true, isReserved_bytes]
  exact hfree

theorem bytes_bracket (s : String) :
    bytes ("[" ++ quoted s ++ "]") = '['.toUInt8 :: (bytes (quoted s) ++ [']'.toUInt8]) := by
  have hopen : bytes "[" = ['['.toUInt8] := by decide
  have hclose : bytes "]" = [']'.toUInt8] := by decide
  rw [bytes_append, bytes_append, hopen, hclose, List.singleton_append, List.cons_append]

theorem bracketKey?_quoted (s : String) (r : List UInt8) :
    bracketKey? (bytes ("[" ++ quoted s ++ "]") ++ r) = some (bytes s, r) := by
  rw [bytes_bracket, List.cons_append, bracketKey?, if_pos rfl, List.append_assoc, readString_quoted]
  rfl

/-- The text is read as the key of a constructor entry, whatever is behind it. -/
def ConstructorKey (text : String) (key : List UInt8) : Prop :=
  ∀ r, NameStops r → constructorKey? (bytes text ++ r) = some (key, r)

/-- The text is the base and an access behind it that is read as the key, whatever is behind that. -/
def AccessKey (base text : String) (key : List UInt8) : Prop :=
  ∃ suffix, bytes text = bytes base ++ suffix ∧ ∀ r, NameStops r → accessKey? (suffix ++ r) = some (key, r)

theorem constructorKey_tableKey (s : String) : ConstructorKey (tableKey s) (bytes s) := by
  intro r hr
  unfold tableKey constructorKey?
  split
  · rename_i hname
    rw [nameKey?_identifier hname hr, Option.some_or]
  · have hnone : nameKey? (bytes ("[" ++ quoted s ++ "]") ++ r) = none := by
      rw [bytes_bracket]
      rfl
    rw [hnone, Option.none_or, bracketKey?_quoted]

theorem accessKey_fieldAccess (base s : String) : AccessKey base (fieldAccess base s) (bytes s) := by
  unfold fieldAccess
  split
  · rename_i hname
    have hpoint : bytes "." = ['.'.toUInt8] := by decide
    refine ⟨bytes ("." ++ s), ?_, fun r hr => ?_⟩
    · rw [String.append_assoc, bytes_append]
    · rw [bytes_append, hpoint, List.singleton_append, List.cons_append, accessKey?, if_pos rfl,
        nameKey?_identifier hname hr]
  · refine ⟨bytes ("[" ++ quoted s ++ "]"), ?_, fun r _ => ?_⟩
    · rw [← bytes_append, String.append_assoc, String.append_assoc, String.append_assoc]
    · rw [← bracketKey?_quoted, bytes_bracket]
      rfl

theorem nameStops_nil : NameStops [] :=
  fun _ h => nomatch h

theorem ConstructorKey.unique {text : String} {key key' : List UInt8} (h : ConstructorKey text key)
    (h' : ConstructorKey text key') : key = key' := by
  have heq := (h [] nameStops_nil).symm.trans (h' [] nameStops_nil)
  exact (Prod.mk.inj (Option.some.inj heq)).1

theorem AccessKey.unique {base text : String} {key key' : List UInt8} (h : AccessKey base text key)
    (h' : AccessKey base text key') : key = key' := by
  obtain ⟨suffix, htext, hread⟩ := h
  obtain ⟨suffix', htext', hread'⟩ := h'
  obtain rfl : suffix = suffix' := List.append_cancel_left (htext.symm.trans htext')
  have heq := (hread [] nameStops_nil).symm.trans (hread' [] nameStops_nil)
  exact (Prod.mk.inj (Option.some.inj heq)).1

/-- **What is written is read back.** A quoted string is one short string on one line whose quotes are escaped, and it
stands for the bytes of the text, whatever follows it. A name is written bare if and only if it is read as a name and is
not reserved. The key of a constructor entry and the key of an access are the bytes of the name in either spelling, so
an access reads what the entry of that name has written, and nothing else. -/
theorem spelling_read_back (s : String) :
    (∀ r, readString (bytes (quoted s) ++ r) = some (bytes s, r)) ∧
    (∀ b ∈ bytes (quoted s), isBreakByte b = false) ∧
    (∃ body, bytes (quoted s) = '"'.toUInt8 :: (body ++ ['"'.toUInt8]) ∧ '"'.toUInt8 ∉ unescaped body) ∧
    (isIdentifier s = true ↔ readName (bytes s) = some (bytes s, []) ∧ s ∉ reservedWords) ∧
    (∀ key, ConstructorKey (tableKey s) key ↔ key = bytes s) ∧
    (∀ base key, AccessKey base (fieldAccess base s) key ↔ key = bytes s) ∧
    (∀ s', (∃ key, ConstructorKey (tableKey s) key ∧ ConstructorKey (tableKey s') key) ↔ s = s') ∧
    ∀ base s', (∃ key, ConstructorKey (tableKey s) key ∧ AccessKey base (fieldAccess base s') key) ↔ s = s' := by
  have hconstructor (s : String) (key : List UInt8) : ConstructorKey (tableKey s) key ↔ key = bytes s := by
    constructor
    · exact fun h => h.unique (constructorKey_tableKey s)
    · rintro rfl
      exact constructorKey_tableKey s
  have haccess (base s : String) (key : List UInt8) : AccessKey base (fieldAccess base s) key ↔ key = bytes s := by
    constructor
    · exact fun h => h.unique (accessKey_fieldAccess base s)
    · rintro rfl
      exact accessKey_fieldAccess base s
  refine ⟨readString_quoted s, isBreakByte_quoted s, unescaped_quoted s, isIdentifier_iff, hconstructor s,
    fun base => haccess base s, fun s' => ?_, fun base s' => ?_⟩
  · simp only [hconstructor, exists_eq_left, bytes_inj]
  · simp only [hconstructor, haccess, exists_eq_left, bytes_inj]

/-- A control character in front of a digit, a quote in front of a backslash, and a reserved word as a name. -/
example : quoted "\x071\"\\" = "\"\\0071\\\"\\\\\"" ∧ tableKey "end" = "[\"end\"]" := by
  decide

end TableExport.Lua
