import TableExport.Printer.Lua
import TableExport.Proofs.Lua.Constructor
import TableExport.Proofs.Printer.Success

/-!
# The tokens of the Lua output

What the Lua printer writes is a chunk whose statements build the tables, the lookup maps and the enums.

- `chunk` lists the statements of an output, `bodyTokens` their tokens in front of the last.
- `writes_indexLoop` computes the tokens of a lookup map, `writes_lua` those of the whole output.
-/

namespace TableExport.Lua

open TableExport.Layout TableExport.Literal TableExport.Printer TableExport.Render TableExport.Text

/-- The variable of the table that a chunk builds. -/
def tabVar : Expr := .name "tab"

/-- The variable of the record in a loop. -/
def recVar : Expr := .name "rec"

/-- The field of that name. -/
def Expr.field (base : Expr) (name : String) : Expr :=
  .index base (.string name)

/-- The statements of a lookup map: it starts empty, and every record of the table is put in under its key. -/
def indexStats (spec : IndexSpec) : List Stat :=
  [.assign (tabVar.field spec.mapName) (.table []),
   .loop "_" "rec" (.call (.name "ipairs") (tabVar.field spec.table))
     [.assign (.index (tabVar.field spec.mapName) (recVar.field spec.key.name)) recVar]]

/-- The tables of an output. -/
def tablesData (m : Model) : Data :=
  .fields ((lua.select m).map Table.entry)

/-- The enums of an output. -/
def enumsData (m : Model) : Data :=
  .fields ((enums m.descriptors).map Descriptor.enumEntry)

/-- The statements of an output in front of the last. -/
def bodyStats (m : Model) (specs : List IndexSpec) : List Stat :=
  [.declare "tab" (dataExpr (tablesData m))] ++ specs.flatMap indexStats ++
    [.assign (tabVar.field enumNamespace) (dataExpr (enumsData m))]

/-- The statements of an output. -/
def chunk (m : Model) (specs : List IndexSpec) : List Stat :=
  bodyStats m specs ++ [.give tabVar]

/-! ## Tokens -/

/-- The tokens of a path to a field of a variable. -/
def pathTokens (base name : String) : List Token :=
  .name base :: accessTokens name

/-- The tokens of the first statement of a lookup map. -/
def emptyMapTokens (spec : IndexSpec) : List Token :=
  pathTokens "tab" spec.mapName ++ [.sign '=', .sign '\x7b', .sign '\x7d']

/-- The tokens in front of the body of the loop. -/
def loopHeadTokens (spec : IndexSpec) : List Token :=
  [.keyword "for", .name "_", .sign ',', .name "rec", .keyword "in", .name "ipairs", .sign '('] ++
    pathTokens "tab" spec.table ++ [.sign ')', .keyword "do"]

/-- The tokens of the body of the loop. -/
def loopBodyTokens (spec : IndexSpec) : List Token :=
  pathTokens "tab" spec.mapName ++ .sign '[' :: pathTokens "rec" spec.key.name ++ [.sign ']', .sign '=', .name "rec"]

/-- The tokens of a lookup map. -/
def indexTokens (spec : IndexSpec) : List Token :=
  emptyMapTokens spec ++ (loopHeadTokens spec ++ loopBodyTokens spec ++ [.keyword "end"])

/-- The tokens of the declaration of the tables. -/
def declareTokens (m : Model) : List Token :=
  [.keyword "local", .name "tab", .sign '='] ++ lexicon.tokens fieldKey (tablesData m)

/-- The tokens of the assignment of the enums. -/
def enumTokens (m : Model) : List Token :=
  pathTokens "tab" enumNamespace ++ .sign '=' ::
    entriesTokens fieldKey mapKey ((enums m.descriptors).map Descriptor.enumEntry)

/-- The tokens of an output in front of the last statement. -/
def bodyTokens (m : Model) (specs : List IndexSpec) : List Token :=
  declareTokens m ++ specs.flatMap indexTokens ++ enumTokens m

/-- The tokens of an output. -/
def chunkTokens (m : Model) (specs : List IndexSpec) : List Token :=
  bodyTokens m specs ++ [.keyword "return", .name "tab"]

/-! ## Lines -/

section Words

variable {follows : List Char → Prop} {s t : List Char} {ts us : List Token} {c : Char}

/-- A word in front of something that is no more of it. -/
theorem spells_wordThen (h : Spells nextToken NameEnds s ts) (hc : isNamePart c = false)
    (ht : Spells nextToken follows (c :: t) us) : Spells nextToken follows (s ++ c :: t) (ts ++ us) :=
  h.append ht fun _ _ => by simp [NameEnds, hc]

/-- A blank in front of something. -/
theorem spells_blankThen (ht : Spells nextToken follows t us) : Spells nextToken follows (' ' :: t) us :=
  (spells_blank (c := ' ') rfl).then ht

/-- A sign in front of something. -/
theorem spells_signThen (hc : plainSigns.contains c = true) (ht : Spells nextToken follows t us) :
    Spells nextToken follows (c :: t) (.sign c :: us) :=
  (spells_sign hc).then ht

/-- An equals sign between blanks in front of something. -/
theorem spells_equalsThen (ht : Spells nextToken follows t us) :
    Spells nextToken follows (' ' :: '=' :: ' ' :: t) (.sign '=' :: us) :=
  spells_blankThen (spells_equals.then ht)

end Words

/-- A path spells itself. -/
theorem spells_path {base : String} (hb : isIdentifier base = true) (name : String) :
    Spells nextToken NameEnds (fieldAccess base name).toList (pathTokens base name) := by
  unfold fieldAccess pathTokens accessTokens
  split
  · rename_i hname
    have hpoint := spells_point.append (spells_name hname) fun r (_ : NameEnds r) => by
      unfold isIdentifier at hname
      split at hname
      · cases hname
      · rename_i c s htext
        simp only [Bool.and_eq_true] at hname
        exact ⟨c, s ++ r, by simp [htext], hname.1.1⟩
    simpa using spells_wordThen (spells_name hb) rfl hpoint
  · have hkey := spells_bracketed name
    simp only [String.toList_append, String.reduceToList, List.append_assoc, List.cons_append, List.nil_append]
      at hkey ⊢
    exact spells_wordThen (spells_name hb) rfl hkey.before

/-- The first line of a lookup map. -/
theorem spells_emptyMap (spec : IndexSpec) : Spells nextToken Anything
    (fieldAccess "tab" spec.mapName ++ " = \x7b\x7d").toList (emptyMapTokens spec) := by
  have hbrackets : Spells nextToken Anything ['{', '}'] [.sign '{', .sign '}'] :=
    (spells_sign rfl).then (spells_sign rfl)
  have hpath := spells_path (by decide : isIdentifier "tab" = true) spec.mapName
  simp only [String.toList_append, String.reduceToList]
  exact spells_wordThen hpath rfl (spells_equalsThen hbrackets)

/-- The line in front of the body of the loop. -/
theorem spells_loopHead (spec : IndexSpec) : Spells nextToken AtLineEnd
    ("for _, rec in ipairs(" ++ fieldAccess "tab" spec.table ++ ") do").toList (loopHeadTokens spec) := by
  have hpath := spells_path (by decide : isIdentifier "tab" = true) spec.table
  have hdo : Spells nextToken AtLineEnd ['d', 'o'] [.keyword "do"] :=
    (spells_keyword (by decide : keywords.contains "do" = true)).weaken fun _ => NameEnds.of_atLineEnd
  have hcall := spells_wordThen hpath rfl (spells_signThen (c := ')') rfl (spells_blankThen hdo))
  have hipairs := spells_wordThen (spells_name (by decide : isIdentifier "ipairs" = true)) rfl
    (spells_signThen (c := '(') rfl hcall)
  have hin := spells_wordThen (spells_keyword (by decide : keywords.contains "in" = true)) rfl
    (spells_blankThen hipairs)
  have hrec := spells_wordThen (spells_name (by decide : isIdentifier "rec" = true)) rfl (spells_blankThen hin)
  have hcomma := spells_wordThen (spells_name (by decide : isIdentifier "_" = true)) rfl
    (spells_signThen (c := ',') rfl (spells_blankThen hrec))
  have hfor := spells_wordThen (spells_keyword (by decide : keywords.contains "for" = true)) rfl
    (spells_blankThen hcomma)
  simpa [loopHeadTokens] using hfor

/-- The body of the loop. -/
theorem spells_loopBody (spec : IndexSpec) : Spells nextToken AtLineEnd
    (fieldAccess "tab" spec.mapName ++ "[" ++ fieldAccess "rec" spec.key.name ++ "] = rec").toList
    (loopBodyTokens spec) := by
  have hmap := spells_path (by decide : isIdentifier "tab" = true) spec.mapName
  have hkey := spells_path (by decide : isIdentifier "rec" = true) spec.key.name
  have hrec : Spells nextToken AtLineEnd ['r', 'e', 'c'] [.name "rec"] :=
    (spells_name (by decide : isIdentifier "rec" = true)).weaken fun _ => NameEnds.of_atLineEnd
  have hclose := spells_wordThen hkey rfl (spells_signThen (c := ']') rfl (spells_equalsThen hrec))
  have hopen := spells_bracket.append hclose fun r _ => by
    unfold fieldAccess
    split <;> simp
  have := spells_wordThen hmap rfl hopen
  simpa [loopBodyTokens] using this

theorem OneLine.append {a b : String} (ha : OneLine a) (hb : OneLine b) : OneLine (a ++ b) := by
  intro c hc
  rw [String.toList_append, List.mem_append] at hc
  exact hc.elim (ha c) (hb c)

/-- The names of the table and of the key of a lookup map stand on one line each. -/
def OnOneLine (spec : IndexSpec) : Prop :=
  OneLine spec.table ∧ OneLine spec.key.name

/-! ## Phases -/

/-- **The code of a lookup map** behind its comment spells its statements, whatever the names are. -/
theorem writes_indexCode (spec : IndexSpec) :
    Writes nextToken (stepsOf (indexLoop spec).tail) (indexTokens spec) := by
  have hempty := writes_line passesBlanks_nextToken (spells_emptyMap spec).before
  have hhead := writes_line passesBlanks_nextToken (spells_loopHead spec)
  have hbody := writes_line passesBlanks_nextToken (spells_loopBody spec)
  have hend : Writes nextToken [.line "end"] [.keyword "end"] := by
    have hword := spells_keyword (by decide : keywords.contains "end" = true)
    exact writes_line passesBlanks_nextToken (hword.weaken fun _ => NameEnds.of_atLineEnd)
  have hloop := hhead.append (writes_indent.append (hbody.append (writes_dedent.append hend)))
  have := hempty.append (hloop.append (writes_blank passesBlanks_nextToken))
  simpa [indexLoop, stepsOf, Fragment.steps, closeSteps, indexTokens] using this

/-- The comment of a lookup map spells nothing if the names stand on one line. -/
theorem writes_indexLoop {spec : IndexSpec} (h : OnOneLine spec) :
    Writes nextToken (stepsOf (indexLoop spec)) (indexTokens spec) := by
  have hcomment : Writes nextToken [.line ("-- " ++ spec.table ++ " by " ++ spec.key.name)] [] := by
    have htext := (h.1.append (by decide : OneLine " by ")).append h.2
    have := spells_comment htext
    rw [← String.append_assoc, ← String.append_assoc] at this
    exact writes_line passesBlanks_nextToken this
  exact hcomment.append (writes_indexCode spec)

theorem writes_indexes : ∀ {specs : List IndexSpec}, (∀ spec ∈ specs, OnOneLine spec) →
    Writes nextToken (Printer.lua.indexes specs).steps (specs.flatMap indexTokens)
  | [], _ => writes_nil
  | spec :: specs, h => by
    have hrest := writes_indexes fun s hs => h s (List.mem_cons_of_mem spec hs)
    exact (writes_indexLoop (h spec List.mem_cons_self)).append hrest

/-- A key in front of a value. -/
theorem spells_declare : Spells nextToken Anything "local tab = ".toList
    [.keyword "local", .name "tab", .sign '='] := by
  have hequals : Spells nextToken Anything [' ', '=', ' '] [.sign '='] := spells_blankThen spells_equals
  have htab := spells_wordThen (spells_name (by decide : isIdentifier "tab" = true)) rfl hequals
  have := spells_wordThen (spells_keyword (by decide : keywords.contains "local" = true)) rfl (spells_blankThen htab)
  simpa using this

theorem spells_enumKey :
    Spells nextToken Anything "tab.Enum = ".toList (pathTokens "tab" enumNamespace ++ [.sign '=']) := by
  have hequals : Spells nextToken Anything [' ', '=', ' '] [.sign '='] := spells_blankThen spells_equals
  have haccess : fieldAccess "tab" enumNamespace = "tab.Enum" := by decide
  have hpath := spells_path (by decide : isIdentifier "tab" = true) enumNamespace
  rw [haccess] at hpath
  simpa using spells_wordThen hpath rfl hequals

/-- The declaration of the tables. -/
theorem writes_luaTables {m : Model} (h : (luaTables (lua.select m)).failure = none)
    (hp : ∀ t ∈ lua.select m, PlainScalars IsLiteral t.scalars) :
    Writes nextToken (luaTables (lua.select m)).steps (declareTokens m) := by
  have hblank := writes_blank passesBlanks_nextToken
  unfold luaTables at h ⊢
  split
  · rename_i he
    have hempty := writes_empty spelt_lua spells_declare spelt_lua.fieldsOpen spelt_lua.fieldsClose false
    rw [(by decide : "local tab = " ++ Literal.lua.object.empty ++ separator false = "local tab = \x7b\x7d")] at hempty
    rw [declareTokens, tablesData, Lexicon.tokens_fields, List.isEmpty_iff.1 he]
    exact hempty.append hblank
  · rename_i he
    rw [if_neg he] at h
    simp only [Script.failure_andThen_eq_none, Script.ofSteps_failure, true_and, and_true] at h
    have htables := writes_renderTables spelt_lua h hp
    rw [Lexicon.separated_false] at htables
    have hblock := writes_block spelt_lua spells_declare spelt_lua.fieldsOpen spelt_lua.fieldsClose htables false
    rw [lexicon.separator_false, List.append_nil, ← lexicon.tokens_fields lexicon.fieldKey,
      (by decide : "local tab = " ++ Literal.lua.object.opening = "local tab = \x7b")] at hblock
    have hlines : Writes nextToken ([.line "local tab = \x7b", .indent] ++
        ((renderTables Literal.lua false (lua.select m)).steps ++ [.dedent, .line "\x7d"]) ++ [.blank])
        (declareTokens m ++ []) := hblock.append hblank
    rw [Script.andThen_steps rfl, Script.andThen_steps h]
    simpa using hlines

/-- The assignment of the enums. -/
theorem writes_luaEnums (m : Model) : Writes nextToken (luaEnums (enums m.descriptors)) (enumTokens m) := by
  have hblank := writes_blank passesBlanks_nextToken
  unfold luaEnums
  split
  · rename_i he
    have hempty := writes_empty spelt_lua spells_enumKey spelt_lua.fieldsOpen spelt_lua.fieldsClose false
    rw [(by decide : "tab.Enum = " ++ Literal.lua.object.empty ++ separator false = "tab.Enum = \x7b\x7d")] at hempty
    have hlines := hempty.append hblank
    rw [List.append_nil, lexicon.separator_false, List.append_nil, List.append_assoc] at hlines
    rw [enumTokens, entriesTokens, List.isEmpty_iff.1 he]
    exact hlines
  · have henums := writes_renderEnums spelt_lua isLiteral_toString (enums m.descriptors)
    rw [Lexicon.separated_false] at henums
    have hblock := writes_block spelt_lua spells_enumKey spelt_lua.fieldsOpen spelt_lua.fieldsClose henums false
    rw [lexicon.separator_false, List.append_nil,
      (by decide : "tab.Enum = " ++ Literal.lua.object.opening = "tab.Enum = \x7b")] at hblock
    have hlines : Writes nextToken ([.line "tab.Enum = \x7b", .indent] ++
        (renderEnums Literal.lua (enums m.descriptors) ++ [.dedent, .line "\x7d"]) ++ [.blank])
        (enumTokens m ++ []) := by
      have := hblock.append hblank
      rw [List.append_assoc (pathTokens "tab" enumNamespace)] at this
      exact this
    simpa using hlines

/-- **All phases of the Lua printer** together spell the statements of the output. -/
theorem writes_lua {x : Export} {specs : List IndexSpec} (hs : lua.Succeeds x.model specs) (hv : OneLine x.version)
    (hnames : ∀ spec ∈ specs, OnOneLine spec) (hp : ∀ t ∈ lua.select x.model, PlainScalars IsLiteral t.scalars) :
    Writes nextToken (lua.allSteps x specs) (chunkTokens x.model specs) := by
  have hversion : Writes nextToken [.raw ("-- Version: " ++ x.version ++ "\n")] [] := by
    have hcomment := spells_comment ((by decide : OneLine "Version: ").append hv)
    refine writes_raw ?_
    rw [← String.append_assoc, (by decide : "-- " ++ "Version: " = "-- Version: ")] at hcomment
    rw [String.toList_append, (by decide : "\n".toList = ['\n'])]
    exact hcomment.append passesBlanks_nextToken.newline fun r _ => ⟨r, rfl⟩
  have htitle : Writes nextToken [.line "-- Generated by tabula"] [] := by
    have hcomment := spells_comment (by decide : OneLine "Generated by tabula")
    rw [(by decide : "-- " ++ "Generated by tabula" = "-- Generated by tabula")] at hcomment
    exact writes_line passesBlanks_nextToken hcomment
  have hheader := htitle.append (hversion.append (writes_blank passesBlanks_nextToken))
  have hreturn : Writes nextToken [.line "return tab"] [.keyword "return", .name "tab"] := by
    have htab : Spells nextToken AtLineEnd ['t', 'a', 'b'] [.name "tab"] :=
      (spells_name (by decide : isIdentifier "tab" = true)).weaken fun _ => NameEnds.of_atLineEnd
    have := spells_wordThen (spells_keyword (by decide : keywords.contains "return" = true)) rfl
      (spells_blankThen htab)
    exact writes_line passesBlanks_nextToken (by simpa using this)
  have hbody := ((writes_luaTables hs.tables hp).append (writes_indexes hnames)).append (writes_luaEnums x.model)
  have hall := hheader.append (hbody.append hreturn)
  have hbuilds : lua.buildsIndexes = true := rfl
  have hsteps : lua.allSteps x specs = [.line "-- Generated by tabula"] ++ ([.raw ("-- Version: " ++ x.version ++ "\n")]
      ++ [.blank]) ++ ((luaTables (lua.select x.model)).steps ++ (lua.indexes specs).steps ++
        luaEnums (enums x.model.descriptors) ++ [.line "return tab"]) := by
    rw [allSteps, if_pos hbuilds]
    simp only [List.append_assoc]
    rfl
  rw [hsteps]
  simpa [chunkTokens, bodyTokens] using hall

end TableExport.Lua
