import TableExport.Printer.Samples
import TableExport.Proofs.Lua.Phases

/-!
# The Lua output is read back

Parsing what the Lua printer writes gives the statements of its chunk, whatever the names and strings are.

- `reads_body` parses the statements in front of the last.
- `parse_of_print` says what the output of a run is read back as; `parse_lua` is the result.
-/

namespace TableExport.Lua

open TableExport.Layout TableExport.Literal TableExport.Printer TableExport.Render TableExport.Text

/-! ## Statements -/

theorem two_le_length_accessTokens (name : String) : 2 ≤ (accessTokens name).length := by
  unfold accessTokens
  split <;> simp

/-- A string is an expression wherever one may be nested. -/
theorem parses_string (n : Nat) (text : String) : Parses (parseExpr (n + 1)) [.string text] (.string text) :=
  fun _ => rfl

section Paths

variable {n : Nat} {r : List Token}

/-- A path to a field. -/
theorem parseExpr_path (base name : String) (hr : EndsExpr r) (hn : 1 ≤ n) :
    parseExpr (n + 1) (pathTokens base name ++ r) = some (Expr.field (.name base) name, r) := by
  obtain ⟨k, rfl⟩ : ∃ k, n = k + 1 := ⟨n - 1, by omega⟩
  show parseSuffixes (parseExpr (k + 1)) (k + 2) (.name base) (accessTokens name ++ r) = _
  rw [parseSuffixes_access (parses_string k name), parseSuffixes_end hr]
  rfl

/-- A path to the field of a table under the value of a path. -/
theorem parseExpr_indexed (base name key keyName : String) (hr : EndsExpr r) (hn : 2 ≤ n) :
    parseExpr (n + 1) (pathTokens base name ++ .sign '[' :: pathTokens key keyName ++ .sign ']' :: r) =
      some (.index (Expr.field (.name base) name) (Expr.field (.name key) keyName), r) := by
  obtain ⟨k, rfl⟩ : ∃ k, n = k + 2 := ⟨n - 2, by omega⟩
  have hclose : EndsExpr (.sign ']' :: r) := by
    intro t ht
    obtain rfl := Option.some.inj ht
    rfl
  have hkey := parseExpr_path (n := k + 1) key keyName hclose (by omega)
  rw [List.append_assoc, List.cons_append]
  show parseSuffixes (parseExpr (k + 2)) (k + 3) (.name base) (accessTokens name ++ _) = _
  rw [parseSuffixes_access (parses_string (k + 1) name), parseSuffixes_index hkey, parseSuffixes_end hr]
  rfl

/-- A call with a path. -/
theorem parseExpr_call (function base name : String) (hr : EndsExpr r) (hn : 2 ≤ n) :
    parseExpr (n + 1) (.name function :: .sign '(' :: pathTokens base name ++ .sign ')' :: r) =
      some (.call (.name function) (Expr.field (.name base) name), r) := by
  obtain ⟨k, rfl⟩ : ∃ k, n = k + 2 := ⟨n - 2, by omega⟩
  have hclose : EndsExpr (.sign ')' :: r) := by
    intro t ht
    obtain rfl := Option.some.inj ht
    rfl
  have hargument := parseExpr_path (n := k + 1) base name hclose (by omega)
  show parseSuffixes (parseExpr (k + 2)) (k + 3) (.name function) (.sign '(' :: (pathTokens base name ++ _)) = _
  rw [parseSuffixes_call hargument, parseSuffixes_end hr]

end Paths

theorem endsExpr_cons {t : Token} {r : List Token} (h : t.goesOn = false) : EndsExpr (t :: r) := by
  intro u hu
  obtain rfl := Option.some.inj hu
  exact h

theorem expression_path (base name : String) {r : List Token} (hr : EndsExpr r) :
    expression (pathTokens base name ++ r) = some (Expr.field (.name base) name, r) := by
  have hlength := two_le_length_accessTokens name
  exact parseExpr_path base name hr (by rw [List.append_eq, List.length_append]; omega)

theorem expression_indexed (base name key keyName : String) {r : List Token} (hr : EndsExpr r) :
    expression (pathTokens base name ++ .sign '[' :: pathTokens key keyName ++ .sign ']' :: r) =
      some (.index (Expr.field (.name base) name) (Expr.field (.name key) keyName), r) := by
  have hlength := two_le_length_accessTokens name
  exact parseExpr_indexed base name key keyName hr (by simp only [List.append_eq, List.length_append]; omega)

theorem expression_call (function base name : String) {r : List Token} (hr : EndsExpr r) :
    expression (.name function :: .sign '(' :: pathTokens base name ++ .sign ')' :: r) =
      some (.call (.name function) (Expr.field (.name base) name), r) := by
  have hlength := two_le_length_accessTokens name
  exact parseExpr_call function base name hr (by
    simp only [List.append_eq, List.length_append, List.length_cons, pathTokens]
    omega)

theorem expression_name (x : String) {r : List Token} (hr : EndsExpr r) :
    expression (.name x :: r) = some (.name x, r) :=
  parseSuffixes_end hr

/-! ## Statements -/

/-- The declaration of the tables. -/
theorem reads_declare (m : Model) : Reads (declareTokens m) [.declare "tab" (dataExpr (tablesData m))] := by
  refine Reads.of_stat ⟨_, _, rfl, by decide⟩ (by simp) fun n r _ _ => ?_
  have hvalue := parses_expression (parses_tokens isKey_fieldKey (tablesData m)) r
  exact parseStat_declare hvalue

/-- The assignment of the enums. -/
theorem reads_enums (m : Model) :
    Reads (enumTokens m) [.assign (tabVar.field enumNamespace) (dataExpr (enumsData m))] := by
  refine Reads.of_stat ⟨_, _, rfl, by decide⟩ (by simp) fun n r _ _ => ?_
  have hentries : Parses expression (entriesTokens fieldKey mapKey ((enums m.descriptors).map Descriptor.enumEntry))
      (dataExpr (enumsData m)) :=
    parses_expression (parses_entries isKey_fieldKey fun e _ => parses_tokens isKey_mapKey e.2)
  have hequals (us : List Token) : EndsExpr (.sign '=' :: us) := endsExpr_cons (by decide)
  rw [enumTokens, List.append_assoc]
  exact parseStat_assign (expression_path "tab" enumNamespace (hequals _)) rfl (hentries r)

/-- The first statement of a lookup map. -/
theorem reads_emptyMap (spec : IndexSpec) :
    Reads (emptyMapTokens spec) [.assign (tabVar.field spec.mapName) (.table [])] := by
  refine Reads.of_stat ⟨_, _, rfl, by decide⟩ (by simp) fun n r _ _ => ?_
  have htarget := expression_path "tab" spec.mapName (r := .sign '=' :: .sign '{' :: .sign '}' :: r) (endsExpr_cons rfl)
  have hvalue : expression (.sign '{' :: .sign '}' :: r) = some (.table [], r) := rfl
  rw [emptyMapTokens, List.append_assoc]
  exact parseStat_assign htarget rfl hvalue

theorem reads_loopBody (spec : IndexSpec) : Reads (loopBodyTokens spec)
    [.assign (.index (tabVar.field spec.mapName) (recVar.field spec.key.name)) recVar] := by
  refine Reads.of_stat ⟨_, _, rfl, by decide⟩ (by simp) fun n r hr _ => ?_
  have htarget := expression_indexed "tab" spec.mapName "rec" spec.key.name
    (r := .sign '=' :: .name "rec" :: r) (endsExpr_cons rfl)
  have hvalue := expression_name "rec" hr.endsExpr
  have hassign : parseStat (parseBlock n) _ = _ := parseStat_assign htarget rfl hvalue
  simpa [loopBodyTokens, pathTokens, tabVar, recVar] using hassign

/-- The loop of a lookup map. -/
theorem reads_loop (spec : IndexSpec) : Reads (loopHeadTokens spec ++ loopBodyTokens spec ++ [.keyword "end"])
    [.loop "_" "rec" (.call (.name "ipairs") (tabVar.field spec.table))
      [.assign (.index (tabVar.field spec.mapName) (recVar.field spec.key.name)) recVar]] := by
  refine Reads.of_stat ⟨_, _, rfl, by decide⟩ (by simp) fun n r hr hn => ?_
  have hover := expression_call "ipairs" "tab" spec.table
    (r := .keyword "do" :: (loopBodyTokens spec ++ .keyword "end" :: r)) (endsExpr_cons rfl)
  have hbody : parseBlock n (loopBodyTokens spec ++ .keyword "end" :: r) = some
      ([.assign (.index (tabVar.field spec.mapName) (recVar.field spec.key.name)) recVar], .keyword "end" :: r) := by
    have hend : FollowsStat (.keyword "end" :: r) := by
      intro t ht
      obtain rfl := Option.some.inj ht
      rfl
    simp only [List.length_append, List.length_cons, List.length_nil, loopHeadTokens] at hn
    rw [(reads_loopBody spec).block n _ hend (by omega)]
    obtain ⟨k, hk⟩ : ∃ k, n - 1 = k + 1 := ⟨n - 2, by omega⟩
    simp only [List.length_cons, List.length_nil, Nat.zero_add, hk, parseBlock_end, Option.map_some, List.append_nil]
  have hloop := parseStat_loop (x := "_") (y := "rec") hover hbody
  simpa [loopHeadTokens, tabVar] using hloop

/-- **A lookup map** is read as its statements. -/
theorem reads_index (spec : IndexSpec) : Reads (indexTokens spec) (indexStats spec) :=
  (reads_emptyMap spec).append (reads_loop spec)

/-- The statements in front of the last. -/
theorem reads_body (m : Model) (specs : List IndexSpec) : Reads (bodyTokens m specs) (bodyStats m specs) :=
  ((reads_declare m).append (reads_flatMap fun spec _ => reads_index spec)).append (reads_enums m)

/-- A whole chunk. -/
theorem parseBlock_chunk (m : Model) (specs : List IndexSpec) :
    parseBlock ((chunkTokens m specs).length + 1) (chunkTokens m specs) = some (chunk m specs, []) := by
  have hbody := reads_body m specs
  have hlength := hbody.length
  have hreturn : FollowsStat [Token.keyword "return", Token.name "tab"] := by
    intro t ht
    obtain rfl := Option.some.inj ht
    rfl
  have htab := expression_name "tab" (r := []) (by intro t ht; cases ht)
  obtain ⟨k, hk⟩ : ∃ k, (chunkTokens m specs).length + 1 - (bodyStats m specs).length = k + 1 :=
    ⟨(chunkTokens m specs).length - (bodyStats m specs).length, by
      simp only [chunkTokens, List.length_append]
      omega⟩
  have hblock := hbody.block ((chunkTokens m specs).length + 1) _ hreturn (by
    simp only [chunkTokens, List.length_append]
    omega)
  rw [hk, parseBlock_give htab] at hblock
  exact hblock

/-- A run that succeeds is stopped by nothing. Its output is read back if version, names and scalars can be. -/
theorem parse_of_print {x : Export} {o : Output} (h : lua.print x = .ok o) : ∃ specs, lua.Succeeds x.model specs ∧
    (OneLine x.version → (∀ spec ∈ specs, OnOneLine spec) →
      (∀ t ∈ lua.select x.model, PlainScalars IsLiteral t.scalars) →
      parse o.content = some (chunk x.model specs)) := by
  obtain ⟨specs, hs, hcontent⟩ := print_eq_ok h
  refine ⟨specs, hs, fun hv hnames hp => ?_⟩
  have htokens := (writes_lua hs hv hnames hp).tokens? lua.indent
  rw [← hcontent] at htokens
  simp only [parse, htokens, Option.bind_eq_bind, Option.bind_some, parseBlock_chunk]

/-- **The Lua output is read back.** If the version and the names of lookup maps stand on one line, and the scalars
without quotes are numerals and truth values, the output of every run that succeeds is a chunk with the statements of
the tables, the lookup maps and the enums in their order. -/
theorem parse_lua {x : Export} {o : Output} (h : lua.print x = .ok o) (hv : OneLine x.version)
    (hnames : ∀ specs, lua.plan x.model = .ok specs → ∀ spec ∈ specs, OnOneLine spec)
    (hp : ∀ t ∈ lua.select x.model, PlainScalars IsLiteral t.scalars) :
    ∃ specs, lua.plan x.model = .ok specs ∧ parse o.content = some (chunk x.model specs) := by
  obtain ⟨specs, hs, hread⟩ := parse_of_print h
  exact ⟨specs, hs.plan, hread hv (hnames specs hs.plan) hp⟩

/-! ## Samples -/

theorem plan_sampleModel : lua.plan Samples.sampleModel = .ok [⟨"Item", Samples.scalarField "id" .int32⟩,
    ⟨"Item", Samples.scalarField "name" .string⟩] := by
  decide

theorem onOneLine_sampleModel {specs : List IndexSpec} (h : lua.plan Samples.sampleModel = .ok specs) :
    ∀ spec ∈ specs, OnOneLine spec := by
  cases plan_sampleModel.symm.trans h
  unfold OnOneLine
  decide

theorem plainScalars_sampleModel : ∀ t ∈ lua.select Samples.sampleModel, PlainScalars IsLiteral t.scalars := by
  unfold PlainScalars
  decide

/-- The samples are read back. -/
theorem parse_lua_samples : ∃ o specs, lua.print ⟨Samples.version, Samples.sampleModel⟩ = .ok o ∧
    lua.plan Samples.sampleModel = .ok specs ∧ parse o.content = some (chunk Samples.sampleModel specs) := by
  have hprint : ∃ o, lua.print ⟨Samples.version, Samples.sampleModel⟩ = .ok o := ⟨_, rfl⟩
  obtain ⟨o, ho⟩ := hprint
  obtain ⟨specs, hplan, hparse⟩ := parse_lua ho (by decide) (fun _ => onOneLine_sampleModel) plainScalars_sampleModel
  exact ⟨o, specs, ho, hplan, hparse⟩

end TableExport.Lua
