import TableExport.Printer.Json
import TableExport.Printer.Samples
import TableExport.Proofs.Json.Tree
import TableExport.Proofs.Printer.Success

/-!
# The JSON output is read back

What the JSON printer writes is one JSON text, and parsing it gives the data of the tables and the enums, whatever the
names and strings are.

- `jsonData` is what the output says.
- `writes_json` computes the tokens of the output, phase by phase.
- `parse_json` says that the output is parsed into the tree of `jsonData`.
-/

namespace TableExport.Json

open TableExport.Layout TableExport.Literal TableExport.Printer TableExport.Render TableExport.Text

/-- What the JSON output says: the tables that it includes under their names, and at last the enums. -/
def jsonData (m : Model) : Data :=
  .fields ((json.select m).map Table.entry ++
    [(enumNamespace, .fields ((enums m.descriptors).map Descriptor.enumEntry))])

/-- The member of the enums spells its name and the enums. -/
theorem writes_jsonEnums (ds : List Descriptor) : Writes nextToken (jsonEnums ds)
    (memberKey enumNamespace ++ lexicon.tokens memberKey (.fields (ds.map Descriptor.enumEntry))) := by
  have hkey := spells_memberKey enumNamespace
  rw [Lexicon.tokens_fields, jsonEnums]
  split
  · rename_i he
    rw [List.isEmpty_iff.1 he]
    exact writes_empty spelt_json hkey spelt_json.fieldsOpen spelt_json.fieldsClose false
  · have henums := writes_renderEnums spelt_json isLiteral_toString ds
    rw [Lexicon.separated_false] at henums
    have hblock := writes_block spelt_json hkey spelt_json.fieldsOpen spelt_json.fieldsClose henums false
    have hfirst : quoted enumNamespace ++ ": " ++ Literal.json.object.opening = quoted enumNamespace ++ ": \x7b" := by
      rw [String.append_assoc]
      rfl
    rw [hfirst, lexicon.separator_false, List.append_nil] at hblock
    exact hblock

/-- **All phases of the JSON printer** together spell the data of the output. -/
theorem writes_json {m : Model} {specs : List IndexSpec} (hs : json.Succeeds m specs)
    (hp : ∀ t ∈ json.select m, PlainScalars IsLiteral t.scalars) (version : String) :
    Writes nextToken (json.allSteps ⟨version, m⟩ specs) (lexicon.tokens memberKey (jsonData m)) := by
  have hopen : Writes nextToken (json.header ⟨version, m⟩).steps [.sign '\x7b'] :=
    (writes_line passesBlanks_nextToken spelt_json.fieldsOpen.before).append writes_indent
  have hclose : Writes nextToken (json.footer ⟨version, m⟩).steps [.sign '\x7d'] :=
    writes_dedent.append (writes_line passesBlanks_nextToken spelt_json.fieldsClose.before)
  have htables := writes_renderTables spelt_json hs.tables hp
  have hall := ((hopen.append htables).append (writes_jsonEnums (enums m.descriptors))).append hclose
  have htokens : lexicon.tokens memberKey (jsonData m) =
      [.sign '\x7b'] ++ lexicon.separated true (((json.select m).map Table.entry).map fun e =>
        memberKey e.1 ++ lexicon.tokens memberKey e.2) ++
        (memberKey enumNamespace ++ lexicon.tokens memberKey (.fields ((enums m.descriptors).map Descriptor.enumEntry)))
        ++ [.sign '\x7d'] := by
    rw [jsonData, Lexicon.tokens_fields, List.append_assoc _ (lexicon.separated true _),
      Lexicon.separated_true_append]
    simp [lexicon]
  rw [htokens, allSteps, if_neg (by decide), List.append_nil]
  exact hall

/-- **The JSON output is read back.** If the scalars without quotes are numbers and truth values, the output of every
run that succeeds is one JSON text, with the tree of the tables and the enums in their order. -/
theorem parse_json {x : Export} {o : Output} (h : json.print x = .ok o)
    (hp : ∀ t ∈ json.select x.model, PlainScalars IsLiteral t.scalars) :
    parse o.content = some (dataTree (jsonData x.model)) := by
  obtain ⟨specs, hs, hcontent⟩ := print_eq_ok h
  have htokens := (writes_json hs hp x.version).tokens? json.indent
  rw [parse, hcontent, htokens]
  exact parseTokens_tokens (jsonData x.model)

/-- The samples are read back. -/
theorem parse_json_samples : ∃ o, json.print ⟨Samples.version, Samples.sampleModel⟩ = .ok o ∧
    parse o.content = some (dataTree (jsonData Samples.sampleModel)) := by
  have hprint : ∃ o, json.print ⟨Samples.version, Samples.sampleModel⟩ = .ok o := ⟨_, rfl⟩
  obtain ⟨o, ho⟩ := hprint
  refine ⟨o, ho, parse_json ho ?_⟩
  unfold PlainScalars
  decide

end TableExport.Json
