import TableExport.Proofs.Lua.ReadBack

/-!
# The lines of a lookup map

Names go into the code of a lookup map at four places. In the code they stand as paths, which stay on their line whatever
the names are; in the comment in front of it they stand as they are.

- `Fragment.lines` lists the lines of a fragment.
- `oneLine_fieldAccess` says that a path stays on its line.
- `indexLoop_lines` says which lines of a lookup map stay whole, and as what they are read.
-/

namespace TableExport

namespace Layout

mutual

/-- The texts that a fragment writes as lines. -/
def Fragment.lines : Fragment → List String
  | .line text => [text]
  | .blank => []
  | .block header body close => header :: linesOf body ++ close.toList

/-- The texts that fragments write as lines. -/
def linesOf : List Fragment → List String
  | [] => []
  | f :: fs => f.lines ++ linesOf fs

end

end Layout

namespace Lua

open TableExport.Layout TableExport.Text

/-! ## Names on one line -/

theorem isLineBreak_escape {e : Char} (he : isLineBreak e = false) : ∀ d ∈ ['\\', e], isLineBreak d = false := by
  intro d hd
  simp only [List.mem_cons, List.not_mem_nil, or_false] at hd
  rcases hd with rfl | rfl
  · rfl
  · exact he

/-- No character needs a line break inside quotes. -/
theorem isLineBreak_quotedChar (c : Char) : ∀ d ∈ quotedChar c, isLineBreak d = false := by
  unfold quotedChar
  split
  · exact isLineBreak_escape rfl
  split
  · exact isLineBreak_escape rfl
  split
  · exact isLineBreak_escape rfl
  split
  · exact isLineBreak_escape rfl
  split
  · exact isLineBreak_escape rfl
  split
  · simp [decimalCode, isLineBreak]
  · rename_i hnewline hreturn _ _
    simp [isLineBreak, hnewline, hreturn]

/-- A text between double quotes stays on its line if none of its characters is written with a line break. -/
theorem oneLine_betweenQuotes {written : Char → List Char} (h : ∀ c, ∀ d ∈ written c, isLineBreak d = false)
    (s : String) : OneLine (String.ofList ('"' :: s.toList.flatMap written ++ ['"'])) := by
  intro c hc
  simp only [String.toList_ofList, List.cons_append, List.mem_cons, List.mem_append, List.mem_flatMap, List.not_mem_nil,
    or_false] at hc
  rcases hc with rfl | ⟨d, -, hc⟩ | rfl
  · rfl
  · exact h d c hc
  · rfl

theorem oneLine_quoted (s : String) : OneLine (quoted s) :=
  oneLine_betweenQuotes isLineBreak_quotedChar s

theorem isLineBreak_of_isNamePart {c : Char} (h : isNamePart c = true) : isLineBreak c = false := by
  by_contra hbreak
  simp only [isLineBreak, Bool.or_eq_false_iff, decide_eq_false_iff_not, not_and_or, not_not] at hbreak
  rcases hbreak with rfl | rfl
  · cases h
  · cases h

theorem oneLine_identifier {name : String} (h : isIdentifier name = true) : OneLine name := by
  intro c hc
  unfold isIdentifier at h
  split at h
  · cases h
  · rename_i d s htext
    simp only [Bool.and_eq_true, List.all_eq_true] at h
    rw [htext] at hc
    rcases List.mem_cons.1 hc with rfl | hc
    · exact isLineBreak_of_isNamePart (isNamePart_of_isNameStart h.1.1)
    · exact isLineBreak_of_isNamePart (h.1.2 c hc)

/-- **A path to a field** stays on its line, whatever the name is. -/
theorem oneLine_fieldAccess {base : String} (h : OneLine base) (name : String) : OneLine (fieldAccess base name) := by
  unfold fieldAccess
  split
  · rename_i hname
    exact (h.append (by decide : OneLine ".")).append (oneLine_identifier hname)
  · exact ((h.append (by decide : OneLine "[")).append (oneLine_quoted name)).append (by decide : OneLine "]")

theorem oneLine_append {a b : String} : OneLine (a ++ b) ↔ OneLine a ∧ OneLine b := by
  constructor
  · intro h
    refine ⟨fun c hc => h c ?_, fun c hc => h c ?_⟩
    · rw [String.toList_append]
      exact List.mem_append_left _ hc
    · rw [String.toList_append]
      exact List.mem_append_right _ hc
  · exact fun h => h.1.append h.2

/-! ## The lines of a lookup map -/

/-- The comment of a lookup map stays on its line if the names do. -/
theorem oneLine_comment {spec : IndexSpec} :
    OneLine ("-- " ++ spec.table ++ " by " ++ spec.key.name) ↔ OnOneLine spec := by
  have hdashes : OneLine "-- " := by decide
  have hby : OneLine " by " := by decide
  simp only [oneLine_append, hdashes, hby, true_and, and_true]
  rfl

/-- The lines behind the comment stay whole. -/
theorem oneLine_indexCode (spec : IndexSpec) : ∀ text ∈ linesOf (indexLoop spec).tail, OneLine text := by
  have htab (name : String) := oneLine_fieldAccess (by decide : OneLine "tab") name
  have hrec (name : String) := oneLine_fieldAccess (by decide : OneLine "rec") name
  intro text htext
  simp only [indexLoop, List.tail_cons, linesOf, Fragment.lines, List.append_nil, List.cons_append, List.nil_append,
    List.mem_cons, Option.toList_some, List.not_mem_nil, or_false] at htext
  rcases htext with rfl | rfl | rfl | rfl
  · exact (htab spec.mapName).append (by decide)
  · exact ((by decide : OneLine "for _, rec in ipairs(").append (htab spec.table)).append (by decide)
  · exact (((htab spec.mapName).append (by decide)).append (hrec spec.key.name)).append (by decide)
  · decide

/-! ## What is read -/

/-- The text of fragments that are emitted at a level. -/
def emitted (i : Indent) (level : Nat) (fs : List Fragment) : String :=
  (Builder.run { unit := i.unit, level } (stepsOf fs)).text

theorem parse_of_reads {text : String} {ts : List Token} {ss : List Stat}
    (htext : tokens? nextToken text.toList = some ts) (h : Reads ts ss) : parse text = some ss := by
  have hlength := h.length
  have hblock := h.block (ts.length + 1) [] (by intro t ht; cases ht) (by omega)
  obtain ⟨k, hk⟩ : ∃ k, ts.length + 1 - ss.length = k + 1 := ⟨ts.length - ss.length, by omega⟩
  have hend : parseBlock (k + 1) [] = some ([], []) := rfl
  rw [hk, hend, List.append_nil] at hblock
  simp [parse, htext, hblock]

theorem parse_emitted {fs : List Fragment} {ts : List Token} {ss : List Stat}
    (hwrites : Writes nextToken (stepsOf fs) ts) (hreads : Reads ts ss) (i : Indent) (level : Nat) :
    parse (emitted i level fs) = some ss :=
  parse_of_reads (hwrites.tokens?_run (isBlankUnit_unit i) rfl) hreads

/-- **The lines of a lookup map.** Whatever the names of the table and of the key are, the code behind the comment stands
on whole lines and is one assignment of an empty map and one loop, at every level. The comment stays whole if and only
if both names stand on one line, and then all of the text is read as that code. -/
theorem indexLoop_lines (spec : IndexSpec) : (∀ text ∈ linesOf (indexLoop spec).tail, OneLine text) ∧
    ((∀ text ∈ linesOf (indexLoop spec), OneLine text) ↔ OnOneLine spec) ∧
    ∀ i level, parse (emitted i level (indexLoop spec).tail) = some (indexStats spec) ∧
      (OnOneLine spec → parse (emitted i level (indexLoop spec)) = some (indexStats spec)) := by
  have hcode := oneLine_indexCode spec
  refine ⟨hcode, ?_, fun i level => ⟨?_, fun h => ?_⟩⟩
  · have hlines : linesOf (indexLoop spec) =
        ("-- " ++ spec.table ++ " by " ++ spec.key.name) :: linesOf (indexLoop spec).tail := rfl
    rw [hlines, List.forall_mem_cons, oneLine_comment]
    exact and_iff_left hcode
  · exact parse_emitted (writes_indexCode spec) (reads_index spec) i level
  · exact parse_emitted (writes_indexLoop h) (reads_index spec) i level

/-- A name in quotes and a reserved word are read back. -/
theorem indexLoop_lines_quoted : OnOneLine ⟨"\"Item\"", .plain "end" (.scalar .int32)⟩ ∧
    parse (emitted .tab 1 (indexLoop ⟨"\"Item\"", .plain "end" (.scalar .int32)⟩)) =
      some (indexStats ⟨"\"Item\"", .plain "end" (.scalar .int32)⟩) := by
  have hnames : OnOneLine ⟨"\"Item\"", .plain "end" (.scalar .int32)⟩ := by
    unfold OnOneLine
    decide
  exact ⟨hnames, ((indexLoop_lines _).2.2 .tab 1).2 hnames⟩

/-- A table whose name goes on behind a line break, with a statement and the start of a comment. -/
def brokenSpec : IndexSpec :=
  ⟨"Item\nx = 1 --", .plain "id" (.scalar .int32)⟩

/-- The comment ends at the line break, and what follows in the name is code up to the comment that it opens. -/
theorem spells_brokenComment : Spells nextToken AtLineEnd "-- Item\nx = 1 -- by id".toList
    [.name "x", .sign '=', .numeral "1"] := by
  have hfirst := spells_comment (by decide : OneLine "Item")
  have hsecond := spells_comment (by decide : OneLine "by id")
  rw [(by decide : "-- " ++ "Item" = "-- Item")] at hfirst
  rw [(by decide : "-- " ++ "by id" = "-- by id")] at hsecond
  have hnumber : Spells nextToken AtLineEnd ('1' :: ' ' :: "-- by id".toList) [.numeral "1"] :=
    (spells_numeral (by decide : isNumeral "1" = true)).append (spells_blankThen hsecond)
      fun _ _ => atBreak_cons (.inr (.inl rfl)) _
  have hstatement := spells_wordThen (spells_name (by decide : isIdentifier "x" = true)) rfl
    (spells_equalsThen hnumber)
  have hline := hfirst.append (passesBlanks_nextToken.newline.then hstatement) fun _ _ => ⟨_, rfl⟩
  simpa using hline

/-- The statement in the name of the table gets into the chunk. -/
theorem indexLoop_broken : ¬ (∀ text ∈ linesOf (indexLoop brokenSpec), OneLine text) ∧
    parse (emitted .tab 0 (indexLoop brokenSpec)) =
      some (.assign (.name "x") (.numeral "1") :: indexStats brokenSpec) := by
  have hassign : Reads [.name "x", .sign '=', .numeral "1"] [.assign (.name "x") (.numeral "1")] := by
    refine Reads.of_stat ⟨_, _, rfl, by decide⟩ (by simp) fun n r _ _ => ?_
    exact parseStat_assign (expression_name "x" (endsExpr_cons rfl)) rfl rfl
  have hcomment : Writes nextToken [.line ("-- " ++ brokenSpec.table ++ " by " ++ brokenSpec.key.name)]
      [.name "x", .sign '=', .numeral "1"] := by
    rw [(by decide : "-- " ++ brokenSpec.table ++ " by " ++ brokenSpec.key.name = "-- Item\nx = 1 -- by id")]
    exact writes_line passesBlanks_nextToken spells_brokenComment
  have hwrites : Writes nextToken (stepsOf (indexLoop brokenSpec))
      ([.name "x", .sign '=', .numeral "1"] ++ indexTokens brokenSpec) :=
    hcomment.append (writes_indexCode brokenSpec)
  refine ⟨?_, parse_emitted hwrites (hassign.append (reads_index brokenSpec)) .tab 0⟩
  intro h
  have hline := h ("-- " ++ brokenSpec.table ++ " by " ++ brokenSpec.key.name) List.mem_cons_self
  exact absurd hline (by decide)

end Lua

end TableExport
