import Mathlib.Logic.Relation
import TableExport.Document.Load
import TableExport.Proofs.Document.Members

/-!
# The spelling of a model document

The same model can be spelled in many ways. In every record of a document the members can be put in another order,
members with unknown names can be added, defaults can be written out or left out, and the object can be replaced by the
array of its fields. Together with the blanks between tokens, which an outline does not have, this is all that can be
changed without a change of the model being asked for.

- `Step` is one such change, at any depth of a part, and `Respelt` any combination of them.
- `Step.decode_eq` says that a change keeps what a part stands for.
- `load_respelt` says that a text is loaded as the same model however it is respelt, and `load_respelt_wordyDocument`
  shows it for two spellings of a small document.
-/

namespace TableExport.Document

open TableExport.Json

/-- One change in the spelling of a part of a document. An array that stands for a record is changed as the object that
it can be replaced by. -/
inductive Step : Part → Outline → Outline → Prop
  /-- The members of an object are put in another order. -/
  | permute {k : RecordKind} {ms ms' : List (Option String × Outline)} : ms.Perm ms' →
      Step (.record k) (.object ms) (.object ms')
  /-- A member is added that has no field, with any value. -/
  | unknown {k : RecordKind} {name : String} {v : Outline} {ms ns : List (Option String × Outline)} :
      (∀ r ∈ k.rows, r.name ≠ name) →
      Step (.record k) (.object (ms ++ ns)) (.object (ms ++ (some name, v) :: ns))
  /-- The default of a field that is not there is written out. -/
  | default {k : RecordKind} {r : Row k.State} {v : Outline} {ms : List (Option String × Outline)} : r ∈ k.rows →
      v ∈ r.defaults → (∀ m ∈ ms, m.1 ≠ some r.name) →
      Step (.record k) (.object ms) (.object ((some r.name, v) :: ms))
  /-- An object whose members are the first fields of the record in order is replaced by the array of their values. -/
  | array {k : RecordKind} {vs : List Outline} : vs.length ≤ k.rows.length →
      Step (.record k) (.object (labelled k.rows vs)) (.array vs)
  /-- The value of a field is changed. -/
  | member {k : RecordKind} {r : Row k.State} {v v' : Outline} {ms ns : List (Option String × Outline)} :
      r ∈ k.rows → Step r.part v v' →
      Step (.record k) (.object (ms ++ (some r.name, v) :: ns)) (.object (ms ++ (some r.name, v') :: ns))
  /-- An item of a list is changed. -/
  | item {p : Part} {v v' : Outline} {vs ws : List Outline} : Step p v v' →
      Step (.list p) (.array (vs ++ v :: ws)) (.array (vs ++ v' :: ws))

/-- The outlines of a document that differ only in spelling: any number of changes, made or taken back. -/
def Respelt : Outline → Outline → Prop :=
  Relation.EqvGen (Step (.record .model))

/-! ## What a part stands for -/

theorem decode_record (k : RecordKind) (depth : Nat) (v : Outline) : ((Part.record k).form (depth + 1)).decode v =
    (decodeRecord (formFields (fun p => p.form depth) k.rows) k.start v).map k.finish := rfl

/-- **A change of the spelling** keeps what the part stands for. -/
theorem Step.decode_eq {p : Part} {v v' : Outline} (h : Step p v v') :
    ∀ {depth : Nat}, p.Roomy depth → (p.form depth).decode v = (p.form depth).decode v' := by
  induction h with
  | @permute k ms ms' h =>
    intro depth _
    cases depth with
    | zero => rfl
    | succ depth => rw [decode_record, decode_record, decodeRecord_perm (rows_independent k) h]
  | @unknown k name v ms ns h =>
    intro depth _
    cases depth with
    | zero => rfl
    | succ depth => rw [decode_record, decode_record, decodeRecord_unknown h]
  | @default k r v ms hr hv hms =>
    intro depth hroom
    cases depth with
    | zero => rfl
    | succ depth =>
      obtain ⟨a, ha, hfinish⟩ := finish_default hroom r hr v hv
      rw [decode_record, decode_record]
      exact (decodeRecord_default (rows_independent k) hr (List.ne_nil_of_mem hv) (get_start k r hr) hms ha hfinish).symm
  | @array k vs hvs =>
    intro depth _
    cases depth with
    | zero => rfl
    | succ depth => rw [decode_record, decode_record, decodeRecord_array (rows_independent k) (get_start k) hvs]
  | @member k r v v' ms ns hr _ ih =>
    intro depth hroom
    cases depth with
    | zero => rfl
    | succ depth =>
      rw [decode_record, decode_record, decodeRecord_member (rows_independent k) hr (ih (roomy_rows hroom r hr))]
  | @item p v v' vs ws _ ih =>
    intro depth hroom
    cases depth with
    | zero => rfl
    | succ depth =>
      show (vs ++ v :: ws).mapM (p.form depth).decode = (vs ++ v' :: ws).mapM (p.form depth).decode
      rw [List.mapM_append, List.mapM_append, List.mapM_cons, List.mapM_cons, ih hroom]

/-- The room that there is in a document. -/
theorem roomy_document : (Part.record .model).Roomy maxDepth :=
  ⟨61, rfl⟩

theorem Respelt.decode_eq {v v' : Outline} (h : Respelt v v') :
    ((Part.record .model).form maxDepth).decode v = ((Part.record .model).form maxDepth).decode v' := by
  induction h with
  | rel v v' h => exact h.decode_eq roomy_document
  | refl v => rfl
  | symm v v' _ ih => exact ih.symm
  | trans v₁ v₂ v₃ _ _ ih ih' => exact ih.trans ih'

/-! ## Loading -/

/-- A whole text is read if it shows an outline from which the result can be taken. -/
theorem readDocument_eq_ok {α : Type} (form : Form α) {text : String} {a : α} :
    readDocument form.read text.toList = .ok a ↔ ∃ v, Shows text v ∧ form.decode v = some a := by
  rw [readDocument, bind_eq_ok]
  constructor
  · rintro ⟨⟨a', r⟩, hread, h⟩
    obtain ⟨v, hv, hdecode⟩ := form.agrees.1 hread
    dsimp only at h
    split at h
    · rename_i hend
      cases h
      exact ⟨v, ⟨r, hv, hend⟩, hdecode⟩
    · cases h
  · rintro ⟨v, ⟨r, hv, hend⟩, hdecode⟩
    refine ⟨(a, r), form.agrees.2 ⟨v, hv, hdecode⟩, ?_⟩
    simp only [hend]
    rfl

/-- A text is loaded if it shows an outline that stands for a document whose nodes can be converted. -/
theorem load_eq_ok {text : String} {m : Model} : Model.load text = .ok m ↔
    ∃ v d, Shows text v ∧ ((Part.record .model).form maxDepth).decode v = some d ∧ ModelDocument.lower d = .ok m := by
  have hread (d : ModelDocument) : readDocument (readModelDocument maxDepth) text.toList = .ok d ↔
      ∃ v, Shows text v ∧ ((Part.record .model).form maxDepth).decode v = some d := by
    rw [← read_modelDocument]
    exact readDocument_eq_ok _
  constructor
  · intro h
    rw [Model.load] at h
    split at h
    · cases h
    · rename_i d hd
      obtain ⟨v, hv, hdecode⟩ := (hread d).1 hd
      exact ⟨v, d, hv, hdecode, h⟩
  · rintro ⟨v, d, hv, hdecode, hlower⟩
    rw [Model.load, (hread d).2 ⟨v, hv, hdecode⟩]
    exact hlower

/-- **The spelling of a document does not matter.** A text that is loaded has an outline, and every text whose outline
differs from it only in spelling is loaded as the same model, whatever blanks are between its tokens. -/
theorem load_respelt {text : String} {m : Model} (h : Model.load text = .ok m) :
    (∃ v, Shows text v) ∧ ∀ v v' text', Shows text v → Respelt v v' → Shows text' v' → Model.load text' = .ok m := by
  obtain ⟨v₀, d, hv₀, hdecode, hlower⟩ := load_eq_ok.1 h
  refine ⟨⟨v₀, hv₀⟩, fun v v' text' hv hrespelt hv' => ?_⟩
  obtain rfl := hv₀.unique hv
  exact load_eq_ok.2 ⟨v', d, hv', hrespelt.decode_eq ▸ hdecode, hlower⟩

/-- A document with one table. -/
def terseDocument : String :=
  "\x7b\"tables\":[\x7b\"name\":\"T\"\x7d]\x7d"

/-- The outline of its table. -/
def terseTable : Outline :=
  .object [(some "name", .string (some "T"))]

/-- The same document with blanks, as an array, with a default and with a member whose value cannot be decoded. -/
def wordyDocument : String :=
  " [[] ,[\x7b\"x\":\"\\ud800\", \"tags\":[],\"name\" :\"T\"\x7d]]\n"

/-- The outline of the table in it. -/
def wordyTable : Outline :=
  .object [(some "x", .string none), (some "tags", .array []), (some "name", .string (some "T"))]

theorem shows_terseDocument : Shows terseDocument (.object [(some "tables", .array [terseTable])]) := by
  have htext : ∃ s, terseDocument.toList = s ∧ Opens s (.value (.object [(some "tables", .array [terseTable])])) [] :=
    ⟨_, String.toList_ofList, .object rfl (.member rfl rfl rfl rfl rfl
      (.array rfl (.item rfl
        (.object rfl (.member rfl rfl rfl rfl rfl (.scalar (.string rfl rfl)) (.noMember rfl)))
        (.noItem rfl)))
      (.noMember rfl))⟩
  obtain ⟨s, rfl, h⟩ := htext
  exact ⟨[], h, rfl⟩

theorem shows_wordyDocument : Shows wordyDocument (.array [.array [], .array [wordyTable]]) := by
  have htext : ∃ s, wordyDocument.toList = s ∧ Opens s (.value (.array [.array [], .array [wordyTable]])) ['\n'] :=
    ⟨_, String.toList_ofList, .array rfl (.item rfl (.array rfl (.noItem rfl)) (.item rfl
      (.array rfl (.item rfl
        (.object rfl
          (.member rfl rfl rfl rfl rfl (.scalar (.string rfl rfl))
            (.member rfl rfl rfl rfl rfl (.array rfl (.noItem rfl))
              (.member rfl rfl rfl rfl rfl (.scalar (.string rfl rfl)) (.noMember rfl)))))
        (.noItem rfl)))
      (.noItem rfl)))⟩
  obtain ⟨s, rfl, h⟩ := htext
  exact ⟨_, h, rfl⟩

/-- The second document is spelled differently: the table has two more members, and the object is an array. -/
theorem respelt_wordyDocument :
    Respelt (.object [(some "tables", .array [terseTable])]) (.array [.array [], .array [wordyTable]]) := by
  have htags : Step (.record .table) terseTable
      (.object [(some "tags", .array []), (some "name", .string (some "T"))]) :=
    @Step.default .table _ _ [(some "name", _)] (.tail _ (.head _)) (.head _) (by decide)
  have hunknown : Step (.record .table) (.object [(some "tags", .array []), (some "name", .string (some "T"))])
      wordyTable :=
    @Step.unknown .table "x" (.string none) [] _ (by decide)
  have htables {v v' : Outline} (h : Step (.record .table) v v') : Respelt (.object [(some "tables", .array [v])])
      (.object [(some "tables", .array [v'])]) :=
    .rel _ _ (@Step.member .model _ _ _ [] [] (.tail _ (.head _)) (@Step.item _ _ _ [] [] h))
  have hdescriptors : Respelt (.object [(some "tables", .array [wordyTable])])
      (.object [(some "descriptors", .array []), (some "tables", .array [wordyTable])]) :=
    .rel _ _ (@Step.default .model _ _ [(some "tables", _)] (.head _) (.head _) (by decide))
  have harray : Respelt (.object [(some "descriptors", .array []), (some "tables", .array [wordyTable])])
      (.array [.array [], .array [wordyTable]]) :=
    .rel _ _ (@Step.array .model [.array [], .array [wordyTable]] (by decide))
  exact (htables htags).trans _ _ _ ((htables hunknown).trans _ _ _ (hdescriptors.trans _ _ _ harray))

/-- Both documents are loaded as the model with that table. -/
theorem load_respelt_wordyDocument : Model.load terseDocument = .ok { tables := [{ name := "T" }] } ∧
    Model.load wordyDocument = .ok { tables := [{ name := "T" }] } := by
  have hload : Model.load terseDocument = .ok { tables := [{ name := "T" }] } :=
    load_eq_ok.2 ⟨_, ⟨[], [{ name := "T" }]⟩, shows_terseDocument, rfl, rfl⟩
  exact ⟨hload, (load_respelt hload).2 _ _ _ shows_terseDocument respelt_wordyDocument shows_wordyDocument⟩

end TableExport.Document
