import TableExport.Proofs.Files.Writing

/-!
# The effect of a write

The outcome of a write tells everything about it. A file that is reported as unchanged held the text; a file that is
reported as written holds it now, at the end of a way of directories, and nothing else is different but for directories
that were missing; a write that fails has added directories at most.

A file is at a path only if the path can be followed: there is nothing at a path that leads through a directory that is
missing, even if it leaves that directory again.

- `FileTree.FileAt` says that following a path leads to a file with certain bytes, `FileTree.way` lists the places that
  are passed.
- `Effect` is what an outcome means; `writeFile_effect` says that this is so for every write.
-/

namespace TableExport

namespace FileTree

/-- Following the path leads to a file with these bytes. -/
def FileAt (t : FileTree) (p : Path) (bytes : ByteArray) : Prop :=
  ∃ l, t.resolve p = .ok l ∧ t.lookup l = some (.file bytes)

/-- The places that are passed when names are followed from a location. -/
def places : Location → List String → List Location
  | _, [] => []
  | l, s :: ss => l :: places (place l s) ss

/-- The places that are passed on the way to a path. -/
def way (t : FileTree) (p : Path) : List Location :=
  places (t.start p) p.segments

/-- From one tree to the next a file was put at the path. -/
structure Puts (t t' : FileTree) (p : Path) (bytes : ByteArray) : Prop where
  /-- The file is there. -/
  file : t'.FileAt p bytes
  /-- All directories on the way to it are there. -/
  way : ∀ l ∈ t'.way p, t'.lookup l = some .directory
  /-- It replaces no directory. -/
  place : ∀ l, t'.resolve p = .ok l → t.lookup l ≠ some .directory
  /-- Everything else is as it was, but for directories where nothing was. -/
  rest : ∀ l, t'.resolve p ≠ .ok l → t'.lookup l = t.lookup l ∨ t.lookup l = none ∧ t'.lookup l = some .directory

variable {t t' : FileTree} {p : Path} {l l' : Location} {ss : List String} {text : String} {bytes : ByteArray}

theorem Leads.resolve (h : t.Leads p) : t.resolve p = .ok (t.locate p) := by
  obtain ⟨l, hl⟩ := h
  rw [hl, locate_of_resolve hl]

theorem fileAt_iff : t.FileAt p bytes ↔ t.Leads p ∧ t.lookup (t.locate p) = some (.file bytes) := by
  constructor
  · rintro ⟨l, hl, hfile⟩
    exact ⟨⟨l, hl⟩, locate_of_resolve hl ▸ hfile⟩
  · rintro ⟨hleads, hfile⟩
    exact ⟨t.locate p, hleads.resolve, hfile⟩

/-- One file is at a path. -/
theorem FileAt.unique {bytes' : ByteArray} (h : t.FileAt p bytes) (h' : t.FileAt p bytes') : bytes = bytes' := by
  have hfile := (fileAt_iff.1 h).2.symm.trans (fileAt_iff.1 h').2
  cases hfile
  rfl

/-- All places that are passed are directories. -/
theorem lookup_of_mem_places (h : t.walk l ss = .ok l') : ∀ k ∈ places l ss, t.lookup k = some .directory := by
  induction ss generalizing l with
  | nil => exact fun k hk => nomatch hk
  | cons s ss ih =>
    obtain ⟨hl, k, hk, h⟩ := walk_cons_eq_ok.1 h
    rw [places, List.forall_mem_cons, ← child_eq_ok hk]
    exact ⟨hl, ih h⟩

theorem Leads.way (h : t.Leads p) : ∀ l ∈ t.way p, t.lookup l = some .directory :=
  lookup_of_mem_places (resolve_eq_ok.1 h.resolve).2

/-- Where only the file at a path was changed, it was put there. -/
theorem ChangesAt.puts (h : ChangesAt t t' [t.locate p]) (hleads : t'.Leads p) (hholds : t'.HoldsText p text) :
    Puts t t' p text.toUTF8 := by
  have hresolve := hleads.resolve
  refine ⟨⟨_, hresolve, hholds⟩, hleads.way, fun l hl hdirectory => ?_, fun l hl => h.lookup ?_⟩
  · rw [hresolve] at hl
    cases hl
    rw [HoldsText, h.stay.directory hdirectory] at hholds
    cases hholds
  · rw [List.mem_singleton, ← h.stay.locate]
    rintro rfl
    exact hl hresolve

end FileTree

open FileTree

/-- What the outcome of a write means for the tree before and after it. -/
def Effect (p : Path) (text : String) (t t' : FileTree) : Except FileError WriteOutcome → Prop
  | .ok .unchanged => t.FileAt p text.toUTF8 ∧ t' = t
  | .ok .written => ¬ t.FileAt p text.toUTF8 ∧ Puts t t' p text.toUTF8
  | .error _ => ¬ t.FileAt p text.toUTF8 ∧ OnlyDirectories t t'

section Writes

variable {p : Path} {text : String} {t t' : FileTree} {outcome : WriteOutcome} {result : Except FileError WriteOutcome}

/-- A file that holds the text is left alone. -/
theorem writeFile_of_fileAt (h : t.FileAt p text.toUTF8) : runWriteFile p text t = (.ok .unchanged, t) :=
  writeFile_upToDate (fileAt_iff.1 h).1 (fileAt_iff.1 h).2

/-- A file is reported as unchanged exactly if it held the text. -/
theorem eq_unchanged_iff (h : runWriteFile p text t = (.ok outcome, t')) :
    outcome = .unchanged ↔ t.FileAt p text.toUTF8 := by
  rw [writeFile_outcome h, fileAt_iff]
  rfl

/-- **Every outcome** has its effect. -/
theorem effect_of_writeFile (h : runWriteFile p text t = (result, t')) : Effect p text t t' result := by
  cases result with
  | error e =>
    refine ⟨fun hfile => ?_, onlyDirectories_of_writeFile h⟩
    rw [writeFile_of_fileAt hfile] at h
    cases h
  | ok outcome =>
    obtain ⟨hchanges, hleads, hholds⟩ := changesAt_writeFile h
    cases outcome with
    | unchanged =>
      have hfile := (eq_unchanged_iff h).1 rfl
      rw [writeFile_of_fileAt hfile] at h
      cases h
      exact ⟨hfile, rfl⟩
    | written =>
      have hnot : ¬ t.FileAt p text.toUTF8 := fun hfile => nomatch (eq_unchanged_iff h).2 hfile
      exact ⟨hnot, hchanges.puts hleads hholds⟩

end Writes

/-- **A write** leaves a file that holds the text alone, and so does a second write after a first one that succeeded; a
file that is no text is never taken for up to date. The outcome says what is different in the tree, and that nothing
else is. -/
theorem writeFile_effect (p : Path) (text : String) (t : FileTree) :
    (t.FileAt p text.toUTF8 → runWriteFile p text t = (.ok .unchanged, t)) ∧
    Effect p text t (runWriteFile p text t).2 (runWriteFile p text t).1 ∧
    (∀ outcome t', runWriteFile p text t = (.ok outcome, t') → runWriteFile p text t' = (.ok .unchanged, t')) ∧
    ∀ bytes, t.FileAt p bytes → String.fromUTF8? bytes = none → (runWriteFile p text t).1 ≠ .ok .unchanged := by
  refine ⟨writeFile_of_fileAt, effect_of_writeFile rfl, fun outcome t' h => ?_, fun bytes hbytes hinvalid hrun => ?_⟩
  · obtain ⟨-, hleads, hholds⟩ := changesAt_writeFile h
    exact writeFile_upToDate hleads hholds
  · -- the file would hold the text then, whose bytes can be decoded
    have hfile := (eq_unchanged_iff (Prod.ext hrun rfl)).1 rfl
    rw [hbytes.unique hfile, fromUTF8?_eq_some.2 rfl] at hinvalid
    cases hinvalid

end TableExport
