import TableExport.Files.FileSystem
import TableExport.Proofs.Files.Location

/-!
# What writing a file leaves alone

On a file tree, reading changes nothing, and making directories adds directories where nothing was. A write that fails
therefore leaves every file as it was, even if it has made directories before. A write that succeeds changes the file
that its path denotes and no other one.

- `FileTree.SameFiles` says that two trees hold the same files, `FileTree.OnlyDirectories` that directories were added
  at most, `FileTree.ChangesAt` that only the files at some locations are different.
- `run_writeFile` goes through the steps of a write, `onlyDirectories_of_writeFile` is the write that fails,
  `changesAt_writeFile` the one that succeeds, and `writeFile_upToDate` the one that has nothing to do.
-/

namespace TableExport

namespace FileTree

/-- The trees hold the same files with the same bytes, and paths are followed from the same place. -/
def SameFiles (t t' : FileTree) : Prop :=
  t'.workingDirectory = t.workingDirectory ∧
    ∀ l bytes, t'.lookup l = some (.file bytes) ↔ t.lookup l = some (.file bytes)

/-- The second tree has directories where the first one has nothing, and is otherwise the same. -/
structure OnlyDirectories (t t' : FileTree) : Prop where
  workingDirectory : t'.workingDirectory = t.workingDirectory
  lookup : ∀ l, t'.lookup l = t.lookup l ∨ t.lookup l = none ∧ t'.lookup l = some .directory

/-- Files other than those at the locations are the same, and directories stay. -/
structure ChangesAt (t t' : FileTree) (ls : List Location) : Prop where
  stay : Stay t t'
  file : ∀ l ∉ ls, ∀ bytes, t'.lookup l = some (.file bytes) ↔ t.lookup l = some (.file bytes)

variable {t t' t'' : FileTree} {p : Path} {l : Location} {ls : List Location}

/-! ## Directories that are added -/

theorem OnlyDirectories.refl (t : FileTree) : OnlyDirectories t t :=
  ⟨rfl, fun _ => .inl rfl⟩

theorem OnlyDirectories.trans (h : OnlyDirectories t t') (h' : OnlyDirectories t' t'') : OnlyDirectories t t'' := by
  refine ⟨h'.workingDirectory.trans h.workingDirectory, fun l => ?_⟩
  rcases h.lookup l with hl | ⟨hl, hdirectory⟩
  · rw [← hl]
    exact h'.lookup l
  · rcases h'.lookup l with hl' | ⟨hl', -⟩
    · exact .inr ⟨hl, hl'.trans hdirectory⟩
    · rw [hdirectory] at hl'
      cases hl'

theorem OnlyDirectories.sameFiles (h : OnlyDirectories t t') : SameFiles t t' := by
  refine ⟨h.workingDirectory, fun l bytes => ?_⟩
  rcases h.lookup l with hl | ⟨hl, hdirectory⟩
  · rw [hl]
  · simp [hl, hdirectory]

theorem OnlyDirectories.stay (h : OnlyDirectories t t') : Stay t t' := by
  refine ⟨h.workingDirectory, fun {l} hl => ?_⟩
  rcases h.lookup l with hl' | ⟨hl', -⟩
  · rw [hl', hl]
  · rw [hl] at hl'
    cases hl'

theorem OnlyDirectories.changesAt (h : OnlyDirectories t t') : ChangesAt t t' ls :=
  ⟨h.stay, fun l _ bytes => h.sameFiles.2 l bytes⟩

/-- A directory where nothing was. -/
theorem onlyDirectories_set (h : t.lookup l = none) : OnlyDirectories t (t.set l .directory) := by
  have hl : l ≠ [] := by
    rintro rfl
    cases h
  refine ⟨rfl, fun k => ?_⟩
  by_cases hk : k = l
  · rw [hk]
    exact .inr ⟨h, lookup_set_self t hl _⟩
  · exact .inl (lookup_set_of_ne t hk _)

theorem onlyDirectories_makeDirectory (h : t.makeDirectory p = .ok t') : OnlyDirectories t t' := by
  rw [makeDirectory, bind_eq_ok] at h
  obtain ⟨new, -, h⟩ := h
  split at h
  · cases h
  rw [bind_eq_ok] at h
  obtain ⟨l, -, h⟩ := h
  split at h
  · cases h
  · rename_i hnone
    cases h
    exact onlyDirectories_set hnone

/-- Making directories, in as many steps as may be, adds directories only. -/
theorem onlyDirectories_makeDirectoriesUpTo : ∀ (n : Nat) (t : FileTree) (p : Path),
    OnlyDirectories t (t.makeDirectoriesUpTo n p).1
  | 0, t, p => .refl t
  | n + 1, t, p => by
    rw [makeDirectoriesUpTo]
    split
    · exact .refl t
    split
    · rename_i t' hmake
      exact onlyDirectories_makeDirectory hmake
    · split
      · exact .refl t
      · rename_i q hq
        have habove := onlyDirectories_makeDirectoriesUpTo n t q
        split
        · rename_i t' e heq
          rwa [heq] at habove
        · rename_i t' heq
          rw [heq] at habove
          split
          · rename_i t'' hmake
            exact habove.trans (onlyDirectories_makeDirectory hmake)
          · exact habove
    · exact .refl t

theorem onlyDirectories_makeDirectories (t : FileTree) (p : Path) : OnlyDirectories t (t.makeDirectories p).1 :=
  onlyDirectories_makeDirectoriesUpTo _ t p

/-! ## Changes at locations -/

theorem ChangesAt.refl (t : FileTree) (ls : List Location) : ChangesAt t t ls :=
  (OnlyDirectories.refl t).changesAt

theorem ChangesAt.trans {ls' : List Location} (h : ChangesAt t t' ls) (h' : ChangesAt t' t'' ls') :
    ChangesAt t t'' (ls ++ ls') := by
  refine ⟨h.stay.trans h'.stay, fun l hl bytes => ?_⟩
  rw [List.mem_append, not_or] at hl
  exact (h'.file l hl.2 bytes).trans (h.file l hl.1 bytes)

/-- Elsewhere nothing is changed, but for directories where nothing was. -/
theorem ChangesAt.lookup (h : ChangesAt t t' ls) (hl : l ∉ ls) :
    t'.lookup l = t.lookup l ∨ t.lookup l = none ∧ t'.lookup l = some .directory := by
  cases hbefore : t.lookup l with
  | some e =>
    cases e with
    | file bytes => exact .inl ((h.file l hl bytes).2 hbefore)
    | directory => exact .inl (h.stay.directory hbefore)
  | none =>
    cases hafter : t'.lookup l with
    | none => exact .inl rfl
    | some e =>
      cases e with
      | file bytes =>
        rw [(h.file l hl bytes).1 hafter] at hbefore
        cases hbefore
      | directory => exact .inr ⟨rfl, rfl⟩

/-- A file whose location is not among the changed ones holds what it held. -/
theorem ChangesAt.holdsText {text : String} (h : ChangesAt t t' ls) (hp : t.locate p ∉ ls) :
    t'.HoldsText p text ↔ t.HoldsText p text := by
  rw [HoldsText, HoldsText, h.stay.locate]
  exact h.file _ hp _

/-- A file where no directory was. -/
theorem changesAt_set (h : t.holdsDirectory l = false) (bytes : ByteArray) :
    ChangesAt t (t.set l (.file bytes)) [l] := by
  have hne {k : Location} (hk : t.lookup k = some .directory) : k ≠ l := by
    rintro rfl
    rw [holdsDirectory_eq_true.2 hk] at h
    cases h
  refine ⟨⟨rfl, fun hk => ?_⟩, fun k hk bytes' => ?_⟩
  · rwa [lookup_set_of_ne t (hne hk)]
  · rw [lookup_set_of_ne t (List.mem_singleton.not.1 hk)]

/-- **Bytes are written** to the location that the path leads to, where no directory is. -/
theorem writeBytes_eq_ok {bytes : ByteArray} (h : t.writeBytes p bytes = .ok t') :
    ∃ l, t.resolve p = .ok l ∧ t.holdsDirectory l = false ∧ t' = t.set l (.file bytes) := by
  rw [writeBytes, bind_eq_ok] at h
  obtain ⟨new, hnew, h⟩ := h
  split at h
  · cases h
  · rename_i parent s
    split at h
    · cases h
    · rename_i hslash
      obtain ⟨l, hl, h⟩ := bind_eq_ok.1 h
      split at h
      · cases h
      · rename_i hdirectory
        cases h
        obtain ⟨hpath, ss, hsegments, hwalk, hparent⟩ := resolveNew_eq_some hnew hslash
        refine ⟨l, resolve_eq_ok.2 ⟨hpath, ?_⟩, by simpa using hdirectory, rfl⟩
        rw [hsegments]
        exact walk_append_singleton hwalk hparent hl

/-- **A file that was written** is at the location that its path denotes, and no other file is changed. -/
theorem changesAt_writeBytes {bytes : ByteArray} (h : t.writeBytes p bytes = .ok t') :
    ChangesAt t t' [t.locate p] ∧ t'.Leads p ∧ t'.lookup (t'.locate p) = some (.file bytes) := by
  obtain ⟨l, hl, hdirectory, rfl⟩ := writeBytes_eq_ok h
  have hlocate := locate_of_resolve hl
  have hchanges := changesAt_set hdirectory bytes
  have hne : l ≠ [] := by
    rintro rfl
    cases hdirectory
  refine ⟨hlocate ▸ hchanges, hchanges.stay.leads ⟨l, hl⟩, ?_⟩
  rw [hchanges.stay.locate, ← hlocate, lookup_set_self t hne]

end FileTree

open FileTree

/-! ## Steps of a write -/

theorem run_readText (p : Path) (t : FileTree) :
    (FileSystem.readText p : StateM FileTree (Except FileError String)).run t = (t.readText p, t) :=
  rfl

theorem run_writeText (p : Path) (text : String) (t : FileTree) :
    (FileSystem.writeText p text : StateM FileTree (Except FileError Unit)).run t =
      match t.writeBytes p text.toUTF8 with
      | .ok t' => (.ok (), t')
      | .error e => (.error e, t) :=
  rfl

/-- Making the directories of a file adds directories only. -/
theorem onlyDirectories_makeParents {p : Path} {t t' : FileTree} {made : Except FileError Unit}
    (h : (makeParents p : StateM FileTree (Except FileError Unit)).run t = (made, t')) : OnlyDirectories t t' := by
  unfold makeParents at h
  split at h
  · cases h
    exact onlyDirectories_makeDirectories t _
  · cases h
    exact .refl t

/-- A write on a tree. -/
abbrev runWriteFile (p : Path) (text : String) (t : FileTree) : Except FileError WriteOutcome × FileTree :=
  (writeFile p text : StateM FileTree (Except FileError WriteOutcome)).run t

/-- **A write** leaves a file alone that is up to date, and otherwise makes the directories of the file and puts the
bytes of the text there. -/
theorem run_writeFile (p : Path) (text : String) (t : FileTree) :
    runWriteFile p text t =
      if (t.readText p).toOption = some text then (.ok .unchanged, t)
      else
        match (makeParents p : StateM FileTree (Except FileError Unit)).run t with
        | (.error e, t') => (.error e, t')
        | (.ok (), t') =>
          match t'.writeBytes p text.toUTF8 with
          | .ok t'' => (.ok .written, t'')
          | .error e => (.error e, t') := by
  rw [runWriteFile, writeFile, StateT.run_bind, run_readText]
  show StateT.run (if (t.readText p).toOption = some text then _ else _) t = _
  split
  · rfl
  · rw [StateT.run_bind]
    cases hmade : (makeParents p : StateM FileTree (Except FileError Unit)).run t with
    | mk made t' =>
      cases made with
      | error e => rfl
      | ok u =>
        show StateT.run (FileSystem.writeText p text >>= _) t' = _
        rw [StateT.run_bind, run_writeText]
        cases hwrite : t'.writeBytes p text.toUTF8 with
        | error e =>
          simp only [hwrite]
          rfl
        | ok t'' =>
          simp only [hwrite]
          rfl

section Outcomes

variable {p : Path} {text : String} {t t' : FileTree}

/-- **A write that fails** has added directories at most. -/
theorem onlyDirectories_of_writeFile {e : FileError} (h : runWriteFile p text t = (.error e, t')) :
    OnlyDirectories t t' := by
  rw [run_writeFile] at h
  split at h
  · cases h
  cases hmade : (makeParents p : StateM FileTree (Except FileError Unit)).run t with
  | mk made t₁ =>
    have honly := onlyDirectories_makeParents hmade
    rw [hmade] at h
    cases made with
    | error e' =>
      cases h
      exact honly
    | ok u =>
      simp only at h
      split at h
      · cases h
      · cases h
        exact honly

/-- It leaves every file as it was. -/
theorem sameFiles_of_writeFile {e : FileError} (h : runWriteFile p text t = (.error e, t')) : SameFiles t t' :=
  (onlyDirectories_of_writeFile h).sameFiles

/-- The text can be read at the path: it leads to a file that holds it. -/
theorem readText_toOption_eq_some : (t.readText p).toOption = some text ↔ t.Leads p ∧ t.HoldsText p text := by
  rw [← readText_eq_ok]
  cases t.readText p <;> simp [Except.toOption]

/-- **A write that has nothing to do** leaves the tree as it is. -/
theorem writeFile_upToDate (hp : t.Leads p) (htext : t.HoldsText p text) :
    runWriteFile p text t = (.ok .unchanged, t) := by
  rw [run_writeFile, if_pos (readText_toOption_eq_some.2 ⟨hp, htext⟩)]

/-- **A write that succeeds** changes no other file; its path leads to a file with the text. -/
theorem changesAt_writeFile {outcome : WriteOutcome} (h : runWriteFile p text t = (.ok outcome, t')) :
    ChangesAt t t' [t.locate p] ∧ t'.Leads p ∧ t'.HoldsText p text := by
  rw [run_writeFile] at h
  split at h
  · rename_i hread
    cases h
    exact ⟨.refl t _, readText_toOption_eq_some.1 hread⟩
  cases hmade : (makeParents p : StateM FileTree (Except FileError Unit)).run t with
  | mk made t₁ =>
    have honly := onlyDirectories_makeParents hmade
    rw [hmade] at h
    cases made with
    | error e' => cases h
    | ok u =>
      simp only at h
      split at h
      · rename_i hwrite
        cases h
        obtain ⟨hchanges, hholds⟩ := changesAt_writeBytes hwrite
        rw [honly.stay.locate] at hchanges
        have hmadeOnly : ChangesAt t t₁ [] := honly.changesAt
        exact ⟨hmadeOnly.trans hchanges, hholds⟩
      · cases h

/-- A file is left alone exactly if its path leads to a file with the text. -/
theorem writeFile_outcome {outcome : WriteOutcome} (h : runWriteFile p text t = (.ok outcome, t')) :
    outcome = .unchanged ↔ t.Leads p ∧ t.HoldsText p text := by
  rw [run_writeFile] at h
  split at h
  · rename_i hread
    cases h
    exact iff_of_true rfl (readText_toOption_eq_some.1 hread)
  · rename_i hread
    refine iff_of_false ?_ (readText_toOption_eq_some.not.1 hread)
    rintro rfl
    split at h
    · cases h
    · split at h <;> cases h

end Outcomes

end TableExport
