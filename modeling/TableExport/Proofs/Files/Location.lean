import TableExport.Proofs.Files.Path
import TableExport.Proofs.Outcome
import TableExport.Files.FileTree

/-!
# Where a path leads

A path denotes a location by its names alone: a `..` takes the last name away, whether or not there is anything at the
places in between. Following the path in a tree leads to that location, but only if all places on the way are
directories.

- `FileTree.locate` is the location that a path denotes; `locate_of_resolve` says that following the path leads there.
- `Stay` says that directories stay directories, so that paths can still be followed (`Stay.resolve`).
- `HoldsText` says that the file of a path holds a text, and `readText_eq_ok` what has to be true to read it.
-/

namespace TableExport.FileTree

/-- The location of a name in a directory. -/
def place (l : Location) (name : String) : Location :=
  if name = "" || name = "." then l
  else if name = ".." then l.dropLast
  else l ++ [name]

/-- The location that a path denotes. -/
def locate (t : FileTree) (p : Path) : Location :=
  p.segments.foldl place (t.start p)

variable {t t' : FileTree} {p : Path} {l l' : Location} {s : String} {ss : List String}

theorem child_eq_ok (h : child l s = .ok l') : l' = place l s := by
  unfold child at h
  unfold place
  split at h
  · rename_i hs
    cases h
    rw [if_pos hs]
  · rename_i hs
    rw [if_neg hs]
    split at h
    · rename_i hup
      cases h
      rw [if_pos hup]
    · rename_i hup
      rw [if_neg hup]
      split at h
      · cases h
      · cases h
        rfl

theorem checkDirectory_eq_ok : t.checkDirectory l = .ok () ↔ t.lookup l = some .directory := by
  unfold checkDirectory
  cases t.lookup l with
  | none => simp
  | some e => cases e <;> simp

theorem holdsDirectory_eq_true : t.holdsDirectory l = true ↔ t.lookup l = some .directory := by
  unfold holdsDirectory
  cases t.lookup l with
  | none => simp
  | some e => cases e <;> simp

/-! ## Following a path -/

theorem walk_cons_eq_ok : t.walk l (s :: ss) = .ok l' ↔
    t.lookup l = some .directory ∧ ∃ k, child l s = .ok k ∧ t.walk k ss = .ok l' := by
  rw [walk, check_bind_eq_ok, checkDirectory_eq_ok, bind_eq_ok]

/-- Following names leads to the place that they denote. -/
theorem walk_eq_foldl (h : t.walk l ss = .ok l') : l' = ss.foldl place l := by
  induction ss generalizing l with
  | nil =>
    cases h
    rfl
  | cons s ss ih =>
    obtain ⟨-, k, hk, h⟩ := walk_cons_eq_ok.1 h
    rw [List.foldl_cons, ← child_eq_ok hk]
    exact ih h

/-- The last name is followed behind the others. -/
theorem walk_append_singleton {k : Location} (h : t.walk l ss = .ok k) (hk : t.lookup k = some .directory)
    (hs : child k s = .ok l') : t.walk l (ss ++ [s]) = .ok l' := by
  induction ss generalizing l with
  | nil =>
    cases h
    exact walk_cons_eq_ok.2 ⟨hk, l', hs, rfl⟩
  | cons s' ss ih =>
    obtain ⟨hl, k', hk', h⟩ := walk_cons_eq_ok.1 h
    exact walk_cons_eq_ok.2 ⟨hl, k', hk', ih h⟩

theorem resolve_eq_ok : t.resolve p = .ok l ↔ checkPath p = .ok () ∧ t.walk (t.start p) p.segments = .ok l := by
  rw [resolve, check_bind_eq_ok]

/-- **Following a path** leads to the location that it denotes. -/
theorem locate_of_resolve (h : t.resolve p = .ok l) : l = t.locate p :=
  walk_eq_foldl (resolve_eq_ok.1 h).2

/-! ## The end of a path -/

/-- The last segment of a text is empty only if there is no text, or a separator at its end. -/
theorem of_getLast?_splitSeparators : ∀ {s : List Char}, (Path.splitSeparators s).getLast? = some [] →
    s = [] ∨ s.getLast? = some '/'
  | [], _ => .inl rfl
  | c :: s, h => by
    obtain ⟨piece, pieces, hs⟩ := List.exists_cons_of_ne_nil (Path.splitSeparators_ne_nil s)
    have ih := of_getLast?_splitSeparators (s := s)
    rw [hs] at ih
    simp only [Path.splitSeparators, hs] at h
    right
    split at h
    · rename_i hc
      rw [List.getLast?_cons_cons] at h
      rcases ih h with rfl | hlast
      · rw [hc, List.getLast?_singleton]
      · simp [List.getLast?_cons, hlast]
    · cases pieces with
      | nil => simp at h
      | cons piece' pieces =>
        rw [List.getLast?_cons_cons] at h ih
        rcases ih h with rfl | hlast
        · cases hs
        · simp [List.getLast?_cons, hlast]

/-- Without a separator at the end of a path, its last segment is a name. -/
theorem exists_last_segment (hne : p.text.isEmpty = false) (hslash : p.text.toList.getLast? ≠ some '/') :
    ∃ ss s, p.segments = ss ++ [s] ∧ s ≠ "" := by
  rcases List.eq_nil_or_concat' (Path.splitSeparators p.text.toList) with hnil | ⟨pieces, piece, hpieces⟩
  · exact absurd hnil (Path.splitSeparators_ne_nil _)
  refine ⟨pieces.map String.ofList, String.ofList piece, ?_, fun hempty => ?_⟩
  · rw [Path.segments, hpieces, List.map_append, List.map_singleton]
  · have hpiece : piece = [] := String.ofList_eq_empty_iff.1 hempty
    have hlast : (Path.splitSeparators p.text.toList).getLast? = some [] := by
      rw [hpieces, List.getLast?_concat, hpiece]
    rcases of_getLast?_splitSeparators hlast with htext | htext
    · simp [String.toList_eq_nil_iff.1 htext] at hne
    · exact hslash htext

theorem significantSegments_eq (hne : p.text.isEmpty = false) (hslash : p.text.toList.getLast? ≠ some '/') :
    significantSegments p = p.segments := by
  obtain ⟨ss, s, hsegments, hs⟩ := exists_last_segment hne hslash
  rw [significantSegments, hsegments, List.reverse_append, List.reverse_singleton, List.singleton_append,
    List.dropWhile_cons_of_neg (by simpa using hs), List.reverse_cons, List.reverse_reverse]

/-- Where a path without a separator at its end is to create something: its last name, in the directory that the names
in front of it lead to. -/
theorem resolveNew_eq_some {parent : Location} (h : t.resolveNew p = .ok (some (parent, s)))
    (hslash : p.text.toList.getLast? ≠ some '/') :
    checkPath p = .ok () ∧ ∃ ss, p.segments = ss ++ [s] ∧ t.walk (t.start p) ss = .ok parent ∧
      t.lookup parent = some .directory := by
  rw [resolveNew, check_bind_eq_ok] at h
  obtain ⟨hpath, h⟩ := h
  obtain ⟨k, hwalk, h⟩ := bind_eq_ok.1 h
  rw [check_bind_eq_ok, checkDirectory_eq_ok] at h
  obtain ⟨hdirectory, h⟩ := h
  have hne : p.text.isEmpty = false := by
    cases hempty : p.text.isEmpty with
    | false => rfl
    | true => simp [checkPath, String.isEmpty_iff.1 hempty] at hpath
  rw [significantSegments_eq hne hslash] at hwalk h
  split at h
  · cases h
  · rename_i s' hlast
    rw [pure_eq_ok] at h
    split at h
    · cases h
    · cases h
      obtain ⟨ss, hsegments⟩ := List.getLast?_eq_some_iff.1 hlast
      rw [hsegments, List.dropLast_concat] at hwalk
      exact ⟨hpath, ss, hsegments, hwalk, hdirectory⟩

/-! ## Directories that stay -/

/-- Paths are followed from the same place, and what was a directory is one. -/
structure Stay (t t' : FileTree) : Prop where
  workingDirectory : t'.workingDirectory = t.workingDirectory
  directory : ∀ {l}, t.lookup l = some .directory → t'.lookup l = some .directory

theorem Stay.refl (t : FileTree) : Stay t t :=
  ⟨rfl, id⟩

theorem Stay.trans {t'' : FileTree} (h : Stay t t') (h' : Stay t' t'') : Stay t t'' :=
  ⟨h'.workingDirectory.trans h.workingDirectory, fun hl => h'.directory (h.directory hl)⟩

theorem Stay.start (h : Stay t t') (p : Path) : t'.start p = t.start p := by
  rw [FileTree.start, FileTree.start, h.workingDirectory]

theorem Stay.locate (h : Stay t t') (p : Path) : t'.locate p = t.locate p := by
  rw [FileTree.locate, FileTree.locate, h.start]

theorem Stay.walk (h : Stay t t') (hl : t.walk l ss = .ok l') : t'.walk l ss = .ok l' := by
  induction ss generalizing l with
  | nil => exact hl
  | cons s ss ih =>
    obtain ⟨hdirectory, k, hk, hl⟩ := walk_cons_eq_ok.1 hl
    exact walk_cons_eq_ok.2 ⟨h.directory hdirectory, k, hk, ih hl⟩

/-- **A path that could be followed** still can. -/
theorem Stay.resolve (h : Stay t t') (hl : t.resolve p = .ok l) : t'.resolve p = .ok l := by
  obtain ⟨hpath, hl⟩ := resolve_eq_ok.1 hl
  rw [resolve_eq_ok, h.start]
  exact ⟨hpath, h.walk hl⟩

/-! ## The text at a path -/

/-- The path can be followed: all places on the way are directories. -/
def Leads (t : FileTree) (p : Path) : Prop :=
  ∃ l, t.resolve p = .ok l

theorem Stay.leads (h : Stay t t') (hp : t.Leads p) : t'.Leads p := by
  obtain ⟨l, hl⟩ := hp
  exact ⟨l, h.resolve hl⟩

/-- The file that the path denotes holds the text. -/
def HoldsText (t : FileTree) (p : Path) (text : String) : Prop :=
  t.lookup (t.locate p) = some (.file text.toUTF8)

/-- The bytes of a text are those that are read as it. -/
theorem fromUTF8?_eq_some {bytes : ByteArray} {text : String} :
    String.fromUTF8? bytes = some text ↔ bytes = text.toUTF8 := by
  rw [String.toUTF8_eq_toByteArray]
  constructor
  · intro h
    unfold String.fromUTF8? at h
    split at h
    · cases h
      rfl
    · cases h
  · rintro rfl
    simp only [String.fromUTF8?, dif_pos text.isValidUTF8]
    rfl

theorem readBytes_eq_ok {bytes : ByteArray} :
    t.readBytes p = .ok bytes ↔ t.Leads p ∧ t.lookup (t.locate p) = some (.file bytes) := by
  rw [readBytes, bind_eq_ok]
  constructor
  · rintro ⟨l, hl, h⟩
    have hlocate := locate_of_resolve hl
    refine ⟨⟨l, hl⟩, ?_⟩
    split at h
    · rename_i hlookup
      rw [pure_eq_ok] at h
      rw [← hlocate, hlookup, h]
    · cases h
    · cases h
  · rintro ⟨⟨l, hl⟩, h⟩
    refine ⟨l, hl, ?_⟩
    rw [locate_of_resolve hl]
    simp only [h]
    rfl

/-- **A text is read** if and only if the path leads to a file that holds it. -/
theorem readText_eq_ok {text : String} : t.readText p = .ok text ↔ t.Leads p ∧ t.HoldsText p text := by
  rw [readText, bind_eq_ok, HoldsText]
  constructor
  · rintro ⟨bytes, hbytes, h⟩
    rw [readBytes_eq_ok] at hbytes
    split at h
    · rename_i text' htext
      rw [pure_eq_ok] at h
      subst h
      rwa [← fromUTF8?_eq_some.1 htext]
    · cases h
  · intro h
    refine ⟨_, readBytes_eq_ok.2 h, ?_⟩
    rw [fromUTF8?_eq_some.2 rfl]
    rfl

end TableExport.FileTree
