import TableExport.Files.Path

/-!
# Components of joined paths

The components of a path are a beginning, which only the first segment decides, and the names of all segments. Joining
two paths joins their names, and keeps the beginning of the one in front unless that is empty.

- `Path.beginning` and `Path.names` are the two parts, `components_eq_iff` compares them.
- `components_join` are the components of joined paths.
- `sameAs_join_iff` says when joining makes different paths the same.
-/

namespace TableExport.Path

/-- What a path that is not relative to any directory or starts with a `.` begins with. -/
def beginning (p : Path) : List Component :=
  if p.isAbsolute then [.root] else if p.segments.head? = some "." then [.here] else []

/-- The names of a path and its `..`, wherever the path is put. -/
def names (p : Path) : List Component :=
  p.segments.filterMap innerComponent?

/-! ## Segments -/

theorem splitSeparators_ne_nil (s : List Char) : splitSeparators s ≠ [] := by
  cases s with
  | nil => exact List.cons_ne_nil _ _
  | cons c s =>
    rw [splitSeparators]
    split
    · exact List.cons_ne_nil _ _
    · split <;> exact List.cons_ne_nil _ _

/-- A separator separates the segments in front of it from those behind it. -/
theorem splitSeparators_append (s t : List Char) :
    splitSeparators (s ++ '/' :: t) = splitSeparators s ++ splitSeparators t := by
  induction s with
  | nil => simp [splitSeparators]
  | cons c s ih =>
    rw [List.cons_append, splitSeparators, splitSeparators, ih]
    split
    · rfl
    · cases hs : splitSeparators s with
      | nil => exact absurd hs (splitSeparators_ne_nil s)
      | cons piece pieces => rfl

theorem segments_of_toList {p : Path} {s t : List Char} (h : p.text.toList = s ++ '/' :: t) :
    p.segments = (splitSeparators s).map String.ofList ++ (splitSeparators t).map String.ofList := by
  rw [segments, h, splitSeparators_append, List.map_append]

/-- A path has a first segment, and that of an absolute path is empty. -/
theorem segments_eq (p : Path) : ∃ s ss, p.segments = s :: ss ∧ (p.isAbsolute = true → s = "") := by
  obtain ⟨text⟩ := p
  cases htext : text.toList with
  | nil => exact ⟨"", [], by simp [segments, htext, splitSeparators], fun _ => rfl⟩
  | cons c s =>
    by_cases hc : c = '/'
    · exact ⟨"", (splitSeparators s).map String.ofList, by simp [segments, htext, splitSeparators, hc], fun _ => rfl⟩
    · obtain ⟨piece, pieces, hs⟩ := List.exists_cons_of_ne_nil (splitSeparators_ne_nil (c :: s))
      refine ⟨String.ofList piece, pieces.map String.ofList, by simp [segments, htext, hs], fun habs => ?_⟩
      simp [isAbsolute, htext, hc] at habs

/-- **The components of a path** are its beginning and its names. -/
theorem components_eq (p : Path) : p.components = p.beginning ++ p.names := by
  obtain ⟨s, ss, hsegments, habsolute⟩ := p.segments_eq
  rw [components, beginning, names, hsegments]
  simp only [List.head?_cons, Option.some.injEq, List.filterMap_cons]
  split
  · rename_i habs
    simp [habsolute habs, innerComponent?]
  · unfold firstComponent?
    split
    · rename_i hdot
      simp [hdot, innerComponent?]
    · cases innerComponent? s <;> rfl

/-! ## Joining -/

/-- A path behind another one keeps the beginning of that one and adds its own names; there may be a separator between
them already. -/
theorem parts_of_toList {p q j : Path} {s : List Char} (hp : p.text.toList = s ∧ s ≠ [] ∨ p.text.toList = s ++ ['/'])
    (hj : j.text.toList = s ++ '/' :: q.text.toList) : j.beginning = p.beginning ∧ j.names = p.names ++ q.names := by
  obtain ⟨piece, pieces, hs⟩ := List.exists_cons_of_ne_nil (splitSeparators_ne_nil s)
  have hq : q.segments = (splitSeparators q.text.toList).map String.ofList := rfl
  have hsegments := segments_of_toList hj
  rw [← hq, hs] at hsegments
  rcases hp with ⟨hp, hne⟩ | hp
  · obtain ⟨c, s', rfl⟩ := List.exists_cons_of_ne_nil hne
    have hfront : p.segments = (piece :: pieces).map String.ofList := by rw [segments, hp, hs]
    refine ⟨?_, ?_⟩
    · simp [beginning, isAbsolute, hp, hj, hsegments, hfront]
    · rw [names, hsegments, ← hfront, List.filterMap_append]
      rfl
  · have hfront := segments_of_toList hp
    rw [hs] at hfront
    refine ⟨?_, ?_⟩
    · cases s <;> simp [beginning, isAbsolute, hp, hj, hsegments, hfront]
    · rw [names, names, hsegments, hfront, List.filterMap_append, List.filterMap_append]
      simp [splitSeparators, innerComponent?, names]

/-- **The components of joined paths**: those of the second path if it is absolute or there is nothing in front of it,
and otherwise those of the first path and the names of the second. -/
theorem components_join (p q : Path) :
    (p.join q).components =
      if q.isAbsolute || p.text.isEmpty then q.components else p.components ++ q.names := by
  rw [join]
  split
  · rename_i hq
    simp [hq]
  rename_i hq
  by_cases hp : p.text.isEmpty = true
  · have htext : p.text = "" := String.isEmpty_iff.1 hp
    simp [htext]
  have hne : p.text.toList ≠ [] := by simpa using hp
  have hparts : ∀ j : Path, j.beginning = p.beginning ∧ j.names = p.names ++ q.names →
      j.components = p.components ++ q.names := by
    rintro j ⟨hbeginning, hnames⟩
    rw [components_eq, components_eq, hbeginning, hnames, List.append_assoc]
  have hfront : (q.isAbsolute || p.text.isEmpty) = false := by simp [hq, hp]
  rw [hfront, if_neg Bool.false_ne_true]
  split
  · rename_i hslash
    have hend : p.text.toList.getLast? = some '/' := by simpa [hp] using hslash
    obtain ⟨s, hs⟩ := List.getLast?_eq_some_iff.1 hend
    exact hparts _ (parts_of_toList (.inr hs) (by simp [hs]))
  · exact hparts _ (parts_of_toList (.inl ⟨rfl, hne⟩) (by simp))

/-! ## Paths that become the same -/

theorem beginning_absolute {p : Path} (h : p.isAbsolute = true) : p.beginning = [.root] := by
  rw [beginning, if_pos h]

theorem beginning_relative {p : Path} (h : p.isAbsolute = false) : p.beginning = [.here] ∨ p.beginning = [] := by
  rw [beginning, h, if_neg Bool.false_ne_true]
  split
  · exact .inl rfl
  · exact .inr rfl

/-- The names of a path are no beginning. -/
theorem notMem_names (p : Path) : Component.root ∉ p.names ∧ Component.here ∉ p.names := by
  have hinner (s : String) : innerComponent? s ≠ some .root ∧ innerComponent? s ≠ some .here := by
    unfold innerComponent?
    split
    · simp
    · split <;> simp
  simp only [names, List.mem_filterMap, not_exists, not_and]
  exact ⟨fun s _ => (hinner s).1, fun s _ => (hinner s).2⟩

/-- Seen from a directory, the first path is the second one: it has a `.` in front of it, or it is absolute and goes
through the directory. -/
def Meets (r p q : Path) : Prop :=
  p.components = .here :: q.components ∨
    p.isAbsolute = true ∧ q.isAbsolute = false ∧ p.components = r.components ++ q.names

/-- A `.` in front is the beginning of a path, and nothing else is different. -/
theorem components_eq_here_cons {p q : Path} :
    p.components = .here :: q.components ↔ p.beginning = [.here] ∧ q.beginning = [] ∧ p.names = q.names := by
  constructor
  · intro h
    have hhere : Component.here ∈ p.beginning := by
      have hmem : Component.here ∈ p.components := h ▸ List.mem_cons_self
      rw [components_eq, List.mem_append] at hmem
      exact hmem.resolve_right p.notMem_names.2
    have hp : p.isAbsolute = false := by
      cases habsolute : p.isAbsolute with
      | false => rfl
      | true => simp [beginning_absolute habsolute] at hhere
    have hbeginning : p.beginning = [.here] := (beginning_relative hp).resolve_right fun hnil => by
      simp [hnil] at hhere
    rw [components_eq, components_eq, hbeginning, List.singleton_append, List.cons.injEq] at h
    -- What else the second path began with would be among the names of the first one.
    have hq : q.beginning = [] := by
      cases habsolute : q.isAbsolute with
      | true =>
        rw [beginning_absolute habsolute] at h
        exact absurd (h.2 ▸ List.mem_cons_self) p.notMem_names.1
      | false =>
        refine (beginning_relative habsolute).resolve_left fun hq => ?_
        rw [hq] at h
        exact absurd (h.2 ▸ List.mem_cons_self) p.notMem_names.2
    rw [hq] at h
    exact ⟨hbeginning, hq, h.2⟩
  · rintro ⟨hp, hq, hnames⟩
    rw [components_eq, components_eq, hp, hq, hnames]
    rfl

/-- **Different paths become the same** behind a path if and only if that is not empty and they meet there. -/
theorem sameAs_join_iff (r : Path) {p q : Path} (h : p.sameAs q = false) :
    (r.join p).sameAs (r.join q) = true ↔ r.text ≠ "" ∧ (r.Meets p q ∨ r.Meets q p) := by
  simp only [sameAs, decide_eq_false_iff_not, decide_eq_true_eq] at h ⊢
  rw [components_join, components_join]
  by_cases hr : r.text = ""
  · simp [hr, h]
  have hempty : r.text.isEmpty = false := by simpa using hr
  simp only [hempty, Bool.or_false, ne_eq, hr, not_false_eq_true, true_and, Meets, components_eq_here_cons]
  cases hp : p.isAbsolute with
  | true =>
    have hbeginning := beginning_absolute hp
    cases hq : q.isAbsolute with
    | true => simp [h, hbeginning, beginning_absolute hq]
    | false => simp [hbeginning]
  | false =>
    cases hq : q.isAbsolute with
    | true => simpa [beginning_absolute hq] using eq_comm
    | false =>
      rw [components_eq p, components_eq q] at h
      rcases beginning_relative hp with hp' | hp'
      · rcases beginning_relative hq with hq' | hq'
        · simpa [hp', hq'] using h
        · simp [hp', hq']
      · rcases beginning_relative hq with hq' | hq'
        · simpa [hp', hq'] using eq_comm
        · simpa [hp', hq'] using h

end TableExport.Path
