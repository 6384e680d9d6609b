import Mathlib.Logic.Relation
import TableExport.Proofs.Files.Path

/-!
# Spellings of one path

Paths are compared by their components. That comes to this: separators can be doubled, a `.` can stand between two of
them, and there can be one at the end; nothing else that is written in another way is the same path.

- `Respelling` lists these three, `Respelt` is any number of them in either direction.
- `respelt_spelled` brings a path into the form that its components give.
- `sameAs_iff_respelt` says that comparing by components is respelling.
-/

namespace TableExport.Path

/-- What can be put into a path that does not count. -/
inductive Respelling : Path → Path → Prop
  | double (s t : String) : Respelling ⟨s ++ "/" ++ t⟩ ⟨s ++ "//" ++ t⟩
  | dot (s t : String) : Respelling ⟨s ++ "/" ++ t⟩ ⟨s ++ "/./" ++ t⟩
  | slash (s : String) : s ≠ "" → Respelling ⟨s⟩ ⟨s ++ "/"⟩

/-- One path is the other one with things put in or taken out that do not count. -/
abbrev Respelt : Path → Path → Prop :=
  Relation.EqvGen Respelling

/-! ## What is put in does not count -/

theorem segments_mk_append (s t : String) :
    (Path.mk (s ++ "/" ++ t)).segments = (Path.mk s).segments ++ (Path.mk t).segments :=
  segments_of_toList (by simp)

theorem beginning_mk_append (s t u : String) :
    (Path.mk (s ++ "/" ++ t)).beginning = (Path.mk (s ++ "/" ++ u)).beginning := by
  obtain ⟨piece, pieces, hs, -⟩ := segments_eq ⟨s⟩
  have habsolute (t : String) : (Path.mk (s ++ "/" ++ t)).isAbsolute = (Path.mk (s ++ "/")).isAbsolute := by
    simp only [isAbsolute, String.toList_append, List.append_assoc, List.head?_append]
    cases s.toList <;> rfl
  rw [beginning, beginning, habsolute, habsolute u, segments_mk_append, segments_mk_append, hs]
  rfl

/-- A segment between two separators that is no name does not count. -/
theorem components_between {m : String} (hm : (Path.mk m).names = []) (s t : String) :
    (Path.mk (s ++ "/" ++ (m ++ "/" ++ t))).components = (Path.mk (s ++ "/" ++ t)).components := by
  have hnames : (Path.mk (s ++ "/" ++ (m ++ "/" ++ t))).names = (Path.mk (s ++ "/" ++ t)).names := by
    rw [names, names, segments_mk_append, segments_mk_append, segments_mk_append, List.filterMap_append,
      List.filterMap_append, List.filterMap_append]
    rw [names] at hm
    rw [hm, List.nil_append]
  rw [components_eq, components_eq, hnames, beginning_mk_append s _ t]

theorem Respelling.components_eq {p q : Path} (h : Respelling p q) : p.components = q.components := by
  cases h with
  | double s t =>
    have htext : s ++ "//" ++ t = s ++ "/" ++ ("" ++ "/" ++ t) := by
      rw [(by decide : "//" = "/" ++ "/"), String.empty_append, String.append_assoc, String.append_assoc,
        String.append_assoc]
    rw [htext, components_between rfl]
  | dot s t =>
    have htext : s ++ "/./" ++ t = s ++ "/" ++ ("." ++ "/" ++ t) := by
      rw [(by decide : "/./" = "/" ++ ("." ++ "/"))]
      simp only [String.append_assoc]
    rw [htext, components_between (by decide)]
  | slash s hs =>
    obtain ⟨hbeginning, hnames⟩ := parts_of_toList (p := ⟨s⟩) (q := ⟨""⟩) (j := ⟨s ++ "/"⟩)
      (.inl ⟨rfl, by simpa using hs⟩) (by simp)
    rw [Path.components_eq, Path.components_eq ⟨s ++ "/"⟩, hbeginning, hnames]
    exact congrArg _ (List.append_nil _).symm

theorem Respelt.components_eq {p q : Path} (h : Respelt p q) : p.components = q.components := by
  induction h with
  | rel _ _ h => exact h.components_eq
  | refl _ => rfl
  | symm _ _ _ ih => exact ih.symm
  | trans _ _ _ _ _ ih ih' => exact ih.trans ih'

/-! ## Nothing else is the same -/

/-- The path that is written with these characters. -/
def ofChars (s : List Char) : Path :=
  ⟨String.ofList s⟩

/-- Segments behind others. -/
def behind (pieces : List (List Char)) : List Char :=
  pieces.flatMap ('/' :: ·)

/-- The segment counts behind others. -/
def counts (piece : List Char) : Bool :=
  (innerComponent? (String.ofList piece)).isSome

theorem counts_eq_false {piece : List Char} : counts piece = false ↔ piece = [] ∨ piece = ['.'] := by
  have hempty : String.ofList piece = "" ↔ piece = [] := String.ofList_eq_empty_iff
  have hdot : String.ofList piece = "." ↔ piece = ['.'] := @String.ofList_inj piece ['.']
  rw [counts, innerComponent?, ← hempty, ← hdot]
  split
  · simp_all
  · split <;> simp_all

theorem ofChars_eq (text : String) {s : List Char} (h : text.toList = s) : ofChars s = ⟨text⟩ := by
  rw [ofChars, ← h, String.ofList_toList]

theorem respelt_double (s t : List Char) : Respelt (ofChars (s ++ '/' :: '/' :: t)) (ofChars (s ++ '/' :: t)) := by
  rw [ofChars_eq (String.ofList s ++ "//" ++ String.ofList t) (by simp),
    ofChars_eq (String.ofList s ++ "/" ++ String.ofList t) (by simp)]
  exact .symm _ _ (.rel _ _ (.double _ _))

theorem respelt_dot (s t : List Char) : Respelt (ofChars (s ++ '/' :: '.' :: '/' :: t)) (ofChars (s ++ '/' :: t)) := by
  rw [ofChars_eq (String.ofList s ++ "/./" ++ String.ofList t) (by simp),
    ofChars_eq (String.ofList s ++ "/" ++ String.ofList t) (by simp)]
  exact .symm _ _ (.rel _ _ (.dot _ _))

theorem respelt_slash {s : List Char} (hs : s ≠ []) : Respelt (ofChars (s ++ ['/'])) (ofChars s) := by
  rw [ofChars_eq (String.ofList s ++ "/") (by simp)]
  exact .symm _ _ (.rel _ _ (.slash _ (by simpa using hs)))

/-- A `.` at the end needs a separator behind it before it can be left out. -/
theorem respelt_finalDot (s : List Char) : Respelt (ofChars (s ++ ['/', '.'])) (ofChars (s ++ ['/'])) := by
  have hslash : Respelt (ofChars (s ++ ['/', '.', '/'])) (ofChars (s ++ ['/', '.'])) := by
    simpa using respelt_slash (s := s ++ ['/', '.']) (by simp)
  exact .trans _ _ _ (.symm _ _ hslash) (respelt_dot s [])

/-- A segment that does not count can be left out, unless nothing would be left of an absolute path. -/
theorem respelt_drop {s piece : List Char} {pieces : List (List Char)} (hpiece : counts piece = false)
    (h : s ≠ [] ∨ pieces ≠ []) : Respelt (ofChars (s ++ behind (piece :: pieces))) (ofChars (s ++ behind pieces)) := by
  cases pieces with
  | nil =>
    have hs := h.resolve_right fun h => h rfl
    rcases counts_eq_false.1 hpiece with rfl | rfl
    · simpa [behind] using respelt_slash hs
    · simpa [behind] using Relation.EqvGen.trans _ _ _ (respelt_finalDot s) (respelt_slash hs)
  | cons next pieces =>
    rcases counts_eq_false.1 hpiece with rfl | rfl
    · simpa [behind] using respelt_double s (next ++ behind pieces)
    · simpa [behind] using respelt_dot s (next ++ behind pieces)

/-- Behind something, all segments that do not count can be left out. -/
theorem respelt_filter {s : List Char} (hs : s ≠ []) (pieces : List (List Char)) :
    Respelt (ofChars (s ++ behind pieces)) (ofChars (s ++ behind (pieces.filter counts))) := by
  induction pieces generalizing s with
  | nil => exact .refl _
  | cons piece pieces ih =>
    cases hpiece : counts piece with
    | true =>
      rw [List.filter_cons_of_pos hpiece]
      simpa [behind] using ih (s := s ++ '/' :: piece) (by simp)
    | false =>
      rw [List.filter_cons_of_neg (by simp [hpiece])]
      exact .trans _ _ _ (respelt_drop hpiece (.inl hs)) (ih hs)

/-- A component as it is written. -/
def spell : Component → List Char
  | .root => []
  | .here => ['.']
  | .up => ['.', '.']
  | .name text => text.toList

/-- Components as they are written without anything that does not count. -/
def spelled : List Component → List Char
  | [] => []
  | [.root] => ['/']
  | c :: cs => spell c ++ behind (cs.map spell)

theorem spelled_cons {c : Component} {cs : List Component} (h : c ≠ .root ∨ cs ≠ []) :
    spelled (c :: cs) = spell c ++ behind (cs.map spell) := by
  unfold spelled
  split <;> simp_all

theorem respelt_absolute {pieces : List (List Char)} {cs : List Component} (hne : pieces ≠ [])
    (hcs : cs.map spell = pieces.filter counts) :
    Respelt (ofChars (behind pieces)) (ofChars (spelled (.root :: cs))) := by
  induction pieces with
  | nil => exact absurd rfl hne
  | cons piece pieces ih =>
    cases hpiece : counts piece with
    | true =>
      rw [List.filter_cons_of_pos hpiece] at hcs
      have hcs' : cs ≠ [] := by
        rintro rfl
        cases hcs
      rw [spelled_cons (.inr hcs'), hcs]
      simpa [behind, spell] using respelt_filter (s := '/' :: piece) (by simp) pieces
    | false =>
      rw [List.filter_cons_of_neg (by simp [hpiece])] at hcs
      cases pieces with
      | nil =>
        obtain rfl : cs = [] := List.map_eq_nil_iff.1 hcs
        rcases counts_eq_false.1 hpiece with rfl | rfl
        · exact .refl _
        · exact respelt_finalDot []
      | cons next pieces =>
        exact .trans _ _ _ (respelt_drop (s := []) hpiece (.inr (List.cons_ne_nil _ _)))
          (ih (List.cons_ne_nil _ _) hcs)

theorem splitSeparators_spec {text piece : List Char} {pieces : List (List Char)}
    (h : splitSeparators text = piece :: pieces) : text = piece ++ behind pieces ∧ '/' ∉ piece := by
  induction text generalizing piece pieces with
  | nil =>
    cases h
    simp [behind]
  | cons c text ih =>
    rw [splitSeparators] at h
    obtain ⟨first, rest, hsplit⟩ := List.exists_cons_of_ne_nil (splitSeparators_ne_nil text)
    obtain ⟨htext, hfirst⟩ := ih hsplit
    rw [hsplit] at h
    split at h
    · rename_i hc
      cases h
      simp [behind, hc, htext]
    · rename_i hc
      cases h
      exact ⟨by rw [htext, List.cons_append], by simp [hfirst, Ne.symm hc]⟩

theorem spell_innerComponent? {piece : List Char} {c : Component} (h : innerComponent? (String.ofList piece) = some c) :
    spell c = piece ∧ c ≠ .root := by
  rw [innerComponent?] at h
  split at h
  · cases h
  · split at h
    · rename_i hup
      cases h
      refine ⟨?_, by simp⟩
      rw [← String.toList_ofList (l := piece), hup]
      rfl
    · cases h
      exact ⟨String.toList_ofList, by simp⟩

theorem map_spell_filterMap (pieces : List (List Char)) :
    ((pieces.map String.ofList).filterMap innerComponent?).map spell = pieces.filter counts := by
  induction pieces with
  | nil => rfl
  | cons piece pieces ih =>
    cases hpiece : innerComponent? (String.ofList piece) with
    | none =>
      rw [List.map_cons, List.filterMap_cons_none hpiece, ih, List.filter_cons_of_neg (by simp [counts, hpiece])]
    | some c =>
      rw [List.map_cons, List.filterMap_cons_some hpiece, List.map_cons, ih, (spell_innerComponent? hpiece).1,
        List.filter_cons_of_pos (by simp [counts, hpiece])]

theorem firstComponent?_of_ne_nil {piece : List Char} (h : piece ≠ []) :
    ∃ c, firstComponent? (String.ofList piece) = some c ∧ spell c = piece ∧ c ≠ .root := by
  rw [firstComponent?]
  split
  · rename_i hdot
    refine ⟨.here, rfl, ?_, by simp⟩
    rw [← String.toList_ofList (l := piece), hdot]
    rfl
  · rename_i hdot
    cases hinner : innerComponent? (String.ofList piece) with
    | some c => exact ⟨c, rfl, spell_innerComponent? hinner⟩
    | none =>
      have hcounts : counts piece = false := by rw [counts, hinner, Option.isSome_none]
      rcases counts_eq_false.1 hcounts with rfl | rfl
      · exact absurd rfl h
      · exact absurd rfl hdot

/-- **A path** can be respelt as its components are written. -/
theorem respelt_spelled (p : Path) : Respelt p (ofChars (spelled p.components)) := by
  obtain ⟨text⟩ := p
  obtain ⟨piece, pieces, hsplit⟩ := List.exists_cons_of_ne_nil (splitSeparators_ne_nil text.toList)
  obtain ⟨htext, hpiece⟩ := splitSeparators_spec hsplit
  have hpath : ofChars (piece ++ behind pieces) = ⟨text⟩ := ofChars_eq text htext
  have hcomponents : (Path.mk text).components =
      (if (Path.mk text).isAbsolute then some .root else firstComponent? (String.ofList piece)).toList ++
        (pieces.map String.ofList).filterMap innerComponent? := by
    rw [components, segments, hsplit, List.map_cons]
  rw [hcomponents, isAbsolute, htext, ← hpath]
  cases piece with
  | nil =>
    cases pieces with
    | nil => exact .refl _
    | cons next pieces => exact respelt_absolute (List.cons_ne_nil _ _) (map_spell_filterMap _)
  | cons c cs =>
    -- a path with a first segment is not absolute, and that segment counts
    obtain ⟨first, hfirst, hspell, hroot⟩ := firstComponent?_of_ne_nil (List.cons_ne_nil c cs)
    have hc : c ≠ '/' := fun hc => hpiece (hc ▸ List.mem_cons_self)
    have hhead : decide (((c :: cs) ++ behind pieces).head? = some '/') = false := by simpa using hc
    rw [hhead, if_neg Bool.false_ne_true, hfirst, Option.toList_some, List.singleton_append, spelled_cons (.inl hroot),
      hspell, map_spell_filterMap]
    exact respelt_filter (List.cons_ne_nil c cs) pieces

/-- **Paths are the same** by their components if and only if one can be respelt as the other. -/
theorem sameAs_iff_respelt {p q : Path} : p.sameAs q = true ↔ Respelt p q := by
  rw [sameAs, decide_eq_true_eq]
  constructor
  · intro h
    have hq := respelt_spelled q
    rw [← h] at hq
    exact .trans _ _ _ (respelt_spelled p) (.symm _ _ hq)
  · exact fun h => h.components_eq

end TableExport.Path
