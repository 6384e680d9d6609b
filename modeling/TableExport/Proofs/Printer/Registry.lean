import Mathlib.Data.List.Nodup
import TableExport.Printer.Session

/-!
# What a registry holds

A registry is a view of its history: of all printers that were offered since it was last lost, it holds the first one of
each target, in the order in which they came.

- `get_eq_error` and `mem_targets` say what is found, `answer_register`, `answer_extend` and `answer_get` what is
  answered.
- `offered` is the history of a session. `Holds` is the view; a request keeps it (`Holds.answer`), so a session does
  (`Holds.session`).
- `session_offered` says what a registry answers after any session.
-/

namespace TableExport.Registry

variable {r : Registry} {ps : List Printer}

/-! ## Look-ups -/

theorem get_eq_error {target : String} {e : RegistryError} :
    r.get target = .error e ↔ target ∉ r.targets ∧ e = .unknown target r.targets := by
  rw [Registry.get, Registry.targets]
  cases hfind : r.printers.find? (·.target = target) with
  | some printer =>
    have hmem := List.mem_of_find?_eq_some hfind
    have htarget := List.find?_some hfind
    simp only [decide_eq_true_eq] at htarget
    simp only [reduceCtorEq, false_iff, not_and]
    exact fun h => absurd (List.mem_map.2 ⟨printer, hmem, htarget⟩) h
  | none =>
    simp only [List.find?_eq_none, decide_eq_true_eq] at hfind
    simp only [Except.error.injEq, List.mem_map, not_exists, not_and]
    exact ⟨fun h => ⟨hfind, h.symm⟩, fun h => h.2.symm⟩

/-- A target is known if and only if it has a printer. -/
theorem mem_targets {target : String} : target ∈ r.targets ↔ ∃ printer, r.get target = .ok printer := by
  cases hget : r.get target with
  | ok printer =>
    refine iff_of_true ?_ ⟨printer, rfl⟩
    by_contra hnot
    rw [get_eq_error.2 ⟨hnot, rfl⟩] at hget
    cases hget
  | error e => exact iff_of_false (get_eq_error.1 hget).1 fun h => nomatch h

/-! ## Answers -/

/-- A printer is refused if its target has one, and otherwise comes last. -/
theorem register_eq (r : Registry) (p : Printer) : r.register p =
    if p.target ∈ r.targets then .error (.duplicate p.target) else .ok ⟨r.printers ++ [p]⟩ := by
  simp only [register, List.contains_iff_mem]

theorem answer_register (r : Registry) (p : Printer) : r.answer (.register p) =
    if p.target ∈ r.targets then (.refused (.duplicate p.target), r) else (.registered, ⟨r.printers ++ [p]⟩) := by
  rw [answer, register_eq]
  by_cases hp : p.target ∈ r.targets
  · rw [if_pos hp, if_pos hp]
  · rw [if_neg hp, if_neg hp]

theorem answer_extend (r : Registry) (p : Printer) : r.answer (.extend p) =
    if p.target ∈ r.targets then (.refused (.duplicate p.target), {}) else (.registered, ⟨r.printers ++ [p]⟩) := by
  rw [answer, register_eq]
  by_cases hp : p.target ∈ r.targets
  · rw [if_pos hp, if_pos hp]
  · rw [if_neg hp, if_neg hp]

theorem answer_get (r : Registry) (target : String) : r.answer (.get target) =
    match r.printers.find? (·.target = target) with
    | some p => (.found p, r)
    | none => (.refused (.unknown target r.targets), r) := by
  rw [answer, get]
  cases r.printers.find? (·.target = target) <;> rfl

/-! ## The history of a session -/

/-- The printers that were offered since the registry was last lost, when another request comes behind them. The
registry is lost when it is given away for a target that it has a printer for. -/
def offers (ps : List Printer) : RegistryRequest → List Printer
  | .register p => ps ++ [p]
  | .extend p => if p.target ∈ ps.map (·.target) then [] else ps ++ [p]
  | .get _ | .targets | .print _ => ps

/-- The printers that were offered in a session since the registry was last lost, refused ones included. -/
def offered (qs : List RegistryRequest) : List Printer :=
  qs.foldl offers []

/-- The registry holds the first printer of each target. -/
structure Holds (r : Registry) (ps : List Printer) : Prop where
  nodup : r.targets.Nodup
  targets : r.targets = (ps.map (·.target)).eraseDups
  find : ∀ target, r.printers.find? (·.target = target) = ps.find? (·.target = target)

theorem holds_nil : Holds {} [] :=
  ⟨List.nodup_nil, rfl, fun _ => rfl⟩

theorem Holds.mem_targets (h : Holds r ps) {target : String} : target ∈ r.targets ↔ target ∈ ps.map (·.target) := by
  rw [h.targets, List.mem_eraseDups]

/-- What is found is the first offer for a target, and there is one for every target in the list. -/
theorem Holds.isSome_find (h : Holds r ps) (target : String) :
    target ∈ r.targets ↔ (ps.find? (·.target = target)).isSome = true := by
  rw [h.mem_targets, List.find?_isSome, List.mem_map]
  simp only [decide_eq_true_eq]

/-- One more element at the end of a list without its repetitions. -/
theorem eraseDups_append_singleton (as : List String) (a : String) :
    (as ++ [a]).eraseDups = if a ∈ as then as.eraseDups else as.eraseDups ++ [a] := by
  rw [List.eraseDups_append, List.removeAll]
  by_cases ha : a ∈ as
  · rw [if_pos ha, List.filter_cons_of_neg (by simpa using ha), List.filter_nil, List.eraseDups_nil, List.append_nil]
  · rw [if_neg ha, List.filter_cons_of_pos (by simpa using ha), List.filter_nil, List.eraseDups_cons]
    rfl

/-- An offer for a target that has a printer changes nothing. -/
theorem Holds.of_mem {p : Printer} (h : Holds r ps) (hp : p.target ∈ r.targets) : Holds r (ps ++ [p]) := by
  refine ⟨h.nodup, ?_, fun target => ?_⟩
  · rw [List.map_append, List.map_singleton, eraseDups_append_singleton, if_pos (h.mem_targets.1 hp), h.targets]
  · rw [h.find, List.find?_append]
    by_cases htarget : p.target = target
    · obtain ⟨q, hq⟩ := Option.isSome_iff_exists.1 ((h.isSome_find p.target).1 hp)
      rw [← htarget, hq, Option.some_or]
    · rw [List.find?_cons_of_neg (by simpa using htarget), List.find?_nil, Option.or_none]

/-- An offer for another target comes last. -/
theorem Holds.of_notMem {p : Printer} (h : Holds r ps) (hp : p.target ∉ r.targets) :
    Holds ⟨r.printers ++ [p]⟩ (ps ++ [p]) := by
  have htargets : Registry.targets ⟨r.printers ++ [p]⟩ = r.targets ++ [p.target] := List.map_append
  refine ⟨?_, ?_, fun target => ?_⟩
  · rw [htargets]
    exact List.Nodup.append h.nodup (List.nodup_singleton _) (List.disjoint_singleton.2 hp)
  · rw [List.map_append, List.map_singleton, eraseDups_append_singleton, if_neg (h.mem_targets.not.1 hp), htargets,
      h.targets]
  · rw [List.find?_append, List.find?_append, h.find]

/-- **A request keeps the view.** -/
theorem Holds.answer (h : Holds r ps) (q : RegistryRequest) : Holds (r.answer q).2 (offers ps q) := by
  cases q with
  | register p =>
    rw [answer_register, offers]
    split
    · exact h.of_mem ‹_›
    · exact h.of_notMem ‹_›
  | extend p =>
    rw [answer_extend, offers]
    by_cases hp : p.target ∈ r.targets
    · rw [if_pos hp, if_pos (h.mem_targets.1 hp)]
      exact holds_nil
    · rw [if_neg hp, if_neg (h.mem_targets.not.1 hp)]
      exact h.of_notMem hp
  | get target =>
    rw [answer_get]
    split <;> exact h
  | targets | print x => exact h

/-- A session keeps the view. -/
theorem Holds.session (h : Holds r ps) (qs : List RegistryRequest) : Holds (r.session qs).2 (qs.foldl offers ps) := by
  induction qs generalizing r ps with
  | nil => exact h
  | cons q qs ih => exact ih (h.answer q)

/-- **What a registry answers** after any session that started with none of the printers. It lists each target once, in
the order in which they were first offered since the registry was last lost; it refuses a printer exactly if it lists
the target, and is then unchanged unless it was given away; it finds the printer that was offered first for a target,
and otherwise names all targets. -/
theorem session_offered (qs : List RegistryRequest) :
    let r := (session {} qs).2
    r.targets.Nodup ∧ r.targets = ((offered qs).map (·.target)).eraseDups ∧
      (∀ p, r.answer (.register p) =
        if p.target ∈ r.targets then (.refused (.duplicate p.target), r) else (.registered, ⟨r.printers ++ [p]⟩)) ∧
      (∀ p, r.answer (.extend p) =
        if p.target ∈ r.targets then (.refused (.duplicate p.target), {}) else (.registered, ⟨r.printers ++ [p]⟩)) ∧
      (∀ target, (target ∈ r.targets ↔ ((offered qs).find? (·.target = target)).isSome = true) ∧
        r.answer (.get target) =
          match (offered qs).find? (·.target = target) with
          | some p => (.found p, r)
          | none => (.refused (.unknown target r.targets), r)) ∧
      r.answer .targets = (.listed r.targets, r) ∧
      (∀ x, r.answer (.print x) = (.printed (r.printers.map (·.print x)), r)) ∧
      r.size = r.targets.length ∧ (r.isEmpty = true ↔ r.size = 0) := by
  intro r
  have h : Holds r (offered qs) := holds_nil.session qs
  refine ⟨h.nodup, h.targets, answer_register r, answer_extend r, fun target => ⟨h.isSome_find target, ?_⟩, rfl,
    fun _ => rfl, ?_, ?_⟩
  · rw [answer_get, h.find]
  · rw [size, targets, List.length_map]
  · rw [isEmpty, size, List.isEmpty_iff, List.length_eq_zero_iff]

end TableExport.Registry
