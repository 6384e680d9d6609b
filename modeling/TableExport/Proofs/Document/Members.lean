import Mathlib.Data.List.Pairwise
import TableExport.Proofs.Document.Part

/-!
# The members of a record

What a record is taken for does not depend on how its object is spelled: not on the order of the members, not on members
with unknown names, and not on whether a member with a default is there. An array of the fields says the same as the
object with their names.

- `take` takes one member in, and `take_comm` says that two of them can be taken in in any order.
- `decodeRecord_perm`, `decodeRecord_unknown`, `decodeRecord_member`, `decodeRecord_default` and `decodeRecord_array` say
  what can be changed in a record.
-/

namespace TableExport.Document

open TableExport.Json

variable {σ : Type} {rows : List (Row σ)} {form : (p : Part) → Form p.Sem} {state start : σ} {r r' : Row σ}
  {v v' : Outline} {m m' : Option String × Outline} {ms ms' ns : List (Option String × Outline)}

/-- The fields of a record whose parts have these forms. -/
def formFields (form : (p : Part) → Form p.Sem) (rows : List (Row σ)) : List (FormField σ) :=
  rows.map (Row.formField form)

/-- Takes a member in. -/
def take (form : (p : Part) → Form p.Sem) (rows : List (Row σ)) (state : σ) (m : Option String × Outline) : Option σ :=
  takeMember (takeKnown (formFields form rows)) state m

/-- Takes a value in as the field, if that is not set. -/
def Row.put (form : (p : Part) → Form p.Sem) (r : Row σ) (state : σ) (v : Outline) : Option σ :=
  if (r.get state).isSome then none else ((form r.part).decode v).map (r.set state)

/-- Takes members in. -/
def takeAll (form : (p : Part) → Form p.Sem) (rows : List (Row σ)) (state : σ) (ms : List (Option String × Outline)) :
    Option σ :=
  ms.foldlM (take form rows) state

/-- The members that the items of an array stand for. -/
def labelled (rows : List (Row σ)) (vs : List Outline) : List (Option String × Outline) :=
  List.zipWith (fun r v => (some r.name, v)) rows vs

instance : Std.Symm (@Row.Independent σ) := ⟨fun _ _ h => h.symm⟩

section

variable (hrows : rows.Pairwise Row.Independent)
include hrows

/-! ## One member -/

theorem independent_of_ne (hr : r ∈ rows) (hr' : r' ∈ rows) (hne : r ≠ r') : r.Independent r' :=
  hrows.forall hr hr' hne

theorem eq_of_name_eq (hr : r ∈ rows) (hr' : r' ∈ rows) (h : r.name = r'.name) : r = r' := by
  by_contra hne
  exact (independent_of_ne hrows hr hr' hne).name_ne h

/-- A member with the name of a field is put into it. -/
theorem take_row (hr : r ∈ rows) (v : Outline) : take form rows state (some r.name, v) = r.put form state v := by
  have hfind : rows.find? (fun r' => r'.name = r.name) = some r := by
    cases h : rows.find? (fun r' => r'.name = r.name) with
    | none => simpa using List.find?_eq_none.1 h r hr
    | some r' =>
      have hname := List.find?_some h
      rw [eq_of_name_eq hrows (List.mem_of_find?_eq_some h) hr (by simpa using hname)]
  have hfield : (formFields form rows).find? (·.name = r.name) = some (r.formField form) := by
    rw [formFields, List.find?_map]
    exact congrArg (Option.map (Row.formField form)) hfind
  rw [take, takeMember, Option.bind_some]
  simp only [takeKnown, hfield]
  rfl

omit hrows in
/-- A member with an unknown name is passed. -/
theorem take_unknown {name : String} (h : ∀ r ∈ rows, r.name ≠ name) (v : Outline) :
    take form rows state (some name, v) = some state := by
  have hfield : (formFields form rows).find? (·.name = name) = none := by
    rw [List.find?_eq_none, formFields, List.forall_mem_map]
    intro r hr
    exact fun hname => h r hr (of_decide_eq_true hname)
  rw [take, takeMember, Option.bind_some]
  simp only [takeKnown, hfield]

omit hrows in
/-- A member has a name that cannot be decoded, an unknown name, or the name of a field. -/
theorem member_cases (rows : List (Row σ)) (m : Option String × Outline) :
    m.1 = none ∨ (∃ name v, m = (some name, v) ∧ ∀ r ∈ rows, r.name ≠ name) ∨
      ∃ r ∈ rows, ∃ v, m = (some r.name, v) := by
  obtain ⟨name, v⟩ := m
  cases name with
  | none => exact .inl rfl
  | some name =>
    by_cases h : ∃ r ∈ rows, r.name = name
    · obtain ⟨r, hr, rfl⟩ := h
      exact .inr (.inr ⟨r, hr, v, rfl⟩)
    · exact .inr (.inl ⟨name, v, rfl, fun r hr hname => h ⟨r, hr, hname⟩⟩)

omit hrows in
theorem put_eq_some {state' : σ} : r.put form state v = some state' ↔
    r.get state = none ∧ ∃ a, (form r.part).decode v = some a ∧ r.set state a = state' := by
  rw [Row.put]
  cases r.get state with
  | none => simp [Option.map_eq_some_iff]
  | some a => simp

omit hrows in
/-- A field that is set takes nothing more in. -/
theorem put_put (v v' : Outline) : (r.put form state v).bind (fun state => r.put form state v') = none := by
  rw [Option.bind_eq_none_iff]
  intro state' h
  obtain ⟨-, a, -, rfl⟩ := put_eq_some.1 h
  rw [Row.put, r.get_set]
  rfl

omit hrows in
/-- Independent fields can be put in in any order. -/
theorem put_comm (h : r.Independent r') (v v' : Outline) :
    (r.put form state v).bind (fun state => r'.put form state v') =
      (r'.put form state v').bind fun state => r.put form state v := by
  ext final
  simp only [Option.bind_eq_some_iff, put_eq_some]
  constructor
  · rintro ⟨_, ⟨hget, a, ha, rfl⟩, hget', b, hb, rfl⟩
    rw [h.get_right] at hget'
    exact ⟨_, ⟨hget', b, hb, rfl⟩, by rwa [h.get_left], a, ha, (h.set_comm state a b).symm⟩
  · rintro ⟨_, ⟨hget', b, hb, rfl⟩, hget, a, ha, rfl⟩
    rw [h.get_left] at hget
    exact ⟨_, ⟨hget, a, ha, rfl⟩, by rwa [h.get_right], b, hb, h.set_comm state a b⟩

/-- **Two members** can be taken in in any order. -/
theorem take_comm (m m' : Option String × Outline) :
    (take form rows state m).bind (fun state => take form rows state m') =
      (take form rows state m').bind fun state => take form rows state m := by
  have hnone {m : Option String × Outline} (h : m.1 = none) (state : σ) : take form rows state m = none := by
    rw [take, takeMember, h, Option.bind_none]
  rcases member_cases rows m with h | ⟨name, v, rfl, h⟩ | ⟨r, hr, v, rfl⟩
  · simp only [hnone h, Option.bind_none, Option.bind_fun_none]
  · simp only [take_unknown h, Option.bind_some, Option.bind_fun_some]
  · rcases member_cases rows m' with h' | ⟨name, v', rfl, h'⟩ | ⟨r', hr', v', rfl⟩
    · simp only [hnone h', Option.bind_none, Option.bind_fun_none]
    · simp only [take_unknown h', Option.bind_some, Option.bind_fun_some]
    · simp only [take_row hrows hr, take_row hrows hr']
      by_cases heq : r = r'
      · subst heq
        rw [put_put, put_put]
      · exact put_comm (independent_of_ne hrows hr hr' heq) v v'

/-! ## All members -/

theorem takeAll_perm (h : ms.Perm ms') (state : σ) : takeAll form rows state ms = takeAll form rows state ms' := by
  unfold takeAll
  induction h generalizing state with
  | nil => rfl
  | cons m _ ih => simp only [List.foldlM_cons, ih]
  | swap m m' ms =>
    simp only [List.foldlM_cons, Option.bind_eq_bind]
    rw [← Option.bind_assoc, ← Option.bind_assoc, take_comm hrows]
  | trans _ _ ih ih' => rw [ih, ih']

/-- A member leaves the fields with other names alone. -/
theorem get_take {state' : σ} (hr : r ∈ rows) (hm : m.1 ≠ some r.name) (h : take form rows state m = some state') :
    r.get state' = r.get state := by
  rcases member_cases rows m with hnone | ⟨name, v, rfl, hunknown⟩ | ⟨r', hr', v, rfl⟩
  · rw [take, takeMember, hnone] at h
    cases h
  · rw [take_unknown hunknown] at h
    cases h
    rfl
  · rw [take_row hrows hr'] at h
    obtain ⟨-, a, -, rfl⟩ := put_eq_some.1 h
    have hne : r ≠ r' := by
      rintro rfl
      exact hm rfl
    exact (independent_of_ne hrows hr hr' hne).get_left state a

theorem get_takeAll {final : σ} (hr : r ∈ rows) (hms : ∀ m ∈ ms, m.1 ≠ some r.name)
    (h : takeAll form rows state ms = some final) : r.get final = r.get state := by
  induction ms generalizing state with
  | nil =>
    cases h
    rfl
  | cons m ms ih =>
    rw [takeAll, List.foldlM_cons, Option.bind_eq_bind, Option.bind_eq_some_iff] at h
    obtain ⟨state', hm, h⟩ := h
    rw [ih (fun m hm => hms m (List.mem_cons_of_mem _ hm)) h, get_take hrows hr (hms m List.mem_cons_self) hm]

/-! ## Records -/

omit hrows in
theorem decodeRecord_object (ms : List (Option String × Outline)) :
    decodeRecord (formFields form rows) start (.object ms) =
      (takeAll form rows start ms).filter (complete (formFields form rows)) := rfl

/-- **The order of the members** does not matter. -/
theorem decodeRecord_perm (h : ms.Perm ms') : decodeRecord (formFields form rows) start (.object ms) =
    decodeRecord (formFields form rows) start (.object ms') := by
  rw [decodeRecord_object, decodeRecord_object, takeAll_perm hrows h]

omit hrows in
/-- **Members with unknown names** do not matter. -/
theorem decodeRecord_unknown {name : String} (h : ∀ r ∈ rows, r.name ≠ name) :
    decodeRecord (formFields form rows) start (.object (ms ++ (some name, v) :: ns)) =
      decodeRecord (formFields form rows) start (.object (ms ++ ns)) := by
  have htake (state : σ) : takeAll form rows state ((some name, v) :: ns) = takeAll form rows state ns := by
    rw [takeAll, List.foldlM_cons, take_unknown h]
    rfl
  rw [decodeRecord_object, decodeRecord_object, takeAll, takeAll, List.foldlM_append, List.foldlM_append]
  exact congrArg (Option.filter _) (congrArg _ (funext htake))

/-- **The value of a field** matters only as far as its form goes. -/
theorem decodeRecord_member (hr : r ∈ rows) (h : (form r.part).decode v = (form r.part).decode v') :
    decodeRecord (formFields form rows) start (.object (ms ++ (some r.name, v) :: ns)) =
      decodeRecord (formFields form rows) start (.object (ms ++ (some r.name, v') :: ns)) := by
  have htake (state : σ) : takeAll form rows state ((some r.name, v) :: ns) =
      takeAll form rows state ((some r.name, v') :: ns) := by
    rw [takeAll, takeAll, List.foldlM_cons, List.foldlM_cons, take_row hrows hr, take_row hrows hr, Row.put, Row.put, h]
  rw [decodeRecord_object, decodeRecord_object, takeAll, takeAll, List.foldlM_append, List.foldlM_append]
  exact congrArg (Option.filter _) (congrArg _ (funext htake))

omit hrows in
theorem complete_eq_true : complete (formFields form rows) state = true ↔
    ∀ r ∈ rows, r.defaults = [] → (r.get state).isSome = true := by
  rw [complete, List.all_eq_true, formFields, List.forall_mem_map]
  refine forall₂_congr fun r _ => ?_
  show (!r.defaults.isEmpty || (r.get state).isSome) = true ↔ _
  cases r.defaults <;> simp

/-- A field with a default can be put in without completing anything. -/
theorem complete_set (hr : r ∈ rows) (hdefault : r.defaults ≠ []) (a : r.part.Sem) :
    complete (formFields form rows) (r.set state a) = complete (formFields form rows) state := by
  rw [Bool.eq_iff_iff, complete_eq_true, complete_eq_true]
  refine forall₂_congr fun r' hr' => ?_
  by_cases heq : r' = r
  · subst heq
    exact ⟨fun _ h => absurd h hdefault, fun _ h => absurd h hdefault⟩
  · rw [(independent_of_ne hrows hr' hr heq).get_left]

/-- **A default** can be written out. -/
theorem decodeRecord_default {τ : Type} {finish : σ → τ} {a : r.part.Sem} (hr : r ∈ rows) (hdefault : r.defaults ≠ [])
    (hstart : r.get start = none) (hms : ∀ m ∈ ms, m.1 ≠ some r.name) (hv : (form r.part).decode v = some a)
    (hfinish : ∀ state, r.get state = none → finish (r.set state a) = finish state) :
    (decodeRecord (formFields form rows) start (.object ((some r.name, v) :: ms))).map finish =
      (decodeRecord (formFields form rows) start (.object ms)).map finish := by
  rw [decodeRecord_perm hrows (List.perm_append_singleton _ _).symm, decodeRecord_object, decodeRecord_object]
  have hlast : takeAll form rows start (ms ++ [(some r.name, v)]) =
      (takeAll form rows start ms).map fun state => r.set state a := by
    rw [takeAll, List.foldlM_append]
    show (takeAll form rows start ms).bind _ = _
    cases htake : takeAll form rows start ms with
    | none => rfl
    | some state =>
      have hget : r.get state = none := (get_takeAll hrows hr hms htake).trans hstart
      show (take form rows state (some r.name, v)).bind some = _
      rw [take_row hrows hr, Row.put, hget, hv]
      rfl
  rw [hlast]
  cases htake : takeAll form rows start ms with
  | none => rfl
  | some state =>
    have hget : r.get state = none := (get_takeAll hrows hr hms htake).trans hstart
    have hcomplete : complete (formFields form rows) (r.set state a) = complete (formFields form rows) state :=
      complete_set hrows hr hdefault a
    simp only [Option.map_some, Option.filter_some, hcomplete]
    split
    · exact congrArg some (hfinish state hget)
    · rfl

/-- The fields that are left take the items that are left. -/
theorem takeItems_eq {before after : List (Row σ)} {vs : List Outline} (hsplit : rows = before ++ after)
    (hbefore : ∀ r ∈ before, r.defaults = [] → (r.get state).isSome = true) (hafter : ∀ r ∈ after, r.get state = none)
    (hvs : vs.length ≤ after.length) :
    (takeAll form rows state (labelled after vs)).filter (complete (formFields form rows)) =
      takeItems (formFields form after) state vs := by
  induction after generalizing before state vs with
  | nil =>
    obtain rfl : vs = [] := List.eq_nil_of_length_eq_zero (Nat.le_zero.1 hvs)
    rw [List.append_nil] at hsplit
    subst hsplit
    exact (Option.filter_some_pos (complete_eq_true.2 hbefore))
  | cons r after ih =>
    have hsplit' : rows = (before ++ [r]) ++ after := by rw [hsplit, List.append_assoc, List.singleton_append]
    have hr : r ∈ rows := hsplit ▸ List.mem_append_right _ List.mem_cons_self
    obtain ⟨hget, hafter⟩ := List.forall_mem_cons.1 hafter
    cases vs with
    | nil =>
      show _ = if (!r.defaults.isEmpty) = true then takeItems (formFields form after) state [] else none
      by_cases hdefault : r.defaults = []
      · rw [if_neg (by simp [hdefault])]
        refine Option.filter_some_neg (Bool.eq_false_iff.2 fun hcomplete => ?_)
        have hset := complete_eq_true.1 hcomplete r hr hdefault
        rw [hget] at hset
        cases hset
      · have hbefore' : ∀ r' ∈ before ++ [r], r'.defaults = [] → (r'.get state).isSome = true := by
          simp only [List.forall_mem_append, List.forall_mem_singleton]
          exact ⟨hbefore, fun h => absurd h hdefault⟩
        rw [if_pos (by simpa using hdefault), ← ih hsplit' hbefore' hafter (Nat.zero_le _), labelled, labelled,
          List.zipWith_nil_right, List.zipWith_nil_right]
    | cons v vs =>
      show (takeAll form rows state ((some r.name, v) :: labelled after vs)).filter _ =
        (((form r.part).decode v).map (r.set state)).bind fun state => takeItems (formFields form after) state vs
      rw [takeAll, List.foldlM_cons, take_row hrows hr, Row.put, hget]
      cases (form r.part).decode v with
      | none => rfl
      | some a =>
        have hpair := hrows
        rw [hsplit, List.pairwise_append, List.pairwise_cons] at hpair
        obtain ⟨-, ⟨hindependent, -⟩, hacross⟩ := hpair
        refine ih hsplit' ?_ (fun r' hr' => ?_) (Nat.le_of_succ_le_succ hvs)
        · simp only [List.forall_mem_append, List.forall_mem_singleton]
          refine ⟨fun r' hr' h => ?_, fun _ => by rw [r.get_set]; rfl⟩
          rw [(hacross r' hr' r List.mem_cons_self).get_left]
          exact hbefore r' hr' h
        · rw [(hindependent r' hr').get_right]
          exact hafter r' hr'

/-- **An array** of the fields says the same as the object with their names. -/
theorem decodeRecord_array {vs : List Outline} (hstart : ∀ r ∈ rows, r.get start = none) (hvs : vs.length ≤ rows.length) :
    decodeRecord (formFields form rows) start (.object (labelled rows vs)) =
      decodeRecord (formFields form rows) start (.array vs) := by
  have hnone : ∀ r ∈ ([] : List (Row σ)), r.defaults = [] → (r.get start).isSome = true := fun _ h => nomatch h
  exact takeItems_eq hrows (List.nil_append rows).symm hnone hstart hvs

end

end TableExport.Document
