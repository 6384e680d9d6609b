import Mathlib.Data.List.Forall2

/-!
# Computations that can fail

- `bind_eq_ok` takes a computation of two parts apart where it succeeds, `mapM_eq_ok` one that goes through a list.
- `errorOf?` is what a computation fails with, if it fails; `errorOf?_mapM` and `mapM_eq_error` say where a list is
  left, which is the first element that something is found for (`findSome?_flatMap`).
-/

namespace TableExport

variable {ε α β : Type}

/-- Two parts succeed if and only if the first gives something with which the second succeeds. -/
theorem bind_eq_ok {x : Except ε α} {f : α → Except ε β} {b : β} :
    (x >>= f) = .ok b ↔ ∃ a, x = .ok a ∧ f a = .ok b := by
  cases x with
  | error e => simp [bind, Except.bind]
  | ok a => simp [bind, Except.bind]

/-- A check in front of a second part. -/
theorem check_bind_eq_ok {x : Except ε Unit} {f : Unit → Except ε β} {b : β} :
    (x >>= f) = .ok b ↔ x = .ok () ∧ f () = .ok b := by
  cases x with
  | error e => simp [bind, Except.bind]
  | ok u => simp [bind, Except.bind]

@[simp] theorem pure_eq_ok {a b : α} : (pure a : Except ε α) = .ok b ↔ a = b := by
  simp [pure, Except.pure]

/-- Going through a list succeeds if and only if every element does. -/
theorem mapM_eq_ok {f : α → Except ε β} :
    ∀ {as : List α} {bs : List β}, as.mapM f = .ok bs ↔ List.Forall₂ (fun a b => f a = .ok b) as bs
  | [], bs => by
    rw [List.mapM_nil, pure_eq_ok, List.forall₂_nil_left_iff, eq_comm]
  | a :: as, bs => by
    simp only [List.mapM_cons, bind_eq_ok, pure_eq_ok, List.forall₂_cons_left_iff, mapM_eq_ok]
    constructor
    · rintro ⟨b, hb, bs', hbs, rfl⟩
      exact ⟨b, bs', hb, hbs, rfl⟩
    · rintro ⟨b, bs', hb, hbs, rfl⟩
      exact ⟨b, hb, bs', hbs, rfl⟩

/-- Every element of a list that is related to another one is related to an element of that. -/
theorem exists_of_forall₂ {R : α → β → Prop} {as : List α} {bs : List β} (h : List.Forall₂ R as bs) :
    ∀ a ∈ as, ∃ b ∈ bs, R a b := by
  induction h with
  | nil => exact fun _ ha => nomatch ha
  | cons hab _ ih =>
    refine List.forall_mem_cons.2 ⟨⟨_, List.mem_cons_self, hab⟩, fun a ha => ?_⟩
    obtain ⟨b, hb, hab⟩ := ih a ha
    exact ⟨b, List.mem_cons_of_mem _ hb, hab⟩

/-- What is found first in lists put together is found first in one of them. -/
theorem findSome?_flatMap {α β γ : Type} (f : β → Option γ) (g : α → List β) (as : List α) :
    (as.flatMap g).findSome? f = as.findSome? fun a => (g a).findSome? f := by
  induction as with
  | nil => rfl
  | cons a as ih =>
    rw [List.flatMap_cons, List.findSome?_append, ih, List.findSome?_cons]
    cases (g a).findSome? f <;> rfl

theorem findSome?_congr {α β : Type} {f g : α → Option β} {as : List α} (h : ∀ a ∈ as, f a = g a) :
    as.findSome? f = as.findSome? g := by
  induction as with
  | nil => rfl
  | cons a as ih =>
    obtain ⟨ha, has⟩ := List.forall_mem_cons.1 h
    rw [List.findSome?_cons, List.findSome?_cons, ha, ih has]

/-- What a computation fails with. -/
def errorOf? : Except ε α → Option ε
  | .error e => some e
  | .ok _ => none

@[simp] theorem errorOf?_ok (a : α) : errorOf? (.ok a : Except ε α) = none := rfl

@[simp] theorem errorOf?_error (e : ε) : errorOf? (.error e : Except ε α) = some e := rfl

/-- A second part that does not fail. -/
theorem errorOf?_bind_pure (x : Except ε α) (f : α → β) : errorOf? (x >>= fun a => pure (f a)) = errorOf? x := by
  cases x <;> rfl

/-- Two parts fail with what the first fails with, or else with what the second does. -/
theorem errorOf?_bind_bind {γ : Type} (x : Except ε α) (y : Except ε β) (f : α → β → γ) :
    errorOf? (x >>= fun a => y >>= fun b => pure (f a b)) = (errorOf? x).or (errorOf? y) := by
  cases x with
  | error e => rfl
  | ok a => exact errorOf?_bind_pure y (f a)

/-- Going through a list fails where the first element does. -/
theorem errorOf?_mapM (f : α → Except ε β) (as : List α) :
    errorOf? (as.mapM f) = as.findSome? fun a => errorOf? (f a) := by
  induction as with
  | nil => rfl
  | cons a as ih =>
    rw [List.mapM_cons, errorOf?_bind_bind, List.findSome?_cons, ih]
    cases errorOf? (f a) <;> rfl

theorem errorOf?_eq_some {x : Except ε α} {e : ε} : errorOf? x = some e ↔ x = .error e := by
  cases x <;> simp

theorem errorOf?_eq_none {x : Except ε α} : errorOf? x = none ↔ ∃ a, x = .ok a := by
  cases x <;> simp

/-- Going through a list fails with what the first element that fails does. -/
theorem mapM_eq_error {f : α → Except ε β} {as : List α} {e : ε} :
    as.mapM f = .error e ↔
      ∃ before a after, as = before ++ a :: after ∧ (∀ b ∈ before, ∃ c, f b = .ok c) ∧ f a = .error e := by
  rw [← errorOf?_eq_some, errorOf?_mapM, List.findSome?_eq_some_iff]
  simp only [errorOf?_eq_some, errorOf?_eq_none]
  constructor
  · rintro ⟨before, a, after, h, ha, hbefore⟩
    exact ⟨before, a, after, h, hbefore, ha⟩
  · rintro ⟨before, a, after, h, hbefore, ha⟩
    exact ⟨before, a, after, h, ha, hbefore⟩

/-- Going through a list twice is going through it once if the first part succeeds everywhere. -/
theorem mapM_of_mapM {γ : Type} {f : α → Except ε β} {g : β → Except ε γ} {as : List α} {bs : List β}
    (h : as.mapM f = .ok bs) : bs.mapM g = as.mapM fun a => f a >>= g := by
  rw [mapM_eq_ok] at h
  induction h with
  | nil => rfl
  | cons ha _ ih =>
    rw [List.mapM_cons, List.mapM_cons, ih, ha]
    rfl

end TableExport
