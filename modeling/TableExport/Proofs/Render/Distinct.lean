import Mathlib.Data.List.Infix
import Mathlib.Data.List.Nodup
import TableExport.Printer.Basic

/-!
# Names that occur once

What goes through names keeps those that it has seen and stops at one of them. If it does not stop, the names are
distinct, and none of them was seen before.

- `Distinct` says that of a list of names; `distinct_cons` and `Distinct.append` follow the lists of names that were
  seen.
- `firstRepeat?` is the element at which it stops, described without the names that were seen.
- `nameClash?_eq` and `distinct_of_nameClash?` are about the tables of an output.
-/

namespace TableExport

/-- The names are distinct, and none of them is taken. -/
def Distinct (taken names : List String) : Prop :=
  names.Nodup ∧ ∀ x ∈ names, x ∉ taken

section Distinct

variable {taken xs ys : List String} {x : String}

theorem distinct_nil : Distinct taken [] :=
  ⟨List.nodup_nil, fun _ h => by cases h⟩

/-- Where no name is taken. -/
theorem distinct_iff_nodup : Distinct [] xs ↔ xs.Nodup := by
  simp [Distinct]

/-- The first name is not taken, and is taken for the others. -/
theorem distinct_cons : Distinct taken (x :: xs) ↔ x ∉ taken ∧ Distinct (x :: taken) xs := by
  unfold Distinct
  rw [List.nodup_cons]
  constructor
  · rintro ⟨⟨hx, hxs⟩, htaken⟩
    refine ⟨htaken x List.mem_cons_self, hxs, fun y hy hmem => ?_⟩
    rcases List.mem_cons.1 hmem with rfl | hmem
    · exact hx hy
    · exact htaken y (List.mem_cons_of_mem x hy) hmem
  · rintro ⟨hx, hxs, htaken⟩
    refine ⟨⟨fun hmem => htaken x hmem List.mem_cons_self, hxs⟩, fun y hy hmem => ?_⟩
    rcases List.mem_cons.1 hy with rfl | hy
    · exact hx hmem
    · exact htaken y hy (List.mem_cons_of_mem x hmem)

theorem Distinct.mono {taken' : List String} (h : Distinct taken xs) (hsub : taken' ⊆ taken) : Distinct taken' xs :=
  ⟨h.1, fun x hx hmem => h.2 x hx (hsub hmem)⟩

/-- It does not matter in which order the names are taken, and how often. -/
theorem distinct_congr {taken' : List String} (h : ∀ x, x ∈ taken ↔ x ∈ taken') :
    Distinct taken xs ↔ Distinct taken' xs :=
  and_congr_right fun _ => forall₂_congr fun x _ => not_congr (h x)

/-- Names behind others that are taken by then. -/
theorem Distinct.append (h : Distinct taken xs) (h' : Distinct (xs ++ taken) ys) : Distinct taken (xs ++ ys) := by
  refine ⟨List.nodup_append'.2 ⟨h.1, h'.1, fun x hx hy => ?_⟩, fun x hx => ?_⟩
  · exact h'.2 x hy (List.mem_append_left _ hx)
  · rcases List.mem_append.1 hx with hx | hx
    · exact h.2 x hx
    · exact fun hmem => h'.2 x hx (List.mem_append_right _ hmem)

/-- The name that is taken can stand behind the others. -/
theorem Distinct.nodup_append (h : Distinct [x] xs) : (xs ++ [x]).Nodup :=
  List.nodup_append'.2 ⟨h.1, List.nodup_singleton x, fun y hy hmem => h.2 y hy hmem⟩

end Distinct

/-! ## The first repetition -/

section Front

variable {α : Type} {name : α → String} {taken : List String}

/-- Every element of a list, with the elements in front of it. -/
def withFront (as : List α) : List (List α × α) :=
  as.inits.zip as

theorem withFront_cons (a : α) (as : List α) :
    withFront (a :: as) = ([], a) :: (withFront as).map fun x => (a :: x.1, x.2) := by
  rw [withFront, List.inits_cons, List.zip_cons_cons, List.zip_map_left]
  rfl

theorem map_snd_withFront (as : List α) : (withFront as).map Prod.snd = as := by
  rw [withFront, List.map_snd_zip (by simp)]

theorem withFront_append (as bs : List α) :
    withFront (as ++ bs) = withFront as ++ (withFront bs).map fun x => (as ++ x.1, x.2) := by
  induction as with
  | nil => simp [withFront]
  | cons a as ih =>
    rw [List.cons_append, withFront_cons, ih, withFront_cons, List.map_append, List.map_map, List.cons_append]
    rfl

/-- What is found first is found for an element, and not for those in front of it. -/
theorem findSome?_withFront_eq_some {β : Type} {f : List α × α → Option β} {as : List α} {b : β} :
    (withFront as).findSome? f = some b ↔
      ∃ front a back, as = front ++ a :: back ∧ f (front, a) = some b ∧ (withFront front).findSome? f = none := by
  have hfront (front back : List α) (a : α) : withFront (front ++ a :: back) = withFront front ++ (front, a) ::
      (withFront back).map fun x => (front ++ a :: x.1, x.2) := by
    rw [withFront_append, withFront_cons, List.map_cons, List.append_nil, List.map_map]
    rfl
  rw [List.findSome?_eq_some_iff]
  constructor
  · rintro ⟨xs, ⟨front, a⟩, ys, hsplit, hb, hxs⟩
    -- the elements in front are those that stand before it in the list of elements with their fronts
    have has : as = xs.map Prod.snd ++ a :: ys.map Prod.snd := by
      rw [← map_snd_withFront as, hsplit, List.map_append, List.map_cons]
    have hlength : (withFront (xs.map Prod.snd)).length = xs.length := by
      rw [← List.length_map (f := Prod.snd), map_snd_withFront, List.length_map]
    rw [has, hfront] at hsplit
    obtain ⟨hxs', hrest⟩ := List.append_inj hsplit hlength
    obtain ⟨ha, -⟩ := List.cons.inj hrest
    cases ha
    refine ⟨_, a, _, has, hb, ?_⟩
    rwa [hxs', List.findSome?_eq_none_iff]
  · rintro ⟨front, a, back, rfl, hb, hnone⟩
    exact ⟨_, (front, a), _, hfront front back a, hb, List.findSome?_eq_none_iff.1 hnone⟩

/-- The element has a name that is taken, or that of an element in front of it. -/
def repeats (name : α → String) (taken : List String) (x : List α × α) : Bool :=
  (taken ++ x.1.map name).contains (name x.2)

theorem repeats_nil (a : α) : repeats name taken ([], a) = taken.contains (name a) := by
  simp [repeats]

theorem repeats_cons (a : α) (x : List α × α) :
    repeats name taken (a :: x.1, x.2) = repeats name (name a :: taken) x := by
  rw [Bool.eq_iff_iff]
  simp [repeats, or_left_comm]

/-- The first element with such a name. -/
def firstRepeat? (name : α → String) (taken : List String) (as : List α) : Option α :=
  ((withFront as).find? (repeats name taken)).map (·.2)

/-- It is the first element, or the first repetition behind it. -/
theorem firstRepeat?_cons (a : α) (as : List α) : firstRepeat? name taken (a :: as) =
    if taken.contains (name a) then some a else firstRepeat? name (name a :: taken) as := by
  have hrest : (repeats name taken ∘ fun x : List α × α => (a :: x.1, x.2)) = repeats name (name a :: taken) :=
    funext (repeats_cons a)
  rw [firstRepeat?, withFront_cons, List.find?_cons, repeats_nil]
  cases taken.contains (name a) with
  | true => rfl
  | false =>
    rw [List.find?_map, hrest, Option.map_map]
    rfl

/-- No name repeats if and only if they are distinct. -/
theorem firstRepeat?_eq_none {as : List α} : firstRepeat? name taken as = none ↔ Distinct taken (as.map name) := by
  induction as generalizing taken with
  | nil => exact ⟨fun _ => distinct_nil, fun _ => rfl⟩
  | cons a as ih =>
    rw [firstRepeat?_cons, List.map_cons, distinct_cons, ← ih]
    by_cases ha : name a ∈ taken <;> simp [ha]

/-- The first repetition has a name that is taken or in front of it, and is the first element of which that is so. -/
theorem firstRepeat?_eq_some {as : List α} {a : α} : firstRepeat? name taken as = some a ↔
    ∃ front back, as = front ++ a :: back ∧ name a ∈ taken ++ front.map name ∧ Distinct taken (front.map name) := by
  have hsome (as : List α) : firstRepeat? name taken as =
      (withFront as).findSome? fun x => if repeats name taken x then some x.2 else none := by
    rw [firstRepeat?, List.find?_eq_findSome?_guard, List.map_findSome?]
    congr 1
    funext x
    simp only [Function.comp_apply, Option.guard]
    split <;> rfl
  rw [hsome, findSome?_withFront_eq_some]
  simp only [← hsome, firstRepeat?_eq_none]
  simp only [repeats, List.contains_iff_mem, Option.ite_none_right_eq_some, Option.some.injEq]
  constructor
  · rintro ⟨front, a', back, has, ⟨ha, rfl⟩, hfront⟩
    exact ⟨front, back, has, ha, hfront⟩
  · rintro ⟨front, back, has, ha, hfront⟩
    exact ⟨front, a, back, has, ⟨ha, rfl⟩, hfront⟩

end Front

/-- **Tables clash** at the first repetition of a name. -/
theorem nameClash?_eq {tables : List Table} {taken : List String} : nameClash? taken tables =
    (firstRepeat? (·.name) taken tables).map fun t => .nameClash t.name .table := by
  induction tables generalizing taken with
  | nil => rfl
  | cons t ts ih =>
    rw [nameClash?, firstRepeat?_cons, ih]
    split <;> rfl

/-- Tables without a clash have distinct names. -/
theorem distinct_of_nameClash? {tables : List Table} {taken : List String} (h : nameClash? taken tables = none) :
    Distinct taken (tables.map (·.name)) := by
  rw [nameClash?_eq, Option.map_eq_none_iff] at h
  exact firstRepeat?_eq_none.1 h

end TableExport
