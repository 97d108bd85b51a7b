import Mathlib.Data.List.TakeWhile

/-!
# Runs

A run of `p` at the front of a list is maximal when what follows it does not
begin with an element of `p`. Cutting a list into a maximal run and the rest
can be done in one way only, the way `takeWhile` and `dropWhile` do it.
-/

namespace Flowchart

variable {α : Type} {p : α → Bool}

/-- `xs` does not begin with an element of `p`. -/
def Stops (p : α → Bool) (xs : List α) : Prop := ∀ x ∈ xs.head?, p x = false

@[simp] theorem stops_nil : Stops p [] := by simp [Stops]

@[simp] theorem stops_cons {x : α} {xs : List α} : Stops p (x :: xs) ↔ p x = false := by
  simp [Stops]

theorem stops_dropWhile (p : α → Bool) (xs : List α) : Stops p (xs.dropWhile p) := by
  induction xs with
  | nil => simp
  | cons x xs ih =>
    by_cases h : p x
    · simpa [h] using ih
    · simp [h]

theorem Stops.takeWhile_eq {xs : List α} (h : Stops p xs) : xs.takeWhile p = [] := by
  cases xs with
  | nil => rfl
  | cons x xs => rw [List.takeWhile_cons_of_neg (by simp [stops_cons.1 h])]

theorem Stops.dropWhile_eq {xs : List α} (h : Stops p xs) : xs.dropWhile p = xs := by
  cases xs with
  | nil => rfl
  | cons x xs => rw [List.dropWhile_cons_of_neg (by simp [stops_cons.1 h])]

theorem takeWhile_run {xs ys : List α} (hx : ∀ x ∈ xs, p x = true) (hy : Stops p ys) :
    (xs ++ ys).takeWhile p = xs := by
  rw [List.takeWhile_append_of_pos hx, hy.takeWhile_eq, List.append_nil]

theorem dropWhile_run {xs ys : List α} (hx : ∀ x ∈ xs, p x = true) (hy : Stops p ys) :
    (xs ++ ys).dropWhile p = ys := by
  rw [List.dropWhile_append_of_pos hx, hy.dropWhile_eq]

/-- A list has a maximal run at its front. -/
theorem exists_run (p : α → Bool) (xs : List α) :
    ∃ ys zs, xs = ys ++ zs ∧ (∀ y ∈ ys, p y = true) ∧ Stops p zs :=
  ⟨xs.takeWhile p, xs.dropWhile p, List.takeWhile_append_dropWhile.symm,
    fun _ => List.mem_takeWhile_imp, stops_dropWhile p xs⟩

/-- It has no other one. -/
theorem run_unique {xs xs' ys ys' : List α} (hx : ∀ x ∈ xs, p x = true) (hy : Stops p ys)
    (hx' : ∀ x ∈ xs', p x = true) (hy' : Stops p ys') (h : xs ++ ys = xs' ++ ys') :
    xs = xs' ∧ ys = ys' := by
  constructor
  · rw [← takeWhile_run hx hy, h, takeWhile_run hx' hy']
  · rw [← dropWhile_run hx hy, h, dropWhile_run hx' hy']

end Flowchart
