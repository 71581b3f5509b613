import Mathlib.Data.List.Basic
import Mathlib.Tactic.Common

/-!
# Lines

The lines of a list, for an element that ends a line.  Each line keeps the element that ends it;
what is left behind the last one is a line too, without an end.

* `linesOf` : the lines.
* `firstLines`, `lastLines` : the first or the last `n` of them, joined.

## Main results

* `flatten_linesOf` : nothing is lost.
* `linesOf_append` : the lines of two parts, when the first is empty or ends with a line.
* `firstLines_cons` : the first lines can be read off from the front.
-/

namespace Ps4Dropbear

variable {α : Type*} [DecidableEq α] {a x : α} {l m : List α}

/-- The lines of a list, when `a` ends a line. -/
def linesOf (a : α) : List α → List (List α)
  | [] => []
  | x :: l =>
    if x = a then [x] :: linesOf a l
    else
      match linesOf a l with
      | [] => [[x]]
      | y :: ys => (x :: y) :: ys

/-- The first `n` lines, or all if there are fewer. -/
def firstLines (a : α) (n : ℕ) (l : List α) : List α := ((linesOf a l).take n).flatten

/-- The last `n` lines, or all if there are fewer. -/
def lastLines (a : α) (n : ℕ) (l : List α) : List α :=
  ((linesOf a l).drop ((linesOf a l).length - n)).flatten

theorem linesOf_cons_self : linesOf a (a :: l) = [a] :: linesOf a l := by
  rw [linesOf, if_pos rfl]

/-- An element that ends no line belongs to the first line of the rest. -/
theorem linesOf_cons_of_ne (hx : x ≠ a) :
    linesOf a (x :: l) = (x :: (linesOf a l).headD []) :: (linesOf a l).tail := by
  rw [linesOf, if_neg hx]
  cases linesOf a l <;> rfl

/-- **Nothing is lost.** -/
theorem flatten_linesOf (a : α) (l : List α) : (linesOf a l).flatten = l := by
  induction l with
  | nil => rfl
  | cons x l ih =>
    by_cases hx : x = a
    · subst hx
      rw [linesOf_cons_self, List.flatten_cons, ih]
      rfl
    · rw [linesOf_cons_of_ne hx, List.flatten_cons]
      cases hl : linesOf a l with
      | nil =>
        rw [hl] at ih
        simpa using ih
      | cons y ys =>
        rw [hl] at ih
        simpa using ih

theorem linesOf_eq_nil : linesOf a l = [] ↔ l = [] := by
  constructor
  · intro h
    rw [← flatten_linesOf a l, h]
    rfl
  · rintro rfl
    rfl

/-- The lines of two parts, when the first ends with a line. -/
theorem linesOf_append (l m : List α) :
    linesOf a (l ++ a :: m) = linesOf a (l ++ [a]) ++ linesOf a m := by
  induction l with
  | nil => simp [linesOf_cons_self, linesOf]
  | cons x l ih =>
    by_cases hx : x = a
    · subst hx
      simp only [List.cons_append, linesOf_cons_self, ih]
    · simp only [List.cons_append, linesOf_cons_of_ne hx, ih]
      -- the first part has a line, since it ends with one
      obtain ⟨y, ys, hy⟩ := List.exists_cons_of_ne_nil
        (mt linesOf_eq_nil.1 (List.append_ne_nil_of_right_ne_nil l (List.cons_ne_nil a [])))
      rw [hy]
      rfl

/-- What has no end is one line. -/
theorem linesOf_of_not_mem (hl : l ≠ []) (ha : a ∉ l) : linesOf a l = [l] := by
  induction l with
  | nil => exact absurd rfl hl
  | cons x l ih =>
    obtain ⟨hx, ha⟩ := not_or.1 (List.mem_cons.not.1 ha)
    rw [linesOf_cons_of_ne (Ne.symm hx)]
    cases l with
    | nil => rfl
    | cons y l =>
      rw [ih (List.cons_ne_nil y l) ha]
      rfl

/-- The first line, when its end is known. -/
theorem linesOf_append_end (ha : a ∉ l) (m : List α) :
    linesOf a (l ++ a :: m) = (l ++ [a]) :: linesOf a m := by
  induction l with
  | nil => exact linesOf_cons_self
  | cons x l ih =>
    obtain ⟨hx, ha⟩ := not_or.1 (List.mem_cons.not.1 ha)
    rw [List.cons_append, linesOf_cons_of_ne (Ne.symm hx), ih ha]
    rfl

/-- The first line starts with what has no end. -/
theorem exists_linesOf_append (ha : a ∉ l) (x : α) (m : List α) :
    ∃ y ys, linesOf a (l ++ x :: m) = (l ++ x :: y) :: ys := by
  induction l with
  | nil =>
    by_cases hx : x = a
    · subst hx
      exact ⟨[], _, linesOf_cons_self⟩
    · exact ⟨_, _, linesOf_cons_of_ne hx⟩
  | cons z l ih =>
    obtain ⟨hz, ha⟩ := not_or.1 (List.mem_cons.not.1 ha)
    obtain ⟨y, ys, h⟩ := ih ha
    refine ⟨y, ys, ?_⟩
    rw [List.cons_append, linesOf_cons_of_ne (Ne.symm hz), h]
    rfl

/-- Another element in front makes one more line only if it ends one. -/
theorem length_linesOf_cons (hl : l ≠ []) :
    (linesOf a (x :: l)).length = (linesOf a l).length + if x = a then 1 else 0 := by
  by_cases hx : x = a
  · subst hx
    rw [linesOf_cons_self, if_pos rfl, List.length_cons]
  · obtain ⟨y, ys, hy⟩ := List.exists_cons_of_ne_nil (mt linesOf_eq_nil.1 hl)
    rw [linesOf_cons_of_ne hx, if_neg hx, hy]
    rfl

/-- All of them, if there are not more. -/
theorem lastLines_of_le {n : ℕ} (h : (linesOf a l).length ≤ n) : lastLines a n l = l := by
  rw [lastLines, Nat.sub_eq_zero_of_le h, List.drop_zero, flatten_linesOf]

/-- As many as there are behind the end of a line. -/
theorem lastLines_append {n : ℕ} (h : (linesOf a m).length = n) (l : List α) :
    lastLines a n (l ++ a :: m) = m := by
  rw [lastLines, linesOf_append, List.length_append, h, Nat.add_sub_cancel,
    List.drop_left, flatten_linesOf]

@[simp] theorem firstLines_zero : firstLines a 0 l = [] := rfl

@[simp] theorem firstLines_nil (n : ℕ) : firstLines a n [] = [] := by
  simp [firstLines, linesOf]

/-- **The first lines from the front**: an element that ends a line leaves one less to read. -/
theorem firstLines_cons (n : ℕ) :
    firstLines a (n + 1) (x :: l) = x :: firstLines a (if x = a then n else n + 1) l := by
  unfold firstLines
  by_cases hx : x = a
  · subst hx
    rw [linesOf_cons_self, if_pos rfl, List.take_succ_cons, List.flatten_cons]
    rfl
  · rw [linesOf_cons_of_ne hx, if_neg hx, List.take_succ_cons, List.flatten_cons]
    cases linesOf a l with
    | nil => simp
    | cons y ys => rfl

end Ps4Dropbear
