import Mathlib.Data.List.Infix

/-!
# Stores into an array

An array in memory is a list of cells.  A store behind its end is an error (`none`), so a function
that returns something has stayed inside the array.  The functions that fill an array from the front
are described by the part that they have written.

* `store`, `copy` : one cell, and a block of them.
* `store_front`, `copy_front` : the next cells behind the part that is known.
-/

namespace Ps4Dropbear

namespace Cells

variable {α : Type} {cells front : List α}

/-- `cells[i] = a`. -/
def store (cells : List α) (i : ℕ) (a : α) : Option (List α) :=
  if i < cells.length then some (cells.set i a) else none

/-- `memcpy(cells + i, block, …)`. -/
def copy (cells : List α) (i : ℕ) (block : List α) : Option (List α) :=
  if i + block.length ≤ cells.length then
    some (cells.take i ++ block ++ cells.drop (i + block.length))
  else none

/-- The cells behind a part at the front. -/
theorem copy_front {block : List α} (hfront : front <+: cells)
    (hroom : front.length + block.length ≤ cells.length) :
    ∃ cells', copy cells front.length block = some cells' ∧ cells'.length = cells.length ∧
      front ++ block <+: cells' := by
  obtain ⟨rest, rfl⟩ := hfront
  refine ⟨_, if_pos hroom, ?_, ?_⟩
  · rw [List.length_append] at hroom
    simp only [List.length_append, List.length_take, List.length_drop]
    omega
  · rw [List.take_left]
    exact List.prefix_append _ _

/-- The cell behind a part at the front. -/
theorem store_front {a : α} (hfront : front <+: cells) (hroom : front.length < cells.length) :
    ∃ cells', store cells front.length a = some cells' ∧ cells'.length = cells.length ∧
      front ++ [a] <+: cells' := by
  obtain ⟨rest, rfl⟩ := hfront
  refine ⟨_, if_pos hroom, List.length_set, ?_⟩
  rw [List.length_append] at hroom
  obtain ⟨b, rest, rfl⟩ := List.exists_cons_of_length_pos (show 0 < rest.length by omega)
  rw [List.set_append_right _ _ le_rfl, Nat.sub_self, List.set_cons_zero]
  exact ⟨rest, by simp⟩

end Cells

end Ps4Dropbear
