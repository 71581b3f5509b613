import Mathlib.Data.List.Rotate

/-!
# Cyclic storage

A list of cells that is read around its end.  `cyclicTake cells pos used` are the `used` cells from
`pos` on, with the first cell behind the last one.

## Main results

* `cyclicTake_eq_segments` : it is one segment up to the end of the cells, and a second one from
  their start.
* `drop_cyclicTake` : giving up the first cells advances the position.
* `cyclicTake_overwrite` : writing behind the last cell appends.
* `cyclicTake_add`, `cyclicTake_overwrite_free` : what is behind the last cell comes next, and
  can be written without touching the cells in use.
-/

namespace Ps4Dropbear

variable {α : Type*}

/-- The `used` cells from `pos` on, cyclically. -/
def cyclicTake (cells : List α) (pos used : ℕ) : List α := (cells.rotate pos).take used

variable {cells : List α} {pos used k : ℕ}

@[simp] theorem cyclicTake_zero (cells : List α) (pos : ℕ) : cyclicTake cells pos 0 = [] :=
  List.take_zero

theorem length_cyclicTake (h : used ≤ cells.length) : (cyclicTake cells pos used).length = used := by
  rw [cyclicTake, List.length_take, List.length_rotate, Nat.min_eq_left h]

theorem cyclicTake_eq_segments (cells : List α) (hpos : pos ≤ cells.length)
    (hused : used ≤ cells.length) :
    cyclicTake cells pos used =
      (cells.drop pos).take (min used (cells.length - pos)) ++
        cells.take (used - min used (cells.length - pos)) := by
  unfold cyclicTake
  rw [List.rotate_eq_drop_append_take hpos, List.take_append, List.length_drop, List.take_take]
  rcases Nat.le_total used (cells.length - pos) with hle | hle
  · rw [Nat.min_eq_left hle, Nat.sub_eq_zero_of_le hle, Nat.sub_self, Nat.zero_min]
  · have hsecond : min (used - (cells.length - pos)) pos = used - (cells.length - pos) := by omega
    have hfirst : (cells.drop pos).take used = (cells.drop pos).take (cells.length - pos) := by
      rw [List.take_of_length_le (by simpa using hle), List.take_of_length_le (by simp)]
    rw [Nat.min_eq_right hle, hsecond, hfirst]

theorem drop_cyclicTake (cells : List α) (pos : ℕ) (hk : k ≤ used)
    (hused : used ≤ cells.length) :
    (cyclicTake cells pos used).drop k =
      cyclicTake cells ((pos + k) % cells.length) (used - k) := by
  unfold cyclicTake
  have hturn : (cells.rotate pos).rotate k =
      (cells.rotate pos).drop k ++ (cells.rotate pos).take k :=
    List.rotate_eq_drop_append_take (by rw [List.length_rotate]; omega)
  rw [List.rotate_mod, ← List.rotate_rotate, hturn, List.drop_take,
    List.take_append_of_le_length (by rw [List.length_drop, List.length_rotate]; omega)]

/-- An index that is at most one turn too far. -/
theorem mod_of_lt_two_turns {i n : ℕ} (h : i < 2 * n) : i % n = if i < n then i else i - n := by
  split_ifs with hlt
  · exact Nat.mod_eq_of_lt hlt
  · rw [Nat.mod_eq_sub_mod (Nat.le_of_not_lt hlt), Nat.mod_eq_of_lt (by omega)]

/-- Writing over a part of the cells leaves the others alone. -/
theorem getElem?_overwrite {bs : List α} {w : ℕ} (hw : w + bs.length ≤ cells.length) (j : ℕ) :
    (cells.take w ++ bs ++ cells.drop (w + bs.length))[j]? =
      if w ≤ j ∧ j < w + bs.length then bs[j - w]? else cells[j]? := by
  have htake : (cells.take w).length = w := by
    rw [List.length_take]
    omega
  split_ifs with hin
  · rw [List.getElem?_append_left (by rw [List.length_append, htake]; exact hin.2),
      List.getElem?_append_right (by rw [htake]; exact hin.1), htake]
  · rcases Nat.lt_or_ge j w with hlt | hge
    · rw [List.append_assoc, List.getElem?_append_left (by rw [htake]; exact hlt),
        List.getElem?_take_of_lt hlt]
    · have hend : w + bs.length ≤ j := by omega
      rw [List.getElem?_append_right (by rw [List.length_append, htake]; exact hend),
        List.getElem?_drop, List.length_append, htake, Nat.add_sub_cancel' hend]

theorem cyclicTake_overwrite (cells bs : List α) (hpos : pos < cells.length)
    (hroom : used + bs.length ≤ cells.length)
    (hend : (pos + used) % cells.length + bs.length ≤ cells.length) :
    cyclicTake (cells.take ((pos + used) % cells.length) ++ bs ++
        cells.drop ((pos + used) % cells.length + bs.length)) pos (used + bs.length) =
      cyclicTake cells pos used ++ bs := by
  have hlen : (cells.take ((pos + used) % cells.length) ++ bs ++
      cells.drop ((pos + used) % cells.length + bs.length)).length = cells.length := by
    simp only [List.length_append, List.length_take, List.length_drop]
    omega
  have hw := mod_of_lt_two_turns (i := pos + used) (n := cells.length) (by omega)
  apply List.ext_getElem?
  intro i
  have hi := mod_of_lt_two_turns (i := i + pos) (n := cells.length)
  rcases Nat.lt_or_ge i (used + bs.length) with hlt | hge
  · rw [cyclicTake, List.getElem?_take_of_lt hlt, List.getElem?_rotate (by omega), hlen,
      getElem?_overwrite hend]
    rcases Nat.lt_or_ge i used with hold | hnew
    · -- the cells that were in use have not been written
      rw [if_neg (by rw [hw, hi (by omega)]; split_ifs <;> omega),
        List.getElem?_append_left (by rw [length_cyclicTake (by omega)]; exact hold), cyclicTake,
        List.getElem?_take_of_lt hold, List.getElem?_rotate (by omega)]
    · have hat : (i + pos) % cells.length = (pos + used) % cells.length + (i - used) := by
        have hfits := hend
        rw [hw] at hfits ⊢
        rw [hi (by omega)]
        split_ifs at hfits ⊢ <;> omega
      rw [if_pos (by omega),
        List.getElem?_append_right (by rw [length_cyclicTake (by omega)]; exact hnew),
        length_cyclicTake (by omega), hat, Nat.add_sub_cancel_left]
  · rw [List.getElem?_eq_none (by rw [length_cyclicTake (by omega)]; exact hge),
      List.getElem?_eq_none (by rw [List.length_append, length_cyclicTake (by omega)]; exact hge)]

/-- The cells behind the last one are the next to be read. -/
theorem cyclicTake_add (cells : List α) (hpos : pos < cells.length)
    (hroom : used + k ≤ cells.length) (hend : (pos + used) % cells.length + k ≤ cells.length) :
    cyclicTake cells pos (used + k) =
      cyclicTake cells pos used ++ (cells.drop ((pos + used) % cells.length)).take k := by
  have hlen : ((cells.drop ((pos + used) % cells.length)).take k).length = k := by
    rw [List.length_take, List.length_drop]
    omega
  have happend := cyclicTake_overwrite cells
    ((cells.drop ((pos + used) % cells.length)).take k) hpos (by rw [hlen]; exact hroom)
    (by rw [hlen]; exact hend)
  rw [hlen, List.append_assoc, ← List.drop_drop, List.take_append_drop,
    List.take_append_drop] at happend
  exact happend

/-- Writing over cells that are not in use. -/
theorem cyclicTake_overwrite_free (cells bs : List α) (hpos : pos < cells.length)
    (hroom : used + (k + bs.length) ≤ cells.length)
    (hend : (pos + used) % cells.length + (k + bs.length) ≤ cells.length) :
    cyclicTake (cells.take ((pos + used) % cells.length + k) ++ bs ++
        cells.drop ((pos + used) % cells.length + k + bs.length)) pos used =
      cyclicTake cells pos used := by
  have hlen : (cells.take ((pos + used) % cells.length + k) ++ bs ++
      cells.drop ((pos + used) % cells.length + k + bs.length)).length = cells.length := by
    simp only [List.length_append, List.length_take, List.length_drop]
    omega
  have hw := mod_of_lt_two_turns (i := pos + used) (n := cells.length) (by omega)
  apply List.ext_getElem?
  intro i
  rcases Nat.lt_or_ge i used with hlt | hge
  · have hi := mod_of_lt_two_turns (i := i + pos) (n := cells.length) (by omega)
    have hout : ¬ ((pos + used) % cells.length + k ≤ (i + pos) % cells.length ∧
        (i + pos) % cells.length < (pos + used) % cells.length + k + bs.length) := by
      rw [hw] at hend ⊢
      rw [hi]
      split_ifs at hend ⊢ <;> omega
    rw [cyclicTake, cyclicTake, List.getElem?_take_of_lt hlt, List.getElem?_take_of_lt hlt,
      List.getElem?_rotate (by omega), List.getElem?_rotate (by omega), hlen,
      getElem?_overwrite (by omega), if_neg hout]
  · rw [List.getElem?_eq_none (by rw [length_cyclicTake (by omega)]; exact hge),
      List.getElem?_eq_none (by rw [length_cyclicTake (by omega)]; exact hge)]

end Ps4Dropbear
