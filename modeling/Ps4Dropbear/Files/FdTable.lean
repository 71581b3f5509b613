import Mathlib.Data.List.Basic

/-!
# Tables of descriptors

The numbers of a process, each free or in use with some owner.  A new descriptor gets the lowest
free number.

* `FdTable.alloc`, `FdTable.release`, `FdTable.assign` : the operations.
* `FdTable.owner_alloc`, `FdTable.owner_release`, `FdTable.owner_assignAll` : what they do to the
  owner of each number.
-/

/-- The owner of each number, up to the highest that is in use. -/
structure FdTable (α : Type) where
  slots : List (Option α)

namespace FdTable

variable {α : Type} {t : FdTable α} {n m : ℕ} {a b : α}

/-- The owner of a number in use. -/
def owner (t : FdTable α) (n : ℕ) : Option α := t.slots[n]?.join

/-- The lowest free number. -/
def lowest (t : FdTable α) : ℕ := t.slots.findIdx Option.isNone

/-- A number in use is given a new owner. -/
def assign (t : FdTable α) (n : ℕ) (a : α) : FdTable α := ⟨t.slots.set n (some a)⟩

/-- Several numbers in use are given a new owner. -/
def assignAll (t : FdTable α) (ns : List ℕ) (a : α) : FdTable α := ns.foldl (assign · · a) t

/-- A number is freed. -/
def release (t : FdTable α) (n : ℕ) : FdTable α := ⟨t.slots.set n none⟩

/-- A new descriptor. -/
def alloc (t : FdTable α) (a : α) : FdTable α :=
  if t.lowest < t.slots.length then t.assign t.lowest a else ⟨t.slots ++ [some a]⟩

theorem lt_length_of_owner (h : t.owner n = some a) : n < t.slots.length := by
  by_contra hn
  rw [owner, List.getElem?_eq_none (Nat.le_of_not_lt hn)] at h
  cases h

theorem owner_lowest (t : FdTable α) : t.owner t.lowest = none := by
  by_cases h : t.lowest < t.slots.length
  · have hnone := List.findIdx_getElem (p := Option.isNone) (w := h)
    rw [owner, List.getElem?_eq_getElem h]
    exact Option.isNone_iff_eq_none.1 hnone
  · rw [owner, List.getElem?_eq_none (Nat.le_of_not_lt h)]
    rfl

theorem owner_release (t : FdTable α) (n m : ℕ) :
    (t.release n).owner m = if m = n then none else t.owner m := by
  unfold owner release
  rw [List.getElem?_set]
  by_cases hm : n = m
  · rw [if_pos hm, if_pos hm.symm]
    split_ifs <;> rfl
  · rw [if_neg hm, if_neg (Ne.symm hm)]

theorem owner_assign (h : t.owner n = some b) (a : α) (m : ℕ) :
    (t.assign n a).owner m = if m = n then some a else t.owner m := by
  have hlen := lt_length_of_owner h
  unfold owner assign
  rw [List.getElem?_set]
  by_cases hm : n = m
  · rw [if_pos hm, if_pos hlen, if_pos hm.symm]
    rfl
  · rw [if_neg hm, if_neg (Ne.symm hm)]

theorem owner_assignAll {ns : List ℕ} (h : ∀ n ∈ ns, (t.owner n).isSome) (a : α) (m : ℕ) :
    (t.assignAll ns a).owner m = if m ∈ ns then some a else t.owner m := by
  induction ns generalizing t with
  | nil => rfl
  | cons n ns ih =>
    obtain ⟨b, hb⟩ := Option.isSome_iff_exists.1 (h n List.mem_cons_self)
    have hused : ∀ k ∈ ns, ((t.assign n a).owner k).isSome := by
      intro k hk
      rw [owner_assign hb]
      split_ifs
      · rfl
      · exact h k (List.mem_cons_of_mem n hk)
    have hrest := ih hused
    change ((t.assign n a).assignAll ns a).owner m = _
    rw [hrest, owner_assign hb]
    by_cases hm : m ∈ ns
    · simp [hm]
    · by_cases hn : m = n
      · simp [hn]
      · simp [hm, hn]

theorem owner_alloc (t : FdTable α) (a : α) (m : ℕ) :
    (t.alloc a).owner m = if m = t.lowest then some a else t.owner m := by
  unfold alloc
  split_ifs with hlt hm hm
  · rw [owner, assign, hm, List.getElem?_set_self hlt]
    rfl
  · rw [owner, assign, List.getElem?_set_ne (Ne.symm hm)]
    rfl
  all_goals
    -- every number below the length is in use
    have hlen : t.lowest = t.slots.length :=
      Nat.le_antisymm List.findIdx_le_length (Nat.le_of_not_lt hlt)
    rw [hlen] at hm
  · rw [owner, hm, List.getElem?_append_right (Nat.le_refl _), Nat.sub_self]
    rfl
  · unfold owner
    rcases Nat.lt_or_gt_of_ne hm with h | h
    · rw [List.getElem?_append_left h]
    · rw [List.getElem?_eq_none (Nat.le_of_lt h), List.getElem?_eq_none]
      rw [List.length_append, List.length_singleton]
      exact h

end FdTable
