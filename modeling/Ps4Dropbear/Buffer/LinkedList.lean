import Mathlib.Data.List.Nodup
import Mathlib.Data.List.Basic
import Mathlib.Logic.Function.Basic

/-!
# Singly linked lists in memory

Links at addresses; an address at which nothing is allocated has none.  `Linked links p l` says that
the links from the pointer `p` on are those of `l`, which lists their addresses and their items.

* `Linked.congr` : only the memory of the list matters.
* `Linked.append`, `Linked.tail`, `Linked.set_head` : a new last link, giving up the first one, and
  another item in it.
-/

namespace Ps4Dropbear

/-- An item and the pointer to the next link. -/
structure Link (α : Type*) where
  item : α
  link : Option ℕ

variable {α : Type*}

/-- The links from the pointer `p` on, with their addresses. -/
def Linked (links : ℕ → Option (Link α)) : Option ℕ → List (ℕ × α) → Prop
  | p, [] => p = none
  | p, (a, x) :: rest => p = some a ∧ ∃ next, links a = some ⟨x, next⟩ ∧ Linked links next rest

namespace Linked

variable {links links' : ℕ → Option (Link α)} {p : Option ℕ} {l : List (ℕ × α)} {a b : ℕ} {x y : α}

/-- Memory outside of the list does not matter. -/
theorem congr (h : Linked links p l) (hsame : ∀ a ∈ l.map Prod.fst, links' a = links a) :
    Linked links' p l := by
  induction l generalizing p with
  | nil => exact h
  | cons c rest ih =>
    obtain ⟨a, x⟩ := c
    obtain ⟨hp, next, hlink, hrest⟩ := h
    refine ⟨hp, next, ?_, ih hrest fun b hb => hsame b (List.mem_cons_of_mem _ hb)⟩
    rw [hsame a List.mem_cons_self]
    exact hlink

/-- The links of a list are allocated. -/
theorem allocated (h : Linked links p l) (ha : a ∈ l.map Prod.fst) : links a ≠ none := by
  induction l generalizing p with
  | nil => exact absurd ha List.not_mem_nil
  | cons c rest ih =>
    obtain ⟨b, x⟩ := c
    obtain ⟨-, next, hlink, hrest⟩ := h
    rcases List.mem_cons.1 ha with rfl | ha
    · rw [hlink]
      exact Option.some_ne_none _
    · exact ih hrest ha

/-- The last link of a list that is not empty. -/
theorem last (h : Linked links p (l ++ [(a, x)])) : links a = some ⟨x, none⟩ := by
  induction l generalizing p with
  | nil =>
    obtain ⟨-, next, hlink, rfl⟩ := h
    exact hlink
  | cons c rest ih =>
    obtain ⟨b, y⟩ := c
    obtain ⟨-, next, -, hrest⟩ := h
    exact ih hrest

/-- Writing a new link and making the last one point to it. -/
theorem append (h : Linked links p (l ++ [(a, x)])) (hnodup : ((l ++ [(a, x)]).map Prod.fst).Nodup)
    (hb : b ∉ (l ++ [(a, x)]).map Prod.fst) :
    Linked (Function.update (Function.update links b (some ⟨y, none⟩)) a (some ⟨x, some b⟩)) p
      (l ++ [(a, x), (b, y)]) := by
  induction l generalizing p with
  | nil =>
    obtain ⟨hp, -⟩ := h
    have hne : b ≠ a := fun heq => hb (by rw [heq]; exact List.mem_cons_self)
    refine ⟨hp, some b, Function.update_self .., rfl, none, ?_, rfl⟩
    rw [Function.update_of_ne hne, Function.update_self]
  | cons c rest ih =>
    obtain ⟨d, z⟩ := c
    obtain ⟨hp, next, hlink, hrest⟩ := h
    simp only [List.cons_append, List.map_cons, List.nodup_cons] at hnodup
    have hd : a ≠ d := fun heq => hnodup.1 (by rw [← heq]; simp)
    have hdb : b ≠ d := fun heq => hb (by rw [heq]; simp)
    refine ⟨hp, next, ?_, ih hrest hnodup.2 fun hmem => hb (List.mem_cons_of_mem _ hmem)⟩
    rw [Function.update_of_ne hd.symm, Function.update_of_ne hdb.symm]
    exact hlink

/-- Giving up the memory of the first link. -/
theorem tail (h : Linked links p ((a, x) :: l)) (ha : a ∉ l.map Prod.fst) :
    ∃ next, links a = some ⟨x, next⟩ ∧ Linked (Function.update links a none) next l := by
  obtain ⟨-, next, hlink, hrest⟩ := h
  refine ⟨next, hlink, hrest.congr fun b hb => Function.update_of_ne ?_ _ _⟩
  rintro rfl
  exact ha hb

/-- Another item in the first link. -/
theorem set_head (h : Linked links p ((a, x) :: l)) (ha : a ∉ l.map Prod.fst) :
    ∃ next, links a = some ⟨x, next⟩ ∧
      Linked (Function.update links a (some ⟨y, next⟩)) p ((a, y) :: l) := by
  obtain ⟨hp, next, hlink, hrest⟩ := h
  refine ⟨next, hlink, hp, next, Function.update_self .., hrest.congr fun b hb => ?_⟩
  refine Function.update_of_ne ?_ _ _
  rintro rfl
  exact ha hb

/-- The pointer to a list is that to its first link. -/
theorem head_eq (h : Linked links p l) : p = l.head?.map Prod.fst := by
  cases l with
  | nil => exact h
  | cons c rest => exact h.1

end Linked

end Ps4Dropbear
