import Mathlib.Data.List.Perm.Basic
import Mathlib.Data.List.Range

/-!
# Ledgers

A system numbers the things it makes, one after the other, and each of them is settled once.  A
ledger has two lists of numbers, the open ones and the settled ones; it is in order when together
they are the numbers given out so far, each of them once.

* `Ledger` : the two lists are in order.
* `Ledger.issue`, `Ledger.settle` : what the system may do.
* `Ledger.nodup`, `Ledger.open_or_settled` : what the order says about the numbers.
-/

namespace Ps4Dropbear

/-- The numbers below `n` are in the two lists, each in one of them, and there once. -/
def Ledger (opened settled : List ℕ) (n : ℕ) : Prop := (opened ++ settled).Perm (List.range n)

namespace Ledger

variable {opened opened' settled settled' : List ℕ} {n k : ℕ}

theorem empty : Ledger [] [] 0 := List.Perm.refl _

theorem perm (h : Ledger opened settled n) (ho : opened.Perm opened')
    (hs : settled.Perm settled') : Ledger opened' settled' n :=
  ((ho.append hs).symm).trans h

/-- The next number is given out. -/
theorem issue (h : Ledger opened settled n) : Ledger (n :: opened) settled (n + 1) := by
  unfold Ledger at h ⊢
  rw [List.range_succ]
  exact (h.cons n).trans (List.perm_append_singleton n _).symm

/-- An open number is settled. -/
theorem settle (h : Ledger (k :: opened) settled n) : Ledger opened (k :: settled) n := by
  have hmiddle : (opened ++ k :: settled).Perm (k :: opened ++ settled) := List.perm_middle
  exact hmiddle.trans h

theorem nodup (h : Ledger opened settled n) : (opened ++ settled).Nodup :=
  h.nodup_iff.2 List.nodup_range

theorem nodup_opened (h : Ledger opened settled n) : opened.Nodup :=
  (List.nodup_append.1 h.nodup).1

/-- A number that has been given out is open or settled. -/
theorem open_or_settled (h : Ledger opened settled n) : k < n ↔ k ∈ opened ∨ k ∈ settled := by
  rw [← List.mem_range, ← h.mem_iff, List.mem_append]

end Ledger

end Ps4Dropbear
