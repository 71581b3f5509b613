import Ps4Dropbear.Buffer.Basic

/-!
# Texts under a key stream

A stream cipher takes the exclusive or of every byte of a text with the byte of a key stream at the
same place, so that what it does to a text depends on the place where the text starts and not on how
it is cut into pieces.

* `masked ks n x` : the text `x`, with its first byte at the place `n` of the stream `ks`.
* `masked_append`, `masked_masked` : pieces of a text, and the way back.
* `FollowsStream` : a cipher whose states are places of a stream.
-/

namespace Ps4Dropbear

/-- The text `x` under the key stream `ks`, from the place `n` on. -/
def masked (ks : ℕ → UInt8) (n : ℕ) : Bytes → Bytes
  | [] => []
  | b :: x => (b ^^^ ks n) :: masked ks (n + 1) x

section Masked

variable {ks ks' : ℕ → UInt8} {n : ℕ}

@[simp] theorem length_masked (x : Bytes) : (masked ks n x).length = x.length := by
  induction x generalizing n with
  | nil => rfl
  | cons b x ih => rw [masked, List.length_cons, List.length_cons, ih]

theorem masked_append (x y : Bytes) :
    masked ks n (x ++ y) = masked ks n x ++ masked ks (n + x.length) y := by
  induction x generalizing n with
  | nil => rfl
  | cons b x ih =>
    rw [List.cons_append, masked, masked, ih, List.length_cons, List.cons_append,
      Nat.add_right_comm, Nat.add_assoc]

/-- The same stream takes the mask off again. -/
@[simp] theorem masked_masked (x : Bytes) : masked ks n (masked ks n x) = x := by
  induction x generalizing n with
  | nil => rfl
  | cons b x ih => rw [masked, masked, ih, UInt8.xor_assoc, UInt8.xor_self, UInt8.xor_zero]

/-- A text is combined with a piece of the stream. -/
theorem zipWith_eq_masked {x l : Bytes} (h : ∀ i < x.length, l[i]? = some (ks (n + i))) :
    List.zipWith (· ^^^ ·) x l = masked ks n x := by
  induction x generalizing n l with
  | nil => rfl
  | cons b x ih =>
    have hhead := h 0 (Nat.succ_pos _)
    cases l with
    | nil => exact absurd hhead.symm (Option.some_ne_none _)
    | cons c l =>
      rw [List.getElem?_cons_zero, Nat.add_zero, Option.some.injEq] at hhead
      rw [List.zipWith_cons_cons, masked, hhead, ih]
      intro i hi
      have htail := h (i + 1) (Nat.succ_lt_succ hi)
      rwa [List.getElem?_cons_succ, Nat.add_comm i, ← Nat.add_assoc] at htail

end Masked

/-- The states of a cipher are places of the key stream `ks`, up to a place that does not fit:
`At n s` says that `s` is one for the place `n`. -/
def FollowsStream {σ : Type*} (crypt : Bytes → σ → Option (Bytes × σ)) (ks : ℕ → UInt8)
    (At : ℕ → σ → Prop) (Fits : ℕ → Prop) : Prop :=
  ∀ n s x, At n s → Fits (n + x.length) →
    ∃ s', crypt x s = some (masked ks n x, s') ∧ At (n + x.length) s'

/-- One call after the other. -/
def cryptPieces {σ : Type*} (crypt : Bytes → σ → Option (Bytes × σ)) :
    List Bytes → σ → Option (List Bytes × σ)
  | [], s => some ([], s)
  | x :: xs, s => do
    let (c, s) ← crypt x s
    let (cs, s) ← cryptPieces crypt xs s
    return (c :: cs, s)

section FollowsStream

variable {σ : Type*} {crypt : Bytes → σ → Option (Bytes × σ)} {ks : ℕ → UInt8} {At : ℕ → σ → Prop}
  {Fits : ℕ → Prop}

/-- However a text is cut into calls, it comes out under the stream. -/
theorem FollowsStream.pieces (h : FollowsStream crypt ks At Fits)
    (hfits : ∀ m n, m ≤ n → Fits n → Fits m) (xs : List Bytes) {n : ℕ} {s : σ} (hs : At n s)
    (hend : Fits (n + xs.flatten.length)) :
    ∃ cs s', cryptPieces crypt xs s = some (cs, s') ∧ cs.flatten = masked ks n xs.flatten ∧
      cs.map List.length = xs.map List.length ∧ At (n + xs.flatten.length) s' := by
  induction xs generalizing n s with
  | nil => exact ⟨[], s, rfl, rfl, rfl, hs⟩
  | cons x xs ih =>
    rw [List.flatten_cons, List.length_append, ← Nat.add_assoc] at hend
    obtain ⟨s₁, h₁, hs₁⟩ := h n s x hs (hfits _ _ (Nat.le_add_right _ _) hend)
    obtain ⟨cs, s₂, h₂, hcs, hlen, hs₂⟩ := ih hs₁ hend
    refine ⟨masked ks n x :: cs, s₂, ?_, ?_, ?_, ?_⟩
    · rw [cryptPieces, h₁]
      change (do
        let (cs, s) ← cryptPieces crypt xs s₁
        return (masked ks n x :: cs, s)) = _
      rw [h₂]
      rfl
    · rw [List.flatten_cons, List.flatten_cons, hcs, masked_append]
    · rw [List.map_cons, List.map_cons, hlen, length_masked]
    · rw [List.flatten_cons, List.length_append, ← Nat.add_assoc]
      exact hs₂

end FollowsStream

end Ps4Dropbear
