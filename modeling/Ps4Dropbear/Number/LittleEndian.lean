import Mathlib.Data.Nat.Digits.Lemmas
import Ps4Dropbear.Buffer.Basic

/-!
# Numbers in little-endian bytes

The bytes of a number from its lowest on, and the loads and stores of words that are made of them.

* `leNat`, `leBytes` : the number of a text of bytes, and the bytes of a number.
* `leNat_take`, `leNat_drop` : parts of a text.
* `load32l`, `store32l` : words of four bytes.
-/

namespace Ps4Dropbear

/-- The number whose bytes are `x`, from the lowest on. -/
def leNat (x : Bytes) : ℕ := Nat.ofDigits 256 (x.map UInt8.toNat)

/-- The lowest `k` bytes of `n`. -/
def leBytes : ℕ → ℕ → Bytes
  | 0, _ => []
  | k + 1, n => UInt8.ofNat n :: leBytes k (n / 256)

section LittleEndian

variable {x y : Bytes} {k n : ℕ}

@[simp] theorem leNat_nil : leNat [] = 0 := rfl

@[simp] theorem leNat_cons (b : UInt8) (x : Bytes) : leNat (b :: x) = b.toNat + 256 * leNat x := rfl

theorem leNat_append (x y : Bytes) : leNat (x ++ y) = leNat x + 256 ^ x.length * leNat y := by
  unfold leNat
  rw [List.map_append, Nat.ofDigits_append, List.length_map]

theorem leNat_lt (x : Bytes) : leNat x < 256 ^ x.length := by
  have hlt := Nat.ofDigits_lt_base_pow_length (b := 256) (l := x.map UInt8.toNat) (by decide) (by
    intro d hd
    obtain ⟨b, -, rfl⟩ := List.mem_map.1 hd
    exact b.toNat_lt)
  rwa [List.length_map] at hlt

/-- Zeros behind a number do not change it. -/
theorem leNat_append_zeros (x : Bytes) (k : ℕ) : leNat (x ++ List.replicate k 0) = leNat x := by
  unfold leNat
  rw [List.map_append, List.map_replicate]
  exact Nat.ofDigits_append_replicate_zero _

theorem leNat_take (x : Bytes) (k : ℕ) : leNat (x.take k) = leNat x % 256 ^ k := by
  rcases Nat.le_total x.length k with hle | hle
  · rw [List.take_of_length_le hle,
      Nat.mod_eq_of_lt (Nat.lt_of_lt_of_le (leNat_lt x) (Nat.pow_le_pow_right (by decide) hle))]
  · have hlen : (x.take k).length = k := by rw [List.length_take, Nat.min_eq_left hle]
    have hlt := leNat_lt (x.take k)
    rw [hlen] at hlt
    conv_rhs => rw [← List.take_append_drop k x, leNat_append, hlen, Nat.add_mul_mod_self_left]
    rw [Nat.mod_eq_of_lt hlt]

theorem leNat_drop (x : Bytes) (k : ℕ) : leNat (x.drop k) = leNat x / 256 ^ k := by
  rcases Nat.le_total x.length k with hle | hle
  · rw [List.drop_of_length_le hle,
      Nat.div_eq_of_lt (Nat.lt_of_lt_of_le (leNat_lt x) (Nat.pow_le_pow_right (by decide) hle))]
    rfl
  · have hlen : (x.take k).length = k := by rw [List.length_take, Nat.min_eq_left hle]
    have hlt := leNat_lt (x.take k)
    rw [hlen] at hlt
    conv_rhs => rw [← List.take_append_drop k x, leNat_append, hlen]
    rw [Nat.add_mul_div_left _ _ (Nat.pow_pos (by decide)), Nat.div_eq_of_lt hlt, Nat.zero_add]

@[simp] theorem length_leBytes (k n : ℕ) : (leBytes k n).length = k := by
  induction k generalizing n with
  | zero => rfl
  | succ k ih => rw [leBytes, List.length_cons, ih]

theorem leNat_leBytes (k n : ℕ) : leNat (leBytes k n) = n % 256 ^ k := by
  induction k generalizing n with
  | zero => rw [leBytes, pow_zero, Nat.mod_one, leNat_nil]
  | succ k ih =>
    calc leNat (leBytes (k + 1) n) = n % 256 + 256 * (n / 256 % 256 ^ k) := by
          rw [leBytes, leNat_cons, ih, UInt8.toNat_ofNat']
      _ = n % 256 ^ (k + 1) := by rw [pow_succ', Nat.mod_mul]

theorem leNat_inj (hlen : x.length = y.length) (h : leNat x = leNat y) : x = y := by
  induction x generalizing y with
  | nil => exact (List.length_eq_zero_iff.1 hlen.symm).symm
  | cons b x ih =>
    cases y with
    | nil => exact absurd hlen (Nat.succ_ne_zero _)
    | cons c y =>
      rw [leNat_cons, leNat_cons] at h
      have hb := b.toNat_lt
      have hc := c.toNat_lt
      rw [UInt8.toNat_inj.1 (show b.toNat = c.toNat by omega),
        ih (Nat.succ.inj hlen) (by omega)]

end LittleEndian

/-! ### Words -/

/-- `LOAD32L`. -/
def load32l (x : Bytes) : UInt32 := UInt32.ofNat (leNat (x.take 4))

/-- `STORE32L`. -/
def store32l (w : UInt32) : Bytes := leBytes 4 w.toNat

theorem load32l_toNat (x : Bytes) : (load32l x).toNat = leNat x % 2 ^ 32 := by
  unfold load32l
  rw [UInt32.toNat_ofNat', leNat_take]
  exact Nat.mod_mod _ _

/-- A word inside a text. -/
theorem load32l_drop_toNat (x : Bytes) (k : ℕ) :
    (load32l (x.drop k)).toNat = leNat x / 256 ^ k % 2 ^ 32 := by
  rw [load32l_toNat, leNat_drop]

@[simp] theorem length_store32l (w : UInt32) : (store32l w).length = 4 := length_leBytes _ _

end Ps4Dropbear
