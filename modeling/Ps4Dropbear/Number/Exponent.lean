import Mathlib.Data.Nat.ModEq
import Mathlib.Data.ZMod.Basic
import Mathlib.FieldTheory.Finite.Basic

/-!
# Exponents modulo a product of two primes

Powers modulo `p * q` for different primes `p` and `q`: exponents count modulo `(p - 1) * (q - 1)`
for every base, also for one that shares a factor with the modulus, as long as they are positive.

* `pow_add_mul_totient` : a positive exponent may be enlarged by multiples of `(p - 1) * (q - 1)`.
* `pow_inverse_exponent` : inverse exponents undo each other.
* `blinded_pow` : a power of a blinded base with a blinded exponent.
-/

namespace Exponent

variable {p q : ℕ}

theorem natCast_pow_prime (hp : p.Prime) {k : ℕ} (hk : 0 < k) (m x : ℕ) :
    x ^ (k + m * (p - 1)) ≡ x ^ k [MOD p] := by
  have : Fact p.Prime := ⟨hp⟩
  rw [← ZMod.natCast_eq_natCast_iff]
  push_cast
  by_cases hx : (x : ZMod p) = 0
  · rw [hx, zero_pow (by omega), zero_pow (by omega)]
  · rw [pow_add, Nat.mul_comm, pow_mul, ZMod.pow_card_sub_one_eq_one hx, one_pow, mul_one]

theorem natCast_pow_mul (hp : p.Prime) (hq : q.Prime) (hpq : p ≠ q) {k : ℕ} (hk : 0 < k)
    (m x : ℕ) : x ^ (k + m * ((p - 1) * (q - 1))) ≡ x ^ k [MOD p * q] := by
  have hcop : p.Coprime q := (Nat.coprime_primes hp hq).2 hpq
  rw [← Nat.modEq_and_modEq_iff_modEq_mul hcop]
  constructor
  · have h := natCast_pow_prime hp hk (m * (q - 1)) x
    rwa [Nat.mul_assoc, Nat.mul_comm (q - 1)] at h
  · have h := natCast_pow_prime hq hk (m * (p - 1)) x
    rwa [Nat.mul_assoc] at h

/-- A positive exponent may be enlarged by multiples of `(p - 1) * (q - 1)`. -/
theorem pow_add_mul_totient (hp : p.Prime) (hq : q.Prime) (hpq : p ≠ q) {k : ℕ} (hk : 0 < k)
    (m : ℕ) (x : ZMod (p * q)) : x ^ (k + m * ((p - 1) * (q - 1))) = x ^ k := by
  have : NeZero (p * q) := ⟨Nat.mul_ne_zero hp.ne_zero hq.ne_zero⟩
  have h := natCast_pow_mul hp hq hpq hk m x.val
  rw [← ZMod.natCast_eq_natCast_iff] at h
  push_cast at h
  rwa [ZMod.natCast_zmod_val] at h

theorem one_lt_totient (hp : p.Prime) (hq : q.Prime) (hpq : p ≠ q) : 1 < (p - 1) * (q - 1) := by
  have hp2 := hp.two_le
  have hq2 := hq.two_le
  rcases Nat.lt_or_gt_of_ne hpq with h | h
  · exact Nat.lt_of_lt_of_le (by omega : 1 < q - 1) (Nat.le_mul_of_pos_left _ (by omega))
  · exact Nat.lt_of_lt_of_le (by omega : 1 < p - 1) (Nat.le_mul_of_pos_right _ (by omega))

section Inverse

variable {e d : ℕ}

/-- Inverse exponents are positive. -/
theorem mul_pos_of_inverse (hp : p.Prime) (hq : q.Prime) (hpq : p ≠ q)
    (hed : e * d ≡ 1 [MOD (p - 1) * (q - 1)]) : 0 < e * d := by
  refine Nat.pos_of_ne_zero fun h => ?_
  have hone := one_lt_totient hp hq hpq
  unfold Nat.ModEq at hed
  rw [h, Nat.zero_mod, Nat.mod_eq_of_lt hone] at hed
  exact Nat.zero_ne_one hed

/-- Inverse exponents undo each other. -/
theorem pow_inverse_exponent (hp : p.Prime) (hq : q.Prime) (hpq : p ≠ q)
    (hed : e * d ≡ 1 [MOD (p - 1) * (q - 1)]) (x : ZMod (p * q)) : x ^ (e * d) = x := by
  have hpos := mul_pos_of_inverse hp hq hpq hed
  obtain ⟨m, hm⟩ := (Nat.modEq_iff_dvd' hpos).1 hed.symm
  have hexp : e * d = 1 + m * ((p - 1) * (q - 1)) := by
    rw [Nat.mul_comm m, ← hm]
    omega
  rw [hexp, pow_add_mul_totient hp hq hpq Nat.one_pos, pow_one]

/-- The power of a base that is blinded by `r ^ e`, with an exponent that is blinded by a multiple
of `(p - 1) * (q - 1)`: with the inverse of `r` it is the power itself. -/
theorem blinded_pow (hp : p.Prime) (hq : q.Prime) (hpq : p ≠ q)
    (hed : e * d ≡ 1 [MOD (p - 1) * (q - 1)]) {r s : ZMod (p * q)} (hrs : r * s = 1) (b : ℕ)
    (x : ZMod (p * q)) : (x * r ^ e) ^ (d + b * ((p - 1) * (q - 1))) * s = x ^ d := by
  have hd : 0 < d := Nat.pos_of_mul_pos_left (mul_pos_of_inverse hp hq hpq hed)
  rw [pow_add_mul_totient hp hq hpq hd, mul_pow, ← pow_mul, pow_inverse_exponent hp hq hpq hed,
    mul_assoc, hrs, mul_one]

end Inverse

end Exponent
