import Mathlib.Algebra.Ring.Nat
import Mathlib.Control.Basic

/-!
# Arithmetic of words

The additions and multiplications of a program on words of 32 and 64 bits, and the conversions from
one to the other.  A program that is written over `WordOps` can be read in two ways: `wrapping` is
what a machine does, and `checked` fails where a number does not fit into its word.

* `WordOps.Exact` : what both do where the numbers fit.
* `WordOps.Exact.add32_spec` and the like : a step of the program, with the number that it gives.
-/

namespace Ps4Dropbear

/-- The operations on words, in a monad. -/
structure WordOps (m : Type → Type) where
  add32 : UInt32 → UInt32 → m UInt32
  mul32 : UInt32 → UInt32 → m UInt32
  add64 : UInt64 → UInt64 → m UInt64
  mul64 : UInt64 → UInt64 → m UInt64
  /-- A word of 64 bits to one of 32. -/
  narrow : UInt64 → m UInt32

namespace WordOps

/-- Modulo the size of a word. -/
def wrapping : WordOps Id where
  add32 a b := pure (a + b)
  mul32 a b := pure (a * b)
  add64 a b := pure (a + b)
  mul64 a b := pure (a * b)
  narrow a := pure a.toUInt32

/-- `none` where the number does not fit. -/
def checked : WordOps Option where
  add32 a b := if a.toNat + b.toNat < 2 ^ 32 then some (a + b) else none
  mul32 a b := if a.toNat * b.toNat < 2 ^ 32 then some (a * b) else none
  add64 a b := if a.toNat + b.toNat < 2 ^ 64 then some (a + b) else none
  mul64 a b := if a.toNat * b.toNat < 2 ^ 64 then some (a * b) else none
  narrow a := if a.toNat < 2 ^ 32 then some a.toUInt32 else none

variable {m : Type → Type} [Monad m] {ops : WordOps m}

/-- Where the numbers fit, the operations are those of the words. -/
structure Exact (ops : WordOps m) : Prop where
  add32 {a b : UInt32} (h : a.toNat + b.toNat < 2 ^ 32) : ops.add32 a b = pure (a + b)
  mul32 {a b : UInt32} (h : a.toNat * b.toNat < 2 ^ 32) : ops.mul32 a b = pure (a * b)
  add64 {a b : UInt64} (h : a.toNat + b.toNat < 2 ^ 64) : ops.add64 a b = pure (a + b)
  mul64 {a b : UInt64} (h : a.toNat * b.toNat < 2 ^ 64) : ops.mul64 a b = pure (a * b)
  narrow {a : UInt64} (h : a.toNat < 2 ^ 32) : ops.narrow a = pure a.toUInt32

theorem wrapping_exact : wrapping.Exact :=
  ⟨fun _ => rfl, fun _ => rfl, fun _ => rfl, fun _ => rfl, fun _ => rfl⟩

theorem checked_exact : checked.Exact :=
  ⟨fun h => if_pos h, fun h => if_pos h, fun h => if_pos h, fun h => if_pos h, fun h => if_pos h⟩

namespace Exact

theorem add32_spec (hops : ops.Exact) {a b : UInt32} (h : a.toNat + b.toNat < 2 ^ 32) :
    ∃ s, ops.add32 a b = pure s ∧ s.toNat = a.toNat + b.toNat :=
  ⟨_, hops.add32 h, (UInt32.toNat_add a b).trans (Nat.mod_eq_of_lt h)⟩

theorem mul32_spec (hops : ops.Exact) {a b : UInt32} (h : a.toNat * b.toNat < 2 ^ 32) :
    ∃ p, ops.mul32 a b = pure p ∧ p.toNat = a.toNat * b.toNat :=
  ⟨_, hops.mul32 h, (UInt32.toNat_mul a b).trans (Nat.mod_eq_of_lt h)⟩

theorem add64_spec (hops : ops.Exact) {a b : UInt64} (h : a.toNat + b.toNat < 2 ^ 64) :
    ∃ s, ops.add64 a b = pure s ∧ s.toNat = a.toNat + b.toNat :=
  ⟨_, hops.add64 h, (UInt64.toNat_add a b).trans (Nat.mod_eq_of_lt h)⟩

/-- A product of two words of 32 bits always fits into one of 64. -/
theorem product_spec (hops : ops.Exact) (a b : UInt32) :
    ∃ p, ops.mul64 a.toUInt64 b.toUInt64 = pure p ∧ p.toNat = a.toNat * b.toNat := by
  have hfits : a.toUInt64.toNat * b.toUInt64.toNat < 2 ^ 64 := by
    rw [UInt32.toNat_toUInt64, UInt32.toNat_toUInt64]
    calc a.toNat * b.toNat < 2 ^ 32 * 2 ^ 32 := Nat.mul_lt_mul'' a.toNat_lt b.toNat_lt
      _ = 2 ^ 64 := by decide
  refine ⟨_, hops.mul64 hfits, ?_⟩
  rw [UInt64.toNat_mul, Nat.mod_eq_of_lt hfits, UInt32.toNat_toUInt64, UInt32.toNat_toUInt64]

/-- The bits of a word from the bit `k` on, when they fit into 32. -/
theorem carry_spec (hops : ops.Exact) {d k : UInt64} (hk : k.toNat < 64)
    (h : d.toNat / 2 ^ k.toNat < 2 ^ 32) :
    ∃ c, ops.narrow (d >>> k) = pure c ∧ c.toNat = d.toNat / 2 ^ k.toNat := by
  have hshift : (d >>> k).toNat = d.toNat / 2 ^ k.toNat := by
    rw [UInt64.toNat_shiftRight, Nat.mod_eq_of_lt hk, Nat.shiftRight_eq_div_pow]
  refine ⟨_, hops.narrow (by rwa [hshift]), ?_⟩
  rw [UInt64.toNat_toUInt32, hshift, Nat.mod_eq_of_lt h]

/-- A word of 32 bits is added to one of 64. -/
theorem accumulate_spec (hops : ops.Exact) {d : UInt64} {c : UInt32}
    (h : d.toNat + c.toNat < 2 ^ 64) :
    ∃ s, ops.add64 d c.toUInt64 = pure s ∧ s.toNat = d.toNat + c.toNat := by
  obtain ⟨s, hs, hval⟩ := hops.add64_spec (a := d) (b := c.toUInt64)
    (by rwa [UInt32.toNat_toUInt64])
  exact ⟨s, hs, by rw [hval, UInt32.toNat_toUInt64]⟩

end Exact

end WordOps

end Ps4Dropbear
