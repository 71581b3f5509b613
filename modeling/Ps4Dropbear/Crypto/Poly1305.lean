import Mathlib.Data.ZMod.Basic
import Mathlib.Tactic.NormNum
import Mathlib.Tactic.Ring
import Ps4Dropbear.Number.LittleEndian
import Ps4Dropbear.Number.WordOps

/-!
# Poly1305

`poly1305.c` of the cryptographic library.  The state holds a number in five limbs of 26 bits, in
words of 32, and multiplies them in words of 64.  The functions are over the operations on words:
`WordOps.wrapping` is the code, and under `WordOps.checked` it fails where a word overflows.  The
masks, the bit that is taken off the fifth limb to compare with the prime and the sums modulo `2^32`
at the end lose bits on purpose, and are not among these operations.

* `Limbs.Clamped`, `Limbs.Carried` : the bounds under which no word overflows.
* `poly1305Block_spec` : a block of the message.
* `fullCarry_spec`, `minusP_spec` : `poly1305_done`, without its last block.
* `poly1305_mac` : **the tag is that of the polynomial modulo `2^130 - 5`**, however the message is
  cut into calls, and no word overflows.
-/

namespace Ps4Dropbear

/-- Five words, of 26 bits each. -/
structure Limbs where
  l0 : UInt32
  l1 : UInt32
  l2 : UInt32
  l3 : UInt32
  l4 : UInt32

/-- Four words. -/
structure Words where
  w0 : UInt32
  w1 : UInt32
  w2 : UInt32
  w3 : UInt32

/-- `poly1305_state`. -/
structure Poly1305State where
  r : Limbs
  h : Limbs
  pad : Words
  /-- The first `leftover` bytes of `buffer`. -/
  buffer : Bytes
  final : Bool
  leftover_lt : buffer.length < 16

/-- What `poly1305_init` sets. -/
def poly1305Keyed (key : Bytes) : Poly1305State where
  r := ⟨load32l key &&& 0x3ffffff, (load32l (key.drop 3) >>> 2) &&& 0x3ffff03,
    (load32l (key.drop 6) >>> 4) &&& 0x3ffc0ff, (load32l (key.drop 9) >>> 6) &&& 0x3f03fff,
    (load32l (key.drop 12) >>> 8) &&& 0x00fffff⟩
  h := ⟨0, 0, 0, 0, 0⟩
  pad := ⟨load32l (key.drop 16), load32l (key.drop 20), load32l (key.drop 24),
    load32l (key.drop 28)⟩
  buffer := []
  final := false
  leftover_lt := by decide

/-- `poly1305_init`.  For a key of another length the library's check of its arguments fails. -/
def poly1305Init (key : Bytes) : Option Poly1305State :=
  if key.length = 32 then some (poly1305Keyed key) else none

/-- The low bits of a sum. -/
def limbOf (d : UInt64) : UInt32 := d.toUInt32 &&& 0x3ffffff

section Functions

variable {m : Type → Type} [Monad m] (ops : WordOps m)

/-- One of the sums of products in `_poly1305_block`. -/
def dot (h : Limbs) (s0 s1 s2 s3 s4 : UInt32) : m UInt64 := do
  let d ← ops.mul64 h.l0.toUInt64 s0.toUInt64
  let d ← ops.add64 d (← ops.mul64 h.l1.toUInt64 s1.toUInt64)
  let d ← ops.add64 d (← ops.mul64 h.l2.toUInt64 s2.toUInt64)
  let d ← ops.add64 d (← ops.mul64 h.l3.toUInt64 s3.toUInt64)
  ops.add64 d (← ops.mul64 h.l4.toUInt64 s4.toUInt64)

/-- `h += in[i]`. -/
def addBlock (hibit : UInt32) (h : Limbs) (inp : Bytes) : m Limbs := do
  let l0 ← ops.add32 h.l0 (load32l inp &&& 0x3ffffff)
  let l1 ← ops.add32 h.l1 ((load32l (inp.drop 3) >>> 2) &&& 0x3ffffff)
  let l2 ← ops.add32 h.l2 ((load32l (inp.drop 6) >>> 4) &&& 0x3ffffff)
  let l3 ← ops.add32 h.l3 ((load32l (inp.drop 9) >>> 6) &&& 0x3ffffff)
  let l4 ← ops.add32 h.l4 ((load32l (inp.drop 12) >>> 8) ||| hibit)
  return ⟨l0, l1, l2, l3, l4⟩

/-- `(partial) h %= p`. -/
def partialReduce (d0 d1 d2 d3 d4 : UInt64) : m Limbs := do
  let c ← ops.narrow (d0 >>> 26)
  let d1 ← ops.add64 d1 c.toUInt64
  let c ← ops.narrow (d1 >>> 26)
  let d2 ← ops.add64 d2 c.toUInt64
  let c ← ops.narrow (d2 >>> 26)
  let d3 ← ops.add64 d3 c.toUInt64
  let c ← ops.narrow (d3 >>> 26)
  let d4 ← ops.add64 d4 c.toUInt64
  let c ← ops.narrow (d4 >>> 26)
  let h0 ← ops.add32 (limbOf d0) (← ops.mul32 c 5)
  let h1 ← ops.add32 (limbOf d1) (h0 >>> 26)
  return ⟨h0 &&& 0x3ffffff, h1, limbOf d2, limbOf d3, limbOf d4⟩

/-- `h *= r`. -/
def mulLimbs (r h : Limbs) : m Limbs := do
  let s1 ← ops.mul32 r.l1 5
  let s2 ← ops.mul32 r.l2 5
  let s3 ← ops.mul32 r.l3 5
  let s4 ← ops.mul32 r.l4 5
  let d0 ← dot ops h r.l0 s4 s3 s2 s1
  let d1 ← dot ops h r.l1 r.l0 s4 s3 s2
  let d2 ← dot ops h r.l2 r.l1 r.l0 s4 s3
  let d3 ← dot ops h r.l3 r.l2 r.l1 r.l0 s4
  let d4 ← dot ops h r.l4 r.l3 r.l2 r.l1 r.l0
  partialReduce ops d0 d1 d2 d3 d4

/-- `_poly1305_block`. -/
def poly1305Block (r : Limbs) (final : Bool) (h : Limbs) (inp : Bytes) : m Limbs :=
  if hlen : 16 ≤ inp.length then
    have : (inp.drop 16).length < inp.length := by
      rw [List.length_drop]
      omega
    do
      let h ← addBlock ops (if final then 0 else 0x1000000) h inp
      let h ← mulLimbs ops r h
      poly1305Block r final h (inp.drop 16)
  else pure h
termination_by inp.length

/-- The part of `poly1305_process` behind the handling of the leftover. -/
def processBlocks (st : Poly1305State) (inp : Bytes) : m Poly1305State := do
  let h ← poly1305Block ops st.r st.final st.h (inp.take (inp.length / 16 * 16))
  return {
    st with
    h := h
    buffer := inp.drop (inp.length / 16 * 16)
    leftover_lt := by
      rw [List.length_drop]
      omega }

/-- `poly1305_process`. -/
def poly1305Process (st : Poly1305State) (inp : Bytes) : m Poly1305State :=
  if inp.length = 0 then pure st
  else if 0 < st.buffer.length then
    let want := min (16 - st.buffer.length) inp.length
    let buffer := st.buffer ++ inp.take want
    if hshort : buffer.length < 16 then pure { st with buffer := buffer, leftover_lt := hshort }
    else do
      let h ← poly1305Block ops st.r st.final st.h buffer
      processBlocks ops { st with h := h } (inp.drop want)
  else processBlocks ops st inp

/-- The last block of `poly1305_done`. -/
def finalBlock (st : Poly1305State) : m Limbs :=
  if 0 < st.buffer.length then
    poly1305Block ops st.r true st.h
      (st.buffer ++ [1] ++ List.replicate (15 - st.buffer.length) 0)
  else pure st.h

/-- `fully carry h`. -/
def fullCarry (h : Limbs) : m Limbs := do
  let c := h.l1 >>> 26
  let h1 := h.l1 &&& 0x3ffffff
  let h2 ← ops.add32 h.l2 c
  let c := h2 >>> 26
  let h2 := h2 &&& 0x3ffffff
  let h3 ← ops.add32 h.l3 c
  let c := h3 >>> 26
  let h3 := h3 &&& 0x3ffffff
  let h4 ← ops.add32 h.l4 c
  let c := h4 >>> 26
  let h4 := h4 &&& 0x3ffffff
  let h0 ← ops.add32 h.l0 (← ops.mul32 c 5)
  let c := h0 >>> 26
  let h0 := h0 &&& 0x3ffffff
  let h1 ← ops.add32 h1 c
  return ⟨h0, h1, h2, h3, h4⟩

/-- `compute h + -p`. -/
def minusP (h : Limbs) : m Limbs := do
  let g0 ← ops.add32 h.l0 5
  let c := g0 >>> 26
  let g0 := g0 &&& 0x3ffffff
  let g1 ← ops.add32 h.l1 c
  let c := g1 >>> 26
  let g1 := g1 &&& 0x3ffffff
  let g2 ← ops.add32 h.l2 c
  let c := g2 >>> 26
  let g2 := g2 &&& 0x3ffffff
  let g3 ← ops.add32 h.l3 c
  let c := g3 >>> 26
  let g3 := g3 &&& 0x3ffffff
  let g4 ← ops.add32 h.l4 c
  return ⟨g0, g1, g2, g3, g4 - 0x4000000⟩

/-- `select h if h < p, or h + -p if h >= p`. -/
def selectLimbs (h g : Limbs) : Limbs :=
  let mask := (g.l4 >>> 31) - 1
  let pick := fun h g : UInt32 => (h &&& ~~~mask) ||| (g &&& mask)
  ⟨pick h.l0 g.l0, pick h.l1 g.l1, pick h.l2 g.l2, pick h.l3 g.l3, pick h.l4 g.l4⟩

/-- `h = h % (2^128)`. -/
def packWords (h : Limbs) : Words where
  w0 := h.l0 ||| (h.l1 <<< 26)
  w1 := (h.l1 >>> 6) ||| (h.l2 <<< 20)
  w2 := (h.l2 >>> 12) ||| (h.l3 <<< 14)
  w3 := (h.l3 >>> 18) ||| (h.l4 <<< 8)

/-- `mac = (h + pad) % (2^128)`. -/
def addPad (h pad : Words) : m Words := do
  let f ← ops.add64 h.w0.toUInt64 pad.w0.toUInt64
  let h0 := f.toUInt32
  let f ← ops.add64 (← ops.add64 h.w1.toUInt64 pad.w1.toUInt64) (f >>> 32)
  let h1 := f.toUInt32
  let f ← ops.add64 (← ops.add64 h.w2.toUInt64 pad.w2.toUInt64) (f >>> 32)
  let h2 := f.toUInt32
  let f ← ops.add64 (← ops.add64 h.w3.toUInt64 pad.w3.toUInt64) (f >>> 32)
  let h3 := f.toUInt32
  return ⟨h0, h1, h2, h3⟩

/-- `poly1305_done`: the tag. -/
def poly1305Done (st : Poly1305State) : m Bytes := do
  let h ← finalBlock ops st
  let h ← fullCarry ops h
  let g ← minusP ops h
  let mac ← addPad ops (packWords (selectLimbs h g)) st.pad
  return store32l mac.w0 ++ store32l mac.w1 ++ store32l mac.w2 ++ store32l mac.w3

/-- The calls for a message in pieces. -/
def poly1305Calls (key : Bytes) (pieces : List Bytes) : Option (m Bytes) := do
  let st ← poly1305Init key
  return pieces.foldlM (poly1305Process ops) st >>= poly1305Done ops

end Functions

/-! ### Words -/

section Words

theorem low_toNat (x : UInt32) : (x &&& 0x3ffffff).toNat = x.toNat % 2 ^ 26 := by
  rw [UInt32.toNat_and]
  exact Nat.and_two_pow_sub_one_eq_mod _ 26

theorem high_toNat (x : UInt32) : (x >>> 26).toNat = x.toNat / 2 ^ 26 := by
  rw [UInt32.toNat_shiftRight]
  exact Nat.shiftRight_eq_div_pow _ 26

theorem limbOf_toNat (d : UInt64) : (limbOf d).toNat = d.toNat % 2 ^ 26 := by
  unfold limbOf
  rw [low_toNat, UInt64.toNat_toUInt32]
  exact Nat.mod_mod_of_dvd _ (by decide)

theorem shift_toNat (x : UInt32) {k : UInt32} (hk : k.toNat < 32) :
    (x >>> k).toNat = x.toNat / 2 ^ k.toNat := by
  rw [UInt32.toNat_shiftRight, Nat.mod_eq_of_lt hk, Nat.shiftRight_eq_div_pow]

/-- The word at the byte `i` of a block, shifted and under a mask, is a limb of the block's number
under the mask. -/
theorem load_limb (x : Bytes) {i : ℕ} {k mask : UInt32} (hi : i ≤ 12) (hk : k.toNat < 32)
    (hlimb : mask.toNat < 2 ^ 26) (hword : mask.toNat < 2 ^ (32 - k.toNat)) :
    ((load32l (x.drop i) >>> k) &&& mask).toNat =
      leNat (x.take 16) / 2 ^ (8 * i + k.toNat) % 2 ^ 26 &&& mask.toNat := by
  have hbyte (n : ℕ) : 256 ^ n = 2 ^ (8 * n) := by
    rw [pow_mul]
    rfl
  rw [UInt32.toNat_and, shift_toNat _ hk, load32l_drop_toNat, leNat_take, hbyte, hbyte]
  refine Nat.eq_of_testBit_eq fun j => ?_
  rw [Nat.testBit_and, Nat.testBit_and]
  by_cases hj : mask.toNat.testBit j
  · -- the bit is in the word and in the limb
    have hle := Nat.ge_two_pow_of_testBit hj
    have hj26 : j < 26 := (Nat.pow_lt_pow_iff_right (by decide)).1 (hle.trans_lt hlimb)
    have hj32 : j < 32 - k.toNat :=
      (Nat.pow_lt_pow_iff_right (by decide)).1 (hle.trans_lt hword)
    have h32 : j + k.toNat < 32 := by omega
    have h128 : j + (8 * i + k.toNat) < 8 * 16 := by omega
    rw [Nat.testBit_div_two_pow, Nat.testBit_mod_two_pow, Nat.testBit_div_two_pow,
      Nat.testBit_mod_two_pow, Nat.testBit_div_two_pow, Nat.testBit_mod_two_pow, decide_eq_true hj26,
      decide_eq_true h32, decide_eq_true h128, Nat.add_assoc, Nat.add_comm k.toNat]
    rfl
  · rw [Bool.not_eq_true] at hj
    rw [hj, Bool.and_false, Bool.and_false]

theorem load_whole_limb (x : Bytes) {i : ℕ} {k : UInt32} (hi : i ≤ 12) (hk : k.toNat ≤ 6) :
    ((load32l (x.drop i) >>> k) &&& 0x3ffffff).toNat =
      leNat (x.take 16) / 2 ^ (8 * i + k.toNat) % 2 ^ 26 := by
  have hword : 2 ^ 26 ≤ 2 ^ (32 - k.toNat) := Nat.pow_le_pow_right (by decide) (by omega)
  rw [load_limb x hi (by omega) (by decide) (Nat.lt_of_lt_of_le (by decide) hword)]
  exact (Nat.and_two_pow_sub_one_eq_mod _ 26).trans (Nat.mod_mod _ _)

end Words

/-! ### A block -/

/-- `2^130 - 5`. -/
def polyP : ℕ := 2 ^ 130 - 5

namespace Limbs

/-- The number in five limbs. -/
def value (h : Limbs) : ℕ :=
  h.l0.toNat + 2 ^ 26 * h.l1.toNat + 2 ^ 52 * h.l2.toNat + 2 ^ 78 * h.l3.toNat +
    2 ^ 104 * h.l4.toNat

/-- Every limb is of 26 bits. -/
structure Clamped (r : Limbs) : Prop where
  l0 : r.l0.toNat < 2 ^ 26
  l1 : r.l1.toNat < 2 ^ 26
  l2 : r.l2.toNat < 2 ^ 26
  l3 : r.l3.toNat < 2 ^ 26
  l4 : r.l4.toNat < 2 ^ 26

/-- What the reduction leaves between two blocks: a little more in the second limb. -/
structure Carried (h : Limbs) : Prop where
  l0 : h.l0.toNat < 2 ^ 26
  l1 : h.l1.toNat < 2 ^ 26 + 2 ^ 6
  l2 : h.l2.toNat < 2 ^ 26
  l3 : h.l3.toNat < 2 ^ 26
  l4 : h.l4.toNat < 2 ^ 26

/-- The bounds with a block of the message added. -/
structure Loaded (h : Limbs) : Prop where
  l0 : h.l0.toNat ≤ 2 ^ 27 + 2 ^ 6
  l1 : h.l1.toNat ≤ 2 ^ 27 + 2 ^ 6
  l2 : h.l2.toNat ≤ 2 ^ 27 + 2 ^ 6
  l3 : h.l3.toNat ≤ 2 ^ 27 + 2 ^ 6
  l4 : h.l4.toNat ≤ 2 ^ 27 + 2 ^ 6

end Limbs

section Block

variable {m : Type → Type} [Monad m] {ops : WordOps m} {h r : Limbs}

/-- A carry into the next sum. -/
theorem carry_step (hops : ops.Exact) {d e : UInt64} (he : e.toNat < 2 ^ 58)
    (hd : d.toNat < 2 ^ 58 - 2 ^ 32) :
    ∃ c s, ops.narrow (e >>> 26) = pure c ∧ ops.add64 d c.toUInt64 = pure s ∧
      s.toNat = d.toNat + e.toNat / 2 ^ 26 := by
  obtain ⟨c, hc, ec⟩ := hops.carry_spec (d := e) (k := 26) (by decide)
    (by change e.toNat / 2 ^ 26 < 2 ^ 32; omega)
  have ec : c.toNat = e.toNat / 2 ^ 26 := ec
  obtain ⟨s, hs, es⟩ := hops.accumulate_spec (d := d) (c := c) (by omega)
  exact ⟨c, s, hc, hs, es.trans (congrArg (d.toNat + ·) ec)⟩

variable [LawfulMonad m]

/-- The sum of the products does not overflow. -/
theorem dot_spec (hops : ops.Exact) (hh : h.Loaded) {n : ℕ} (hn : n ≤ 5 * 2 ^ 26)
    (s0 s1 s2 s3 s4 : UInt32) (h0 : s0.toNat ≤ n) (h1 : s1.toNat ≤ n) (h2 : s2.toNat ≤ n)
    (h3 : s3.toNat ≤ n) (h4 : s4.toNat ≤ n) :
    ∃ d, dot ops h s0 s1 s2 s3 s4 = pure d ∧
      d.toNat = h.l0.toNat * s0.toNat + h.l1.toNat * s1.toNat + h.l2.toNat * s2.toNat +
        h.l3.toNat * s3.toNat + h.l4.toNat * s4.toNat ∧
      d.toNat ≤ 5 * ((2 ^ 27 + 2 ^ 6) * n) := by
  have b0 := Nat.mul_le_mul hh.l0 h0
  have b1 := Nat.mul_le_mul hh.l1 h1
  have b2 := Nat.mul_le_mul hh.l2 h2
  have b3 := Nat.mul_le_mul hh.l3 h3
  have b4 := Nat.mul_le_mul hh.l4 h4
  obtain ⟨p0, q0, e0⟩ := hops.product_spec h.l0 s0
  obtain ⟨p1, q1, e1⟩ := hops.product_spec h.l1 s1
  obtain ⟨p2, q2, e2⟩ := hops.product_spec h.l2 s2
  obtain ⟨p3, q3, e3⟩ := hops.product_spec h.l3 s3
  obtain ⟨p4, q4, e4⟩ := hops.product_spec h.l4 s4
  rw [← e0] at b0
  rw [← e1] at b1
  rw [← e2] at b2
  rw [← e3] at b3
  rw [← e4] at b4
  rw [← e0, ← e1, ← e2, ← e3, ← e4]
  obtain ⟨d1, hd1, f1⟩ := hops.add64_spec (a := p0) (b := p1) (by omega)
  obtain ⟨d2, hd2, f2⟩ := hops.add64_spec (a := d1) (b := p2) (by omega)
  obtain ⟨d3, hd3, f3⟩ := hops.add64_spec (a := d2) (b := p3) (by omega)
  obtain ⟨d4, hd4, f4⟩ := hops.add64_spec (a := d3) (b := p4) (by omega)
  refine ⟨d4, ?_, by rw [f4, f3, f2, f1], by omega⟩
  unfold dot
  simp only [q0, q1, q2, q3, q4, hd1, hd2, hd3, hd4, pure_bind]

/-- The carries keep the number, up to a multiple of `2^130 - 5`. -/
theorem partialReduce_spec (hops : ops.Exact) (d0 d1 d2 d3 d4 : UInt64)
    (h0 : d0.toNat < 2 ^ 58 - 2 ^ 32) (h1 : d1.toNat < 2 ^ 58 - 2 ^ 32)
    (h2 : d2.toNat < 2 ^ 58 - 2 ^ 32) (h3 : d3.toNat < 2 ^ 58 - 2 ^ 32)
    (h4 : d4.toNat < 6 * 2 ^ 53) :
    ∃ h, partialReduce ops d0 d1 d2 d3 d4 = pure h ∧ h.Carried ∧
      ∃ c, h.value + polyP * c = d0.toNat + 2 ^ 26 * d1.toNat + 2 ^ 52 * d2.toNat +
        2 ^ 78 * d3.toNat + 2 ^ 104 * d4.toNat := by
  obtain ⟨c0, d1', hc0, hd1, e1⟩ := carry_step hops (e := d0) (d := d1) (by omega) h1
  obtain ⟨c1, d2', hc1, hd2, e2⟩ := carry_step hops (e := d1') (d := d2) (by omega) h2
  obtain ⟨c2, d3', hc2, hd3, e3⟩ := carry_step hops (e := d2') (d := d3) (by omega) h3
  obtain ⟨c3, d4', hc3, hd4, e4⟩ := carry_step hops (e := d3') (d := d4) (by omega) (by omega)
  obtain ⟨c4, hc4, e5⟩ := hops.carry_spec (d := d4') (k := 26) (by decide)
    (by change d4'.toNat / 2 ^ 26 < 2 ^ 32; omega)
  have e5 : c4.toNat = d4'.toNat / 2 ^ 26 := e5
  have hfive : (5 : UInt32).toNat = 5 := rfl
  obtain ⟨p, hp, ep⟩ := hops.mul32_spec (a := c4) (b := 5) (by rw [hfive]; omega)
  rw [hfive] at ep
  have hl := limbOf_toNat
  obtain ⟨h0', hh0, e6⟩ := hops.add32_spec (a := limbOf d0) (b := p) (by rw [hl]; omega)
  rw [hl] at e6
  obtain ⟨h1', hh1, e7⟩ := hops.add32_spec (a := limbOf d1') (b := h0' >>> 26)
    (by rw [hl, high_toNat]; omega)
  rw [hl, high_toNat] at e7
  refine ⟨⟨h0' &&& 0x3ffffff, h1', limbOf d2', limbOf d3', limbOf d4'⟩, ?_, ⟨?_, ?_, ?_, ?_, ?_⟩,
    d4'.toNat / 2 ^ 26, ?_⟩
  · unfold partialReduce
    simp only [hc0, hd1, hc1, hd2, hc2, hd3, hc3, hd4, hc4, hp, hh0, hh1, pure_bind]
  · rw [low_toNat]
    omega
  · rw [e7]
    omega
  · rw [hl]
    omega
  · rw [hl]
    omega
  · rw [hl]
    omega
  · unfold Limbs.value polyP
    rw [low_toNat, e7, hl, hl, hl]
    omega

/-- A block of the message is added, with a bit above it if it is a whole one. -/
theorem addBlock_spec (hops : ops.Exact) (hh : h.Carried) (final : Bool) (inp : Bytes) :
    ∃ h', addBlock ops (if final then 0 else 0x1000000) h inp = pure h' ∧ h'.Loaded ∧
      h'.value = h.value + leNat (inp.take 16) + if final then 0 else 2 ^ 128 := by
  have hn : leNat (inp.take 16) < 2 ^ 128 := by
    rw [leNat_take]
    exact Nat.mod_lt _ (by decide)
  have e0 : (load32l inp &&& 0x3ffffff).toNat = leNat (inp.take 16) % 2 ^ 26 := by
    rw [low_toNat, load32l_toNat, leNat_take]
    omega
  have e1 : ((load32l (inp.drop 3) >>> 2) &&& 0x3ffffff).toNat =
      leNat (inp.take 16) / 2 ^ 26 % 2 ^ 26 := load_whole_limb inp (by decide) (by decide)
  have e2 : ((load32l (inp.drop 6) >>> 4) &&& 0x3ffffff).toNat =
      leNat (inp.take 16) / 2 ^ 52 % 2 ^ 26 := load_whole_limb inp (by decide) (by decide)
  have e3 : ((load32l (inp.drop 9) >>> 6) &&& 0x3ffffff).toNat =
      leNat (inp.take 16) / 2 ^ 78 % 2 ^ 26 := load_whole_limb inp (by decide) (by decide)
  have e4 : (load32l (inp.drop 12) >>> 8).toNat = leNat (inp.take 16) / 2 ^ 104 := by
    rw [shift_toNat _ (by decide), load32l_drop_toNat, leNat_take]
    change leNat inp / 256 ^ 12 % 2 ^ 32 / 2 ^ 8 = _
    omega
  generalize leNat (inp.take 16) = n at *
  have hhi : ((load32l (inp.drop 12) >>> 8) ||| (if final then 0 else 0x1000000)).toNat =
      n / 2 ^ 104 + if final then 0 else 2 ^ 24 := by
    rw [UInt32.toNat_or, e4]
    cases final with
    | true => exact Nat.or_zero _
    | false =>
      have hor := Nat.two_pow_add_eq_or_of_lt (show n / 2 ^ 104 < 2 ^ 24 by omega) 1
      rw [Nat.or_comm, Nat.add_comm]
      exact hor.symm
  obtain ⟨l0, l1, l2, l3, l4⟩ := hh
  obtain ⟨h0', q0, a0⟩ := hops.add32_spec (a := h.l0) (b := load32l inp &&& 0x3ffffff)
    (by rw [e0]; omega)
  obtain ⟨h1', q1, a1⟩ := hops.add32_spec (a := h.l1)
    (b := (load32l (inp.drop 3) >>> 2) &&& 0x3ffffff) (by rw [e1]; omega)
  obtain ⟨h2', q2, a2⟩ := hops.add32_spec (a := h.l2)
    (b := (load32l (inp.drop 6) >>> 4) &&& 0x3ffffff) (by rw [e2]; omega)
  obtain ⟨h3', q3, a3⟩ := hops.add32_spec (a := h.l3)
    (b := (load32l (inp.drop 9) >>> 6) &&& 0x3ffffff) (by rw [e3]; omega)
  obtain ⟨h4', q4, a4⟩ := hops.add32_spec (a := h.l4)
    (b := (load32l (inp.drop 12) >>> 8) ||| (if final then 0 else 0x1000000))
    (by rw [hhi]; split_ifs <;> omega)
  rw [e0] at a0
  rw [e1] at a1
  rw [e2] at a2
  rw [e3] at a3
  rw [hhi] at a4
  refine ⟨⟨h0', h1', h2', h3', h4'⟩, ?_, ⟨?_, ?_, ?_, ?_, ?_⟩, ?_⟩
  · unfold addBlock
    simp only [q0, q1, q2, q3, q4, pure_bind]
  · rw [a0]
    omega
  · rw [a1]
    omega
  · rw [a2]
    omega
  · rw [a3]
    omega
  · rw [a4]
    split_ifs <;> omega
  · unfold Limbs.value
    rw [a0, a1, a2, a3, a4]
    split_ifs <;> omega

theorem mulLimbs_spec (hops : ops.Exact) (hr : r.Clamped) (hh : h.Loaded) :
    ∃ h', mulLimbs ops r h = pure h' ∧ h'.Carried ∧
      ∃ c, h'.value + polyP * c = h.value * r.value := by
  have hs : ∀ {x : UInt32}, x.toNat < 2 ^ 26 →
      ∃ p, ops.mul32 x 5 = pure p ∧ p.toNat = x.toNat * 5 := by
    intro x hx
    exact hops.mul32_spec (by change x.toNat * 5 < 2 ^ 32; omega)
  obtain ⟨s1, q1, e1⟩ := hs hr.l1
  obtain ⟨s2, q2, e2⟩ := hs hr.l2
  obtain ⟨s3, q3, e3⟩ := hs hr.l3
  obtain ⟨s4, q4, e4⟩ := hs hr.l4
  obtain ⟨r0, r1, r2, r3, r4⟩ := hr
  obtain ⟨d0, hd0, f0, b0⟩ := dot_spec hops hh (n := 5 * 2 ^ 26) (by omega) r.l0 s4 s3 s2 s1
    (by omega) (by omega) (by omega) (by omega) (by omega)
  obtain ⟨d1, hd1, f1, b1⟩ := dot_spec hops hh (n := 5 * 2 ^ 26) (by omega) r.l1 r.l0 s4 s3 s2
    (by omega) (by omega) (by omega) (by omega) (by omega)
  obtain ⟨d2, hd2, f2, b2⟩ := dot_spec hops hh (n := 5 * 2 ^ 26) (by omega) r.l2 r.l1 r.l0 s4 s3
    (by omega) (by omega) (by omega) (by omega) (by omega)
  obtain ⟨d3, hd3, f3, b3⟩ := dot_spec hops hh (n := 5 * 2 ^ 26) (by omega) r.l3 r.l2 r.l1 r.l0 s4
    (by omega) (by omega) (by omega) (by omega) (by omega)
  obtain ⟨d4, hd4, f4, b4⟩ := dot_spec hops hh (n := 2 ^ 26) (by omega) r.l4 r.l3 r.l2 r.l1 r.l0
    (by omega) (by omega) (by omega) (by omega) (by omega)
  obtain ⟨h', hh', hcarried, c, hc⟩ := partialReduce_spec hops d0 d1 d2 d3 d4
    (by omega) (by omega) (by omega) (by omega) (by omega)
  -- the products above `2 ^ 130` count five times
  refine ⟨h', ?_, hcarried, c + (h.l1.toNat * r.l4.toNat + h.l2.toNat * r.l3.toNat +
    h.l3.toNat * r.l2.toNat + h.l4.toNat * r.l1.toNat +
    2 ^ 26 * (h.l2.toNat * r.l4.toNat + h.l3.toNat * r.l3.toNat + h.l4.toNat * r.l2.toNat) +
    2 ^ 52 * (h.l3.toNat * r.l4.toNat + h.l4.toNat * r.l3.toNat) +
    2 ^ 78 * (h.l4.toNat * r.l4.toNat)), ?_⟩
  · unfold mulLimbs
    simp only [q1, q2, q3, q4, hd0, hd1, hd2, hd3, hd4, hh', pure_bind]
  · rw [mul_add, ← add_assoc, hc, f0, f1, f2, f3, f4, e1, e2, e3, e4]
    unfold Limbs.value polyP
    norm_num only
    ring

end Block

/-! ### The polynomial -/

/-- The polynomial of a message at `r`: its coefficients are the blocks, with a bit behind each. -/
def polyEval (r acc : ZMod polyP) (msg : Bytes) : ZMod polyP :=
  if hmsg : msg = [] then acc
  else
    have : (msg.drop 16).length < msg.length := by
      have := List.length_pos_iff.2 hmsg
      rw [List.length_drop]
      omega
    polyEval r ((acc + (leNat (msg.take 16 ++ [1]) : ℕ)) * r) (msg.drop 16)
termination_by msg.length

section Polynomial

variable {r acc : ZMod polyP}

@[simp] theorem polyEval_nil : polyEval r acc [] = acc := by
  rw [polyEval, dif_pos rfl]

theorem polyEval_of_ne {msg : Bytes} (h : msg ≠ []) :
    polyEval r acc msg =
      polyEval r ((acc + (leNat (msg.take 16 ++ [1]) : ℕ)) * r) (msg.drop 16) := by
  rw [polyEval, dif_neg h]

/-- Whole blocks can be taken off at the front. -/
theorem polyEval_append {x : Bytes} (h : 16 ∣ x.length) (y : Bytes) :
    polyEval r acc (x ++ y) = polyEval r (polyEval r acc x) y := by
  induction hn : x.length using Nat.strong_induction_on generalizing x acc with
  | _ n ih =>
    by_cases hx : x = []
    · rw [hx, polyEval_nil, List.nil_append]
    · have hpos := List.length_pos_iff.2 hx
      have hle : 16 ≤ x.length := Nat.le_of_dvd hpos h
      have hdrop : (x.drop 16).length = x.length - 16 := List.length_drop
      rw [polyEval_of_ne (List.append_ne_nil_of_left_ne_nil hx y), polyEval_of_ne hx,
        List.take_append_of_le_length hle, List.drop_append_of_le_length hle,
        ih (x.length - 16) (by omega) (by omega) hdrop]

theorem leNat_whole {x : Bytes} (h : 16 ≤ x.length) :
    leNat (x.take 16 ++ [1]) = leNat (x.take 16) + 2 ^ 128 := by
  have hlen : (x.take 16).length = 16 := by
    rw [List.length_take, Nat.min_eq_left h]
  rw [leNat_append, hlen]
  rfl

end Polynomial

section Message

variable {m : Type → Type} [Monad m] {ops : WordOps m} {h r : Limbs}

/-- A block is a step of the polynomial. -/
theorem loadMul_spec [LawfulMonad m] (hops : ops.Exact) (hr : r.Clamped) (hh : h.Carried)
    (final : Bool) (inp : Bytes) :
    ∃ h', (addBlock ops (if final then 0 else 0x1000000) h inp >>= mulLimbs ops r) = pure h' ∧
      h'.Carried ∧ (h'.value : ZMod polyP) =
        (h.value + (leNat (inp.take 16) + if final then 0 else 2 ^ 128 : ℕ)) * r.value := by
  obtain ⟨h₁, hadd, hloaded, hvalue⟩ := addBlock_spec hops hh final inp
  obtain ⟨h₂, hmul, hcarried, c, hc⟩ := mulLimbs_spec hops hr hloaded
  refine ⟨h₂, by rw [hadd, pure_bind, hmul], hcarried, ?_⟩
  have hcast := congrArg (Nat.cast (R := ZMod polyP)) hc
  rw [hvalue, Nat.cast_add, Nat.cast_mul, ZMod.natCast_self, zero_mul, add_zero, Nat.cast_mul,
    add_assoc, Nat.cast_add] at hcast
  exact hcast

theorem poly1305Block_short {final : Bool} {inp : Bytes} (hlen : inp.length < 16) :
    poly1305Block ops r final h inp = pure h := by
  rw [poly1305Block, dif_neg (Nat.not_le.2 hlen)]

theorem poly1305Block_long [LawfulMonad m] {final : Bool} {inp : Bytes} (hlen : 16 ≤ inp.length)
    {h' : Limbs}
    (hstep : (addBlock ops (if final then 0 else 0x1000000) h inp >>= mulLimbs ops r) = pure h') :
    poly1305Block ops r final h inp = poly1305Block ops r final h' (inp.drop 16) := by
  rw [poly1305Block, dif_pos hlen]
  dsimp only
  rw [← bind_assoc, hstep, pure_bind]

variable [LawfulMonad m]

/-- Whole blocks are evaluated. -/
theorem poly1305Block_spec (hops : ops.Exact) (hr : r.Clamped) (hh : h.Carried) {inp : Bytes}
    (hlen : 16 ∣ inp.length) :
    ∃ h', poly1305Block ops r false h inp = pure h' ∧ h'.Carried ∧
      (h'.value : ZMod polyP) = polyEval r.value h.value inp := by
  induction hn : inp.length using Nat.strong_induction_on generalizing inp h with
  | _ n ih =>
    by_cases hinp : inp = []
    · rw [hinp, poly1305Block_short (by decide), polyEval_nil]
      exact ⟨h, rfl, hh, rfl⟩
    · have hpos := List.length_pos_iff.2 hinp
      have hle : 16 ≤ inp.length := Nat.le_of_dvd hpos hlen
      have hdrop : (inp.drop 16).length = inp.length - 16 := List.length_drop
      obtain ⟨h₁, hstep, hcarried, hvalue⟩ := loadMul_spec hops hr hh false inp
      obtain ⟨h₂, hrest, hcarried', hvalue'⟩ :=
        ih (inp.length - 16) (by omega) hcarried (by rw [hdrop]; omega) hdrop
      refine ⟨h₂, by rw [poly1305Block_long hle hstep, hrest], hcarried', ?_⟩
      rw [hvalue', hvalue, polyEval_of_ne hinp, leNat_whole hle]
      rfl

/-- The state behind a message. -/
structure Poly1305State.Absorbed (r : Limbs) (pad : Words) (msg : Bytes) (st : Poly1305State) :
    Prop where
  r_eq : st.r = r
  pad_eq : st.pad = pad
  final_eq : st.final = false
  carried : st.h.Carried
  value : ∃ whole : Bytes, msg = whole ++ st.buffer ∧ 16 ∣ whole.length ∧
    (st.h.value : ZMod polyP) = polyEval r.value 0 whole

variable {st : Poly1305State} {pad : Words} {msg : Bytes}

/-- The part of `poly1305_process` behind the leftover. -/
theorem processBlocks_absorbed (hops : ops.Exact) (st : Poly1305State) (whole : Bytes)
    (hr : r.Clamped) (hst : st.r = r) (hpad : st.pad = pad) (hfinal : st.final = false)
    (hcarried : st.h.Carried) (hlen : 16 ∣ whole.length)
    (hvalue : (st.h.value : ZMod polyP) = polyEval r.value 0 whole) (inp : Bytes) :
    ∃ st', processBlocks ops st inp = pure st' ∧ st'.Absorbed r pad (whole ++ inp) := by
  have htake : (inp.take (inp.length / 16 * 16)).length = inp.length / 16 * 16 := by
    rw [List.length_take]
    omega
  have hdiv : 16 ∣ (inp.take (inp.length / 16 * 16)).length := by
    rw [htake]
    exact Nat.dvd_mul_left _ _
  obtain ⟨h', hblock, hcarried', hvalue'⟩ := poly1305Block_spec hops hr hcarried hdiv
  unfold processBlocks
  rw [hst, hfinal, hblock, pure_bind]
  refine ⟨_, rfl, rfl, hpad, rfl, hcarried', whole ++ inp.take (inp.length / 16 * 16), ?_, ?_, ?_⟩
  · rw [List.append_assoc]
    exact congrArg (whole ++ ·) (List.take_append_drop _ inp).symm
  · rw [List.length_append]
    exact Nat.dvd_add hlen hdiv
  · rw [hvalue', hvalue, polyEval_append hlen]

/-- **A call adds its bytes to the message.** -/
theorem poly1305Process_absorbed (hops : ops.Exact) (hr : r.Clamped) (h : st.Absorbed r pad msg)
    (inp : Bytes) :
    ∃ st', poly1305Process ops st inp = pure st' ∧ st'.Absorbed r pad (msg ++ inp) := by
  obtain ⟨hst, hpad, hfinal, hcarried, whole, rfl, hlen, hvalue⟩ := h
  have hbuffer := st.leftover_lt
  unfold poly1305Process
  split_ifs with hnil hleft
  · rw [List.length_eq_zero_iff.1 hnil, List.append_nil]
    exact ⟨st, rfl, hst, hpad, hfinal, hcarried, whole, rfl, hlen, hvalue⟩
  · dsimp only
    have hsplit := List.take_append_drop (min (16 - st.buffer.length) inp.length) inp
    have htake : (inp.take (min (16 - st.buffer.length) inp.length)).length =
        min (16 - st.buffer.length) inp.length := by
      rw [List.length_take]
      omega
    split_ifs with hshort
    · -- all of it goes to the buffer
      rw [List.length_append, htake] at hshort
      have hall : inp.take (min (16 - st.buffer.length) inp.length) = inp :=
        List.take_of_length_le (by omega)
      refine ⟨_, rfl, hst, hpad, hfinal, hcarried, whole, ?_, hlen, hvalue⟩
      change whole ++ st.buffer ++ inp =
        whole ++ (st.buffer ++ inp.take (min (16 - st.buffer.length) inp.length))
      rw [hall, List.append_assoc]
    · -- the buffer is full
      rw [List.length_append, htake] at hshort
      have hfull : (st.buffer ++ inp.take (min (16 - st.buffer.length) inp.length)).length =
          16 := by
        rw [List.length_append, htake]
        omega
      have hdvd : 16 ∣ (st.buffer ++ inp.take (min (16 - st.buffer.length) inp.length)).length :=
        Dvd.intro 1 hfull.symm
      obtain ⟨h', hblock, hcarried', hvalue'⟩ := poly1305Block_spec hops hr hcarried hdvd
      rw [← hst, ← hfinal] at hblock
      rw [hblock, pure_bind]
      obtain ⟨st', hrest, habsorbed⟩ := processBlocks_absorbed hops { st with h := h' }
        (whole ++ (st.buffer ++ inp.take (min (16 - st.buffer.length) inp.length)))
        hr hst hpad hfinal hcarried'
        (by rw [List.length_append]; exact Nat.dvd_add hlen hdvd)
        (by rw [polyEval_append hlen, ← hvalue, ← hvalue'])
        (inp.drop (min (16 - st.buffer.length) inp.length))
      have hmsg : whole ++ st.buffer ++ inp =
          whole ++ (st.buffer ++ inp.take (min (16 - st.buffer.length) inp.length)) ++
            inp.drop (min (16 - st.buffer.length) inp.length) := by
        conv_lhs => rw [← hsplit]
        simp only [List.append_assoc]
      rw [hmsg]
      exact ⟨st', hrest, habsorbed⟩
  · have hempty : st.buffer = [] := List.length_eq_zero_iff.1 (Nat.eq_zero_of_not_pos hleft)
    rw [hempty, List.append_nil]
    exact processBlocks_absorbed hops st whole hr hst hpad hfinal hcarried hlen hvalue inp

/-- The last block, with a bit behind the message. -/
theorem finalBlock_spec (hops : ops.Exact) (hr : r.Clamped) (h : st.Absorbed r pad msg) :
    ∃ h', finalBlock ops st = pure h' ∧ h'.Carried ∧
      (h'.value : ZMod polyP) = polyEval r.value 0 msg := by
  obtain ⟨hst, hpad, hfinal, hcarried, whole, rfl, hlen, hvalue⟩ := h
  have hbuffer := st.leftover_lt
  unfold finalBlock
  split_ifs with hleft
  · have hfull : (st.buffer ++ [1] ++ List.replicate (15 - st.buffer.length) 0).length = 16 := by
      simp only [List.length_append, List.length_singleton, List.length_replicate]
      omega
    have hshort : ((st.buffer ++ [1] ++ List.replicate (15 - st.buffer.length) 0).drop 16).length <
        16 := by
      rw [List.length_drop, hfull]
      decide
    obtain ⟨h', hstep, hcarried', hvalue'⟩ := loadMul_spec hops hr hcarried true
      (st.buffer ++ [1] ++ List.replicate (15 - st.buffer.length) 0)
    rw [List.take_of_length_le (Nat.le_of_eq hfull), leNat_append_zeros] at hvalue'
    rw [hst, poly1305Block_long (Nat.le_of_eq hfull.symm) hstep, poly1305Block_short hshort]
    refine ⟨h', rfl, hcarried', ?_⟩
    rw [hvalue', hvalue, polyEval_append hlen, polyEval_of_ne (List.length_pos_iff.1 hleft),
      List.take_of_length_le (by omega), List.drop_of_length_le (by omega), polyEval_nil]
    rfl
  · rw [List.length_eq_zero_iff.1 (Nat.eq_zero_of_not_pos hleft), List.append_nil]
    exact ⟨st.h, rfl, hcarried, hvalue⟩

end Message

/-! ### The tag -/

/-- The number in four words. -/
def Words.value (w : Words) : ℕ :=
  w.w0.toNat + 2 ^ 32 * w.w1.toNat + 2 ^ 64 * w.w2.toNat + 2 ^ 96 * w.w3.toNat

section Tag

variable {m : Type → Type} [Monad m] [LawfulMonad m] {ops : WordOps m} {h : Limbs}

theorem five_toNat : (5 : UInt32).toNat = 5 := rfl

/-- All carries are taken. -/
theorem fullCarry_spec (hops : ops.Exact) (hh : h.Carried) :
    ∃ h', fullCarry ops h = pure h' ∧ h'.Clamped ∧ ∃ c, h'.value + polyP * c = h.value := by
  obtain ⟨l0, l1, l2, l3, l4⟩ := hh
  have hlow := low_toNat
  have hhigh := high_toNat
  obtain ⟨h2, q2, e2⟩ := hops.add32_spec (a := h.l2) (b := h.l1 >>> 26) (by rw [hhigh]; omega)
  rw [hhigh] at e2
  obtain ⟨h3, q3, e3⟩ := hops.add32_spec (a := h.l3) (b := h2 >>> 26) (by rw [hhigh]; omega)
  rw [hhigh] at e3
  obtain ⟨h4, q4, e4⟩ := hops.add32_spec (a := h.l4) (b := h3 >>> 26) (by rw [hhigh]; omega)
  rw [hhigh] at e4
  obtain ⟨p, hp, ep⟩ := hops.mul32_spec (a := h4 >>> 26) (b := 5)
    (by rw [hhigh, five_toNat]; omega)
  rw [hhigh, five_toNat] at ep
  obtain ⟨h0, q0, e0⟩ := hops.add32_spec (a := h.l0) (b := p) (by omega)
  obtain ⟨h1, q1, e1⟩ := hops.add32_spec (a := h.l1 &&& 0x3ffffff) (b := h0 >>> 26)
    (by rw [hlow, hhigh]; omega)
  rw [hlow, hhigh] at e1
  refine ⟨⟨h0 &&& 0x3ffffff, h1, h2 &&& 0x3ffffff, h3 &&& 0x3ffffff, h4 &&& 0x3ffffff⟩, ?_,
    ⟨?_, ?_, ?_, ?_, ?_⟩, h4.toNat / 2 ^ 26, ?_⟩
  · unfold fullCarry
    simp only [q2, q3, q4, hp, q0, q1, pure_bind]
  · rw [hlow]
    omega
  · -- a carry out of the lowest limb comes from one out of the highest, and so from `h.l1`
    rw [e1]
    omega
  · rw [hlow]
    omega
  · rw [hlow]
    omega
  · rw [hlow]
    omega
  · unfold Limbs.value polyP
    rw [hlow, e1, hlow, hlow, hlow]
    omega

/-- `h + 5`, without its bit at `2^130`; or the highest bit of the word is set. -/
theorem minusP_spec (hops : ops.Exact) (hh : h.Clamped) :
    ∃ g, minusP ops h = pure g ∧ (h.value < polyP → 2 ^ 31 ≤ g.l4.toNat) ∧
      (polyP ≤ h.value → g.l4.toNat = 0 ∧ g.Clamped ∧ g.value + polyP = h.value) := by
  obtain ⟨l0, l1, l2, l3, l4⟩ := hh
  have hlow := low_toNat
  have hhigh := high_toNat
  obtain ⟨g0, q0, e0⟩ := hops.add32_spec (a := h.l0) (b := 5) (by rw [five_toNat]; omega)
  rw [five_toNat] at e0
  obtain ⟨g1, q1, e1⟩ := hops.add32_spec (a := h.l1) (b := g0 >>> 26) (by rw [hhigh]; omega)
  rw [hhigh] at e1
  obtain ⟨g2, q2, e2⟩ := hops.add32_spec (a := h.l2) (b := g1 >>> 26) (by rw [hhigh]; omega)
  rw [hhigh] at e2
  obtain ⟨g3, q3, e3⟩ := hops.add32_spec (a := h.l3) (b := g2 >>> 26) (by rw [hhigh]; omega)
  rw [hhigh] at e3
  obtain ⟨g4, q4, e4⟩ := hops.add32_spec (a := h.l4) (b := g3 >>> 26) (by rw [hhigh]; omega)
  rw [hhigh] at e4
  have e5 : (g4 - 0x4000000).toNat =
      (2 ^ 32 - 2 ^ 26 + (h.l4.toNat + g3.toNat / 2 ^ 26)) % 2 ^ 32 := by
    rw [UInt32.toNat_sub, e4]
    rfl
  refine ⟨⟨g0 &&& 0x3ffffff, g1 &&& 0x3ffffff, g2 &&& 0x3ffffff, g3 &&& 0x3ffffff,
    g4 - 0x4000000⟩, ?_, ?_, ?_⟩
  · unfold minusP
    simp only [q0, q1, q2, q3, q4, pure_bind]
  · unfold Limbs.value polyP
    intro hsmall
    dsimp only
    omega
  · unfold Limbs.value polyP
    intro hlarge
    have hzero : (g4 - 0x4000000).toNat = 0 := by omega
    refine ⟨hzero, ⟨?_, ?_, ?_, ?_, ?_⟩, ?_⟩
    · rw [hlow]
      omega
    · rw [hlow]
      omega
    · rw [hlow]
      omega
    · rw [hlow]
      omega
    · rw [hzero]
      decide
    · rw [hlow, hlow, hlow, hlow, hzero]
      omega

/-- The limbs of the number modulo `2^130 - 5` are taken. -/
theorem selectLimbs_spec (hops : ops.Exact) (hh : h.Clamped) :
    ∃ g, minusP ops h = pure g ∧ (selectLimbs h g).Clamped ∧
      (selectLimbs h g).value = h.value % polyP := by
  obtain ⟨g, hg, hless, hge⟩ := minusP_spec hops hh
  refine ⟨g, hg, ?_⟩
  have htop : g.l4.toNat < 2 ^ 32 := g.l4.toNat_lt
  have hbit : (g.l4 >>> 31).toNat = g.l4.toNat / 2 ^ 31 := by
    rw [UInt32.toNat_shiftRight]
    exact Nat.shiftRight_eq_div_pow _ 31
  rcases Nat.lt_or_ge h.value polyP with hlt | hle
  · have hone : g.l4 >>> 31 = 1 := by
      have := hless hlt
      refine UInt32.toNat_inj.1 ?_
      rw [hbit]
      change _ = 1
      omega
    have hsel : selectLimbs h g = h := by
      unfold selectLimbs
      rw [hone]
      simp
    rw [hsel, Nat.mod_eq_of_lt hlt]
    exact ⟨hh, rfl⟩
  · obtain ⟨hzero, hclamped, hvalue⟩ := hge hle
    have hnone : g.l4 >>> 31 = 0 := by
      refine UInt32.toNat_inj.1 ?_
      rw [hbit, hzero]
      rfl
    have hsel : selectLimbs h g = g := by
      unfold selectLimbs
      rw [hnone]
      have hmask : (0 : UInt32) - 1 = ~~~0 := by decide
      rw [hmask]
      simp
    have hbound : h.value < 2 ^ 130 := by
      obtain ⟨l0, l1, l2, l3, l4⟩ := hh
      unfold Limbs.value
      omega
    rw [hsel, ← hvalue, Nat.add_mod_right, Nat.mod_eq_of_lt]
    · exact ⟨hclamped, rfl⟩
    · unfold polyP at hvalue ⊢
      omega

/-- Bits that are put together. -/
theorem or_shift_toNat {a b i : ℕ} (ha : a < 2 ^ i) (hi : i ≤ 32) :
    a ||| b * 2 ^ i % 2 ^ 32 = (a + b * 2 ^ i) % 2 ^ 32 := by
  have hsplit : 2 ^ 32 = 2 ^ i * 2 ^ (32 - i) := by
    rw [← pow_add, Nat.add_sub_cancel' hi]
  have hor := Nat.two_pow_add_eq_or_of_lt ha (b % 2 ^ (32 - i))
  rw [hsplit, Nat.mul_comm b, Nat.mul_mod_mul_left, Nat.or_comm, ← hor, Nat.mod_mul,
    Nat.add_mul_mod_self_left, Nat.mod_eq_of_lt ha,
    Nat.add_mul_div_left _ _ (Nat.two_pow_pos i), Nat.div_eq_of_lt ha, Nat.zero_add, Nat.add_comm]

theorem packed_toNat (x y s k : UInt32) (hs : s.toNat < 32) (hk : k.toNat < 32)
    (h : x.toNat / 2 ^ s.toNat < 2 ^ k.toNat) :
    ((x >>> s) ||| (y <<< k)).toNat =
      (x.toNat / 2 ^ s.toNat + y.toNat * 2 ^ k.toNat) % 2 ^ 32 := by
  rw [UInt32.toNat_or, UInt32.toNat_shiftRight, UInt32.toNat_shiftLeft, Nat.mod_eq_of_lt hs,
    Nat.mod_eq_of_lt hk, Nat.shiftRight_eq_div_pow, Nat.shiftLeft_eq, or_shift_toNat h hk.le]

theorem packWords_spec (hh : h.Clamped) : (packWords h).value = h.value % 2 ^ 128 := by
  obtain ⟨l0, l1, l2, l3, l4⟩ := hh
  have e0 := packed_toNat h.l0 h.l1 0 26 (by decide) (by decide) (by simpa using l0)
  have e1 := packed_toNat h.l1 h.l2 6 20 (by decide) (by decide)
    (by change h.l1.toNat / 2 ^ 6 < 2 ^ 20; omega)
  have e2 := packed_toNat h.l2 h.l3 12 14 (by decide) (by decide)
    (by change h.l2.toNat / 2 ^ 12 < 2 ^ 14; omega)
  have e3 := packed_toNat h.l3 h.l4 18 8 (by decide) (by decide)
    (by change h.l3.toNat / 2 ^ 18 < 2 ^ 8; omega)
  rw [UInt32.shiftRight_zero] at e0
  unfold packWords Words.value Limbs.value
  dsimp only
  rw [e0, e1, e2, e3]
  change (h.l0.toNat / 2 ^ 0 + h.l1.toNat * 2 ^ 26) % 2 ^ 32 +
    2 ^ 32 * ((h.l1.toNat / 2 ^ 6 + h.l2.toNat * 2 ^ 20) % 2 ^ 32) +
    2 ^ 64 * ((h.l2.toNat / 2 ^ 12 + h.l3.toNat * 2 ^ 14) % 2 ^ 32) +
    2 ^ 96 * ((h.l3.toNat / 2 ^ 18 + h.l4.toNat * 2 ^ 8) % 2 ^ 32) = _
  omega

theorem addPad_spec (hops : ops.Exact) (h pad : Words) :
    ∃ w, addPad ops h pad = pure w ∧ w.value = (h.value + pad.value) % 2 ^ 128 := by
  have hhigh : ∀ d : UInt64, (d >>> 32).toNat = d.toNat / 2 ^ 32 := by
    intro d
    rw [UInt64.toNat_shiftRight]
    exact Nat.shiftRight_eq_div_pow _ 32
  -- two words and the carry of the sum before them
  have hsum : ∀ (w v : UInt32) (f : UInt64), ∃ s t, ops.add64 w.toUInt64 v.toUInt64 = pure s ∧
      ops.add64 s (f >>> 32) = pure t ∧ t.toNat = w.toNat + v.toNat + f.toNat / 2 ^ 32 := by
    intro w v f
    have hw := w.toNat_lt
    have hv := v.toNat_lt
    have hf := f.toNat_lt
    obtain ⟨s, hs, es⟩ := hops.accumulate_spec (d := w.toUInt64) (c := v)
      (by rw [UInt32.toNat_toUInt64]; omega)
    rw [UInt32.toNat_toUInt64] at es
    obtain ⟨t, ht, et⟩ := hops.add64_spec (a := s) (b := f >>> 32) (by rw [hhigh]; omega)
    exact ⟨s, t, hs, ht, by rw [et, es, hhigh]⟩
  have hw0 := h.w0.toNat_lt
  have hp0 := pad.w0.toNat_lt
  obtain ⟨f0, q0, e0⟩ := hops.accumulate_spec (d := h.w0.toUInt64) (c := pad.w0)
    (by rw [UInt32.toNat_toUInt64]; omega)
  rw [UInt32.toNat_toUInt64] at e0
  obtain ⟨s1, f1, r1, q1, e1⟩ := hsum h.w1 pad.w1 f0
  obtain ⟨s2, f2, r2, q2, e2⟩ := hsum h.w2 pad.w2 f1
  obtain ⟨s3, f3, r3, q3, e3⟩ := hsum h.w3 pad.w3 f2
  refine ⟨⟨f0.toUInt32, f1.toUInt32, f2.toUInt32, f3.toUInt32⟩, ?_, ?_⟩
  · unfold addPad
    simp only [q0, r1, q1, r2, q2, r3, q3, pure_bind]
  · unfold Words.value
    rw [UInt64.toNat_toUInt32, UInt64.toNat_toUInt32, UInt64.toNat_toUInt32,
      UInt64.toNat_toUInt32]
    omega

/-- The words of a number are its bytes. -/
theorem store_words (w : Words) :
    store32l w.w0 ++ store32l w.w1 ++ store32l w.w2 ++ store32l w.w3 = leBytes 16 w.value := by
  have h0 := w.w0.toNat_lt
  have h1 := w.w1.toNat_lt
  have h2 := w.w2.toNat_lt
  have h3 := w.w3.toNat_lt
  refine leNat_inj (by simp only [List.length_append, length_store32l, length_leBytes]) ?_
  unfold store32l
  simp only [leNat_append, leNat_leBytes, List.length_append, length_leBytes]
  unfold Words.value
  omega

end Tag

/-! ### The key -/

/-- `r &= 0xffffffc0ffffffc0ffffffc0fffffff`. -/
def polyClamp (n : ℕ) : ℕ := n &&& 0x0ffffffc0ffffffc0ffffffc0fffffff

section Key

/-- A limb of the clamped number is a limb of the number under a part of the mask. -/
theorem polyClamp_limb (n i : ℕ) :
    polyClamp n / 2 ^ i % 2 ^ 26 =
      n / 2 ^ i % 2 ^ 26 &&& 0x0ffffffc0ffffffc0ffffffc0fffffff / 2 ^ i % 2 ^ 26 := by
  unfold polyClamp
  rw [Nat.and_div_two_pow, Nat.and_mod_two_pow]

theorem polyClamp_lt (n : ℕ) : polyClamp n < 2 ^ 124 :=
  Nat.lt_of_le_of_lt Nat.and_le_right (by decide)

/-- **The key**: the limbs of `r` are under the masks of `poly1305_init`. -/
theorem poly1305Keyed_r (key : Bytes) :
    (poly1305Keyed key).r.Clamped ∧
      (poly1305Keyed key).r.value = polyClamp (leNat (key.take 16)) := by
  have e0 : (poly1305Keyed key).r.l0.toNat =
      polyClamp (leNat (key.take 16)) / 2 ^ 0 % 2 ^ 26 := by
    rw [polyClamp_limb]
    exact load_limb key (i := 0) (k := 0) (by decide) (by decide) (by decide) (by decide)
  have e1 : (poly1305Keyed key).r.l1.toNat =
      polyClamp (leNat (key.take 16)) / 2 ^ 26 % 2 ^ 26 := by
    rw [polyClamp_limb]
    exact load_limb key (by decide) (by decide) (by decide) (by decide)
  have e2 : (poly1305Keyed key).r.l2.toNat =
      polyClamp (leNat (key.take 16)) / 2 ^ 52 % 2 ^ 26 := by
    rw [polyClamp_limb]
    exact load_limb key (by decide) (by decide) (by decide) (by decide)
  have e3 : (poly1305Keyed key).r.l3.toNat =
      polyClamp (leNat (key.take 16)) / 2 ^ 78 % 2 ^ 26 := by
    rw [polyClamp_limb]
    exact load_limb key (by decide) (by decide) (by decide) (by decide)
  have e4 : (poly1305Keyed key).r.l4.toNat =
      polyClamp (leNat (key.take 16)) / 2 ^ 104 % 2 ^ 26 := by
    rw [polyClamp_limb]
    exact load_limb key (by decide) (by decide) (by decide) (by decide)
  have hlt (a : ℕ) : a % 2 ^ 26 < 2 ^ 26 := Nat.mod_lt _ (by decide)
  refine ⟨⟨e0.trans_lt (hlt _), e1.trans_lt (hlt _), e2.trans_lt (hlt _), e3.trans_lt (hlt _),
    e4.trans_lt (hlt _)⟩, ?_⟩
  have hclamp := polyClamp_lt (leNat (key.take 16))
  unfold Limbs.value
  rw [e0, e1, e2, e3, e4]
  generalize polyClamp (leNat (key.take 16)) = r at *
  clear e0 e1 e2 e3 e4
  omega

theorem poly1305Keyed_pad (key : Bytes) :
    (poly1305Keyed key).pad.value = leNat (key.drop 16) % 2 ^ 128 := by
  have e0 := load32l_drop_toNat key 16
  have e1 := load32l_drop_toNat key 20
  have e2 := load32l_drop_toNat key 24
  have e3 := load32l_drop_toNat key 28
  rw [leNat_drop]
  change (load32l (key.drop 16)).toNat + 2 ^ 32 * (load32l (key.drop 20)).toNat +
    2 ^ 64 * (load32l (key.drop 24)).toNat + 2 ^ 96 * (load32l (key.drop 28)).toNat = _
  rw [e0, e1, e2, e3]
  omega

end Key

/-! ### The whole computation -/

section Mac

variable {m : Type → Type} [Monad m] {ops : WordOps m}

theorem zero_carried : Limbs.Carried ⟨0, 0, 0, 0, 0⟩ :=
  ⟨by decide, by decide, by decide, by decide, by decide⟩

theorem poly1305Keyed_absorbed (key : Bytes) :
    (poly1305Keyed key).Absorbed (poly1305Keyed key).r (poly1305Keyed key).pad [] := by
  refine ⟨rfl, rfl, rfl, zero_carried, [], rfl, ⟨0, rfl⟩, ?_⟩
  rw [polyEval_nil]
  exact Nat.cast_zero

variable [LawfulMonad m]

theorem foldlM_process_absorbed (hops : ops.Exact) {r : Limbs} {pad : Words} (hr : r.Clamped)
    (pieces : List Bytes) {st : Poly1305State} {msg : Bytes} (h : st.Absorbed r pad msg) :
    ∃ st', pieces.foldlM (poly1305Process ops) st = pure st' ∧
      st'.Absorbed r pad (msg ++ pieces.flatten) := by
  induction pieces generalizing st msg with
  | nil =>
    rw [List.flatten_nil, List.append_nil]
    exact ⟨st, rfl, h⟩
  | cons x pieces ih =>
    obtain ⟨st', hstep, habsorbed⟩ := poly1305Process_absorbed hops hr h x
    rw [List.foldlM_cons, List.flatten_cons, ← List.append_assoc, hstep, pure_bind]
    exact ih habsorbed

/-- The number of the polynomial, below `2^130 - 5`, and the second half of the key. -/
def polyTag (key msg : Bytes) : Bytes :=
  leBytes 16 ((polyEval (polyClamp (leNat (key.take 16)) : ℕ) 0 msg).val + leNat (key.drop 16))

instance : NeZero polyP := ⟨by decide⟩

/-- The tag of the message of a state. -/
theorem Poly1305State.Absorbed.done (hops : ops.Exact) {key msg : Bytes} {st : Poly1305State}
    (h : st.Absorbed (poly1305Keyed key).r (poly1305Keyed key).pad msg) :
    poly1305Done ops st = pure (polyTag key msg) := by
  obtain ⟨hr, hvalue⟩ := poly1305Keyed_r key
  have hpad := h.pad_eq
  obtain ⟨h₁, hfinal, hcarried, heval⟩ := finalBlock_spec hops hr h
  obtain ⟨h₂, hfull, hclamped, c, hc⟩ := fullCarry_spec hops hcarried
  obtain ⟨g, hg, hselected, hmod⟩ := selectLimbs_spec hops hclamped
  obtain ⟨mac, hmac, hsum⟩ := addPad_spec hops (packWords (selectLimbs h₂ g)) st.pad
  have hval : (polyEval (polyClamp (leNat (key.take 16)) : ℕ) 0 msg).val = h₂.value % polyP := by
    rw [← hvalue, ← heval, ZMod.val_natCast, ← hc, Nat.add_mul_mod_self_left]
  unfold poly1305Done polyTag
  simp only [hfinal, hfull, hg, hmac, pure_bind]
  rw [store_words, hsum, packWords_spec hselected, hmod, hpad, poly1305Keyed_pad, hval,
    Nat.mod_add_mod, Nat.add_mod_mod]
  refine congrArg pure (leNat_inj (by rw [length_leBytes, length_leBytes]) ?_)
  rw [leNat_leBytes, leNat_leBytes]
  exact Nat.mod_mod _ _

theorem poly1305Calls_eq (hops : ops.Exact) (key : Bytes) (pieces : List Bytes) :
    poly1305Calls ops key pieces =
      if key.length = 32 then some (pure (polyTag key pieces.flatten)) else none := by
  obtain ⟨st, hfold, habsorbed⟩ := foldlM_process_absorbed hops (poly1305Keyed_r key).1 pieces
    (poly1305Keyed_absorbed key)
  rw [List.nil_append] at habsorbed
  unfold poly1305Calls poly1305Init
  split_ifs with hkey
  · change some (pieces.foldlM (poly1305Process ops) (poly1305Keyed key) >>= poly1305Done ops) = _
    rw [hfold, pure_bind, habsorbed.done hops]
  · rfl

end Mac

/-- **Poly1305**: however the message is cut into calls of `poly1305_process`, the tag is the
polynomial of the message, plus the second half of the key; and no multiplication, addition or carry
overflows its word. -/
theorem poly1305_mac (key : Bytes) (pieces : List Bytes) :
    poly1305Calls .wrapping key pieces =
        (if key.length = 32 then some (pure (polyTag key pieces.flatten)) else none) ∧
      poly1305Calls .checked key pieces =
        if key.length = 32 then some (some (polyTag key pieces.flatten)) else none :=
  ⟨poly1305Calls_eq WordOps.wrapping_exact key pieces,
    poly1305Calls_eq WordOps.checked_exact key pieces⟩

end Ps4Dropbear
