import Ps4Dropbear.Auth.AuthorizedKeys

/-!
# Base 64

How keys are written in `authorized_keys`, and that the decoder reads them back.

* `base64Encode` : three bytes as four characters, the last group padded.
* `base64Decode_encode` : **the round trip**.
-/

namespace Ps4Dropbear

/-- The character with this value. -/
def base64Char (v : ℕ) : UInt8 :=
  if v < 26 then UInt8.ofNat (65 + v)
  else if v < 52 then UInt8.ofNat (71 + v)
  else if v < 62 then UInt8.ofNat (v - 4)
  else if v = 62 then 43
  else 47

/-- The first characters of the group of three bytes. -/
def base64Chars (a b c : UInt8) : Bytes :=
  [base64Char (a.toNat / 4), base64Char (a.toNat % 4 * 16 + b.toNat / 16),
    base64Char (b.toNat % 16 * 4 + c.toNat / 64), base64Char (c.toNat % 64)]

/-- The base 64 text of some bytes. -/
def base64Encode : Bytes → Bytes
  | [] => []
  | [a] => (base64Chars a 0 0).take 2 ++ ascii "=="
  | [a, b] => (base64Chars a b 0).take 3 ++ ascii "="
  | a :: b :: c :: r => base64Chars a b c ++ base64Encode r

theorem mapBase64_base64Char {v : ℕ} (h : v < 64) : mapBase64 (base64Char v) = some v := by
  have hall : ∀ v : Fin 64, mapBase64 (base64Char v) = some v.val := by decide
  exact hall ⟨v, h⟩

/-- Every character is a letter, a digit, `+` or `/`. -/
theorem le_base64Char (v : ℕ) : 43 ≤ (base64Char v).toNat := by
  unfold base64Char
  split_ifs
  · rw [UInt8.toNat_ofNat']
    omega
  · rw [UInt8.toNat_ofNat']
    omega
  · rw [UInt8.toNat_ofNat']
    omega
  · exact le_refl 43
  · decide

/-- The values of the characters of a group. -/
theorem filterMap_base64Chars (a b c : UInt8) :
    (base64Chars a b c).filterMap mapBase64 =
      [a.toNat / 4, a.toNat % 4 * 16 + b.toNat / 16, b.toNat % 16 * 4 + c.toNat / 64,
        c.toNat % 64] := by
  have ha := a.toNat_lt
  have hb := b.toNat_lt
  have hc := c.toNat_lt
  simp only [base64Chars, List.filterMap_cons, List.filterMap_nil]
  rw [mapBase64_base64Char (by omega), mapBase64_base64Char (by omega),
    mapBase64_base64Char (by omega), mapBase64_base64Char (by omega)]

/-- The bytes of a group. -/
theorem base64Group_eq (a b c : UInt8) :
    base64Group (a.toNat / 4 * 2 ^ 18 + (a.toNat % 4 * 16 + b.toNat / 16) * 2 ^ 12 +
      (b.toNat % 16 * 4 + c.toNat / 64) * 2 ^ 6 + c.toNat % 64) = [a, b, c] := by
  have ha := a.toNat_lt
  have hb := b.toNat_lt
  have hc := c.toNat_lt
  simp only [base64Group, List.cons.injEq, ← UInt8.toNat_inj, UInt8.toNat_ofNat', and_true]
  omega

/-- What the decoder makes of the characters. -/
theorem base64Groups_encode (bs : Bytes) :
    base64Groups ((base64Encode bs).filterMap mapBase64) = some bs := by
  induction bs using base64Encode.induct with
  | case1 => rfl
  | case2 a =>
    have hpad : (ascii "==").filterMap mapBase64 = [] := by decide
    have hvalues : (base64Encode [a]).filterMap mapBase64 =
        [a.toNat / 4, a.toNat % 4 * 16] := by
      have ha := a.toNat_lt
      rw [base64Encode, List.filterMap_append, hpad, List.append_nil]
      simp only [base64Chars, List.take_succ_cons, List.take_zero, List.filterMap_cons,
        List.filterMap_nil]
      rw [mapBase64_base64Char (by omega), mapBase64_base64Char (by simp; omega)]
      simp
    have hgroup := base64Group_eq a 0 0
    simp only [UInt8.toNat_zero, Nat.zero_div, Nat.zero_mod, Nat.zero_mul, Nat.add_zero] at hgroup
    rw [hvalues, base64Groups, hgroup]
    rfl
  | case3 a b =>
    have hpad : (ascii "=").filterMap mapBase64 = [] := by decide
    have hvalues : (base64Encode [a, b]).filterMap mapBase64 =
        [a.toNat / 4, a.toNat % 4 * 16 + b.toNat / 16, b.toNat % 16 * 4] := by
      have ha := a.toNat_lt
      have hb := b.toNat_lt
      rw [base64Encode, List.filterMap_append, hpad, List.append_nil]
      simp only [base64Chars, List.take_succ_cons, List.take_zero, List.filterMap_cons,
        List.filterMap_nil]
      rw [mapBase64_base64Char (by omega), mapBase64_base64Char (by omega),
        mapBase64_base64Char (by simp; omega)]
      simp
    have hgroup := base64Group_eq a b 0
    simp only [UInt8.toNat_zero, Nat.zero_div, Nat.zero_mod, Nat.add_zero] at hgroup
    rw [hvalues, base64Groups, hgroup]
    rfl
  | case4 a b c r ih =>
    rw [base64Encode, List.filterMap_append, filterMap_base64Chars]
    simp only [List.cons_append, List.nil_append, base64Groups, ih, base64Group_eq, Option.map_some]

/-- There are no blanks and no control characters in a base 64 text. -/
theorem le_of_mem_base64Encode (bs : Bytes) : ∀ c ∈ base64Encode bs, 43 ≤ c.toNat := by
  have hgroup (a b c : UInt8) : ∀ d ∈ base64Chars a b c, 43 ≤ d.toNat := by
    simp only [base64Chars, List.forall_mem_cons]
    exact ⟨le_base64Char _, le_base64Char _, le_base64Char _, le_base64Char _, by simp⟩
  induction bs using base64Encode.induct with
  | case1 => simp [base64Encode]
  | case2 a =>
    have hpad : ∀ c ∈ ascii "==", 43 ≤ c.toNat := by simp [ascii]
    exact List.forall_mem_append.2 ⟨fun c hc => hgroup a 0 0 c (List.mem_of_mem_take hc), hpad⟩
  | case3 a b =>
    have hpad : ∀ c ∈ ascii "=", 43 ≤ c.toNat := by simp [ascii]
    exact List.forall_mem_append.2 ⟨fun c hc => hgroup a b 0 c (List.mem_of_mem_take hc), hpad⟩
  | case4 a b c r ih => exact List.forall_mem_append.2 ⟨hgroup a b c, ih⟩

theorem length_le_length_base64Encode (bs : Bytes) : bs.length ≤ (base64Encode bs).length := by
  induction bs using base64Encode.induct with
  | case1 => exact le_refl 0
  | case2 a => exact Nat.le_add_left 1 3
  | case3 a b => exact Nat.le_add_left 2 2
  | case4 a b c r ih =>
    have hlen : (base64Chars a b c).length = 4 := rfl
    rw [base64Encode, List.length_append, hlen]
    simp only [List.length_cons]
    omega

/-- **The round trip.** -/
theorem base64Decode_encode (bs : Bytes) :
    base64Decode (base64Encode bs) ((base64Encode bs).length * 2) = some bs := by
  have hlen := length_le_length_base64Encode bs
  rw [base64Decode, base64Groups_encode, Option.filter_some, if_pos]
  rw [decide_eq_true_eq]
  omega

end Ps4Dropbear
