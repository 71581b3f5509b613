import Mathlib.Tactic.Ring
import Ps4Dropbear.Buffer.Content

/-!
# Multiple-precision integers

The numbers of libtommath as bytes, and how `buf_putmpint` writes them.

* `mpToUbin`, `mpUbinSize` : the unsigned big-endian form.
* `mpintBody` : the bytes behind the length that `buf_putmpint` writes.
* `twosComplement` : the number that big-endian bytes stand for with a sign.
* `mpFromUbin_mpToUbin`, `mpToUbin_mpFromUbin` : the two directions are inverse.
* `Buffer.Has.putmpint` : what `buf_putmpint` does to a buffer.
* `mpintBody_shortest` : **no other bytes of that length, and no fewer bytes, stand for the same
  number**.
-/

namespace Ps4Dropbear

/-- `mp_ubin_size`. -/
def mpUbinSize (a : ℕ) : ℕ := mpCountBits a / 8 + if mpCountBits a % 8 ≠ 0 then 1 else 0

/-- The loop of `mp_to_ubin`, which fills the bytes from the last one on. -/
def ubinBytes : ℕ → ℕ → Bytes
  | 0, _ => []
  | x + 1, t => ubinBytes x (t / 256) ++ [UInt8.ofNat t]

/-- `mp_to_ubin`, for an array that is long enough. -/
def mpToUbin (a : ℕ) : Bytes := ubinBytes (mpUbinSize a) a

/-- `mp_to_ubin` to `buf_getwriteptr(buf, maxlen)`, and `buf_incrwritepos` by what it has
written. -/
def bufPutUbin (buf : Buffer) (a maxlen : ℕ) (error : String) : Except Exit Buffer := do
  bufGetwriteptr buf maxlen
  if mpUbinSize a > maxlen then dropbearExit error
  else
    let buf ← bufOverwrite buf maxlen (mpToUbin a)
    bufIncrwritepos buf (mpUbinSize a)

/-- `buf_putmpint`. -/
def bufPutmpint (buf : Buffer) (mp : ℤ) : Except Exit Buffer :=
  if mp < 0 then dropbearExit "negative bignum"
  else do
    let a := mp.toNat
    let len := if a = 0 then 0 else mpCountBits a / 8 + 1
    let pad := if a ≠ 0 ∧ mpCountBits a % 8 = 0 then 1 else 0
    -- store the length
    let buf ← bufPutint buf len
    -- store the actual value
    if len > 0 then do
      let buf ← (if pad ≠ 0 then bufPutbyte buf 0 else .ok buf)
      bufPutUbin buf a (len - pad) "mpint error"
    else return buf

/-- The bytes of a number without the sign bit: its unsigned form, behind a zero byte if its top
bit is set. -/
def mpintBody (a : ℕ) : Bytes :=
  if a ≠ 0 ∧ mpCountBits a % 8 = 0 then 0 :: mpToUbin a else mpToUbin a

/-- What big-endian bytes stand for when the top bit is a sign. -/
def twosComplement (bs : Bytes) : ℤ :=
  (mpFromUbin bs : ℤ) - if bs.head?.any (128 ≤ ·) then 256 ^ bs.length else 0

/-! ### Sizes -/

section Sizes

variable {a k : ℕ}

theorem mpCountBits_le : mpCountBits a ≤ k ↔ a < 2 ^ k := by
  unfold mpCountBits
  by_cases ha : a = 0
  · rw [if_pos ha, ha]
    exact iff_of_true (Nat.zero_le k) (Nat.two_pow_pos k)
  · rw [if_neg ha, Nat.add_one_le_iff, Nat.log2_lt ha]

theorem mpCountBits_eq_zero : mpCountBits a = 0 ↔ a = 0 := by
  rw [← Nat.le_zero, mpCountBits_le, Nat.pow_zero, Nat.lt_one_iff]

theorem mpUbinSize_le : mpUbinSize a ≤ k ↔ a < 256 ^ k := by
  have hpow : (256 : ℕ) ^ k = 2 ^ (8 * k) := by rw [Nat.pow_mul]
  rw [hpow, ← mpCountBits_le]
  unfold mpUbinSize
  by_cases h : mpCountBits a % 8 ≠ 0
  · rw [if_pos h]
    omega
  · rw [if_neg h]
    omega

theorem lt_pow_mpUbinSize (a : ℕ) : a < 256 ^ mpUbinSize a := mpUbinSize_le.1 (Nat.le_refl _)

@[simp] theorem length_ubinBytes (k t : ℕ) : (ubinBytes k t).length = k := by
  induction k generalizing t with
  | zero => rfl
  | succ k ih => rw [ubinBytes, List.length_append, ih, List.length_singleton]

@[simp] theorem length_mpToUbin (a : ℕ) : (mpToUbin a).length = mpUbinSize a :=
  length_ubinBytes _ _

/-- The length that `buf_putmpint` writes. -/
theorem length_mpintBody (a : ℕ) :
    (mpintBody a).length = if a = 0 then 0 else mpCountBits a / 8 + 1 := by
  have hzero := mpCountBits_eq_zero (a := a)
  unfold mpintBody
  by_cases ha : a = 0
  · rw [if_neg (fun h => h.1 ha), if_pos ha, length_mpToUbin, mpUbinSize, hzero.2 ha]
    rfl
  · rw [if_neg ha]
    by_cases hpad : mpCountBits a % 8 = 0
    · rw [if_pos ⟨ha, hpad⟩, List.length_cons, length_mpToUbin, mpUbinSize,
        if_neg (not_not.2 hpad)]
    · rw [if_neg (fun h => hpad h.2), length_mpToUbin, mpUbinSize, if_pos hpad]

theorem length_mpintBody_eq (ha : a ≠ 0) :
    (mpintBody a).length = mpUbinSize a + if mpCountBits a % 8 = 0 then 1 else 0 := by
  rw [length_mpintBody, if_neg ha, mpUbinSize]
  by_cases h : mpCountBits a % 8 = 0
  · rw [if_neg (not_not.2 h), if_pos h]
  · rw [if_pos h, if_neg h]

end Sizes

/-! ### Numbers and bytes -/

section Ubin

variable {bs cs : Bytes}

@[simp] theorem mpFromUbin_nil : mpFromUbin [] = 0 := rfl

theorem mpFromUbin_concat (bs : Bytes) (b : UInt8) :
    mpFromUbin (bs ++ [b]) = mpFromUbin bs * 256 + b.toNat := by
  rw [mpFromUbin, List.foldl_append]
  rfl

theorem mpFromUbin_zero_cons (bs : Bytes) : mpFromUbin (0 :: bs) = mpFromUbin bs := rfl

theorem mpFromUbin_ubinBytes {k t : ℕ} (h : t < 256 ^ k) : mpFromUbin (ubinBytes k t) = t := by
  induction k generalizing t with
  | zero =>
    rw [Nat.pow_zero, Nat.lt_one_iff] at h
    rw [ubinBytes, h]
    rfl
  | succ k ih =>
    rw [Nat.pow_succ] at h
    rw [ubinBytes, mpFromUbin_concat, ih (by omega), UInt8.toNat_ofNat']
    omega

/-- The bytes are determined by their number and by what they stand for. -/
theorem ubinBytes_mpFromUbin (bs : Bytes) : ubinBytes bs.length (mpFromUbin bs) = bs := by
  induction bs using List.reverseRecOn with
  | nil => rfl
  | append_singleton bs b ih =>
    have hb := b.toNat_lt
    have hdiv : (mpFromUbin bs * 256 + b.toNat) / 256 = mpFromUbin bs := by omega
    have hlast : UInt8.ofNat (mpFromUbin bs * 256 + b.toNat) = b := by
      rw [← UInt8.toNat_inj, UInt8.toNat_ofNat']
      omega
    rw [List.length_append, List.length_singleton, ubinBytes, mpFromUbin_concat, hdiv, ih, hlast]

theorem mpFromUbin_lt (bs : Bytes) : mpFromUbin bs < 256 ^ bs.length := by
  induction bs using List.reverseRecOn with
  | nil => exact Nat.one_pos
  | append_singleton bs b ih =>
    have hb := b.toNat_lt
    rw [mpFromUbin_concat, List.length_append, List.length_singleton, Nat.pow_succ]
    omega

theorem mpFromUbin_inj (hlen : bs.length = cs.length) (h : mpFromUbin bs = mpFromUbin cs) :
    bs = cs := by
  rw [← ubinBytes_mpFromUbin bs, hlen, h, ubinBytes_mpFromUbin]

theorem mpFromUbin_cons (b : UInt8) (bs : Bytes) :
    mpFromUbin (b :: bs) = b.toNat * 256 ^ bs.length + mpFromUbin bs := by
  induction bs using List.reverseRecOn with
  | nil => simp [mpFromUbin]
  | append_singleton bs c ih =>
    rw [← List.cons_append, mpFromUbin_concat, ih, mpFromUbin_concat, List.length_append,
      List.length_singleton, Nat.pow_succ]
    ring

@[simp] theorem mpFromUbin_mpToUbin (a : ℕ) : mpFromUbin (mpToUbin a) = a :=
  mpFromUbin_ubinBytes (lt_pow_mpUbinSize a)

theorem mpToUbin_mpFromUbin (hsize : mpUbinSize (mpFromUbin bs) = bs.length) :
    mpToUbin (mpFromUbin bs) = bs := by
  rw [mpToUbin, hsize, ubinBytes_mpFromUbin]

@[simp] theorem mpFromUbin_mpintBody (a : ℕ) : mpFromUbin (mpintBody a) = a := by
  unfold mpintBody
  by_cases hpad : a ≠ 0 ∧ mpCountBits a % 8 = 0
  · rw [if_pos hpad, mpFromUbin_zero_cons, mpFromUbin_mpToUbin]
  · rw [if_neg hpad, mpFromUbin_mpToUbin]

/-- A first byte of less than 128 takes a bit off the bound. -/
theorem mpFromUbin_lt_half {t : UInt8} (ht : t < 128) (bs : Bytes) :
    mpFromUbin (t :: bs) < 2 ^ (8 * bs.length + 7) := by
  have hbs := mpFromUbin_lt bs
  have ht' : t.toNat < 128 := UInt8.lt_iff_toNat_lt.1 ht
  have hpow : 2 ^ (8 * bs.length + 7) = 128 * 256 ^ bs.length := by
    rw [Nat.pow_add, Nat.pow_mul, Nat.mul_comm]
  rw [mpFromUbin_cons, hpow]
  calc t.toNat * 256 ^ bs.length + mpFromUbin bs
      < t.toNat * 256 ^ bs.length + 256 ^ bs.length := Nat.add_lt_add_left hbs _
    _ = (t.toNat + 1) * 256 ^ bs.length := (Nat.succ_mul _ _).symm
    _ ≤ 128 * 256 ^ bs.length := Nat.mul_le_mul_right _ ht'

/-- The top bit of the body is clear. -/
theorem head_mpintBody_lt (a : ℕ) : ∀ t ∈ (mpintBody a).head?, t < 128 := by
  intro t ht
  unfold mpintBody at ht
  by_cases hpad : a ≠ 0 ∧ mpCountBits a % 8 = 0
  · rw [if_pos hpad] at ht
    cases ht
    decide
  · rw [if_neg hpad] at ht
    cases hbody : mpToUbin a with
    | nil =>
      rw [hbody] at ht
      cases ht
    | cons c cs =>
      rw [hbody] at ht
      cases ht
      -- otherwise the top bit would be the highest of the last whole byte
      by_contra htop
      have htop' : 128 ≤ t.toNat := by
        simpa [UInt8.lt_iff_toNat_lt] using htop
      have hlen : cs.length + 1 = mpUbinSize a := by
        rw [← length_mpToUbin, hbody, List.length_cons]
      have hval : a = t.toNat * 256 ^ cs.length + mpFromUbin cs := by
        rw [← mpFromUbin_cons, ← hbody, mpFromUbin_mpToUbin]
      have hpow : 2 ^ (8 * cs.length + 7) = 128 * 256 ^ cs.length := by
        rw [Nat.pow_add, Nat.pow_mul, Nat.mul_comm]
      have hbits : ¬ mpCountBits a ≤ 8 * cs.length + 7 := by
        rw [mpCountBits_le, hpow, hval, Nat.not_lt]
        exact Nat.le_add_right_of_le (Nat.mul_le_mul_right _ htop')
      have hne : a ≠ 0 := fun h => hbits (by rw [h]; exact Nat.zero_le _)
      have hmod : mpCountBits a % 8 ≠ 0 := fun h => hpad ⟨hne, h⟩
      unfold mpUbinSize at hlen
      rw [if_pos hmod] at hlen
      omega

/-! ### Two's complement -/

theorem twosComplement_mpintBody (a : ℕ) : twosComplement (mpintBody a) = a := by
  have htop : ¬ (mpintBody a).head?.any (128 ≤ ·) := by
    intro h
    obtain ⟨t, ht, h⟩ := (Option.any_eq_true _ _).1 h
    exact absurd (head_mpintBody_lt a t ht) (UInt8.not_lt.2 (of_decide_eq_true h))
  unfold twosComplement
  rw [if_neg htop, mpFromUbin_mpintBody, sub_zero]

/-- Bytes that stand for a natural number have a clear top bit. -/
theorem twosComplement_eq_natCast {a : ℕ} (h : twosComplement bs = a) :
    (∀ t ∈ bs.head?, t < 128) ∧ mpFromUbin bs = a := by
  have hlt := mpFromUbin_lt bs
  unfold twosComplement at h
  by_cases htop : bs.head?.any (128 ≤ ·)
  · rw [if_pos htop] at h
    have hlt' : (mpFromUbin bs : ℤ) < 256 ^ bs.length := by exact_mod_cast hlt
    omega
  · rw [if_neg htop, sub_zero] at h
    refine ⟨fun t ht => ?_, by exact_mod_cast h⟩
    by_contra hge
    exact htop ((Option.any_eq_true _ _).2 ⟨t, ht, decide_eq_true (UInt8.not_lt.1 hge)⟩)

/-- **The body is the unique shortest form of a number.** -/
theorem mpintBody_shortest {a : ℕ} (h : twosComplement bs = a) :
    (mpintBody a).length ≤ bs.length ∧ ((mpintBody a).length = bs.length → mpintBody a = bs) := by
  obtain ⟨hhead, hval⟩ := twosComplement_eq_natCast h
  refine ⟨?_, fun hlen => mpFromUbin_inj hlen ((mpFromUbin_mpintBody a).trans hval.symm)⟩
  rw [length_mpintBody]
  by_cases ha : a = 0
  · rw [if_pos ha]
    exact Nat.zero_le _
  · rw [if_neg ha]
    cases bs with
    | nil => exact absurd hval.symm ha
    | cons t bs =>
      have hbound := mpFromUbin_lt_half (hhead t rfl) bs
      rw [hval, ← mpCountBits_le] at hbound
      rw [List.length_cons]
      omega

end Ubin

/-! ### Writing a number -/

namespace Buffer

variable {b : Buffer} {size a : ℕ} {u : Bytes}

theorem Has.putint (h : b.Has size u u.length) (hn : u.length + 4 ≤ size) (v : ℕ) :
    ∃ b', bufPutint b v = .ok b' ∧ b'.Has size (u ++ store32h v) (u.length + 4) :=
  h.putbytes (x := store32h v) hn

/-- A number that fills the place for it. -/
theorem Has.putUbin (h : b.Has size u u.length) (hn : u.length + mpUbinSize a ≤ size)
    (error : String) :
    ∃ b', bufPutUbin b a (mpUbinSize a) error = .ok b' ∧
      b'.Has size (u ++ mpToUbin a) (u.length + mpUbinSize a) := by
  obtain ⟨b₁, b', h₁, h', hb'⟩ := h.append (x := mpToUbin a) (n := mpUbinSize a)
    (by rw [length_mpToUbin]) hn
  rw [length_mpToUbin] at h' hb'
  refine ⟨b', ?_, hb'⟩
  unfold bufPutUbin
  rw [h.getwriteptr hn, ok_bind, if_neg (Nat.lt_irrefl _), h₁, ok_bind, h']

theorem Has.putmpint (h : b.Has size u u.length)
    (hn : u.length + (sshString (mpintBody a)).length ≤ size) :
    ∃ b', bufPutmpint b a = .ok b' ∧
      b'.Has size (u ++ sshString (mpintBody a))
        (u.length + (sshString (mpintBody a)).length) := by
  rw [length_sshString] at hn ⊢
  obtain ⟨b₁, h₁, hb₁⟩ := h.putint (by omega) (mpintBody a).length
  generalize hw : u ++ store32h (mpintBody a).length = w at hb₁
  have hwlen : w.length = u.length + 4 := by rw [← hw, List.length_append, length_store32h]
  rw [← hwlen] at hb₁
  unfold bufPutmpint
  rw [if_neg (by omega)]
  simp only [Int.toNat_natCast]
  rw [← length_mpintBody, h₁, ok_bind]
  have hdone : u ++ sshString (mpintBody a) = w ++ mpintBody a := by
    rw [← hw, sshString, List.append_assoc]
  rw [hdone, ← Nat.add_assoc, ← hwlen]
  by_cases ha : a = 0
  · subst ha
    refine ⟨b₁, rfl, ?_⟩
    rwa [show mpintBody 0 = [] from rfl, List.append_nil]
  have hlen := length_mpintBody_eq ha
  have hpos : (mpintBody a).length > 0 := by
    rw [length_mpintBody, if_neg ha]
    exact Nat.succ_pos _
  rw [if_pos hpos]
  by_cases hpad : mpCountBits a % 8 = 0
  · -- a zero byte first
    have hpad' : (if a ≠ 0 ∧ mpCountBits a % 8 = 0 then 1 else 0) = 1 := if_pos ⟨ha, hpad⟩
    rw [if_pos hpad] at hlen
    obtain ⟨b₂, h₂, hb₂⟩ := hb₁.putbyte (d := 0) (by omega)
    have hlast : (w ++ [(0 : UInt8)]).length = w.length + 1 := List.length_append
    rw [← hlast] at hb₂
    obtain ⟨b', h', hb'⟩ := hb₂.putUbin (a := a) (by omega) "mpint error"
    rw [if_pos (by rw [hpad']; exact Nat.one_ne_zero), h₂, ok_bind, hpad', hlen,
      Nat.add_sub_cancel]
    refine ⟨b', h', ?_⟩
    have hbody : mpintBody a = 0 :: mpToUbin a := if_pos ⟨ha, hpad⟩
    rw [hlast, List.append_assoc, Nat.add_assoc, Nat.add_comm 1] at hb'
    rwa [hbody]
  · have hpad' : (if a ≠ 0 ∧ mpCountBits a % 8 = 0 then 1 else 0) = 0 :=
      if_neg fun h => hpad h.2
    rw [if_neg hpad, Nat.add_zero] at hlen
    obtain ⟨b', h', hb'⟩ := hb₁.putUbin (a := a) (by omega) "mpint error"
    rw [if_neg (by rw [hpad']; exact not_not.2 rfl), ok_bind, hpad', hlen, Nat.sub_zero]
    refine ⟨b', h', ?_⟩
    have hbody : mpintBody a = mpToUbin a := if_neg fun h => hpad h.2
    rwa [hbody]

/-- A writer has put `n` bytes at the position. -/
structure Puts (b : Buffer) (n : ℕ) (b' : Buffer) : Prop where
  size : b'.data.length = b.data.length
  pos : b'.pos = b.pos + n

theorem Puts.le {n : ℕ} {b' : Buffer} (h : b.Puts n b') : b.pos + n ≤ b.data.length := by
  have hpos := b'.pos_le
  have hlen := b'.len_le
  rw [h.pos] at hpos
  rw [h.size] at hlen
  omega

theorem Puts.trans {m n : ℕ} {b' b'' : Buffer} (h : b.Puts m b') (h' : b'.Puts n b'') :
    b.Puts (m + n) b'' :=
  ⟨h'.size.trans h.size, by rw [h'.pos, h.pos, Nat.add_assoc]⟩

theorem puts_incrwritepos {n : ℕ} {b' : Buffer} (h : bufIncrwritepos b n = .ok b') :
    b.Puts n b' := by
  unfold bufIncrwritepos at h
  split_ifs at h with hc
  · cases h
  · cases h
    exact ⟨rfl, rfl⟩

theorem puts_putbytes {x : Bytes} {b' : Buffer} (h : bufPutbytes b x = .ok b') :
    b.Puts x.length b' := by
  unfold bufPutbytes at h
  split_ifs at h with hc
  · cases h
  · have hput := puts_incrwritepos h
    exact ⟨hput.size.trans (length_overwrite (by omega)), hput.pos⟩

theorem puts_overwrite {n : ℕ} {x : Bytes} {b' : Buffer} (h : bufOverwrite b n x = .ok b') :
    b.Puts 0 b' := by
  unfold bufOverwrite at h
  split_ifs at h with hc
  · cases h
  · cases h
    have hx := List.length_take_le n x
    exact ⟨length_overwrite (by omega), rfl⟩

theorem puts_putbyte {c : UInt8} {b' : Buffer} (h : bufPutbyte b c = .ok b') : b.Puts 1 b' := by
  unfold bufPutbyte at h
  obtain ⟨b₁, h₁, h⟩ := bind_eq_ok.1 h
  obtain ⟨b₂, h₂, h₃⟩ := bind_eq_ok.1 h
  have hb₁ : b.Puts 0 b₁ := by
    split_ifs at h₁ with hend
    · unfold bufIncrlen at h₁
      split_ifs at h₁ with hc
      · cases h₁
      · cases h₁
        exact ⟨rfl, rfl⟩
    · cases h₁
      exact ⟨rfl, rfl⟩
  have hb₂ : b₁.Puts 0 b₂ := by
    unfold bufOverwriteUsed at h₂
    split_ifs at h₂ with hc
    · cases h₂
    · cases h₂
      have hlen := b₁.len_le
      exact ⟨length_overwrite (by simp only [List.take_succ_cons, List.length_cons,
        List.take_nil, List.length_nil]; omega), rfl⟩
  have hb₃ : b₂.Puts 1 b' := by
    unfold bufIncrpos at h₃
    split_ifs at h₃ with hc
    · cases h₃
    · cases h₃
      exact ⟨rfl, rfl⟩
  exact (hb₁.trans hb₂).trans hb₃

theorem puts_putUbin {n : ℕ} {error : String} {b' : Buffer}
    (h : bufPutUbin b a n error = .ok b') : b.Puts (mpUbinSize a) b' := by
  unfold bufPutUbin at h
  obtain ⟨_, -, h⟩ := bind_eq_ok.1 h
  split_ifs at h with hroom
  · cases h
  · obtain ⟨b₁, hover, hincr⟩ := bind_eq_ok.1 h
    have hput := (puts_overwrite hover).trans (puts_incrwritepos hincr)
    rwa [Nat.zero_add] at hput

/-- `buf_putmpint` exits when there is no room for the number. -/
theorem puts_putmpint {b' : Buffer} (h : bufPutmpint b a = .ok b') :
    b.Puts (sshString (mpintBody a)).length b' := by
  unfold bufPutmpint at h
  rw [if_neg (by omega)] at h
  simp only [Int.toNat_natCast] at h
  rw [← length_mpintBody] at h
  obtain ⟨b₁, h₁, h⟩ := bind_eq_ok.1 h
  have hb₁ : b.Puts 4 b₁ := puts_putbytes h₁
  rw [length_sshString]
  by_cases ha : a = 0
  · subst ha
    cases h
    exact hb₁
  have hlen := length_mpintBody_eq ha
  have hpos : (mpintBody a).length > 0 := by
    rw [length_mpintBody, if_neg ha]
    exact Nat.succ_pos _
  rw [if_pos hpos] at h
  obtain ⟨b₂, h₂, h₃⟩ := bind_eq_ok.1 h
  by_cases hpad : mpCountBits a % 8 = 0
  · rw [if_pos (by rw [if_pos ⟨ha, hpad⟩]; exact Nat.one_ne_zero)] at h₂
    rw [if_pos hpad, Nat.add_comm] at hlen
    rw [hlen]
    exact hb₁.trans ((puts_putbyte h₂).trans (puts_putUbin h₃))
  · rw [if_neg (by rw [if_neg fun h => hpad h.2]; exact not_not.2 rfl)] at h₂
    cases h₂
    rw [if_neg hpad, Nat.add_zero] at hlen
    rw [hlen]
    exact hb₁.trans (puts_putUbin h₃)

/-! ### Reading a number -/

/-- `buf_getmpint` reads the body of a number back. -/
theorem getmpint_mpintBody {r : Bytes} (hlen : (mpintBody a).length ≤ bufMaxMpint)
    (hrest : b.rest = sshString (mpintBody a) ++ r) :
    bufGetmpint b = .ok (some a, b.advance (sshString (mpintBody a)).length) := by
  rw [length_sshString]
  exact bufGetmpint_ok.2 ⟨mpintBody a, hlen, head_mpintBody_lt a, mpFromUbin_mpintBody a,
    ⟨r, hrest⟩, rfl⟩

end Buffer

end Ps4Dropbear
