import Mathlib.Data.Nat.ModEq
import Ps4Dropbear.Buffer.Mpint
import Ps4Dropbear.Crypto.KeyStream
import Ps4Dropbear.Session.Framing

/-!
# Counter mode

`ctr_start.c`, `ctr_encrypt.c` and `ctr_decrypt.c` of the cryptographic library, with a block cipher
as the parameter `D`.  The loop of `_ctr_encrypt` takes whole blocks at once in a build with
`LTC_FAST`, and a byte at a time in the others.  None of the ciphers of this build brings its own
counter mode (`accel_ctr_encrypt`).

* `ctrEncryptLoop_fast` : the two builds agree.
* `ctrEncryptLoop_follows` : every state is a place of a key stream.
* `ctr_encrypts_stream` : **what a sequence of calls encrypts**, and that it can be decrypted.
* `counterBlock_inj` : the block cipher is not applied twice to the same block.
* `ctrKeys_shared` : packets in this mode can be decrypted.
-/

namespace Ps4Dropbear

/-- `MAXBLOCKSIZE`. -/
def maxBlockSize : ℕ := 128

/-- A block of `n` bytes. -/
structure Block (n : ℕ) where
  bytes : Bytes
  length : bytes.length = n
  deriving DecidableEq

/-- `struct ltc_cipher_descriptor`, as far as this mode uses it. -/
structure CipherDescriptor (κ : Type) where
  blockLength : ℕ
  setup : Bytes → ℕ → Option κ
  ecbEncrypt : Block blockLength → κ → Option (Block blockLength)
  blockLength_pos : 0 < blockLength
  blockLength_le : blockLength ≤ maxBlockSize

/-- The bits of `ctr_mode`. -/
structure CtrMode where
  /-- The width of the counter, or zero for all of the block. -/
  width : ℕ := 0
  /-- `CTR_COUNTER_BIG_ENDIAN`. -/
  bigEndian : Bool
  /-- `LTC_CTR_RFC3686`. -/
  rfc3686 : Bool := false

/-- The loop that increments a counter of `k` bytes, from its lowest byte on. -/
def incrBytes : ℕ → Bytes → Bytes
  | 0, ctr => ctr
  | _ + 1, [] => []
  | k + 1, b :: ctr => if b + 1 ≠ 0 then (b + 1) :: ctr else 0 :: incrBytes k ctr

theorem length_incrBytes (k : ℕ) (ctr : Bytes) : (incrBytes k ctr).length = ctr.length := by
  induction ctr generalizing k with
  | nil => cases k <;> rfl
  | cons b ctr ih =>
    cases k with
    | zero => rfl
    | succ k =>
      unfold incrBytes
      split_ifs
      · rfl
      · rw [List.length_cons, List.length_cons, ih]

/-- The counter is in the first bytes, or in the last from `ctrlen` on. -/
def incrCounter {n : ℕ} (bigEndian : Bool) (ctrlen : ℕ) (ctr : Block n) : Block n :=
  if bigEndian then
    ⟨(incrBytes (n - ctrlen) ctr.bytes.reverse).reverse, by
      rw [List.length_reverse, length_incrBytes, List.length_reverse, ctr.length]⟩
  else ⟨incrBytes ctrlen ctr.bytes, (length_incrBytes ctrlen ctr.bytes).trans ctr.length⟩

variable {κ : Type}

/-- `symmetric_CTR`. -/
structure SymmetricCTR (D : CipherDescriptor κ) where
  padlen : ℕ
  /-- `mode`. -/
  bigEndian : Bool
  ctrlen : ℕ
  ctr : Block D.blockLength
  pad : Block D.blockLength
  key : κ
  padlen_le : padlen ≤ D.blockLength

section Mode

variable (D : CipherDescriptor κ)

/-- `ctr_start`. -/
def ctrStart (IV : Block D.blockLength) (key : Bytes) (numRounds : ℕ) (ctrMode : CtrMode) :
    Option (SymmetricCTR D) :=
  let ctrlen := if ctrMode.width ≠ 0 then ctrMode.width else D.blockLength
  if ctrlen > D.blockLength then none
  else do
    let ctrlen := if ctrMode.bigEndian then D.blockLength - ctrlen else ctrlen
    let key ← D.setup key numRounds
    let ctr := if ctrMode.rfc3686 then incrCounter ctrMode.bigEndian ctrlen IV else IV
    let pad ← D.ecbEncrypt ctr key
    return { padlen := 0, bigEndian := ctrMode.bigEndian, ctrlen := ctrlen, ctr := ctr, pad := pad,
             key := key, padlen_le := Nat.zero_le _ }

variable {D}

/-- The pad of the next block, when that of the last is used up. -/
def refill (ctr : SymmetricCTR D) : Option {s : SymmetricCTR D // s.padlen < D.blockLength} :=
  if h : ctr.padlen = D.blockLength then do
    let next := incrCounter ctr.bigEndian ctr.ctrlen ctr.ctr
    let pad ← D.ecbEncrypt next ctr.key
    return ⟨{ ctr with ctr := next, pad := pad, padlen := 0, padlen_le := Nat.zero_le _ },
      D.blockLength_pos⟩
  else some ⟨ctr, Nat.lt_of_le_of_ne ctr.padlen_le h⟩

/-- The state with `padlen` bytes of the pad used. -/
def SymmetricCTR.used (ctr : SymmetricCTR D) (padlen : ℕ) (h : padlen ≤ D.blockLength) :
    SymmetricCTR D :=
  { ctr with padlen := padlen, padlen_le := h }

/-- The next byte of the pad. -/
def SymmetricCTR.padByte (ctr : SymmetricCTR D) (h : ctr.padlen < D.blockLength) : UInt8 :=
  ctr.pad.bytes.get ⟨ctr.padlen, by rwa [ctr.pad.length]⟩

/-- `_ctr_encrypt`. -/
def ctrEncryptLoop (fast : Bool) (pt : Bytes) (ctr : SymmetricCTR D) :
    Option (Bytes × SymmetricCTR D) :=
  match pt with
  | [] => some ([], ctr)
  | p :: pt => do
    let ⟨ctr, h⟩ ← refill ctr
    if fast && ctr.padlen == 0 && decide (D.blockLength ≤ (p :: pt).length) then
      have : ((p :: pt).drop D.blockLength).length < (p :: pt).length := by
        have := D.blockLength_pos
        rw [List.length_drop, List.length_cons]
        omega
      let (ct, ctr') ← ctrEncryptLoop fast ((p :: pt).drop D.blockLength)
        (ctr.used D.blockLength (Nat.le_refl _))
      return (List.zipWith (· ^^^ ·) ((p :: pt).take D.blockLength) ctr.pad.bytes ++ ct, ctr')
    else
      let (ct, ctr') ← ctrEncryptLoop fast pt (ctr.used (ctr.padlen + 1) h)
      return ((p ^^^ ctr.padByte h) :: ct, ctr')
termination_by pt.length

/-- `ctr_encrypt`. -/
def ctrEncrypt (fast : Bool) (pt : Bytes) (ctr : SymmetricCTR D) :
    Option (Bytes × SymmetricCTR D) :=
  if fast ∧ D.blockLength % 8 ≠ 0 then none else ctrEncryptLoop fast pt ctr

/-- `ctr_decrypt`. -/
def ctrDecrypt (fast : Bool) (ct : Bytes) (ctr : SymmetricCTR D) :
    Option (Bytes × SymmetricCTR D) := ctrEncrypt fast ct ctr

end Mode

/-! ### The two builds -/

section Loop

variable {D : CipherDescriptor κ} {s : SymmetricCTR D}

@[simp] theorem used_padlen (s : SymmetricCTR D) {k : ℕ} (h : k ≤ D.blockLength) :
    (s.used k h).padlen = k := rfl

@[simp] theorem used_used (s : SymmetricCTR D) {j k : ℕ} (hj : j ≤ D.blockLength)
    (hk : k ≤ D.blockLength) : (s.used j hj).used k hk = s.used k hk := rfl

@[simp] theorem ctrEncryptLoop_nil (fast : Bool) (s : SymmetricCTR D) :
    ctrEncryptLoop fast [] s = some ([], s) := by
  rw [ctrEncryptLoop]

/-- A byte at a time. -/
theorem ctrEncryptLoop_cons (p : UInt8) (pt : Bytes) (s : SymmetricCTR D) :
    ctrEncryptLoop false (p :: pt) s = (refill s).bind fun r =>
      (ctrEncryptLoop false pt (r.1.used (r.1.padlen + 1) r.2)).map fun q =>
        ((p ^^^ r.1.padByte r.2) :: q.1, q.2) := by
  rw [ctrEncryptLoop]
  change (refill s).bind _ = _
  congr 1
  funext r
  change Option.bind _ _ = _
  rw [Option.map_eq_bind]
  rfl

/-- With bytes of the pad left, nothing is refilled. -/
theorem refill_of_lt (h : s.padlen < D.blockLength) : refill s = some ⟨s, h⟩ :=
  dif_neg (Nat.ne_of_lt h)

/-- Within a block, the text is combined with the rest of the pad. -/
theorem ctrEncryptLoop_within (x pt : Bytes) (s : SymmetricCTR D)
    (h : s.padlen + x.length ≤ D.blockLength) :
    ctrEncryptLoop false (x ++ pt) s =
      (ctrEncryptLoop false pt (s.used (s.padlen + x.length) h)).map fun q =>
        (List.zipWith (· ^^^ ·) x (s.pad.bytes.drop s.padlen) ++ q.1, q.2) := by
  induction x generalizing s with
  | nil =>
    change ctrEncryptLoop false pt s = (ctrEncryptLoop false pt s).map fun q => ([] ++ q.1, q.2)
    simp only [List.nil_append, Prod.mk.eta, Option.map_id']
  | cons b x ih =>
    rw [List.length_cons] at h
    have hlt : s.padlen < D.blockLength := by omega
    have hlen : s.padlen < s.pad.bytes.length := by rwa [s.pad.length]
    have hnext : (s.used (s.padlen + 1) hlt).padlen + x.length ≤ D.blockLength := by
      rw [used_padlen]
      omega
    have hsum : s.padlen + 1 + x.length = s.padlen + (b :: x).length := by
      rw [List.length_cons]
      omega
    rw [List.cons_append, ctrEncryptLoop_cons, refill_of_lt hlt, Option.bind_some,
      ih _ hnext, Option.map_map, List.drop_eq_getElem_cons hlen]
    simp only [used_padlen, used_used, hsum]
    rfl

/-- **`LTC_FAST` makes no difference.** -/
theorem ctrEncryptLoop_fast (fast : Bool) (pt : Bytes) (s : SymmetricCTR D) :
    ctrEncryptLoop fast pt s = ctrEncryptLoop false pt s := by
  induction hn : pt.length using Nat.strong_induction_on generalizing pt s with
  | _ n ih =>
    cases pt with
    | nil => rw [ctrEncryptLoop_nil, ctrEncryptLoop_nil]
    | cons p pt =>
      rw [ctrEncryptLoop_cons, ctrEncryptLoop]
      change (refill s).bind _ = _
      congr 1
      funext r
      obtain ⟨s, hs⟩ := r
      have hpos := D.blockLength_pos
      dsimp only
      split_ifs with hwhole
      · -- the block is the same as its bytes
        simp only [Bool.and_eq_true, beq_iff_eq, decide_eq_true_eq] at hwhole
        obtain ⟨⟨-, hzero⟩, hle⟩ := hwhole
        have htake : ((p :: pt).take D.blockLength).length = D.blockLength := by
          rw [List.length_take, Nat.min_eq_left hle]
        have hblock := ctrEncryptLoop_within ((p :: pt).take D.blockLength)
          ((p :: pt).drop D.blockLength) s (by omega)
        rw [List.take_append_drop, ctrEncryptLoop_cons, refill_of_lt hs, Option.bind_some] at hblock
        rw [hblock, ih _ (by rw [List.length_drop]; omega) _ _ rfl, Option.map_eq_bind]
        simp only [hzero, htake, List.drop_zero, Nat.zero_add]
        rfl
      · rw [ih _ (by rw [← hn]; exact Nat.lt_succ_self _) _ _ rfl, Option.map_eq_bind]
        rfl

theorem ctrEncryptLoop_append (fast : Bool) (x y : Bytes) (s : SymmetricCTR D) :
    ctrEncryptLoop fast (x ++ y) s = (ctrEncryptLoop fast x s).bind fun p =>
      (ctrEncryptLoop fast y p.2).map fun q => (p.1 ++ q.1, q.2) := by
  simp only [ctrEncryptLoop_fast fast]
  induction x generalizing s with
  | nil => simp
  | cons b x ih =>
    rw [List.cons_append, ctrEncryptLoop_cons, ctrEncryptLoop_cons, Option.bind_assoc]
    congr 1
    funext r
    rw [ih, Option.map_bind, Option.bind_map]
    congr 1
    funext p
    change Option.map _ (Option.map _ _) = _
    rw [Option.map_map]
    rfl

theorem length_ctrEncryptLoop (fast : Bool) {x c : Bytes} {s s' : SymmetricCTR D}
    (h : ctrEncryptLoop fast x s = some (c, s')) : c.length = x.length := by
  rw [ctrEncryptLoop_fast] at h
  induction x generalizing s c with
  | nil =>
    rw [ctrEncryptLoop_nil] at h
    cases h
    rfl
  | cons b x ih =>
    rw [ctrEncryptLoop_cons] at h
    obtain ⟨r, -, h⟩ := Option.bind_eq_some_iff.1 h
    obtain ⟨q, hq, heq⟩ := Option.map_eq_some_iff.1 h
    cases heq
    rw [List.length_cons, List.length_cons, ih hq]

end Loop

/-! ### The key stream -/

/-- The block cipher does not fail. -/
def CipherDescriptor.Total (D : CipherDescriptor κ) : Prop :=
  ∀ b k, (D.ecbEncrypt b k).isSome = true

section Stream

variable {D : CipherDescriptor κ} {s s₀ : SymmetricCTR D} {k : ℕ}

/-- The counter after `j` increments. -/
def counterAt (s : SymmetricCTR D) (j : ℕ) : Block D.blockLength :=
  (incrCounter s.bigEndian s.ctrlen)^[j] s.ctr

/-- The pad after `j` increments. -/
def padAt (s : SymmetricCTR D) : ℕ → Option (Block D.blockLength)
  | 0 => some s.pad
  | j + 1 => D.ecbEncrypt (counterAt s (j + 1)) s.key

/-- The key stream from a state on. -/
def streamFrom (s : SymmetricCTR D) (i : ℕ) : UInt8 :=
  (padAt s ((s.padlen + i) / D.blockLength)).elim 0
    fun pad => pad.bytes.getD ((s.padlen + i) % D.blockLength) 0

/-- The state `s` is `k` bytes behind `s₀`. -/
structure Behind (s₀ : SymmetricCTR D) (k : ℕ) (s : SymmetricCTR D) : Prop where
  key : s.key = s₀.key
  bigEndian : s.bigEndian = s₀.bigEndian
  ctrlen : s.ctrlen = s₀.ctrlen
  blocks : ∃ j, s₀.padlen + k = j * D.blockLength + s.padlen ∧ s.ctr = counterAt s₀ j ∧
    padAt s₀ j = some s.pad

theorem Behind.refl (s : SymmetricCTR D) : Behind s 0 s :=
  ⟨rfl, rfl, rfl, 0, by rw [Nat.zero_mul, Nat.zero_add]; rfl, rfl, rfl⟩

theorem Behind.refill (hD : D.Total) (h : Behind s₀ k s) :
    ∃ r, Ps4Dropbear.refill s = some r ∧ Behind s₀ k r.1 := by
  obtain ⟨hkey, hend, hlen, j, hk, hctr, hpad⟩ := h
  by_cases hfull : s.padlen = D.blockLength
  · have hnext : incrCounter s.bigEndian s.ctrlen s.ctr = counterAt s₀ (j + 1) := by
      rw [hctr, hend, hlen, counterAt, counterAt, Function.iterate_succ_apply']
    obtain ⟨pad, henc⟩ := Option.isSome_iff_exists.1 (hD (counterAt s₀ (j + 1)) s.key)
    have hrefill : Ps4Dropbear.refill s = some ⟨{ s with
        ctr := counterAt s₀ (j + 1), pad := pad, padlen := 0, padlen_le := Nat.zero_le _ },
        D.blockLength_pos⟩ := by
      unfold Ps4Dropbear.refill
      rw [dif_pos hfull, hnext]
      dsimp only
      rw [henc]
      rfl
    refine ⟨_, hrefill, hkey, hend, hlen, j + 1, ?_, rfl, ?_⟩
    · rw [hk, hfull, Nat.succ_mul]
      rfl
    · rw [padAt, ← hkey, henc]
  · exact ⟨⟨s, Nat.lt_of_le_of_ne s.padlen_le hfull⟩, dif_neg hfull, hkey, hend, hlen, j, hk, hctr,
      hpad⟩

/-- The next byte of the pad is the next one of the stream. -/
theorem Behind.padByte (h : Behind s₀ k s) (hlt : s.padlen < D.blockLength) :
    s.padByte hlt = streamFrom s₀ k := by
  obtain ⟨-, -, -, j, hk, -, hpad⟩ := h
  have hdiv : (s₀.padlen + k) / D.blockLength = j := by
    rw [hk, Nat.mul_comm, Nat.mul_add_div D.blockLength_pos, Nat.div_eq_of_lt hlt, Nat.add_zero]
  have hmod : (s₀.padlen + k) % D.blockLength = s.padlen := by
    rw [hk, Nat.mul_comm, Nat.mul_add_mod, Nat.mod_eq_of_lt hlt]
  unfold streamFrom SymmetricCTR.padByte
  rw [hdiv, hmod, hpad, Option.elim_some, List.getD_eq_getElem?_getD,
    List.getElem?_eq_getElem (by rwa [s.pad.length]), Option.getD_some]
  rfl

theorem Behind.used (h : Behind s₀ k s) (hlt : s.padlen < D.blockLength) :
    Behind s₀ (k + 1) (s.used (s.padlen + 1) hlt) := by
  obtain ⟨hkey, hend, hlen, j, hk, hctr, hpad⟩ := h
  refine ⟨hkey, hend, hlen, j, ?_, hctr, hpad⟩
  rw [used_padlen]
  omega

/-- **Every state is a place of a key stream.** -/
theorem ctrEncryptLoop_follows (hD : D.Total) (fast : Bool) (s₀ : SymmetricCTR D) :
    FollowsStream (ctrEncryptLoop fast) (streamFrom s₀) (Behind s₀) fun _ => True := by
  intro k s x hs _
  rw [ctrEncryptLoop_fast]
  induction x generalizing k s with
  | nil => exact ⟨s, ctrEncryptLoop_nil _ _, hs⟩
  | cons b x ih =>
    obtain ⟨r, hr, hs'⟩ := hs.refill hD
    obtain ⟨s₁, hx, hs₁⟩ := ih _ _ (hs'.used r.2)
    refine ⟨s₁, ?_, ?_⟩
    · rw [ctrEncryptLoop_cons, hr, Option.bind_some, hx, Option.map_some, hs'.padByte]
      rfl
    · rw [List.length_cons, Nat.add_comm x.length, ← Nat.add_assoc]
      exact hs₁

end Stream

/-! ### The counter -/

theorem toNat_succ (b : UInt8) : (b + 1).toNat = (b.toNat + 1) % 256 := UInt8.toNat_add b 1

/-- The counter is a number. -/
theorem mpFromUbin_incrBytes (ctr : Bytes) :
    mpFromUbin (incrBytes ctr.length ctr).reverse =
      (mpFromUbin ctr.reverse + 1) % 256 ^ ctr.length := by
  induction ctr with
  | nil => rfl
  | cons b ctr ih =>
    have hlt := mpFromUbin_lt ctr.reverse
    rw [List.length_reverse] at hlt
    have hb := b.toNat_lt
    rw [List.length_cons, incrBytes, List.reverse_cons, mpFromUbin_concat, pow_succ]
    split_ifs with hmore
    · have hnext : (b + 1).toNat = b.toNat + 1 := by
        have hne : (b + 1).toNat ≠ (0 : UInt8).toNat := fun hzero => hmore (UInt8.toNat_inj.1 hzero)
        rw [toNat_succ] at hne ⊢
        change (b.toNat + 1) % 256 ≠ 0 at hne
        omega
      rw [List.reverse_cons, mpFromUbin_concat, hnext, Nat.add_assoc, Nat.mod_eq_of_lt]
      have hb' := (b + 1).toNat_lt
      omega
    · -- the carry
      have hfull : b.toNat = 255 := by
        have hzero := congrArg UInt8.toNat (not_not.1 hmore)
        rw [toNat_succ] at hzero
        change (b.toNat + 1) % 256 = 0 at hzero
        omega
      have hcarry : mpFromUbin ctr.reverse * 256 + 255 + 1 =
          (mpFromUbin ctr.reverse + 1) * 256 := by omega
      rw [List.reverse_cons, mpFromUbin_concat, ih, hfull, hcarry, Nat.mul_mod_mul_right,
        UInt8.toNat_zero, Nat.add_zero]

/-- The block of the counter `j` blocks behind `IV`, as a number of all its bytes. -/
def counterBlock {n : ℕ} (IV : Block n) (j : ℕ) : Block n :=
  ⟨ubinBytes n ((mpFromUbin IV.bytes + j) % 256 ^ n), length_ubinBytes _ _⟩

theorem block_ext {n : ℕ} {a b : Block n} (h : a.bytes = b.bytes) : a = b := by
  cases a
  cases b
  cases h
  rfl

theorem mpFromUbin_counterBlock {n : ℕ} (IV : Block n) (j : ℕ) :
    mpFromUbin (counterBlock IV j).bytes = (mpFromUbin IV.bytes + j) % 256 ^ n :=
  mpFromUbin_ubinBytes (Nat.mod_lt _ (Nat.pow_pos (by decide)))

theorem block_inj {n : ℕ} {a b : Block n} (h : mpFromUbin a.bytes = mpFromUbin b.bytes) : a = b :=
  block_ext (mpFromUbin_inj (a.length.trans b.length.symm) h)

theorem mpFromUbin_incrCounter {n : ℕ} (b : Block n) :
    mpFromUbin (incrCounter true 0 b).bytes = (mpFromUbin b.bytes + 1) % 256 ^ n := by
  have hlen : n - 0 = b.bytes.reverse.length := by
    rw [List.length_reverse, b.length]
    rfl
  unfold incrCounter
  rw [if_pos rfl]
  dsimp only
  rw [hlen, mpFromUbin_incrBytes, List.reverse_reverse, List.length_reverse, b.length]

/-- A big-endian counter over the whole block. -/
theorem counterAt_eq {D : CipherDescriptor κ} {s : SymmetricCTR D} (hend : s.bigEndian = true)
    (hlen : s.ctrlen = 0) (j : ℕ) : counterAt s j = counterBlock s.ctr j := by
  refine block_inj ?_
  rw [mpFromUbin_counterBlock]
  unfold counterAt
  rw [hend, hlen]
  induction j with
  | zero =>
    have hlt := mpFromUbin_lt s.ctr.bytes
    rw [s.ctr.length] at hlt
    exact (Nat.mod_eq_of_lt hlt).symm
  | succ j ih =>
    rw [Function.iterate_succ_apply', mpFromUbin_incrCounter, ih, Nat.mod_add_mod]
    rfl

/-- **No block of the counter comes twice**, in as many blocks as it has values. -/
theorem counterBlock_inj {n : ℕ} (IV : Block n) {i j : ℕ} (hi : i < 256 ^ n) (hj : j < 256 ^ n)
    (h : counterBlock IV i = counterBlock IV j) : i = j := by
  have hmod := congrArg (fun b : Block n => mpFromUbin b.bytes) h
  rw [mpFromUbin_counterBlock, mpFromUbin_counterBlock] at hmod
  have hcancel : Nat.ModEq (256 ^ n) i j := Nat.ModEq.add_left_cancel' _ hmod
  rwa [Nat.ModEq, Nat.mod_eq_of_lt hi, Nat.mod_eq_of_lt hj] at hcancel

/-- The key stream of a key and an initialisation vector. -/
def ctrStream (D : CipherDescriptor κ) (key : κ) (IV : Block D.blockLength) (i : ℕ) : UInt8 :=
  (D.ecbEncrypt (counterBlock IV (i / D.blockLength)) key).elim 0
    fun pad => pad.bytes.getD (i % D.blockLength) 0

section Start

variable {D : CipherDescriptor κ} {IV : Block D.blockLength} {key : Bytes} {numRounds : ℕ} {k : κ}

/-- `dropbear_big_endian_ctr_start`. -/
theorem ctrStart_bigEndian (hD : D.Total) (hkey : D.setup key numRounds = some k)
    (IV : Block D.blockLength) :
    ∃ s, ctrStart D IV key numRounds { bigEndian := true } = some s ∧
      streamFrom s = ctrStream D k IV := by
  obtain ⟨pad, hpad⟩ := Option.isSome_iff_exists.1 (hD IV k)
  have hstart : ctrStart D IV key numRounds { bigEndian := true } =
      some ⟨0, true, 0, IV, pad, k, Nat.zero_le _⟩ := by
    unfold ctrStart
    simp only [ne_eq, not_true_eq_false, if_false, gt_iff_lt, lt_self_iff_false, if_true,
      Nat.sub_self, hkey, Bool.false_eq_true]
    change (D.ecbEncrypt IV k).bind _ = _
    rw [hpad]
    rfl
  refine ⟨_, hstart, ?_⟩
  funext i
  have hfirst : counterBlock IV 0 = IV := by
    refine block_inj ?_
    have hlt := mpFromUbin_lt IV.bytes
    rw [IV.length] at hlt
    rw [mpFromUbin_counterBlock, Nat.add_zero, Nat.mod_eq_of_lt hlt]
  unfold streamFrom ctrStream
  dsimp only
  rw [Nat.zero_add]
  cases i / D.blockLength with
  | zero => rw [padAt, hfirst, hpad]
  | succ j => rw [padAt, counterAt_eq rfl rfl]

theorem ctrEncrypt_eq {fast : Bool} (hfast : fast = true → 8 ∣ D.blockLength) :
    ctrEncrypt (D := D) fast = ctrEncryptLoop fast := by
  funext pt s
  unfold ctrEncrypt
  rw [if_neg]
  rintro ⟨hyes, hne⟩
  exact hne (Nat.mod_eq_zero_of_dvd (hfast hyes))

/-- **Counter mode**: however a text is cut into calls, and in either build, it is encrypted with the
stream of the block cipher over `IV`, `IV + 1` and so on, which does not repeat a block; and in
whatever pieces the ciphertext comes, it is decrypted to the text. -/
theorem ctr_encrypts_stream (hD : D.Total) (hdiv : 8 ∣ D.blockLength)
    (hkey : D.setup key numRounds = some k) (IV : Block D.blockLength) :
    ∃ s, ctrStart D IV key numRounds { bigEndian := true } = some s ∧
      (∀ i j, i < 256 ^ D.blockLength → j < 256 ^ D.blockLength →
        counterBlock IV i = counterBlock IV j → i = j) ∧
      ∀ (fast : Bool) (pieces : List Bytes), ∃ (cs : List Bytes) (s' : SymmetricCTR D),
        cryptPieces (ctrEncrypt fast) pieces s = some (cs, s') ∧
        cs.flatten = masked (ctrStream D k IV) 0 pieces.flatten ∧
        cs.map List.length = pieces.map List.length ∧
        ∀ (fast' : Bool) (received : List Bytes), received.flatten = cs.flatten →
          ∃ (ps : List Bytes) (s'' : SymmetricCTR D),
            cryptPieces (ctrDecrypt fast') received s = some (ps, s'') ∧
            ps.flatten = pieces.flatten := by
  obtain ⟨s, hstart, hstream⟩ := ctrStart_bigEndian hD hkey IV
  refine ⟨s, hstart, fun i j hi hj => counterBlock_inj IV hi hj, fun fast pieces => ?_⟩
  obtain ⟨cs, s', hcs, hflat, hlens, -⟩ :=
    (ctrEncryptLoop_follows hD fast s).pieces (fun _ _ _ h => h) pieces (Behind.refl s) trivial
  rw [hstream] at hflat
  refine ⟨cs, s', ?_, hflat, hlens, fun fast' received hreceived => ?_⟩
  · rw [ctrEncrypt_eq fun _ => hdiv, hcs]
  · obtain ⟨ps, s'', hps, hflat', -⟩ :=
      (ctrEncryptLoop_follows hD fast' s).pieces (fun _ _ _ h => h) received (Behind.refl s)
        trivial
    refine ⟨ps, s'', ?_, ?_⟩
    · change cryptPieces (ctrEncrypt fast') received s = _
      rw [ctrEncrypt_eq fun _ => hdiv, hps]
    · rw [hflat', hstream, hreceived, hflat, masked_masked]

/-- A cipher that adds the bytes of its key to those of a block. -/
def addCipher : CipherDescriptor (Block 8) where
  blockLength := 8
  setup key _ := if h : key.length = 8 then some ⟨key, h⟩ else none
  ecbEncrypt b k := some ⟨List.zipWith (· + ·) b.bytes k.bytes, by
    rw [List.length_zipWith, b.length, k.length, Nat.min_self]⟩
  blockLength_pos := by decide
  blockLength_le := by decide

/-- A key of `addCipher`. -/
def addKey : Block 8 := ⟨[3, 1, 4, 1, 5, 9, 2, 6], rfl⟩

/-- A first counter, which has a carry behind the first block. -/
def addIv : Block 8 := ⟨[0, 0, 0, 0, 0, 0, 0, 255], rfl⟩

/-- Twelve bytes, cut after the third for the one build and after the fifth for the other. -/
theorem ctr_encrypts_stream_add :
    ∃ s cs s', ctrStart addCipher addIv addKey.bytes 0 { bigEndian := true } = some s ∧
      cryptPieces (ctrEncrypt true) [[1, 2, 3], [4, 5, 6, 7, 8, 9, 10, 11, 12]] s =
        some (cs, s') ∧
      cs.flatten = [2, 3, 7, 5, 0, 15, 5, 13, 10, 11, 15, 13] ∧
      ∃ ps s'', cryptPieces (ctrDecrypt false) [cs.flatten.take 5, cs.flatten.drop 5] s =
          some (ps, s'') ∧
        ps.flatten = [1, 2, 3, 4, 5, 6, 7, 8, 9, 10, 11, 12] := by
  have hkey : addCipher.setup addKey.bytes 0 = some addKey := rfl
  obtain ⟨s, hstart, -, hcrypt⟩ := ctr_encrypts_stream (fun _ _ => rfl) (by decide) hkey addIv
  obtain ⟨cs, s', hcs, hflat, -, hback⟩ :=
    hcrypt true [[1, 2, 3], [4, 5, 6, 7, 8, 9, 10, 11, 12]]
  obtain ⟨ps, s'', hps, hpflat⟩ := hback false [cs.flatten.take 5, cs.flatten.drop 5]
    ((congrArg (cs.flatten.take 5 ++ ·) (List.append_nil _)).trans (List.take_append_drop 5 _))
  exact ⟨s, cs, s', hstart, hcs, hflat.trans (by decide), ps, s'', hps, hpflat⟩

end Start

/-! ### Packets -/

section Keys

variable (D : CipherDescriptor κ) (fast fast' : Bool) (macsize : ℕ) (hmac : Bytes → Bytes)

/-- `dropbear_mode_ctr` with an HMAC, for a sender of the build `fast` and a receiver of the build
`fast'`. -/
def ctrKeys : KeyContext (SymmetricCTR D) where
  blocksize := D.blockLength
  macsize := macsize
  aead := none
  encrypt := ctrEncrypt fast
  decrypt := ctrDecrypt fast'
  hmac := hmac

/-- Both ends are at the same place of a stream. -/
def InStep {D : CipherDescriptor κ} (e d : SymmetricCTR D) : Prop :=
  ∃ s₀ k, Behind s₀ k e ∧ Behind s₀ k d

variable {D macsize hmac}

/-- **Packets in counter mode can be decrypted.** -/
theorem ctrKeys_shared (hD : D.Total) (hblock : D.blockLength = 8 ∨ D.blockLength = 16)
    (hsize : macsize ≤ maxMacLen) (hmac_len : ∀ x, macsize ≤ (hmac x).length) :
    (ctrKeys D fast fast' macsize hmac).Shared InStep := by
  have hdiv : 8 ∣ D.blockLength := by omega
  have henc : (ctrKeys D fast fast' macsize hmac).encrypt = ctrEncryptLoop fast :=
    ctrEncrypt_eq fun _ => hdiv
  have hdec : (ctrKeys D fast fast' macsize hmac).decrypt = ctrEncryptLoop fast' :=
    ctrEncrypt_eq fun _ => hdiv
  refine ⟨hblock, hsize, ?_, ?_, ?_, fun _ => hmac_len, fun A hA => absurd hA ?_⟩
  · rintro - e d ⟨s₀, k, he, hd⟩ x -
    obtain ⟨e', hx, he'⟩ := ctrEncryptLoop_follows hD fast s₀ k e x he trivial
    obtain ⟨d', hc, hd'⟩ :=
      ctrEncryptLoop_follows hD fast' s₀ k d (masked (streamFrom s₀) k x) hd trivial
    rw [masked_masked] at hc
    rw [length_masked] at hd'
    rw [henc, hdec]
    exact ⟨masked (streamFrom s₀) k x, e', d', hx, length_masked x, hc, s₀, _, he', hd'⟩
  · rintro - x y d - -
    rw [hdec]
    exact ctrEncryptLoop_append fast' x y d
  · rintro - x d p hp
    rw [hdec] at hp
    exact length_ctrEncryptLoop fast' hp
  · change ¬none = some A
    exact Option.some_ne_none A ∘ Eq.symm

end Keys

/-- Keys with `addCipher`: the sender has the fast build, and a sum of the bytes stands for the
HMAC. -/
def addKeys : KeyContext (SymmetricCTR addCipher) :=
  ctrKeys addCipher true false 4 fun x =>
    ubinBytes 4 (x.foldl (fun sum b => (31 * sum + b.toNat) % 2 ^ 32) 7)

theorem addKeys_shared : addKeys.Shared InStep :=
  ctrKeys_shared true false (fun _ _ => rfl) (.inl rfl) (by decide)
    fun _ => (length_ubinBytes 4 _).ge

/-- The state of `addCipher` that `dropbear_big_endian_ctr_start` leaves. -/
def addStart (key IV : Block 8) : SymmetricCTR addCipher where
  padlen := 0
  bigEndian := true
  ctrlen := 0
  ctr := IV
  pad := ⟨List.zipWith (· + ·) IV.bytes key.bytes, by
    rw [List.length_zipWith, IV.length, key.length, Nat.min_self]
    rfl⟩
  key := key
  padlen_le := Nat.zero_le _

example : ctrStart addCipher addIv addKey.bytes 0 { bigEndian := true } =
    some (addStart addKey addIv) := rfl

theorem addStart_inStep (key IV : Block 8) : InStep (addStart key IV) (addStart key IV) :=
  ⟨_, 0, Behind.refl _, Behind.refl _⟩

end Ps4Dropbear
