import Mathlib.NumberTheory.LucasLehmer
import Ps4Dropbear.Auth.KeyEncoding
import Ps4Dropbear.Number.Exponent

/-!
# RSA signatures

`buf_put_rsa_sign`, with and without `DROPBEAR_RSA_BLINDING`, and `buf_rsa_verify`; the numbers of
libtommath are integers, and SHA-256 is any hash of 32 bytes.

* `rsaPadEm` : the padded message.
* `rsaBlinded` : the blinded computation, with the temporaries of the source.
* `rsaBlinded_eq` : it is `em^d mod n`.
* `bufRsaVerify_signature` : `em^d mod n`, padded to the length of `n`, is accepted.
* `rsaBlinding_spec` : **blinding does not change the signature**.
-/

namespace Ps4Dropbear

/-! ### The numbers of libtommath -/

/-- `mp_invmod`; `none` is not `MP_OKAY`. -/
def mpInvmod (a b : ℤ) : Option ℤ :=
  if b ≤ 1 ∨ Int.gcd a b ≠ 1 then none else some (Int.gcdA a b % b)

/-- `mp_exptmod`. -/
def mpExptmod (g x p : ℤ) : Option ℤ :=
  if p ≤ 0 then none
  else if x < 0 then (mpInvmod g p).map fun g => g ^ x.natAbs % p
  else some (g ^ x.toNat % p)

/-- `mp_mulmod`. -/
def mpMulmod (a b c : ℤ) : Option ℤ := if c ≤ 0 then none else some (a * b % c)

/-- A call that has to return `MP_OKAY`. -/
def orRsaError (x : Option ℤ) : Except Exit ℤ :=
  match x with
  | some a => .ok a
  | none => dropbearExit "RSA error"

/-! ### The functions -/

/-- `sha256_desc`. -/
structure Sha256 where
  digest : Bytes → Bytes
  length_digest : ∀ bs, (digest bs).length = 32

/-- `signature_name_from_type`. -/
def signatureNameFromType : SignatureType → Bytes
  | .rsaSha256 => ascii "rsa-sha2-256"
  | .key t => signkeyNameFromType t

/-- `T_sha256`. -/
def tSha256 : Bytes :=
  [0x30, 0x31, 0x30, 0x0d, 0x06, 0x09, 0x60, 0x86, 0x48, 0x01,
    0x65, 0x03, 0x04, 0x02, 0x01, 0x05, 0x00, 0x04, 0x20]

/-- The loop of `rsa_pad_em` up to the position `target`, which may be beyond every buffer.  A
buffer takes no more bytes than it has room for. -/
def padLoop (target : ℤ) : ℕ → Buffer → Except Exit Buffer
  | 0, _ => dropbearExit "Bad buf_incrlen"
  | turns + 1, rsaEM =>
    if (rsaEM.pos : ℤ) = target then .ok rsaEM
    else do
      let rsaEM ← bufPutbyte rsaEM 0xff
      padLoop target turns rsaEM

section Sign

variable (H : Sha256)

/-- `rsa_pad_em`, of which the build has the case of SHA-256. -/
def rsaPadEm (key : RsaKey) (data : Bytes) (sigtype : SignatureType) : Except Exit ℕ :=
  match sigtype with
  | .key _ => dropbearExit "assert(0)"
  | .rsaSha256 => do
    let nsize := mpUbinSize key.n
    let rsaEM ← bufNew nsize
    -- type byte
    let rsaEM ← bufPutbyte rsaEM 0x00
    let rsaEM ← bufPutbyte rsaEM 0x01
    -- padding with PS 0xFF bytes, in the arithmetic of an `unsigned long`
    let target := ((rsaEM.data.length : ℤ) - (1 + tSha256.length + 32)) % 2 ^ 64
    let rsaEM ← padLoop target (rsaEM.data.length + 1) rsaEM
    let rsaEM ← bufPutbyte rsaEM 0x00
    -- magic ASN1 stuff
    let rsaEM ← bufPutbytes rsaEM tSha256
    -- the hash of the data
    let rsaEM ← bufOverwrite rsaEM 32 (H.digest data)
    let rsaEM ← bufIncrwritepos rsaEM 32
    if rsaEM.pos ≠ rsaEM.data.length then
      dropbearExit "Failed assertion: rsa_EM->pos == rsa_EM->size"
    else
      -- create the mp_int from the encoded bytes
      let rsaEM ← bufSetpos rsaEM 0
      let bytes ← bufGetptr rsaEM rsaEM.data.length
      return mpFromUbin bytes

/-- The signing of the padded data with `DROPBEAR_RSA_BLINDING`, for the values `r` and `b` of
`gen_random_mpint`. -/
def rsaBlinded (key : RsaPrivKey) (r b rsaTmp1 : ℤ) : Except Exit ℤ := do
  -- rsa_tmp2 is r, rsa_tmp1 is em; em' = em * r^e mod n
  let rsaTmp2 := r
  let rsaS ← orRsaError (mpExptmod rsaTmp2 key.e key.n)
  let rsaTmp3 ← orRsaError (mpInvmod rsaTmp2 key.n)
  let rsaTmp2 ← orRsaError (mpMulmod rsaTmp1 rsaS key.n)
  -- exponent blinding, m = c^(d + b*phi(n)) mod n
  let rsaBRand := b
  let rsaPhiN : ℤ := key.n + 1
  let rsaBD := rsaPhiN - key.p
  let rsaPhiN := rsaBD - key.q
  let rsaBTmp := rsaBRand * rsaPhiN
  let rsaBD := key.d + rsaBTmp
  -- s' = (em')^d mod n
  let rsaTmp1 ← orRsaError (mpExptmod rsaTmp2 rsaBD key.n)
  -- s = (s')r^(-1) mod n
  orRsaError (mpMulmod rsaTmp1 rsaTmp3 key.n)

/-- The signing of the padded data without `DROPBEAR_RSA_BLINDING`. -/
def rsaPlain (key : RsaPrivKey) (rsaTmp1 : ℤ) : Except Exit ℤ :=
  orRsaError (mpExptmod rsaTmp1 key.d key.n)

/-- The loop that pads out a signature. -/
def putZeros : ℕ → Buffer → Except Exit Buffer
  | 0, buf => .ok buf
  | n + 1, buf => do
    let buf ← bufPutbyte buf 0
    putZeros n buf

/-- `buf_put_rsa_sign`, with the random values of the blinding if there is one. -/
def bufPutRsaSign (blinding : Option (ℤ × ℤ)) (buf : Buffer) (key : RsaPrivKey)
    (sigtype : SignatureType) (data : Bytes) : Except Exit Buffer := do
  let em ← rsaPadEm H key.toRsaKey data sigtype
  let rsaS ← (match blinding with
    | some (r, b) => rsaBlinded key r b em
    | none => rsaPlain key em)
  -- create the signature to return
  let buf ← bufPutstring buf (signatureNameFromType sigtype)
  let nsize := mpUbinSize key.n
  let buf ← bufPutint buf nsize
  -- pad out s to same length as n
  let ssize := mpUbinSize rsaS.natAbs
  if ¬ ssize ≤ nsize then dropbearExit "Failed assertion: ssize <= nsize"
  else
    let buf ← putZeros (nsize - ssize) buf
    bufPutUbin buf rsaS.natAbs ssize "RSA error"

/-- `buf_rsa_verify`. -/
def bufRsaVerify (buf : Buffer) (key : RsaKey) (sigtype : SignatureType) (data : Bytes) :
    Except Exit Bool := do
  let (slen, buf) ← bufGetint buf
  if slen ≠ mpUbinSize key.n then return false
  else
    let bytes ← bufGetptr buf (buf.len - buf.pos)
    let rsaS := mpFromUbin bytes
    -- check that s <= n-1
    if ¬ rsaS < key.n then return false
    else
      -- create the magic PKCS padded value
      let rsaEm ← rsaPadEm H key data sigtype
      match mpExptmod rsaS key.e key.n with
      | none => return false
      | some rsaMdash => return decide ((rsaEm : ℤ) = rsaMdash)

end Sign

/-- A key with two different primes and inverse exponents. -/
structure RsaKeyValid (key : RsaPrivKey) : Prop where
  p_prime : key.p.Prime
  q_prime : key.q.Prime
  p_ne_q : key.p ≠ key.q
  n_eq : key.n = key.p * key.q
  inverse : key.e * key.d ≡ 1 [MOD (key.p - 1) * (key.q - 1)]

/-! ### The blinded computation -/

section Blinding

variable {key : RsaPrivKey} {r b em : ℕ}

theorem mpExptmod_natCast {n : ℕ} (hn : 0 < n) (g x : ℕ) :
    mpExptmod g x n = some ((g ^ x % n : ℕ) : ℤ) := by
  unfold mpExptmod
  rw [if_neg (by omega), if_neg (by omega), Int.toNat_natCast]
  push_cast
  rfl

theorem mpMulmod_natCast {n : ℕ} (hn : 0 < n) (x y : ℕ) :
    mpMulmod x y n = some ((x * y % n : ℕ) : ℤ) := by
  unfold mpMulmod
  rw [if_neg (by omega)]
  push_cast
  rfl

/-- The inverse of a number that has one. -/
theorem mpInvmod_natCast {n r : ℕ} (hn : 1 < n) (hr : r.Coprime n) :
    ∃ s : ℕ, mpInvmod r n = some (s : ℤ) ∧ (r : ZMod n) * s = 1 := by
  have hgcd : Int.gcd r n = 1 := by
    rw [Int.gcd_natCast_natCast]
    exact hr
  have hn' : (0 : ℤ) < n := by omega
  have hnonneg := Int.emod_nonneg (Int.gcdA r n) (Int.ne_of_gt hn')
  obtain ⟨s, hs⟩ := Int.eq_ofNat_of_zero_le hnonneg
  refine ⟨s, ?_, ?_⟩
  · unfold mpInvmod
    rw [if_neg (by rw [not_or, not_not]; exact ⟨by omega, hgcd⟩), hs]
  · have hbezout := Int.gcd_eq_gcd_ab (r : ℤ) (n : ℤ)
    rw [hgcd] at hbezout
    have hcast := congrArg (Int.cast : ℤ → ZMod n) hbezout
    push_cast at hcast
    rw [ZMod.natCast_self, zero_mul, add_zero] at hcast
    have hsmod : ((Int.gcdA r n % n : ℤ) : ZMod n) = (Int.gcdA r n : ZMod n) := ZMod.intCast_mod _ _
    rw [hs, Int.cast_natCast] at hsmod
    rw [hsmod, ← hcast]

theorem RsaKeyValid.one_lt_n (hk : RsaKeyValid key) : 1 < key.n := by
  have hp := hk.p_prime.two_le
  have hq := hk.q_prime.two_le
  rw [hk.n_eq]
  exact Nat.lt_of_lt_of_le (by omega : 1 < 2 * 1) (Nat.mul_le_mul hp (by omega))

/-- `n + 1 - p - q` is `(p - 1) * (q - 1)`. -/
theorem RsaKeyValid.phi (hk : RsaKeyValid key) :
    (key.n : ℤ) + 1 - key.p - key.q = (((key.p - 1) * (key.q - 1) : ℕ) : ℤ) := by
  have hp := hk.p_prime.one_le
  have hq := hk.q_prime.one_le
  rw [hk.n_eq]
  push_cast [Nat.cast_sub hp, Nat.cast_sub hq]
  ring

/-- The blinding cancels. -/
theorem rsaBlinded_eq (hk : RsaKeyValid key) (hr : r.Coprime key.n) :
    rsaBlinded key r b em = rsaPlain key em := by
  have hn1 := hk.one_lt_n
  have hn : 0 < key.n := Nat.lt_of_succ_lt hn1
  obtain ⟨s, hinv, hrs⟩ := mpInvmod_natCast hn1 hr
  have hexp : (key.d : ℤ) + b * (key.n + 1 - key.p - key.q) =
      ((key.d + b * ((key.p - 1) * (key.q - 1)) : ℕ) : ℤ) := by
    rw [hk.phi]
    push_cast
    ring
  -- the two results are equal modulo n
  have hsame : (em * (r ^ key.e % key.n) % key.n) ^ (key.d + b * ((key.p - 1) * (key.q - 1))) %
      key.n * s % key.n = em ^ key.d % key.n := by
    refine (ZMod.natCast_eq_natCast_iff' _ _ _).1 ?_
    have hblind := Exponent.blinded_pow hk.p_prime hk.q_prime hk.p_ne_q hk.inverse
      (r := (r : ZMod (key.p * key.q))) (s := s) (by rw [← hk.n_eq]; exact hrs) b em
    rw [← hk.n_eq] at hblind
    simp only [ZMod.natCast_mod, Nat.cast_mul, Nat.cast_pow]
    exact hblind
  unfold rsaBlinded rsaPlain
  dsimp only
  rw [mpExptmod_natCast hn, hinv]
  simp only [orRsaError, ok_bind]
  rw [mpMulmod_natCast hn]
  simp only [ok_bind]
  rw [hexp, mpExptmod_natCast hn]
  simp only [ok_bind]
  rw [mpMulmod_natCast hn, mpExptmod_natCast hn, hsame]

end Blinding

/-! ### The padded message -/

section Padding

variable {H : Sha256} {key : RsaKey} {data u : Bytes} {b b' : Buffer} {size turns : ℕ}
  {sigtype : SignatureType} {target : ℤ}

theorem padLoop_has (hb : b.Has size u u.length) {m : ℕ} (ht : target = u.length + m)
    (hm : u.length + m ≤ size) (hturns : m < turns) :
    ∃ b', padLoop target turns b = .ok b' ∧
      b'.Has size (u ++ List.replicate m 0xff) (u ++ List.replicate m 0xff).length := by
  induction m generalizing b u turns with
  | zero =>
    obtain ⟨turns, rfl⟩ := Nat.exists_eq_succ_of_ne_zero (Nat.ne_zero_of_lt hturns)
    refine ⟨b, if_pos ?_, ?_⟩
    · rw [hb.pos, ht]
      rfl
    · rw [List.replicate_zero, List.append_nil]
      exact hb
  | succ m ih =>
    obtain ⟨turns, rfl⟩ := Nat.exists_eq_succ_of_ne_zero (Nat.ne_zero_of_lt hturns)
    obtain ⟨b₁, h₁, hb₁⟩ := writes_putbyte 0xff hb (by rw [List.length_singleton]; omega)
    have hlen : (u ++ [(0xff : UInt8)]).length = u.length + 1 := List.length_append
    obtain ⟨b', h', hb'⟩ := ih hb₁ (by rw [hlen, ht]; push_cast; ring) (by omega)
      (show m < turns by omega)
    rw [List.append_assoc, List.singleton_append, ← List.replicate_succ] at hb'
    refine ⟨b', ?_, hb'⟩
    have h₁' : bufPutbyte b 0xff = .ok b₁ := h₁
    rw [padLoop, if_neg (by rw [hb.pos, ht]; omega), h₁', ok_bind, h']

theorem padLoop_ok (h : padLoop target turns b = .ok b') :
    (b.pos : ℤ) ≤ target ∧ target ≤ b.data.length := by
  induction turns generalizing b with
  | zero => cases h
  | succ turns ih =>
    have hpos := b.pos_le
    have hlen := b.len_le
    rw [padLoop] at h
    by_cases hend : (b.pos : ℤ) = target
    · exact ⟨Int.le_of_eq hend, by omega⟩
    · rw [if_neg hend] at h
      obtain ⟨b₁, h₁, h⟩ := bind_eq_ok.1 h
      have hputs := Buffer.puts_putbyte h₁
      have hpos₁ := hputs.pos
      have hsize₁ := hputs.size
      have hnext := ih h
      omega

/-- The padded message in as many bytes as the modulus has. -/
def emBytes (H : Sha256) (nsize : ℕ) (data : Bytes) : Bytes :=
  [0x00, 0x01] ++ List.replicate (nsize - 54) 0xff ++ [0x00] ++ tSha256 ++ H.digest data

theorem length_emBytes (H : Sha256) (data : Bytes) {nsize : ℕ} (h : 54 ≤ nsize) :
    (emBytes H nsize data).length = nsize := by
  unfold emBytes
  rw [List.length_append, List.length_append, List.length_append, List.length_append,
    List.length_replicate, H.length_digest]
  change 2 + (nsize - 54) + 1 + 19 + 32 = nsize
  omega

theorem rsaPadEm_eq (H : Sha256) (data : Bytes) (h : 54 ≤ mpUbinSize key.n)
    (hmax : mpUbinSize key.n ≤ bufMaxSize) :
    rsaPadEm H key data .rsaSha256 = .ok (mpFromUbin (emBytes H (mpUbinSize key.n) data)) := by
  have hall := length_emBytes H data h
  have hdigest := H.length_digest data
  generalize hn : mpUbinSize key.n = nsize at h hmax hall ⊢
  obtain ⟨b₀, h₀, hb₀⟩ := Buffer.bufNew_has hmax
  obtain ⟨b₁, h₁, hb₁⟩ := writes_putbyte 0x00 hb₀ (by
    rw [List.length_nil, List.length_singleton]; omega)
  rw [List.nil_append] at hb₁
  obtain ⟨b₂, h₂, hb₂⟩ := writes_putbyte 0x01 hb₁ (by
    rw [List.length_singleton, List.length_singleton]; omega)
  have htarget : ((b₂.data.length : ℤ) - (1 + tSha256.length + 32)) % 2 ^ 64 =
      ([0x00] ++ [0x01] : Bytes).length + (nsize - 54 : ℕ) := by
    have hlen : tSha256.length = 19 := rfl
    have hlen' : ([0x00] ++ [0x01] : Bytes).length = 2 := rfl
    simp only [bufMaxSize] at hmax
    rw [hb₂.size, hlen, hlen']
    omega
  have hturns : nsize - 54 < b₂.data.length + 1 := by
    rw [hb₂.size]
    omega
  obtain ⟨b₃, h₃, hb₃⟩ := padLoop_has hb₂ htarget (by change 2 + (nsize - 54) ≤ nsize; omega) hturns
  have hpad : ([0x00] ++ [0x01] ++ List.replicate (nsize - 54) 0xff : Bytes).length =
      nsize - 52 := by
    rw [List.length_append, List.length_replicate]
    change 2 + (nsize - 54) = nsize - 52
    omega
  obtain ⟨b₄, h₄, hb₄⟩ := writes_putbyte 0x00 hb₃ (by
    rw [hpad, List.length_singleton]; omega)
  obtain ⟨b₅, h₅, hb₅⟩ := writes_putbytes tSha256 hb₄ (by
    rw [List.length_append, hpad]; change nsize - 52 + 1 + 19 ≤ nsize; omega)
  obtain ⟨b₆, b₇, h₆, h₇, hb₇⟩ := hb₅.append (x := H.digest data) (n := 32)
    (Nat.le_of_eq hdigest) (by
      rw [List.length_append, List.length_append, hpad]
      change nsize - 52 + 1 + 19 + 32 ≤ nsize
      omega)
  rw [← List.length_append] at hb₇
  change b₇.Has nsize (emBytes H nsize data) (emBytes H nsize data).length at hb₇
  rw [hall] at hb₇
  obtain ⟨b₈, h₈, hb₈⟩ := hb₇.setpos (Nat.zero_le _)
  have hget := hb₈.getptr (n := nsize) (by rw [hall, Nat.zero_add])
  beta_reduce at h₁ h₂ h₄ h₅
  rw [hdigest] at h₇
  unfold rsaPadEm
  dsimp only
  rw [hn, h₀, ok_bind, h₁, ok_bind, h₂, ok_bind, h₃, ok_bind, h₄, ok_bind, h₅, ok_bind, h₆,
    ok_bind, h₇, ok_bind, if_neg (by rw [hb₇.pos, hb₇.size]; exact not_not.2 rfl), h₈, ok_bind,
    hb₈.size, hget, ok_bind, List.drop_zero, List.take_of_length_le (Nat.le_of_eq hall)]
  rfl

/-- There are no padded messages of fewer than 54 bytes. -/
theorem rsaPadEm_ok {em : ℕ} (h : rsaPadEm H key data sigtype = .ok em) :
    sigtype = .rsaSha256 ∧ 54 ≤ mpUbinSize key.n ∧ mpUbinSize key.n ≤ bufMaxSize := by
  cases sigtype with
  | key t => cases h
  | rsaSha256 =>
    unfold rsaPadEm at h
    dsimp only at h
    obtain ⟨b₀, h₀, h⟩ := bind_eq_ok.1 h
    obtain ⟨b₁, h₁, h⟩ := bind_eq_ok.1 h
    obtain ⟨b₂, h₂, h⟩ := bind_eq_ok.1 h
    obtain ⟨b₃, h₃, -⟩ := bind_eq_ok.1 h
    have hmax : mpUbinSize key.n ≤ bufMaxSize := by
      by_contra hbig
      unfold bufNew at h₀
      rw [dif_pos (Nat.not_le.1 hbig)] at h₀
      cases h₀
    obtain ⟨c, hnew, hc⟩ := Buffer.bufNew_has hmax
    cases hnew.symm.trans h₀
    have hputs := (Buffer.puts_putbyte h₁).trans (Buffer.puts_putbyte h₂)
    have hpos := hputs.pos
    have hsize := hputs.size
    rw [hc.pos] at hpos
    rw [hc.size] at hsize
    obtain ⟨hle, hle'⟩ := padLoop_ok h₃
    have hlen : tSha256.length = 19 := rfl
    rw [hlen, hsize] at hle hle'
    have hmax' := hmax
    simp only [bufMaxSize] at hmax'
    refine ⟨rfl, ?_, hmax⟩
    omega

/-- The padded message is less than the modulus: its first byte is zero. -/
theorem emBytes_lt (H : Sha256) (data : Bytes) (h : 54 ≤ mpUbinSize key.n) :
    mpFromUbin (emBytes H (mpUbinSize key.n) data) < key.n := by
  have hall := length_emBytes H data h
  obtain ⟨rest, hrest⟩ : ∃ rest, emBytes H (mpUbinSize key.n) data = 0 :: rest := ⟨_, rfl⟩
  rw [hrest, List.length_cons] at hall
  rw [hrest, mpFromUbin_zero_cons]
  have hlt := mpFromUbin_lt rest
  have hge : ¬ mpUbinSize key.n ≤ rest.length := by omega
  rw [mpUbinSize_le] at hge
  omega

end Padding

/-! ### The bytes of a signature -/

section Bytes

variable {H : Sha256} {key : RsaPrivKey} {blinding : Option (ℤ × ℤ)} {sigtype : SignatureType}
  {data : Bytes} {b b' : Buffer} {s em n : ℕ}

/-- `s` as a signature by a key of `nsize` bytes. -/
def rsaSignature (sigtype : SignatureType) (nsize s : ℕ) : Bytes :=
  sshString (signatureNameFromType sigtype) ++ sshString (ubinBytes nsize s)

theorem length_rsaSignature (sigtype : SignatureType) (nsize s : ℕ) :
    (rsaSignature sigtype nsize s).length =
      (sshString (signatureNameFromType sigtype)).length + (4 + nsize) := by
  rw [rsaSignature, List.length_append, length_sshString (ubinBytes nsize s), length_ubinBytes]

theorem mpFromUbin_replicate_append (n : ℕ) (bs : Bytes) :
    mpFromUbin (List.replicate n 0 ++ bs) = mpFromUbin bs := by
  induction n with
  | zero => rfl
  | succ n ih => rw [List.replicate_succ, List.cons_append, mpFromUbin_zero_cons, ih]

/-- The zeros in front make up the length. -/
theorem replicate_append_mpToUbin (h : s < 256 ^ n) :
    List.replicate (n - mpUbinSize s) 0 ++ mpToUbin s = ubinBytes n s := by
  have hsize := mpUbinSize_le.2 h
  refine mpFromUbin_inj ?_ ?_
  · rw [List.length_append, List.length_replicate, length_mpToUbin, length_ubinBytes,
      Nat.sub_add_cancel hsize]
  · rw [mpFromUbin_replicate_append, mpFromUbin_mpToUbin, mpFromUbin_ubinBytes h]

theorem writes_putZeros (n : ℕ) : Writes (putZeros n) (List.replicate n 0) := by
  induction n with
  | zero =>
    intro b size u hb hn
    refine ⟨b, rfl, ?_⟩
    rw [List.replicate_zero, List.append_nil]
    exact hb
  | succ n ih => exact (writes_putbyte 0).bind ih

theorem writes_putUbin (s : ℕ) (error : String) :
    Writes (bufPutUbin · s (mpUbinSize s) error) (mpToUbin s) := by
  intro b size u hb hn
  rw [length_mpToUbin] at hn
  obtain ⟨b', h', hb'⟩ := hb.putUbin hn error
  rw [← length_mpToUbin, ← List.length_append] at hb'
  exact ⟨b', h', hb'⟩

theorem puts_putZeros (h : putZeros n b = .ok b') : b.Puts n b' := by
  induction n generalizing b with
  | zero =>
    cases h
    exact ⟨rfl, rfl⟩
  | succ n ih =>
    obtain ⟨b₁, h₁, h⟩ := bind_eq_ok.1 h
    have hputs := (Buffer.puts_putbyte h₁).trans (ih h)
    rwa [Nat.add_comm] at hputs

/-- The signature that is written when `rsa_s` is `s`. -/
theorem writes_putRsaSign (hem : rsaPadEm H key.toRsaKey data sigtype = .ok em)
    (hs : (match blinding with
      | some (r, b) => rsaBlinded key r b em
      | none => rsaPlain key em) = .ok (s : ℤ)) (hlt : s < key.n) :
    Writes (bufPutRsaSign H blinding · key sigtype data)
      (rsaSignature sigtype (mpUbinSize key.n) s) := by
  have hpow := hlt.trans (lt_pow_mpUbinSize key.n)
  have hle := mpUbinSize_le.2 hpow
  have hputs := (writes_putstring (signatureNameFromType sigtype)).bind
    ((writes_putint (mpUbinSize key.n)).bind
      ((writes_putZeros (mpUbinSize key.n - mpUbinSize s)).bind (writes_putUbin s "RSA error")))
  have henc : rsaSignature sigtype (mpUbinSize key.n) s =
      sshString (signatureNameFromType sigtype) ++
        (store32h (mpUbinSize key.n) ++ ubinBytes (mpUbinSize key.n) s) := by
    rw [rsaSignature, sshString.eq_1 (ubinBytes _ _), length_ubinBytes]
  rw [replicate_append_mpToUbin hpow, ← henc] at hputs
  intro b size u hb hn
  obtain ⟨b', h', hb'⟩ := hputs hb hn
  refine ⟨b', ?_, hb'⟩
  change bufPutRsaSign H blinding b key sigtype data = .ok b'
  unfold bufPutRsaSign
  rw [hem, ok_bind, hs, ok_bind]
  dsimp only
  rw [Int.natAbs_natCast]
  simp only [if_neg (not_not.2 hle)]
  exact h'

/-- A signature that has been written has had room. -/
theorem puts_putRsaSign (h : bufPutRsaSign H blinding b key sigtype data = .ok b') :
    ∃ em, rsaPadEm H key.toRsaKey data sigtype = .ok em ∧
      b.Puts ((sshString (signatureNameFromType sigtype)).length + (4 + mpUbinSize key.n)) b' := by
  unfold bufPutRsaSign at h
  obtain ⟨em, hem, h⟩ := bind_eq_ok.1 h
  obtain ⟨s, -, h⟩ := bind_eq_ok.1 h
  obtain ⟨b₁, h₁, h⟩ := bind_eq_ok.1 h
  obtain ⟨b₂, h₂, h⟩ := bind_eq_ok.1 h
  dsimp only at h
  by_cases hle : mpUbinSize s.natAbs ≤ mpUbinSize key.n
  · rw [if_neg (not_not.2 hle)] at h
    obtain ⟨b₃, h₃, h⟩ := bind_eq_ok.1 h
    have hint : b₁.Puts 4 b₂ := Buffer.puts_putbytes h₂
    have hputs := (puts_putstring h₁).trans
      (hint.trans ((puts_putZeros h₃).trans (Buffer.puts_putUbin h)))
    rw [Nat.sub_add_cancel hle] at hputs
    exact ⟨em, hem, hputs⟩
  · rw [if_pos hle] at h
    cases h

end Bytes

/-! ### Signing and verifying -/

section Spec

variable {H : Sha256} {key : RsaPrivKey} {data : Bytes} {r em : ℕ}

/-- `em^d` to the power of `e`. -/
theorem RsaKeyValid.pow_pow (hk : RsaKeyValid key) (hem : em < key.n) :
    (em ^ key.d % key.n) ^ key.e % key.n = em := by
  have hundo := Exponent.pow_inverse_exponent hk.p_prime hk.q_prime hk.p_ne_q hk.inverse
    (em : ZMod (key.p * key.q))
  rw [← hk.n_eq] at hundo
  have hmod : (em ^ key.d % key.n) ^ key.e % key.n = em % key.n := by
    refine (ZMod.natCast_eq_natCast_iff' _ _ _).1 ?_
    rw [Nat.cast_pow, ZMod.natCast_mod, Nat.cast_pow, ← pow_mul, Nat.mul_comm, hundo]
  rw [hmod, Nat.mod_eq_of_lt hem]

theorem rsaPlain_eq (hk : RsaKeyValid key) (em : ℕ) :
    rsaPlain key em = .ok ((em ^ key.d % key.n : ℕ) : ℤ) := by
  unfold rsaPlain
  rw [mpExptmod_natCast (Nat.lt_of_succ_lt hk.one_lt_n)]
  rfl

theorem bufPutRsaSign_blinded (hk : RsaKeyValid key) (hr : r.Coprime key.n) (b : ℕ) (buf : Buffer)
    (sigtype : SignatureType) (data : Bytes) :
    bufPutRsaSign H (some (r, b)) buf key sigtype data =
      bufPutRsaSign H none buf key sigtype data := by
  unfold bufPutRsaSign
  refine bind_congr fun em => ?_
  change rsaBlinded key r b em >>= _ = rsaPlain key em >>= _
  rw [rsaBlinded_eq hk hr]

/-- `em^d mod n`, in as many bytes as `n` has, is accepted. -/
theorem bufRsaVerify_signature (hk : RsaKeyValid key) (h : 54 ≤ mpUbinSize key.n)
    (hmax : mpUbinSize key.n ≤ bufMaxSize) {c : Buffer}
    (hrest : c.rest = sshString (ubinBytes (mpUbinSize key.n)
      (mpFromUbin (emBytes H (mpUbinSize key.n) data) ^ key.d % key.n))) :
    bufRsaVerify H c key.toRsaKey .rsaSha256 data = .ok true := by
  have hpad := rsaPadEm_eq H data h hmax
  have hundo := hk.pow_pow (emBytes_lt H data h)
  generalize mpFromUbin (emBytes H (mpUbinSize key.n) data) = em at hrest hpad hundo
  have hpos := Nat.lt_of_succ_lt hk.one_lt_n
  have hlt : em ^ key.d % key.n < key.n := Nat.mod_lt _ hpos
  generalize em ^ key.d % key.n = s at hrest hundo hlt
  rw [sshString, length_ubinBytes] at hrest
  have hint : bufGetint c = .ok (mpUbinSize key.n, c.advance 4) := by
    simp only [bufMaxSize] at hmax
    exact bufGetint_ok.2 ⟨⟨by omega, _, hrest⟩, rfl⟩
  have hrest' : (c.advance 4).rest = ubinBytes (mpUbinSize key.n) s :=
    Buffer.rest_advance_of_append hrest
  have hget : bufGetptr (c.advance 4) ((c.advance 4).len - (c.advance 4).pos) =
      .ok (ubinBytes (mpUbinSize key.n) s) := by
    rw [← Buffer.length_rest, hrest']
    exact bufGetptr_ok.2 ⟨rfl, [], by rw [hrest', List.append_nil]⟩
  unfold bufRsaVerify
  rw [hint, ok_bind]
  dsimp only
  rw [if_neg (not_not.2 rfl), hget, ok_bind,
    mpFromUbin_ubinBytes (hlt.trans (lt_pow_mpUbinSize key.n)), if_neg (not_not.2 hlt), hpad,
    ok_bind, mpExptmod_natCast hpos, hundo]
  dsimp only
  rw [decide_eq_true rfl]
  rfl

/-- **Blinding does not change the signature.**  The blinded and the plain computation do the same
to every buffer; what they write is `em^d mod n` in as many bytes as `n` has; and whatever has been
written at the end of a buffer is accepted. -/
theorem rsaBlinding_spec (H : Sha256) (hk : RsaKeyValid key) (hr : r.Coprime key.n) (b : ℕ)
    (data : Bytes) :
    (∀ buf sigtype, bufPutRsaSign H (some (r, b)) buf key sigtype data =
      bufPutRsaSign H none buf key sigtype data) ∧
    (54 ≤ mpUbinSize key.n →
      Writes (bufPutRsaSign H (some (r, b)) · key .rsaSha256 data)
        (sshString (signatureNameFromType .rsaSha256) ++
          sshString (ubinBytes (mpUbinSize key.n)
            (mpFromUbin (emBytes H (mpUbinSize key.n) data) ^ key.d % key.n)))) ∧
    ∀ buf buf' sigtype, buf.pos = buf.len →
      bufPutRsaSign H (some (r, b)) buf key sigtype data = .ok buf' →
      ∃ c, bufSetpos buf' (buf.pos + (sshString (signatureNameFromType sigtype)).length) = .ok c ∧
        bufRsaVerify H c key.toRsaKey sigtype data = .ok true := by
  have hwrites : 54 ≤ mpUbinSize key.n → mpUbinSize key.n ≤ bufMaxSize →
      Writes (bufPutRsaSign H (some (r, b)) · key .rsaSha256 data)
        (rsaSignature .rsaSha256 (mpUbinSize key.n)
          (mpFromUbin (emBytes H (mpUbinSize key.n) data) ^ key.d % key.n)) := by
    intro h hmax
    have hblind := (rsaBlinded_eq (b := b) hk hr).trans
      (rsaPlain_eq hk (mpFromUbin (emBytes H (mpUbinSize key.n) data)))
    exact writes_putRsaSign (rsaPadEm_eq H data h hmax) hblind
      (Nat.mod_lt _ (Nat.lt_of_succ_lt hk.one_lt_n))
  refine ⟨fun buf sigtype => bufPutRsaSign_blinded hk hr b buf sigtype data,
    fun h u size pre hb hn => ?_, fun buf buf' sigtype hend hsign => ?_⟩
  · -- there is no room in any buffer for a modulus that is too long
    have hroom := hb.len_le
    rw [List.length_append, length_sshString (ubinBytes _ _), length_ubinBytes] at hn
    refine hwrites h (by omega) hb ?_
    rw [length_rsaSignature]
    omega
  · obtain ⟨em, hem, hputs⟩ := puts_putRsaSign hsign
    obtain ⟨rfl, h, hmax⟩ := rsaPadEm_ok hem
    have hle := hputs.le
    have hb : buf.Has buf.data.length buf.contents buf.contents.length := by
      refine ⟨rfl, rfl, ?_⟩
      rw [buf.length_contents, hend]
    obtain ⟨b', hput, hb'⟩ := hwrites h hmax hb (by rw [← hb.pos, length_rsaSignature]; omega)
    cases hput.symm.trans hsign
    rw [rsaSignature, ← List.append_assoc] at hb'
    have hname : buf.pos + (sshString (signatureNameFromType .rsaSha256)).length =
        (buf.contents ++ sshString (signatureNameFromType .rsaSha256)).length := by
      rw [List.length_append, hb.pos]
    obtain ⟨c, hset, hc⟩ := hb'.setpos (n := buf.pos +
      (sshString (signatureNameFromType .rsaSha256)).length) (by
        rw [hname]
        exact (List.sublist_append_left _ _).length_le)
    refine ⟨c, hset, bufRsaVerify_signature hk h hmax ?_⟩
    rw [hc.rest, hname, List.drop_left]

theorem rsaKeyValid_mersenneKey {a b k : ℕ} (ha : (mersenne a).Prime) (hb : (mersenne b).Prime)
    (hab : mersenne a ≠ mersenne b)
    (hed : (mersenneKey a b k).e * (mersenneKey a b k).d ≡ 1
      [MOD ((mersenneKey a b k).p - 1) * ((mersenneKey a b k).q - 1)]) :
    RsaKeyValid (mersenneKey a b k) :=
  ⟨ha, hb, hab, rfl, hed⟩

theorem rsaKeyValid_mersenne : RsaKeyValid (mersenneKey 521 607 10880) :=
  rsaKeyValid_mersenneKey (lucas_lehmer_sufficiency 521 (by norm_num) (by norm_num))
    (lucas_lehmer_sufficiency 607 (by norm_num) (by norm_num)) (by decide +kernel)
    (by decide +kernel)

/-- `sha256_desc`, as far as the example hashes: the digest of the bytes 1, 2, 3. -/
def sha256OneTwoThree : Sha256 where
  digest _ :=
    [0x03, 0x90, 0x58, 0xc6, 0xf2, 0xc0, 0xcb, 0x49, 0x2c, 0x53, 0x3b, 0x0a, 0x4d, 0x14, 0xef, 0x77,
      0xcc, 0x0f, 0x78, 0xab, 0xcc, 0xce, 0xd5, 0x28, 0x7d, 0x84, 0xa1, 0xa2, 0x01, 0x1c, 0xfb, 0x81]
  length_digest _ := rfl

/-- A key of 1128 bits signs the bytes 1, 2, 3. -/
theorem rsaBlinding_spec_mersenne :
    ∃ buf buf', bufPutRsaSign sha256OneTwoThree (some ((2 : ℕ), (7 : ℕ))) buf
        (mersenneKey 521 607 10880) .rsaSha256 [1, 2, 3] = .ok buf' ∧
      ∃ c, bufSetpos buf'
          (buf.pos + (sshString (signatureNameFromType .rsaSha256)).length) = .ok c ∧
        bufRsaVerify sha256OneTwoThree c (mersenneKey 521 607 10880).toRsaKey .rsaSha256
          [1, 2, 3] = .ok true := by
  obtain ⟨-, hwrites, haccept⟩ := rsaBlinding_spec (r := 2) sha256OneTwoThree rsaKeyValid_mersenne
    (by decide +kernel) 7 [1, 2, 3]
  have hsize : mpUbinSize (mersenneKey 521 607 10880).n = 141 := by decide +kernel
  obtain ⟨buf, -, hbuf⟩ := Buffer.bufNew_has (show 200 ≤ bufMaxSize by decide)
  obtain ⟨buf', hsign, -⟩ := hwrites (by rw [hsize]; decide) hbuf (by
    rw [List.length_append, length_sshString (ubinBytes _ _), length_ubinBytes, hsize]
    decide)
  refine ⟨buf, buf', hsign, haccept buf buf' .rsaSha256 ?_ hsign⟩
  rw [hbuf.pos, hbuf.len, List.length_nil]

end Spec

end Ps4Dropbear
