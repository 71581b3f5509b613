import Ps4Dropbear.Buffer.Mpint
import Ps4Dropbear.Crypto.ChaChaGrid
import Ps4Dropbear.Crypto.Poly1305
import Ps4Dropbear.Session.Packet

/-!
# chacha20-poly1305

`chachapoly.c`: a packet's length is encrypted with one key, the rest of it with another, and the
tag is over what they make.

* `chachapolyCrypt`, `chachapolyGetlength` : the functions of `dropbear_mode_chachapoly`.
* `sealText` : what a text is encrypted to, by the blocks of ChaCha20 and the polynomial.
* `chachapolyCrypt_encrypt`, `chachapolyCrypt_decrypt` : **exactly the sealed texts are accepted**.
* `chachapoly_seals` : the same in every state that a session comes to.
-/

namespace Ps4Dropbear

/-- `CHACHA20_KEY_LEN`. -/
def chacha20KeyLen : ℕ := 32

/-- `CHACHA20_BLOCKSIZE`. -/
def chacha20Blocksize : ℕ := 8

/-- `POLY1305_KEY_LEN`. -/
def poly1305KeyLen : ℕ := 32

/-- `POLY1305_TAG_LEN`. -/
def poly1305TagLen : ℕ := 16

/-- `STORE64H`. -/
def store64h (v : ℕ) : Bytes := ubinBytes 8 v

/-- `constant_time_memcmp`. -/
def constantTimeMemcmp (a b : Bytes) (n : ℕ) : UInt8 :=
  (List.zipWith (· ^^^ ·) (a.take n) (b.take n)).foldl (· ||| ·) 0

/-- `dropbear_chachapoly_state`. -/
structure ChachapolyState where
  chacha : ChachaState
  header : ChachaState

/-- `dropbear_chachapoly_start`. -/
def chachapolyStart (key : Bytes) : Option ChachapolyState :=
  if key.length ≠ chacha20KeyLen * 2 then none
  else some ⟨chachaSetup key 20, chachaSetup (key.drop chacha20KeyLen) 20⟩

/-- The calls of `poly1305_process` and `poly1305_done` for a text. -/
def polyMac (poly : Poly1305State) (msg : Bytes) : Bytes := Id.run do
  let poly ← poly1305Process .wrapping poly msg
  poly1305Done .wrapping poly

/-- `dropbear_chachapoly_crypt`, with the tag of a text to be decrypted behind its `len` bytes. -/
def chachapolyCrypt (direction : CryptDirection) (seq : ℕ) (inp : Bytes) (len taglen : ℕ)
    (state : ChachapolyState) : Option (Bytes × ChachapolyState) :=
  if len < 4 ∨ taglen ≠ poly1305TagLen then none
  else do
    let seqbuf := store64h seq
    let (key, chacha) ← chachaKeystream (chachaIvctr64 state.chacha seqbuf 0) poly1305KeyLen
    let poly ← poly1305Init key
    let tag := polyMac poly (inp.take len)
    if direction = .decrypt ∧ constantTimeMemcmp (inp.drop len) tag taglen ≠ 0 then none
    else
      let (out, header) ← chachaCrypt (inp.take 4) (chachaIvctr64 state.header seqbuf 0)
      let (rest, chacha) ← chachaCrypt ((inp.take len).drop 4) (chachaIvctr64 chacha seqbuf 1)
      let out := out ++ rest
      match direction with
      | .decrypt => return (out, ⟨chacha, header⟩)
      | .encrypt => return (out ++ polyMac poly out, ⟨chacha, header⟩)

/-- `dropbear_chachapoly_getlength`. -/
def chachapolyGetlength (seq : ℕ) (inp : Bytes) (state : ChachapolyState) :
    Option (ℕ × ChachapolyState) :=
  if inp.length < 4 then none
  else do
    let (buf, header) ← chachaCrypt (inp.take 4) (chachaIvctr64 state.header (store64h seq) 0)
    return (load32h buf, { state with header := header })

/-- `dropbear_mode_chachapoly`. -/
def dropbearModeChachapoly : AeadMode ChachapolyState where
  crypt
    | .encrypt, seq, x, state => chachapolyCrypt .encrypt seq x x.length poly1305TagLen state
    | .decrypt, seq, x, state =>
      chachapolyCrypt .decrypt seq x (x.length - poly1305TagLen) poly1305TagLen state
  getlength seq x state := (chachapolyGetlength seq x state).map Prod.fst
  getlength_lt h := by
    obtain ⟨⟨n, state⟩, hget, rfl⟩ := Option.map_eq_some_iff.1 h
    unfold chachapolyGetlength at hget
    split_ifs at hget
    obtain ⟨⟨buf, header⟩, -, hbuf⟩ := Option.bind_eq_some_iff.1 hget
    cases hbuf
    exact load32h_lt buf

/-! ### Comparing tags -/

section Memcmp

theorem foldl_or_eq_zero (x : Bytes) (c : UInt8) :
    x.foldl (· ||| ·) c = 0 ↔ c = 0 ∧ ∀ b ∈ x, b = 0 := by
  induction x generalizing c with
  | nil => simp
  | cons b x ih =>
    rw [List.foldl_cons, ih, UInt8.or_eq_zero_iff, List.forall_mem_cons, and_assoc]

/-- `constant_time_memcmp` is zero for equal bytes only. -/
theorem constantTimeMemcmp_eq_zero {a b : Bytes} {n : ℕ} (ha : a.length = n) (hb : b.length = n) :
    constantTimeMemcmp a b n = 0 ↔ a = b := by
  unfold constantTimeMemcmp
  rw [List.take_of_length_le ha.le, List.take_of_length_le hb.le, foldl_or_eq_zero,
    and_iff_right rfl]
  induction a generalizing b n with
  | nil =>
    cases b with
    | nil => simp
    | cons c b => exact absurd (ha.trans hb.symm) (Nat.succ_ne_zero _).symm
  | cons c a ih =>
    cases b with
    | nil => exact absurd (ha.trans hb.symm) (Nat.succ_ne_zero _)
    | cons d b =>
      rw [List.zipWith_cons_cons, List.forall_mem_cons, UInt8.xor_eq_zero_iff, List.cons.injEq,
        ih (n := a.length) rfl (Nat.succ.inj (hb.trans ha.symm))]

end Memcmp

/-! ### Sealed texts -/

/-- The key of a packet's tag: the first bytes of the first block. -/
def polyKey (key : Bytes) (seq : ℕ) : Bytes :=
  masked (chacha20Stream key (store64h seq) 0) 0 (List.replicate poly1305KeyLen 0)

/-- The bytes of a packet under its two key streams: the second half of the key is for the length,
and the first half for the rest, from the second block on. -/
def maskText (key : Bytes) (seq : ℕ) (x : Bytes) : Bytes :=
  masked (chacha20Stream (key.drop 32) (store64h seq) 0) 0 (x.take 4) ++
    masked (chacha20Stream key (store64h seq) 1) 0 (x.drop 4)

/-- What a text is encrypted to. -/
def sealText (key : Bytes) (seq : ℕ) (x : Bytes) : Bytes :=
  maskText key seq x ++ polyTag (polyKey key seq) (maskText key seq x)

/-- The state has the two halves of the key. -/
structure Keyed (key : Bytes) (s : ChachapolyState) : Prop where
  length : key.length = 64
  chacha : SameKey s.chacha (chachaSetup key 20)
  header : SameKey s.header (chachaSetup (key.drop 32) 20)

section Seal

variable {s : ChachapolyState} {key : Bytes} {seq : ℕ} {x z : Bytes}

@[simp] theorem length_store64h (v : ℕ) : (store64h v).length = 8 := length_ubinBytes 8 v

@[simp] theorem length_maskText : (maskText key seq x).length = x.length := by
  unfold maskText
  rw [List.length_append, length_masked, length_masked, ← List.length_append,
    List.take_append_drop]

@[simp] theorem length_polyTag (key msg : Bytes) : (polyTag key msg).length = poly1305TagLen :=
  length_leBytes _ _

@[simp] theorem length_polyKey : (polyKey key seq).length = 32 := by
  unfold polyKey
  rw [length_masked, List.length_replicate]
  rfl

theorem maskText_maskText (h : 4 ≤ x.length) : maskText key seq (maskText key seq x) = x := by
  have hlen : (masked (chacha20Stream (key.drop 32) (store64h seq) 0) 0 (x.take 4)).length = 4 := by
    rw [length_masked, List.length_take, Nat.min_eq_left h]
  unfold maskText
  rw [List.take_append_of_le_length hlen.ge, List.drop_append_of_le_length hlen.ge,
    List.take_of_length_le hlen.le, List.drop_of_length_le hlen.le, List.nil_append, masked_masked,
    masked_masked, List.take_append_drop]

/-- The tag of one call. -/
theorem poly1305_one {key : Bytes} (hkey : key.length = 32) (msg : Bytes) :
    ∃ poly, poly1305Init key = some poly ∧ polyMac poly msg = polyTag key msg := by
  have hkeyed := poly1305Keyed_absorbed key
  obtain ⟨st, hst, habsorbed⟩ := poly1305Process_absorbed WordOps.wrapping_exact
    (poly1305Keyed_r key).1 hkeyed msg
  refine ⟨_, if_pos hkey, ?_⟩
  unfold polyMac
  rw [hst]
  exact habsorbed.done WordOps.wrapping_exact

/-- The keys are those of the two streams. -/
theorem Keyed.streams (h : Keyed key s) (seq c : ℕ) :
    ivStream (chachaSetup key 20) (store64h seq) c = chacha20Stream key (store64h seq) c ∧
      ivStream (chachaSetup (key.drop 32) 20) (store64h seq) c =
        chacha20Stream (key.drop 32) (store64h seq) c := by
  have hlen := h.length
  refine ⟨ivStream_setup (by omega) _ _, ivStream_setup ?_ _ _⟩
  rw [List.length_drop, hlen]

/-- The start of `dropbear_chachapoly_crypt`. -/
theorem chachaKeystream_polyKey (h : Keyed key s) (seq : ℕ) :
    ∃ u, chachaKeystream (chachaIvctr64 s.chacha (store64h seq) 0) poly1305KeyLen =
      some (polyKey key seq, u) ∧ SameKey u (chachaSetup key 20) := by
  unfold polyKey
  rw [← (h.streams seq 0).1]
  exact chachaCrypt_ivctr64 h.chacha (length_store64h seq) (by
    rw [List.length_replicate]
    decide)

/-- The rest of it: the two parts of a text. -/
theorem chachaCrypt_parts (h : Keyed key s) {u : ChachaState}
    (hu : SameKey u (chachaSetup key 20)) (hlen : x.length < 2 ^ 64) (seq : ℕ) :
    ∃ a b v w, chachaCrypt (x.take 4) (chachaIvctr64 s.header (store64h seq) 0) = some (a, v) ∧
      chachaCrypt (x.drop 4) (chachaIvctr64 u (store64h seq) 1) = some (b, w) ∧
      a ++ b = maskText key seq x ∧ SameKey v (chachaSetup (key.drop 32) 20) ∧
      SameKey w (chachaSetup key 20) := by
  obtain ⟨v, hv, hsame⟩ := chachaCrypt_ivctr64 h.header (length_store64h seq) (c := 0)
    (x := x.take 4) (by rw [List.length_take]; omega)
  obtain ⟨w, hw, hsame'⟩ := chachaCrypt_ivctr64 hu (length_store64h seq) (c := 1)
    (x := x.drop 4) (by rw [List.length_drop]; omega)
  rw [(h.streams seq 0).2] at hv
  rw [(h.streams seq 1).1] at hw
  exact ⟨_, _, v, w, hv, hw, rfl, hsame, hsame'⟩

/-- The calls in `dropbear_chachapoly_crypt`, none of which fails. -/
structure Called (seq : ℕ) (x : Bytes) (s : ChachapolyState) (polykey a b : Bytes)
    (s' : ChachapolyState) : Prop where
  length : 4 ≤ x.length
  keylen : polykey.length = 32
  calls : ∃ u, chachaKeystream (chachaIvctr64 s.chacha (store64h seq) 0) poly1305KeyLen =
      some (polykey, u) ∧
    chachaCrypt (x.drop 4) (chachaIvctr64 u (store64h seq) 1) = some (b, s'.chacha)
  header : chachaCrypt (x.take 4) (chachaIvctr64 s.header (store64h seq) 0) = some (a, s'.header)

theorem Called.encrypt {polykey a b : Bytes} {s' : ChachapolyState}
    (h : Called seq x s polykey a b s') :
    chachapolyCrypt .encrypt seq x x.length poly1305TagLen s =
      some (a ++ b ++ polyTag polykey (a ++ b), s') := by
  obtain ⟨hlen, hkeylen, ⟨u, hkey, hb⟩, ha⟩ := h
  obtain ⟨poly, hinit, hmac⟩ := poly1305_one hkeylen (a ++ b)
  have hmin : ¬(x.length < 4 ∨ poly1305TagLen ≠ poly1305TagLen) := by omega
  unfold chachapolyCrypt
  rw [if_neg hmin]
  dsimp only
  rw [hkey, ha, List.take_length]
  change (poly1305Init polykey).bind _ = _
  rw [hinit]
  change (chachaCrypt (x.drop 4) (chachaIvctr64 u (store64h seq) 1)).bind _ = _
  rw [hb, ← hmac]
  rfl

theorem Called.decrypt {polykey a b tag : Bytes} {s' : ChachapolyState}
    (h : Called seq x s polykey a b s') (htag : tag.length = poly1305TagLen) :
    chachapolyCrypt .decrypt seq (x ++ tag) x.length poly1305TagLen s =
      if tag = polyTag polykey x then some (a ++ b, s') else none := by
  obtain ⟨hlen, hkeylen, ⟨u, hkey, hb⟩, ha⟩ := h
  obtain ⟨poly, hinit, hmac⟩ := poly1305_one hkeylen x
  have hmin : ¬(x.length < 4 ∨ poly1305TagLen ≠ poly1305TagLen) := by omega
  unfold chachapolyCrypt
  rw [if_neg hmin]
  dsimp only
  rw [hkey, List.take_append_of_le_length hlen, ha, List.take_left, List.drop_left]
  change (poly1305Init polykey).bind _ = _
  rw [hinit]
  change (if _ ∧ constantTimeMemcmp tag (polyMac poly x) poly1305TagLen ≠ 0 then none else
    (chachaCrypt (x.drop 4) (chachaIvctr64 u (store64h seq) 1)).bind _) = _
  have hmem := constantTimeMemcmp_eq_zero htag (length_polyTag polykey x)
  rw [hb, hmac]
  split_ifs with hbad hgood hgood
  · exact absurd (hmem.2 hgood) hbad.2
  · rfl
  · rfl
  · exact absurd ⟨rfl, fun hzero => hgood (hmem.1 hzero)⟩ hbad

theorem called (h : Keyed key s) (hmin : 4 ≤ x.length) (hlen : x.length < 2 ^ 64) (seq : ℕ) :
    ∃ a b s', Called seq x s (polyKey key seq) a b s' ∧ a ++ b = maskText key seq x ∧
      Keyed key s' := by
  obtain ⟨u, hkey, hu⟩ := chachaKeystream_polyKey h seq
  obtain ⟨a, b, v, w, ha, hb, hab, hv, hw⟩ := chachaCrypt_parts h hu hlen seq
  exact ⟨a, b, ⟨w, v⟩, ⟨hmin, length_polyKey, ⟨u, hkey, hb⟩, ha⟩, hab, h.length, hw, hv⟩

/-- **Encryption seals a text.** -/
theorem chachapolyCrypt_encrypt (h : Keyed key s) (hmin : 4 ≤ x.length)
    (hlen : x.length < 2 ^ 64) (seq : ℕ) :
    ∃ s', dropbearModeChachapoly.crypt .encrypt seq x s = some (sealText key seq x, s') ∧
      Keyed key s' := by
  obtain ⟨a, b, s', hcalled, hab, hs'⟩ := called h hmin hlen seq
  refine ⟨s', ?_, hs'⟩
  change chachapolyCrypt .encrypt seq x x.length poly1305TagLen s = _
  rw [hcalled.encrypt, hab]
  rfl

theorem chachapolyCrypt_short {direction : CryptDirection} {len taglen : ℕ} (h : len < 4) :
    chachapolyCrypt direction seq x len taglen s = none := if_pos (Or.inl h)

/-- A text is accepted for its tag. -/
theorem chachapolyCrypt_tagged (h : Keyed key s) {y tag : Bytes} (hmin : 4 ≤ y.length)
    (hlen : y.length < 2 ^ 64) (htag : tag.length = poly1305TagLen) (seq : ℕ) :
    ∃ s', dropbearModeChachapoly.crypt .decrypt seq (y ++ tag) s =
      (if tag = polyTag (polyKey key seq) y then some (maskText key seq y, s') else none) ∧
      Keyed key s' := by
  obtain ⟨a, b, s', hcalled, hab, hs'⟩ := called h hmin hlen seq
  have hlast : (y ++ tag).length - poly1305TagLen = y.length := by
    rw [List.length_append, htag, Nat.add_sub_cancel]
  refine ⟨s', ?_, hs'⟩
  change chachapolyCrypt .decrypt seq (y ++ tag) ((y ++ tag).length - poly1305TagLen)
    poly1305TagLen s = _
  rw [hlast, hcalled.decrypt htag, hab]

/-- What is accepted can be cut before its tag. -/
theorem chachapolyCrypt_some {s' : ChachapolyState}
    (h : dropbearModeChachapoly.crypt .decrypt seq z s = some (x, s')) :
    ∃ y tag, z = y ++ tag ∧ 4 ≤ y.length ∧ tag.length = poly1305TagLen := by
  change chachapolyCrypt .decrypt seq z (z.length - poly1305TagLen) poly1305TagLen s = _ at h
  rcases Nat.lt_or_ge (z.length - poly1305TagLen) 4 with hshort | hlong
  · rw [chachapolyCrypt_short hshort] at h
    exact absurd h.symm (Option.some_ne_none _)
  · refine ⟨_, _, (List.take_append_drop (z.length - poly1305TagLen) z).symm, ?_, ?_⟩
    · rw [List.length_take]
      omega
    · rw [List.length_drop]
      omega

theorem length_sealText : (sealText key seq x).length = x.length + poly1305TagLen := by
  unfold sealText
  rw [List.length_append, length_maskText, length_polyTag]

/-- **Exactly the sealed texts are accepted**, and decrypted to what they were. -/
theorem chachapolyCrypt_decrypt (h : Keyed key s) (hlen : z.length < 2 ^ 64) (seq : ℕ) :
    (∃ s', dropbearModeChachapoly.crypt .decrypt seq z s = some (x, s')) ↔
      4 ≤ x.length ∧ z = sealText key seq x := by
  constructor
  · rintro ⟨s', hs'⟩
    obtain ⟨y, tag, rfl, hy, htag⟩ := chachapolyCrypt_some hs'
    obtain ⟨s'', hcrypt, -⟩ := chachapolyCrypt_tagged h hy (by
      rw [List.length_append] at hlen
      omega) htag seq
    rw [hs'] at hcrypt
    split_ifs at hcrypt with hgood
    cases hcrypt
    refine ⟨by rwa [length_maskText], ?_⟩
    unfold sealText
    rw [maskText_maskText hy, hgood]
  · rintro ⟨hmin, rfl⟩
    have htag := length_polyTag (polyKey key seq) (maskText key seq x)
    obtain ⟨s', hcrypt, -⟩ := chachapolyCrypt_tagged h (y := maskText key seq x)
      (by rwa [length_maskText])
      (by rw [length_sealText] at hlen; rw [length_maskText]; omega) htag seq
    rw [if_pos rfl, maskText_maskText hmin] at hcrypt
    exact ⟨s', hcrypt⟩

theorem Keyed.decrypt {s' : ChachapolyState} (h : Keyed key s) (hlen : z.length < 2 ^ 64)
    (hstep : dropbearModeChachapoly.crypt .decrypt seq z s = some (x, s')) : Keyed key s' := by
  obtain ⟨y, tag, rfl, hy, htag⟩ := chachapolyCrypt_some hstep
  obtain ⟨s'', hcrypt, hs''⟩ := chachapolyCrypt_tagged h hy (by
    rw [List.length_append] at hlen
    omega) htag seq
  rw [hstep] at hcrypt
  split_ifs at hcrypt with hgood
  cases hcrypt
  exact hs''

/-- The length is read with the header's key. -/
theorem chachapolyGetlength_spec (h : Keyed key s) (hmin : 4 ≤ z.length) (seq : ℕ) :
    ∃ s', chachapolyGetlength seq z s =
      some (load32h (masked (chacha20Stream (key.drop 32) (store64h seq) 0) 0 (z.take 4)), s') ∧
      Keyed key s' := by
  obtain ⟨v, hv, hsame⟩ := chachaCrypt_ivctr64 h.header (length_store64h seq) (c := 0)
    (x := z.take 4) (by rw [List.length_take]; omega)
  rw [(h.streams seq 0).2] at hv
  refine ⟨{ s with header := v }, ?_, h.length, h.chacha, hsame⟩
  unfold chachapolyGetlength
  rw [if_neg (by omega)]
  dsimp only
  rw [hv]
  rfl

/-- From the first block of a sealed text the receiver gets the length. -/
theorem getlength_sealText (h : Keyed key s) (hmin : 4 ≤ x.length) (seq : ℕ) :
    dropbearModeChachapoly.getlength seq ((sealText key seq x).take chacha20Blocksize) s =
      some (load32h x) := by
  have hhead : ((sealText key seq x).take chacha20Blocksize).take 4 =
      masked (chacha20Stream (key.drop 32) (store64h seq) 0) 0 (x.take 4) := by
    have hfour :
        (masked (chacha20Stream (key.drop 32) (store64h seq) 0) 0 (x.take 4)).length = 4 := by
      rw [length_masked, List.length_take, Nat.min_eq_left hmin]
    unfold sealText maskText
    rw [List.take_take, Nat.min_eq_left (show 4 ≤ chacha20Blocksize by decide), List.append_assoc,
      List.take_append_of_le_length hfour.ge, List.take_of_length_le hfour.le]
  have hlen : 4 ≤ ((sealText key seq x).take chacha20Blocksize).length := by
    unfold sealText
    rw [List.length_take, List.length_append, length_maskText, length_polyTag, chacha20Blocksize,
      poly1305TagLen]
    omega
  obtain ⟨s', hget, -⟩ := chachapolyGetlength_spec h hlen seq
  change (chachapolyGetlength seq _ s).map Prod.fst = _
  rw [hget, hhead, masked_masked, load32h_take _ (Nat.le_refl 4)]
  rfl

theorem store64h_inj {v w : ℕ} (hv : v < 2 ^ 64) (hw : w < 2 ^ 64) (h : store64h v = store64h w) :
    v = w := by
  have hnum := congrArg mpFromUbin h
  unfold store64h at hnum
  rwa [mpFromUbin_ubinBytes hv, mpFromUbin_ubinBytes hw] at hnum

end Seal

/-! ### A session -/

/-- The states that calls lead to, for texts whose length an `unsigned long` holds. -/
inductive ChachapolyReach (t : ChachapolyState) : ChachapolyState → Prop
  | start : ChachapolyReach t t
  | encrypt {s s' : ChachapolyState} {seq : ℕ} {x z : Bytes} (h : ChachapolyReach t s)
      (hmin : 4 ≤ x.length) (hlen : x.length < 2 ^ 64)
      (hstep : dropbearModeChachapoly.crypt .encrypt seq x s = some (z, s')) : ChachapolyReach t s'
  | decrypt {s s' : ChachapolyState} {seq : ℕ} {x z : Bytes} (h : ChachapolyReach t s)
      (hlen : z.length < 2 ^ 64)
      (hstep : dropbearModeChachapoly.crypt .decrypt seq z s = some (x, s')) : ChachapolyReach t s'
  | getlength {s s' : ChachapolyState} {seq plen : ℕ} {z : Bytes} (h : ChachapolyReach t s)
      (hmin : 4 ≤ z.length) (hstep : chachapolyGetlength seq z s = some (plen, s')) :
      ChachapolyReach t s'

theorem chachapolyStart_keyed {key : Bytes} (hkey : key.length = 64) :
    ∃ t, chachapolyStart key = some t ∧ Keyed key t :=
  ⟨_, if_neg (not_not.2 hkey), hkey, SameKey.refl _, SameKey.refl _⟩

/-- No call changes the keys. -/
theorem ChachapolyReach.keyed {s t : ChachapolyState} {key : Bytes} (ht : Keyed key t)
    (h : ChachapolyReach t s) : Keyed key s := by
  induction h with
  | start => exact ht
  | @encrypt s s' seq x z h hmin hlen hstep ih =>
    obtain ⟨s'', hcrypt, hs''⟩ := chachapolyCrypt_encrypt ih hmin hlen seq
    rw [hstep] at hcrypt
    cases hcrypt
    exact hs''
  | decrypt h hlen hstep ih => exact ih.decrypt hlen hstep
  | @getlength s s' seq plen z h hmin hstep ih =>
    obtain ⟨s'', hget, hs''⟩ := chachapolyGetlength_spec ih hmin seq
    rw [hstep] at hget
    cases hget
    exact hs''

/-- **chacha20-poly1305**: with the keys of a session, and whatever was encrypted, decrypted or
looked at before, a text is sealed with its sequence number, its length can be read from the first
block, and the sealed texts are the only ones that are accepted; two blocks of two packets, of
either cipher, never have the same input, nor do two blocks of one packet with different counters. -/
theorem chachapoly_seals {key : Bytes} (hkey : key.length = 64) :
    ∃ t, chachapolyStart key = some t ∧
      (∀ s, ChachapolyReach t s → ∀ seq,
        (∀ x : Bytes, 4 ≤ x.length → x.length < 2 ^ 64 →
          (∃ s', dropbearModeChachapoly.crypt .encrypt seq x s = some (sealText key seq x, s')) ∧
          dropbearModeChachapoly.getlength seq ((sealText key seq x).take chacha20Blocksize) s =
            some (load32h x)) ∧
        ∀ z x : Bytes, z.length < 2 ^ 64 →
          ((∃ s', dropbearModeChachapoly.crypt .decrypt seq z s = some (x, s')) ↔
            4 ≤ x.length ∧ z = sealText key seq x)) ∧
      ∀ u ∈ [t.chacha, t.header], ∀ u' ∈ [t.chacha, t.header], ∀ seq seq' c c',
        seq < 2 ^ 32 → seq' < 2 ^ 32 → c < 2 ^ 64 → c' < 2 ^ 64 →
        setCounter (withIv u.input (store64h seq)) c =
          setCounter (withIv u'.input (store64h seq')) c' → seq = seq' ∧ c = c' := by
  obtain ⟨t, hstart, hkeyed⟩ := chachapolyStart_keyed hkey
  refine ⟨t, hstart, fun s hs seq => ⟨fun x hmin hlen => ⟨?_, ?_⟩, ?_⟩, ?_⟩
  · exact (chachapolyCrypt_encrypt (hs.keyed hkeyed) hmin hlen seq).imp fun _ h => h.1
  · exact getlength_sealText (hs.keyed hkeyed) hmin seq
  · exact fun z x hlen => chachapolyCrypt_decrypt (hs.keyed hkeyed) hlen seq
  · intro u _ u' _ seq seq' c c' hseq hseq' hc hc' heq
    obtain ⟨hiv, hcounter⟩ := setCounter_withIv_inj (length_store64h seq) (length_store64h seq')
      hc hc' heq
    exact ⟨store64h_inj (by omega) (by omega) hiv, hcounter⟩

/-- A packet under the key `0, 1, .., 63` is sealed, its length is read and it is opened again, and a
text without a tag is refused. -/
theorem chachapoly_seals_counting :
    ∃ t s z, chachapolyStart ((List.range 64).map UInt8.ofNat) = some t ∧
      dropbearModeChachapoly.crypt .encrypt 3 [0, 0, 0, 1, 5] t = some (z, s) ∧
      dropbearModeChachapoly.getlength 3 (z.take 8) s = some 1 ∧
      (∃ s', dropbearModeChachapoly.crypt .decrypt 3 z s = some ([0, 0, 0, 1, 5], s')) ∧
      (∀ x s', dropbearModeChachapoly.crypt .decrypt 3 [0, 0, 0, 1, 5] s ≠ some (x, s')) ∧
      setCounter (withIv t.header.input (store64h 3)) 0 ≠
        setCounter (withIv t.chacha.input (store64h 4)) 0 := by
  have hkey : ((List.range 64).map UInt8.ofNat).length = 64 := by
    rw [List.length_map, List.length_range]
  obtain ⟨t, hstart, hseal, hinput⟩ := chachapoly_seals hkey
  obtain ⟨s, hs⟩ := ((hseal t .start 3).1 [0, 0, 0, 1, 5] (by decide) (by decide)).1
  have hreach : ChachapolyReach t s := .encrypt .start (by decide) (by decide) hs
  have hlen : (sealText ((List.range 64).map UInt8.ofNat) 3 [0, 0, 0, 1, 5]).length < 2 ^ 64 := by
    rw [length_sealText]
    decide
  refine ⟨t, s, _, hstart, hs, ?_, ?_, fun x s' hs' => ?_, fun heq => ?_⟩
  · exact ((hseal s hreach 3).1 [0, 0, 0, 1, 5] (by decide) (by decide)).2
  · exact ((hseal s hreach 3).2 _ [0, 0, 0, 1, 5] hlen).2 ⟨by decide, rfl⟩
  · obtain ⟨-, hsealed⟩ := ((hseal s hreach 3).2 [0, 0, 0, 1, 5] x (by decide)).1 ⟨s', hs'⟩
    have hshort := congrArg List.length hsealed
    rw [length_sealText] at hshort
    exact absurd (Nat.le.intro ((Nat.add_comm _ _).trans hshort.symm)) (by decide)
  · exact absurd (hinput _ (by simp) _ (by simp) 3 4 0 0 (by decide) (by decide) (by decide)
      (by decide) heq).1 (by decide)

end Ps4Dropbear
