import Ps4Dropbear.Buffer.Mpint

/-!
# Key derivation

`hashkeys` and `gen_new_keys`, for any hash.  A hash state is the bytes that it has processed.

* `hashkeys` : the function, with the offset of its loop in an `unsigned int`.
* `keyBlocks`, `derivedKey` : the blocks K1 K2 K3 ... and the start of them that is used as a key.
* `genNewKeys` : the function, in both roles.
* `hashkeys_eq` : what is written.
* `genNewKeys_eq` : each direction is keyed with its own three letters.
* `keyDerivation_spec` : **the keys of the two ends mirror each other**.
-/

namespace Ps4Dropbear

namespace KeyDerivation

/-- `MAX_HASH_SIZE`. -/
def maxHashSize : ℕ := 64

/-- `MAX_IV_LEN`. -/
def maxIvLen : ℕ := 20

/-- `MAX_KEY_LEN`. -/
def maxKeyLen : ℕ := 64

/-- `MAX_MAC_LEN`. -/
def maxMacLen : ℕ := 32

/-- `struct ltc_hash_descriptor`: what `done` gives for the bytes that have been processed. -/
structure HashDescriptor where
  hashsize : ℕ
  digest : Bytes → Bytes
  hashsize_pos : 0 < hashsize
  hashsize_le : hashsize ≤ maxHashSize
  length_digest : ∀ bs, (digest bs).length = hashsize

/-- How the derivation of keys ends without keys. -/
inductive KeyStop where
  | exited (msg : Exit)
  /-- The loop of `hashkeys` goes on for ever. -/
  | hangs
  deriving DecidableEq

/-! ### The functions -/

section Hashkeys

variable (H : HashDescriptor)

/-- The loop of `hashkeys`.  The offset decides whether it goes on, so it goes on for ever when it
has not ended after a turn for every offset. -/
def hashkeysLoop (hs : Bytes) (outlen : ℕ) : ℕ → ℕ → Bytes → Except KeyStop Bytes
  | 0, _, _ => .error .hangs
  | turns + 1, offset, out =>
    if offset < outlen then
      -- need to extend
      let tmpout := H.digest (hs ++ out.take offset)
      let out := overwrite out offset (tmpout.take (min (outlen - offset) H.hashsize))
      hashkeysLoop hs outlen turns ((offset + H.hashsize) % 2 ^ 32) out
    else .ok out

/-- `hashkeys`, with the hash state `hs` and `ses.session_id`. -/
def hashkeys (sessionId out : Bytes) (outlen : ℕ) (hs : Bytes) (X : UInt8) :
    Except KeyStop Bytes :=
  let tmpout := H.digest (hs ++ [X] ++ sessionId)
  let out := overwrite out 0 (tmpout.take (min H.hashsize outlen))
  hashkeysLoop H hs outlen (2 ^ 32 + 1) H.hashsize out

variable {H} {hs sessionId out out' : Bytes} {outlen : ℕ} {X : UInt8}

theorem length_hashkeysLoop {turns offset : ℕ} (hlen : outlen ≤ out.length)
    (h : hashkeysLoop H hs outlen turns offset out = .ok out') : out'.length = out.length := by
  induction turns generalizing offset out with
  | zero => cases h
  | succ turns ih =>
    rw [hashkeysLoop] at h
    by_cases hmore : offset < outlen
    · rw [if_pos hmore] at h
      have hover : (overwrite out offset ((H.digest (hs ++ out.take offset)).take
          (min (outlen - offset) H.hashsize))).length = out.length := by
        refine length_overwrite ?_
        rw [List.length_take]
        omega
      rw [← hover]
      exact ih (by rw [hover]; exact hlen) h
    · rw [if_neg hmore] at h
      cases h
      rfl

theorem length_hashkeys (hlen : outlen ≤ out.length)
    (h : hashkeys H sessionId out outlen hs X = .ok out') : out'.length = out.length := by
  have hover : (overwrite out 0 ((H.digest (hs ++ [X] ++ sessionId)).take
      (min H.hashsize outlen))).length = out.length := by
    refine length_overwrite ?_
    rw [List.length_take]
    omega
  rw [← hover]
  exact length_hashkeysLoop (by rw [hover]; exact hlen) h

end Hashkeys

/-- `hash_process_mp`. -/
def hashProcessMp (hs : Bytes) (mp : ℤ) : Except Exit Bytes := do
  let buf ← bufNew (512 + 20)
  let buf ← bufPutmpint buf mp
  return hs ++ buf.contents

/-- `struct dropbear_cipher` and the `start` of `struct dropbear_cipher_mode`: the state that it
sets up, if it returns `CRYPT_OK`. -/
structure DropbearCipher (σ : Type) where
  /-- The `name` of `cipherdesc`; both may be `NULL`. -/
  cipherdesc : Option (Option Bytes)
  keysize : ℕ
  keysize_le : keysize ≤ maxKeyLen
  start : ℤ → Bytes → Bytes → ℕ → Option σ

/-- `struct dropbear_hash`. -/
structure DropbearHash where
  /-- The `name` of `hash_desc`, which may be `NULL`. -/
  hashDesc : Option Bytes
  keysize : ℕ
  keysize_le : keysize ≤ maxMacLen

/-- `struct key_context_directional`. -/
structure KeyContextDirectional (σ : Type) where
  algoCrypt : DropbearCipher σ
  algoMac : DropbearHash
  hashIndex : ℤ
  cipherState : σ
  mackey : Bytes
  length_mackey : mackey.length = maxMacLen
  valid : Bool

/-- `struct key_context`. -/
structure KeyContext (σ : Type) where
  recv : KeyContextDirectional σ
  trans : KeyContextDirectional σ

/-- The registers of libtomcrypt: `find_cipher` and `find_hash`. -/
structure CryptRegisters where
  findCipher : Bytes → ℤ
  findHash : Bytes → ℤ

/-- `recv_cipher` and `trans_cipher`. -/
def cipherIndex (R : CryptRegisters) : Option Bytes → ℤ
  | none => -1
  | some name => R.findCipher name

section GenNewKeys

variable {σ : Type} (H : HashDescriptor) (R : CryptRegisters)

/-- What `gen_new_keys` does for the cipher of a direction. -/
def startCipher (iv key : Bytes) (k : KeyContextDirectional σ) :
    Except KeyStop (KeyContextDirectional σ) :=
  match k.algoCrypt.cipherdesc with
  | none => .ok k
  | some name =>
    if name ≠ none ∧ cipherIndex R name < 0 then .error (.exited "Crypto error")
    else
      match k.algoCrypt.start (cipherIndex R name) iv key k.algoCrypt.keysize with
      | none => .error (.exited "Crypto error")
      | some state => .ok { k with cipherState := state }

/-- What `gen_new_keys` does for the MAC of a direction. -/
def makeMackey (sessionId hs : Bytes) (letter : UInt8) (k : KeyContextDirectional σ) :
    Except KeyStop (KeyContextDirectional σ) :=
  match k.algoMac.hashDesc with
  | none => .ok k
  | some name =>
    match h : hashkeys H sessionId k.mackey k.algoMac.keysize hs letter with
    | .error e => .error e
    | .ok mackey => .ok { k with
      mackey := mackey
      length_mackey := by
        have hsize := k.algoMac.keysize_le
        have hlen := k.length_mackey
        exact (length_hashkeys (by omega) h).trans hlen
      hashIndex := R.findHash name }

/-- What the derivation needs of the exchange and the session: the shared secret, as a number or
as bytes, the exchange hash and the session id. -/
structure KexResult where
  dhK : Option ℕ
  dhKBytes : Option Bytes
  hash : Bytes
  sessionId : Bytes

/-- The start of all hashes. -/
def hashStart (x : KexResult) : Except Exit Bytes := do
  let hs := []
  let hs ← (match x.dhK with
    | some dhK => hashProcessMp hs dhK
    | none => .ok hs)
  let hs := match x.dhKBytes with
    | some dhKBytes => hs ++ dhKBytes
    | none => hs
  return hs ++ x.hash

/-- `gen_new_keys`. -/
def genNewKeys (isClient : Bool) (x : KexResult) (newkeys : KeyContext σ) :
    Except KeyStop (KeyContext σ) := do
  let hs ← (hashStart x).mapError .exited
  let iv := List.replicate maxIvLen 0
  let key := List.replicate maxKeyLen 0
  let c2sIV ← hashkeys H x.sessionId iv maxIvLen hs 65
  let s2cIV ← hashkeys H x.sessionId iv maxIvLen hs 66
  let c2sKey ← hashkeys H x.sessionId key maxKeyLen hs 67
  let s2cKey ← hashkeys H x.sessionId key maxKeyLen hs 68
  let transIV := if isClient then c2sIV else s2cIV
  let recvIV := if isClient then s2cIV else c2sIV
  let transKey := if isClient then c2sKey else s2cKey
  let recvKey := if isClient then s2cKey else c2sKey
  let mactransletter := if isClient then 69 else 70
  let macrecvletter := if isClient then 70 else 69
  let recv ← startCipher R recvIV recvKey newkeys.recv
  let trans ← startCipher R transIV transKey newkeys.trans
  let trans ← makeMackey H R x.sessionId hs mactransletter trans
  let recv ← makeMackey H R x.sessionId hs macrecvletter recv
  -- ready to switch over
  return { recv := { recv with valid := true }, trans := { trans with valid := true } }

end GenNewKeys

/-! ### The blocks of a key -/

section Blocks

variable (H : HashDescriptor) (hs sessionId : Bytes) (X : UInt8)

/-- The first blocks of K1 K2 K3 ...: K1 is the hash of the start, the letter and the session id,
and every other one is the hash of the start and the blocks before it. -/
def keyBlocks : ℕ → Bytes
  | 0 => []
  | n + 1 => keyBlocks n ++
      H.digest (hs ++ if n = 0 then [X] ++ sessionId else keyBlocks n)

/-- The first `outlen` bytes of K1 K2 K3 ...  No block is empty, so there are enough blocks. -/
def derivedKey (outlen : ℕ) : Bytes := (keyBlocks H hs sessionId X outlen).take outlen

variable {H hs sessionId X}

@[simp] theorem length_keyBlocks (n : ℕ) :
    (keyBlocks H hs sessionId X n).length = n * H.hashsize := by
  induction n with
  | zero => rw [keyBlocks, Nat.zero_mul]; rfl
  | succ n ih => rw [keyBlocks, List.length_append, ih, H.length_digest, Nat.succ_mul]

theorem keyBlocks_isPrefix {m n : ℕ} (h : m ≤ n) :
    keyBlocks H hs sessionId X m <+: keyBlocks H hs sessionId X n := by
  induction n, h using Nat.le_induction with
  | base => exact List.prefix_rfl
  | succ n _ ih =>
    rw [keyBlocks]
    exact ih.trans (List.prefix_append _ _)

/-- Any number of blocks that is enough gives the key. -/
theorem take_keyBlocks {n outlen : ℕ} (h : outlen ≤ n * H.hashsize) :
    (keyBlocks H hs sessionId X n).take outlen = derivedKey H hs sessionId X outlen := by
  have hpos := H.hashsize_pos
  have hall : outlen ≤ outlen * H.hashsize := Nat.le_mul_of_pos_right _ hpos
  have htake : ∀ {a b : Bytes}, a <+: b → outlen ≤ a.length → b.take outlen = a.take outlen := by
    rintro a b ⟨t, rfl⟩ hle
    exact List.take_append_of_le_length hle
  unfold derivedKey
  rcases Nat.le_total n outlen with hle | hle
  · exact (htake (keyBlocks_isPrefix hle) (by rw [length_keyBlocks]; exact h)).symm
  · exact htake (keyBlocks_isPrefix hle) (by rw [length_keyBlocks]; exact hall)

theorem length_derivedKey (outlen : ℕ) : (derivedKey H hs sessionId X outlen).length = outlen := by
  unfold derivedKey
  rw [List.length_take, length_keyBlocks]
  exact Nat.min_eq_left (Nat.le_mul_of_pos_right _ H.hashsize_pos)

/-- The least multiple of the hash size from `outlen` on. -/
def roundUp (H : HashDescriptor) (outlen : ℕ) : ℕ :=
  (outlen + H.hashsize - 1) / H.hashsize * H.hashsize

end Blocks

/-! ### What `hashkeys` writes -/

section Loop

variable {H : HashDescriptor} {hs sessionId out : Bytes} {X : UInt8} {outlen i t : ℕ}

theorem take_overwrite_zero (out x : Bytes) : (overwrite out 0 x).take x.length = x := by
  unfold overwrite
  rw [List.take_zero, List.nil_append]
  exact List.take_left

theorem lt_roundUp (hi : i * H.hashsize < outlen) : (i + 1) * H.hashsize ≤ roundUp H outlen := by
  have hpos := H.hashsize_pos
  refine Nat.mul_le_mul_right _ ((Nat.le_div_iff_mul_le hpos).2 ?_)
  rw [Nat.succ_mul]
  omega

theorem le_roundUp (outlen : ℕ) : outlen ≤ roundUp H outlen := by
  have hpos := H.hashsize_pos
  have hmod := Nat.mod_lt (outlen + H.hashsize - 1) hpos
  have hdiv := Nat.div_add_mod (outlen + H.hashsize - 1) H.hashsize
  unfold roundUp
  rw [Nat.mul_comm]
  omega

/-- Behind `i` blocks the loop writes the other ones. -/
theorem hashkeysLoop_eq (hi : 0 < i) (hwrap : roundUp H outlen < 2 ^ 32)
    (hlen : outlen ≤ out.length) (ht : outlen ≤ (i + t) * H.hashsize) :
    hashkeysLoop H hs outlen (t + 1) (i * H.hashsize)
      (overwrite out 0 ((keyBlocks H hs sessionId X i).take outlen)) =
        .ok (overwrite out 0 (derivedKey H hs sessionId X outlen)) := by
  induction t generalizing i with
  | zero =>
    rw [Nat.add_zero] at ht
    rw [hashkeysLoop, if_neg (Nat.not_lt.2 ht), take_keyBlocks ht]
  | succ t ih =>
    rw [hashkeysLoop]
    by_cases hmore : i * H.hashsize < outlen
    · have hlast : (keyBlocks H hs sessionId X i).length ≤ outlen := by
        rw [length_keyBlocks]
        omega
      have hblocks : (keyBlocks H hs sessionId X i).length = i * H.hashsize := length_keyBlocks i
      have hdigest := H.length_digest (hs ++ keyBlocks H hs sessionId X i)
      -- the blocks so far, and what is written behind them
      have hnext : keyBlocks H hs sessionId X i ++
          (H.digest (hs ++ keyBlocks H hs sessionId X i)).take
            (min (outlen - i * H.hashsize) H.hashsize) =
          (keyBlocks H hs sessionId X (i + 1)).take outlen := by
        rw [keyBlocks, if_neg (Nat.ne_of_gt hi), List.take_append, List.take_of_length_le hlast,
          hblocks]
        congr 1
        rw [List.take_eq_take_iff, hdigest]
        omega
      have hwrite : overwrite (overwrite out 0 (keyBlocks H hs sessionId X i)) (i * H.hashsize)
          ((H.digest (hs ++ keyBlocks H hs sessionId X i)).take
            (min (outlen - i * H.hashsize) H.hashsize)) =
          overwrite out 0 ((keyBlocks H hs sessionId X (i + 1)).take outlen) := by
        rw [← hnext, ← overwrite_overwrite (by omega), Nat.zero_add, hblocks]
      have htake : (overwrite out 0 (keyBlocks H hs sessionId X i)).take (i * H.hashsize) =
          keyBlocks H hs sessionId X i := by
        rw [← hblocks, take_overwrite_zero]
      have hoffset : (i * H.hashsize + H.hashsize) % 2 ^ 32 = (i + 1) * H.hashsize := by
        have hround := lt_roundUp hmore
        rw [Nat.succ_mul] at hround ⊢
        exact Nat.mod_eq_of_lt (by omega)
      rw [if_pos hmore, List.take_of_length_le hlast, htake]
      dsimp only
      rw [hwrite, hoffset]
      refine ih (Nat.succ_pos i) (Nat.le_trans ht (Nat.mul_le_mul_right _ ?_))
      omega
    · rw [if_neg hmore, take_keyBlocks (Nat.not_lt.1 hmore)]

/-- **`hashkeys` writes the first `outlen` bytes of K1 K2 K3 ...**, as long as its offset does not
wrap around. -/
theorem hashkeys_eq (hlen : outlen ≤ out.length) (hwrap : roundUp H outlen < 2 ^ 32) :
    hashkeys H sessionId out outlen hs X =
      .ok (overwrite out 0 (derivedKey H hs sessionId X outlen)) := by
  have hround := le_roundUp (H := H) outlen
  have hpos := H.hashsize_pos
  have hturns : outlen ≤ (1 + 2 ^ 32) * H.hashsize := by
    refine Nat.le_trans (?_ : outlen ≤ 1 + 2 ^ 32) (Nat.le_mul_of_pos_right _ hpos)
    omega
  have hloop : hashkeysLoop H hs outlen (2 ^ 32 + 1) (1 * H.hashsize)
      (overwrite out 0 ((keyBlocks H hs sessionId X 1).take outlen)) = _ :=
    hashkeysLoop_eq Nat.one_pos hwrap hlen hturns
  have hfirst : (keyBlocks H hs sessionId X 1).take outlen =
      (H.digest (hs ++ [X] ++ sessionId)).take (min H.hashsize outlen) := by
    have hdigest := H.length_digest (hs ++ [X] ++ sessionId)
    rw [keyBlocks, keyBlocks, if_pos rfl, List.nil_append, ← List.append_assoc,
      List.take_eq_take_iff, hdigest]
    omega
  rw [hfirst, Nat.one_mul] at hloop
  exact hloop

/-- With an offset that wraps around to a multiple of the hash size the loop does not end. -/
theorem hashkeysLoop_hangs {turns offset : ℕ} (hsize : H.hashsize = 64)
    (hmul : offset % 64 = 0) (hoffset : offset < 2 ^ 32) :
    hashkeysLoop H hs (2 ^ 32 - 1) turns offset out = .error .hangs := by
  induction turns generalizing offset out with
  | zero => rfl
  | succ turns ih =>
    rw [hashkeysLoop, if_pos (by omega), hsize]
    exact ih (by omega) (Nat.mod_lt _ (Nat.two_pow_pos 32))

theorem overwrite_all {data x : Bytes} (h : x.length = data.length) : overwrite data 0 x = x := by
  unfold overwrite
  rw [List.take_zero, List.nil_append, Nat.zero_add, h, List.drop_length, List.append_nil]

theorem roundUp_lt (H : HashDescriptor) (h : outlen ≤ 64) : roundUp H outlen < 2 ^ 32 := by
  have hle : roundUp H outlen ≤ outlen + H.hashsize - 1 := Nat.div_mul_le_self _ _
  have hsize := H.hashsize_le
  simp only [maxHashSize] at hsize
  omega

/-- An array that is filled. -/
theorem hashkeys_fill (H : HashDescriptor) (n : ℕ) (hn : n ≤ 64) (X : UInt8) :
    hashkeys H sessionId (List.replicate n 0) n hs X = .ok (derivedKey H hs sessionId X n) := by
  have hlen : (List.replicate n (0 : UInt8)).length = n := List.length_replicate
  rw [hashkeys_eq (Nat.le_of_eq hlen.symm) (roundUp_lt H hn),
    overwrite_all (by rw [hlen, length_derivedKey])]

end Loop

/-! ### What `gen_new_keys` does for a direction -/

/-- A direction of the connection. -/
inductive KeyDirection where
  | c2s
  | s2c
  deriving DecidableEq, Repr

/-- The letter of the initial IV: `A` or `B`. -/
def KeyDirection.ivLetter : KeyDirection → UInt8
  | .c2s => 65
  | .s2c => 66

/-- The letter of the encryption key: `C` or `D`. -/
def KeyDirection.keyLetter : KeyDirection → UInt8
  | .c2s => 67
  | .s2c => 68

/-- The letter of the integrity key: `E` or `F`. -/
def KeyDirection.macLetter : KeyDirection → UInt8
  | .c2s => 69
  | .s2c => 70

/-- The direction that a role sends in. -/
def transDirection (isClient : Bool) : KeyDirection := if isClient then .c2s else .s2c

/-- The direction that a role receives in. -/
def recvDirection (isClient : Bool) : KeyDirection := if isClient then .s2c else .c2s

section Directions

variable {σ : Type} {H : HashDescriptor} {R : CryptRegisters} {sessionId hs iv key : Bytes}
  {k k' : KeyContextDirectional σ} {letter : UInt8}

/-- The cipher is registered and sets up a state, whatever its keys are. -/
def DropbearCipher.Works (R : CryptRegisters) (a : DropbearCipher σ) : Prop :=
  ∀ name, a.cipherdesc = some name → (name = none ∨ 0 ≤ cipherIndex R name) ∧
    ∀ iv key, (a.start (cipherIndex R name) iv key a.keysize).isSome

/-- What `startCipher` needs, of the algorithm only. -/
def Starts (R : CryptRegisters) (iv key : Bytes) (a : DropbearCipher σ) : Prop :=
  ∀ name, a.cipherdesc = some name → (name = none ∨ 0 ≤ cipherIndex R name) ∧
    (a.start (cipherIndex R name) iv key a.keysize).isSome

/-- The state that a cipher starts with; an old one stays when there is no cipher. -/
def StartsWith (R : CryptRegisters) (iv key : Bytes) (k : KeyContextDirectional σ) (state : σ) :
    Prop :=
  match k.algoCrypt.cipherdesc with
  | none => state = k.cipherState
  | some name => k.algoCrypt.start (cipherIndex R name) iv key k.algoCrypt.keysize = some state

theorem startCipher_ok : startCipher R iv key k = .ok k' ↔ Starts R iv key k.algoCrypt ∧
    ∃ state, StartsWith R iv key k state ∧ k' = { k with cipherState := state } := by
  unfold startCipher StartsWith Starts
  cases hdesc : k.algoCrypt.cipherdesc with
  | none =>
    constructor
    · intro h
      cases h
      exact ⟨nofun, _, rfl, rfl⟩
    · rintro ⟨-, _, rfl, rfl⟩
      rfl
  | some name =>
    dsimp only
    by_cases hreg : name ≠ none ∧ cipherIndex R name < 0
    · rw [if_pos hreg]
      refine iff_of_false nofun ?_
      rintro ⟨h, -⟩
      exact (h name rfl).1.elim hreg.1 (fun hle => absurd hle (Int.not_le.2 hreg.2))
    · rw [if_neg hreg]
      have hreg' : name = none ∨ 0 ≤ cipherIndex R name := by
        by_contra hno
        rw [not_or, Int.not_le] at hno
        exact hreg hno
      cases hstart : k.algoCrypt.start (cipherIndex R name) iv key k.algoCrypt.keysize with
      | none =>
        refine iff_of_false nofun ?_
        rintro ⟨-, state, h, -⟩
        cases h
      | some state =>
        constructor
        · intro h
          cases h
          refine ⟨?_, state, rfl, rfl⟩
          rintro _ ⟨⟩
          exact ⟨hreg', by rw [hstart]; rfl⟩
        · rintro ⟨-, _, ⟨⟩, rfl⟩
          rfl

/-- The key for the MAC, and the index of its hash. -/
def withMackey (H : HashDescriptor) (R : CryptRegisters) (sessionId hs : Bytes) (letter : UInt8)
    (k : KeyContextDirectional σ) : KeyContextDirectional σ :=
  match k.algoMac.hashDesc with
  | none => k
  | some name => { k with
      mackey := overwrite k.mackey 0 (derivedKey H hs sessionId letter k.algoMac.keysize)
      length_mackey := by
        have hsize := k.algoMac.keysize_le
        have hlen := k.length_mackey
        rw [length_overwrite (by rw [length_derivedKey]; omega), hlen]
      hashIndex := R.findHash name }

theorem makeMackey_eq :
    makeMackey H R sessionId hs letter k = .ok (withMackey H R sessionId hs letter k) := by
  have hsize := k.algoMac.keysize_le
  have hlen := k.length_mackey
  have hkey : hashkeys H sessionId k.mackey k.algoMac.keysize hs letter =
      .ok (overwrite k.mackey 0 (derivedKey H hs sessionId letter k.algoMac.keysize)) := by
    refine hashkeys_eq (by omega) (roundUp_lt H ?_)
    simp only [maxMacLen] at hsize
    omega
  unfold makeMackey withMackey
  cases k.algoMac.hashDesc with
  | none => rfl
  | some name =>
    dsimp only
    split
    · next e h => cases hkey.symm.trans h
    · next mackey h =>
      cases hkey.symm.trans h
      rfl

/-- `k'` is `k` with the keys of a direction. -/
structure Keyed (H : HashDescriptor) (R : CryptRegisters) (sessionId hs : Bytes)
    (dir : KeyDirection) (k k' : KeyContextDirectional σ) : Prop where
  algoCrypt : k'.algoCrypt = k.algoCrypt
  algoMac : k'.algoMac = k.algoMac
  valid : k'.valid = true
  cipher : StartsWith R (derivedKey H hs sessionId dir.ivLetter maxIvLen)
    (derivedKey H hs sessionId dir.keyLetter maxKeyLen) k k'.cipherState
  mac : k.algoMac.hashDesc ≠ none → k'.mackey.take k.algoMac.keysize =
    derivedKey H hs sessionId dir.macLetter k.algoMac.keysize

/-- A direction, from its cipher to `valid`. -/
def keyDirection (H : HashDescriptor) (R : CryptRegisters) (sessionId hs : Bytes)
    (dir : KeyDirection) (k : KeyContextDirectional σ) :
    Except KeyStop (KeyContextDirectional σ) := do
  let k ← startCipher R (derivedKey H hs sessionId dir.ivLetter maxIvLen)
    (derivedKey H hs sessionId dir.keyLetter maxKeyLen) k
  return { withMackey H R sessionId hs dir.macLetter k with valid := true }

variable {dir : KeyDirection}

theorem keyDirection_ok_iff : (∃ k', keyDirection H R sessionId hs dir k = .ok k') ↔
    Starts R (derivedKey H hs sessionId dir.ivLetter maxIvLen)
      (derivedKey H hs sessionId dir.keyLetter maxKeyLen) k.algoCrypt := by
  constructor
  · rintro ⟨k', h⟩
    obtain ⟨k₁, hstart, -⟩ := bind_eq_ok.1 h
    exact (startCipher_ok.1 hstart).1
  · intro h
    have hstate : ∃ state, StartsWith R (derivedKey H hs sessionId dir.ivLetter maxIvLen)
        (derivedKey H hs sessionId dir.keyLetter maxKeyLen) k state := by
      unfold StartsWith
      cases hdesc : k.algoCrypt.cipherdesc with
      | none => exact ⟨_, rfl⟩
      | some name => exact Option.isSome_iff_exists.1 (h name hdesc).2
    obtain ⟨state, hstate⟩ := hstate
    refine ⟨{ withMackey H R sessionId hs dir.macLetter { k with cipherState := state } with
      valid := true }, ?_⟩
    unfold keyDirection
    rw [startCipher_ok.2 ⟨h, state, hstate, rfl⟩, ok_bind]
    rfl

theorem keyDirection_keyed (h : keyDirection H R sessionId hs dir k = .ok k') :
    Keyed H R sessionId hs dir k k' := by
  obtain ⟨k₁, hstart, h⟩ := bind_eq_ok.1 h
  obtain ⟨-, state, hstate, rfl⟩ := startCipher_ok.1 hstart
  rw [pure_eq_ok] at h
  subst h
  have hsize := k.algoMac.keysize_le
  unfold withMackey
  cases hdesc : k.algoMac.hashDesc with
  | none => exact ⟨rfl, rfl, rfl, hstate, fun h => absurd hdesc h⟩
  | some name =>
    refine ⟨rfl, rfl, rfl, hstate, fun _ => ?_⟩
    have hlen : (derivedKey H hs sessionId dir.macLetter k.algoMac.keysize).length =
        k.algoMac.keysize := length_derivedKey _
    have htake := take_overwrite_zero k.mackey
      (derivedKey H hs sessionId dir.macLetter k.algoMac.keysize)
    rw [hlen] at htake
    exact htake

end Directions

/-! ### Both directions -/

section Both

variable {σ : Type} {H : HashDescriptor} {R : CryptRegisters} {x : KexResult}

/-- `gen_new_keys` keys each direction with its own letters. -/
theorem genNewKeys_eq (isClient : Bool) (nk : KeyContext σ) :
    genNewKeys H R isClient x nk = (do
      let hs ← (hashStart x).mapError .exited
      let recv ← keyDirection H R x.sessionId hs (recvDirection isClient) nk.recv
      let trans ← keyDirection H R x.sessionId hs (transDirection isClient) nk.trans
      return { recv := recv, trans := trans }) := by
  unfold genNewKeys
  cases (hashStart x).mapError KeyStop.exited with
  | error e => rfl
  | ok hs =>
    rw [ok_bind, ok_bind]
    dsimp only
    rw [hashkeys_fill H maxIvLen (by decide), ok_bind, hashkeys_fill H maxIvLen (by decide),
      ok_bind, hashkeys_fill H maxKeyLen (by decide), ok_bind,
      hashkeys_fill H maxKeyLen (by decide), ok_bind]
    -- the MACs are independent of the other direction
    have hboth : ∀ (recvIV recvKey transIV transKey : Bytes) (recvLetter transLetter : UInt8),
        (do
          let recv ← startCipher R recvIV recvKey nk.recv
          let trans ← startCipher R transIV transKey nk.trans
          let trans ← makeMackey H R x.sessionId hs transLetter trans
          let recv ← makeMackey H R x.sessionId hs recvLetter recv
          return ({ recv := { recv with valid := true }, trans := { trans with valid := true } } :
            KeyContext σ)) =
        (do
          let recv ← (do
            let k ← startCipher R recvIV recvKey nk.recv
            return { withMackey H R x.sessionId hs recvLetter k with valid := true })
          let trans ← (do
            let k ← startCipher R transIV transKey nk.trans
            return { withMackey H R x.sessionId hs transLetter k with valid := true })
          return { recv := recv, trans := trans }) := by
      intro recvIV recvKey transIV transKey recvLetter transLetter
      cases startCipher R recvIV recvKey nk.recv with
      | error e => rfl
      | ok recv =>
        cases startCipher R transIV transKey nk.trans with
        | error e => rfl
        | ok trans =>
          simp only [ok_bind, makeMackey_eq]
          rfl
    cases isClient with
    | true =>
      simp only [if_true, keyDirection, recvDirection, transDirection, KeyDirection.ivLetter,
        KeyDirection.keyLetter, KeyDirection.macLetter]
      rw [hboth]
    | false =>
      simp only [Bool.false_eq_true, if_false, keyDirection, recvDirection, transDirection,
        KeyDirection.ivLetter, KeyDirection.keyLetter, KeyDirection.macLetter]
      rw [hboth]

/-- The shared secret as it is hashed. -/
def secretBytes (x : KexResult) : Bytes :=
  (x.dhK.elim [] fun dhK => sshString (mpintBody dhK)) ++ x.dhKBytes.getD []

/-- The shared secret fits in the buffer of `hash_process_mp`. -/
def SecretFits (x : KexResult) : Prop :=
  ∀ dhK, x.dhK = some dhK → (sshString (mpintBody dhK)).length ≤ 512 + 20

theorem hashProcessMp_eq {a : ℕ} (hs : Bytes)
    (h : (sshString (mpintBody a)).length ≤ 512 + 20) :
    hashProcessMp hs a = .ok (hs ++ sshString (mpintBody a)) := by
  obtain ⟨b, hnew, hb⟩ := Buffer.bufNew_has (show 512 + 20 ≤ bufMaxSize by decide)
  obtain ⟨b', hput, hb'⟩ := hb.putmpint (a := a) (by rw [List.length_nil, Nat.zero_add]; exact h)
  unfold hashProcessMp
  rw [hnew, ok_bind, hput, ok_bind, hb'.used]
  rfl

theorem hashProcessMp_ne_ok {a : ℕ} (hs hs' : Bytes)
    (h : 512 + 20 < (sshString (mpintBody a)).length) : hashProcessMp hs a ≠ .ok hs' := by
  intro hok
  obtain ⟨b, hnew, hb⟩ := Buffer.bufNew_has (show 512 + 20 ≤ bufMaxSize by decide)
  obtain ⟨c, hnew', hok⟩ := bind_eq_ok.1 hok
  cases hnew.symm.trans hnew'
  obtain ⟨d, hput, -⟩ := bind_eq_ok.1 hok
  have hle := (Buffer.puts_putmpint hput).le
  rw [hb.pos, hb.size, Nat.zero_add] at hle
  exact absurd hle (Nat.not_le.2 h)

theorem hashStart_ne_ok {a : ℕ} {hs : Bytes} (ha : x.dhK = some a)
    (h : 512 + 20 < (sshString (mpintBody a)).length) : hashStart x ≠ .ok hs := by
  intro hok
  unfold hashStart at hok
  rw [ha] at hok
  obtain ⟨hs', hmp, -⟩ := bind_eq_ok.1 hok
  exact hashProcessMp_ne_ok [] hs' h hmp

theorem hashStart_eq (h : SecretFits x) : hashStart x = .ok (secretBytes x ++ x.hash) := by
  unfold hashStart secretBytes
  cases hK : x.dhK with
  | none =>
    cases x.dhKBytes with
    | none => rfl
    | some dhKBytes => rfl
  | some dhK =>
    dsimp only
    rw [hashProcessMp_eq [] (h dhK hK), ok_bind, List.nil_append]
    cases x.dhKBytes with
    | none =>
      rw [Option.elim_some, Option.getD_none, List.append_nil]
      rfl
    | some dhKBytes => rfl

theorem genNewKeys_ok_iff {isClient : Bool} {nk nk' : KeyContext σ} (hx : SecretFits x) :
    genNewKeys H R isClient x nk = .ok nk' ↔
      keyDirection H R x.sessionId (secretBytes x ++ x.hash) (recvDirection isClient) nk.recv =
        .ok nk'.recv ∧
      keyDirection H R x.sessionId (secretBytes x ++ x.hash) (transDirection isClient) nk.trans =
        .ok nk'.trans := by
  rw [genNewKeys_eq, hashStart_eq hx]
  change (do
    let recv ← keyDirection H R x.sessionId (secretBytes x ++ x.hash) (recvDirection isClient)
      nk.recv
    let trans ← keyDirection H R x.sessionId (secretBytes x ++ x.hash) (transDirection isClient)
      nk.trans
    return ({ recv := recv, trans := trans } : KeyContext σ)) = .ok nk' ↔ _
  constructor
  · intro h
    obtain ⟨recv, hrecv, h⟩ := bind_eq_ok.1 h
    obtain ⟨trans, htrans, h⟩ := bind_eq_ok.1 h
    cases h
    exact ⟨hrecv, htrans⟩
  · rintro ⟨hrecv, htrans⟩
    rw [hrecv, ok_bind, htrans, ok_bind]
    rfl

theorem exists_genNewKeys_iff {isClient : Bool} {nk : KeyContext σ} (hx : SecretFits x) :
    (∃ nk', genNewKeys H R isClient x nk = .ok nk') ↔
      (∃ k', keyDirection H R x.sessionId (secretBytes x ++ x.hash) (recvDirection isClient)
        nk.recv = .ok k') ∧
      ∃ k', keyDirection H R x.sessionId (secretBytes x ++ x.hash) (transDirection isClient)
        nk.trans = .ok k' := by
  simp only [genNewKeys_ok_iff hx]
  constructor
  · rintro ⟨nk', hrecv, htrans⟩
    exact ⟨⟨_, hrecv⟩, _, htrans⟩
  · rintro ⟨⟨recv, hrecv⟩, trans, htrans⟩
    exact ⟨⟨recv, trans⟩, hrecv, htrans⟩

end Both

/-! ### Two ends -/

section Ends

variable {σ : Type}

/-- The same cipher and the same MAC. -/
def SameAlgos (k l : KeyContextDirectional σ) : Prop :=
  k.algoCrypt = l.algoCrypt ∧ k.algoMac = l.algoMac

/-- The same cipher state and the same key for the MAC, where there is a cipher and a MAC. -/
def SameKeys (k l : KeyContextDirectional σ) : Prop :=
  (k.algoCrypt.cipherdesc ≠ none → k.cipherState = l.cipherState) ∧
    (k.algoMac.hashDesc ≠ none →
      k.mackey.take k.algoMac.keysize = l.mackey.take l.algoMac.keysize)

variable {H : HashDescriptor} {R : CryptRegisters} {sessionId hs : Bytes} {dir : KeyDirection}
  {k k' l l' : KeyContextDirectional σ}

theorem Keyed.sameKeys (hk : Keyed H R sessionId hs dir k k') (hl : Keyed H R sessionId hs dir l l')
    (hsame : SameAlgos k l) : SameKeys k' l' := by
  refine ⟨fun hcipher => ?_, fun hmac => ?_⟩
  · have hkc := hk.cipher
    have hlc := hl.cipher
    rw [hk.algoCrypt] at hcipher
    unfold StartsWith at hkc hlc
    rw [← hsame.1] at hlc
    cases hdesc : k.algoCrypt.cipherdesc with
    | none => exact absurd hdesc hcipher
    | some name =>
      rw [hdesc] at hkc hlc
      exact Option.some.inj (hkc.symm.trans hlc)
  · rw [hk.algoMac] at hmac ⊢
    rw [hl.algoMac, hk.mac hmac, hl.mac (by rw [← hsame.2]; exact hmac), hsame.2]

end Ends

/-- **Keys are derived as RFC 4253 says, on both ends.**  `hashkeys` writes the first bytes of
K1 K2 K3 ..., for a length whose next multiple of the hash size is less than 2^32.  For the same
inputs, `gen_new_keys` succeeds on both ends or on none; each direction gets the keys of its own
letters, so what one end sends with is what the other one receives with. -/
theorem keyDerivation_spec (H : HashDescriptor) :
    (∀ (hs sessionId out : Bytes) (outlen : ℕ) (X : UInt8), outlen ≤ out.length →
      roundUp H outlen < 2 ^ 32 →
      hashkeys H sessionId out outlen hs X =
        .ok (overwrite out 0 (derivedKey H hs sessionId X outlen))) ∧
    ∀ {σ : Type} (R : CryptRegisters) (x : KexResult) (client server : KeyContext σ),
      SecretFits x → SameAlgos client.trans server.recv → SameAlgos client.recv server.trans →
      ((∃ c, genNewKeys H R true x client = .ok c) ↔
        ∃ s, genNewKeys H R false x server = .ok s) ∧
      (client.trans.algoCrypt.Works R → client.recv.algoCrypt.Works R →
        ∃ c, genNewKeys H R true x client = .ok c) ∧
      ∀ c s, genNewKeys H R true x client = .ok c → genNewKeys H R false x server = .ok s →
        (SameKeys c.trans s.recv ∧ SameKeys c.recv s.trans) ∧
        (Keyed H R x.sessionId (secretBytes x ++ x.hash) .c2s client.trans c.trans ∧
          Keyed H R x.sessionId (secretBytes x ++ x.hash) .s2c client.recv c.recv) ∧
        Keyed H R x.sessionId (secretBytes x ++ x.hash) .c2s server.recv s.recv ∧
        Keyed H R x.sessionId (secretBytes x ++ x.hash) .s2c server.trans s.trans := by
  refine ⟨fun hs sessionId out outlen X hlen hwrap => hashkeys_eq hlen hwrap,
    fun {σ} R x client server hx htrans hrecv => ⟨?_, fun hwt hwr => ?_, fun c s hc hs => ?_⟩⟩
  · rw [exists_genNewKeys_iff hx, exists_genNewKeys_iff hx, keyDirection_ok_iff,
      keyDirection_ok_iff, keyDirection_ok_iff, keyDirection_ok_iff, htrans.1, hrecv.1]
    exact and_comm
  · rw [exists_genNewKeys_iff hx, keyDirection_ok_iff, keyDirection_ok_iff]
    exact ⟨fun name h => ⟨(hwr name h).1, (hwr name h).2 _ _⟩,
      fun name h => ⟨(hwt name h).1, (hwt name h).2 _ _⟩⟩
  · obtain ⟨hcr, hct⟩ := (genNewKeys_ok_iff hx).1 hc
    obtain ⟨hsr, hst⟩ := (genNewKeys_ok_iff hx).1 hs
    have hcr' : Keyed H R x.sessionId (secretBytes x ++ x.hash) .s2c client.recv c.recv :=
      keyDirection_keyed hcr
    have hct' : Keyed H R x.sessionId (secretBytes x ++ x.hash) .c2s client.trans c.trans :=
      keyDirection_keyed hct
    have hsr' : Keyed H R x.sessionId (secretBytes x ++ x.hash) .c2s server.recv s.recv :=
      keyDirection_keyed hsr
    have hst' : Keyed H R x.sessionId (secretBytes x ++ x.hash) .s2c server.trans s.trans :=
      keyDirection_keyed hst
    exact ⟨⟨hct'.sameKeys hsr' htrans, hcr'.sameKeys hst' hrecv⟩, ⟨hct', hcr'⟩, hsr', hst'⟩

/-- A hash of 64 bytes, with a sum of its input in each of them. -/
def sumHash : HashDescriptor where
  hashsize := 64
  digest bs := (List.range 64).map fun i => bs.foldl (31 * · + ·) (UInt8.ofNat i)
  hashsize_pos := by decide
  hashsize_le := by decide
  length_digest _ := by rw [List.length_map, List.length_range]

/-- A direction whose cipher keeps the IV and the key. -/
def plainDirection : KeyContextDirectional (Bytes × Bytes) where
  algoCrypt := ⟨some none, 64, by decide, fun _ iv key n => some (iv, key.take n)⟩
  algoMac := ⟨some (ascii "sha256"), 32, by decide⟩
  hashIndex := 0
  cipherState := ([], [])
  mackey := List.replicate maxMacLen 0
  length_mackey := List.length_replicate
  valid := false

/-- A key of 100 bytes takes two turns of the hash, and both ends of a session get the same keys. -/
theorem keyDerivation_spec_plain :
    hashkeys sumHash [1] (List.replicate 100 0) 100 [7, 9] 65 =
        .ok (overwrite (List.replicate 100 0) 0 (derivedKey sumHash [7, 9] [1] 65 100)) ∧
      ∃ c s, genNewKeys sumHash ⟨fun _ => 0, fun _ => 0⟩ true ⟨some 255, none, [1], [2]⟩
          ⟨plainDirection, plainDirection⟩ = .ok c ∧
        genNewKeys sumHash ⟨fun _ => 0, fun _ => 0⟩ false ⟨some 255, none, [1], [2]⟩
          ⟨plainDirection, plainDirection⟩ = .ok s ∧
        SameKeys c.trans s.recv ∧ SameKeys c.recv s.trans ∧
        Keyed sumHash ⟨fun _ => 0, fun _ => 0⟩ [2] (secretBytes ⟨some 255, none, [1], [2]⟩ ++ [1])
          .c2s plainDirection c.trans := by
  have hworks : plainDirection.algoCrypt.Works ⟨fun _ => 0, fun _ => 0⟩ := by
    rintro _ ⟨⟩
    exact ⟨Or.inl rfl, fun _ _ => rfl⟩
  obtain ⟨hends, hclient, hkeys⟩ := (keyDerivation_spec sumHash).2 ⟨fun _ => 0, fun _ => 0⟩
    ⟨some 255, none, [1], [2]⟩ ⟨plainDirection, plainDirection⟩ ⟨plainDirection, plainDirection⟩
    (by rintro _ ⟨⟩; decide) ⟨rfl, rfl⟩ ⟨rfl, rfl⟩
  obtain ⟨c, hc⟩ := hclient hworks hworks
  obtain ⟨s, hs⟩ := hends.1 ⟨c, hc⟩
  obtain ⟨⟨htrans, hrecv⟩, ⟨hkeyed, -⟩, -⟩ := hkeys c s hc hs
  exact ⟨(keyDerivation_spec sumHash).1 _ _ _ _ _ (by decide) (by decide), c, s, hc, hs, htrans,
    hrecv, hkeyed⟩

/-- A shared secret of 529 bytes is too long for `hash_process_mp`, and with a hash of 64 bytes
`hashkeys` does not come to the end of 2^32 - 1 bytes. -/
theorem keyDerivation_limits :
    (∀ isClient c, genNewKeys sumHash ⟨fun _ => 0, fun _ => 0⟩ isClient
      ⟨some (2 ^ 4224), none, [1], [2]⟩ ⟨plainDirection, plainDirection⟩ ≠ .ok c) ∧
    hashkeys sumHash [] (List.replicate (2 ^ 32 - 1) 0) (2 ^ 32 - 1) [] 65 = .error .hangs := by
  constructor
  · intro isClient c hc
    rw [genNewKeys_eq] at hc
    obtain ⟨hs, hstart, -⟩ := bind_eq_ok.1 hc
    have hlong : 512 + 20 < (sshString (mpintBody (2 ^ 4224))).length := by
      rw [length_sshString, length_mpintBody]
      decide +kernel
    cases hx : hashStart ⟨some (2 ^ 4224), none, [1], [2]⟩ with
    | error e =>
      rw [hx] at hstart
      cases hstart
    | ok hs' => exact hashStart_ne_ok rfl hlong hx
  · unfold hashkeys
    exact hashkeysLoop_hangs rfl (by decide) (by decide)

end KeyDerivation

end Ps4Dropbear
