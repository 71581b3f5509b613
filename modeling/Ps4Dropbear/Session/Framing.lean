import Ps4Dropbear.Session.Packet

/-!
# The frame of a packet

`encrypt_packet` puts a payload into a packet, and computes the length, the padding and the place of
the MAC on its side; the receiver computes them again from what it decrypts.

`KeyContext.Shared` is what the code relies on: decryption undoes encryption, block by block in a
cipher mode, and `aead_getlength` reads the length from the first block.  `KeyContext.Framed` is
what the receiver has to know about a packet, and is the same in both kinds of modes.

* `KeyContext.frame_has`, `KeyContext.Shared.encryptInPlace_framed` : the two parts of
  `encrypt_packet`.
* `KeyContext.Shared.framed_aead`, `KeyContext.Shared.framed_cipher` : what they make can be
  decrypted.
* `encryptPacket_carries` : **the packet of a payload**.
-/

namespace Ps4Dropbear

variable {σ : Type}

/-- Both ends have the keys of `K`; `Match e d` says that the receiver's cipher in the state `d` is
where the sender's is in the state `e`. -/
structure KeyContext.Shared (K : KeyContext σ) (Match : σ → σ → Prop) : Prop where
  blocksize : K.blocksize = 8 ∨ K.blocksize = 16
  macsize : K.macsize ≤ maxMacLen
  /-- Decryption is inverse to encryption. -/
  cipher : K.aead = none → ∀ e d, Match e d → ∀ x, K.blocksize ∣ x.length →
    ∃ c e' d', K.encrypt x e = some (c, e') ∧ c.length = x.length ∧
      K.decrypt c d = some (x, d') ∧ Match e' d'
  /-- Blocks are decrypted one after the other. -/
  blockwise : K.aead = none → ∀ x y d, K.blocksize ∣ x.length → K.blocksize ∣ y.length →
    K.decrypt (x ++ y) d = (K.decrypt x d).bind fun p =>
      (K.decrypt y p.2).map fun q => (p.1 ++ q.1, q.2)
  length : K.aead = none → ∀ x d p, K.decrypt x d = some p → p.1.length = x.length
  hmac : K.aead = none → ∀ x, K.macsize ≤ (K.hmac x).length
  /-- The same for an AEAD mode, whose `aead_getlength` agrees with it. -/
  aead : ∀ A, K.aead = some A → ∀ e d, Match e d → ∀ seq x, K.blocksize ≤ x.length →
    ∃ c e' d', A.crypt .encrypt seq x e = some (c, e') ∧ c.length = x.length + K.macsize ∧
      A.crypt .decrypt seq c d = some (x, d') ∧
      A.getlength seq (c.take K.blocksize) d = some (load32h x) ∧ Match e' d'

/-! ### The clear packet -/

/-- The packet around a payload. -/
def KeyContext.clearPacket (K : KeyContext σ) (payload : Bytes) (noise : ℕ → UInt8) : Bytes :=
  store32h (5 + payload.length + K.padlen (5 + payload.length) - 4) ++
    [UInt8.ofNat (K.padlen (5 + payload.length))] ++ payload ++
    (List.range (K.padlen (5 + payload.length))).map noise

namespace KeyContext

variable {K : KeyContext σ} {payload : Bytes}

/-- The padding makes whole blocks, of the packet or of all of it but the length. -/
theorem padlen_spec (len : ℕ) (hbs : K.blocksize = 8 ∨ K.blocksize = 16) (hlen : 6 ≤ len) :
    K.padlen len ≤ max minPacketLen K.blocksize + 3 ∧ 16 ≤ len + K.padlen len ∧
      (K.aead = none → (len + K.padlen len) % K.blocksize = 0) ∧
      (K.aead.isSome = true → (len + K.padlen len - 4) % K.blocksize = 0) := by
  unfold padlen
  simp only [minPacketLen]
  cases hA : K.aead with
  | none =>
    simp only [Option.isSome_none, Bool.false_eq_true, if_false]
    rcases hbs with hbs | hbs
    · rw [hbs]
      refine ⟨by split_ifs <;> omega, by split_ifs <;> omega, fun _ => ?_, nofun⟩
      split_ifs <;> omega
    · rw [hbs]
      refine ⟨by split_ifs <;> omega, by split_ifs <;> omega, fun _ => ?_, nofun⟩
      split_ifs <;> omega
  | some A =>
    simp only [Option.isSome_some, if_true]
    rcases hbs with hbs | hbs
    · rw [hbs]
      refine ⟨by split_ifs <;> omega, by split_ifs <;> omega, nofun, fun _ => ?_⟩
      split_ifs <;> omega
    · rw [hbs]
      refine ⟨by split_ifs <;> omega, by split_ifs <;> omega, nofun, fun _ => ?_⟩
      split_ifs <;> omega

theorem length_clearPacket (payload : Bytes) (noise : ℕ → UInt8) :
    (K.clearPacket payload noise).length =
    5 + payload.length + K.padlen (5 + payload.length) := by
  simp only [clearPacket, List.length_append, length_store32h, List.length_singleton,
    List.length_map, List.length_range]

/-- The size of the buffer in `encrypt_packet`. -/
def bufSize (K : KeyContext σ) (payload : Bytes) : ℕ :=
  payload.length + 4 + 1 + max minPacketLen K.blocksize + 3 + K.macsize + 1

/-- The first part of `encrypt_packet`. -/
theorem frame_has (hbs : K.blocksize = 8 ∨ K.blocksize = 16) (hmac : K.macsize < 2 ^ 8)
    (hpos : 1 ≤ payload.length) (hlen : payload.length ≤ transMaxPayloadLen)
    (noise : ℕ → UInt8) :
    ∃ b pos, K.frame payload noise = .ok b ∧
      b.Has (K.bufSize payload) (K.clearPacket payload noise) pos := by
  obtain ⟨hpad, -⟩ := K.padlen_spec (5 + payload.length) hbs (by omega)
  have hmax : K.bufSize payload ≤ bufMaxSize := by
    simp only [bufSize, minPacketLen, transMaxPayloadLen, bufMaxSize] at *
    omega
  have hsize : K.bufSize payload =
      payload.length + 5 + (max minPacketLen K.blocksize + 3) + K.macsize + 1 := by
    unfold bufSize
    omega
  obtain ⟨b₀, h₀, hb₀⟩ := Buffer.bufNew_has hmax
  obtain ⟨b₁, t, h₁, ht, hb₁⟩ := hb₀.setlen (n := packetPayloadOff) (Nat.zero_le _)
    (by simp only [packetPayloadOff]; omega)
  simp only [List.length_nil, Nat.sub_zero, List.nil_append] at ht hb₁
  obtain ⟨b₂, h₂, hb₂⟩ := hb₁.setpos (n := packetPayloadOff) (Nat.le_of_eq ht.symm)
  rw [← ht] at hb₂
  obtain ⟨b₃, h₃, hb₃⟩ := hb₂.putbytes (x := payload)
    (by rw [ht]; simp only [packetPayloadOff]; omega)
  have hlen₃ : b₃.len = 5 + payload.length := by
    rw [hb₃.len, List.length_append, ht]
    rfl
  obtain ⟨b₄, h₄, hb₄⟩ := hb₃.setpos (n := 0) (Nat.zero_le _)
  have hlen₄ : b₄.len = 5 + payload.length := hb₄.len.trans (hb₃.len.symm.trans hlen₃)
  -- the five bytes of the header
  obtain ⟨c, hc⟩ := List.length_eq_one_iff.1
    (show (t.drop 4).length = 1 by rw [List.length_drop, ht]; rfl)
  have htake : (t.take 4).length = 4 := by
    rw [List.length_take, ht]
    rfl
  have hsplit : t = t.take 4 ++ [c] := by rw [← hc, List.take_append_drop]
  generalize t.take 4 = hd at htake hsplit
  subst hsplit
  rw [List.append_assoc] at hb₄
  generalize hpadlen : K.padlen (5 + payload.length) = padlen at hpad
  obtain ⟨b₅, h₅, hb₅⟩ := Buffer.Has.putbytes_within (a := []) (m := hd) (z := [c] ++ payload)
    (x := store32h (5 + payload.length + padlen - 4)) hb₄ htake.symm
  obtain ⟨b₆, h₆, hb₆⟩ := Buffer.Has.putbyte_within (d := UInt8.ofNat padlen) (c := c)
    (a := store32h (5 + payload.length + padlen - 4)) (z := payload)
    (by simpa only [List.append_assoc, List.nil_append, List.length_nil, Nat.zero_add] using hb₅)
  have hlen₆ : b₆.len = 5 + payload.length := by
    rw [hb₆.len]
    simp only [List.length_append, length_store32h, List.length_singleton]
  obtain ⟨b₇, h₇, hb₇⟩ := hb₆.setpos (n := b₆.len) (Nat.le_of_eq hb₆.len)
  obtain ⟨b₈, t', h₈, ht', hb₈⟩ := hb₇.incrlen (n := padlen) (by rw [← hb₆.len]; omega)
  rw [hb₆.len] at hb₈
  have hnoise : ((List.range padlen).map noise).length = padlen := by
    rw [List.length_map, List.length_range]
  obtain ⟨b₉, h₉, hb₉⟩ := Buffer.Has.overwriteUsed (z := []) (m := t') (n := padlen)
    (x := (List.range padlen).map noise) (by rw [List.append_nil]; exact hb₈)
    (hnoise.trans ht'.symm) (Nat.le_of_eq hnoise) (by rw [ht']; exact Nat.le_add_right _ _)
  have hframe : K.frame payload noise = .ok b₉ := by
    unfold frame
    change (bufNew (K.bufSize payload) >>= _) = _
    rw [h₀, ok_bind, h₁, ok_bind, h₂, ok_bind, h₃, ok_bind, hlen₃, hpadlen, h₄, ok_bind, hlen₄,
      bufPutint, h₅, ok_bind, h₆, ok_bind, h₇, ok_bind, h₈, ok_bind, h₉]
  rw [List.append_nil] at hb₉
  rw [clearPacket, hpadlen]
  exact ⟨b₉, _, hframe, hb₉⟩

/-! ### Encryption and decryption in place -/

variable {Match : σ → σ → Prop} {b : Buffer} {size pos : ℕ} {u : Bytes} {e d : σ}

/-- The MAC of a packet, as far as it is sent. -/
def macOf (K : KeyContext σ) (seq : ℕ) (clear : Bytes) : Bytes :=
  (if 0 < K.macsize then K.hmac (store32h seq ++ clear) else []).take K.macsize

theorem Shared.length_macOf (hK : K.Shared Match) (hA : K.aead = none) (seq : ℕ) (clear : Bytes) :
    (K.macOf seq clear).length = K.macsize := by
  have hlen := hK.hmac hA (store32h seq ++ clear)
  unfold macOf
  rw [List.length_take]
  split_ifs
  · omega
  · rw [List.length_nil]
    omega

theorem makeMac_has {n : ℕ} (seq : ℕ) (h : b.Has size u pos) (hn : n ≤ u.length) :
    ∃ m b' pos', K.makeMac seq b n = .ok (m, b') ∧ b'.Has size u pos' ∧
      m.take K.macsize = K.macOf seq (u.take n) := by
  unfold makeMac macOf
  split_ifs with hmac
  · obtain ⟨b₁, h₁, hb₁⟩ := h.setpos (n := 0) (Nat.zero_le _)
    have hptr := hb₁.getptr (n := n) (by omega)
    rw [h₁, ok_bind, hptr, ok_bind]
    exact ⟨_, b₁, _, rfl, hb₁, rfl⟩
  · exact ⟨_, b, _, rfl, h, rfl⟩

/-- What the receiver relies on: from the first block of the packet it gets the length, and leaves
the block as it is in `sealed`; from all of `sealed` it gets the clear packet. -/
structure Framed (K : KeyContext σ) (seq : ℕ) (d : σ) (clear packet sealed : Bytes)
    (dm d' : σ) : Prop where
  length : packet.length = clear.length + K.macsize
  sealed_length : sealed.length = packet.length
  sealed_drop : sealed.drop K.blocksize = packet.drop K.blocksize
  getLength : ∀ b size, Buffer.Has b size (packet.take K.blocksize) 0 → ∃ plen b' pos,
    K.getLength seq d b = .ok (plen, packet.length, b', dm) ∧
      b'.Has size (sealed.take K.blocksize) pos ∧ K.blocksize ≤ plen ∧ plen % K.blocksize = 0
  decryptInPlace : ∀ b size pos, Buffer.Has b size sealed pos → ∃ b' tag pos',
    K.decryptInPlace seq dm b = .ok (b', d') ∧ b'.Has size (clear ++ tag) pos' ∧ tag.length = K.macsize

/-- The bounds of a clear packet. -/
structure Sized (K : KeyContext σ) (clear : Bytes) : Prop where
  min : 16 ≤ clear.length
  max : clear.length ≤ transMaxPayloadLen + 5 + 19
  length : load32h clear = clear.length - 4
  cipher : K.aead = none → clear.length % K.blocksize = 0
  aead : K.aead.isSome = true → (clear.length - 4) % K.blocksize = 0

theorem sized_clearPacket (hbs : K.blocksize = 8 ∨ K.blocksize = 16) (hpos : 1 ≤ payload.length)
    (hlen : payload.length ≤ transMaxPayloadLen) (noise : ℕ → UInt8) :
    K.Sized (K.clearPacket payload noise) := by
  have hclear := K.length_clearPacket payload noise
  obtain ⟨hpad, hmin, hcipher, haead⟩ := K.padlen_spec (5 + payload.length) hbs (by omega)
  have hsmall : K.padlen (5 + payload.length) ≤ 19 := by
    simp only [minPacketLen] at hpad
    omega
  refine ⟨by omega, by omega, ?_, by rwa [hclear], by rwa [hclear]⟩
  rw [hclear, clearPacket]
  simp only [List.append_assoc]
  rw [load32h_store32h]
  simp only [transMaxPayloadLen] at hlen
  omega

theorem Shared.framed_aead {A : AeadMode σ} {clear : Bytes} (hK : K.Shared Match)
    (hA : K.aead = some A) (hsized : K.Sized clear) (hm : Match e d) (seq : ℕ) :
    ∃ packet e' d', A.crypt .encrypt seq clear e = some (packet, e') ∧ Match e' d' ∧
      packet.length = clear.length + K.macsize ∧ K.Framed seq d clear packet packet d d' := by
  have hbs := hK.blocksize
  have hmac := hK.macsize
  obtain ⟨hmin, hmax, hlength, -, haead⟩ := hsized
  have hblocks := haead (by rw [hA]; rfl)
  simp only [maxMacLen, transMaxPayloadLen] at hmac hmax
  obtain ⟨c, e', d', henc, hlen, hdec, hget, hm'⟩ := hK.aead A hA e d hm seq clear (by omega)
  refine ⟨c, e', d', henc, hm', hlen, hlen, rfl, rfl, ?_, ?_⟩
  · intro b size hb
    have htake : (c.take K.blocksize).length = K.blocksize := by
      rw [List.length_take]
      omega
    have hptr := hb.getptr (n := K.blocksize) (by omega)
    rw [List.drop_zero, List.take_take, Nat.min_self] at hptr
    have hlen32 : u32 ((clear.length - 4 : ℕ) + 4 + K.macsize) = c.length :=
      u32_eq (by omega) (by omega)
    unfold getLength
    rw [hA]
    dsimp only
    rw [hptr, ok_bind, hget]
    dsimp only
    rw [hlength, hlen32]
    refine ⟨_, b, 0, rfl, hb, ?_, hblocks⟩
    rcases hbs with hbs | hbs
    · omega
    · rw [hbs] at hblocks ⊢
      omega
  · intro b size pos hb
    obtain ⟨b₁, h₁, hb₁⟩ := hb.setpos (n := 0) (Nat.zero_le _)
    have hlen₁ : u32 (b₁.len - K.macsize - b₁.pos) = clear.length := by
      rw [hb₁.len, hb₁.pos]
      exact u32_eq (by omega) (by omega)
    have hall : u32 (clear.length + K.macsize) = c.length := u32_eq (by omega) (by omega)
    have hptr := hb₁.getptr (n := c.length) (by omega)
    rw [List.drop_zero, List.take_length] at hptr
    have hwrite := hb₁.getwriteptr (n := clear.length) (by have := hb₁.len_le.1; omega)
    -- the clear packet is written over its own bytes, and the tag stays
    have hsplit : c = [] ++ c.take clear.length ++ c.drop clear.length := by
      rw [List.nil_append, List.take_append_drop]
    obtain ⟨b₂, h₂, hb₂⟩ := Buffer.Has.overwrite (a := []) (x := clear) (hsplit ▸ hb₁)
      (by rw [List.length_take]; omega)
    obtain ⟨b₃, h₃, hb₃⟩ := hb₂.incrpos (n := clear.length)
      (by simp only [List.length_append, List.length_nil]; omega)
    refine ⟨b₃, c.drop clear.length, _, ?_, hb₃, by rw [List.length_drop]; omega⟩
    unfold decryptInPlace
    rw [hA]
    dsimp only
    rw [h₁, ok_bind, hlen₁, hall, hptr, ok_bind, hwrite, ok_bind, hdec]
    dsimp only
    rw [h₂, ok_bind, h₃]
    rfl

/-- The first block and the others are decrypted in two calls. -/
theorem Shared.decrypt_split {c clear : Bytes} {d' : σ} (hK : K.Shared Match)
    (hA : K.aead = none) (hblocks : K.blocksize ∣ c.length) (hle : K.blocksize ≤ c.length)
    (hdec : K.decrypt c d = some (clear, d')) :
    ∃ dm, K.decrypt (c.take K.blocksize) d = some (clear.take K.blocksize, dm) ∧
      K.decrypt (c.drop K.blocksize) dm = some (clear.drop K.blocksize, d') := by
  have htake : (c.take K.blocksize).length = K.blocksize := by
    rw [List.length_take, Nat.min_eq_left hle]
  have hdrop : K.blocksize ∣ (c.drop K.blocksize).length := by
    rw [List.length_drop]
    exact Nat.dvd_sub hblocks (Nat.dvd_refl _)
  have hboth := hK.blockwise hA (c.take K.blocksize) (c.drop K.blocksize) d
    (htake.symm ▸ Nat.dvd_refl _) hdrop
  rw [List.take_append_drop, hdec] at hboth
  obtain ⟨p, hp, hboth⟩ := Option.bind_eq_some_iff.1 hboth.symm
  obtain ⟨q, hq, heq⟩ := Option.map_eq_some_iff.1 hboth
  have hlen : p.1.length = K.blocksize := (hK.length hA _ _ p hp).trans htake
  obtain ⟨rfl, rfl⟩ := Prod.mk.inj heq
  refine ⟨p.2, ?_, ?_⟩
  · rw [hp, ← hlen, List.take_left]
  · rw [hq, ← hlen, List.drop_left]

theorem Shared.framed_cipher {clear : Bytes} (hK : K.Shared Match) (hA : K.aead = none)
    (hsized : K.Sized clear) (hm : Match e d) (seq : ℕ) :
    ∃ c e' dm d', K.encrypt clear e = some (c, e') ∧ Match e' d' ∧ c.length = clear.length ∧
      K.Framed seq d clear (c ++ K.macOf seq clear)
        (clear.take K.blocksize ++ (c ++ K.macOf seq clear).drop K.blocksize) dm d' := by
  have hbs := hK.blocksize
  have hmac := hK.macsize
  have hmacOf := hK.length_macOf hA seq clear
  obtain ⟨hmin, hmax, hlength, hcipher, -⟩ := hsized
  have hblocks := hcipher hA
  simp only [maxMacLen, transMaxPayloadLen] at hmac hmax
  obtain ⟨c, e', d', henc, hlen, hdec, hm'⟩ :=
    hK.cipher hA e d hm clear (Nat.dvd_of_mod_eq_zero hblocks)
  have hle : K.blocksize ≤ c.length := by omega
  obtain ⟨dm, hfirst, hrest⟩ :=
    hK.decrypt_split hA (hlen.symm ▸ Nat.dvd_of_mod_eq_zero hblocks) hle hdec
  have htake : (clear.take K.blocksize).length = K.blocksize := by
    rw [List.length_take]
    omega
  have hdrop : (c ++ K.macOf seq clear).drop K.blocksize = c.drop K.blocksize ++ K.macOf seq clear :=
    List.drop_append_of_le_length hle
  generalize hmacs : K.macOf seq clear = mac at *
  refine ⟨c, e', dm, d', henc, hm', hlen, ?_, ?_, ?_, ?_, ?_⟩
  · rw [List.length_append, hlen, hmacOf]
  · simp only [List.length_append, List.length_drop, htake]
    omega
  · rw [List.drop_left' htake]
  · intro b size hb
    rw [List.take_append_of_le_length hle] at hb
    have htake' : (c.take K.blocksize).length = K.blocksize := by
      rw [List.length_take]
      omega
    have hptr := hb.getptr (n := K.blocksize) (by omega)
    rw [List.drop_zero, List.take_take, Nat.min_self] at hptr
    have hwrite := hb.getwriteptr (n := K.blocksize) (by have := hb.len_le.1; omega)
    have hsplit : c.take K.blocksize = [] ++ c.take K.blocksize ++ [] := by
      rw [List.nil_append, List.append_nil]
    obtain ⟨b₁, h₁, hb₁⟩ := Buffer.Has.overwrite (a := []) (x := clear.take K.blocksize)
      (hsplit ▸ hb) (htake.trans htake'.symm)
    rw [List.nil_append, List.append_nil] at hb₁
    rw [htake] at h₁
    have hptr₁ := hb₁.getptr (n := 4) (by rw [htake, List.length_nil]; omega)
    obtain ⟨b₂, h₂, hb₂⟩ := hb₁.incrpos (n := 4) (by rw [htake, List.length_nil]; omega)
    have hint : bufGetint b₁ = .ok (clear.length - 4, b₂) := by
      unfold bufGetint
      rw [hptr₁, ok_bind, h₂, ok_bind, List.length_nil, List.drop_zero, load32h_take _ (by omega),
        load32h_take _ (by omega), hlength]
      rfl
    have hplen : u32 ((clear.length - 4 : ℕ) + 4) = clear.length := u32_eq (by omega) (by omega)
    have hall : u32 (clear.length + K.macsize) = (c ++ mac).length :=
      u32_eq (by rw [List.length_append]; omega) (by rw [List.length_append]; omega)
    have hget : K.getLength seq d b = .ok (clear.length, (c ++ mac).length, b₂, dm) := by
      unfold getLength
      rw [hA]
      dsimp only
      rw [hptr, ok_bind, hwrite, ok_bind, hfirst]
      dsimp only
      rw [h₁, ok_bind, hint, ok_bind]
      dsimp only
      rw [hplen, hall]
      rfl
    rw [List.take_left' htake]
    exact ⟨clear.length, b₂, _, hget, hb₂, by omega, hblocks⟩
  · intro b size pos hb
    rw [hdrop, ← List.append_assoc] at hb
    have hcdrop : (c.drop K.blocksize).length = clear.length - K.blocksize := by
      rw [List.length_drop, hlen]
    have htotal : (clear.take K.blocksize ++ c.drop K.blocksize ++ mac).length =
        clear.length + K.macsize := by
      simp only [List.length_append, htake, hcdrop, hmacOf]
      omega
    obtain ⟨b₁, h₁, hb₁⟩ := hb.setpos (n := K.blocksize) (by omega)
    have hlen₁ : u32 (b₁.len - K.macsize - b₁.pos) = clear.length - K.blocksize := by
      rw [hb₁.len, hb₁.pos, htotal]
      exact u32_eq (by omega) (by omega)
    have hptr := hb₁.getptr (n := clear.length - K.blocksize) (by omega)
    rw [List.append_assoc, List.drop_left' htake, ← hcdrop, List.take_left] at hptr
    have hwrite := hb₁.getwriteptr (n := clear.length - K.blocksize)
      (by have := hb₁.len_le.1; omega)
    have hcleardrop : (clear.drop K.blocksize).length = clear.length - K.blocksize :=
      List.length_drop
    have hat : b₁.Has size (clear.take K.blocksize ++ c.drop K.blocksize ++ mac)
        (clear.take K.blocksize).length := by
      rw [htake]
      exact hb₁
    obtain ⟨b₂, h₂, hb₂⟩ := hat.overwrite (x := clear.drop K.blocksize)
      (hcleardrop.trans hcdrop.symm)
    rw [htake, List.take_append_drop] at hb₂
    rw [hcleardrop] at h₂
    obtain ⟨b₃, h₃, hb₃⟩ := hb₂.incrpos (n := clear.length - K.blocksize)
      (by rw [List.length_append]; omega)
    -- `checkmac`
    have hcontents : u32 (b₃.len - K.macsize) = clear.length := by
      rw [hb₃.len, List.length_append, hmacOf]
      exact u32_eq (by omega) (by omega)
    obtain ⟨b₄, h₄, hb₄⟩ := hb₃.setpos (n := 0) (Nat.zero_le _)
    obtain ⟨m, b₅, _, h₅, hb₅, hm₅⟩ := makeMac_has (K := K) (n := clear.length) seq hb₄
      (by rw [List.length_append]; omega)
    rw [List.take_left, hmacs] at hm₅
    obtain ⟨b₆, h₆, hb₆⟩ := hb₅.setpos (n := clear.length) (by rw [List.length_append]; omega)
    have htheirs := hb₆.getptr (n := K.macsize) (by rw [List.length_append]; omega)
    rw [List.drop_left, ← hmacOf, List.take_length] at htheirs
    have hcheck : checkmac K seq b₃ = .ok (true, b₆) := by
      unfold checkmac
      rw [hcontents, h₄, ok_bind, h₅, ok_bind]
      dsimp only
      rw [h₆, ok_bind, ← hmacOf, htheirs, ok_bind, hmacOf, hm₅, decide_eq_true rfl]
      rfl
    refine ⟨b₆, mac, _, ?_, hb₆, hmacOf⟩
    unfold decryptInPlace
    rw [hA]
    dsimp only
    rw [h₁, ok_bind, hlen₁, ← hcdrop, hptr, ok_bind, hcdrop, hwrite, ok_bind, hrest]
    dsimp only
    rw [h₂, ok_bind, h₃, ok_bind, hcheck, ok_bind]
    rfl

/-- The second part of `encrypt_packet`. -/
theorem Shared.encryptInPlace_framed {clear : Bytes} (hK : K.Shared Match)
    (hsized : K.Sized clear) (hm : Match e d) (hb : b.Has size clear pos)
    (hsize : clear.length + K.macsize ≤ size) (seq : ℕ) :
    ∃ b' packet sealed e' dm d' pos', K.encryptInPlace seq e b = .ok (b', e') ∧
      b'.Has size packet pos' ∧ Match e' d' ∧ K.Framed seq d clear packet sealed dm d' := by
  unfold encryptInPlace
  cases hA : K.aead with
  | some A =>
    obtain ⟨packet, e', d', henc, hm', hlen, hF⟩ := hK.framed_aead hA hsized hm seq
    obtain ⟨b₁, h₁, hb₁⟩ := hb.setpos (n := 0) (Nat.zero_le _)
    obtain ⟨b₂, t, h₂, ht, hb₂⟩ := hb₁.incrlen (n := K.macsize) hsize
    have htotal : (clear ++ t).length = packet.length := by
      rw [List.length_append, ht, hlen]
    have hptr := hb₂.getptr (n := clear.length) (by omega)
    rw [List.drop_zero, List.take_left] at hptr
    have hwrite := hb₂.getwriteptr (n := clear.length + K.macsize) (by omega)
    obtain ⟨b₃, h₃, hb₃⟩ := Buffer.Has.overwrite (a := []) (m := clear ++ t) (z := [])
      (x := packet) (by simpa using hb₂) htotal.symm
    rw [List.nil_append, List.append_nil] at hb₃
    obtain ⟨b₄, h₄, hb₄⟩ := hb₃.incrpos (n := packet.length)
      (by rw [List.length_nil]; omega)
    rw [hlen] at h₃ h₄
    dsimp only
    rw [h₁, ok_bind, h₂, ok_bind, hb₁.len, hptr, ok_bind, hwrite, ok_bind, henc]
    dsimp only
    rw [h₃, ok_bind, h₄, ok_bind]
    exact ⟨b₄, packet, packet, e', d, d', _, rfl, hb₄, hm', hF⟩
  | none =>
    obtain ⟨c, e', dm, d', henc, hm', hlen, hF⟩ := hK.framed_cipher hA hsized hm seq
    have hmacOf := hK.length_macOf hA seq clear
    obtain ⟨m, b₁, _, h₁, hb₁, hm₁⟩ := makeMac_has (K := K) (n := clear.length) seq hb
      (Nat.le_refl _)
    rw [List.take_length] at hm₁
    obtain ⟨b₂, h₂, hb₂⟩ := hb₁.setpos (n := 0) (Nat.zero_le _)
    have hptr := hb₂.getptr (n := clear.length) (by omega)
    rw [List.drop_zero, List.take_length] at hptr
    have hwrite := hb₂.getwriteptr (n := clear.length) (by omega)
    obtain ⟨b₃, h₃, hb₃⟩ := Buffer.Has.overwrite (a := []) (m := clear) (z := []) (x := c)
      (by simpa using hb₂) hlen
    rw [List.nil_append, List.append_nil] at hb₃
    obtain ⟨b₄, h₄, hb₄⟩ := hb₃.incrpos (n := c.length) (by rw [List.length_nil]; omega)
    rw [List.length_nil, Nat.zero_add] at hb₄
    obtain ⟨b₅, h₅, hb₅⟩ := hb₄.putbytes (x := K.macOf seq clear) (by omega)
    rw [hlen] at h₃ h₄
    dsimp only
    rw [hb.len, h₁, ok_bind]
    dsimp only
    rw [h₂, ok_bind, hb₂.len, hptr, ok_bind, hwrite, ok_bind, henc]
    dsimp only
    rw [h₃, ok_bind, h₄, ok_bind, hm₁, h₅, ok_bind]
    exact ⟨b₅, _, _, e', dm, d', _, rfl, hb₅, hm', hF⟩

end KeyContext

/-- A packet for a payload, for a receiver with the sequence number `seq` and the cipher `d`. -/
structure Carries (K : KeyContext σ) (seq : ℕ) (d : σ) (payload packet sealed : Bytes)
    (dm d' : σ) : Prop where
  min : 1 ≤ payload.length
  max : payload.length ≤ transMaxPayloadLen
  framed : ∃ noise, K.Framed seq d (K.clearPacket payload noise) packet sealed dm d'

/-- A payload that is not held back until the end of a key exchange. -/
def PacketWriter.sends (s : PacketWriter σ) (payload : Bytes) : Bool :=
  s.dataallowed || packetIsOkayKex (packetType payload)

variable {K : KeyContext σ} {Match : σ → σ → Prop} {s : PacketWriter σ} {payload : Bytes} {d : σ}

/-- `encrypt_packet`. -/
theorem encryptPacket_carries (hK : K.Shared Match) (hm : Match s.cipher d)
    (hmin : 1 ≤ payload.length) (hmax : payload.length ≤ transMaxPayloadLen)
    (hsends : s.sends payload = true) (noise : ℕ → UInt8) :
    ∃ b s' packet sealed dm d', encryptPacket K s payload noise = .ok (some b, s') ∧
      b.rest = packet ∧ Carries K s.transseq d payload packet sealed dm d' ∧
      s'.transseq = (s.transseq + 1) % 2 ^ 32 ∧ Match s'.cipher d' ∧
      s'.dataallowed = s.dataallowed ∧ s'.replyQueue = s.replyQueue := by
  have hne : payload ≠ [] := by
    rintro rfl
    exact absurd hmin (by decide)
  have hallowed : ¬ ((!s.dataallowed && !packetIsOkayKex (packetType payload)) = true) := by
    unfold PacketWriter.sends at hsends
    rw [← Bool.not_or, hsends]
    exact Bool.false_ne_true
  obtain ⟨b₁, _, h₁, hb₁⟩ :=
    K.frame_has hK.blocksize (hK.macsize.trans_lt (by decide)) hmin hmax noise
  have hsized := K.sized_clearPacket hK.blocksize hmin hmax noise
  have hfits : (K.clearPacket payload noise).length + K.macsize ≤ K.bufSize payload := by
    have hpad := (K.padlen_spec (5 + payload.length) hK.blocksize (by omega)).1
    rw [K.length_clearPacket]
    unfold KeyContext.bufSize
    omega
  obtain ⟨b₂, packet, sealed, e', dm, d', _, h₂, hb₂, hm', hF⟩ :=
    hK.encryptInPlace_framed hsized hm hb₁ hfits s.transseq
  obtain ⟨b₃, h₃, hb₃⟩ := hb₂.setpos (n := 0) (Nat.zero_le _)
  unfold encryptPacket
  rw [if_neg hne, if_neg hallowed, h₁, ok_bind, h₂, ok_bind]
  dsimp only
  rw [h₃, ok_bind]
  exact ⟨b₃, _, packet, sealed, dm, d', rfl, by rw [hb₃.rest, List.drop_zero],
    ⟨hmin, hmax, noise, hF⟩, rfl, hm', rfl, rfl⟩

end Ps4Dropbear
