import Ps4Dropbear.Session.Framing

/-!
# The padding of a packet

`encrypt_packet` keeps the length of the padding in an `unsigned char`, corrects it twice, and has
computed the size of the buffer before.

* `KeyContext.padlenByte`, `KeyContext.encryptBufSize` : the two computations, in the widths of the
  source; `padlenByte_eq`, `encryptBufSize_eq` : nothing is lost in them.
* `KeyContext.encryptInPlace_size` : what encryption does to the size of a packet.
* `encryptPacket_padding` : **the padding is long enough, makes whole blocks and fits**.
-/

namespace Ps4Dropbear

/-- An `unsigned char`. -/
def u8 (n : Int) : ℕ := (n % 2 ^ 8).toNat

theorem u8_eq {n : Int} {m : ℕ} (h : n = m) (hm : m < 2 ^ 8) : u8 n = m := by
  subst h
  unfold u8
  omega

namespace KeyContext

variable {σ : Type} {K : KeyContext σ}

/-- `padlen`, with `writebuf->len` before the padding. -/
def padlenByte (K : KeyContext σ) (writebufLen : ℕ) : ℕ :=
  let len := if K.aead.isSome then u32 (writebufLen - 4) else writebufLen
  let padlen := u8 (u32 (K.blocksize - (len % K.blocksize : ℕ)))
  let padlen := if padlen < 4 then u8 (padlen + K.blocksize) else padlen
  if u32 (writebufLen + padlen) < minPacketLen then u8 (padlen + K.blocksize) else padlen

/-- `encrypt_buf_size`. -/
def encryptBufSize (K : KeyContext σ) (payloadLen : ℕ) : ℕ :=
  u32 (payloadLen + 4 + 1 + max minPacketLen K.blocksize + 3 + K.macsize + 1)

/-- No step of the computation leaves eight bits. -/
theorem padlenByte_eq {len : ℕ} (hbs : K.blocksize = 8 ∨ K.blocksize = 16) (hmin : 4 ≤ len)
    (hmax : len < 2 ^ 31) : K.padlenByte len = K.padlen len := by
  have haead : u32 (len - 4) = len - 4 := u32_eq (by omega) (by omega)
  have hrest : (if K.aead.isSome then u32 (len - 4) else len) =
      if K.aead.isSome then len - 4 else len := by rw [haead]
  unfold padlenByte padlen
  dsimp only
  rw [hrest]
  generalize (if K.aead.isSome = true then len - 4 else len) = rest
  have hmod : rest % K.blocksize < K.blocksize := Nat.mod_lt _ (by omega)
  have hfirst : u8 (u32 (K.blocksize - (rest % K.blocksize : ℕ))) =
      K.blocksize - rest % K.blocksize := by
    rw [u32_eq (m := K.blocksize - rest % K.blocksize) (by omega) (by omega)]
    exact u8_eq rfl (by omega)
  rw [hfirst]
  have hsecond : (if K.blocksize - rest % K.blocksize < 4 then
      u8 ((K.blocksize - rest % K.blocksize : ℕ) + K.blocksize)
      else K.blocksize - rest % K.blocksize) =
      if K.blocksize - rest % K.blocksize < 4 then K.blocksize - rest % K.blocksize + K.blocksize
      else K.blocksize - rest % K.blocksize := by
    split_ifs
    · exact u8_eq (by omega) (by omega)
    · rfl
  rw [hsecond]
  have hsmall : (if K.blocksize - rest % K.blocksize < 4 then
      K.blocksize - rest % K.blocksize + K.blocksize else K.blocksize - rest % K.blocksize) < 20 := by
    split_ifs <;> omega
  generalize (if K.blocksize - rest % K.blocksize < 4 then
    K.blocksize - rest % K.blocksize + K.blocksize else K.blocksize - rest % K.blocksize) =
    pad at hsmall ⊢
  rw [u32_eq (m := len + pad) (by omega) (by omega)]
  split_ifs
  · exact u8_eq (by omega) (by omega)
  · rfl

theorem encryptBufSize_eq {payload : Bytes} (hbs : K.blocksize = 8 ∨ K.blocksize = 16)
    (hmac : K.macsize < 2 ^ 8) (hlen : payload.length ≤ transMaxPayloadLen) :
    K.encryptBufSize payload.length = K.bufSize payload := by
  simp only [transMaxPayloadLen] at hlen
  refine u32_eq ?_ ?_ <;> simp only [bufSize, minPacketLen] <;> omega

/-- The padding is never shorter than four bytes. -/
theorem four_le_padlen (hbs : K.blocksize = 8 ∨ K.blocksize = 16) (len : ℕ) :
    4 ≤ K.padlen len := by
  unfold padlen
  dsimp only
  have hmod : (if K.aead.isSome = true then len - 4 else len) % K.blocksize < K.blocksize :=
    Nat.mod_lt _ (by omega)
  split_ifs <;> omega

/-- Encryption may fail; it does not run out of room, and adds at most the MAC. -/
theorem encryptInPlace_size {b : Buffer} {size pos : ℕ} {clear : Bytes}
    (hb : b.Has size clear pos) (hsize : clear.length + K.macsize ≤ size) (seq : ℕ) (e : σ) :
    K.encryptInPlace seq e b = dropbearExit "Error encrypting" ∨
      ∃ b' e' packet pos', K.encryptInPlace seq e b = .ok (b', e') ∧ b'.Has size packet pos' ∧
        packet.length ≤ clear.length + K.macsize := by
  unfold encryptInPlace
  cases hA : K.aead with
  | some A =>
    obtain ⟨b₁, h₁, hb₁⟩ := hb.setpos (n := 0) (Nat.zero_le _)
    obtain ⟨b₂, t, h₂, ht, hb₂⟩ := hb₁.incrlen (n := K.macsize) hsize
    have htotal : (clear ++ t).length = clear.length + K.macsize := by
      rw [List.length_append, ht]
    have hptr := hb₂.getptr (n := clear.length) (by omega)
    have hwrite := hb₂.getwriteptr (n := clear.length + K.macsize) (by omega)
    dsimp only
    rw [h₁, ok_bind, h₂, ok_bind, hb₁.len, hptr, ok_bind, hwrite, ok_bind]
    cases A.crypt .encrypt seq (((clear ++ t).drop 0).take clear.length) e with
    | none => exact .inl rfl
    | some p =>
      obtain ⟨sealed, e'⟩ := p
      have hsealed := List.length_take_le (clear.length + K.macsize) sealed
      obtain ⟨b₃, h₃, hb₃⟩ :=
        hb₂.overwrite_take (n := clear.length + K.macsize) (by omega) sealed
      have hu : (overwrite (clear ++ t) 0 (sealed.take (clear.length + K.macsize))).length =
          (clear ++ t).length := length_overwrite (by omega)
      obtain ⟨b₄, h₄, hb₄⟩ := hb₃.incrpos (n := clear.length + K.macsize) (by omega)
      dsimp only
      rw [h₃, ok_bind, h₄, ok_bind]
      exact .inr ⟨b₄, e', _, _, rfl, hb₄, by omega⟩
  | none =>
    obtain ⟨m, b₁, _, h₁, hb₁, -⟩ := makeMac_has (K := K) (n := clear.length) seq hb (Nat.le_refl _)
    obtain ⟨b₂, h₂, hb₂⟩ := hb₁.setpos (n := 0) (Nat.zero_le _)
    have hptr := hb₂.getptr (n := clear.length) (by omega)
    have hwrite := hb₂.getwriteptr (n := clear.length) (by omega)
    dsimp only
    rw [hb.len, h₁, ok_bind]
    dsimp only
    rw [h₂, ok_bind, hb₂.len, hptr, ok_bind, hwrite, ok_bind]
    cases K.encrypt ((clear.drop 0).take clear.length) e with
    | none => exact .inl rfl
    | some p =>
      obtain ⟨sealed, e'⟩ := p
      have hsealed := List.length_take_le clear.length sealed
      obtain ⟨b₃, h₃, hb₃⟩ := hb₂.overwrite_take (n := clear.length) (by omega) sealed
      have hu : (overwrite clear 0 (sealed.take clear.length)).length = clear.length :=
        length_overwrite (by omega)
      generalize overwrite clear 0 (sealed.take clear.length) = u at hu hb₃
      obtain ⟨b₄, h₄, hb₄⟩ := hb₃.incrpos (n := clear.length) (by omega)
      rw [Nat.zero_add, ← hu] at hb₄
      have hmac := List.length_take_le K.macsize m
      obtain ⟨b₅, h₅, hb₅⟩ := hb₄.putbytes (x := m.take K.macsize) (by omega)
      dsimp only
      rw [h₃, ok_bind, h₄, ok_bind, h₅, ok_bind]
      exact .inr ⟨b₅, e', _, _, rfl, hb₅, by rw [List.length_append]; omega⟩

end KeyContext

/-- What is asked of the padding in a packet `clear` that has no MAC yet: `padlen` bytes of it. -/
structure Padded {σ : Type} (K : KeyContext σ) (payload clear : Bytes) (padlen : ℕ) : Prop where
  four_le : 4 ≤ padlen
  le_byte : padlen ≤ 255
  length : clear.length = 5 + payload.length + padlen
  /-- The padding length is in the packet, behind the length of the packet. -/
  padding : clear[4]? = some (UInt8.ofNat padlen)
  /-- The length field counts what follows it. -/
  field : load32h clear + 4 = clear.length
  /-- With the length field, when it is encrypted with the rest. -/
  blocks_mac : K.aead = none → K.blocksize ∣ clear.length
  /-- Without the length field in an AEAD mode. -/
  blocks_aead : K.aead.isSome = true → K.blocksize ∣ clear.length - 4
  sixteen_le : 16 ≤ clear.length
  fits : clear.length + K.macsize ≤ K.encryptBufSize payload.length

variable {σ : Type} {K : KeyContext σ} {payload : Bytes}

/-- **The padding of `encrypt_packet`**, for every payload that is not too long, either block size,
every MAC size and both kinds of modes; the packet and its MAC fit in the buffer, so that encryption
is the only thing that can go wrong. -/
theorem encryptPacket_padding (hbs : K.blocksize = 8 ∨ K.blocksize = 16)
    (hmac : K.macsize < 2 ^ 8) (hmin : 1 ≤ payload.length)
    (hmax : payload.length ≤ transMaxPayloadLen) (noise : ℕ → UInt8) :
    (∃ b, K.frame payload noise = .ok b ∧ b.data.length = K.encryptBufSize payload.length ∧
      Padded K payload b.contents (K.padlenByte (5 + payload.length))) ∧
    ∀ s : PacketWriter σ, s.sends payload = true →
      encryptPacket K s payload noise = dropbearExit "Error encrypting" ∨
      ∃ b s', encryptPacket K s payload noise = .ok (some b, s') ∧
        b.data.length = K.encryptBufSize payload.length ∧
        b.len ≤ 5 + payload.length + K.padlenByte (5 + payload.length) + K.macsize := by
  have hsmall : payload.length ≤ 16384 := hmax
  have hpad : K.padlenByte (5 + payload.length) = K.padlen (5 + payload.length) :=
    K.padlenByte_eq hbs (by omega) (by omega)
  have hsize := K.encryptBufSize_eq hbs hmac hmax
  have hsized := K.sized_clearPacket hbs hmin hmax noise
  have hclear := K.length_clearPacket payload noise
  obtain ⟨hle, -⟩ := K.padlen_spec (5 + payload.length) hbs (by omega)
  have hfits : (K.clearPacket payload noise).length + K.macsize ≤ K.bufSize payload := by
    rw [hclear]
    unfold KeyContext.bufSize
    omega
  obtain ⟨b, pos, hframe, hb⟩ := K.frame_has hbs hmac hmin hmax noise
  rw [hpad, hsize]
  constructor
  · refine ⟨b, hframe, hb.size, ?_⟩
    rw [hb.used]
    simp only [minPacketLen] at hle
    have hpadding : (K.clearPacket payload noise)[4]? =
        some (UInt8.ofNat (K.padlen (5 + payload.length))) := by
      unfold KeyContext.clearPacket
      simp [store32h]
    exact
      { four_le := K.four_le_padlen hbs _
        le_byte := by omega
        length := hclear
        padding := hpadding
        field := by rw [hsized.length]; have := hsized.min; omega
        blocks_mac := fun hA => Nat.dvd_of_mod_eq_zero (hsized.cipher hA)
        blocks_aead := fun hA => Nat.dvd_of_mod_eq_zero (hsized.aead hA)
        sixteen_le := hsized.min
        fits := hsize.symm ▸ hfits }
  · intro s hsends
    have hne : payload ≠ [] := by
      rintro rfl
      exact absurd hmin (by decide)
    have hallowed : ¬ ((!s.dataallowed && !packetIsOkayKex (packetType payload)) = true) := by
      unfold PacketWriter.sends at hsends
      rw [← Bool.not_or, hsends]
      exact Bool.false_ne_true
    unfold encryptPacket
    rw [if_neg hne, if_neg hallowed, hframe, ok_bind]
    rcases K.encryptInPlace_size hb hfits s.transseq s.cipher with
      hfail | ⟨b', e', packet, _, hok, hb', hlen⟩
    · left
      rw [hfail]
      rfl
    · right
      obtain ⟨b'', h'', hb''⟩ := hb'.setpos (n := 0) (Nat.zero_le _)
      rw [hok, ok_bind]
      dsimp only
      rw [h'', ok_bind]
      refine ⟨b'', _, rfl, hb''.size, ?_⟩
      rw [hb''.len]
      omega

theorem encryptPacket_padding_one :
    ∃ b, noneKeys.frame [21] (fun _ => 0) = .ok b ∧ Padded noneKeys [21] b.contents 10 := by
  have hmin : 1 ≤ ([21] : Bytes).length := by decide
  obtain ⟨⟨b, hframe, -, hpadded⟩, -⟩ := encryptPacket_padding (K := noneKeys) (.inl rfl)
    (by decide) hmin (by decide) fun _ => 0
  exact ⟨b, hframe, hpadded⟩

end Ps4Dropbear
