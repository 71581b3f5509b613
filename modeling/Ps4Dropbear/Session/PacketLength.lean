import Ps4Dropbear.Session.Packet

/-!
# The length of a packet

`read_packet_init` adds to the length that the peer announces in the first block, and tests the
sums.  The additions are those of 32 bits, so an announced length close to `2^32` is refused by its
blocks or passes as a short packet.

* `KeyContext.announced` : the length in the first block.
* `KeyContext.Wraps` : some lengths close to `2 ^ 32`, `KeyContext.wraps_iff` : those whose sums wrap
  and pass the tests.
* `startPacket_ok`, `readInits_ok` : when `read_packet_init` succeeds.
* `readPacketInit_length_iff` : **the length is right but for these**.
-/

namespace Ps4Dropbear

variable {σ : Type}

namespace KeyContext

/-- The packet length in the first block; in a cipher mode the block is decrypted in place. -/
def announced (K : KeyContext σ) (recvseq : ℕ) (cipher : σ) (block : Bytes) : Option ℕ :=
  match K.aead with
  | some A => A.getlength recvseq block cipher
  | none => (K.decrypt block cipher).map fun p =>
      load32h (overwrite block 0 (p.1.take K.blocksize))

/-- `plen` in `read_packet_init`: the bytes that have to be whole blocks. -/
def plenOf (K : KeyContext σ) (n : ℕ) : ℕ := if K.aead.isSome then n else u32 (n + 4)

/-- `len` in `read_packet_init`. -/
def lenOf (K : KeyContext σ) (n : ℕ) : ℕ :=
  if K.aead.isSome then u32 (n + 4 + K.macsize) else u32 (K.plenOf n + K.macsize)

/-- The tests of `read_packet_init`. -/
def Passes (K : KeyContext σ) (n : ℕ) : Prop :=
  K.lenOf n ≤ recvMaxPacketLen ∧ K.blocksize ≤ K.plenOf n ∧ K.plenOf n % K.blocksize = 0

/-- The packet with its length field and the MAC is longer than `2 ^ 32` by a block or more, and the
bytes to be decrypted are whole blocks; in a cipher mode the length field is among them, and does
not wrap by itself. -/
def Wraps (K : KeyContext σ) (n : ℕ) : Prop :=
  2 ^ 32 + K.blocksize ≤ n + 4 + K.macsize ∧
    if K.aead.isSome then K.blocksize ∣ n else n + 4 < 2 ^ 32 ∧ K.blocksize ∣ n + 4

instance (K : KeyContext σ) (n : ℕ) : Decidable (K.Wraps n) :=
  inferInstanceAs (Decidable (_ ∧ ite _ _ _))

/-- A first block that can be read and has a length in it. -/
def Readable (K : KeyContext σ) : Prop :=
  0 < K.blocksize ∧ K.blocksize ≤ initReadbuf ∧ (K.aead = none → 4 ≤ K.blocksize)

/-- What the receiver goes by: the announced length with the length field and the MAC is the length
of the buffer and not too long, the encrypted part is in whole blocks, and `decrypt_packet` does
not subtract too much. -/
structure TrueLength (K : KeyContext σ) (n : ℕ) (readbuf : Buffer) : Prop where
  max : n + 4 + K.macsize ≤ recvMaxPacketLen
  len : readbuf.len = n + 4 + K.macsize
  blocks_mac : K.aead = none → K.blocksize ∣ n + 4
  blocks_aead : K.aead.isSome = true → K.blocksize ∣ n
  /-- The position is behind the first block when that has been decrypted already. -/
  rest : K.macsize + (if K.aead.isSome then 0 else K.blocksize) ≤ readbuf.len

end KeyContext

/-- The calls of `read_packet_init` for one packet, up to the one that succeeds. -/
def readInits (K : KeyContext σ) :
    PacketReader σ → List SockAnswer → Except Exit (Option Buffer × PacketReader σ)
  | s, [] => .ok (none, s)
  | s, answer :: answers => do
    let (started, s) ← readPacketInit K s answer
    match started with
    | some readbuf => return (some readbuf, s)
    | none => readInits K s answers

namespace KeyContext

variable {K : KeyContext σ} {n : ℕ}

theorem lenOf_eq (K : KeyContext σ) (n : ℕ) : K.lenOf n = (n + 4 + K.macsize) % 2 ^ 32 := by
  unfold lenOf plenOf u32
  split_ifs <;> omega

/-- Without a wrap the tests are about the true length. -/
theorem Passes.trueLength {readbuf : Buffer} (h : K.Passes n) (hlen : readbuf.len = K.lenOf n)
    (hwrap : n + 4 + K.macsize < 2 ^ 32) : K.TrueLength n readbuf := by
  obtain ⟨hmax, hmin, hblocks⟩ := h
  have hsum := K.lenOf_eq n
  rw [Nat.mod_eq_of_lt hwrap] at hsum
  have hplen : K.aead = none → K.plenOf n = n + 4 := fun hA => by
    unfold plenOf
    rw [hA, Option.isSome_none, if_neg Bool.false_ne_true]
    exact u32_eq rfl (by omega)
  have hplen' : K.aead.isSome = true → K.plenOf n = n := fun hA => if_pos hA
  refine ⟨hsum ▸ hmax, hlen.trans hsum, fun hA => ?_, fun hA => ?_, ?_⟩
  · rw [← hplen hA]
    exact Nat.dvd_of_mod_eq_zero hblocks
  · rw [← hplen' hA]
    exact Nat.dvd_of_mod_eq_zero hblocks
  · rw [hlen, hsum]
    cases hA : K.aead with
    | some A =>
      rw [Option.isSome_some, if_pos rfl]
      omega
    | none =>
      have heq := hplen hA
      rw [Option.isSome_none, if_neg Bool.false_ne_true]
      omega

/-- The length in a block is one of 32 bits. -/
theorem announced_lt {seq : ℕ} {cipher : σ} {block : Bytes}
    (h : K.announced seq cipher block = some n) : n < 2 ^ 32 := by
  unfold announced at h
  cases hA : K.aead with
  | some A =>
    rw [hA] at h
    exact A.getlength_lt h
  | none =>
    rw [hA] at h
    obtain ⟨p, -, rfl⟩ := Option.map_eq_some_iff.1 h
    exact load32h_lt _

/-- These are the lengths whose sums wrap and pass the tests; with a MAC of at most 255 bytes what
is left of the sums is short. -/
theorem wraps_iff (hread : K.Readable) (hmac : K.macsize < 2 ^ 8) (hn : n < 2 ^ 32) :
    K.Wraps n ↔ 2 ^ 32 ≤ n + 4 + K.macsize ∧ K.Passes n ∧ K.blocksize ≤ K.lenOf n := by
  obtain ⟨hpos, -, h4⟩ := hread
  have hmax : recvMaxPacketLen = 35000 := by decide
  have hsum := K.lenOf_eq n
  unfold Wraps Passes
  rw [hsum, hmax]
  cases hA : K.aead with
  | some A =>
    have hplen : K.plenOf n = n := if_pos (by rw [hA]; rfl)
    rw [Option.isSome_some, if_pos rfl, hplen, Nat.dvd_iff_mod_eq_zero]
    omega
  | none =>
    have h4 := h4 hA
    have hplen : K.plenOf n = (n + 4) % 2 ^ 32 := by
      unfold plenOf u32
      rw [hA, Option.isSome_none, if_neg Bool.false_ne_true]
      omega
    rw [Option.isSome_none, if_neg Bool.false_ne_true, hplen, Nat.dvd_iff_mod_eq_zero]
    rcases Nat.lt_or_ge (n + 4) (2 ^ 32) with hlt | hge
    · rw [Nat.mod_eq_of_lt hlt]
      omega
    · omega

theorem TrueLength.lt {readbuf : Buffer} (h : K.TrueLength n readbuf) :
    n + 4 + K.macsize < 2 ^ 32 := by
  have hmax := h.max
  simp only [recvMaxPacketLen, recvMaxPayloadLen] at hmax
  omega

variable {b : Buffer} {block : Bytes} {size : ℕ}

/-- What is read from the first block, when there is something in it. -/
theorem getLength_eq (seq : ℕ) (cipher : σ) (hb : b.Has size block 0)
    (hblock : block.length = K.blocksize) (hsize : K.blocksize ≤ size) :
    match K.announced seq cipher block with
    | none => K.getLength seq cipher b = dropbearExit "Error decrypting"
    | some n =>
      (K.aead = none ∧ K.blocksize < 4 ∧
        K.getLength seq cipher b = dropbearExit "Bad buf_getptr") ∨
      ((K.aead = none → 4 ≤ K.blocksize) ∧ ∃ b' u pos cipher',
        K.getLength seq cipher b = .ok (K.plenOf n, K.lenOf n, b', cipher') ∧
          b'.Has size u pos ∧ u.length = K.blocksize) := by
  have hptr := hb.getptr (n := K.blocksize) (by omega)
  rw [List.drop_zero, List.take_of_length_le hblock.le] at hptr
  unfold announced getLength
  cases hA : K.aead with
  | some A =>
    dsimp only
    rw [hptr, ok_bind]
    cases hget : A.getlength seq block cipher with
    | none => rfl
    | some n =>
      refine .inr ⟨nofun, b, block, 0, cipher, ?_, hb, hblock⟩
      simp only [plenOf, lenOf, hA, Option.isSome_some, if_true]
      rfl
  | none =>
    dsimp only
    have hwrite := hb.getwriteptr (n := K.blocksize) (by omega)
    rw [hptr, ok_bind, hwrite, ok_bind]
    cases K.decrypt block cipher with
    | none => rfl
    | some p =>
      obtain ⟨clear, cipher'⟩ := p
      dsimp only [Option.map_some]
      have htake := List.length_take_le K.blocksize clear
      obtain ⟨b₁, h₁, hb₁⟩ := hb.overwrite_take (n := K.blocksize) (by omega) clear
      have hu : (overwrite block 0 (clear.take K.blocksize)).length = block.length :=
        length_overwrite (by omega)
      generalize overwrite block 0 (clear.take K.blocksize) = u at hu hb₁
      rw [h₁, ok_bind]
      rcases Nat.lt_or_ge K.blocksize 4 with hlt | hge
      · refine .inl ⟨rfl, hlt, ?_⟩
        have hlen := hb₁.len
        have hpos := hb₁.pos
        have hbad : bufGetptr b₁ 4 = dropbearExit "Bad buf_getptr" :=
          if_pos (.inr (by omega))
        rw [bufGetint, hbad]
        rfl
      · have hptr₁ := hb₁.getptr (n := 4) (by omega)
        obtain ⟨b₂, h₂, hb₂⟩ := hb₁.incrpos (n := 4) (by omega)
        have hint : bufGetint b₁ = .ok (load32h u, b₂) := by
          unfold bufGetint
          rw [hptr₁, ok_bind, h₂, ok_bind, List.drop_zero, load32h_take _ (Nat.le_refl 4)]
          rfl
        refine .inr ⟨fun _ => hge, b₂, u, _, cipher', ?_, hb₂, by omega⟩
        rw [hint]
        simp only [plenOf, lenOf, hA, Option.isSome_none, if_neg Bool.false_ne_true]
        rfl

end KeyContext

/-! ### The first block is there -/

section Start

variable {K : KeyContext σ} {s : PacketReader σ} {b : Buffer} {block : Bytes} {n pos : ℕ}

/-- `read_packet_init` behind the tests, for an announced length `n`. -/
theorem startPacket_eq (hb : b.Has initReadbuf block pos) (hblock : block.length = K.blocksize)
    (hsize : K.blocksize ≤ initReadbuf)
    (hn : K.announced s.recvseq s.cipher block = some n) :
    (K.aead = none ∧ K.blocksize < 4 ∨ ¬ K.Passes n ∨ K.lenOf n < K.blocksize) ∧
        (∃ e, startPacket K s b = .error e) ∨
      ((K.aead = none → 4 ≤ K.blocksize) ∧ K.Passes n ∧ K.blocksize ≤ K.lenOf n) ∧
        ∃ readbuf s', startPacket K s b = .ok (some readbuf, s') ∧ readbuf.len = K.lenOf n := by
  obtain ⟨b₁, h₁, hb₁⟩ := hb.setpos (n := 0) (Nat.zero_le _)
  have hget := KeyContext.getLength_eq s.recvseq s.cipher hb₁ hblock hsize
  rw [hn] at hget
  unfold startPacket
  rw [h₁, ok_bind]
  rcases hget with ⟨hA, hlt, hget⟩ | ⟨h4, b₂, u, pos₂, cipher', hget, hb₂, hu⟩
  · left
    rw [hget]
    exact ⟨.inl ⟨hA, hlt⟩, _, rfl⟩
  rw [hget, ok_bind]
  dsimp only
  by_cases hpass : K.Passes n
  · have htests : ¬ (K.lenOf n > recvMaxPacketLen ∨ K.plenOf n < K.blocksize ∨
        K.plenOf n % K.blocksize ≠ 0) := by
      obtain ⟨hmax, hmin, hblocks⟩ := hpass
      omega
    rw [if_neg htests]
    have hmax := hpass.1
    have hused := hb₂.size
    rcases Nat.lt_or_ge (K.lenOf n) K.blocksize with hshort | hlong
    · -- the buffer becomes shorter than the first block
      left
      obtain ⟨b₃, h₃, hlen₃⟩ : ∃ b₃, bufSetlen b₂ (K.lenOf n) = .ok b₃ ∧ b₃.len = K.lenOf n :=
        ⟨_, dif_neg (by omega), rfl⟩
      have h₄ : bufSetpos b₃ K.blocksize = dropbearExit "Bad buf_setpos" := dif_pos (by omega)
      rw [if_neg (by omega), ok_bind, h₃, ok_bind, h₄]
      exact ⟨.inr (.inr hshort), _, rfl⟩
    · right
      have hresize : ∃ b₃ size, (if K.lenOf n > b₂.data.length then bufResize b₂ (K.lenOf n)
          else .ok b₂) = .ok b₃ ∧ b₃.Has size u pos₂ ∧ K.lenOf n ≤ size := by
        split_ifs with hbig
        · simp only [recvMaxPacketLen, recvMaxPayloadLen] at hmax
          obtain ⟨b₃, h₃, hb₃⟩ := hb₂.resize (n := K.lenOf n) (by omega)
            (by simp only [bufMaxSize]; omega)
          exact ⟨b₃, _, h₃, hb₃, Nat.le_refl _⟩
        · exact ⟨b₂, _, rfl, hb₂, by omega⟩
      obtain ⟨b₃, size, h₃, hb₃, hfits⟩ := hresize
      obtain ⟨b₄, junk, h₄, hjunk, hb₄⟩ := hb₃.setlen (n := K.lenOf n) (by omega) hfits
      have hall : (u ++ junk).length = K.lenOf n := by
        rw [List.length_append]
        omega
      obtain ⟨b₅, h₅, hb₅⟩ := hb₄.setpos (n := K.blocksize) (by omega)
      rw [h₃, ok_bind, h₄, ok_bind, h₅, ok_bind]
      exact ⟨⟨h4, hpass, hlong⟩, b₅, _, rfl, hb₅.len.trans hall⟩
  · left
    have htests : K.lenOf n > recvMaxPacketLen ∨ K.plenOf n < K.blocksize ∨
        K.plenOf n % K.blocksize ≠ 0 := by
      by_contra hnone
      exact hpass ⟨by omega, by omega, by omega⟩
    rw [if_pos htests]
    exact ⟨.inr (.inl hpass), _, rfl⟩

/-- When the first block is there, `read_packet_init` succeeds or exits. -/
theorem startPacket_ok {started : Option Buffer} {s' : PacketReader σ}
    (hb : b.Has initReadbuf block pos) (hblock : block.length = K.blocksize)
    (hsize : K.blocksize ≤ initReadbuf) (h : startPacket K s b = .ok (started, s')) :
    (K.aead = none → 4 ≤ K.blocksize) ∧
      ∃ n readbuf, K.announced s.recvseq s.cipher block = some n ∧ started = some readbuf ∧
        readbuf.len = K.lenOf n ∧ K.Passes n ∧ K.blocksize ≤ K.lenOf n := by
  cases hn : K.announced s.recvseq s.cipher block with
  | none =>
    obtain ⟨b₁, h₁, hb₁⟩ := hb.setpos (n := 0) (Nat.zero_le _)
    have hget := KeyContext.getLength_eq s.recvseq s.cipher hb₁ hblock hsize
    rw [hn] at hget
    unfold startPacket at h
    rw [h₁, ok_bind, hget] at h
    cases h
  | some n =>
    rcases startPacket_eq hb hblock hsize hn with
      ⟨-, e, herror⟩ | ⟨⟨h4, hpass, hle⟩, r, _, hok, hlen⟩
    · rw [herror] at h
      cases h
    · rw [hok] at h
      cases h
      exact ⟨h4, n, r, rfl, rfl, hlen, hpass, hle⟩

end Start

/-! ### Reading the first block -/

theorem sockRead_eq_got {incoming bs : Bytes} {maxlen : ℕ} {answer : SockAnswer}
    (h : sockRead incoming maxlen answer = .got bs) :
    0 < bs.length ∧ bs.length ≤ maxlen ∧ bs = incoming.take bs.length := by
  cases answer with
  | upTo n =>
    unfold sockRead at h
    dsimp only at h
    cases htake : incoming.take (min n maxlen) with
    | nil =>
      rw [htake] at h
      cases h
    | cons c cs =>
      rw [htake] at h
      cases h
      have hlen := congrArg List.length htake
      rw [List.length_take] at hlen
      refine ⟨Nat.succ_pos _, by omega, ?_⟩
      rw [← htake, List.length_take, List.take_eq_take_iff]
      omega
  | again => cases h
  | closed => cases h
  | failed err => cases h

/-- `s` has read the first `k` bytes of a packet, and `s₀` none of them. -/
structure FirstBytes (K : KeyContext σ) (s₀ s : PacketReader σ) (k : ℕ) : Prop where
  le : k ≤ s₀.incoming.length
  le_block : k ≤ K.blocksize
  incoming : s.incoming = s₀.incoming.drop k
  recvseq : s.recvseq = s₀.recvseq
  cipher : s.cipher = s₀.cipher
  readbuf : s.readbuf = none ∧ k = 0 ∨
    ∃ b, s.readbuf = some b ∧ b.Has initReadbuf (s₀.incoming.take k) k

section Read

variable {K : KeyContext σ} {s₀ s s' : PacketReader σ} {k : ℕ} {answer : SockAnswer}

theorem FirstBytes.openReadbuf (h : FirstBytes K s₀ s k) :
    ∃ b, Ps4Dropbear.openReadbuf s.readbuf = .ok b ∧
      b.Has initReadbuf (s₀.incoming.take k) (s₀.incoming.take k).length := by
  have htake : (s₀.incoming.take k).length = k := by
    rw [List.length_take]
    exact Nat.min_eq_left h.le
  rw [htake]
  rcases h.readbuf with ⟨hnone, rfl⟩ | ⟨b, hsome, hb⟩
  · obtain ⟨b, hok, hb⟩ := Buffer.bufNew_has (show initReadbuf ≤ bufMaxSize by decide)
    rw [hnone]
    exact ⟨b, hok, hb⟩
  · rw [hsome]
    exact ⟨b, rfl, hb⟩

/-- One call of `read_packet_init`: more of the first block, or all of it. -/
theorem FirstBytes.step {started : Option Buffer} (h : FirstBytes K s₀ s k)
    (hbs : K.blocksize < 2 ^ 8) (hok : readPacketInit K s answer = .ok (started, s')) :
    (started = none ∧ ∃ k', FirstBytes K s₀ s' k') ∨
      (0 < K.blocksize ∧ K.blocksize ≤ initReadbuf ∧ K.blocksize ≤ s₀.incoming.length ∧
        ∃ b s₁, b.Has initReadbuf (s₀.incoming.take K.blocksize) K.blocksize ∧
          s₁.recvseq = s₀.recvseq ∧ s₁.cipher = s₀.cipher ∧
          startPacket K s₁ b = .ok (started, s')) := by
  have hle := h.le
  have hblock := h.le_block
  have htake : (s₀.incoming.take k).length = k := by
    rw [List.length_take]
    exact Nat.min_eq_left hle
  obtain ⟨b, h₀, hb⟩ := h.openReadbuf
  have hpos := hb.pos
  have hsize := hb.size
  have hmaxlen : u32 (K.blocksize - b.pos) = K.blocksize - k :=
    u32_eq (by omega) (by omega)
  unfold readPacketInit at hok
  rw [h₀, ok_bind] at hok
  dsimp only at hok
  rw [hmaxlen] at hok
  by_cases hfits : K.blocksize ≤ initReadbuf
  swap
  · have hexit : ∀ x, bufOverwrite b (K.blocksize - k) x = dropbearExit "Bad buf_getwriteptr" :=
      fun x => dif_pos (.inr (by omega))
    rw [hexit] at hok
    cases hok
  cases hread : sockRead s.incoming (K.blocksize - k) answer with
  | closed =>
    obtain ⟨b₁, h₁, -⟩ := hb.overwrite_nil (n := K.blocksize - k) (by omega)
    rw [hread, show SockRead.closed.bytes = [] from rfl, h₁] at hok
    cases hok
  | failed err =>
    obtain ⟨b₁, h₁, -⟩ := hb.overwrite_nil (n := K.blocksize - k) (by omega)
    rw [hread, show (SockRead.failed err).bytes = [] from rfl, h₁] at hok
    cases hok
  | again =>
    obtain ⟨b₁, h₁, hb₁⟩ := hb.overwrite_nil (n := K.blocksize - k) (by omega)
    rw [hread, show SockRead.again.bytes = [] from rfl, h₁] at hok
    cases hok
    rw [htake] at hb₁
    exact .inl ⟨rfl, k, hle, hblock, h.incoming, h.recvseq, h.cipher, .inr ⟨b₁, rfl, hb₁⟩⟩
  | got bs =>
    obtain ⟨hbs0, hbsle, hbseq⟩ := sockRead_eq_got hread
    obtain ⟨b₁, b₂, h₁, h₂, hb₂⟩ := hb.append hbsle (by omega)
    have hmore : s₀.incoming.take k ++ bs = s₀.incoming.take (k + bs.length) := by
      rw [List.take_add, ← h.incoming, ← hbseq]
    have hall : k + bs.length ≤ s₀.incoming.length := by
      have hlen := congrArg List.length hbseq
      rw [List.length_take, h.incoming, List.length_drop] at hlen
      omega
    rw [hmore, htake] at hb₂
    rw [hread, SockRead.bytes, h₁, ok_bind] at hok
    dsimp only at hok
    rw [h₂, ok_bind] at hok
    by_cases hend : bs.length = K.blocksize - k
    · right
      rw [if_neg (not_not.2 hend)] at hok
      have hk : k + bs.length = K.blocksize := by omega
      rw [hk] at hb₂ hall
      refine ⟨by omega, hfits, hall, b₂, _, hb₂, ?_, ?_, hok⟩
      · exact h.recvseq
      · exact h.cipher
    · left
      rw [if_pos hend] at hok
      cases hok
      refine ⟨rfl, k + bs.length, hall, by omega, ?_, h.recvseq, h.cipher, .inr ⟨b₂, rfl, hb₂⟩⟩
      change s.incoming.drop bs.length = _
      rw [h.incoming, List.drop_drop]

/-- When the calls for a packet succeed. -/
theorem readInits_ok {answers : List SockAnswer} {readbuf : Buffer} (h : FirstBytes K s₀ s k)
    (hbs : K.blocksize < 2 ^ 8) (hok : readInits K s answers = .ok (some readbuf, s')) :
    K.Readable ∧ K.blocksize ≤ s₀.incoming.length ∧
      ∃ n, K.announced s₀.recvseq s₀.cipher (s₀.incoming.take K.blocksize) = some n ∧
        readbuf.len = K.lenOf n ∧ K.Passes n ∧ K.blocksize ≤ K.lenOf n := by
  induction answers generalizing s k with
  | nil => cases hok
  | cons answer answers ih =>
    unfold readInits at hok
    obtain ⟨⟨started, s₁⟩, hstep, hrest⟩ := bind_eq_ok.1 hok
    rcases h.step hbs hstep with
      ⟨rfl, k', h'⟩ | ⟨hpos, hfits, hall, b, s₂, hb, hseq, hcipher, hstart⟩
    · exact ih h' hrest
    · have hblock : (s₀.incoming.take K.blocksize).length = K.blocksize := by
        rw [List.length_take]
        exact Nat.min_eq_left hall
      obtain ⟨h4, n, r, hn, rfl, hlen, hpass, hle⟩ := startPacket_ok hb hblock hfits hstart
      cases hrest
      rw [hseq, hcipher] at hn
      exact ⟨⟨hpos, hfits, h4⟩, hall, n, hn, hlen, hpass, hle⟩

/-- The peer can have a first block read at once. -/
theorem readInits_of_passes {n : ℕ} (hstart : s.readbuf = none) (hbs : K.blocksize < 2 ^ 8)
    (hread : K.Readable) (hall : K.blocksize ≤ s.incoming.length)
    (hn : K.announced s.recvseq s.cipher (s.incoming.take K.blocksize) = some n)
    (hpass : K.Passes n) (hle : K.blocksize ≤ K.lenOf n) :
    ∃ readbuf s', readInits K s [.upTo K.blocksize] = .ok (some readbuf, s') := by
  obtain ⟨hpos, hfits, h4⟩ := hread
  have hblock : (s.incoming.take K.blocksize).length = K.blocksize := by
    rw [List.length_take]
    exact Nat.min_eq_left hall
  obtain ⟨b, h₀, hb⟩ := Buffer.bufNew_has (show initReadbuf ≤ bufMaxSize by decide)
  have hmaxlen : u32 (K.blocksize - b.pos) = K.blocksize := by
    rw [hb.pos]
    exact u32_eq (by omega) (by omega)
  have hsock : sockRead s.incoming K.blocksize (.upTo K.blocksize) =
      .got (s.incoming.take K.blocksize) := by
    unfold sockRead
    dsimp only
    rw [Nat.min_self]
    cases htake : s.incoming.take K.blocksize with
    | nil =>
      rw [htake, List.length_nil] at hblock
      omega
    | cons c cs => rfl
  obtain ⟨b₁, b₂, h₁, h₂, hb₂⟩ := Buffer.Has.append (x := s.incoming.take K.blocksize) hb
    (Nat.le_of_eq hblock) (by rw [List.length_nil, Nat.zero_add]; exact hfits)
  have hstarted := startPacket_eq
    (s := { s with incoming := s.incoming.drop (s.incoming.take K.blocksize).length,
                   readbuf := some b₂ }) hb₂ hblock hfits hn
  rcases hstarted with ⟨hbad, -⟩ | ⟨-, r, s', hok, -⟩
  · exact absurd hbad (by
      rintro (⟨hA, hlt⟩ | hnot | hshort)
      · exact absurd (h4 hA) (by omega)
      · exact hnot hpass
      · omega)
  · refine ⟨r, s', ?_⟩
    unfold readInits readPacketInit
    rw [hstart]
    change (((bufNew initReadbuf >>= _) : Except Exit _) >>= _) = _
    rw [h₀, ok_bind]
    dsimp only
    rw [hmaxlen, hsock, SockRead.bytes, h₁, ok_bind]
    dsimp only
    rw [h₂, ok_bind, if_neg (not_not.2 hblock), hok]
    rfl

end Read

/-- **The length check**, for every block size and MAC size (both are an `unsigned char`), cipher or
AEAD mode and whatever the peer sends: the length that `read_packet_init` goes by is the true one
exactly when the announced length is not one of `Wraps`. -/
theorem readPacketInit_length_iff {K : KeyContext σ} {s : PacketReader σ}
    (hbs : K.blocksize < 2 ^ 8) (hmac : K.macsize < 2 ^ 8) (hstart : s.readbuf = none) :
    (∀ answers readbuf s', readInits K s answers = .ok (some readbuf, s') →
      ∃ n, K.announced s.recvseq s.cipher (s.incoming.take K.blocksize) = some n ∧
        K.TrueLength n readbuf) ↔
    ¬ (K.Readable ∧ K.blocksize ≤ s.incoming.length ∧
      ∃ n, K.announced s.recvseq s.cipher (s.incoming.take K.blocksize) = some n ∧ K.Wraps n) := by
  constructor
  · rintro hall ⟨hread, hle, n, hn, hwraps⟩
    obtain ⟨hwrap, hpass, hlong⟩ :=
      (KeyContext.wraps_iff hread hmac (KeyContext.announced_lt hn)).1 hwraps
    obtain ⟨readbuf, s', hok⟩ := readInits_of_passes hstart hbs hread hle hn hpass hlong
    obtain ⟨m, hm, htrue⟩ := hall _ _ _ hok
    rw [hn] at hm
    cases hm
    exact absurd htrue.lt (Nat.not_lt.2 hwrap)
  · intro hnone answers readbuf s' hok
    have hfirst : FirstBytes K s s 0 :=
      ⟨Nat.zero_le _, Nat.zero_le _, rfl, rfl, rfl, .inl ⟨hstart, rfl⟩⟩
    obtain ⟨hread, hle, n, hn, hlen, hpass, hlong⟩ := readInits_ok hfirst hbs hok
    refine ⟨n, hn, hpass.trueLength hlen ?_⟩
    by_contra hwrap
    exact hnone ⟨hread, hle, n, hn, (KeyContext.wraps_iff hread hmac
      (KeyContext.announced_lt hn)).2 ⟨Nat.not_lt.1 hwrap, hpass, hlong⟩⟩

/-- Blocks of 16 bytes and a MAC of 32, the sizes of `aes128-ctr` and `hmac-sha2-256`, with a key
stream of zeros. -/
def zeroStreamKeys : KeyContext Unit := { noneKeys with blocksize := 16, macsize := 32 }

/-- A first block that announces `2 ^ 32 - 20` bytes. -/
def wrappingBlock : Bytes := [255, 255, 255, 236] ++ List.replicate 12 0

/-- It passes as a packet of 16 bytes, from which a MAC of 32 bytes is subtracted. -/
theorem readPacketInit_length_wraps :
    ∃ readbuf s', readInits zeroStreamKeys ⟨none, 0, (), 0, wrappingBlock⟩ [.upTo 16] =
        .ok (some readbuf, s') ∧
      ¬ ∃ n, zeroStreamKeys.announced 0 () (wrappingBlock.take 16) = some n ∧
        zeroStreamKeys.TrueLength n readbuf := by
  have hn : zeroStreamKeys.announced 0 () (wrappingBlock.take 16) = some (2 ^ 32 - 20) := by decide
  have hpass : zeroStreamKeys.Passes (2 ^ 32 - 20) := by
    simp only [KeyContext.Passes, KeyContext.lenOf_eq]
    decide
  obtain ⟨readbuf, s', hok⟩ := readInits_of_passes (K := zeroStreamKeys)
    (s := ⟨none, 0, (), 0, wrappingBlock⟩) rfl (by decide)
    ⟨by decide, by decide, fun _ => by decide⟩ (by decide) hn hpass
    (by rw [KeyContext.lenOf_eq]; decide)
  refine ⟨readbuf, s', hok, ?_⟩
  rintro ⟨n, hm, htrue⟩
  rw [hn] at hm
  cases hm
  exact absurd htrue.lt (by decide)

/-- A first packet of 16 bytes. -/
theorem readPacketInit_length_iff_short :
    ∃ readbuf s', readInits noneKeys ⟨none, 0, (), 0, [0, 0, 0, 12, 10, 21, 0, 0]⟩ [.upTo 8] =
        .ok (some readbuf, s') ∧
      ∃ n, noneKeys.announced 0 () ([0, 0, 0, 12, 10, 21, 0, 0].take 8) = some n ∧
        noneKeys.TrueLength n readbuf := by
  have hn : noneKeys.announced 0 () ([0, 0, 0, 12, 10, 21, 0, 0].take 8) = some 12 := by decide
  have hpass : noneKeys.Passes 12 := by
    simp only [KeyContext.Passes, KeyContext.lenOf_eq]
    decide
  obtain ⟨readbuf, s', hok⟩ := readInits_of_passes (K := noneKeys)
    (s := ⟨none, 0, (), 0, [0, 0, 0, 12, 10, 21, 0, 0]⟩) rfl (by decide)
    ⟨by decide, by decide, fun _ => by decide⟩ (by decide) hn hpass
    (by rw [KeyContext.lenOf_eq]; decide)
  refine ⟨readbuf, s', hok, ?_⟩
  refine (readPacketInit_length_iff (K := noneKeys)
    (s := ⟨none, 0, (), 0, [0, 0, 0, 12, 10, 21, 0, 0]⟩) (by decide) (by decide) rfl).2 ?_ _ _ _ hok
  rintro ⟨-, -, n, hn, hwrap⟩
  obtain rfl : 12 = n := Option.some.inj hn
  exact absurd hwrap (by decide)

end Ps4Dropbear
