import Ps4Dropbear.Crypto.Ctr
import Ps4Dropbear.Session.Framing

/-!
# The round trip of a stream of packets

What `encrypt_packet` makes of payloads, `read_packet` and `decrypt_packet` turn into the same
payloads, however the bytes are cut into reads: a read can end inside the first block, with it, or
anywhere behind it.  `Reading` is a packet of which some bytes have been read.

* `decryptPacket_carries` : a packet that is complete.
* `readPacket_reading` : one call of `read_packet`.
* `packets_round_trip` : **the result**.
-/

namespace Ps4Dropbear

variable {σ : Type} {K : KeyContext σ} {Match : σ → σ → Prop}

/-! ### A complete packet -/

section Decrypt

variable {d dm d' : σ} {payload packet sealed : Bytes} {b : Buffer} {size seq : ℕ}
variable {r : PacketReader σ}

theorem Carries.length_packet (hK : K.Shared Match)
    (h : Carries K seq d payload packet sealed dm d') :
    K.blocksize ≤ packet.length ∧ packet.length ≤ recvMaxPacketLen := by
  obtain ⟨noise, hF⟩ := h.framed
  have hbs := hK.blocksize
  have hmac := hK.macsize
  obtain ⟨hmin, hmax, -⟩ := K.sized_clearPacket hbs h.min h.max noise
  have hlen := hF.length
  simp only [maxMacLen, transMaxPayloadLen] at hmac hmax
  simp only [recvMaxPacketLen, recvMaxPayloadLen]
  omega

/-- `decrypt_packet`. -/
theorem decryptPacket_carries {pos : ℕ} (hK : K.Shared Match)
    (h : Carries K r.recvseq d payload packet sealed r.cipher d') (hb : b.Has size sealed pos) :
    ∃ b' r', decryptPacket K r b = .ok (some b', r') ∧ b'.rest = payload ∧ r'.readbuf = none ∧
      r'.recvseq = (r.recvseq + 1) % 2 ^ 32 ∧ r'.cipher = d' ∧ r'.incoming = r.incoming := by
  obtain ⟨hmin, hmax, noise, hF⟩ := h
  have hbs := hK.blocksize
  have hmac := hK.macsize
  have hpad := (K.padlen_spec (5 + payload.length) hbs (by omega)).1
  simp only [maxMacLen, transMaxPayloadLen, minPacketLen] at hmac hmax hpad
  have hclear := K.length_clearPacket payload noise
  obtain ⟨b₁, tag, _, h₁, hb₁, htag⟩ := hF.decryptInPlace b size pos hb
  have htotal : (K.clearPacket payload noise ++ tag).length =
      5 + payload.length + K.padlen (5 + payload.length) + K.macsize := by
    rw [List.length_append, hclear, htag]
  have hpadlen : (UInt8.ofNat (K.padlen (5 + payload.length))).toNat =
      K.padlen (5 + payload.length) := by
    rw [UInt8.toNat_ofNat']
    exact Nat.mod_eq_of_lt (by omega)
  obtain ⟨b₂, h₂, hb₂⟩ := hb₁.setpos (n := packetPaddingOff)
    (by simp only [packetPaddingOff]; omega)
  have hsplit : K.clearPacket payload noise ++ tag =
      store32h (5 + payload.length + K.padlen (5 + payload.length) - 4) ++
        [UInt8.ofNat (K.padlen (5 + payload.length))] ++
        (payload ++ ((List.range (K.padlen (5 + payload.length))).map noise ++ tag)) := by
    simp only [KeyContext.clearPacket, List.append_assoc]
  rw [hsplit] at hb₂
  obtain ⟨b₃, h₃, hb₃⟩ := Buffer.Has.getbyte hb₂
  rw [← hsplit] at hb₃
  have hlen : u32 (b₃.len - (K.padlen (5 + payload.length) : ℕ) - 4 - 1 - K.macsize) =
      payload.length := by
    rw [hb₃.len, htotal]
    exact u32_eq (by omega) (by omega)
  obtain ⟨b₄, h₄, hb₄⟩ := hb₃.setpos (n := packetPayloadOff)
    (by simp only [packetPayloadOff]; omega)
  obtain ⟨b₅, h₅, hb₅⟩ := hb₄.setlen_shrink (n := packetPayloadOff + payload.length)
    (by simp only [packetPayloadOff]; omega) (Nat.le_add_right _ _)
  have hrest : b₅.rest = payload := by
    rw [hb₅.rest, hsplit, List.drop_take, Nat.add_sub_cancel_left]
    exact List.take_left
  unfold decryptPacket
  rw [h₁, ok_bind]
  dsimp only
  rw [h₂, ok_bind, h₃, ok_bind]
  dsimp only
  rw [hpadlen, hlen, if_neg (by simp only [recvMaxPayloadLen]; omega), h₄, ok_bind, hb₄.pos, h₅,
    ok_bind]
  exact ⟨b₅, _, rfl, hrest, rfl, rfl, rfl, rfl⟩

end Decrypt

/-! ### Reading in pieces -/

/-- The peer has not closed the connection, and there is no error. -/
def SockAnswer.Delivers : SockAnswer → Prop
  | .upTo _ => True
  | .again => True
  | .closed => False
  | .failed _ => False

/-- At least one byte is there, unless all have been read. -/
def SockAnswer.Offers : SockAnswer → Prop
  | .upTo n => 0 < n
  | _ => False

theorem SockAnswer.Offers.delivers {answer : SockAnswer} (h : answer.Offers) : answer.Delivers := by
  cases answer with
  | upTo n => trivial
  | again => trivial
  | closed => exact h
  | failed err => exact h

/-- A `read` takes `m` bytes; without any it says `EAGAIN`. -/
theorem sockRead_of_delivers (incoming : Bytes) (maxlen : ℕ) {answer : SockAnswer}
    (h : answer.Delivers) :
    (sockRead incoming maxlen answer = .again ∧
      (answer.Offers → 0 < maxlen → incoming = [])) ∨
    ∃ m, 0 < m ∧ m ≤ maxlen ∧ m ≤ incoming.length ∧
      sockRead incoming maxlen answer = .got (incoming.take m) := by
  cases answer with
  | upTo n =>
    cases htake : incoming.take (min n maxlen) with
    | nil =>
      refine .inl ⟨by simp only [sockRead, htake], fun hn hmax => ?_⟩
      change 0 < n at hn
      rcases List.take_eq_nil_iff.1 htake with h0 | hnil
      · omega
      · exact hnil
    | cons c cs =>
      have hlen := congrArg List.length htake
      rw [List.length_take, List.length_cons] at hlen
      refine .inr ⟨min (min n maxlen) incoming.length, by omega, by omega, by omega, ?_⟩
      rw [← List.take_eq_take_min]
      simp only [sockRead, htake]
  | again => exact .inl ⟨rfl, nofun⟩
  | closed => exact h.elim
  | failed err => exact h.elim

section Reading

/-- `k` bytes of a packet have been read, and the others are still to come, with `later` behind
them. -/
structure Reading (K : KeyContext σ) (d : σ) (packet sealed : Bytes) (dm : σ) (later : Bytes)
    (k : ℕ) (r : PacketReader σ) : Prop where
  lt : k < packet.length
  incoming : r.incoming = packet.drop k ++ later
  readbuf :
    -- in the first block, which has not been decrypted
    (k < K.blocksize ∧ r.cipher = d ∧
      (r.readbuf = none ∧ k = 0 ∨
        ∃ b, r.readbuf = some b ∧ b.Has initReadbuf (packet.take k) k)) ∨
    -- behind it, with the length known
    (K.blocksize ≤ k ∧ r.cipher = dm ∧ ∃ b size junk, r.readbuf = some b ∧
      b.Has size (sealed.take k ++ junk) k ∧ junk.length = packet.length - k)

/-- What a call of `read_packet` with `k` bytes of a packet read can do: read more of them, or
finish the packet. -/
inductive ReadStep (K : KeyContext σ) (seq : ℕ) (d : σ) (payload packet sealed : Bytes)
    (dm d' : σ) (later : Bytes) (k : ℕ) (progress : Prop) :
    Option Buffer → PacketReader σ → Prop
  | more {k' : ℕ} {r' : PacketReader σ} (hk : k ≤ k') (hprogress : progress → k < k')
      (hseq : r'.recvseq = seq) (h : Reading K d packet sealed dm later k' r') :
      ReadStep K seq d payload packet sealed dm d' later k progress none r'
  | done {b : Buffer} {r' : PacketReader σ} (hb : b.rest = payload) (hbuf : r'.readbuf = none)
      (hseq : r'.recvseq = (seq + 1) % 2 ^ 32) (hcipher : r'.cipher = d')
      (hincoming : r'.incoming = later) :
      ReadStep K seq d payload packet sealed dm d' later k progress (some b) r'

variable {d dm d' : σ} {payload packet sealed later : Bytes} {b : Buffer} {size k : ℕ}
variable {r : PacketReader σ}

/-- The part of `read_packet` behind the first block. -/
theorem readRemainder_reading {answer : SockAnswer} {junk : Bytes} (hK : K.Shared Match)
    (hC : Carries K r.recvseq d payload packet sealed r.cipher d')
    (hle : K.blocksize ≤ k) (hk : k ≤ packet.length)
    (hincoming : r.incoming = packet.drop k ++ later)
    (hb : b.Has size (sealed.take k ++ junk) k) (hjunk : junk.length = packet.length - k)
    (ha : answer.Delivers) :
    ∃ got r', readRemainder K r b answer = .ok (got, r') ∧
      ReadStep K r.recvseq d payload packet sealed r.cipher d' later k answer.Offers got r' := by
  obtain ⟨noise, hF⟩ := hC.framed
  have hsealed := hF.sealed_length
  have htake : (sealed.take k).length = k := by
    rw [List.length_take]
    omega
  have hmaxlen : b.len - b.pos = packet.length - k := by
    rw [hb.len, hb.pos, List.length_append, htake, hjunk]
    omega
  have hdrop : sealed.drop k = packet.drop k := by
    have := congrArg (List.drop (k - K.blocksize)) hF.sealed_drop
    rwa [List.drop_drop, List.drop_drop, Nat.add_sub_cancel' hle] at this
  unfold readRemainder
  rw [hmaxlen]
  by_cases hend : packet.length - k = 0
  · -- the packet is only its first block
    rw [if_pos hend]
    have hnil : junk = [] := List.length_eq_zero_iff.1 (hjunk.trans hend)
    rw [hnil, List.append_nil, List.take_of_length_le (by omega)] at hb
    obtain ⟨b', r', hok, hrest, hnone, hseq, hcipher, hin⟩ := decryptPacket_carries hK hC hb
    rw [hincoming, List.drop_of_length_le (by omega), List.nil_append] at hin
    exact ⟨some b', r', hok, .done hrest hnone hseq hcipher hin⟩
  rw [if_neg hend]
  have hpos : 0 < packet.length - k := Nat.pos_of_ne_zero hend
  have hne : r.incoming ≠ [] := by
    rw [hincoming]
    intro hnil
    have hlen := congrArg List.length (List.append_eq_nil_iff.1 hnil).1
    rw [List.length_drop, List.length_nil] at hlen
    exact hend hlen
  rcases sockRead_of_delivers r.incoming (packet.length - k) ha with
    ⟨hread, hnone⟩ | ⟨m, hm0, hm, hmin, hread⟩
  · obtain ⟨b₁, h₁, hb₁⟩ := Buffer.Has.overwriteUsed (m := []) (z := junk) (x := [])
      (n := packet.length - k) (by rwa [List.append_nil, htake]) rfl (Nat.zero_le _)
      (by rw [hjunk]; exact Nat.le_add_left _ _)
    rw [List.append_nil, htake] at hb₁
    dsimp only
    rw [hread]
    dsimp only [SockRead.bytes]
    rw [h₁, ok_bind]
    exact ⟨none, _, rfl, .more (Nat.le_refl k) (fun hoffers => absurd (hnone hoffers hpos) hne) rfl
      ⟨by omega, hincoming, .inr ⟨hle, rfl, b₁, size, junk, rfl, hb₁, hjunk⟩⟩⟩
  · have hx : r.incoming.take m = (packet.drop k).take m := by
      rw [hincoming, List.take_append_of_le_length (by rw [List.length_drop]; exact hm)]
    have hxlen : ((packet.drop k).take m).length = m := by
      rw [List.length_take, List.length_drop, Nat.min_eq_left hm]
    rw [hx] at hread
    obtain ⟨b₁, h₁, hb₁⟩ := Buffer.Has.overwriteUsed (a := sealed.take k) (m := junk.take m)
      (z := junk.drop m) (x := (packet.drop k).take m) (n := packet.length - k)
      (by rwa [List.append_assoc, List.take_append_drop, htake])
      (by rw [hxlen, List.length_take]; omega) (by rwa [hxlen])
      (by rw [List.length_take, List.length_drop]; omega)
    rw [← hdrop, ← List.take_add, htake] at hb₁
    have hused : (sealed.take (k + m) ++ junk.drop m).length = packet.length := by
      rw [List.length_append, List.length_take, List.length_drop]
      omega
    obtain ⟨b₂, h₂, hb₂⟩ := hb₁.incrpos (n := m) (by omega)
    have hin : r.incoming.drop m = packet.drop (k + m) ++ later := by
      rw [hincoming, List.drop_append_of_le_length (by rw [List.length_drop]; exact hm),
        List.drop_drop]
    dsimp only
    rw [hread]
    dsimp only [SockRead.bytes]
    rw [h₁, ok_bind, hxlen, h₂, ok_bind]
    by_cases hall : m = packet.length - k
    · rw [if_pos hall]
      have hnil : junk.drop m = [] := by
        rw [hall, ← hjunk, List.drop_length]
      rw [hnil, List.append_nil, List.take_of_length_le (by omega)] at hb₂
      obtain ⟨b', r', hok, hrest, hnone, hseq, hcipher, hin'⟩ := decryptPacket_carries
        (r := { r with incoming := r.incoming.drop m, readbuf := some b₂ }) hK hC hb₂
      change r'.incoming = r.incoming.drop m at hin'
      rw [hin, List.drop_of_length_le (by omega), List.nil_append] at hin'
      exact ⟨some b', r', hok, .done hrest hnone hseq hcipher hin'⟩
    · rw [if_neg hall]
      exact ⟨none, _, rfl, .more (Nat.le_add_right k m) (fun _ => by omega) rfl
        ⟨by omega, hin, .inr ⟨by omega, rfl, b₂, size, junk.drop m, rfl, hb₂,
          by rw [List.length_drop]; omega⟩⟩⟩

/-- The length of the packet is known with its first block. -/
theorem startPacket_carries {pos : ℕ} (hK : K.Shared Match)
    (hC : Carries K r.recvseq r.cipher payload packet sealed dm d')
    (hb : b.Has initReadbuf (packet.take K.blocksize) pos) :
    ∃ b' size junk,
      startPacket K r b = .ok (some b', { r with cipher := dm, readbuf := some b' }) ∧
      b'.Has size (sealed.take K.blocksize ++ junk) K.blocksize ∧
      junk.length = packet.length - K.blocksize := by
  obtain ⟨hmin, hmax⟩ := hC.length_packet hK
  obtain ⟨noise, hF⟩ := hC.framed
  have hbs := hK.blocksize
  have hmaxsize : packet.length ≤ bufMaxSize := by
    simp only [recvMaxPacketLen, recvMaxPayloadLen, bufMaxSize] at *
    omega
  have hlen : (sealed.take K.blocksize).length = K.blocksize := by
    rw [List.length_take, hF.sealed_length, Nat.min_eq_left hmin]
  obtain ⟨b₁, h₁, hb₁⟩ := hb.setpos (n := 0) (Nat.zero_le _)
  obtain ⟨plen, b₂, pos₂, h₂, hb₂, hplen, hblocks⟩ := hF.getLength b₁ initReadbuf hb₁
  -- the buffer has `INIT_READBUF` bytes, or as many as the packet
  have hresize : ∃ b₃ size, (if packet.length > b₂.data.length then bufResize b₂ packet.length
      else .ok b₂) = .ok b₃ ∧ b₃.Has size (sealed.take K.blocksize) pos₂ ∧
      packet.length ≤ size := by
    split_ifs with hbig
    · rw [hb₂.size] at hbig
      obtain ⟨b₃, h₃, hb₃⟩ := hb₂.resize (n := packet.length) (by omega) hmaxsize
      exact ⟨b₃, _, h₃, hb₃, Nat.le_refl _⟩
    · rw [hb₂.size] at hbig
      exact ⟨b₂, _, rfl, hb₂, Nat.not_lt.1 hbig⟩
  obtain ⟨b₃, size, h₃, hb₃, hfits⟩ := hresize
  obtain ⟨b₄, junk, h₄, hjunk, hb₄⟩ := hb₃.setlen (n := packet.length) (by omega) hfits
  obtain ⟨b₅, h₅, hb₅⟩ := hb₄.setpos (n := K.blocksize)
    (by rw [List.length_append, hlen]; exact Nat.le_add_right _ _)
  unfold startPacket
  rw [h₁, ok_bind, h₂, ok_bind]
  dsimp only
  rw [if_neg (by omega), h₃, ok_bind, h₄, ok_bind, h₅, ok_bind]
  exact ⟨b₅, size, junk, rfl, hb₅, by rw [hjunk, hlen]⟩

/-- `read_packet_init`: it stays in the first block, or comes to its end. -/
theorem readPacketInit_reading {answer : SockAnswer} (hK : K.Shared Match)
    (hC : Carries K r.recvseq d payload packet sealed dm d')
    (hr : Reading K d packet sealed dm later k r) (hk : k < K.blocksize)
    (ha : answer.Delivers) :
    (∃ k' r', readPacketInit K r answer = .ok (none, r') ∧ k ≤ k' ∧ (answer.Offers → k < k') ∧
      r'.recvseq = r.recvseq ∧ Reading K d packet sealed dm later k' r') ∨
    ∃ b size junk r', readPacketInit K r answer = .ok (some b, r') ∧ r'.recvseq = r.recvseq ∧
      r'.cipher = dm ∧ r'.incoming = packet.drop K.blocksize ++ later ∧
      b.Has size (sealed.take K.blocksize ++ junk) K.blocksize ∧
      junk.length = packet.length - K.blocksize := by
  obtain ⟨hmin, hmax⟩ := hC.length_packet hK
  have hbs := hK.blocksize
  obtain ⟨-, hcipher, hbuf⟩ := hr.readbuf.resolve_right (fun h => absurd h.1 (Nat.not_le.2 hk))
  have hincoming := hr.incoming
  have htake : (packet.take k).length = k := by
    rw [List.length_take]
    omega
  have hnew : ∃ b, openReadbuf r.readbuf = .ok b ∧ b.Has initReadbuf (packet.take k) k := by
    rcases hbuf with ⟨hnone, rfl⟩ | ⟨b, hsome, hb⟩
    · obtain ⟨b, hok, hb⟩ := Buffer.bufNew_has (show initReadbuf ≤ bufMaxSize by decide)
      rw [hnone]
      exact ⟨b, hok, hb⟩
    · rw [hsome]
      exact ⟨b, rfl, hb⟩
  obtain ⟨b, h₀, hb⟩ := hnew
  have hmaxlen : u32 (K.blocksize - b.pos) = K.blocksize - k := by
    rw [hb.pos]
    exact u32_eq (by omega) (by omega)
  have hroom : k + (K.blocksize - k) ≤ initReadbuf := by
    simp only [initReadbuf]
    omega
  have hlen : (packet.drop k).length = packet.length - k := List.length_drop
  unfold readPacketInit
  rw [h₀, ok_bind]
  dsimp only
  rw [hmaxlen]
  rcases sockRead_of_delivers r.incoming (K.blocksize - k) ha with
    ⟨hread, hnone⟩ | ⟨m, hm0, hm, -, hread⟩
  · left
    obtain ⟨b₁, h₁, hb₁⟩ := hb.overwrite_nil (n := K.blocksize - k) hroom
    have hne : r.incoming ≠ [] := by
      rw [hincoming]
      intro hnil
      have hzero := congrArg List.length (List.append_eq_nil_iff.1 hnil).1
      rw [hlen, List.length_nil] at hzero
      omega
    rw [hread]
    dsimp only [SockRead.bytes]
    rw [h₁, ok_bind]
    exact ⟨k, _, rfl, Nat.le_refl k, fun hoffers => absurd (hnone hoffers (by omega)) hne, rfl,
      hr.lt, hincoming, .inl ⟨hk, hcipher, .inr ⟨b₁, rfl, hb₁⟩⟩⟩
  · have hx : r.incoming.take m = (packet.drop k).take m := by
      rw [hincoming, List.take_append_of_le_length (by omega)]
    have hxlen : ((packet.drop k).take m).length = m := by
      rw [List.length_take]
      omega
    have hin : r.incoming.drop m = packet.drop (k + m) ++ later := by
      rw [hincoming, List.drop_append_of_le_length (by omega), List.drop_drop]
    rw [hx] at hread
    obtain ⟨b₁, b₂, h₁, h₂, hb₂⟩ := Buffer.Has.append (u := packet.take k)
      (x := (packet.drop k).take m) (n := K.blocksize - k) (by rwa [htake]) (by rwa [hxlen])
      (by rwa [htake])
    rw [htake, hxlen, ← List.take_add] at hb₂
    rw [hread]
    dsimp only [SockRead.bytes]
    rw [h₁, ok_bind, h₂, ok_bind, hxlen]
    by_cases hall : m = K.blocksize - k
    · right
      have hkm : k + m = K.blocksize := by omega
      rw [hkm] at hb₂ hin
      obtain ⟨b', size, junk, hok, hb', hjunk⟩ := startPacket_carries
        (r := { r with incoming := r.incoming.drop m, readbuf := some b₂ }) hK
        (hcipher ▸ hC) hb₂
      rw [if_neg (not_not.2 hall), hok]
      exact ⟨b', size, junk, _, rfl, rfl, rfl, hin, hb', hjunk⟩
    · left
      rw [if_pos hall]
      exact ⟨k + m, _, rfl, by omega, fun _ => by omega, rfl, by omega, hin,
        .inl ⟨by omega, hcipher, .inr ⟨b₂, rfl, hb₂⟩⟩⟩

/-- What `read_packet` does behind `read_packet_init`. -/
def readStarted (K : KeyContext σ) (second : SockAnswer) (p : Option Buffer × PacketReader σ) :
    Except Exit (Option Buffer × PacketReader σ) :=
  match p.1 with
  | none => .ok (none, p.2)
  | some readbuf => readRemainder K p.2 readbuf second

/-- In the first block, `read_packet` starts with `read_packet_init`. -/
theorem readPacket_short {first second : SockAnswer}
    (h : ∀ b, r.readbuf = some b → b.len < K.blocksize) :
    readPacket K r first second = readPacketInit K r first >>= readStarted K second := by
  unfold readPacket
  cases hbuf : r.readbuf with
  | none => rfl
  | some b =>
    dsimp only
    rw [if_pos (h b hbuf)]
    rfl

/-- Behind it, it goes on at once. -/
theorem readPacket_long {first second : SockAnswer} (hbuf : r.readbuf = some b)
    (h : ¬ b.len < K.blocksize) : readPacket K r first second = readRemainder K r b second := by
  unfold readPacket
  rw [hbuf]
  dsimp only
  rw [if_neg h, ok_bind]

/-- **One call of `read_packet`.** -/
theorem readPacket_reading {first second : SockAnswer} (hK : K.Shared Match)
    (hC : Carries K r.recvseq d payload packet sealed dm d')
    (hr : Reading K d packet sealed dm later k r) (h₁ : first.Delivers) (h₂ : second.Delivers) :
    ∃ got r', readPacket K r first second = .ok (got, r') ∧
      ReadStep K r.recvseq d payload packet sealed dm d' later k
        (first.Offers ∧ second.Offers) got r' := by
  obtain ⟨hmin, -⟩ := hC.length_packet hK
  by_cases hk : k < K.blocksize
  · -- a buffer in the first block has fewer bytes than that
    have hshort : ∀ b, r.readbuf = some b → b.len < K.blocksize := by
      intro b hb
      obtain ⟨-, -, hbuf⟩ := hr.readbuf.resolve_right (fun h => absurd h.1 (Nat.not_le.2 hk))
      rcases hbuf with ⟨hnone, -⟩ | ⟨b', hsome, hb'⟩
      · rw [hnone] at hb
        cases hb
      · obtain rfl : b' = b := Option.some.inj (hsome.symm.trans hb)
        rw [hb'.len, List.length_take]
        omega
    rcases readPacketInit_reading hK hC hr hk h₁ with ⟨k', r', hok, hk', hoffers, hseq, hr'⟩ |
      ⟨b, size, junk, r', hok, hseq, hcipher, hin, hb, hjunk⟩
    · rw [readPacket_short hshort, hok, ok_bind]
      exact ⟨none, r', rfl, .more hk' (fun h => hoffers h.1) hseq hr'⟩
    · rw [readPacket_short hshort, hok, ok_bind]
      obtain ⟨got, r'', hok', hstep⟩ := readRemainder_reading (r := r') hK
        (by rwa [hseq, hcipher]) (Nat.le_refl _) hmin hin hb hjunk h₂
      refine ⟨got, r'', hok', ?_⟩
      rw [hseq, hcipher] at hstep
      cases hstep with
      | more hk' _ hseq' hr'' =>
        exact .more (by omega) (fun _ => by omega) hseq' hr''
      | done hb' hbuf hseq' hcipher' hin' => exact .done hb' hbuf hseq' hcipher' hin'
  · obtain ⟨hle, hcipher, b, size, junk, hsome, hb, hjunk⟩ :=
      hr.readbuf.resolve_left (fun h => hk h.1)
    obtain ⟨noise, hF⟩ := hC.framed
    have hlt := hr.lt
    have hlen : ¬ b.len < K.blocksize := by
      rw [hb.len, List.length_append, List.length_take, hF.sealed_length, hjunk]
      omega
    obtain ⟨got, r', hok, hstep⟩ := readRemainder_reading hK
      (by rwa [hcipher]) hle (Nat.le_of_lt hlt) hr.incoming hb hjunk h₂
    rw [readPacket_long hsome hlen]
    refine ⟨got, r', hok, ?_⟩
    rw [hcipher] at hstep
    cases hstep with
    | more hk' hoffers hseq hr' => exact .more hk' (fun h => hoffers h.2) hseq hr'
    | done hb' hbuf hseq hcipher' hin => exact .done hb' hbuf hseq hcipher' hin

end Reading

/-! ### Streams -/

/-- The packets of some payloads, one behind the other, for a receiver whose cipher is in the state
`d` before them and in the state `dEnd` behind them. -/
inductive Stream (K : KeyContext σ) (dEnd : σ) : ℕ → σ → List Bytes → Bytes → Prop
  | nil (seq : ℕ) : Stream K dEnd seq dEnd [] []
  | cons {seq : ℕ} {d dm d' : σ} {payload packet sealed wire : Bytes} {payloads : List Bytes}
      (h : Carries K seq d payload packet sealed dm d')
      (hs : Stream K dEnd ((seq + 1) % 2 ^ 32) d' payloads wire) :
      Stream K dEnd seq d (payload :: payloads) (packet ++ wire)

/-- What is still to come for a receiver. -/
inductive Awaiting (K : KeyContext σ) (dEnd : σ) (r : PacketReader σ) : List Bytes → Prop
  | idle (hin : r.incoming = []) (hcipher : r.cipher = dEnd)
      (hbuf : r.readbuf = none ∨ ∃ b, r.readbuf = some b ∧ b.Has initReadbuf [] 0) :
      Awaiting K dEnd r []
  | within {d dm d' : σ} {payload packet sealed later : Bytes} {payloads : List Bytes} {k : ℕ}
      (hC : Carries K r.recvseq d payload packet sealed dm d')
      (hr : Reading K d packet sealed dm later k r)
      (hlater : Stream K dEnd ((r.recvseq + 1) % 2 ^ 32) d' payloads later) :
      Awaiting K dEnd r (payload :: payloads)

section Streams

variable {dEnd : σ} {r : PacketReader σ} {payloads : List Bytes}

theorem Stream.awaiting {d : σ} {seq : ℕ} {wire : Bytes} (hK : K.Shared Match)
    (h : Stream K dEnd seq d payloads wire) (hbuf : r.readbuf = none) (hseq : r.recvseq = seq)
    (hcipher : r.cipher = d) (hin : r.incoming = wire) : Awaiting K dEnd r payloads := by
  have hbs := hK.blocksize
  subst hseq
  cases h with
  | nil => exact .idle hin hcipher (.inl hbuf)
  | cons hC hs =>
    have hmin := (hC.length_packet hK).1
    exact .within hC ⟨by omega, hin, .inl ⟨by omega, hcipher, .inl ⟨hbuf, rfl⟩⟩⟩ hs

/-- Nothing is missing when nothing is still to come. -/
theorem Awaiting.incoming_eq_nil (h : Awaiting K dEnd r payloads) :
    r.incoming = [] ↔ payloads = [] := by
  cases h with
  | idle hin _ _ => simp only [hin]
  | within hC hr _ =>
    have hlt := hr.lt
    refine ⟨fun hnil => ?_, nofun⟩
    have hlen := congrArg List.length (hr.incoming.symm.trans hnil)
    rw [List.length_append, List.length_drop, List.length_nil] at hlen
    omega

/-- A call of `read_packet` with nothing to read. -/
theorem readPacket_idle {first : SockAnswer} (hK : K.Shared Match) (hin : r.incoming = [])
    (hbuf : r.readbuf = none ∨ ∃ b, r.readbuf = some b ∧ b.Has initReadbuf [] 0)
    (h₁ : first.Delivers) (second : SockAnswer) :
    ∃ b, readPacket K r first second = .ok (none, { r with readbuf := some b }) ∧
      b.Has initReadbuf [] 0 := by
  have hbs := hK.blocksize
  have hnew : ∃ b, openReadbuf r.readbuf = .ok b ∧ b.Has initReadbuf [] 0 := by
    rcases hbuf with hnone | ⟨b, hsome, hb⟩
    · rw [hnone]
      exact Buffer.bufNew_has (by decide)
    · rw [hsome]
      exact ⟨b, rfl, hb⟩
  obtain ⟨b, h₀, hb⟩ := hnew
  have hread : ∀ maxlen, sockRead r.incoming maxlen first = .again := by
    intro maxlen
    rcases sockRead_of_delivers r.incoming maxlen h₁ with
      ⟨hread, -⟩ | ⟨m, hm0, -, hmin, -⟩
    · exact hread
    · rw [hin, List.length_nil] at hmin
      omega
  have hmaxlen : u32 (K.blocksize - b.pos) = K.blocksize := by
    rw [hb.pos]
    exact u32_eq (by omega) (by omega)
  obtain ⟨b₁, h₁, hb₁⟩ := hb.overwrite_nil (n := K.blocksize)
    (by simp only [initReadbuf]; omega)
  have hinit : readPacketInit K r first = .ok (none, { r with readbuf := some b₁ }) := by
    unfold readPacketInit
    rw [h₀, ok_bind]
    dsimp only
    rw [hmaxlen, hread]
    dsimp only [SockRead.bytes]
    rw [h₁, ok_bind]
    rfl
  refine ⟨b₁, ?_, hb₁⟩
  rw [readPacket_short (fun b' hsome' => ?_), hinit]
  · rfl
  rcases hbuf with hnone | ⟨b'', hsome, hb''⟩
  · rw [hnone] at hsome'
    cases hsome'
  · obtain rfl : b'' = b' := Option.some.inj (hsome.symm.trans hsome')
    rw [hb''.len, List.length_nil]
    omega

/-- The payload of a call of `read_packet`, if there is one. -/
def payloadsOf (got : Option Buffer) : List Bytes := got.toList.map Buffer.rest

/-- A call of `read_packet` takes the next payload, or none. -/
theorem readPacket_awaiting {first second : SockAnswer} (hK : K.Shared Match)
    (h : Awaiting K dEnd r payloads) (hseq : r.recvseq < 2 ^ 32) (h₁ : first.Delivers)
    (h₂ : second.Delivers) :
    ∃ got r' payloads', readPacket K r first second = .ok (got, r') ∧
      payloads = payloadsOf got ++ payloads' ∧ Awaiting K dEnd r' payloads' ∧
      r'.recvseq = (r.recvseq + (payloadsOf got).length) % 2 ^ 32 ∧
      (first.Offers ∧ second.Offers →
        r'.incoming.length + 1 ≤ r.incoming.length ∨ r'.incoming = []) := by
  cases h with
  | idle hin hcipher hbuf =>
    obtain ⟨b, hok, hb⟩ := readPacket_idle hK hin hbuf h₁ second
    exact ⟨none, _, [], hok, rfl, .idle hin hcipher (.inr ⟨b, rfl, hb⟩),
      (Nat.mod_eq_of_lt hseq).symm, fun _ => .inr hin⟩
  | within hC hr hlater =>
    have hlt := hr.lt
    obtain ⟨got, r', hok, hstep⟩ := readPacket_reading hK hC hr h₁ h₂
    cases hstep with
    | more hk hprogress hseq' hr' =>
      have hlt' := hr'.lt
      refine ⟨none, r', _, hok, rfl, .within (by rwa [hseq']) hr' (by rwa [hseq']), ?_, ?_⟩
      · rw [hseq']
        exact (Nat.mod_eq_of_lt hseq).symm
      · intro hoffers
        have hmore := hprogress hoffers
        left
        rw [hr.incoming, hr'.incoming, List.length_append, List.length_append, List.length_drop,
          List.length_drop]
        omega
    | done hb hbuf hseq' hcipher hin =>
      refine ⟨_, r', _, hok, ?_, hlater.awaiting hK hbuf hseq' hcipher hin, hseq', ?_⟩
      · rw [← hb]
        rfl
      · intro _
        left
        rw [hin, hr.incoming, List.length_append, List.length_drop]
        omega

/-- Repeated calls of `read_packet`; `process_packet` takes every payload. -/
def readPackets (K : KeyContext σ) :
    List (SockAnswer × SockAnswer) → PacketReader σ → Except Exit (List Bytes × PacketReader σ)
  | [], r => .ok ([], r)
  | (first, second) :: answers, r => do
    let (got, r) ← readPacket K r first second
    let (payloads, r) ← readPackets K answers r
    return (payloadsOf got ++ payloads, r)

theorem readPackets_awaiting (hK : K.Shared Match) {answers : List (SockAnswer × SockAnswer)}
    (ha : ∀ a ∈ answers, a.1.Delivers ∧ a.2.Delivers) :
    ∀ {r : PacketReader σ} {payloads : List Bytes}, Awaiting K dEnd r payloads →
      r.recvseq < 2 ^ 32 →
    ∃ got r' payloads', readPackets K answers r = .ok (got, r') ∧ payloads = got ++ payloads' ∧
      Awaiting K dEnd r' payloads' ∧ r'.recvseq = (r.recvseq + got.length) % 2 ^ 32 ∧
      ((∀ a ∈ answers, a.1.Offers ∧ a.2.Offers) →
        r'.incoming.length + answers.length ≤ r.incoming.length ∨ r'.incoming = []) := by
  induction answers with
  | nil =>
    intro r payloads h hseq
    exact ⟨[], r, payloads, rfl, rfl, h, (Nat.mod_eq_of_lt hseq).symm,
      fun _ => .inl (Nat.le_refl _)⟩
  | cons a answers ih =>
    intro r payloads h hseq
    have ha₁ := ha a (List.mem_cons_self ..)
    obtain ⟨got, r₁, payloads₁, hok, rfl, h₁, hseq₁, hoffers₁⟩ :=
      readPacket_awaiting hK h hseq ha₁.1 ha₁.2
    obtain ⟨gots, r₂, payloads₂, hok₂, rfl, h₂, hseq₂, hoffers₂⟩ :=
      ih (fun a' h' => ha a' (List.mem_cons_of_mem _ h')) h₁ (by omega)
    refine ⟨payloadsOf got ++ gots, r₂, payloads₂, ?_, (List.append_assoc _ _ _).symm, h₂, ?_, ?_⟩
    · unfold readPackets
      rw [hok, ok_bind]
      dsimp only
      rw [hok₂, ok_bind]
      rfl
    · rw [hseq₂, hseq₁, List.length_append, Nat.mod_add_mod, Nat.add_assoc]
    · intro hall
      rcases hoffers₂ (fun a' h' => hall a' (List.mem_cons_of_mem _ h')) with hless | hnil
      · rcases hoffers₁ (hall a (List.mem_cons_self ..)) with hless₁ | hnil₁
        · left
          rw [List.length_cons]
          omega
        · right
          rw [hnil₁, List.length_nil] at hless
          exact List.length_eq_zero_iff.1 (by omega)
      · exact .inr hnil

/-- Repeated calls of `encrypt_packet`: the bytes for the socket. -/
def encryptPackets (K : KeyContext σ) :
    List (Bytes × (ℕ → UInt8)) → PacketWriter σ → Except Exit (Bytes × PacketWriter σ)
  | [], s => .ok ([], s)
  | (payload, noise) :: msgs, s => do
    let (packet, s) ← encryptPacket K s payload noise
    let (wire, s) ← encryptPackets K msgs s
    return (packet.toList.flatMap Buffer.rest ++ wire, s)

theorem encryptPackets_stream (hK : K.Shared Match) {msgs : List (Bytes × (ℕ → UInt8))}
    (hmsgs : ∀ m ∈ msgs, 1 ≤ m.1.length ∧ m.1.length ≤ transMaxPayloadLen) :
    ∀ {s : PacketWriter σ} {d : σ}, Match s.cipher d → s.transseq < 2 ^ 32 →
    ∃ wire s' dEnd, encryptPackets K msgs s = .ok (wire, s') ∧
      Stream K dEnd s.transseq d ((msgs.map Prod.fst).filter s.sends) wire ∧
      Match s'.cipher dEnd ∧
      s'.transseq =
        (s.transseq + ((msgs.map Prod.fst).filter s.sends).length) % 2 ^ 32 ∧
      s'.replyQueue = s.replyQueue ++ (msgs.map Prod.fst).filter (!s.sends ·) := by
  induction msgs with
  | nil =>
    intro s d hm hseq
    exact ⟨[], s, d, rfl, .nil _, hm, (Nat.mod_eq_of_lt hseq).symm, (List.append_nil _).symm⟩
  | cons m msgs ih =>
    intro s d hm hseq
    obtain ⟨payload, noise⟩ := m
    obtain ⟨hmin, hmax⟩ := hmsgs _ (List.mem_cons_self ..)
    have hmsgs' := fun m' h' => hmsgs m' (List.mem_cons_of_mem _ h')
    unfold encryptPackets
    cases hsends : s.sends payload with
    | true =>
      obtain ⟨b, s₁, packet, sealed, dm, d', hok, hb, hC, hseq₁, hm₁, hallowed, hqueue⟩ :=
        encryptPacket_carries hK hm hmin hmax hsends noise
      obtain ⟨wire, s₂, dEnd, hok₂, hstream, hm₂, hseq₂, hqueue₂⟩ :=
        ih hmsgs' hm₁ (by omega)
      have hsame : s₁.sends = s.sends := by
        funext p
        rw [PacketWriter.sends, PacketWriter.sends, hallowed]
      rw [hsame] at hstream hseq₂ hqueue₂
      rw [hok, ok_bind]
      dsimp only
      rw [hok₂, ok_bind, List.map_cons, List.filter_cons_of_pos hsends,
        List.filter_cons_of_neg (by rw [hsends]; exact Bool.false_ne_true)]
      refine ⟨packet ++ wire, s₂, dEnd, ?_, .cons hC (hseq₁ ▸ hstream), hm₂, ?_, ?_⟩
      · rw [← hb]
        simp only [Option.toList_some, List.flatMap_cons, List.flatMap_nil, List.append_nil]
        rfl
      · rw [hseq₂, hseq₁, Nat.mod_add_mod, List.length_cons, Nat.add_assoc, Nat.add_comm 1]
      · rw [hqueue₂, hqueue]
    | false =>
      have hne : payload ≠ [] := by
        rintro rfl
        exact Nat.not_succ_le_zero 0 hmin
      have hheld : (!s.dataallowed && !packetIsOkayKex (packetType payload)) = true := by
        unfold PacketWriter.sends at hsends
        rw [← Bool.not_or, hsends]
        rfl
      obtain ⟨wire, s₂, dEnd, hok₂, hstream, hm₂, hseq₂, hqueue₂⟩ :=
        ih (s := { s with replyQueue := s.replyQueue ++ [payload] }) hmsgs' hm hseq
      rw [encryptPacket, if_neg hne, if_pos hheld, ok_bind]
      dsimp only
      rw [hok₂, ok_bind, List.map_cons,
        List.filter_cons_of_neg (by rw [hsends]; exact Bool.false_ne_true),
        List.filter_cons_of_pos (by rw [hsends]; rfl)]
      refine ⟨wire, s₂, dEnd, rfl, hstream, hm₂, hseq₂, ?_⟩
      rw [hqueue₂, List.append_assoc]
      rfl

/-- **The payloads arrive as they were sent.**  However the bytes of `encrypt_packet` are cut into
reads, the calls of `read_packet` never exit and return the payloads in their order, with `recvseq`
in step; when nothing is left to read, they have returned all of them, and with a byte in every read
they come to that.  Payloads that are held back for a key exchange stay in `ses.reply_queue`. -/
theorem packets_round_trip (hK : K.Shared Match) {s : PacketWriter σ} (hm : Match s.cipher r.cipher)
    (hseq : s.transseq = r.recvseq) (hrange : r.recvseq < 2 ^ 32) (hbuf : r.readbuf = none)
    (msgs : List (Bytes × (ℕ → UInt8)))
    (hmsgs : ∀ m ∈ msgs, 1 ≤ m.1.length ∧ m.1.length ≤ transMaxPayloadLen) :
    ∃ wire s' sent, encryptPackets K msgs s = .ok (wire, s') ∧
      sent = (msgs.map Prod.fst).filter s.sends ∧
      (s.dataallowed = true → sent = msgs.map Prod.fst) ∧
      s'.replyQueue = s.replyQueue ++ (msgs.map Prod.fst).filter (!s.sends ·) ∧
      s'.transseq = (s.transseq + sent.length) % 2 ^ 32 ∧
      ∀ answers, (∀ a ∈ answers, a.1.Delivers ∧ a.2.Delivers) →
        ∃ got r', readPackets K answers { r with incoming := wire } = .ok (got, r') ∧
          got <+: sent ∧ r'.recvseq = (r.recvseq + got.length) % 2 ^ 32 ∧
          (r'.incoming = [] ↔ got = sent) ∧
          (got = sent → r'.recvseq = s'.transseq ∧ Match s'.cipher r'.cipher) ∧
          ((∀ a ∈ answers, a.1.Offers ∧ a.2.Offers) → wire.length ≤ answers.length →
            got = sent) := by
  obtain ⟨wire, s', dEnd, hok, hstream, hm', hseq', hqueue⟩ :=
    encryptPackets_stream hK hmsgs hm (hseq ▸ hrange)
  refine ⟨wire, s', _, hok, rfl, ?_, hqueue, hseq', fun answers ha => ?_⟩
  · intro hallowed
    refine List.filter_eq_self.2 fun p _ => ?_
    rw [PacketWriter.sends, hallowed, Bool.true_or]
  generalize (msgs.map Prod.fst).filter s.sends = sent at hstream hseq'
  have hawaiting : Awaiting K dEnd { r with incoming := wire } sent :=
    hstream.awaiting hK hbuf hseq.symm rfl rfl
  obtain ⟨got, r', payloads', hread, rfl, hawaiting', hrecv, hoffers⟩ :=
    readPackets_awaiting hK ha hawaiting hrange
  -- nothing is left to read exactly when no payload is missing
  have hall : r'.incoming = [] ↔ got = got ++ payloads' := by
    rw [hawaiting'.incoming_eq_nil]
    exact List.self_eq_append_right.symm
  refine ⟨got, r', hread, List.prefix_append _ _, hrecv, hall, fun hgot => ?_, fun hoff hlen => ?_⟩
  · refine ⟨?_, ?_⟩
    · rw [hrecv, hseq', ← hgot, hseq]
    · have hnil := List.self_eq_append_right.1 hgot
      subst hnil
      cases hawaiting' with
      | idle _ hcipher _ => rwa [hcipher]
  · refine hall.1 ?_
    rcases hoffers hoff with hless | hnil
    · change r'.incoming.length + answers.length ≤ wire.length at hless
      exact List.length_eq_zero_iff.1 (by omega)
    · exact hnil

end Streams

/-- Counter mode, with reads of seven bytes, which end inside the blocks, and a sequence number that
starts again. -/
theorem packets_round_trip_add :
    ∃ wire s', encryptPackets addKeys [([5, 1], fun _ => 0), ([6], fun _ => 9)]
        ⟨2 ^ 32 - 1, addStart addKey addIv, true, [], 0⟩ = .ok (wire, s') ∧ s'.transseq = 1 ∧
      ∃ r', readPackets addKeys (List.replicate wire.length (.upTo 7, .upTo 7))
          ⟨none, 2 ^ 32 - 1, addStart addKey addIv, 0, wire⟩ = .ok ([[5, 1], [6]], r') ∧
        r'.recvseq = 1 := by
  obtain ⟨wire, s', sent, hok, -, hsent, -, hseq, hread⟩ := packets_round_trip addKeys_shared
    (s := ⟨2 ^ 32 - 1, addStart addKey addIv, true, [], 0⟩)
    (r := ⟨none, 2 ^ 32 - 1, addStart addKey addIv, 0, []⟩) (addStart_inStep addKey addIv) rfl
    (by decide) rfl [([5, 1], fun _ => 0), ([6], fun _ => 9)] (by decide)
  obtain rfl := hsent rfl
  have hoffers : ∀ a ∈ List.replicate wire.length (SockAnswer.upTo 7, SockAnswer.upTo 7),
      a.1.Offers ∧ a.2.Offers := by
    intro a ha
    rw [List.eq_of_mem_replicate ha]
    exact ⟨Nat.succ_pos 6, Nat.succ_pos 6⟩
  obtain ⟨got, r', hok', -, -, -, hend, hall⟩ := hread _
    fun a ha => ⟨(hoffers a ha).1.delivers, (hoffers a ha).2.delivers⟩
  have hgot := hall hoffers (Nat.le_of_eq List.length_replicate.symm)
  have hrecv := (hend hgot).1
  refine ⟨wire, s', hok, hseq, r', ?_, hrecv.trans hseq⟩
  rw [hok', hgot]
  rfl

end Ps4Dropbear
