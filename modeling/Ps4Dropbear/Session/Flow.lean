import Ps4Dropbear.Session.PacketStream

/-!
# Packets under changing keys

A direction of a connection changes its keys behind every NEWKEYS: `switch_keys` puts new keys into
use, and with `strict_kex` the sequence number starts again.  `Flow` is what is on the way from a
sender to a receiver, whose packets may be under different keys; `FlowAwaiting` is a receiver in the
middle of it.  The receiver finds only a part of these bytes at its socket.

* `KeySchedule` : the keys of a direction, in the order in which they come into use.
* `PacketReader.later`, `readPacket_later` : bytes that have not arrived make no difference.
* `Flow.concat`, `FlowAwaiting.concat` : one more packet is sent.
* `receive_awaiting` : a call of `read_packet` takes the next payload, or none.
-/

namespace Ps4Dropbear

variable {σ : Type}

/-- The keys of a direction. -/
structure KeySchedule (σ : Type) where
  /-- The keys after so many exchanges. -/
  keys : ℕ → KeyContext σ
  /-- The state of the sender's cipher when it starts to use them. -/
  trans : ℕ → σ
  /-- The state of the receiver's. -/
  recv : ℕ → σ
  /-- `ses.kexstate.strict_kex`. -/
  strict : Bool

/-- Both ends have derived the same keys in every exchange. -/
structure KeySchedule.Shared (S : KeySchedule σ) (Match : ℕ → σ → σ → Prop) : Prop where
  keys : ∀ e, (S.keys e).Shared (Match e)
  start : ∀ e, Match e (S.trans e) (S.recv e)

/-- Where a receiver is between two packets. -/
structure Place (σ : Type) where
  /-- How often the keys were changed. -/
  epoch : ℕ
  seq : ℕ
  cipher : σ

namespace KeySchedule

variable (S : KeySchedule σ)

/-- The sequence number behind NEWKEYS. -/
def restart (seq : ℕ) : ℕ := if S.strict then 0 else seq

/-- The place behind a payload: NEWKEYS changes the keys. -/
def advance (payload : Bytes) (p : Place σ) : Place σ :=
  let seq := (p.seq + 1) % 2 ^ 32
  if packetType payload = sshMsgNewkeys then
    ⟨p.epoch + 1, S.restart seq, S.recv (p.epoch + 1)⟩
  else ⟨p.epoch, seq, p.cipher⟩

variable {S} {payload : Bytes} {p : Place σ}

theorem advance_newkeys (h : packetType payload = sshMsgNewkeys) :
    S.advance payload p =
      ⟨p.epoch + 1, S.restart ((p.seq + 1) % 2 ^ 32), S.recv (p.epoch + 1)⟩ := if_pos h

theorem advance_other (h : packetType payload ≠ sshMsgNewkeys) :
    S.advance payload p = ⟨p.epoch, (p.seq + 1) % 2 ^ 32, p.cipher⟩ := if_neg h

end KeySchedule

/-! ### Bytes that have not arrived -/

/-- The receiver, if the bytes `rest` had arrived too. -/
def PacketReader.later (r : PacketReader σ) (rest : Bytes) : PacketReader σ :=
  { r with incoming := r.incoming ++ rest }

theorem PacketReader.later_later (r : PacketReader σ) (x y : Bytes) :
    (r.later x).later y = r.later (x ++ y) := by
  unfold PacketReader.later
  dsimp only
  rw [List.append_assoc]

@[simp] theorem PacketReader.later_nil (r : PacketReader σ) : r.later [] = r := by
  unfold PacketReader.later
  rw [List.append_nil]

/-- The answer that gives the same bytes when there are more than `n` of them. -/
def SockAnswer.clip (n : ℕ) : SockAnswer → SockAnswer
  | .upTo m => .upTo (min m n)
  | answer => answer

instance : DecidablePred SockAnswer.Delivers
  | .upTo _ => .isTrue trivial
  | .again => .isTrue trivial
  | .closed => .isFalse id
  | .failed _ => .isFalse id

@[simp] theorem SockAnswer.delivers_clip {answer : SockAnswer} {n : ℕ} :
    (answer.clip n).Delivers ↔ answer.Delivers := by
  cases answer <;> exact Iff.rfl

theorem sockRead_later (incoming rest : Bytes) (maxlen : ℕ) (answer : SockAnswer) :
    sockRead (incoming ++ rest) maxlen (answer.clip incoming.length) =
      sockRead incoming maxlen answer := by
  cases answer with
  | upTo m =>
    have htake : (incoming ++ rest).take (min (min m incoming.length) maxlen) =
        incoming.take (min m maxlen) := by
      rw [List.take_append_of_le_length (by omega), Nat.min_right_comm, ← List.take_eq_take_min]
    simp only [SockAnswer.clip, sockRead, htake]
  | again => rfl
  | closed => rfl
  | failed err => rfl

/-- `read` returns a part of what is there. -/
theorem length_bytes_sockRead (incoming : Bytes) (maxlen : ℕ) (answer : SockAnswer) :
    (sockRead incoming maxlen answer).bytes.length ≤ incoming.length := by
  cases answer with
  | upTo m =>
    have hle : (incoming.take (min m maxlen)).length ≤ incoming.length := List.length_take_le' _ _
    unfold sockRead
    dsimp only
    generalize incoming.take (min m maxlen) = bs at hle
    cases bs with
    | nil => exact Nat.zero_le _
    | cons b bs => exact hle
  | again => exact Nat.zero_le _
  | closed => exact Nat.zero_le _
  | failed err => exact Nat.zero_le _

section Later

variable {K : KeyContext σ} {r : PacketReader σ} {b : Buffer} {rest : Bytes}

/-- What a call returns, with the bytes `rest` behind what is left. -/
def withLater {α : Type} (rest : Bytes) (p : α × PacketReader σ) : α × PacketReader σ :=
  (p.1, p.2.later rest)

/-- Two computations that start in the same way. -/
theorem bind_eq_map {ε α β γ : Type} {x : Except ε α} {f : α → Except ε β} {f' : α → Except ε γ}
    {g : β → γ} (h : ∀ a, f' a = (f a).map g) : (x >>= f') = (x >>= f).map g := by
  cases x with
  | error e => rfl
  | ok a => exact h a

theorem decryptPacket_later :
    decryptPacket K (r.later rest) b = (decryptPacket K r b).map (withLater rest) := by
  unfold decryptPacket
  refine bind_eq_map fun p => ?_
  refine bind_eq_map fun b₂ => ?_
  refine bind_eq_map fun q => ?_
  dsimp only
  split_ifs with hbad
  · rfl
  · refine bind_eq_map fun b₄ => ?_
    exact bind_eq_map fun b₅ => rfl

theorem startPacket_later :
    startPacket K (r.later rest) b = (startPacket K r b).map (withLater rest) := by
  unfold startPacket
  refine bind_eq_map fun b₁ => ?_
  refine bind_eq_map fun p => ?_
  dsimp only
  by_cases hbad : p.2.1 > recvMaxPacketLen ∨ p.1 < K.blocksize ∨ p.1 % K.blocksize ≠ 0
  · rw [if_pos hbad, if_pos hbad]
    rfl
  · rw [if_neg hbad, if_neg hbad]
    refine bind_eq_map fun b₃ => ?_
    refine bind_eq_map fun b₄ => ?_
    exact bind_eq_map fun b₅ => rfl

/-- What has been read is in front of what has not arrived. -/
theorem drop_later {bs : Bytes} (h : bs.length ≤ r.incoming.length) (buf : Option Buffer) :
    ({ r.later rest with
      incoming := (r.later rest).incoming.drop bs.length, readbuf := buf } : PacketReader σ) =
      PacketReader.later { r with incoming := r.incoming.drop bs.length, readbuf := buf } rest := by
  unfold PacketReader.later
  dsimp only
  rw [List.drop_append_of_le_length h]

theorem readPacketInit_later (rest : Bytes) (answer : SockAnswer) :
    readPacketInit K (r.later rest) (answer.clip r.incoming.length) =
      (readPacketInit K r answer).map (withLater rest) := by
  unfold readPacketInit
  refine bind_eq_map fun b => ?_
  have hread : sockRead (r.later rest).incoming _ _ = _ :=
    sockRead_later r.incoming rest (u32 (K.blocksize - b.pos)) answer
  have hle := length_bytes_sockRead r.incoming (u32 (K.blocksize - b.pos)) answer
  dsimp only
  rw [hread]
  refine bind_eq_map fun b₁ => ?_
  cases hslen : sockRead r.incoming (u32 (K.blocksize - b.pos)) answer with
  | closed => rfl
  | failed err => rfl
  | again => rfl
  | got bs =>
    rw [hslen] at hle
    change bs.length ≤ _ at hle
    refine bind_eq_map fun b₂ => ?_
    rw [drop_later hle]
    split_ifs with hpart
    · rfl
    · exact startPacket_later

theorem readRemainder_later (answer : SockAnswer) :
    readRemainder K (r.later rest) b (answer.clip r.incoming.length) =
      (readRemainder K r b answer).map (withLater rest) := by
  unfold readRemainder
  dsimp only
  split_ifs with hend
  · exact decryptPacket_later
  · have hread : sockRead (r.later rest).incoming _ _ = _ :=
      sockRead_later r.incoming rest (b.len - b.pos) answer
    have hle := length_bytes_sockRead r.incoming (b.len - b.pos) answer
    rw [hread]
    refine bind_eq_map fun b₁ => ?_
    cases hlen : sockRead r.incoming (b.len - b.pos) answer with
    | closed => rfl
    | failed err => rfl
    | again => rfl
    | got bs =>
      rw [hlen] at hle
      change bs.length ≤ _ at hle
      refine bind_eq_map fun b₂ => ?_
      rw [drop_later hle]
      split_ifs with hall
      · exact decryptPacket_later
      · rfl

/-- A call of `read_packet` does the same when more bytes are behind those that it finds. -/
theorem readPacket_later (K : KeyContext σ) (r : PacketReader σ) (rest : Bytes)
    {first second : SockAnswer} (h₁ : first.Delivers) (h₂ : second.Delivers) :
    ∃ first' second', first'.Delivers ∧ second'.Delivers ∧
      readPacket K (r.later rest) first' second' =
        (readPacket K r first second).map (withLater rest) := by
  by_cases hshort : ∀ b, r.readbuf = some b → b.len < K.blocksize
  · have hinit := readPacketInit_later (K := K) (r := r) rest first
    cases hres : readPacketInit K r first with
    | error e =>
      refine ⟨first.clip r.incoming.length, second, SockAnswer.delivers_clip.2 h₁, h₂, ?_⟩
      rw [readPacket_short hshort, readPacket_short (r := r.later rest) hshort, hinit, hres]
      rfl
    | ok p =>
      obtain ⟨started, s⟩ := p
      refine ⟨first.clip r.incoming.length, second.clip s.incoming.length,
        SockAnswer.delivers_clip.2 h₁, SockAnswer.delivers_clip.2 h₂, ?_⟩
      rw [readPacket_short hshort, readPacket_short (r := r.later rest) hshort, hinit, hres, ok_bind]
      cases started with
      | none => rfl
      | some b => exact readRemainder_later second
  · rw [not_forall] at hshort
    obtain ⟨b, hb⟩ := hshort
    rw [Classical.not_imp] at hb
    refine ⟨first, second.clip r.incoming.length, h₁, SockAnswer.delivers_clip.2 h₂, ?_⟩
    rw [readPacket_long hb.1 hb.2, readPacket_long (r := r.later rest) hb.1 hb.2]
    exact readRemainder_later second

end Later

/-! ### What is on the way -/

/-- The packets of some payloads, one behind the other, from one place to another. -/
inductive Flow (S : KeySchedule σ) : Place σ → List Bytes → Bytes → Place σ → Prop
  | nil (p : Place σ) : Flow S p [] [] p
  | cons {p q : Place σ} {dm d' : σ} {payload packet sealed wire : Bytes} {payloads : List Bytes}
      (h : Carries (S.keys p.epoch) p.seq p.cipher payload packet sealed dm d')
      (hs : Flow S (S.advance payload ⟨p.epoch, p.seq, d'⟩) payloads wire q) :
      Flow S p (payload :: payloads) (packet ++ wire) q

/-- What is still to come for a receiver with the keys number `epoch`, up to the place `q`. -/
inductive FlowAwaiting (S : KeySchedule σ) (q : Place σ) (epoch : ℕ) (r : PacketReader σ) :
    List Bytes → Prop
  | idle (hin : r.incoming = []) (hq : ⟨epoch, r.recvseq, r.cipher⟩ = q)
      (hbuf : r.readbuf = none ∨ ∃ b, r.readbuf = some b ∧ b.Has initReadbuf [] 0) :
      FlowAwaiting S q epoch r []
  | within {d dm d' : σ} {payload packet sealed later : Bytes} {payloads : List Bytes} {k : ℕ}
      (hC : Carries (S.keys epoch) r.recvseq d payload packet sealed dm d')
      (hr : Reading (S.keys epoch) d packet sealed dm later k r)
      (hlater : Flow S (S.advance payload ⟨epoch, r.recvseq, d'⟩) payloads later q) :
      FlowAwaiting S q epoch r (payload :: payloads)

section Flows

variable {S : KeySchedule σ} {Match : ℕ → σ → σ → Prop} {p q : Place σ} {epoch : ℕ}
  {r : PacketReader σ} {payload packet sealed wire : Bytes} {payloads : List Bytes} {dm d' : σ}

/-- One more packet at the end. -/
theorem Flow.concat (h : Flow S p payloads wire q)
    (hC : Carries (S.keys q.epoch) q.seq q.cipher payload packet sealed dm d') :
    Flow S p (payloads ++ [payload]) (wire ++ packet) (S.advance payload ⟨q.epoch, q.seq, d'⟩) := by
  induction h with
  | nil p =>
    have hone := Flow.cons hC (.nil _)
    rwa [List.append_nil] at hone
  | cons hC' hs ih =>
    rw [List.append_assoc]
    exact .cons hC' (ih hC)

/-- A receiver before the first packet. -/
theorem Flow.awaiting (hS : S.Shared Match) (h : Flow S p payloads wire q)
    (hp : ⟨epoch, r.recvseq, r.cipher⟩ = p)
    (hbuf : r.readbuf = none ∨ ∃ b, r.readbuf = some b ∧ b.Has initReadbuf [] 0)
    (hin : r.incoming = wire) : FlowAwaiting S q epoch r payloads := by
  cases h with
  | nil => exact .idle hin hp hbuf
  | cons hC hs =>
    subst hp
    have hbs := (hS.keys epoch).blocksize
    have hmin := (hC.length_packet (hS.keys epoch)).1
    refine .within (k := 0) hC ⟨by omega, hin, .inl ⟨by omega, rfl, ?_⟩⟩ hs
    exact hbuf.imp (fun h => ⟨h, rfl⟩) id

/-- A packet is put at the end. -/
theorem FlowAwaiting.concat (hS : S.Shared Match) (h : FlowAwaiting S q epoch r payloads)
    (hC : Carries (S.keys q.epoch) q.seq q.cipher payload packet sealed dm d') :
    FlowAwaiting S (S.advance payload ⟨q.epoch, q.seq, d'⟩) epoch (r.later packet)
      (payloads ++ [payload]) := by
  cases h with
  | idle hin hq hbuf =>
    subst hq
    refine (Flow.nil _).concat hC |>.awaiting hS rfl hbuf ?_
    change r.incoming ++ packet = [] ++ packet
    rw [hin]
  | within hC' hr hlater =>
    refine .within hC' ⟨hr.lt, ?_, hr.readbuf⟩ (hlater.concat hC)
    change r.incoming ++ packet = _
    rw [hr.incoming, List.append_assoc]

/-- Nothing is on its way when all payloads have been taken. -/
theorem FlowAwaiting.incoming_eq_nil (h : FlowAwaiting S q epoch r payloads) :
    r.incoming = [] ↔ payloads = [] := by
  cases h with
  | idle hin _ _ => simp only [hin]
  | within hC hr _ =>
    have hlt := hr.lt
    refine ⟨fun hnil => ?_, fun h => (List.cons_ne_nil _ _ h).elim⟩
    have hlen := congrArg List.length (hr.incoming.symm.trans hnil)
    rw [List.length_append, List.length_drop, List.length_nil] at hlen
    omega

end Flows

/-! ### The receiver -/

/-- The receiver and the number of its keys. -/
structure Receiver (σ : Type) where
  reader : PacketReader σ
  /-- How often the keys were changed. -/
  epoch : ℕ

/-- `read_packet`, and `recv_msg_newkeys` when the payload is NEWKEYS. -/
def receive (S : KeySchedule σ) (s : Receiver σ) (first second : SockAnswer) :
    Except Exit (Option Buffer × Receiver σ) := do
  let (got, reader) ← readPacket (S.keys s.epoch) s.reader first second
  match got with
  | none => return (none, ⟨reader, s.epoch⟩)
  | some payload =>
    if packetType payload.rest = sshMsgNewkeys then
      -- `switch_keys`
      return (some payload,
        ⟨{ reader with
            cipher := S.recv (s.epoch + 1), recvseq := S.restart reader.recvseq }, s.epoch + 1⟩)
    else return (some payload, ⟨reader, s.epoch⟩)

section Receiving

variable {S : KeySchedule σ} {Match : ℕ → σ → σ → Prop} {q : Place σ} {s : Receiver σ}
  {rest : Bytes} {payloads : List Bytes}

/-- Bytes that have not arrived can be left out again. -/
theorem exists_later {α : Type} {x : Except Exit (α × PacketReader σ)} {a : α}
    {r : PacketReader σ} (h : x.map (withLater rest) = .ok (a, r)) :
    ∃ r', x = .ok (a, r') ∧ r'.later rest = r := by
  cases x with
  | error e => cases h
  | ok p =>
    cases h
    exact ⟨p.2, rfl, rfl⟩

/-- `read_packet` on the bytes that have arrived, when `rest` is still to come: it goes on with the
packet, or takes the payload of it. -/
theorem readPacket_flow (hS : S.Shared Match)
    (h : FlowAwaiting S q s.epoch (s.reader.later rest) payloads) {first second : SockAnswer}
    (h₁ : first.Delivers) (h₂ : second.Delivers) :
    (∃ r', readPacket (S.keys s.epoch) s.reader first second = .ok (none, r') ∧
      FlowAwaiting S q s.epoch (r'.later rest) payloads) ∨
    ∃ b r' payloads', readPacket (S.keys s.epoch) s.reader first second = .ok (some b, r') ∧
      payloads = b.rest :: payloads' ∧ r'.readbuf = none ∧
      Flow S (S.advance b.rest ⟨s.epoch, s.reader.recvseq, r'.cipher⟩) payloads'
        (r'.incoming ++ rest) q ∧
      r'.recvseq = (s.reader.recvseq + 1) % 2 ^ 32 := by
  obtain ⟨first', second', h₁', h₂', hlater⟩ :=
    readPacket_later (S.keys s.epoch) s.reader rest h₁ h₂
  cases h with
  | idle hin hq hbuf =>
    obtain ⟨b, hok, hb⟩ := readPacket_idle (hS.keys s.epoch) hin hbuf h₁' second'
    obtain ⟨r', hr', heq⟩ := exists_later (hlater.symm.trans hok)
    refine .inl ⟨r', hr', ?_⟩
    rw [heq]
    exact .idle hin hq (.inr ⟨b, rfl, hb⟩)
  | within hC hr hs =>
    obtain ⟨got, r₁, hok, hstep⟩ := readPacket_reading (hS.keys s.epoch) hC hr h₁' h₂'
    obtain ⟨r', hr', rfl⟩ := exists_later (hlater.symm.trans hok)
    cases hstep with
    | more hk hprogress hseq hreading =>
      refine .inl ⟨r', hr', .within (by rwa [hseq]) hreading ?_⟩
      rw [hseq]
      exact hs
    | done hb hbuf hseq hcipher hin =>
      refine .inr ⟨_, r', _, hr', by rw [hb], hbuf, ?_, hseq⟩
      change r'.cipher = _ at hcipher
      change r'.incoming ++ rest = _ at hin
      rw [hb, hcipher, hin]
      exact hs

/-- **A call of the receiver** takes the next payload, or none, and does not exit. -/
theorem receive_awaiting (hS : S.Shared Match)
    (h : FlowAwaiting S q s.epoch (s.reader.later rest) payloads) {first second : SockAnswer}
    (h₁ : first.Delivers) (h₂ : second.Delivers) :
    ∃ got s' payloads', receive S s first second = .ok (got, s') ∧
      payloads = payloadsOf got ++ payloads' ∧
      FlowAwaiting S q s'.epoch (s'.reader.later rest) payloads' := by
  unfold receive
  rcases readPacket_flow hS h h₁ h₂ with ⟨r', hok, h'⟩ |
    ⟨b, r', payloads', hok, rfl, hbuf, hs, hseq⟩
  · rw [hok, ok_bind]
    exact ⟨none, _, payloads, rfl, rfl, h'⟩
  · rw [hok, ok_bind]
    dsimp only
    by_cases hnew : packetType b.rest = sshMsgNewkeys
    · rw [if_pos hnew]
      refine ⟨some b, _, payloads', rfl, rfl, hs.awaiting hS ?_ (.inl hbuf) rfl⟩
      rw [KeySchedule.advance_newkeys hnew, ← hseq]
      rfl
    · rw [if_neg hnew]
      refine ⟨some b, _, payloads', rfl, rfl, hs.awaiting hS ?_ (.inl hbuf) rfl⟩
      rw [KeySchedule.advance_other hnew, ← hseq]
      rfl

/-- With a byte in every read, and nothing else on the way, fewer bytes are left. -/
theorem receive_progress (hS : S.Shared Match) (h : FlowAwaiting S q s.epoch s.reader payloads)
    {first second : SockAnswer} (h₁ : first.Offers) (h₂ : second.Offers)
    (hne : s.reader.incoming ≠ []) :
    ∃ got s', receive S s first second = .ok (got, s') ∧
      s'.reader.incoming.length < s.reader.incoming.length := by
  cases h with
  | idle hin hq hbuf => exact absurd hin hne
  | within hC hr hs =>
    have hlt := hr.lt
    obtain ⟨got, r₁, hok, hstep⟩ :=
      readPacket_reading (hS.keys s.epoch) hC hr h₁.delivers h₂.delivers
    unfold receive
    rw [hok, ok_bind, hr.incoming, List.length_append, List.length_drop]
    cases hstep with
    | more hk hprogress hseq hreading =>
      have hless := hprogress ⟨h₁, h₂⟩
      have hlt' := hreading.lt
      refine ⟨none, _, rfl, ?_⟩
      rw [hreading.incoming, List.length_append, List.length_drop]
      omega
    | done hb hbuf hseq hcipher hin =>
      dsimp only
      split_ifs with hnew
      · exact ⟨_, _, rfl, by dsimp only; rw [hin]; omega⟩
      · exact ⟨_, _, rfl, by dsimp only; rw [hin]; omega⟩

end Receiving

end Ps4Dropbear
