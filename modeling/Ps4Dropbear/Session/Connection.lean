import Ps4Dropbear.Session.Flow
import Ps4Dropbear.Session.WriteQueue

/-!
# One direction of a connection

Everything between a call of `encrypt_packet` at one end and the payload that `process_packet` gets
at the other: the reply queue, the write queue, the socket, `read_packet`, and on both sides the
change of keys behind NEWKEYS.  The two ends and the network take their steps in any order; the
writes and the reads take any number of bytes.

* `Direction`, `Direction.call` : the state, and the functions of the source as its steps.
* `Direction.Holds` : what is sent and has not been received is on its way.
* `Direction.Holds.call` : a step keeps this, and exits only for what `writev` returns.
* `direction_fifo` : **the payloads arrive once and in order**, over any number of key changes.
-/

namespace Ps4Dropbear

variable {σ : Type}

/-- The two ends, with the bytes in the network at the receiver's `incoming`, and the payloads so
far. -/
structure Direction (σ : Type) where
  writer : PacketWriter σ
  /-- How often `ses.keys->trans` was changed. -/
  transEpoch : ℕ
  writes : WriteState
  receiver : Receiver σ
  /-- The payloads of the packets in the order in which they were made. -/
  sent : List Bytes
  /-- The payloads for `process_packet`. -/
  got : List Bytes

/-- A call at one of the ends.  The random bytes and the address of the new link come with it. -/
inductive DirectionCall where
  /-- `encrypt_packet`. -/
  | send (payload : Bytes) (noise : ℕ → UInt8) (newlink : ℕ)
  /-- `send_msg_kexinit`. -/
  | kexinit (payload : Bytes) (noise : ℕ → UInt8) (newlink : ℕ)
  /-- `send_msg_newkeys`. -/
  | newkeys (noise : ℕ → UInt8) (newlink : ℕ)
  /-- `maybe_flush_reply_queue`. -/
  | flush (draws : List ((ℕ → UInt8) × ℕ))
  /-- `write_packet`. -/
  | write (written : WritevResult)
  /-- `read_packet`. -/
  | read (first second : SockAnswer)

/-- The payload of NEWKEYS. -/
def newkeysPayload : Bytes := [UInt8.ofNat sshMsgNewkeys]

namespace Direction

/-- A direction of a new session. -/
def start (S : KeySchedule σ) : Direction σ where
  writer := { transseq := 0, cipher := S.trans 0 }
  transEpoch := 0
  writes := WriteState.start
  receiver := ⟨{ recvseq := 0, cipher := S.recv 0, incoming := [] }, 0⟩
  sent := []
  got := []

variable (S : KeySchedule σ)

/-- `encrypt_packet`, with `writebuf_enqueue` at its end. -/
def transmit (c : Direction σ) (payload : Bytes) (noise : ℕ → UInt8) (newlink : ℕ) :
    Except Exit (Direction σ) := do
  let (packet, writer) ← encryptPacket (S.keys c.transEpoch) c.writer payload noise
  match packet with
  | none => return { c with writer := writer }
  | some writebuf =>
    let writes ← c.writes.writebufEnqueue writebuf newlink
    return { c with writer := writer, writes := writes, sent := c.sent ++ [payload] }

/-- `send_msg_kexinit`, as far as it is about sending. -/
def sendMsgKexinit (c : Direction σ) (payload : Bytes) (noise : ℕ → UInt8) (newlink : ℕ) :
    Except Exit (Direction σ) := do
  let c ← c.transmit S payload noise newlink
  return { c with writer := { c.writer with dataallowed := false } }

/-- `send_msg_newkeys`, with `switch_keys`. -/
def sendMsgNewkeys (c : Direction σ) (noise : ℕ → UInt8) (newlink : ℕ) :
    Except Exit (Direction σ) := do
  let c ← c.transmit S newkeysPayload noise newlink
  return { c with
    writer := { c.writer with
      dataallowed := true
      cipher := S.trans (c.transEpoch + 1)
      transseq := S.restart c.writer.transseq }
    transEpoch := c.transEpoch + 1 }

/-- The loop of `maybe_flush_reply_queue`. -/
def flushLoop (c : Direction σ) : List (Bytes × (ℕ → UInt8) × ℕ) → Except Exit (Direction σ)
  | [] => .ok c
  | (payload, noise, newlink) :: items => do
    let c ← c.transmit S payload noise newlink
    c.flushLoop items

/-- `maybe_flush_reply_queue`. -/
def maybeFlushReplyQueue (c : Direction σ) (draws : List ((ℕ → UInt8) × ℕ)) :
    Except Exit (Direction σ) :=
  if !c.writer.dataallowed then .ok c
  else do
    let c ← c.flushLoop S (c.writer.replyQueue.zip draws)
    return { c with writer := { c.writer with replyQueue := [] } }

/-- `write_packet`: what the socket takes is in the network. -/
def write (iovMax : ℕ) (c : Direction σ) (written : WritevResult) :
    Except Exit (Direction σ) := do
  let writes ← c.writes.writePacket iovMax written
  return { c with
    writes := writes
    receiver := { c.receiver with
      reader := c.receiver.reader.later (writes.sent.drop c.writes.sent.length) } }

/-- `read_packet`; `process_packet` gets the payload. -/
def read (c : Direction σ) (first second : SockAnswer) : Except Exit (Direction σ) := do
  let (payload, receiver) ← receive S c.receiver first second
  return { c with receiver := receiver, got := c.got ++ payloadsOf payload }

/-- One call. -/
def call (iovMax : ℕ) (c : Direction σ) : DirectionCall → Except Exit (Direction σ)
  | .send payload noise newlink => c.transmit S payload noise newlink
  | .kexinit payload noise newlink => c.sendMsgKexinit S payload noise newlink
  | .newkeys noise newlink => c.sendMsgNewkeys S noise newlink
  | .flush draws => c.maybeFlushReplyQueue S draws
  | .write written => c.write iovMax written
  | .read first second => c.read S first second

/-- A payload that fits into a packet. -/
def fits (payload : Bytes) : Bool :=
  decide (1 ≤ payload.length ∧ payload.length ≤ transMaxPayloadLen)

/-- The payloads fit, only `send_msg_kexinit` sends KEXINIT and only `send_msg_newkeys` NEWKEYS, no
exchange starts within another, `m_malloc` returns free memory, `writev` takes at most what it is
offered, and the sockets neither fail nor are they closed. -/
def allowed (iovMax : ℕ) (c : Direction σ) : DirectionCall → Bool
  | .send payload _ newlink =>
    fits payload && packetType payload != sshMsgKexinit && packetType payload != sshMsgNewkeys &&
      (c.writes.writequeue.links newlink).isNone
  | .kexinit payload _ newlink =>
    fits payload && packetType payload == sshMsgKexinit && c.writer.dataallowed &&
      (c.writes.writequeue.links newlink).isNone
  | .newkeys _ newlink => (c.writes.writequeue.links newlink).isNone
  | .flush draws =>
    draws.length == c.writer.replyQueue.length && decide (draws.map Prod.snd).Nodup &&
      draws.all fun draw => (c.writes.writequeue.links draw.2).isNone
  | .write written =>
    c.writes.allowed iovMax (.writePacket written) &&
      match written with
      | .failed _ => false
      | .wrote n => n != 0
      | .again => true
  | .read first second => decide (first.Delivers ∧ second.Delivers)

end Direction

namespace DirectionCall

/-- The payload for which a call calls `encrypt_packet` for the first time. -/
def submitted : DirectionCall → List Bytes
  | .send payload _ _ => [payload]
  | .kexinit payload _ _ => [payload]
  | .newkeys _ _ => [newkeysPayload]
  | .flush _ => []
  | .write _ => []
  | .read _ _ => []

/-- The calls that only move what is on its way. -/
def moves : DirectionCall → Bool
  | .write _ => true
  | .read _ _ => true
  | _ => false

end DirectionCall

/-- The direction as a system. -/
def directionUse (S : KeySchedule σ) (iovMax : ℕ) : LTS (Direction σ) DirectionCall where
  step c l := if c.allowed iovMax l then (c.call S iovMax l).toOption else none

namespace Direction

variable {S : KeySchedule σ} {Match : ℕ → σ → σ → Prop} {c c' : Direction σ} {q : Place σ}
  {onWay : List Bytes} {rest payload : Bytes} {newlink iovMax : ℕ}

/-- The payloads `onWay` are on their way, with the bytes `rest` in the write queue; the receiver
will be at `q` when it has got them. -/
structure Flows (S : KeySchedule σ) (Match : ℕ → σ → σ → Prop) (c : Direction σ) (q : Place σ)
    (onWay : List Bytes) (rest : Bytes) : Prop where
  writes : c.writes.Holds (c.writes.sent ++ rest)
  flow : FlowAwaiting S q c.receiver.epoch (c.receiver.reader.later rest) onWay
  epoch : q.epoch = c.transEpoch
  seq : q.seq = c.writer.transseq
  cipher : Match c.transEpoch c.writer.cipher q.cipher
  sent : c.sent = c.got ++ onWay

/-- Nothing for which `encrypt_packet` was called is missing. -/
structure Complete (c : Direction σ) (calls : List Bytes) : Prop where
  perm : (c.sent ++ c.writer.replyQueue).Perm calls
  held : ∀ m ∈ c.writer.replyQueue, fits m = true ∧ packetType m ≠ sshMsgNewkeys

theorem start_flows (hS : S.Shared Match) : (start S).Flows S Match ⟨0, 0, S.recv 0⟩ [] [] where
  writes := WriteState.holds_start
  flow := .idle rfl rfl (.inl rfl)
  epoch := rfl
  seq := rfl
  cipher := hS.start 0
  sent := rfl

theorem start_complete : (start S).Complete [] := ⟨.nil, fun _ hm => (List.not_mem_nil hm).elim⟩

/-! ### Sending -/

theorem encryptPacket_pos {K : KeyContext σ} {s s' : PacketWriter σ} {noise : ℕ → UInt8}
    {b : Buffer} (h : encryptPacket K s payload noise = .ok (some b, s')) : b.pos = 0 := by
  unfold encryptPacket at h
  split_ifs at h with hnil hheld
  · cases h
  · cases h
  · obtain ⟨b₁, -, h⟩ := bind_eq_ok.1 h
    obtain ⟨⟨b₂, cipher⟩, -, h⟩ := bind_eq_ok.1 h
    obtain ⟨b₃, hset, h⟩ := bind_eq_ok.1 h
    cases h
    unfold bufSetpos at hset
    split_ifs at hset
    · cases hset
    · cases hset
      rfl

/-- What a packet in the write queue changes. -/
structure Transmitted (S : KeySchedule σ) (Match : ℕ → σ → σ → Prop) (c c' : Direction σ)
    (q : Place σ) (onWay : List Bytes) (payload : Bytes) (newlink : ℕ) : Prop where
  flows : ∃ rest d, c'.writes.Holds (c'.writes.sent ++ rest) ∧
    FlowAwaiting S (S.advance payload ⟨q.epoch, q.seq, d⟩) c.receiver.epoch
      (c.receiver.reader.later rest) (onWay ++ [payload]) ∧
    Match c.transEpoch c'.writer.cipher d
  transseq : c'.writer.transseq = (c.writer.transseq + 1) % 2 ^ 32
  dataallowed : c'.writer.dataallowed = c.writer.dataallowed
  replyQueue : c'.writer.replyQueue = c.writer.replyQueue
  transEpoch : c'.transEpoch = c.transEpoch
  receiver : c'.receiver = c.receiver
  sent : c'.sent = c.sent ++ [payload]
  got : c'.got = c.got
  links : ∀ a, a ≠ newlink → c.writes.writequeue.links a = none →
    c'.writes.writequeue.links a = none

theorem Flows.transmit (hS : S.Shared Match) (h : c.Flows S Match q onWay rest)
    (hfits : fits payload = true) (hsends : c.writer.sends payload = true)
    (hfree : c.writes.writequeue.links newlink = none) (noise : ℕ → UInt8) :
    ∃ c', c.transmit S payload noise newlink = .ok c' ∧
      Transmitted S Match c c' q onWay payload newlink := by
  obtain ⟨hmin, hmax⟩ := of_decide_eq_true hfits
  obtain ⟨b, s', packet, sealed, dm, d', hok, hb, hC, hseq, hm, hdata, hqueue⟩ :=
    encryptPacket_carries (hS.keys c.transEpoch) h.cipher hmin hmax hsends noise
  have hlen := (hC.length_packet (hS.keys c.transEpoch)).1
  have hbs := (hS.keys c.transEpoch).blocksize
  have hpos := encryptPacket_pos hok
  have hcontents : b.contents = packet := by
    rw [← hb, Buffer.rest, hpos, List.drop_zero]
    rfl
  have hblen : 0 < b.len := by
    rw [← b.length_contents, hcontents]
    omega
  obtain ⟨w, hw, hwrites, hsent, hlinks⟩ := h.writes.writebufEnqueue hblen hfree
  rw [← h.epoch, ← h.seq] at hC
  have hflow := h.flow.concat hS hC
  unfold Direction.transmit
  rw [hok, ok_bind]
  dsimp only
  rw [hw, ok_bind]
  refine ⟨_, rfl, ⟨rest ++ packet, d', ?_, ?_, hm⟩, hseq, hdata, hqueue, rfl, rfl, rfl, rfl, hlinks⟩
  · change w.Holds (w.sent ++ (rest ++ packet))
    rw [hsent, ← List.append_assoc, ← hcontents]
    exact hwrites
  · change FlowAwaiting S _ _ (PacketReader.later (c.receiver.reader.later rest) packet) _ at hflow
    rw [PacketReader.later_later] at hflow
    exact hflow

/-- A payload that is not allowed during an exchange waits. -/
theorem transmit_waits (hfits : fits payload = true) (hwaits : c.writer.sends payload = false)
    (noise : ℕ → UInt8) (newlink : ℕ) :
    c.transmit S payload noise newlink = .ok { c with
      writer := { c.writer with replyQueue := c.writer.replyQueue ++ [payload] } } := by
  have hmin := (of_decide_eq_true hfits).1
  have hne : payload ≠ [] := by
    rintro rfl
    exact absurd hmin (by decide)
  have hheld : (!c.writer.dataallowed && !packetIsOkayKex (packetType payload)) = true := by
    unfold PacketWriter.sends at hwaits
    rw [← Bool.not_or, hwaits]
    rfl
  unfold Direction.transmit encryptPacket
  rw [if_neg hne, if_pos hheld]
  rfl

/-- The place behind a payload that does not change the keys. -/
theorem Transmitted.flows_other (h : c.Flows S Match q onWay rest)
    (ht : Transmitted S Match c c' q onWay payload newlink)
    (hne : packetType payload ≠ sshMsgNewkeys) :
    ∃ q' rest', c'.Flows S Match q' (onWay ++ [payload]) rest' := by
  obtain ⟨rest', d, hwrites, hflow, hm⟩ := ht.flows
  rw [KeySchedule.advance_other hne] at hflow
  refine ⟨⟨q.epoch, (q.seq + 1) % 2 ^ 32, d⟩, rest', hwrites, ?_, ?_, ?_, ?_, ?_⟩
  · rw [ht.receiver]
    exact hflow
  · rw [ht.transEpoch]
    exact h.epoch
  · rw [ht.transseq, ← h.seq]
  · rw [ht.transEpoch]
    exact hm
  · rw [ht.sent, ht.got, h.sent, List.append_assoc]

theorem sends_of_dataallowed (h : c.writer.dataallowed = true) :
    c.writer.sends payload = true := by
  rw [PacketWriter.sends, h, Bool.true_or]

/-- The invariant of a direction, with the payloads for which `encrypt_packet` was called. -/
def Holds (S : KeySchedule σ) (Match : ℕ → σ → σ → Prop) (calls : List Bytes)
    (c : Direction σ) : Prop :=
  (∃ q onWay rest, c.Flows S Match q onWay rest) ∧ c.Complete calls

variable {calls : List Bytes}

/-- `encrypt_packet` for any other payload than NEWKEYS. -/
theorem Holds.transmit (hS : S.Shared Match) (h : c.Holds S Match calls)
    (hfits : fits payload = true) (hne : packetType payload ≠ sshMsgNewkeys)
    (hfree : c.writes.writequeue.links newlink = none) (noise : ℕ → UInt8) :
    ∃ c', c.transmit S payload noise newlink = .ok c' ∧ c'.Holds S Match (calls ++ [payload]) := by
  obtain ⟨⟨q, onWay, rest, hflows⟩, hcomplete⟩ := h
  cases hsends : c.writer.sends payload with
  | true =>
    obtain ⟨c', hok, ht⟩ := hflows.transmit hS hfits hsends hfree noise
    obtain ⟨q', rest', hflows'⟩ := ht.flows_other hflows hne
    refine ⟨c', hok, ⟨q', _, rest', hflows'⟩, ?_, ?_⟩
    · rw [ht.sent, ht.replyQueue, List.append_assoc]
      exact (List.perm_append_comm.append_left c.sent).trans
        (by rw [← List.append_assoc]; exact hcomplete.perm.append_right [payload])
    · rw [ht.replyQueue]
      exact hcomplete.held
  | false =>
    refine ⟨_, transmit_waits hfits hsends noise newlink,
      ⟨q, onWay, rest, hflows.writes, hflows.flow, hflows.epoch, hflows.seq, hflows.cipher,
        hflows.sent⟩, ?_, ?_⟩
    · change (c.sent ++ (c.writer.replyQueue ++ [payload])).Perm _
      rw [← List.append_assoc]
      exact hcomplete.perm.append_right [payload]
    · intro m hm
      rcases List.mem_append.1 hm with hm | hm
      · exact hcomplete.held m hm
      · obtain rfl := List.mem_singleton.1 hm
        exact ⟨hfits, hne⟩

/-- `send_msg_kexinit`. -/
theorem Holds.sendMsgKexinit (hS : S.Shared Match) (h : c.Holds S Match calls)
    (hfits : fits payload = true) (hne : packetType payload ≠ sshMsgNewkeys)
    (hfree : c.writes.writequeue.links newlink = none) (noise : ℕ → UInt8) :
    ∃ c', c.sendMsgKexinit S payload noise newlink = .ok c' ∧
      c'.Holds S Match (calls ++ [payload]) := by
  obtain ⟨c', hok, ⟨q, onWay, rest, hflows⟩, hcomplete⟩ := h.transmit hS hfits hne hfree noise
  unfold Direction.sendMsgKexinit
  rw [hok, ok_bind]
  exact ⟨_, rfl, ⟨q, onWay, rest, hflows.writes, hflows.flow, hflows.epoch, hflows.seq,
    hflows.cipher, hflows.sent⟩, hcomplete.perm, hcomplete.held⟩

/-- `send_msg_newkeys`: the receiver changes its keys behind the same packet. -/
theorem Holds.sendMsgNewkeys (hS : S.Shared Match) (h : c.Holds S Match calls)
    (hfree : c.writes.writequeue.links newlink = none) (noise : ℕ → UInt8) :
    ∃ c', c.sendMsgNewkeys S noise newlink = .ok c' ∧
      c'.Holds S Match (calls ++ [newkeysPayload]) := by
  obtain ⟨⟨q, onWay, rest, hflows⟩, hcomplete⟩ := h
  have hsends : c.writer.sends newkeysPayload = true := Bool.or_eq_true_iff.2 (.inr rfl)
  obtain ⟨c', hok, ht⟩ := hflows.transmit hS rfl hsends hfree noise
  obtain ⟨rest', d, hwrites, hflow, -⟩ := ht.flows
  rw [KeySchedule.advance_newkeys rfl] at hflow
  unfold Direction.sendMsgNewkeys
  rw [hok, ok_bind]
  refine ⟨_, rfl, ⟨⟨q.epoch + 1, S.restart ((q.seq + 1) % 2 ^ 32), S.recv (q.epoch + 1)⟩,
    onWay ++ [newkeysPayload], rest', hwrites, ?_, ?_, ?_, ?_, ?_⟩, ?_, ?_⟩
  · change FlowAwaiting S _ c'.receiver.epoch (c'.receiver.reader.later rest') _
    rw [ht.receiver]
    exact hflow
  · change q.epoch + 1 = c'.transEpoch + 1
    rw [ht.transEpoch, hflows.epoch]
  · change S.restart ((q.seq + 1) % 2 ^ 32) = S.restart c'.writer.transseq
    rw [ht.transseq, hflows.seq]
  · change Match (c'.transEpoch + 1) (S.trans (c'.transEpoch + 1)) (S.recv (q.epoch + 1))
    rw [ht.transEpoch, hflows.epoch]
    exact hS.start _
  · change c'.sent = c'.got ++ (onWay ++ [newkeysPayload])
    rw [ht.sent, ht.got, hflows.sent, List.append_assoc]
  · change (c'.sent ++ c'.writer.replyQueue).Perm _
    rw [ht.sent, ht.replyQueue, List.append_assoc]
    exact (List.perm_append_comm.append_left c.sent).trans
      (by rw [← List.append_assoc]; exact hcomplete.perm.append_right [newkeysPayload])
  · change ∀ m ∈ c'.writer.replyQueue, _
    rw [ht.replyQueue]
    exact hcomplete.held

/-- The loop of `maybe_flush_reply_queue`, with a link of its own for every packet. -/
theorem Flows.flushLoop (hS : S.Shared Match) (items : List (Bytes × (ℕ → UInt8) × ℕ))
    (h : c.Flows S Match q onWay rest) (hdata : c.writer.dataallowed = true)
    (hitems : ∀ i ∈ items, fits i.1 = true ∧ packetType i.1 ≠ sshMsgNewkeys)
    (hnodup : (items.map fun i => i.2.2).Nodup)
    (hfree : ∀ i ∈ items, c.writes.writequeue.links i.2.2 = none) :
    ∃ c' q' onWay' rest', c.flushLoop S items = .ok c' ∧ c'.Flows S Match q' onWay' rest' ∧
      c'.sent = c.sent ++ items.map Prod.fst := by
  induction items generalizing c q onWay rest with
  | nil => exact ⟨c, q, onWay, rest, rfl, h, (List.append_nil _).symm⟩
  | cons i items ih =>
    obtain ⟨payload, noise, newlink⟩ := i
    rw [List.map_cons, List.nodup_cons] at hnodup
    obtain ⟨hfits, hne⟩ := hitems _ List.mem_cons_self
    obtain ⟨c₁, hok, ht⟩ := h.transmit hS hfits (sends_of_dataallowed hdata)
      (hfree _ List.mem_cons_self) noise
    obtain ⟨q₁, rest₁, h₁⟩ := ht.flows_other h hne
    obtain ⟨c₂, q₂, onWay₂, rest₂, hok₂, h₂, hsent₂⟩ := ih h₁ (ht.dataallowed.trans hdata)
      (fun j hj => hitems j (List.mem_cons_of_mem _ hj)) hnodup.2 fun j hj => ht.links _
        (fun heq => hnodup.1 (heq ▸ List.mem_map.2 ⟨j, hj, rfl⟩))
        (hfree j (List.mem_cons_of_mem _ hj))
    refine ⟨c₂, q₂, onWay₂, rest₂, ?_, h₂, ?_⟩
    · rw [Direction.flushLoop, hok, ok_bind, hok₂]
    · rw [hsent₂, ht.sent, List.append_assoc]
      rfl

/-- `maybe_flush_reply_queue`. -/
theorem Holds.maybeFlushReplyQueue (hS : S.Shared Match) (h : c.Holds S Match calls)
    {draws : List ((ℕ → UInt8) × ℕ)} (hlen : draws.length = c.writer.replyQueue.length)
    (hnodup : (draws.map Prod.snd).Nodup)
    (hfree : ∀ draw ∈ draws, c.writes.writequeue.links draw.2 = none) :
    ∃ c', c.maybeFlushReplyQueue S draws = .ok c' ∧ c'.Holds S Match calls := by
  unfold Direction.maybeFlushReplyQueue
  cases hdata : c.writer.dataallowed with
  | false => exact ⟨c, rfl, h⟩
  | true =>
    obtain ⟨⟨q, onWay, rest, hflows⟩, hcomplete⟩ := h
    have hlinks : (c.writer.replyQueue.zip draws).map (fun i => i.2.2) = draws.map Prod.snd :=
      calc (c.writer.replyQueue.zip draws).map (fun i => i.2.2)
        _ = ((c.writer.replyQueue.zip draws).map Prod.snd).map Prod.snd := List.map_map.symm
        _ = draws.map Prod.snd := by rw [List.map_snd_zip (Nat.le_of_eq hlen)]
    obtain ⟨c', q', onWay', rest', hok, hflows', hsent⟩ :=
      hflows.flushLoop hS (c.writer.replyQueue.zip draws) hdata
        (fun i hi => hcomplete.held _ (List.of_mem_zip hi).1) (by rwa [hlinks])
        (fun i hi => hfree _ (List.of_mem_zip hi).2)
    rw [List.map_fst_zip (Nat.le_of_eq hlen.symm)] at hsent
    rw [Bool.not_true, if_neg Bool.false_ne_true, hok, ok_bind]
    refine ⟨_, rfl, ⟨q', onWay', rest', hflows'.writes, hflows'.flow, hflows'.epoch, hflows'.seq,
      hflows'.cipher, hflows'.sent⟩, ?_, fun m hm => (List.not_mem_nil hm).elim⟩
    change (c'.sent ++ []).Perm calls
    rw [List.append_nil, hsent]
    exact hcomplete.perm

/-! ### The network and the receiver -/

/-- What the socket has taken stays. -/
theorem writePacket_sent {s s' : WriteState} {written : WritevResult}
    (h : WriteState.writePacket iovMax s written = .ok s') : s.sent <+: s'.sent := by
  unfold WriteState.writePacket at h
  split_ifs at h with hempty
  · cases h
  · obtain ⟨iov, -, h⟩ := bind_eq_ok.1 h
    cases written with
    | again =>
      cases h
      exact List.prefix_rfl
    | failed err => cases h
    | wrote n =>
      obtain ⟨queue, -, h⟩ := bind_eq_ok.1 h
      split_ifs at h
      · cases h
      · cases h
        exact List.prefix_append _ _

/-- `write_packet` moves bytes from the write queue into the network. -/
theorem Holds.write {written : WritevResult} (h : c.Holds S Match calls)
    (hallowed : c.allowed iovMax (.write written) = true) :
    ∃ c', c.write iovMax written = .ok c' ∧ c'.Holds S Match calls ∧ c'.sent = c.sent ∧
      c'.got = c.got ∧
      WriteState.writePacket iovMax c.writes written = .ok c'.writes := by
  obtain ⟨⟨q, onWay, rest, hflows⟩, hcomplete⟩ := h
  unfold allowed at hallowed
  rw [Bool.and_eq_true] at hallowed
  obtain ⟨s', hok, hs'⟩ : ∃ s', WriteState.writePacket iovMax c.writes written = .ok s' ∧
      s'.Holds (c.writes.sent ++ rest) := by
    rcases hflows.writes.writePacket hallowed.1 with hgo | ⟨rfl, -⟩ | ⟨err, rfl, -⟩
    · exact hgo
    · cases hallowed.2
    · cases hallowed.2
  obtain ⟨taken, htaken⟩ := writePacket_sent hok
  have hdrop : s'.sent.drop c.writes.sent.length = taken := by rw [← htaken, List.drop_left]
  obtain ⟨packets, hqueue, hpending, hsent, hcount⟩ := hs'
  rw [← htaken, List.append_assoc, List.append_cancel_left_eq] at hsent
  unfold Direction.write
  rw [hok, ok_bind, hdrop]
  refine ⟨_, rfl, ⟨⟨q, onWay, unwritten packets, ⟨packets, hqueue, hpending, rfl, hcount⟩, ?_,
    hflows.epoch, hflows.seq, hflows.cipher, hflows.sent⟩, hcomplete.perm, hcomplete.held⟩,
    rfl, rfl, rfl⟩
  change FlowAwaiting S q c.receiver.epoch
    ((c.receiver.reader.later taken).later (unwritten packets)) onWay
  rw [PacketReader.later_later, hsent]
  exact hflows.flow

theorem read_of_receive {first second : SockAnswer} {got : Option Buffer} {s' : Receiver σ}
    (h : receive S c.receiver first second = .ok (got, s')) :
    c.read S first second = .ok { c with receiver := s', got := c.got ++ payloadsOf got } := by
  unfold Direction.read
  rw [h]
  rfl

/-- `read_packet`, on what has arrived. -/
theorem Holds.read (hS : S.Shared Match) (h : c.Holds S Match calls) {first second : SockAnswer}
    (h₁ : first.Delivers) (h₂ : second.Delivers) :
    ∃ c', c.read S first second = .ok c' ∧ c'.Holds S Match calls := by
  obtain ⟨⟨q, onWay, rest, hflows⟩, hcomplete⟩ := h
  obtain ⟨got, s', onWay', hok, rfl, hflow⟩ := receive_awaiting hS hflows.flow h₁ h₂
  refine ⟨_, read_of_receive hok, ⟨q, onWay', rest, hflows.writes, hflow, hflows.epoch, hflows.seq,
    hflows.cipher, ?_⟩, hcomplete.perm, hcomplete.held⟩
  change c.sent = c.got ++ payloadsOf got ++ onWay'
  rw [hflows.sent, List.append_assoc]

/-- **One call** goes on, and keeps the invariant. -/
theorem Holds.call (hS : S.Shared Match) (h : c.Holds S Match calls) {l : DirectionCall}
    (hallowed : c.allowed iovMax l = true) :
    ∃ c', c.call S iovMax l = .ok c' ∧ c'.Holds S Match (calls ++ l.submitted) := by
  cases l with
  | send payload noise newlink =>
    simp only [allowed, Bool.and_eq_true, bne_iff_ne, ne_eq, Option.isNone_iff_eq_none] at hallowed
    obtain ⟨⟨⟨hfits, -⟩, hne⟩, hfree⟩ := hallowed
    exact h.transmit hS hfits hne hfree noise
  | kexinit payload noise newlink =>
    simp only [allowed, Bool.and_eq_true, beq_iff_eq, Option.isNone_iff_eq_none] at hallowed
    obtain ⟨⟨⟨hfits, htype⟩, -⟩, hfree⟩ := hallowed
    exact h.sendMsgKexinit hS hfits (by rw [htype]; decide) hfree noise
  | newkeys noise newlink =>
    simp only [allowed, Option.isNone_iff_eq_none] at hallowed
    exact h.sendMsgNewkeys hS hallowed noise
  | flush draws =>
    simp only [allowed, Bool.and_eq_true, beq_iff_eq, decide_eq_true_eq, List.all_eq_true,
      Option.isNone_iff_eq_none] at hallowed
    obtain ⟨⟨hlen, hnodup⟩, hfree⟩ := hallowed
    rw [DirectionCall.submitted, List.append_nil]
    exact h.maybeFlushReplyQueue hS hlen hnodup hfree
  | write written =>
    obtain ⟨c', hok, hc', -⟩ := h.write hallowed
    rw [DirectionCall.submitted, List.append_nil]
    exact ⟨c', hok, hc'⟩
  | read first second =>
    obtain ⟨h₁, h₂⟩ := of_decide_eq_true hallowed
    rw [DirectionCall.submitted, List.append_nil]
    exact h.read hS h₁ h₂

theorem Holds.step (hS : S.Shared Match) (h : c.Holds S Match calls) {l : DirectionCall}
    (hstep : (directionUse S iovMax).step c l = some c') :
    c'.Holds S Match (calls ++ l.submitted) := by
  unfold directionUse at hstep
  dsimp only at hstep
  split_ifs at hstep with hallowed
  obtain ⟨c'', hok, hc''⟩ := h.call hS hallowed
  rw [toOption_eq_some.1 hstep] at hok
  cases hok
  exact hc''

theorem Holds.run (hS : S.Shared Match) {ls : List DirectionCall} (h : c.Holds S Match calls)
    (hrun : (directionUse S iovMax).exec c ls = some c') :
    c'.Holds S Match (calls ++ ls.flatMap DirectionCall.submitted) := by
  induction ls generalizing c calls with
  | nil =>
    cases hrun
    rwa [List.flatMap_nil, List.append_nil]
  | cons l ls ih =>
    obtain ⟨c₁, hstep, hrest⟩ := LTS.exec_cons_eq_some.1 hrun
    have hend := ih (h.step hS hstep) hrest
    rwa [List.append_assoc, ← List.flatMap_cons] at hend

/-! ### Everything arrives -/

theorem length_consume_le (packets : List Buffer) (n : ℕ) :
    (consume packets n).length ≤ packets.length := by
  induction packets generalizing n with
  | nil => exact Nat.le_refl 0
  | cons packet packets ih =>
    unfold consume
    split_ifs
    · exact Nat.le_refl _
    · exact Nat.le_refl _
    · exact (ih _).trans (Nat.le_succ _)

/-- `write_packet` takes what has been written off the queue. -/
theorem writePacket_consume {s s' : WriteState} {packets : List Buffer} {n : ℕ}
    (hqueue : s.writequeue.Holds packets) (hpending : ∀ b ∈ packets, Buffer.Pending b)
    (hn : n ≤ (unwritten packets).length)
    (h : WriteState.writePacket iovMax s (.wrote n) = .ok s') :
    s'.writequeue.Holds (consume packets n) := by
  obtain ⟨queue, hok, hqueue'⟩ := packetQueueConsume_holds hqueue hpending hn
  unfold WriteState.writePacket at h
  split_ifs at h with hempty
  · cases h
  · obtain ⟨iov, -, h⟩ := bind_eq_ok.1 h
    dsimp only at h
    rw [hok, ok_bind] at h
    split_ifs at h
    · cases h
    · cases h
      exact hqueue'

/-- A byte can be written when a packet is in the queue. -/
theorem allowed_write_one {packets : List Buffer} (hiov : 0 < iovMax)
    (hqueue : c.writes.writequeue.Holds packets) (hpending : ∀ b ∈ packets, Buffer.Pending b)
    (hsmall : packets.length < 2 ^ 32) (hne : packets ≠ []) :
    c.allowed iovMax (.write (.wrote 1)) = true := by
  have hcount : c.writes.writequeue.count = packets.length := by
    obtain ⟨l, rfl, -, -, -, hcount⟩ := hqueue
    exact hcount.trans (Nat.mod_eq_of_lt hsmall)
  have hempty : c.writes.writequeue.isempty = false := by
    rw [hqueue.isempty_iff]
    exact List.isEmpty_eq_false_iff.2 hne
  obtain ⟨packet, packets, rfl⟩ := List.exists_cons_of_ne_nil hne
  have hpacket : packet.pos < packet.len := hpending packet List.mem_cons_self
  have hlen := packet.length_rest
  have hk : min (min c.writes.writequeue.count iovMax) 50 =
      min (min packets.length (iovMax - 1)) 49 + 1 := by
    rw [hcount, List.length_cons]
    omega
  have hoffered : (packetQueueToIovec iovMax c.writes.writequeue 50).toOption.all
      (1 ≤ ·.flatten.length) = true := by
    rw [packetQueueToIovec_holds hqueue hpending, hk, List.take_succ_cons, List.map_cons]
    refine decide_eq_true ?_
    rw [List.flatten_cons, List.length_append]
    omega
  unfold allowed WriteState.allowed
  rw [hempty]
  exact Bool.and_eq_true_iff.2 ⟨Bool.and_eq_true_iff.2 ⟨rfl, hoffered⟩, rfl⟩

theorem step_of_call {l : DirectionCall} (hallowed : c.allowed iovMax l = true)
    (hok : c.call S iovMax l = .ok c') : (directionUse S iovMax).step c l = some c' :=
  (if_pos hallowed).trans (toOption_eq_some.2 hok)

/-- The write queue can be emptied into the network. -/
theorem Holds.drainWrites (hiov : 0 < iovMax) (n : ℕ) {packets : List Buffer}
    (h : c.Holds S Match calls) (hqueue : c.writes.writequeue.Holds packets)
    (hpending : ∀ b ∈ packets, Buffer.Pending b) (hsmall : packets.length < 2 ^ 32)
    (hn : (unwritten packets).length ≤ n) :
    ∃ (ms : List DirectionCall) (c' : Direction σ),
      (directionUse S iovMax).exec c ms = some c' ∧ c'.Holds S Match calls ∧
      c'.sent = c.sent ∧ c'.writes.writequeue.Holds [] ∧ ∀ m ∈ ms, m.moves = true := by
  induction n generalizing c packets with
  | zero =>
    have hle := length_le_unwritten hpending
    obtain rfl : packets = [] := List.length_eq_zero_iff.1 (by omega)
    exact ⟨[], c, rfl, h, rfl, hqueue, fun _ hm => (List.not_mem_nil hm).elim⟩
  | succ n ih =>
    by_cases hnil : packets = []
    · exact ⟨[], c, rfl, h, rfl, hnil ▸ hqueue, fun _ hm => (List.not_mem_nil hm).elim⟩
    have hallowed := allowed_write_one hiov hqueue hpending hsmall hnil
    obtain ⟨c₁, hok, h₁, hsent₁, -, hwrites₁⟩ := h.write hallowed
    have hone : 1 ≤ (unwritten packets).length := by
      have hle := length_le_unwritten hpending
      have hpos := List.length_pos_iff.2 hnil
      omega
    have hlen₁ := length_consume_le packets 1
    obtain ⟨ms, c₂, hrun, h₂, hsent₂, hempty, hmoves⟩ := ih h₁
      (writePacket_consume hqueue hpending hone hwrites₁) (consume_pending hpending) (by omega)
      (by rw [unwritten_consume hone, List.length_drop]; omega)
    exact ⟨.write (.wrote 1) :: ms, c₂,
      LTS.exec_cons_eq_some.2 ⟨c₁, step_of_call hallowed hok, hrun⟩, h₂,
      hsent₂.trans hsent₁, hempty, List.forall_mem_cons.2 ⟨rfl, hmoves⟩⟩

/-- What is in the write queue has these bytes. -/
theorem Flows.rest_eq (h : c.Flows S Match q onWay rest) :
    ∃ packets, c.writes.writequeue.Holds packets ∧ (∀ b ∈ packets, Buffer.Pending b) ∧
      rest = unwritten packets := by
  obtain ⟨packets, hqueue, hpending, hsent, -⟩ := h.writes
  exact ⟨packets, hqueue, hpending, (List.append_cancel_left hsent).symm⟩

/-- With an empty write queue, everything is in the network. -/
theorem Flows.rest_nil (h : c.Flows S Match q onWay rest)
    (hqueue : c.writes.writequeue.Holds []) : rest = [] := by
  obtain ⟨packets, hqueue', -, rfl⟩ := h.rest_eq
  have hempty : packets.isEmpty = true := hqueue'.isempty_iff.symm.trans hqueue.isempty_iff
  rw [List.isEmpty_iff.1 hempty]
  rfl

theorem Flows.onWay_nil (h : c.Flows S Match q onWay rest) :
    c.receiver.reader.incoming ++ rest = [] ↔ onWay = [] :=
  h.flow.incoming_eq_nil

/-- When nothing is left to read, everything has arrived. -/
theorem Holds.read_all (h : c.Holds S Match calls) (hqueue : c.writes.writequeue.Holds [])
    (hnil : c.receiver.reader.incoming = []) :
    ∃ (ms : List DirectionCall) (c' : Direction σ),
      (directionUse S iovMax).exec c ms = some c' ∧ c'.got = c.sent ∧
      ∀ m ∈ ms, m.moves = true := by
  obtain ⟨⟨q, onWay, rest, hflows⟩, -⟩ := h
  have honWay : onWay = [] := by
    rw [← hflows.onWay_nil, hflows.rest_nil hqueue, hnil]
    rfl
  have hsent := hflows.sent
  rw [honWay, List.append_nil] at hsent
  exact ⟨[], c, rfl, hsent.symm, fun _ hm => (List.not_mem_nil hm).elim⟩

/-- With the write queue empty, the receiver can read all that is in the network. -/
theorem Holds.drainReads (hS : S.Shared Match) (n : ℕ) (h : c.Holds S Match calls)
    (hqueue : c.writes.writequeue.Holds []) (hn : c.receiver.reader.incoming.length ≤ n) :
    ∃ (ms : List DirectionCall) (c' : Direction σ),
      (directionUse S iovMax).exec c ms = some c' ∧ c'.got = c.sent ∧
      ∀ m ∈ ms, m.moves = true := by
  induction n generalizing c with
  | zero => exact h.read_all hqueue (List.length_eq_zero_iff.1 (by omega))
  | succ n ih =>
    by_cases hnil : c.receiver.reader.incoming = []
    · exact h.read_all hqueue hnil
    have hallowed : c.allowed iovMax (.read (.upTo 1) (.upTo 1)) = true := rfl
    have hone : (SockAnswer.upTo 1).Delivers := trivial
    have hoffer : (SockAnswer.upTo 1).Offers := Nat.one_pos
    obtain ⟨c₁, hok, h₁⟩ := h.read hS hone hone
    obtain ⟨⟨q, onWay, rest, hflows⟩, -⟩ := h
    have hflow := hflows.flow
    rw [hflows.rest_nil hqueue, PacketReader.later_nil] at hflow
    obtain ⟨got, s', hok', hless⟩ := receive_progress hS hflow hoffer hoffer hnil
    have hread := read_of_receive (c := c) hok'
    obtain rfl := Except.ok.inj (hread.symm.trans hok)
    obtain ⟨ms, c₂, hrun, hgot, hmoves⟩ := ih h₁ hqueue (Nat.le_of_lt_succ (hless.trans_le hn))
    exact ⟨.read (.upTo 1) (.upTo 1) :: ms, c₂,
      LTS.exec_cons_eq_some.2 ⟨_, step_of_call hallowed hread, hrun⟩, hgot,
      List.forall_mem_cons.2 ⟨rfl, hmoves⟩⟩

end Direction

/-- **A direction of a connection is a queue**, over any number of key exchanges: in every run, of
the ends and the network in any order, the payloads that have been received are the first of those
sent, and none for which `encrypt_packet` was called is missing; all have arrived when nothing is in
the write queue or the network, and then both ends have the same keys and sequence number.  No call
exits, and what is on its way can still arrive.  The number of packets in the write queue has to fit
into its `count`. -/
theorem direction_fifo {S : KeySchedule σ} {Match : ℕ → σ → σ → Prop} {iovMax : ℕ}
    {c : Direction σ} {ls : List DirectionCall} (hS : S.Shared Match) (hiov : 0 < iovMax)
    (hrun : (directionUse S iovMax).exec (Direction.start S) ls = some c) :
    ∃ (onWay : List Bytes) (packets : List Buffer),
      c.sent = c.got ++ onWay ∧ c.writes.writequeue.Holds packets ∧
      (c.sent ++ c.writer.replyQueue).Perm (ls.flatMap DirectionCall.submitted) ∧
      (onWay = [] ↔ c.receiver.reader.incoming = [] ∧ packets = []) ∧
      (onWay = [] → c.receiver.epoch = c.transEpoch ∧
        c.receiver.reader.recvseq = c.writer.transseq ∧
        Match c.transEpoch c.writer.cipher c.receiver.reader.cipher) ∧
      (∀ l : DirectionCall, c.allowed iovMax l = true → ∃ c', c.call S iovMax l = Except.ok c') ∧
      (packets.length < 2 ^ 32 → ∃ (ms : List DirectionCall) (c' : Direction σ),
        (∀ m ∈ ms, m.moves = true) ∧
        (directionUse S iovMax).exec c ms = some c' ∧ c'.got = c.sent) := by
  have h : c.Holds S Match (ls.flatMap DirectionCall.submitted) :=
    Direction.Holds.run hS ⟨⟨_, _, _, Direction.start_flows hS⟩, Direction.start_complete⟩ hrun
  obtain ⟨⟨q, onWay, rest, hflows⟩, hcomplete⟩ := h
  obtain ⟨packets, hqueue, hpending, rfl⟩ := hflows.rest_eq
  have hends : onWay = [] ↔ c.receiver.reader.incoming = [] ∧ packets = [] := by
    rw [← hflows.onWay_nil, List.append_eq_nil_iff]
    refine and_congr_right fun _ => ⟨fun hnil => ?_, fun hnil => by rw [hnil]; rfl⟩
    have hle := length_le_unwritten hpending
    rw [hnil] at hle
    exact List.length_eq_zero_iff.1 (Nat.le_zero.1 hle)
  refine ⟨onWay, packets, hflows.sent, hqueue, hcomplete.perm, hends, ?_, ?_, ?_⟩
  · rintro rfl
    have hflow := hflows.flow
    cases hflow with
    | idle hin hq hbuf =>
      have hepoch := hflows.epoch
      have hseq := hflows.seq
      have hcipher := hflows.cipher
      subst hq
      exact ⟨hepoch, hseq, hcipher⟩
  · intro l hallowed
    obtain ⟨c', hok, -⟩ :=
      Direction.Holds.call hS ⟨⟨q, onWay, _, hflows⟩, hcomplete⟩ hallowed
    exact ⟨c', hok⟩
  · intro hsmall
    obtain ⟨ms, c₁, hrun₁, h₁, hsent, hempty, hmoves⟩ := Direction.Holds.drainWrites hiov _
      ⟨⟨q, onWay, _, hflows⟩, hcomplete⟩ hqueue hpending hsmall (Nat.le_refl _)
    obtain ⟨ms', c₂, hrun₂, hgot, hmoves'⟩ := h₁.drainReads hS _ hempty (Nat.le_refl _)
    refine ⟨ms ++ ms', c₂, List.forall_mem_append.2 ⟨hmoves, hmoves'⟩,
      LTS.exec_append_eq_some.2 ⟨c₁, hrun₁, hrun₂⟩, hgot.trans hsent⟩

/-- Counter mode, with another first counter after every exchange. -/
def addSchedule : KeySchedule (SymmetricCTR addCipher) where
  keys _ := addKeys
  trans e := addStart addKey ⟨ubinBytes 8 e, length_ubinBytes 8 e⟩
  recv e := addStart addKey ⟨ubinBytes 8 e, length_ubinBytes 8 e⟩
  strict := true

theorem addSchedule_shared : addSchedule.Shared fun _ => InStep :=
  ⟨fun _ => addKeys_shared, fun _ => addStart_inStep _ _⟩

/-- A message before NEWKEYS and one behind it, of which the first has been received. -/
theorem direction_fifo_add :
    ∃ c, (directionUse addSchedule 1024).exec (Direction.start addSchedule)
        [.send [5, 1] (fun _ => 0) 0, .newkeys (fun _ => 0) 1, .send [6] (fun _ => 9) 2,
          .write (.wrote 25), .write (.wrote 35), .read (.upTo 7) (.upTo 9),
          .read (.upTo 7) (.upTo 9), .read (.upTo 7) (.upTo 9)] = some c ∧
      c.got = [[5, 1]] ∧ c.receiver.epoch = 0 ∧ c.sent = c.got ++ [newkeysPayload, [6]] ∧
      ∃ (ms : List DirectionCall) (c' : Direction (SymmetricCTR addCipher)),
        (∀ m ∈ ms, m.moves = true) ∧ (directionUse addSchedule 1024).exec c ms = some c' ∧
        c'.got = [[5, 1], newkeysPayload, [6]] := by
  have hruns : ((directionUse addSchedule 1024).exec (Direction.start addSchedule)
      [.send [5, 1] (fun _ => 0) 0, .newkeys (fun _ => 0) 1, .send [6] (fun _ => 9) 2,
        .write (.wrote 25), .write (.wrote 35), .read (.upTo 7) (.upTo 9),
        .read (.upTo 7) (.upTo 9), .read (.upTo 7) (.upTo 9)]).map (fun c =>
          (c.got, c.receiver.epoch, c.sent, c.writes.writequeue.isempty)) =
      some ([[5, 1]], 0, [[5, 1], newkeysPayload, [6]], true) := by decide +kernel
  obtain ⟨c, hrun, hc⟩ := Option.map_eq_some_iff.1 hruns
  simp only [Prod.mk.injEq] at hc
  obtain ⟨hgot, hepoch, hsent, hempty⟩ := hc
  obtain ⟨onWay, packets, -, hqueue, -, -, -, -, harrive⟩ :=
    direction_fifo addSchedule_shared (by decide) hrun
  rw [hqueue.isempty_iff, List.isEmpty_iff] at hempty
  obtain ⟨ms, c', hmoves, hrun', hall⟩ := harrive (by rw [hempty]; decide)
  exact ⟨c, hrun, hgot, hepoch, by rw [hsent, hgot]; rfl, ms, c', hmoves, hrun',
    hall.trans hsent⟩

end Ps4Dropbear
