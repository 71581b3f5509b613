import Ps4Dropbear.Session.Serial

/-!
# The transport layer

The session with what it sends: `encrypt_packet`, the queue of replies that are held back during
key exchange, the sequence numbers, and the keys that a packet is encrypted with (`packet.c`,
`common-kex.c`, `svr-kex.c`), in the order in which `session_loop` calls them.

The keys of a direction are named by the exchange that they come from.  `calls` are the messages
for which `encrypt_packet` was called, apart from the calls of `maybe_flush_reply_queue`, which
repeat one; `queued` is all that was ever put into `ses.writequeue`; `keylog` records what happens
to the keys.  A handler that exits has queued messages that `session_cleanup` frees; they are not
recorded.

The connection layer sends what the events say, always messages of its own range.

* `Transport.encryptPacket`, `Transport.maybeFlushReplyQueue` : the two ways to the write queue.
* `transport` : the iterations of `session_loop`.
* `PacketEffect` : what a packet can do, `processPacket_effect` : and nothing else.
* `transport_refines` : the session in it is the one of `serverSession`.
-/

namespace Ps4Dropbear

/-- The type of a message, `packet_type` in `encrypt_packet`. -/
def packetType (payload : Bytes) : ℕ := (payload.headD 0).toNat

/-- `packet_is_okay_kex`. -/
def packetIsOkayKex (type : ℕ) : Bool :=
  if type ≥ sshMsgUserauthRequest then false
  else if type = sshMsgServiceRequest ∨ type = sshMsgServiceAccept then false
  else type ≠ sshMsgKexinit

/-- A packet in `ses.writequeue`. -/
structure WirePacket where
  payload : Bytes
  /-- `ses.transseq` when it was encrypted. -/
  seq : ℕ
  /-- The exchange that the keys come from. -/
  keys : ℕ
  deriving DecidableEq, Repr

/-- A message of the connection protocol. -/
structure ConnMsg where
  payload : Bytes
  range : 80 ≤ packetType payload

/-- What happens to the keys; exchanges are numbered from 1. -/
inductive KeyEvent
  /-- `send_msg_kexinit` starts the exchange. -/
  | kexinitSent (exchange : ℕ)
  /-- `recv_msg_kexinit` has read the KEXINIT of the peer. -/
  | kexinitRead (exchange : ℕ)
  /-- NEWKEYS is encrypted, with the keys of this exchange. -/
  | newkeysSent (keys : ℕ)
  /-- `recv_msg_newkeys` runs. -/
  | newkeysRead
  /-- `gen_new_keys` fills `ses.newkeys`. -/
  | genNewKeys (exchange : Option ℕ)
  /-- `switch_keys` runs; `ses.newkeys` is there or not. -/
  | switchKeys (newkeys : Bool)
  /-- `ses.keys->recv` is replaced. -/
  | recv (exchange : ℕ)
  /-- `ses.keys->trans` is replaced. -/
  | trans (exchange : ℕ)
  deriving DecidableEq, Repr

/-- How far the iteration of `session_loop` has come. -/
inductive LoopPlace
  | timeouts
  | input
  | replies
  | rest
  deriving DecidableEq, Repr

/-- The state of the transport layer.  `Session` only ever resets `ses.transseq`. -/
structure Transport where
  ses : Session
  tables : AlgoTables
  kex : KexBuffers := {}
  place : LoopPlace := .timeouts
  transseq : ℕ := 0
  /-- `ses.reply_queue_head` and what follows it. -/
  replyQueue : List Bytes := []
  queued : List WirePacket := []
  /-- How many of `queued` have left the queue again. -/
  written : ℕ := 0
  calls : List Bytes := []
  /-- The types of the packets received. -/
  received : List ℕ := []
  keylog : List KeyEvent := []

/-- A packet of the client, and what the system answers while it is handled. -/
structure TransportPacket where
  raw : Buffer
  /-- The bytes that `genrandom` gives. -/
  rand : Bytes := []
  authfile : Option AuthFile
  conn : ConnEnv
  /-- What the handlers of the connection protocol send. -/
  replies : List ConnMsg

/-- The packet as it is one of `serverSession`. -/
def TransportPacket.packet (p : TransportPacket) : Packet := ⟨p.raw, p.authfile, p.conn⟩

/-- The type byte. -/
def TransportPacket.type (p : TransportPacket) : Option ℕ :=
  (bufGetbyte p.raw).toOption.map fun r => r.1.toNat

/-- The payload behind the type byte. -/
def TransportPacket.buf (p : TransportPacket) : Buffer := p.packet.payload.buf

namespace Transport

/-! ### Sending -/

/-- The session ends. -/
def exit (t : Transport) (msg : Exit) : Transport := { t with ses := t.ses.exit msg }

/-- `encrypt_packet`. -/
def encryptPacket (t : Transport) (payload : Bytes) : Transport :=
  if !t.ses.dataallowed && !packetIsOkayKex (packetType payload) then
    -- `enqueue_reply_packet`
    { t with replyQueue := t.replyQueue ++ [payload] }
  else
    { t with
      queued := t.queued ++ [⟨payload, t.transseq, t.ses.keysTrans⟩]
      transseq := (t.transseq + 1) % 2 ^ 32 }

/-- A message is sent. -/
def send (t : Transport) (payload : Bytes) : Transport :=
  { t with calls := t.calls ++ [payload] }.encryptPacket payload

/-- Messages are sent. -/
def sends (t : Transport) (payloads : List Bytes) : Transport := payloads.foldl send t

/-- `maybe_flush_reply_queue`. -/
def maybeFlushReplyQueue (t : Transport) : Transport :=
  if !t.ses.dataallowed then t
  else { t.replyQueue.foldl encryptPacket t with replyQueue := [] }

/-- What `switch_keys` assigns when it runs in this state, again or for the first time. -/
def replaced (s : Session) : List KeyEvent :=
  match s.newkeys with
  | none => []
  | some n =>
    (if n.switchesRecv s.kexstate then [KeyEvent.recv n.generation] else []) ++
      if n.switchesTrans s.kexstate then [KeyEvent.trans n.generation] else []

/-! ### Key exchange -/

variable (H : Host) (o : SvrOpts) (K : KexCrypto)

/-- `send_msg_kexinit`. -/
def sendMsgKexinit (t : Transport) (rand : Bytes) : Transport :=
  let own := kexinitPayload t.tables rand
  let t := t.send own
  { t with
    ses := Ps4Dropbear.sendMsgKexinit t.ses
    kex := { t.kex with transkexinit := own }
    keylog := t.keylog ++ [.kexinitSent (t.ses.generation + 1)] }

/-- `send_msg_newkeys`. -/
def sendMsgNewkeys (t : Transport) : Except Exit Transport := do
  let t := t.send [21]
  let s ← Ps4Dropbear.sendMsgNewkeys t.ses
  return { t with
    ses := s
    transseq := if s.kexstate.strictKex then 0 else t.transseq
    keylog := t.keylog ++ [.newkeysSent t.ses.keysTrans,
      .genNewKeys (t.ses.newkeys.map (·.generation)), .switchKeys t.ses.newkeys.isSome] ++
        replaced (genNewKeys t.ses) }

/-- `recv_msg_newkeys`. -/
def recvMsgNewkeys (t : Transport) : Except Exit Transport := do
  let s ← Ps4Dropbear.recvMsgNewkeys t.ses
  return { t with
    ses := s
    keylog := t.keylog ++ [.newkeysRead, .switchKeys t.ses.newkeys.isSome] ++
      replaced (noteNewkeys t.ses) }

/-- `recv_msg_kexinit`: our KEXINIT comes first. -/
def recvMsgKexinit (t : Transport) (p : TransportPacket) : Except Exit Transport := do
  let t := if t.ses.kexstate.sentkexinit then t else t.sendMsgKexinit p.rand
  let s ← readKexinit (kexMethods K t.tables t.kex p.rand) t.ses p.buf
  return { t with
    ses := s
    kex := { t.kex with
      peerKexinit := p.raw.contents
      choice := (readKexAlgos t.tables p.buf).toOption.map (·.2) }
    keylog := t.keylog ++ [.kexinitRead t.ses.generation] }

/-- `recv_msg_kexdh_init`. -/
def recvMsgKexdhInit (t : Transport) (p : TransportPacket) : Except Exit Transport := do
  if !t.ses.kexstate.recvkexinit then dropbearExit "Premature kexdh_init message received"
  else
    let (reply, hash) ← kexdhReply K t.kex p.rand p.buf
    let t := { t with
      ses := { t.ses with
        sent := t.ses.sent ++ [sshMsgKexdhReply]
        sessionId := some (t.ses.sessionId.getD hash) } }
    let t := t.send (31 :: reply.drop 1)
    let t ← t.sendMsgNewkeys
    -- only after the first NEWKEYS
    let ext := !t.ses.kexstate.donesecondkex && t.ses.allowExtInfo
    let t := if ext then t.send (extInfoPayload t.tables) else t
    return { t with
      ses := { t.ses with
        sent := if ext then t.ses.sent ++ [sshMsgExtInfo] else t.ses.sent
        requirenext := sshMsgNewkeys }
      tables := match t.kex.choice with
        | some choice =>
          if t.ses.kexstate.donesecondkex then t.tables
          else disableSigExcept t.tables choice.algoSignature
        | none => t.tables }

/-! ### Packets -/

/-- `recv_msg_service_request`. -/
def recvMsgServiceRequest (t : Transport) (p : TransportPacket) : Except Exit Transport := do
  let s ← Ps4Dropbear.recvMsgServiceRequest t.ses p.buf
  let (name, _) ← bufGetstring p.buf
  return { t with ses := s }.send ([6] ++ sshString name)

/-- `recv_msg_userauth_request`. -/
def recvMsgUserauthRequest (t : Transport) (p : TransportPacket) : Except Exit Transport := do
  let a ← Ps4Dropbear.recvMsgUserauthRequest H o (t.ses.sessionId.getD []) t.ses.authstate
    ⟨p.packet.payload, p.authfile⟩
  return { t with ses := { t.ses with authstate := a } }.sends
    ((a.sent.drop t.ses.authstate.sent.length).map AuthReply.payload)

/-- The call of a handler. -/
def runHandler (t : Transport) (h : Handler) (p : TransportPacket) : Except Exit Transport :=
  match h with
  | .recvMsgKexinit => t.recvMsgKexinit K p
  | .recvMsgKexdhInit => t.recvMsgKexdhInit K p
  | .recvMsgNewkeys => t.recvMsgNewkeys
  | .recvMsgServiceRequest => t.recvMsgServiceRequest p
  | .recvMsgUserauthRequest => t.recvMsgUserauthRequest H o p
  | h => do
    let c ← connHandler h t.ses.conn p.buf p.conn
    return { t with ses := { t.ses with conn := c } }.sends (p.replies.map ConnMsg.payload)

/-- `decrypt_packet` counts a packet. -/
def counted (t : Transport) : Transport :=
  { t with ses := { t.ses with recvseq := (t.ses.recvseq + 1) % 2 ^ 32 } }

/-- `process_packet`, on a packet that is counted already. -/
def processPacket (t : Transport) (p : TransportPacket) : Transport :=
  match bufGetbyte p.raw with
  | .error msg => t.exit msg
  | .ok (type, _) =>
    let t := { t with received := t.received ++ [type.toNat] }
    match acceptPacket t.ses type.toNat with
    | .error msg => t.exit msg
    | .ok (s, none) =>
      -- the only answer without a handler is UNIMPLEMENTED
      let answers := (s.sent.drop t.ses.sent.length).map fun _ => unimplementedPayload s.recvseq
      { t with ses := { s with lastpacket := type.toNat } }.sends answers
    | .ok (s, some h) =>
      let t := { t with ses := { s with ran := s.ran ++ [(type.toNat, h)] } }
      match t.runHandler H o K h p with
      | .error msg => t.exit msg
      | .ok t => { t with ses := { t.ses with lastpacket := type.toNat } }

/-- The rekey of `checktimeouts`, with its cookie when it is due. -/
def maybeRekey (t : Transport) (rekey : Option Bytes) : Transport :=
  match rekey with
  | some rand =>
    if t.ses.kexstate.sentkexinit then t
    else
      { t with ses := { t.ses with
        kexstate := { t.ses.kexstate with needrekey := false } } }.sendMsgKexinit rand
  | none => t

/-- `checktimeouts`: the rekey, the keepalives, and a timeout. -/
def checktimeouts (t : Transport) (rekey : Option Bytes) (keepalives : List ConnMsg)
    (close : Option Exit) : Transport :=
  match close with
  | some msg => t.exit msg
  | none =>
    if !t.ses.remoteident then t
    else
      let t := t.maybeRekey rekey
      if t.ses.authstate.authdone then t.sends (keepalives.map ConnMsg.payload) else t

end Transport

/-- What happens in an iteration of `session_loop`. -/
inductive TransportEvent
  | timeouts (rekey : Option Bytes) (keepalives : List ConnMsg) (close : Option Exit)
  /-- The identification of the peer is read. -/
  | ident (line : Bytes)
  /-- A packet has been read. -/
  | packet (p : TransportPacket)
  /-- There is no packet. -/
  | noPacket
  /-- `maybe_flush_reply_queue`. -/
  | flush
  /-- `channelio` removes a channel, with its listeners. -/
  | channelDone (index : ℕ) (unlistens : List ℕ)
  /-- A listener accepts a connection. -/
  | accept (listener : ℕ) (opens : Bool)
  /-- What connects, the loop handler, listeners and channels have to say. -/
  | sends (payloads : List ConnMsg)
  /-- `write_packet` completes this many packets; the iteration ends. -/
  | write (n : ℕ)

/-- The iterations of `session_loop`; they stop when the session has ended. -/
def transport (H : Host) (o : SvrOpts) (K : KexCrypto) : LTS Transport TransportEvent where
  step t ev :=
    if t.ses.ended.isSome then none
    else
      match ev with
      | .timeouts rekey keepalives close =>
        if t.place = .timeouts then
          some { t.checktimeouts rekey keepalives close with place := .input }
        else none
      | .ident line =>
        if t.place = .input ∧ !t.ses.remoteident then
          some { t with
            ses := { t.ses with remoteident := true }
            kex := { t.kex with remoteident := line }
            place := .replies }
        else none
      | .packet p =>
        if t.place = .input ∧ t.ses.remoteident then
          some { t.counted.processPacket H o K p with place := .replies }
        else none
      | .noPacket => if t.place = .input then some { t with place := .replies } else none
      | .flush =>
        if t.place = .replies then some { t.maybeFlushReplyQueue with place := .rest } else none
      | .channelDone index unlistens =>
        if t.place = .rest then
          some { t with ses := { t.ses with
            conn := (t.ses.conn.removeChannel index).removeListeners unlistens } }
        else none
      | .accept listener opens =>
        if t.place = .rest ∧ listener ∈ t.ses.conn.listeners then
          some { t with ses := { t.ses with
            conn := if opens then t.ses.conn.newchannel true else t.ses.conn } }
        else none
      | .sends payloads =>
        if t.place = .rest ∧ t.ses.authstate.authdone then
          some (t.sends (payloads.map ConnMsg.payload))
        else none
      | .write n =>
        if t.place = .rest ∧ t.written + n ≤ t.queued.length then
          some { t with written := t.written + n, place := .timeouts }
        else none

/-- The state in which `session_loop` is entered: our KEXINIT has been queued. -/
def transportStart (o : SvrOpts) (banner : Option Bytes) (tables : AlgoTables) (rand : Bytes) :
    Transport :=
  ({ ses := { authstate := svrAuthinitialise o banner }
     tables := svrAlgosInitialise tables } : Transport).sendMsgKexinit rand

/-! ### Sending -/

namespace Transport

variable {t t' : Transport} {payload : Bytes} {payloads : List Bytes}

/-- `send` changes only what `encrypt_packet` is about. -/
structure SendsOnly (t t' : Transport) : Prop where
  ses : t'.ses = t.ses
  tables : t'.tables = t.tables
  kex : t'.kex = t.kex
  place : t'.place = t.place
  written : t'.written = t.written
  received : t'.received = t.received
  keylog : t'.keylog = t.keylog

theorem SendsOnly.refl (t : Transport) : SendsOnly t t := ⟨rfl, rfl, rfl, rfl, rfl, rfl, rfl⟩

theorem SendsOnly.trans {t₁ t₂ t₃ : Transport} (h : SendsOnly t₁ t₂) (h' : SendsOnly t₂ t₃) :
    SendsOnly t₁ t₃ :=
  ⟨h'.ses.trans h.ses, h'.tables.trans h.tables, h'.kex.trans h.kex, h'.place.trans h.place,
    h'.written.trans h.written, h'.received.trans h.received, h'.keylog.trans h.keylog⟩

theorem encryptPacket_only (t : Transport) (payload : Bytes) :
    SendsOnly t (t.encryptPacket payload) := by
  unfold encryptPacket
  split_ifs <;> exact ⟨rfl, rfl, rfl, rfl, rfl, rfl, rfl⟩

theorem send_only (t : Transport) (payload : Bytes) : SendsOnly t (t.send payload) := by
  have hcalls : SendsOnly t { t with calls := t.calls ++ [payload] } :=
    ⟨rfl, rfl, rfl, rfl, rfl, rfl, rfl⟩
  exact hcalls.trans (encryptPacket_only _ payload)

theorem sends_only (t : Transport) (payloads : List Bytes) : SendsOnly t (t.sends payloads) := by
  induction payloads generalizing t with
  | nil => exact .refl t
  | cons payload payloads ih => exact (send_only t payload).trans (ih (t.send payload))

theorem encryptPacket_fold_only (t : Transport) (payloads : List Bytes) :
    SendsOnly t (payloads.foldl encryptPacket t) := by
  induction payloads generalizing t with
  | nil => exact .refl t
  | cons payload payloads ih =>
    exact (encryptPacket_only t payload).trans (ih (t.encryptPacket payload))

/-- What `encrypt_packet` keeps for the messages that are held back, flushing keeps. -/
theorem encryptPacket_fold_invariant {P : Transport → Prop} (hP : P t)
    (hstep : ∀ t m, packetType m ≠ sshMsgNewkeys → P t → P (t.encryptPacket m))
    (hheld : ∀ m ∈ payloads, packetIsOkayKex (packetType m) = false) :
    P (payloads.foldl encryptPacket t) := by
  induction payloads generalizing t with
  | nil => exact hP
  | cons m ms ih =>
    rw [List.forall_mem_cons] at hheld
    have hm : packetType m ≠ sshMsgNewkeys := by
      intro heq
      rw [heq] at hheld
      exact absurd hheld.1 (by decide)
    exact ih (hstep t m hm hP) hheld.2

/-- Flushing changes only the queues. -/
theorem maybeFlushReplyQueue_only (t : Transport) : SendsOnly t t.maybeFlushReplyQueue := by
  unfold maybeFlushReplyQueue
  split_ifs
  · exact .refl t
  · exact (encryptPacket_fold_only t t.replyQueue).trans ⟨rfl, rfl, rfl, rfl, rfl, rfl, rfl⟩

/-- `encrypt_packet` looks at two fields of the session. -/
theorem encryptPacket_withSes {s : Session} (hd : s.dataallowed = t.ses.dataallowed)
    (hk : s.keysTrans = t.ses.keysTrans) :
    { t with ses := s }.encryptPacket payload = { t.encryptPacket payload with ses := s } := by
  simp only [encryptPacket, hd, hk]
  split_ifs <;> rfl

theorem sends_withSes {s : Session} (hd : s.dataallowed = t.ses.dataallowed)
    (hk : s.keysTrans = t.ses.keysTrans) :
    { t with ses := s }.sends payloads = { t.sends payloads with ses := s } := by
  induction payloads generalizing t with
  | nil => rfl
  | cons payload payloads ih =>
    have hsend : { t with ses := s }.send payload = { t.send payload with ses := s } :=
      encryptPacket_withSes (t := { t with calls := t.calls ++ [payload] }) hd hk
    have hses := (send_only t payload).ses
    calc { t with ses := s }.sends (payload :: payloads)
        = ({ t with ses := s }.send payload).sends payloads := rfl
      _ = { t.send payload with ses := s }.sends payloads := by rw [hsend]
      _ = { (t.send payload).sends payloads with ses := s } :=
        ih (by rw [hses]; exact hd) (by rw [hses]; exact hk)

/-- A message that is always allowed goes to the write queue. -/
theorem encryptPacket_okay (h : packetIsOkayKex (packetType payload) = true) :
    t.encryptPacket payload = { t with
      queued := t.queued ++ [⟨payload, t.transseq, t.ses.keysTrans⟩]
      transseq := (t.transseq + 1) % 2 ^ 32 } := by
  simp [encryptPacket, h]

/-- Our NEWKEYS goes to the write queue. -/
theorem send_newkeys : t.send [21] = { t with
      calls := t.calls ++ [[21]]
      queued := t.queued ++ [⟨[21], t.transseq, t.ses.keysTrans⟩]
      transseq := (t.transseq + 1) % 2 ^ 32 } :=
  encryptPacket_okay (by decide)

@[simp] theorem send_ses : (t.send payload).ses = t.ses := (send_only t payload).ses

@[simp] theorem send_tables : (t.send payload).tables = t.tables := (send_only t payload).tables

@[simp] theorem send_kex : (t.send payload).kex = t.kex := (send_only t payload).kex

@[simp] theorem send_keylog : (t.send payload).keylog = t.keylog := (send_only t payload).keylog

@[simp] theorem sends_ses : (t.sends payloads).ses = t.ses := (sends_only t payloads).ses

end Transport

/-! ### What a packet can do -/

section Effects

variable {H : Host} {o : SvrOpts} {K : KexCrypto} {s s' : Session} {t t' : Transport}
  {p : TransportPacket} {type : ℕ}

/-- The packets for which no handler is called: those that may come at any time, the one after a
wrong guess, and those that nobody knows. -/
theorem acceptPacket_none_cases (ha : acceptPacket s type = .ok (s', none)) :
    ((s.kexstate.strictKex && !s.kexstate.recvfirstnewkeys) = false ∧ type ≠ sshMsgKexinit ∧
        (s' = s ∨ s' = recvUnimplemented s)) ∨
    (s.ignorenext = true ∧ (s.requirenext = 0 ∨ s.requirenext = type) ∧
        s' = { s with ignorenext := false }) ∨
    (s.ignorenext = false ∧ (s.requirenext = 0 ∨ s.requirenext = type) ∧
        findHandler type = none ∧ s' = recvUnimplemented { s with requirenext := 0 }) := by
  simp only [acceptPacket] at ha
  rw [ite_exit_eq_ok] at ha
  obtain ⟨-, ha⟩ := ha
  split_ifs at ha with hfree hreq hbetween hign hauth
  · cases ha
    refine .inl ⟨(Bool.not_eq_true' _).mp hfree.1, ?_, .inl rfl⟩
    rcases hfree.2 with h | h | h <;> rw [h] <;> decide
  · cases ha
    exact .inl ⟨(Bool.not_eq_true' _).mp hbetween.2.2.2.2.2, hbetween.2.2.2.2.1, .inr rfl⟩
  · simp at ha
  · cases ha
    exact .inr (.inl ⟨hign, or_iff_not_imp_left.2 fun h => by_contra fun h' => hreq ⟨h, h'⟩, rfl⟩)
  · simp at ha
  · split at ha
    · next hnone =>
      cases ha
      exact .inr (.inr ⟨by simpa using hign,
        or_iff_not_imp_left.2 fun h => by_contra fun h' => hreq ⟨h, h'⟩, hnone, rfl⟩)
    · cases ha

/-- No handler is called for a packet that is to be ignored. -/
theorem acceptPacket_some_ignorenext {h : Handler} (ha : acceptPacket s type = .ok (s', some h)) :
    s.ignorenext = false := by
  simp only [acceptPacket] at ha
  rw [ite_exit_eq_ok] at ha
  obtain ⟨-, ha⟩ := ha
  split_ifs at ha with hfree hreq hbetween hign hauth
  · cases ha
  · cases ha
  · simp at ha
  · cases ha
  · simp at ha
  · simpa using hign

/-- The parts of a session that only key exchange changes. -/
structure SameKeys (s s' : Session) : Prop where
  kexstate : s'.kexstate = s.kexstate
  newkeys : s'.newkeys = s.newkeys
  keysRecv : s'.keysRecv = s.keysRecv
  keysTrans : s'.keysTrans = s.keysTrans
  generation : s'.generation = s.generation
  sessionId : s'.sessionId = s.sessionId
  dataallowed : s'.dataallowed = s.dataallowed
  recvseq : s'.recvseq = s.recvseq

/-- What a packet that does not belong to key exchange does to `requirenext` and `ignorenext`. -/
inductive NextEffect (type : ℕ) (s s' : Session) : Prop
  /-- It may come at any time, except in the first strict key exchange. -/
  | tolerated (hstrict : (s.kexstate.strictKex && !s.kexstate.recvfirstnewkeys) = false)
      (htype : type ≠ sshMsgKexinit) (hreq : s'.requirenext = s.requirenext)
      (hign : s'.ignorenext = s.ignorenext) (hran : s'.ran = s.ran)
  /-- It comes after a wrong guess. -/
  | ignored (hign : s.ignorenext = true) (hign' : s'.ignorenext = false)
      (htype : s.requirenext = 0 ∨ s.requirenext = type) (hreq : s'.requirenext = s.requirenext)
      (hran : s'.ran = s.ran)
  /-- It is handled, or nobody knows it. -/
  | other (htype : s.requirenext = 0 ∨ s.requirenext = type) (hreq : s'.requirenext = 0)
      (hign : s'.ignorenext = s.ignorenext)
      (hkex : type ≠ sshMsgKexinit ∧ type ≠ sshMsgKexdhInit ∧ type ≠ sshMsgNewkeys)
      (hran : s'.ran = s.ran ∨ ∃ h, s'.ran = s.ran ++ [(type, h)])

/-- A message that is neither KEXINIT nor NEWKEYS. -/
def IsPlain (payload : Bytes) : Prop :=
  packetType payload ≠ sshMsgKexinit ∧ packetType payload ≠ sshMsgNewkeys

/-- The state in which the handler of a packet is called. -/
def Transport.accepted (t : Transport) (type : ℕ) (h : Handler) : Transport :=
  { t with
    received := t.received ++ [type]
    ses := { t.ses with requirenext := 0, ran := t.ses.ran ++ [(type, h)] } }

/-- The state behind a handler. -/
def Transport.done (t : Transport) (type : ℕ) : Transport :=
  { t with ses := { t.ses with lastpacket := type } }

theorem Transport.sends_done (t : Transport) (payloads : List Bytes) (type : ℕ) :
    (t.sends payloads).done type = (t.done type).sends payloads := by
  have h : (t.done type).sends payloads =
      { t.sends payloads with ses := { t.ses with lastpacket := type } } :=
    Transport.sends_withSes rfl rfl
  rw [h, Transport.done, Transport.sends_ses]

/-- **What a packet can do** to the transport layer. -/
inductive PacketEffect (K : KexCrypto) (t : Transport) (p : TransportPacket) : Transport → Prop
  /-- The session ends. -/
  | exits (s : Session) (received : List ℕ) (hs : SameKeys t.ses s)
      (hended : s.ended.isSome = true) (hrec : t.received.length ≤ received.length) :
      PacketEffect K t p { t with ses := s, received := received }
  /-- The packet does not belong to key exchange. -/
  | plain (type : ℕ) (s : Session) (payloads : List Bytes) (hs : SameKeys t.ses s)
      (hended : s.ended = t.ses.ended) (hnext : NextEffect type t.ses s)
      (hplain : ∀ m ∈ payloads, IsPlain m) :
      PacketEffect K t p
        ({ t with ses := s, received := t.received ++ [type] }.sends payloads)
  | kexinit (t' : Transport) (hp : p.type = some sshMsgKexinit) (hign : t.ses.ignorenext = false)
      (htype : t.ses.requirenext = 0 ∨ t.ses.requirenext = sshMsgKexinit)
      (h : (t.accepted sshMsgKexinit .recvMsgKexinit).recvMsgKexinit K p = .ok t') :
      PacketEffect K t p (t'.done sshMsgKexinit)
  | kexdhInit (t' : Transport) (hign : t.ses.ignorenext = false)
      (htype : t.ses.requirenext = 0 ∨ t.ses.requirenext = sshMsgKexdhInit)
      (h : (t.accepted sshMsgKexdhInit .recvMsgKexdhInit).recvMsgKexdhInit K p = .ok t') :
      PacketEffect K t p (t'.done sshMsgKexdhInit)
  | newkeys (t' : Transport) (hign : t.ses.ignorenext = false)
      (htype : t.ses.requirenext = 0 ∨ t.ses.requirenext = sshMsgNewkeys)
      (h : (t.accepted sshMsgNewkeys .recvMsgNewkeys).recvMsgNewkeys = .ok t') :
      PacketEffect K t p (t'.done sshMsgNewkeys)

theorem isPlain_cons {b : UInt8} {body : Bytes} (h : b ≠ 20 ∧ b ≠ 21) : IsPlain (b :: body) := by
  refine ⟨fun heq => h.1 ?_, fun heq => h.2 ?_⟩
  · exact UInt8.toNat_inj.1 heq
  · exact UInt8.toNat_inj.1 heq

theorem isPlain_authReply (r : AuthReply) : IsPlain r.payload := by
  cases r <;> exact isPlain_cons (by decide)

/-- An answer without a handler is plain. -/
theorem isPlain_answers {α : Type} (xs : List α) (recvseq : ℕ) :
    ∀ m ∈ xs.map fun _ => unimplementedPayload recvseq, IsPlain m := by
  rw [List.forall_mem_map]
  exact fun _ _ => isPlain_cons (by decide)

theorem isPlain_connMsg (m : ConnMsg) : IsPlain m.payload := by
  have := m.range
  constructor <;> simp only [sshMsgKexinit, sshMsgNewkeys] <;> omega

/-- A handler that does not belong to key exchange. -/
def Handler.IsKex (h : Handler) : Prop :=
  h = .recvMsgKexinit ∨ h = .recvMsgKexdhInit ∨ h = .recvMsgNewkeys

/-- The handlers outside of key exchange change the session only where it does not matter here,
and send plain messages. -/
theorem runHandler_plain {h : Handler} (hh : ¬ h.IsKex) (hr : t.runHandler H o K h p = .ok t') :
    ∃ s payloads, t' = { t with ses := s }.sends payloads ∧ SameKeys t.ses s ∧
      s.ended = t.ses.ended ∧ s.requirenext = t.ses.requirenext ∧
      s.ignorenext = t.ses.ignorenext ∧ s.ran = t.ses.ran ∧ ∀ m ∈ payloads, IsPlain m := by
  have hconn : ∀ (c : Conn), t' = { t with ses := { t.ses with conn := c } }.sends
      (p.replies.map ConnMsg.payload) →
      ∃ s payloads, t' = { t with ses := s }.sends payloads ∧ SameKeys t.ses s ∧
        s.ended = t.ses.ended ∧ s.requirenext = t.ses.requirenext ∧
        s.ignorenext = t.ses.ignorenext ∧ s.ran = t.ses.ran ∧ ∀ m ∈ payloads, IsPlain m := by
    intro c heq
    refine ⟨_, _, heq, ⟨rfl, rfl, rfl, rfl, rfl, rfl, rfl, rfl⟩, rfl, rfl, rfl, rfl, ?_⟩
    rw [List.forall_mem_map]
    exact fun m _ => isPlain_connMsg m
  cases h with
  | recvMsgKexinit => exact absurd (.inl rfl) hh
  | recvMsgKexdhInit => exact absurd (.inr (.inl rfl)) hh
  | recvMsgNewkeys => exact absurd (.inr (.inr rfl)) hh
  | recvMsgServiceRequest =>
    simp only [Transport.runHandler, Transport.recvMsgServiceRequest, bind_eq_ok, pure_eq_ok,
      Prod.exists] at hr
    obtain ⟨s, hs, name, b, -, rfl⟩ := hr
    obtain ⟨sent, rfl⟩ := recvMsgServiceRequest_ok hs
    refine ⟨_, [[6] ++ sshString name], rfl, ⟨rfl, rfl, rfl, rfl, rfl, rfl, rfl, rfl⟩, rfl, rfl,
      rfl, rfl, ?_⟩
    rw [List.forall_mem_singleton]
    exact isPlain_cons (by decide)
  | recvMsgUserauthRequest =>
    simp only [Transport.runHandler, Transport.recvMsgUserauthRequest, bind_eq_ok,
      pure_eq_ok] at hr
    obtain ⟨a, -, rfl⟩ := hr
    refine ⟨_, _, rfl, ⟨rfl, rfl, rfl, rfl, rfl, rfl, rfl, rfl⟩, rfl, rfl, rfl, rfl, ?_⟩
    rw [List.forall_mem_map]
    exact fun r _ => isPlain_authReply r
  | _ =>
    simp only [Transport.runHandler, bind_eq_ok, pure_eq_ok] at hr
    obtain ⟨c, -, heq⟩ := hr
    exact hconn c heq.symm

/-- The numbers of the handlers of key exchange in the table. -/
theorem findHandler_kex {h : Handler} (hf : findHandler type = some h) :
    (h = .recvMsgKexinit ↔ type = sshMsgKexinit) ∧
    (h = .recvMsgKexdhInit ↔ type = sshMsgKexdhInit) ∧
    (h = .recvMsgNewkeys ↔ type = sshMsgNewkeys) := by
  have htable : ∀ e ∈ svrPackettypes, (e.2 = .recvMsgKexinit ↔ e.1 = sshMsgKexinit) ∧
      (e.2 = .recvMsgKexdhInit ↔ e.1 = sshMsgKexdhInit) ∧
      (e.2 = .recvMsgNewkeys ↔ e.1 = sshMsgNewkeys) := by
    decide
  exact htable _ (findHandler_mem hf)

/-- A type without a handler is not one of key exchange. -/
theorem findHandler_none (hf : findHandler type = none) :
    type ≠ sshMsgKexinit ∧ type ≠ sshMsgKexdhInit ∧ type ≠ sshMsgNewkeys := by
  refine ⟨?_, ?_, ?_⟩ <;> rintro rfl <;> exact absurd hf (by decide)

/-- `process_packet` has one of the effects. -/
theorem processPacket_effect : PacketEffect K t p (t.processPacket H o K p) := by
  unfold Transport.processPacket
  split
  · exact .exits _ t.received ⟨rfl, rfl, rfl, rfl, rfl, rfl, rfl, rfl⟩ rfl Nat.le.refl
  · next type buf hbyte =>
    dsimp only
    have hrec : t.received.length ≤ (t.received ++ [type.toNat]).length := by simp
    split
    · exact .exits _ _ ⟨rfl, rfl, rfl, rfl, rfl, rfl, rfl, rfl⟩ rfl hrec
    · next s ha =>
      have hplain := isPlain_answers (s.sent.drop t.ses.sent.length) s.recvseq
      rcases acceptPacket_none_cases ha with ⟨hstrict, hne, rfl | rfl⟩ | ⟨hign, htype, rfl⟩ |
        ⟨hign, htype, hnone, rfl⟩
      · exact .plain _ _ _ ⟨rfl, rfl, rfl, rfl, rfl, rfl, rfl, rfl⟩ rfl
          (.tolerated hstrict hne rfl rfl rfl) hplain
      · exact .plain _ _ _ ⟨rfl, rfl, rfl, rfl, rfl, rfl, rfl, rfl⟩ rfl
          (.tolerated hstrict hne rfl rfl rfl) hplain
      · exact .plain _ _ _ ⟨rfl, rfl, rfl, rfl, rfl, rfl, rfl, rfl⟩ rfl
          (.ignored hign rfl htype rfl rfl) hplain
      · exact .plain _ _ _ ⟨rfl, rfl, rfl, rfl, rfl, rfl, rfl, rfl⟩ rfl
          (.other htype rfl rfl (findHandler_none hnone) (.inl rfl)) hplain
    · next s h ha =>
      have hign := acceptPacket_some_ignorenext ha
      obtain ⟨rfl, hfound, hreq, -⟩ := acceptPacket_some ha
      have htype : t.ses.requirenext = 0 ∨ t.ses.requirenext = type.toNat :=
        or_iff_not_imp_left.2 hreq
      obtain ⟨hk₁, hk₂, hk₃⟩ := findHandler_kex hfound
      split
      · exact .exits _ _ ⟨rfl, rfl, rfl, rfl, rfl, rfl, rfl, rfl⟩ rfl hrec
      · next t' hr =>
        by_cases hh : h.IsKex
        · -- the type is the one of the handler
          rcases hh with rfl | rfl | rfl
          · have hp : p.type = some sshMsgKexinit := by
              rw [TransportPacket.type, hbyte]
              exact congrArg some (hk₁.1 rfl)
            rw [hk₁.1 rfl] at htype hr ⊢
            exact .kexinit t' hp hign htype hr
          · rw [hk₂.1 rfl] at htype hr ⊢
            exact .kexdhInit t' hign htype hr
          · rw [hk₃.1 rfl] at htype hr ⊢
            exact .newkeys t' hign htype hr
        · obtain ⟨s, payloads, rfl, hs, hend, hr', hi', hran, hplain⟩ := runHandler_plain hh hr
          have hplain' : PacketEffect K t p
              (({ t.accepted type.toNat h with ses := s }.done type.toNat).sends payloads) :=
            .plain type.toNat { s with lastpacket := type.toNat } payloads
              ⟨hs.kexstate, hs.newkeys, hs.keysRecv, hs.keysTrans, hs.generation, hs.sessionId,
                hs.dataallowed, hs.recvseq⟩ hend
              (.other htype hr' hi' ⟨fun e => hh (.inl (hk₁.2 e)),
                fun e => hh (.inr (.inl (hk₂.2 e))), fun e => hh (.inr (.inr (hk₃.2 e)))⟩
                (.inr ⟨h, hran⟩)) hplain
          rw [← Transport.sends_done] at hplain'
          exact hplain'

/-! ### What a step can do -/

/-- **What a step of `session_loop` can do** to the transport layer. -/
inductive StepEffect (K : KexCrypto) (t : Transport) : TransportEvent → Transport → Prop
  /-- A timeout ends the session. -/
  | exits (ev : TransportEvent) (msg : Exit) (place : LoopPlace) :
      StepEffect K t ev { t.exit msg with place := place }
  /-- A rekey is due. -/
  | rekey (ev : TransportEvent) (rand : Bytes) (payloads : List Bytes)
      (hsent : t.ses.kexstate.sentkexinit = false) (hplace : t.place = .timeouts)
      (hplain : ∀ m ∈ payloads, IsPlain m) :
      StepEffect K t ev { ({ t with ses := { t.ses with
        kexstate := { t.ses.kexstate with needrekey := false } } }.sendMsgKexinit rand).sends
          payloads with place := .input }
  /-- Nothing of key exchange. -/
  | plain (ev : TransportEvent) (s : Session) (kex : KexBuffers) (written : ℕ)
      (payloads : List Bytes) (place : LoopPlace) (hs : SameKeys t.ses s)
      (hended : s.ended = t.ses.ended)
      (hreq : s.requirenext = t.ses.requirenext) (hign : s.ignorenext = t.ses.ignorenext)
      (hran : s.ran = t.ses.ran) (hkex : kex.peerKexinit = t.kex.peerKexinit)
      (hplace : t.place ≠ .replies) (hplain : ∀ m ∈ payloads, IsPlain m) :
      StepEffect K t ev
        { { t with ses := s, kex := kex, written := written }.sends payloads with place := place }
  | packet (p : TransportPacket) (t' : Transport) (hplace : t.place = .input)
      (h : PacketEffect K t.counted p t') : StepEffect K t (.packet p) { t' with place := .replies }
  | flush (hplace : t.place = .replies) :
      StepEffect K t .flush { t.maybeFlushReplyQueue with place := .rest }

theorem isPlain_connMsgs (ms : List ConnMsg) : ∀ m ∈ ms.map ConnMsg.payload, IsPlain m := by
  rw [List.forall_mem_map]
  exact fun m _ => isPlain_connMsg m

theorem maybeRekey_cases (t : Transport) (rekey : Option Bytes) :
    t.maybeRekey rekey = t ∨ ∃ rand, t.ses.kexstate.sentkexinit = false ∧
      t.maybeRekey rekey = { t with ses := { t.ses with
        kexstate := { t.ses.kexstate with needrekey := false } } }.sendMsgKexinit rand := by
  cases rekey with
  | none => exact .inl rfl
  | some rand =>
    simp only [Transport.maybeRekey]
    split_ifs with hsent
    · exact .inl rfl
    · exact .inr ⟨rand, by simpa using hsent, rfl⟩

theorem checktimeouts_effect (hplace : t.place = .timeouts) (rekey : Option Bytes)
    (keepalives : List ConnMsg) (close : Option Exit) :
    StepEffect K t (.timeouts rekey keepalives close)
      { t.checktimeouts rekey keepalives close with place := .input } := by
  have hne : t.place ≠ .replies := by rw [hplace]; decide
  have hquiet : StepEffect K t (.timeouts rekey keepalives close) { t with place := .input } :=
    .plain _ t.ses t.kex t.written [] .input ⟨rfl, rfl, rfl, rfl, rfl, rfl, rfl, rfl⟩ rfl rfl rfl rfl
      rfl hne (by simp)
  have hkeep : StepEffect K t (.timeouts rekey keepalives close)
      { t.sends (keepalives.map ConnMsg.payload) with place := .input } :=
    .plain _ t.ses t.kex t.written _ .input ⟨rfl, rfl, rfl, rfl, rfl, rfl, rfl, rfl⟩ rfl rfl rfl rfl
      rfl hne (isPlain_connMsgs keepalives)
  cases close with
  | some msg => exact .exits _ msg .input
  | none =>
    simp only [Transport.checktimeouts]
    split_ifs with hident
    · exact hquiet
    · rcases maybeRekey_cases t rekey with heq | ⟨rand, hsent, heq⟩
      · rw [heq]
        exact hkeep
      · rw [heq]
        exact .rekey _ rand _ hsent hplace (isPlain_connMsgs keepalives)
    · rcases maybeRekey_cases t rekey with heq | ⟨rand, hsent, heq⟩
      · rw [heq]
        exact hquiet
      · rw [heq]
        exact .rekey _ rand [] hsent hplace (by simp)

/-- A session that takes a step has not ended. -/
theorem transport_live {ev : TransportEvent} (hst : (transport H o K).step t ev = some t') :
    t.ses.ended = none := by
  by_contra hne
  have hsome : t.ses.ended.isSome = true := Option.isSome_iff_ne_none.2 hne
  simp [transport, hsome] at hst

/-- Every step has one of the effects. -/
theorem transport_effect {ev : TransportEvent} (hst : (transport H o K).step t ev = some t') :
    StepEffect K t ev t' := by
  have hlive := transport_live hst
  simp only [transport] at hst
  rw [if_neg (by simp [hlive])] at hst
  cases ev with
  | timeouts rekey keepalives close =>
    simp only [Option.ite_none_right_eq_some, Option.some.injEq] at hst
    obtain ⟨hplace, rfl⟩ := hst
    exact checktimeouts_effect hplace rekey keepalives close
  | ident line =>
    simp only [Option.ite_none_right_eq_some, Option.some.injEq] at hst
    obtain ⟨⟨hplace, -⟩, rfl⟩ := hst
    exact .plain _ _ _ t.written [] .replies ⟨rfl, rfl, rfl, rfl, rfl, rfl, rfl, rfl⟩ rfl rfl rfl rfl
      rfl (by rw [hplace]; decide) (by simp)
  | packet p =>
    simp only [Option.ite_none_right_eq_some, Option.some.injEq] at hst
    obtain ⟨⟨hplace, -⟩, rfl⟩ := hst
    exact .packet p _ hplace processPacket_effect
  | noPacket =>
    simp only [Option.ite_none_right_eq_some, Option.some.injEq] at hst
    obtain ⟨hplace, rfl⟩ := hst
    exact .plain _ _ _ t.written [] .replies ⟨rfl, rfl, rfl, rfl, rfl, rfl, rfl, rfl⟩ rfl rfl rfl rfl
      rfl (by rw [hplace]; decide) (by simp)
  | flush =>
    simp only [Option.ite_none_right_eq_some, Option.some.injEq] at hst
    obtain ⟨hplace, rfl⟩ := hst
    exact .flush hplace
  | channelDone index unlistens =>
    simp only [Option.ite_none_right_eq_some, Option.some.injEq] at hst
    obtain ⟨hplace, rfl⟩ := hst
    exact .plain _ _ t.kex t.written [] t.place ⟨rfl, rfl, rfl, rfl, rfl, rfl, rfl, rfl⟩ rfl rfl rfl
      rfl rfl (by rw [hplace]; decide) (by simp)
  | accept listener opens =>
    simp only [Option.ite_none_right_eq_some, Option.some.injEq] at hst
    obtain ⟨⟨hplace, -⟩, rfl⟩ := hst
    exact .plain _ _ t.kex t.written [] t.place ⟨rfl, rfl, rfl, rfl, rfl, rfl, rfl, rfl⟩ rfl rfl rfl
      rfl rfl (by rw [hplace]; decide) (by simp)
  | sends payloads =>
    simp only [Option.ite_none_right_eq_some, Option.some.injEq] at hst
    obtain ⟨⟨hplace, -⟩, rfl⟩ := hst
    have hkeep := Transport.sends_only t (payloads.map ConnMsg.payload)
    have heff : StepEffect K t (.sends payloads)
        { t.sends (payloads.map ConnMsg.payload) with place := t.place } :=
      .plain _ t.ses t.kex t.written _ t.place ⟨rfl, rfl, rfl, rfl, rfl, rfl, rfl, rfl⟩ rfl rfl rfl
        rfl rfl (by rw [hplace]; decide) (isPlain_connMsgs payloads)
    rw [← hkeep.place] at heff
    exact heff
  | write n =>
    simp only [Option.ite_none_right_eq_some, Option.some.injEq] at hst
    obtain ⟨⟨hplace, -⟩, rfl⟩ := hst
    exact .plain _ t.ses t.kex (t.written + n) [] .timeouts
      ⟨rfl, rfl, rfl, rfl, rfl, rfl, rfl, rfl⟩ rfl rfl rfl rfl rfl (by rw [hplace]; decide) (by simp)

/-! ### The session in it -/

theorem sendMsgNewkeys_ses (h : t.sendMsgNewkeys = .ok t') :
    sendMsgNewkeys t.ses = .ok t'.ses := by
  simp only [Transport.sendMsgNewkeys, bind_eq_ok, pure_eq_ok, Transport.send_ses] at h
  obtain ⟨s, hs, rfl⟩ := h
  exact hs

theorem recvMsgKexinit_ses (h : t.recvMsgKexinit K p = .ok t') :
    ∃ kex, recvMsgKexinit (kexMethods K t.tables kex p.rand) t.ses p.buf = .ok t'.ses := by
  simp only [Transport.recvMsgKexinit, bind_eq_ok, pure_eq_ok] at h
  obtain ⟨s, hs, rfl⟩ := h
  unfold recvMsgKexinit
  split_ifs at hs ⊢
  · exact ⟨_, hs⟩
  · simp only [Transport.sendMsgKexinit, Transport.send_ses, Transport.send_tables] at hs
    exact ⟨_, hs⟩

theorem recvMsgKexdhInit_ses (h : t.recvMsgKexdhInit K p = .ok t') :
    recvMsgKexdhInit (kexMethods K t.tables t.kex p.rand) t.ses p.buf = .ok t'.ses := by
  simp only [Transport.recvMsgKexdhInit, ite_exit_eq_ok, bind_eq_ok, pure_eq_ok, Prod.exists] at h
  obtain ⟨hrecv, reply, hash, hreply, t₁, ht₁, rfl⟩ := h
  have hhash : (kexMethods K t.tables t.kex p.rand).kexdhReply p.buf = .ok hash := by
    simp only [kexMethods, hreply]
    rfl
  have hnew := sendMsgNewkeys_ses ht₁
  rw [Transport.send_ses] at hnew
  rw [recvMsgKexdhInit, if_neg hrecv, hhash, ok_bind, hnew, ok_bind]
  by_cases hext : (!t₁.ses.kexstate.donesecondkex && t₁.ses.allowExtInfo) = true
  · simp only [hext, if_true, Transport.send_ses]
    rfl
  · simp only [hext, Bool.false_eq_true, if_false]
    rfl

theorem runHandler_ses {h : Handler} (hr : t.runHandler H o K h p = .ok t') :
    ∃ kex, runHandler H o (kexMethods K t.tables kex p.rand) t.ses h p.packet = .ok t'.ses := by
  cases h with
  | recvMsgKexinit => exact recvMsgKexinit_ses hr
  | recvMsgKexdhInit => exact ⟨_, recvMsgKexdhInit_ses hr⟩
  | recvMsgNewkeys =>
    simp only [Transport.runHandler, Transport.recvMsgNewkeys, bind_eq_ok, pure_eq_ok] at hr
    obtain ⟨s, hs, rfl⟩ := hr
    exact ⟨t.kex, hs⟩
  | recvMsgServiceRequest =>
    simp only [Transport.runHandler, Transport.recvMsgServiceRequest, bind_eq_ok, pure_eq_ok,
      Prod.exists] at hr
    obtain ⟨s, hs, name, b, -, rfl⟩ := hr
    refine ⟨t.kex, ?_⟩
    rw [Transport.send_ses]
    exact hs
  | recvMsgUserauthRequest =>
    simp only [Transport.runHandler, Transport.recvMsgUserauthRequest, bind_eq_ok,
      pure_eq_ok] at hr
    obtain ⟨a, ha, rfl⟩ := hr
    refine ⟨t.kex, ?_⟩
    rw [Transport.sends_ses]
    exact bind_eq_ok.2 ⟨a, ha, rfl⟩
  | _ =>
    simp only [Transport.runHandler, bind_eq_ok, pure_eq_ok] at hr
    obtain ⟨c, hc, rfl⟩ := hr
    refine ⟨t.kex, ?_⟩
    rw [Transport.sends_ses]
    exact bind_eq_ok.2 ⟨c, hc, rfl⟩

/-- `process_packet` of the transport layer does to the session what `process_packet` does, unless
a handler exits, and then the session ends in both. -/
theorem processPacket_ses (h : (t.processPacket H o K p).ses.ended = none) :
    ∃ kex, (t.processPacket H o K p).ses =
      processPacket H o (kexMethods K t.tables kex p.rand) t.ses p.packet := by
  unfold Transport.processPacket at h ⊢
  unfold processPacket
  have hraw : p.packet.raw = p.raw := rfl
  rw [hraw]
  cases hbyte : bufGetbyte p.raw with
  | error msg => exact ⟨t.kex, rfl⟩
  | ok x =>
    obtain ⟨type, b⟩ := x
    rw [hbyte] at h
    dsimp only at h ⊢
    cases ha : acceptPacket t.ses type.toNat with
    | error msg => exact ⟨t.kex, rfl⟩
    | ok y =>
      obtain ⟨s, found⟩ := y
      rw [ha] at h
      cases found with
      | none =>
        dsimp only
        exact ⟨t.kex, Transport.sends_ses⟩
      | some hdl =>
        dsimp only at h ⊢
        generalize hr : Transport.runHandler H o K _ hdl p = out at h ⊢
        cases out with
        | error msg => cases h
        | ok t₁ =>
          obtain ⟨kex, hses⟩ := runHandler_ses hr
          refine ⟨kex, ?_⟩
          dsimp only at hses ⊢
          rw [hses]

/-- **Refinement.**  A step of the transport layer is a step of `serverSession`, or leaves the
session alone; a step in which a handler exits ends both. -/
theorem transport_refines {ev : TransportEvent} (hst : (transport H o K).step t ev = some t')
    (hend : t'.ses.ended = none) :
    t'.ses = t.ses ∨ ∃ sev methods, (serverSession H o methods).step t.ses sev = some t'.ses := by
  have hlive := transport_live hst
  have hnot : ¬ t.ses.ended.isSome = true := by simp [hlive]
  simp only [transport] at hst
  rw [if_neg hnot] at hst
  have hmethods : KexMethods := kexMethods K t.tables t.kex []
  cases ev with
  | timeouts rekey keepalives close =>
    simp only [Option.ite_none_right_eq_some, Option.some.injEq] at hst
    obtain ⟨-, rfl⟩ := hst
    cases close with
    | some msg => cases hend
    | none =>
      simp only [Transport.checktimeouts]
      split_ifs with hident
      · exact .inl rfl
      all_goals
        rcases maybeRekey_cases t rekey with heq | ⟨rand, hsent, heq⟩
        · rw [heq]
          exact .inl (by first | rfl | exact Transport.sends_ses)
        · rw [heq]
          refine .inr ⟨.timer true none, hmethods, ?_⟩
          have hcond : t.ses.remoteident = true ∧ True ∧
              (!t.ses.kexstate.sentkexinit) = true :=
            ⟨by simpa using hident, trivial, by simp [hsent]⟩
          simp only [serverSession, if_neg hnot, if_pos hcond, Transport.sends_ses,
            Transport.sendMsgKexinit, Transport.send_ses]
  | ident line =>
    simp only [Option.ite_none_right_eq_some, Option.some.injEq] at hst
    obtain ⟨-, rfl⟩ := hst
    exact .inr ⟨.ident, hmethods, by simp only [serverSession, if_neg hnot]⟩
  | packet p =>
    simp only [Option.ite_none_right_eq_some, Option.some.injEq] at hst
    obtain ⟨⟨-, hident⟩, rfl⟩ := hst
    obtain ⟨kex, hkex⟩ := processPacket_ses hend
    refine .inr ⟨.packet p.packet, kexMethods K t.tables kex p.rand, ?_⟩
    simp only [serverSession, if_neg hnot, if_pos hident]
    exact congrArg some hkex.symm
  | noPacket =>
    simp only [Option.ite_none_right_eq_some, Option.some.injEq] at hst
    obtain ⟨-, rfl⟩ := hst
    exact .inl rfl
  | flush =>
    simp only [Option.ite_none_right_eq_some, Option.some.injEq] at hst
    obtain ⟨-, rfl⟩ := hst
    exact .inl (Transport.maybeFlushReplyQueue_only t).ses
  | channelDone index unlistens =>
    simp only [Option.ite_none_right_eq_some, Option.some.injEq] at hst
    obtain ⟨-, rfl⟩ := hst
    exact .inr ⟨.channelDone index unlistens, hmethods, by simp only [serverSession, if_neg hnot]⟩
  | accept listener opens =>
    simp only [Option.ite_none_right_eq_some, Option.some.injEq] at hst
    obtain ⟨⟨-, hmem⟩, rfl⟩ := hst
    refine .inr ⟨.accept listener opens, hmethods, ?_⟩
    simp only [serverSession, if_neg hnot, if_pos hmem]
    cases opens <;> rfl
  | sends payloads =>
    simp only [Option.ite_none_right_eq_some, Option.some.injEq] at hst
    obtain ⟨-, rfl⟩ := hst
    exact .inl Transport.sends_ses
  | write n =>
    simp only [Option.ite_none_right_eq_some, Option.some.injEq] at hst
    obtain ⟨-, rfl⟩ := hst
    exact .inl rfl

end Effects

/-! ### The run of an exchange -/

/-- The packet with the given type and fields, on a system without files. -/
def TransportPacket.ofFields (type : UInt8) (fields : Bytes)
    (h : (type :: fields).length ≤ bufMaxSize) : TransportPacket where
  raw := Buffer.ofBytes (type :: fields) h
  authfile := none
  conn := {}
  replies := []

/-- The fields of a KEXINIT, with the `first_kex_packet_follows` byte. -/
def clientLists (kexalgos : Bytes) (follows : UInt8) : Bytes :=
  List.replicate 16 0 ++ encodeFields [kexalgos, ascii "ssh-ed25519", ascii "aes256-ctr",
    ascii "aes256-ctr", ascii "hmac-sha2-256", ascii "hmac-sha2-256", ascii "none", ascii "none",
    [], []] ++ [follows] ++ store32h 0

/-- An iteration of the loop with this input. -/
def iteration (ev : TransportEvent) : List TransportEvent :=
  [.timeouts none [] none, ev, .flush, .write 0]

/-- A KEXINIT without extensions. -/
def plainKexinit : TransportPacket :=
  .ofFields 20 (clientLists (ascii "curve25519-sha256") 0) (by decide +kernel)

/-- A KEXINIT with `kex-strict-c`. -/
def strictKexinit : TransportPacket :=
  .ofFields 20 (clientLists (ascii "curve25519-sha256," ++ sshStrictKexC) 0) (by decide +kernel)

/-- The identification, and an exchange that starts with this KEXINIT. -/
def firstExchange (kexinit : TransportPacket) : List TransportEvent :=
  iteration (.ident (ascii "SSH-2.0-client")) ++ iteration (.packet kexinit) ++
    iteration (.packet (.ofFields 30 [] kexdhInit_fits)) ++
    iteration (.packet (.ofFields 21 [] newkeys_fits))

end Ps4Dropbear
