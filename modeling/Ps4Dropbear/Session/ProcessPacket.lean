import Ps4Dropbear.Auth.Soundness
import Ps4Dropbear.Session.Kex

/-!
# Packet dispatch

`process_packet`, the handler table of the server, and a whole session as a transition system:
packets, timers, and the loop's work on channels and listeners.

The gate in front of the handlers is spread over `requirenext`, `ignorenext`, strict key exchange,
the comparison with `MAX_UNAUTH_PACKET_TYPE` and the table; handlers rewrite the first two.

* `acceptPacket` : `process_packet` up to the call of a handler.
* `serverSession` : the session.
* `no_service_before_keys_and_auth` : no user authentication before the first key exchange, and
  nothing of the connection protocol before authentication.
-/

namespace Ps4Dropbear

/-- `svr_packettypes`. -/
def svrPackettypes : List (ℕ × Handler) :=
  [(94, .recvMsgChannelData), (93, .recvMsgChannelWindowAdjust), (50, .recvMsgUserauthRequest),
    (5, .recvMsgServiceRequest), (20, .recvMsgKexinit), (30, .recvMsgKexdhInit),
    (21, .recvMsgNewkeys), (80, .svrRecvMsgGlobalRequest), (98, .recvMsgChannelRequest),
    (90, .recvMsgChannelOpen), (96, .recvMsgChannelEof), (97, .recvMsgChannelClose),
    (99, .ignoreRecvResponse), (100, .ignoreRecvResponse), (82, .ignoreRecvResponse),
    (81, .ignoreRecvResponse), (91, .recvMsgChannelOpenConfirmation),
    (92, .recvMsgChannelOpenFailure)]

/-- The handler for a message type: the first entry of the table that has it. -/
def findHandler (type : ℕ) : Option Handler :=
  (svrPackettypes.find? fun e => e.1 == type).map (·.2)

/-! ### The connection protocol -/

/-- What the connection layer decides in a handler. -/
structure ConnEnv where
  /-- The handler ends the session. -/
  exits : Option Exit := none
  /-- The type is known, there is room in the table and the init handler accepts. -/
  opens : Bool := false
  /-- The channel is removed, by `check_close` or by a failed init handler. -/
  removes : Bool := false
  /-- A listener is created, with this number. -/
  listens : Option ℕ := none
  /-- Listeners are removed: a cancelled forward, or the agent listener of a closed channel. -/
  unlistens : List ℕ := []

namespace Conn

/-- The first free place of `ses.channels`. -/
def freeIndex (c : Conn) : ℕ :=
  ((List.range (c.channels.length + 1)).find? fun i => c.channels.all (·.index != i)).getD 0

/-- `newchannel`. -/
def newchannel (c : Conn) (awaitOpen : Bool) : Conn :=
  { c with channels := c.channels ++ [⟨c.freeIndex, awaitOpen⟩] }

/-- `remove_channel`. -/
def removeChannel (c : Conn) (index : ℕ) : Conn :=
  { c with channels := c.channels.filter (·.index != index) }

/-- `remove_listener`. -/
def removeListeners (c : Conn) (ids : List ℕ) : Conn :=
  { c with listeners := c.listeners.filter fun j => !ids.contains j }

/-- `getchannel`. -/
def getchannel (c : Conn) (buf : Buffer) : Except Exit (ChannelEntry × Buffer) := do
  let (chan, buf) ← bufGetint buf
  match c.channels.find? (·.index == chan) with
  | none => dropbearExit ("Unknown channel " ++ toString chan)
  | some e => return (e, buf)

end Conn

/-- A handler that works on one channel, which may be removed in it, and may create a listener. -/
def onChannel (c : Conn) (buf : Buffer) (env : ConnEnv) : Except Exit Conn := do
  let (e, _) ← c.getchannel buf
  let c := if env.removes then c.removeChannel e.index else c
  return { c.removeListeners env.unlistens with
    listeners := (c.removeListeners env.unlistens).listeners ++ env.listens.toList }

/-- `recv_msg_channel_open`. -/
def recvMsgChannelOpen (c : Conn) (buf : Buffer) (env : ConnEnv) : Except Exit Conn := do
  let (_, buf) ← bufGetstring buf
  let (_, buf) ← bufGetint buf
  let (_, buf) ← bufGetint buf
  let _ ← bufGetint buf
  return if env.opens then c.newchannel false else c

/-- `recv_msg_channel_open_confirmation` and `recv_msg_channel_open_failure`, which answer a
channel that a listener has opened. -/
def recvMsgChannelOpenReply (c : Conn) (buf : Buffer) (removes : Bool) : Except Exit Conn := do
  let (e, _) ← c.getchannel buf
  if !e.awaitOpen then dropbearExit "Unexpected channel reply"
  else if removes then return c.removeChannel e.index
  else
    return { c with
      channels := c.channels.map fun e' => if e'.index = e.index then { e' with awaitOpen := false }
        else e' }

/-- `svr_recv_msg_global_request`: forwards are requested and cancelled. -/
def svrRecvMsgGlobalRequest (c : Conn) (buf : Buffer) (env : ConnEnv) : Except Exit Conn := do
  let (_, buf) ← bufGetstring buf
  let _ ← bufGetbool buf
  return { c.removeListeners env.unlistens with
    listeners := (c.removeListeners env.unlistens).listeners ++ env.listens.toList }

/-! ### Handlers -/

variable (H : Host) (o : SvrOpts) (K : KexMethods)

/-- `recv_msg_service_request`. -/
def recvMsgServiceRequest (s : Session) (buf : Buffer) : Except Exit Session := do
  let (name, _) ← bufGetstring buf
  if name = ascii "ssh-userauth" then
    return { s with sent := s.sent ++ [sshMsgServiceAccept] }
  else if name = ascii "ssh-connection" then
    if !s.authstate.authdone then dropbearExit "Request for connection before auth"
    else return { s with sent := s.sent ++ [sshMsgServiceAccept] }
  else dropbearExit "Unrecognised SSH_MSG_SERVICE_REQUEST"

/-- The connection table after one of its handlers. -/
def connHandler (h : Handler) (c : Conn) (buf : Buffer) (env : ConnEnv) : Except Exit Conn :=
  match env.exits with
  | some msg => dropbearExit msg
  | none =>
    match h with
    | .recvMsgChannelOpen => recvMsgChannelOpen c buf env
    | .recvMsgChannelOpenConfirmation => recvMsgChannelOpenReply c buf env.removes
    | .recvMsgChannelOpenFailure => recvMsgChannelOpenReply c buf true
    | .svrRecvMsgGlobalRequest => svrRecvMsgGlobalRequest c buf env
    | .ignoreRecvResponse => .ok c
    | _ => onChannel c buf env

/-- A received packet, `ses.payload` at `payload_beginning`, and what the system answers while it
is handled. -/
structure Packet where
  raw : Buffer
  authfile : Option AuthFile
  conn : ConnEnv

/-- The payload behind the type byte. -/
def Packet.payload (p : Packet) : Payload where
  buf := p.raw.advance 1
  beginning := p.raw.pos
  beginning_le := Nat.le_min.2 ⟨Nat.le_add_right _ _, p.raw.pos_le⟩

/-- The call of a handler. -/
def runHandler (s : Session) (h : Handler) (p : Packet) : Except Exit Session :=
  match h with
  | .recvMsgKexinit => recvMsgKexinit K s p.payload.buf
  | .recvMsgKexdhInit => recvMsgKexdhInit K s p.payload.buf
  | .recvMsgNewkeys => recvMsgNewkeys s
  | .recvMsgServiceRequest => recvMsgServiceRequest s p.payload.buf
  | .recvMsgUserauthRequest => do
    let a ← recvMsgUserauthRequest H o (s.sessionId.getD []) s.authstate ⟨p.payload, p.authfile⟩
    return { s with authstate := a }
  | h => do
    let c ← connHandler h s.conn p.payload.buf p.conn
    return { s with conn := c }

/-! ### `process_packet` -/

/-- `recv_unimplemented`. -/
def recvUnimplemented (s : Session) : Session :=
  { s with sent := s.sent ++ [sshMsgUnimplemented] }

/-- `process_packet` up to the call of a handler: the session, and the handler if there is one to
call. -/
def acceptPacket (s : Session) (type : ℕ) : Except Exit (Session × Option Handler) :=
  let firstStrictKex := s.kexstate.strictKex && !s.kexstate.recvfirstnewkeys
  if type = sshMsgDisconnect then dropbearExit "Disconnect received"
  else if !firstStrictKex ∧
      (type = sshMsgIgnore ∨ type = sshMsgDebug ∨ type = sshMsgUnimplemented) then
    .ok (s, none)
  else if s.requirenext ≠ 0 ∧ s.requirenext ≠ type then
    -- other messages of the transport layer may come in between, except at the first strict kex
    if 1 ≤ type ∧ type ≤ 49 ∧ type ≠ sshMsgServiceRequest ∧ type ≠ sshMsgServiceAccept ∧
        type ≠ sshMsgKexinit ∧ !firstStrictKex then
      .ok (recvUnimplemented s, none)
    else
      dropbearExit ("Unexpected packet type " ++ toString type ++ ", expected " ++
        toString s.requirenext)
  else if s.ignorenext then
    .ok ({ s with ignorenext := false }, none)
  else if !s.authstate.authdone ∧ type > maxUnauthPacketType then
    dropbearExit ("Received message " ++ toString type ++ " before userauth")
  else
    -- `requirenext` is clear, or it is this type and is cleared now
    match findHandler type with
    | none => .ok (recvUnimplemented { s with requirenext := 0 }, none)
    | some h => .ok ({ s with requirenext := 0 }, some h)

/-- The session ends. -/
def Session.exit (s : Session) (msg : Exit) : Session := { s with ended := some msg }

/-- `process_packet`, on the session whose sequence number counts the packet already. -/
def processPacket (s : Session) (p : Packet) : Session :=
  match bufGetbyte p.raw with
  | .error msg => s.exit msg
  | .ok (type, _) =>
    match acceptPacket s type.toNat with
    | .error msg => s.exit msg
    | .ok (s, none) => { s with lastpacket := type.toNat }
    | .ok (s, some h) =>
      let s := { s with ran := s.ran ++ [(type.toNat, h)] }
      match runHandler H o K s h p with
      | .error msg => s.exit msg
      | .ok s => { s with lastpacket := type.toNat }

/-- What happens in a session. -/
inductive SessionEvent
  /-- The identification of the peer has been read. -/
  | ident
  /-- A packet has been decrypted. -/
  | packet (p : Packet)
  /-- `checktimeouts`: a rekey may be due, or the session may be closed. -/
  | timer (rekey : Bool) (close : Option Exit)
  /-- `channelio` removes a channel, with its listeners. -/
  | channelDone (index : ℕ) (unlistens : List ℕ)
  /-- A listener accepts a connection, and `send_msg_channel_open_init` opens a channel. -/
  | accept (listener : ℕ) (opens : Bool)

/-- A session of the server; it stops when it has ended. -/
def serverSession : LTS Session SessionEvent where
  step s ev :=
    if s.ended.isSome then none
    else
      match ev with
      | .ident => some { s with remoteident := true }
      | .packet p =>
        if s.remoteident then
          some (processPacket H o K { s with recvseq := (s.recvseq + 1) % 2 ^ 32 } p)
        else none
      | .timer rekey close =>
        match close with
        | some msg => some (s.exit msg)
        | none =>
          if s.remoteident ∧ rekey ∧ !s.kexstate.sentkexinit then
            some (sendMsgKexinit { s with kexstate := { s.kexstate with needrekey := false } })
          else some s
      | .channelDone index unlistens =>
        some { s with conn := (s.conn.removeChannel index).removeListeners unlistens }
      | .accept listener opens =>
        if listener ∈ s.conn.listeners then
          some (if opens then { s with conn := s.conn.newchannel true } else s)
        else none

/-- The session when `session_loop` is entered: our KEXINIT has been queued. -/
def svrSession (banner : Option Bytes) : Session :=
  sendMsgKexinit { authstate := svrAuthinitialise o banner }

/-! ### The gate -/

variable {H o K} {s s' : Session} {type : ℕ} {h : Handler} {p : Packet}

/-- The handlers of the connection protocol. -/
def Handler.IsConnection : Handler → Prop
  | .recvMsgKexinit | .recvMsgKexdhInit | .recvMsgNewkeys => False
  | .recvMsgServiceRequest | .recvMsgUserauthRequest => False
  | _ => True

instance (h : Handler) : Decidable h.IsConnection := by
  cases h <;> unfold Handler.IsConnection <;> infer_instance

theorem findHandler_mem (hf : findHandler type = some h) : (type, h) ∈ svrPackettypes := by
  simp only [findHandler, Option.map_eq_some_iff] at hf
  obtain ⟨e, he, rfl⟩ := hf
  have htype := List.find?_some he
  simp only [beq_iff_eq] at htype
  rw [← htype]
  exact List.mem_of_find?_eq_some he

/-- The numbers of the table: the connection protocol is above `MAX_UNAUTH_PACKET_TYPE`. -/
theorem findHandler_connection (hf : findHandler type = some h) :
    h.IsConnection → type > maxUnauthPacketType := by
  have htable : ∀ e ∈ svrPackettypes, e.2.IsConnection → e.1 > maxUnauthPacketType := by
    decide
  exact htable _ (findHandler_mem hf)

/-- The next packets that `requirenext` can stand for before the first NEWKEYS. -/
def RequiresKex (s : Session) : Prop :=
  s.requirenext = sshMsgKexinit ∨ s.requirenext = sshMsgKexdhInit ∨ s.requirenext = sshMsgNewkeys

theorem RequiresKex.ne_zero (hs : RequiresKex s) : s.requirenext ≠ 0 := by
  rcases hs with h | h | h <;> rw [h] <;> decide

/-- The packets of key exchange have handlers, the ones of key exchange. -/
theorem RequiresKex.findHandler (hs : RequiresKex s) :
    ∃ h, findHandler s.requirenext = some h ∧
      (h = .recvMsgKexinit ∨ h = .recvMsgKexdhInit ∨ h = .recvMsgNewkeys) := by
  rcases hs with h | h | h <;> rw [h]
  · exact ⟨.recvMsgKexinit, by decide, .inl rfl⟩
  · exact ⟨.recvMsgKexdhInit, by decide, .inr (.inl rfl)⟩
  · exact ⟨.recvMsgNewkeys, by decide, .inr (.inr rfl)⟩

/-- A packet for which no handler is called changes nothing that matters here. -/
theorem acceptPacket_none (ha : acceptPacket s type = .ok (s', none)) :
    SameService s s' ∧ s'.kexstate = s.kexstate ∧
      (RequiresKex s → s'.requirenext = s.requirenext) := by
  simp only [acceptPacket] at ha
  rw [ite_exit_eq_ok] at ha
  obtain ⟨-, ha⟩ := ha
  split_ifs at ha with hfree hreq hbetween hign hauth
  · cases ha
    exact ⟨⟨rfl, rfl, rfl⟩, rfl, fun _ => rfl⟩
  · cases ha
    exact ⟨⟨rfl, rfl, rfl⟩, rfl, fun _ => rfl⟩
  · simp at ha
  · cases ha
    exact ⟨⟨rfl, rfl, rfl⟩, rfl, fun _ => rfl⟩
  · simp at ha
  · split at ha
    · next hnone =>
      cases ha
      refine ⟨⟨rfl, rfl, rfl⟩, rfl, ?_⟩
      intro hs
      -- an expected packet of key exchange has a handler
      have heq : s.requirenext = type := by
        by_contra hne
        exact hreq ⟨hs.ne_zero, hne⟩
      obtain ⟨h, hfound, -⟩ := hs.findHandler
      rw [heq, hnone] at hfound
      cases hfound
    · cases ha

/-- A handler is called only for its own type, for the packet that is required, and for a packet
of the connection protocol only after authentication. -/
theorem acceptPacket_some (ha : acceptPacket s type = .ok (s', some h)) :
    s' = { s with requirenext := 0 } ∧ findHandler type = some h ∧
      (s.requirenext ≠ 0 → s.requirenext = type) ∧
      (type > maxUnauthPacketType → s.authstate.authdone = true) := by
  simp only [acceptPacket] at ha
  rw [ite_exit_eq_ok] at ha
  obtain ⟨-, ha⟩ := ha
  split_ifs at ha with hfree hreq hbetween hign hauth
  · cases ha
  · cases ha
  · simp at ha
  · cases ha
  · simp at ha
  · split at ha
    · cases ha
    · next h' hfound =>
      cases ha
      refine ⟨rfl, hfound, ?_, ?_⟩
      · intro hne
        by_contra hne'
        exact hreq ⟨hne, hne'⟩
      · intro hgt
        by_contra hnot
        exact hauth ⟨by simpa using hnot, hgt⟩

/-- What a handler does to the parts of the session that the gate protects. -/
structure HandlerEffect (h : Handler) (s s' : Session) : Prop where
  ran : s'.ran = s.ran
  keys : s.kexstate.recvfirstnewkeys = true → s'.kexstate.recvfirstnewkeys = true
  authdone : s.authstate.authdone = true → s'.authstate.authdone = true
  conn : s'.conn = s.conn ∨ h.IsConnection
  /-- A handler of key exchange asks for the next packet, or completes the exchange. -/
  next : h = .recvMsgKexinit ∨ h = .recvMsgKexdhInit ∨ h = .recvMsgNewkeys →
    RequiresKex s' ∨ s'.kexstate.recvfirstnewkeys = true

theorem HandlerEffect.of_sameService (hs : SameService s s')
    (hkeys : s.kexstate.recvfirstnewkeys = true → s'.kexstate.recvfirstnewkeys = true)
    (hnext : RequiresKex s' ∨ s'.kexstate.recvfirstnewkeys = true) : HandlerEffect h s s' where
  ran := hs.ran
  keys := hkeys
  authdone := fun hd => by rw [hs.authstate]; exact hd
  conn := .inl hs.conn
  next := fun _ => hnext

theorem recvMsgServiceRequest_ok {buf : Buffer} (hr : recvMsgServiceRequest s buf = .ok s') :
    ∃ sent, s' = { s with sent := sent } := by
  simp only [recvMsgServiceRequest, bind_eq_ok, Prod.exists] at hr
  obtain ⟨name, buf', -, hr⟩ := hr
  split_ifs at hr <;> cases hr <;> exact ⟨_, rfl⟩

theorem runHandler_effect (hr : runHandler H o K s h p = .ok s') : HandlerEffect h s s' := by
  have hconn : h.IsConnection → (∃ c, s' = { s with conn := c }) → HandlerEffect h s s' := by
    rintro hc ⟨c, rfl⟩
    refine ⟨rfl, id, id, .inr hc, ?_⟩
    rintro (rfl | rfl | rfl) <;> exact absurd hc id
  cases h with
  | recvMsgKexinit =>
    obtain ⟨hs, hf, hn⟩ := recvMsgKexinit_ok hr
    exact .of_sameService hs (fun hk => hf.trans hk) (.inl (.inr (.inl hn)))
  | recvMsgKexdhInit =>
    obtain ⟨hs, hf, hn⟩ := recvMsgKexdhInit_ok hr
    exact .of_sameService hs (fun hk => hf.trans hk) (.inl (.inr (.inr hn)))
  | recvMsgNewkeys =>
    obtain ⟨hs, hf⟩ := recvMsgNewkeys_ok hr
    exact .of_sameService hs (fun _ => hf) (.inr hf)
  | recvMsgServiceRequest =>
    obtain ⟨sent, rfl⟩ := recvMsgServiceRequest_ok hr
    exact ⟨rfl, id, id, .inl rfl, by rintro (h | h | h) <;> cases h⟩
  | recvMsgUserauthRequest =>
    simp only [runHandler, bind_eq_ok, pure_eq_ok] at hr
    obtain ⟨a, ha, rfl⟩ := hr
    refine ⟨rfl, id, ?_, .inl rfl, by rintro (h | h | h) <;> cases h⟩
    intro hd
    rw [recvMsgUserauthRequest_of_authdone hd] at ha
    cases ha
    exact hd
  | _ =>
    simp only [runHandler, bind_eq_ok, pure_eq_ok] at hr
    obtain ⟨c, -, rfl⟩ := hr
    exact hconn trivial ⟨c, rfl⟩

/-- **What the gate guarantees**: user authentication has been tried only after the first key
exchange, and the connection protocol has been used only after authentication. -/
structure ServiceGated (s : Session) : Prop where
  userauth : (∃ type, (type, .recvMsgUserauthRequest) ∈ s.ran) →
    s.kexstate.recvfirstnewkeys = true
  connection : (∃ e ∈ s.ran, e.1 > maxUnauthPacketType) ∨ s.conn.channels ≠ [] ∨
    s.conn.listeners ≠ [] → s.authstate.authdone = true

/-- The inductive invariant: before the first NEWKEYS, a live session requires a packet of key
exchange. -/
structure GateInv (s : Session) : Prop where
  kex : s.ended = none → s.kexstate.recvfirstnewkeys = false → RequiresKex s
  gated : ServiceGated s

theorem ServiceGated.of_sameService (hg : ServiceGated s) (hs : SameService s s')
    (hkeys : s'.kexstate.recvfirstnewkeys = s.kexstate.recvfirstnewkeys) : ServiceGated s' where
  userauth := by rw [hs.ran, hkeys]; exact hg.userauth
  connection := by rw [hs.ran, hs.conn, hs.authstate]; exact hg.connection

/-- A session that ends is not asked for its next packet. -/
theorem GateInv.exit (hg : ServiceGated s) (msg : Exit) : GateInv (s.exit msg) where
  kex := fun hend => by cases hend
  gated := hg.of_sameService ⟨rfl, rfl, rfl⟩ rfl

/-- The invariant does not look at the other fields. -/
theorem GateInv.of_sameService (hI : GateInv s) (hlive : s.ended = none) (hs : SameService s s')
    (hkeys : s'.kexstate.recvfirstnewkeys = s.kexstate.recvfirstnewkeys)
    (hreq : RequiresKex s → RequiresKex s') : GateInv s' where
  kex := fun _ hf => hreq (hI.kex hlive (hkeys.symm.trans hf))
  gated := hI.gated.of_sameService hs hkeys

/-- Before the first NEWKEYS, only handlers of key exchange are called. -/
theorem GateInv.handler_kex (hI : GateInv s) (hlive : s.ended = none)
    (ha : acceptPacket s type = .ok (s', some h)) (hf : s.kexstate.recvfirstnewkeys = false) :
    h = .recvMsgKexinit ∨ h = .recvMsgKexdhInit ∨ h = .recvMsgNewkeys := by
  obtain ⟨-, hfound, hreq, -⟩ := acceptPacket_some ha
  have hk := hI.kex hlive hf
  obtain ⟨h', hfound', hh⟩ := hk.findHandler
  rw [hreq hk.ne_zero, hfound] at hfound'
  cases hfound'
  exact hh

/-- A handler that the gate lets through may be recorded. -/
theorem GateInv.ran (hI : GateInv s) (hlive : s.ended = none)
    (ha : acceptPacket s type = .ok (s', some h)) :
    ServiceGated { s' with ran := s'.ran ++ [(type, h)] } := by
  have hkex := hI.handler_kex hlive ha
  obtain ⟨rfl, hfound, hreq, hauth⟩ := acceptPacket_some ha
  constructor
  · rintro ⟨t, ht⟩
    simp only [List.mem_append, List.mem_singleton, Prod.mk.injEq] at ht
    rcases ht with ht | ⟨rfl, rfl⟩
    · exact hI.gated.userauth ⟨t, ht⟩
    · by_contra hnot
      rcases hkex (by simpa using hnot) with hh | hh | hh <;> cases hh
  · rintro (⟨e, he, hgt⟩ | hc)
    · simp only [List.mem_append, List.mem_singleton] at he
      rcases he with he | rfl
      · exact hI.gated.connection (.inl ⟨e, he, hgt⟩)
      · exact hauth hgt
    · exact hI.gated.connection (.inr hc)

/-- A handler keeps the gate shut, if the connection protocol is used only after
authentication. -/
theorem ServiceGated.handler (hg : ServiceGated s) (heff : HandlerEffect h s s')
    (hauth : h.IsConnection → s.authstate.authdone = true) : ServiceGated s' where
  userauth := by
    rw [heff.ran]
    exact fun hu => heff.keys (hg.userauth hu)
  connection := by
    rw [heff.ran]
    intro hc
    rcases heff.conn with hsame | hconn
    · rw [hsame] at hc
      exact heff.authdone (hg.connection hc)
    · exact heff.authdone (hauth hconn)

theorem processPacket_inv (hI : GateInv s) (hlive : s.ended = none) :
    GateInv (processPacket H o K s p) := by
  unfold processPacket
  split
  · exact .exit hI.gated _
  · next type buf hbyte =>
    split
    · exact .exit hI.gated _
    · next s₁ ha =>
      obtain ⟨hs, hk, hreq⟩ := acceptPacket_none ha
      refine hI.of_sameService hlive (hs.trans ⟨rfl, rfl, rfl⟩) (congrArg _ hk) fun hr => ?_
      simpa only [RequiresKex, hreq hr] using hr
    · next s₁ h ha =>
      have hran := hI.ran hlive ha
      have hkex := hI.handler_kex hlive ha
      obtain ⟨rfl, hfound, hreq, hauth⟩ := acceptPacket_some ha
      simp only
      split
      · exact .exit hran _
      · next s₂ hr =>
        have heff := runHandler_effect hr
        have hgated : ServiceGated s₂ :=
          hran.handler heff fun hc => hauth (findHandler_connection hfound hc)
        refine ⟨?_, hgated.of_sameService ⟨rfl, rfl, rfl⟩ rfl⟩
        intro _ hf
        have hbefore : s.kexstate.recvfirstnewkeys = false := by
          by_contra hnot
          have := heff.keys (by simpa using hnot)
          exact absurd (hf.symm.trans this) (by simp)
        rcases heff.next (hkex hbefore) with hnext | hdone
        · exact hnext
        · exact absurd (hf.symm.trans hdone) (by simp)

theorem GateInv.svrSession (banner : Option Bytes) : GateInv (svrSession o banner) where
  kex := fun _ _ => .inl rfl
  gated :=
    { userauth := by rintro ⟨t, ht⟩; cases ht
      connection := by
        rintro (⟨e, he, -⟩ | hc | hl)
        · cases he
        · exact absurd rfl hc
        · exact absurd rfl hl }

/-- A channel or a listener that is removed opens no gate. -/
theorem Conn.remove_ne_nil {c : Conn} {i : ℕ} {ids : List ℕ}
    (hc : ((c.removeChannel i).removeListeners ids).channels ≠ [] ∨
      ((c.removeChannel i).removeListeners ids).listeners ≠ []) :
    c.channels ≠ [] ∨ c.listeners ≠ [] := by
  refine hc.imp (fun hne hnil => hne ?_) fun hne hnil => hne ?_
  · simp [removeChannel, removeListeners, hnil]
  · simp [removeChannel, removeListeners, hnil]

/-- Every step of a session keeps the invariant. -/
theorem serverSession_inv {ev : SessionEvent} (hI : GateInv s)
    (hst : (serverSession H o K).step s ev = some s') : GateInv s' := by
  have hlive : s.ended = none := by
    by_contra hne
    have hsome : s.ended.isSome = true := Option.isSome_iff_ne_none.2 hne
    simp [serverSession, hsome] at hst
  simp only [serverSession] at hst
  rw [if_neg (by simp [hlive])] at hst
  cases ev with
  | ident =>
    cases hst
    exact hI.of_sameService hlive ⟨rfl, rfl, rfl⟩ rfl id
  | packet p =>
    simp only at hst
    split_ifs at hst
    cases hst
    exact processPacket_inv (hI.of_sameService hlive ⟨rfl, rfl, rfl⟩ rfl id) hlive
  | timer rekey close =>
    cases close with
    | some msg =>
      cases hst
      exact .exit hI.gated msg
    | none =>
      simp only at hst
      split_ifs at hst
      · cases hst
        exact hI.of_sameService hlive ⟨rfl, rfl, rfl⟩ rfl id
      · cases hst
        exact hI
  | channelDone index unlistens =>
    cases hst
    refine ⟨hI.kex, hI.gated.userauth, ?_⟩
    rintro (hran | hc)
    · exact hI.gated.connection (.inl hran)
    · exact hI.gated.connection (.inr (Conn.remove_ne_nil hc))
  | accept listener opens =>
    simp only at hst
    by_cases hmem : listener ∈ s.conn.listeners
    swap
    · rw [if_neg hmem] at hst
      cases hst
    rw [if_pos hmem] at hst
    have hauth : s.authstate.authdone = true :=
      hI.gated.connection (.inr (.inr (List.ne_nil_of_mem hmem)))
    cases opens with
    | false =>
      cases hst
      exact hI
    | true =>
      rw [if_pos rfl] at hst
      cases hst
      exact ⟨hI.kex, hI.gated.userauth, fun _ => hauth⟩

/-- **No service before keys and authentication.**  In every state that a session can reach,
`recv_msg_userauth_request` has run only if a first NEWKEYS was received and processed; and a
handler for a type above `MAX_UNAUTH_PACKET_TYPE` has run, or a channel or a listener exists, only
if authentication is done. -/
theorem no_service_before_keys_and_auth (banner : Option Bytes)
    (hr : (serverSession H o K).Reachable (svrSession o banner) s) : ServiceGated s :=
  (hr.invariant (.svrSession banner) fun _ _ _ hI hst => serverSession_inv hI hst).gated

/-! ### A session up to its first channel -/

/-- Key exchange that accepts every offer, without strict mode, and has a fixed hash. -/
def plainKex : KexMethods where
  readKexAlgos _ := .ok ⟨false, false, false, true⟩
  kexdhReply _ := .ok (ascii "hash")

/-- A packet with the given type and fields. -/
def Packet.ofFields (type : UInt8) (fields : Bytes) (h : (type :: fields).length ≤ bufMaxSize) :
    Packet :=
  ⟨Buffer.ofBytes (type :: fields) h, none, { opens := true }⟩

theorem kexdhInit_fits : [(30 : UInt8)].length ≤ bufMaxSize := by decide

theorem newkeys_fits : [(21 : UInt8)].length ≤ bufMaxSize := by decide

/-- A key exchange, a password login of `root`, and a session channel. -/
def firstChannel : List SessionEvent :=
  [.ident, .packet (.ofFields 20 [] (by decide)), .packet (.ofFields 30 [] kexdhInit_fits),
    .packet (.ofFields 21 [] newkeys_fits),
    .packet (.ofFields 50 (encodeFields [ascii "root", ascii "ssh-connection",
      ascii "password"] ++ [0] ++ sshString (ascii "root")) rootLogin_fits),
    .packet (.ofFields 90 (sshString (ascii "session") ++ store32h 0 ++ store32h 24576 ++
      store32h 16384) (by decide))]

theorem no_service_before_keys_and_auth_firstChannel :
    ∃ s, (serverSession bareHost {} plainKex).Reachable (svrSession {} none) s ∧
      s.conn.channels ≠ [] ∧ s.ended = none ∧ ServiceGated s := by
  have hrun : ((serverSession bareHost {} plainKex).exec (svrSession {} none) firstChannel).any
      (fun s => !s.conn.channels.isEmpty && s.ended.isNone) = true := by
    decide
  obtain ⟨s, hs, hp⟩ := (Option.any_eq_true _ _).1 hrun
  simp only [Bool.and_eq_true, Bool.not_eq_true', List.isEmpty_eq_false_iff,
    Option.isNone_iff_eq_none] at hp
  have hreach : (serverSession bareHost {} plainKex).Reachable (svrSession {} none) s :=
    ⟨firstChannel, hs⟩
  exact ⟨s, hreach, hp.1, hp.2, no_service_before_keys_and_auth none hreach⟩

end Ps4Dropbear
