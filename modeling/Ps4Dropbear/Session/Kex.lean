import Ps4Dropbear.Auth.Userauth

/-!
# Key exchange

The state of a server session as far as `process_packet` and the handlers of key exchange
(`common-kex.c`, `svr-kex.c`) read and write it.  What the peer's algorithm lists select and what
the Diffie-Hellman value yields is in `KexMethods`; everything else is computed as in the source.

The channels and listeners of the session are a table with the numbers in use; their data path is
modelled elsewhere.

* `sendMsgKexinit`, `recvMsgKexinit`, `recvMsgKexdhInit` : the exchange.
* `switchKeys`, `sendMsgNewkeys`, `recvMsgNewkeys` : taking the keys into use.
-/

namespace Ps4Dropbear

/-- The message numbers of `ssh.h` that the server has handlers for or sends during kex. -/
def sshMsgDisconnect : ℕ := 1
def sshMsgIgnore : ℕ := 2
def sshMsgUnimplemented : ℕ := 3
def sshMsgDebug : ℕ := 4
def sshMsgServiceRequest : ℕ := 5
def sshMsgServiceAccept : ℕ := 6
def sshMsgExtInfo : ℕ := 7
def sshMsgKexinit : ℕ := 20
def sshMsgNewkeys : ℕ := 21
def sshMsgKexdhInit : ℕ := 30
def sshMsgKexdhReply : ℕ := 31
def sshMsgUserauthRequest : ℕ := 50
/-- `MAX_UNAUTH_PACKET_TYPE`, which is `SSH_MSG_USERAUTH_PK_OK`. -/
def maxUnauthPacketType : ℕ := 60

/-- The flags of `struct KEXState`. -/
structure KexState where
  sentkexinit : Bool := false
  recvkexinit : Bool := false
  themFirstfollows : Bool := false
  sentnewkeys : Bool := false
  recvnewkeys : Bool := false
  donefirstkex : Bool := false
  donesecondkex : Bool := false
  recvfirstnewkeys : Bool := false
  strictKex : Bool := false
  needrekey : Bool := false
  deriving DecidableEq

/-- `ses.newkeys`: which exchange it belongs to, and the `valid` flags of its two directions. -/
structure NewKeys where
  generation : ℕ
  recvValid : Bool := false
  transValid : Bool := false
  deriving DecidableEq

/-- A channel of `ses.channels`. -/
structure ChannelEntry where
  index : ℕ
  awaitOpen : Bool
  deriving DecidableEq

/-- The channel and listener tables. -/
structure Conn where
  channels : List ChannelEntry := []
  listeners : List ℕ := []
  deriving DecidableEq

/-- The handlers of `svr_packettypes`. -/
inductive Handler
  | recvMsgChannelData
  | recvMsgChannelWindowAdjust
  | recvMsgUserauthRequest
  | recvMsgServiceRequest
  | recvMsgKexinit
  | recvMsgKexdhInit
  | recvMsgNewkeys
  | svrRecvMsgGlobalRequest
  | recvMsgChannelRequest
  | recvMsgChannelOpen
  | recvMsgChannelEof
  | recvMsgChannelClose
  | ignoreRecvResponse
  | recvMsgChannelOpenConfirmation
  | recvMsgChannelOpenFailure
  deriving DecidableEq, Repr

/-- `struct sshsession`. -/
structure Session where
  remoteident : Bool := false
  requirenext : ℕ := sshMsgKexinit
  ignorenext : Bool := false
  lastpacket : ℕ := 0
  dataallowed : Bool := true
  recvseq : ℕ := 0
  transseq : ℕ := 0
  kexstate : KexState := {}
  newkeys : Option NewKeys := none
  /-- The exchange that `ses.keys->recv` comes from, `0` for none. -/
  keysRecv : ℕ := 0
  /-- The exchange that `ses.keys->trans` comes from. -/
  keysTrans : ℕ := 0
  /-- The number of exchanges started. -/
  generation : ℕ := 0
  sessionId : Option Bytes := none
  allowExtInfo : Bool := false
  authstate : AuthState
  conn : Conn := {}
  /-- The types of the transport messages sent so far. -/
  sent : List ℕ := []
  /-- The handlers that have been called, with the message type. -/
  ran : List (ℕ × Handler) := []
  /-- The session has ended with this message. -/
  ended : Option Exit := none

/-- What `read_kex_algos` takes from the peer's KEXINIT. -/
structure KexOffer where
  extInfo : Bool
  strict : Bool
  firstFollows : Bool
  allgood : Bool

/-- The cryptographic side of key exchange. -/
structure KexMethods where
  /-- `read_kex_algos`: the lists, or the exit when nothing matches or the packet is short. -/
  readKexAlgos : Buffer → Except Exit KexOffer
  /-- The value of KEXDH_INIT and `send_msg_kexdh_reply`: the exchange hash. -/
  kexdhReply : Buffer → Except Exit Bytes

variable (K : KexMethods)

/-- `send_msg_kexinit`.  A server has no `send_kex_first_guess`. -/
def sendMsgKexinit (s : Session) : Session :=
  { s with
    sent := s.sent ++ [sshMsgKexinit]
    dataallowed := false
    kexstate := { s.kexstate with sentkexinit := true }
    generation := s.generation + 1
    newkeys := some { generation := s.generation + 1 } }

/-- `kexinitialise`. -/
def kexinitialise (k : KexState) : KexState :=
  { k with
    sentkexinit := false, recvkexinit := false, recvnewkeys := false, sentnewkeys := false
    themFirstfollows := false }

/-- The test of `switch_keys` for the keys for receiving. -/
def NewKeys.switchesRecv (n : NewKeys) (k : KexState) : Bool := k.recvnewkeys && n.recvValid

/-- The test of `switch_keys` for the keys for sending. -/
def NewKeys.switchesTrans (n : NewKeys) (k : KexState) : Bool := k.sentnewkeys && n.transValid

/-- `switch_keys`. -/
def switchKeys (s : Session) : Except Exit Session :=
  if !(s.kexstate.sentkexinit && s.kexstate.recvkexinit) then
    dropbearExit "Unexpected newkeys message"
  else
    match s.newkeys with
    | none => .ok s
    | some n =>
      let recv := n.switchesRecv s.kexstate
      let trans := n.switchesTrans s.kexstate
      let s := { s with
        keysRecv := if recv then n.generation else s.keysRecv
        keysTrans := if trans then n.generation else s.keysTrans }
      if s.kexstate.sentnewkeys && s.kexstate.recvnewkeys then
        .ok { s with newkeys := none, kexstate := kexinitialise s.kexstate }
      else
        .ok { s with newkeys := some { n with
          recvValid := n.recvValid && !recv, transValid := n.transValid && !trans } }

/-- `send_msg_newkeys` up to `switch_keys`; `gen_new_keys` makes both directions valid. -/
def genNewKeys (s : Session) : Session :=
  { s with
    sent := s.sent ++ [sshMsgNewkeys]
    dataallowed := true
    kexstate := { s.kexstate with
      sentnewkeys := true
      donesecondkex := s.kexstate.donesecondkex || s.kexstate.donefirstkex
      donefirstkex := true }
    newkeys := s.newkeys.map fun n => { n with recvValid := true, transValid := true } }

/-- `send_msg_newkeys`. -/
def sendMsgNewkeys (s : Session) : Except Exit Session := do
  let s ← switchKeys (genNewKeys s)
  return if s.kexstate.strictKex then { s with transseq := 0 } else s

/-- `recv_msg_newkeys` up to `switch_keys`. -/
def noteNewkeys (s : Session) : Session :=
  { s with kexstate := { s.kexstate with recvnewkeys := true } }

/-- `recv_msg_newkeys`. -/
def recvMsgNewkeys (s : Session) : Except Exit Session := do
  let s ← switchKeys (noteNewkeys s)
  let s := if s.kexstate.strictKex then { s with recvseq := 0 } else s
  return { s with kexstate := { s.kexstate with recvfirstnewkeys := true } }

/-- The second half of `recv_msg_kexinit`, behind our own KEXINIT.  `read_kex_algos` clears
`ses.newkeys` before it fills in the algorithms. -/
def readKexinit (s : Session) (payload : Buffer) : Except Exit Session := do
  if s.kexstate.recvkexinit then dropbearExit "Unexpected KEXINIT"
  else
    let offer ← K.readKexAlgos payload
    let first := !s.kexstate.donefirstkex
    let s := { s with
      allowExtInfo := s.allowExtInfo || (first && offer.extInfo)
      ignorenext := s.ignorenext || (offer.firstFollows && !offer.allgood)
      requirenext := sshMsgKexdhInit
      newkeys := s.newkeys.map fun n => { n with recvValid := false, transValid := false }
      kexstate := { s.kexstate with
        strictKex := s.kexstate.strictKex || (first && offer.strict)
        themFirstfollows := s.kexstate.themFirstfollows || offer.firstFollows
        recvkexinit := true } }
    if s.kexstate.strictKex && first && s.recvseq != 1 then
      dropbearExit "First packet wasn't kexinit"
    else return s

/-- `recv_msg_kexinit`. -/
def recvMsgKexinit (s : Session) (payload : Buffer) : Except Exit Session :=
  readKexinit K (if s.kexstate.sentkexinit then s else sendMsgKexinit s) payload

/-- `recv_msg_kexdh_init`. -/
def recvMsgKexdhInit (s : Session) (payload : Buffer) : Except Exit Session := do
  if !s.kexstate.recvkexinit then dropbearExit "Premature kexdh_init message received"
  else
    let hash ← K.kexdhReply payload
    let s ← sendMsgNewkeys { s with
      sent := s.sent ++ [sshMsgKexdhReply]
      sessionId := some (s.sessionId.getD hash) }
    let ext := !s.kexstate.donesecondkex && s.allowExtInfo
    return { s with
      sent := if ext then s.sent ++ [sshMsgExtInfo] else s.sent
      requirenext := sshMsgNewkeys }

/-! ### What the handlers leave alone -/

variable {K} {s s' : Session} {payload : Buffer}

/-- The parts of a session that key exchange does not touch. -/
structure SameService (s s' : Session) : Prop where
  authstate : s'.authstate = s.authstate
  conn : s'.conn = s.conn
  ran : s'.ran = s.ran

theorem SameService.trans {s₁ s₂ s₃ : Session} (h : SameService s₁ s₂) (h' : SameService s₂ s₃) :
    SameService s₁ s₃ :=
  ⟨h'.authstate.trans h.authstate, h'.conn.trans h.conn, h'.ran.trans h.ran⟩

theorem switchKeys_ok (h : switchKeys s = .ok s') :
    SameService s s' ∧ s'.kexstate.recvfirstnewkeys = s.kexstate.recvfirstnewkeys ∧
      s'.requirenext = s.requirenext := by
  unfold switchKeys at h
  rw [ite_exit_eq_ok] at h
  obtain ⟨-, h⟩ := h
  cases hn : s.newkeys with
  | none =>
    simp only [hn] at h
    cases h
    exact ⟨⟨rfl, rfl, rfl⟩, rfl, rfl⟩
  | some n =>
    simp only [hn] at h
    split at h <;> cases h <;> exact ⟨⟨rfl, rfl, rfl⟩, rfl, rfl⟩

theorem sendMsgNewkeys_ok (h : sendMsgNewkeys s = .ok s') :
    SameService s s' ∧ s'.kexstate.recvfirstnewkeys = s.kexstate.recvfirstnewkeys := by
  simp only [sendMsgNewkeys, bind_eq_ok, pure_eq_ok] at h
  obtain ⟨t, ht, rfl⟩ := h
  obtain ⟨⟨ha, hc, hr⟩, hf, -⟩ := switchKeys_ok ht
  split_ifs <;> exact ⟨⟨ha, hc, hr⟩, hf⟩

/-- After a NEWKEYS of the peer the first exchange is done. -/
theorem recvMsgNewkeys_ok (h : recvMsgNewkeys s = .ok s') :
    SameService s s' ∧ s'.kexstate.recvfirstnewkeys = true := by
  simp only [recvMsgNewkeys, bind_eq_ok, pure_eq_ok] at h
  obtain ⟨t, ht, rfl⟩ := h
  obtain ⟨⟨ha, hc, hr⟩, -, -⟩ := switchKeys_ok ht
  refine ⟨?_, rfl⟩
  split_ifs <;> exact ⟨ha, hc, hr⟩

/-- After a KEXINIT of the peer only KEXDH_INIT is accepted. -/
theorem recvMsgKexinit_ok (h : recvMsgKexinit K s payload = .ok s') :
    SameService s s' ∧ s'.kexstate.recvfirstnewkeys = s.kexstate.recvfirstnewkeys ∧
      s'.requirenext = sshMsgKexdhInit := by
  have hread : ∀ t : Session, SameService s t →
      t.kexstate.recvfirstnewkeys = s.kexstate.recvfirstnewkeys →
      readKexinit K t payload = .ok s' → SameService s s' ∧
        s'.kexstate.recvfirstnewkeys = s.kexstate.recvfirstnewkeys ∧
        s'.requirenext = sshMsgKexdhInit := by
    intro t hst hf hr
    simp only [readKexinit, ite_exit_eq_ok, bind_eq_ok, pure_eq_ok] at hr
    obtain ⟨-, offer, -, -, rfl⟩ := hr
    exact ⟨hst.trans ⟨rfl, rfl, rfl⟩, hf, rfl⟩
  unfold recvMsgKexinit at h
  split_ifs at h
  · exact hread s ⟨rfl, rfl, rfl⟩ rfl h
  · exact hread (sendMsgKexinit s) ⟨rfl, rfl, rfl⟩ rfl h

/-- After KEXDH_INIT only NEWKEYS is accepted. -/
theorem recvMsgKexdhInit_ok (h : recvMsgKexdhInit K s payload = .ok s') :
    SameService s s' ∧ s'.kexstate.recvfirstnewkeys = s.kexstate.recvfirstnewkeys ∧
      s'.requirenext = sshMsgNewkeys := by
  simp only [recvMsgKexdhInit, ite_exit_eq_ok, bind_eq_ok, pure_eq_ok] at h
  obtain ⟨-, hash, -, t, ht, rfl⟩ := h
  obtain ⟨⟨ha, hc, hr⟩, hf⟩ := sendMsgNewkeys_ok ht
  exact ⟨⟨ha, hc, hr⟩, hf, rfl⟩

/-- What the KEXINIT of the peer does to the flags of strict key exchange and of the guess. -/
theorem readKexinit_spec (h : readKexinit K s payload = .ok s') :
    ∃ offer, K.readKexAlgos payload = .ok offer ∧
      s'.kexstate.strictKex =
        (s.kexstate.strictKex || (!s.kexstate.donefirstkex && offer.strict)) ∧
      s'.ignorenext = (s.ignorenext || (offer.firstFollows && !offer.allgood)) ∧
      s'.ran = s.ran ∧ s'.generation = s.generation ∧
      (s'.kexstate.strictKex = true → s.kexstate.donefirstkex = false → s.recvseq = 1) := by
  simp only [readKexinit, ite_exit_eq_ok, bind_eq_ok, pure_eq_ok] at h
  obtain ⟨-, offer, hoffer, hcheck, rfl⟩ := h
  refine ⟨offer, hoffer, rfl, rfl, rfl, rfl, fun hstrict hdone => ?_⟩
  by_contra hne
  refine hcheck ?_
  have hstrict : (s.kexstate.strictKex || (!s.kexstate.donefirstkex && offer.strict)) = true :=
    hstrict
  rw [hstrict, hdone]
  simpa using hne

end Ps4Dropbear
