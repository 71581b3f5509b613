import Ps4Dropbear.Session.Algorithms
import Ps4Dropbear.Session.ProcessPacket

/-!
# Serial sessions

On the PS4 the sessions run one after the other in the process of the server (`main_noinetd`):
`ses` and `svr_ses` are cleared, `svr_session` runs, and `svr_dropbear_exit` jumps back.  What a
session leaves behind for the next one are the globals that are not cleared: the banner in
`svr_opts`, the algorithm tables, and the user and group ids of the process.

A session here is `serverSession`, step by step, together with these globals and with the payloads
of the messages that it sends.  A handler that exits has changed the globals, but what it had
queued is dropped by `session_cleanup`.

What the system answers may depend on the ids of the process: `host`, `authfile`, `conn`, `replies`
and `sends` are functions of them.  The rest of `svr_opts`, `opts` and the host keys are fixed.

* `svrSwitchUser` : the ids behind a login.
* `serialSession` : one session, `serialProcess` : one session after the other.
* `serialSession_refines` : the session in it is the one of `serverSession`.
-/

namespace Ps4Dropbear

/-! ### The ids of the process -/

/-- The calls that read and change the user and group ids `C` of a process; `none` is a failure,
which changes nothing. -/
structure IdCalls (C : Type) where
  getuid : C → ℕ
  geteuid : C → ℕ
  setgid : C → ℕ → Option C
  initgroups : C → Bytes → ℕ → Option C
  /-- `utmp_gid` and `setresgid`; a failure is not looked at. -/
  saveUtmpGid : C → C
  setuid : C → ℕ → Option C

variable {C : Type} (kern : IdCalls C)

/-- `svr_switch_user`: the result, and the ids it leaves. -/
def svrSwitchUser (c : C) (pw : Passwd) : Except Exit Unit × C :=
  -- the app was already elevated by the PS4 runtime
  if pw.pwName = ascii "root" then (.ok (), c)
  else if kern.getuid c = 0 then
    match kern.setgid c pw.pwGid with
    | none => (dropbearExit "Error changing user group", c)
    | some c =>
      match kern.initgroups c pw.pwName pw.pwGid with
      | none => (dropbearExit "Error changing user group", c)
      | some c =>
        let c := kern.saveUtmpGid c
        match kern.setuid c pw.pwUid with
        | none => (dropbearExit "Error changing user", c)
        | some c => (.ok (), c)
  else if kern.getuid c ≠ pw.pwUid then (dropbearExit "Couldn't\tchange user as non-root", c)
  else (.ok (), c)

/-- The system with another `svr_switch_user`. -/
def Host.withSwitch (H : Host) (switchUser : Bytes → Except Exit Unit) : Host :=
  { H with switchUser := switchUser }

/-- The system as a process with the ids `c` sees it, with this result of `svr_switch_user`. -/
def hostAt (host : C → Host) (c : C) (switched : Except Exit Unit) : Host :=
  Host.withSwitch { host c with geteuid := kern.geteuid c } fun _ => switched

/-! ### Globals and messages -/

/-- What outlives a session. -/
structure Globals (C : Type) where
  /-- `svr_opts.banner`. -/
  banner : Option Bytes
  tables : AlgoTables
  creds : C

/-- The payload of a message of user authentication. -/
def AuthReply.payload : AuthReply → Bytes
  | .banner text => [53] ++ sshString text ++ sshString (ascii "en")
  | .failure methods partialSuccess =>
    [51] ++ sshString methods ++ [if partialSuccess then 1 else 0]
  | .success => [52]
  | .pkOk sigalgo keyblob => [60] ++ sshString sigalgo ++ sshString keyblob

/-- The payload of `recv_unimplemented`; the decryption has counted the packet already. -/
def unimplementedPayload (recvseq : ℕ) : Bytes :=
  [3] ++ store32h ((recvseq + (2 ^ 32 - 1)) % 2 ^ 32)

/-- What `recv_msg_kexinit` and `send_msg_kexinit` keep for the exchange hash and the keys. -/
structure KexBuffers where
  remoteident : Bytes := []
  /-- `ses.transkexinit`. -/
  transkexinit : Bytes := []
  /-- The payload of the peer's KEXINIT. -/
  peerKexinit : Bytes := []
  choice : Option KexChoice := none
  deriving DecidableEq

/-- The calculations of `send_msg_kexdh_reply`, with the host keys. -/
structure KexCrypto where
  /-- From what was exchanged, random bytes and the payload of KEXDH_INIT: the payload of
  KEXDH_REPLY and the exchange hash. -/
  kexdhReply : KexChoice → KexBuffers → Bytes → Buffer → Except Exit (Bytes × Bytes)

/-- A session, with the globals and the messages sent. -/
structure Serial (C : Type) where
  glob : Globals C
  ses : Session
  kex : KexBuffers := {}
  sent : List Bytes := []

/-- A packet of the client, and what the system answers while it is handled. -/
structure SerialPacket (C : Type) where
  raw : Buffer
  /-- The bytes that `genrandom` gives. -/
  rand : Bytes := []
  authfile : C → Option AuthFile
  conn : C → ConnEnv
  /-- What the handlers of the connection protocol send. -/
  replies : C → List Bytes

/-- What happens in a session. -/
inductive SerialEvent (C : Type)
  | ident (line : Bytes)
  | packet (p : SerialPacket C)
  | timer (rekey : Bool) (close : Option Exit) (rand : Bytes)
  | channelDone (index : ℕ) (unlistens : List ℕ)
  | accept (listener : ℕ) (opens : Bool)
  /-- After authentication the loop sends what channels, listeners and keepalives have to say. -/
  | loop (sends : C → List Bytes)

/-- The packet as a process with the ids `c` handles it. -/
def SerialPacket.at (p : SerialPacket C) (c : C) : Packet := ⟨p.raw, p.authfile c, p.conn c⟩

/-- The event as it is one of `serverSession`. -/
def SerialEvent.at (ev : SerialEvent C) (c : C) : SessionEvent :=
  match ev with
  | .ident _ => .ident
  | .packet p => .packet (p.at c)
  | .timer rekey close _ => .timer rekey close
  | .channelDone index unlistens => .channelDone index unlistens
  | .accept listener opens => .accept listener opens
  -- nothing that `Session` knows of changes
  | .loop _ => .timer false none

/-! ### Handlers -/

/-- What a handler leaves: the session or the exit, the globals, and the messages queued. -/
structure HandlerOutcome (C : Type) where
  result : Except Exit Session
  glob : Globals C
  kex : KexBuffers
  sent : List Bytes

variable (o : SvrOpts) (K : KexCrypto) (host : C → Host)

/-- `send_msg_kexdh_reply`; `ses.newkeys` has a choice behind a KEXINIT. -/
def kexdhReply (kex : KexBuffers) (rand : Bytes) (buf : Buffer) : Except Exit (Bytes × Bytes) :=
  match kex.choice with
  | none => dropbearExit "Premature kexdh_init message received"
  | some choice => K.kexdhReply choice kex rand buf

/-- Key exchange with the tables as they are. -/
def kexMethods (t : AlgoTables) (kex : KexBuffers) (rand : Bytes) : KexMethods where
  readKexAlgos buf := (readKexAlgos t buf).map (·.1)
  kexdhReply buf := (kexdhReply K kex rand buf).map (·.2)

variable (σ : Serial C) (s : Session) (p : SerialPacket C)

/-- `recv_msg_kexinit`: our KEXINIT comes first. -/
def serialKexinit : HandlerOutcome C :=
  let t := σ.glob.tables
  let own := kexinitPayload t p.rand
  { result := recvMsgKexinit (kexMethods K t σ.kex p.rand) s (p.at σ.glob.creds).payload.buf
    glob := σ.glob
    kex := { σ.kex with
      transkexinit := if s.kexstate.sentkexinit then σ.kex.transkexinit else own
      peerKexinit := p.raw.contents
      choice := (readKexAlgos t (p.at σ.glob.creds).payload.buf).toOption.map (·.2) }
    sent := if s.kexstate.sentkexinit then [] else [own] }

/-- `recv_msg_kexdh_init`; after the first exchange the other signature types are disabled. -/
def serialKexdhInit : HandlerOutcome C :=
  let t := σ.glob.tables
  let buf := (p.at σ.glob.creds).payload.buf
  match recvMsgKexdhInit (kexMethods K t σ.kex p.rand) s buf with
  | .error msg => ⟨.error msg, σ.glob, σ.kex, []⟩
  | .ok s' =>
    { result := .ok s'
      glob := { σ.glob with
        tables := match σ.kex.choice with
          | some choice =>
            if s'.kexstate.donesecondkex then t else disableSigExcept t choice.algoSignature
          | none => t }
      kex := σ.kex
      sent := ((kexdhReply K σ.kex p.rand buf).toOption.map (·.1)).toList ++ [[21]] ++
        if !s'.kexstate.donesecondkex && s'.allowExtInfo then [extInfoPayload t] else [] }

/-- `recv_msg_service_request`. -/
def serialServiceRequest : HandlerOutcome C :=
  let buf := (p.at σ.glob.creds).payload.buf
  { result := recvMsgServiceRequest s buf
    glob := σ.glob
    kex := σ.kex
    sent := ((bufGetstring buf).toOption.map fun r => [6] ++ sshString r.1).toList }

/-- `recv_msg_userauth_request`: the banner is taken out of `svr_opts`, and a login, which comes
last, changes the ids of the process. -/
def serialUserauthRequest : HandlerOutcome C :=
  if s.authstate.authdone then ⟨.ok s, σ.glob, σ.kex, []⟩
  else
    let glob := { σ.glob with banner := none }
    match recvMsgUserauthRequest (hostAt kern host glob.creds (.ok ())) o (s.sessionId.getD [])
        s.authstate ⟨(p.at glob.creds).payload, p.authfile glob.creds⟩ with
    | .error msg => ⟨.error msg, glob, σ.kex, []⟩
    | .ok a =>
      let sent := (a.sent.drop s.authstate.sent.length).map AuthReply.payload
      match a.authdone, a.pw with
      | true, some pw =>
        let (r, creds) := svrSwitchUser kern glob.creds pw
        ⟨r.map fun _ => { s with authstate := a }, { glob with creds := creds }, σ.kex, sent⟩
      | _, _ => ⟨.ok { s with authstate := a }, glob, σ.kex, sent⟩

/-- The call of a handler. -/
def serialHandler (h : Handler) : HandlerOutcome C :=
  match h with
  | .recvMsgKexinit => serialKexinit K σ s p
  | .recvMsgKexdhInit => serialKexdhInit K σ s p
  | .recvMsgNewkeys => ⟨recvMsgNewkeys s, σ.glob, σ.kex, []⟩
  | .recvMsgServiceRequest => serialServiceRequest σ s p
  | .recvMsgUserauthRequest => serialUserauthRequest kern o host σ s p
  | h =>
    ⟨(connHandler h s.conn (p.at σ.glob.creds).payload.buf (p.conn σ.glob.creds)).map
        fun c => { s with conn := c },
      σ.glob, σ.kex, p.replies σ.glob.creds⟩

/-! ### Sessions -/

/-- `process_packet`, on the session whose sequence number counts the packet already. -/
def serialPacket : Serial C :=
  match bufGetbyte p.raw with
  | .error msg => { σ with ses := s.exit msg }
  | .ok (type, _) =>
    match acceptPacket s type.toNat with
    | .error msg => { σ with ses := s.exit msg }
    | .ok (s', none) =>
      { σ with
        ses := { s' with lastpacket := type.toNat }
        -- the only answer without a handler is UNIMPLEMENTED
        sent := σ.sent ++
          (s'.sent.drop s.sent.length).map fun _ => unimplementedPayload s.recvseq }
    | .ok (s', some h) =>
      let s' := { s' with ran := s'.ran ++ [(type.toNat, h)] }
      let out := serialHandler kern o K host σ s' p h
      match out.result with
      | .error msg => { σ with glob := out.glob, ses := s'.exit msg }
      | .ok s'' =>
        { glob := out.glob, ses := { s'' with lastpacket := type.toNat }, kex := out.kex
          sent := σ.sent ++ out.sent }

/-- One session of the process. -/
def serialSession : LTS (Serial C) (SerialEvent C) where
  step σ ev :=
    if σ.ses.ended.isSome then none
    else
      match ev with
      | .ident line =>
        some { σ with
          ses := { σ.ses with remoteident := true }, kex := { σ.kex with remoteident := line } }
      | .packet p =>
        if σ.ses.remoteident then
          some (serialPacket kern o K host σ
            { σ.ses with recvseq := (σ.ses.recvseq + 1) % 2 ^ 32 } p)
        else none
      | .timer rekey close rand =>
        match close with
        | some msg => some { σ with ses := σ.ses.exit msg }
        | none =>
          if σ.ses.remoteident ∧ rekey ∧ !σ.ses.kexstate.sentkexinit then
            let own := kexinitPayload σ.glob.tables rand
            some { σ with
              ses := sendMsgKexinit
                { σ.ses with kexstate := { σ.ses.kexstate with needrekey := false } }
              kex := { σ.kex with transkexinit := own }
              sent := σ.sent ++ [own] }
          else some σ
      | .channelDone index unlistens =>
        some { σ with
          ses := { σ.ses with
            conn := (σ.ses.conn.removeChannel index).removeListeners unlistens } }
      | .accept listener opens =>
        if listener ∈ σ.ses.conn.listeners then
          some { σ with
            ses := if opens then { σ.ses with conn := σ.ses.conn.newchannel true } else σ.ses }
        else none
      | .loop sends =>
        if σ.ses.authstate.authdone then some { σ with sent := σ.sent ++ sends σ.glob.creds }
        else none

/-- `LOCAL_IDENT`. -/
def localIdent : Bytes := ascii "SSH-2.0-dropbear_2026.91\r\n"

/-- A serial session when `session_loop` is entered: `ses` and `svr_ses` have been cleared, the
tables restored, and our identification and KEXINIT are sent. -/
def serialStart (g : Globals C) (rand : Bytes) : Serial C :=
  let t := svrAlgosInitialise g.tables
  let own := kexinitPayload t rand
  { glob := { g with tables := t }
    ses := svrSession o g.banner
    kex := { transkexinit := own }
    sent := [localIdent, own] }

/-- A connection: the cookie, the system as it is then, and what happens. -/
structure Script (C : Type) where
  rand : Bytes
  host : C → Host
  events : List (SerialEvent C)

/-- The session of a connection. -/
def serveSession (g : Globals C) (script : Script C) : Option (Serial C) :=
  (serialSession kern o K script.host).exec (serialStart o g script.rand) script.events

/-- The messages that the session of a connection sends. -/
def sentMessages (g : Globals C) (script : Script C) : Option (List Bytes) :=
  (serveSession kern o K g script).map (·.sent)

/-- The loop of `main_noinetd`: a session is served until it ends. -/
def serialProcess : LTS (Globals C) (Script C) where
  step g script :=
    (serveSession kern o K g script).bind fun σ =>
      if σ.ses.ended.isSome then some σ.glob else none

/-! ### A login comes last -/

/-- `svr_switch_user` behind an answer that logs in. -/
def thenSwitch (switched : Except Exit Unit) (a : AuthState) : Except Exit AuthState :=
  if a.authdone ∧ a.pwName ≠ ascii "root" then switched.map fun _ => a else .ok a

variable {kern o K host σ s p} {H : Host} {r : Except Exit Unit} {a a' : AuthState}

theorem thenSwitch_of_not_authdone (h : a.authdone = false) : thenSwitch r a = .ok a := by
  rw [thenSwitch, if_neg (by simp [h])]

theorem sendMsgUserauthSuccess_withSwitch :
    sendMsgUserauthSuccess (H.withSwitch fun _ => r) a =
      sendMsgUserauthSuccess (H.withSwitch fun _ => .ok ()) a >>= thenSwitch r := by
  by_cases hroot : a.pwName = ascii "root"
  · have hname : ({ a with sent := a.sent ++ [.success], authdone := true } : AuthState).pwName =
        ascii "root" := hroot
    simp only [sendMsgUserauthSuccess, if_pos hname, pure, Except.pure, ok_bind, thenSwitch]
    rw [if_neg (by simp [hname])]
  · have hname : ({ a with sent := a.sent ++ [.success], authdone := true } : AuthState).pwName ≠
        ascii "root" := hroot
    simp only [sendMsgUserauthSuccess, if_neg hname, Host.withSwitch, pure, Except.pure, ok_bind,
      thenSwitch]
    rw [if_pos ⟨trivial, hname⟩]
    cases r <;> rfl

theorem sendMsgUserauthFailure_thenSwitch {partialSuccess incrfail : Bool}
    (h : a.authdone = false) :
    sendMsgUserauthFailure o a partialSuccess incrfail >>= thenSwitch r =
      sendMsgUserauthFailure o a partialSuccess incrfail := by
  cases hf : sendMsgUserauthFailure o a partialSuccess incrfail with
  | error msg => rfl
  | ok a' =>
    rw [ok_bind, thenSwitch_of_not_authdone]
    rw [sendMsgUserauthFailure_ok hf]
    exact h

theorem svrAuthPassword_withSwitch {buf : Buffer} {validUser : Bool} (h : a.authdone = false) :
    svrAuthPassword (H.withSwitch fun _ => r) o a buf validUser =
      svrAuthPassword (H.withSwitch fun _ => .ok ()) o a buf validUser >>= thenSwitch r := by
  unfold svrAuthPassword
  cases bufGetbool buf with
  | error msg => rfl
  | ok x =>
    obtain ⟨changepw, buf⟩ := x
    simp only [ok_bind]
    cases changepw with
    | true => exact (sendMsgUserauthFailure_thenSwitch h).symm
    | false =>
      cases bufGetstring buf with
      | error msg => rfl
      | ok x =>
        have hverdict : ∀ sw, passwordVerdict (H.withSwitch sw) a validUser x.1 =
            passwordVerdict H a validUser x.1 := fun _ => rfl
        simp only [Bool.false_eq_true, if_false, ok_bind, hverdict]
        cases passwordVerdict H a validUser x.1 with
        | reject => exact (sendMsgUserauthFailure_thenSwitch h).symm
        | ps4Default => exact sendMsgUserauthSuccess_withSwitch
        | crypt =>
          dsimp only
          split_ifs
          · refine (sendMsgUserauthFailure_thenSwitch ?_).symm
            exact h
          · exact sendMsgUserauthSuccess_withSwitch

theorem svrAuthPubkey_withSwitch {sessionId : Bytes} {inp : AuthInput} {buf : Buffer}
    {validUser : Bool} (h : a.authdone = false) :
    svrAuthPubkey (H.withSwitch fun _ => r) o sessionId a inp buf validUser =
      svrAuthPubkey (H.withSwitch fun _ => .ok ()) o sessionId a inp buf validUser >>=
        thenSwitch r := by
  have hverdict : ∀ sw, pubkeyVerdict (H.withSwitch sw) sessionId inp buf validUser =
      pubkeyVerdict H sessionId inp buf validUser := fun _ => rfl
  simp only [svrAuthPubkey, hverdict]
  cases pubkeyVerdict H sessionId inp buf validUser with
  | error msg => rfl
  | ok verdict =>
    simp only [ok_bind]
    cases verdict with
    | refused => exact (sendMsgUserauthFailure_thenSwitch h).symm
    | unauthorised =>
      dsimp only
      generalize hf : sendMsgUserauthFailure o a false _ = x
      cases x with
      | error msg => rfl
      | ok a' =>
        refine (thenSwitch_of_not_authdone ?_).symm
        rw [sendMsgUserauthFailure_ok hf]
        exact h
    | query sigalgo keyblob =>
      refine (thenSwitch_of_not_authdone ?_).symm
      exact h
    | badKey => exact (sendMsgUserauthFailure_thenSwitch h).symm
    | badSignature => exact (sendMsgUserauthFailure_thenSwitch h).symm
    | verified v =>
      dsimp only
      split_ifs
      · refine (sendMsgUserauthFailure_thenSwitch ?_).symm
        exact h
      · exact sendMsgUserauthSuccess_withSwitch

/-- **A login comes last**: a request is handled up to its answer, and then `svr_switch_user`
runs. -/
theorem recvMsgUserauthRequest_withSwitch {sessionId : Bytes} {inp : AuthInput}
    (h : a.authdone = false) :
    recvMsgUserauthRequest (H.withSwitch fun _ => r) o sessionId a inp =
      recvMsgUserauthRequest (H.withSwitch fun _ => .ok ()) o sessionId a inp >>=
        thenSwitch r := by
  have hcheck : ∀ sw u, checkusername (H.withSwitch sw) o a.sendBanner u =
      checkusername H o a.sendBanner u := fun _ _ => rfl
  simp only [recvMsgUserauthRequest, if_neg (show ¬ a.authdone = true by simp [h]), hcheck]
  cases parseUserauthRequest inp.payload.buf with
  | error msg => rfl
  | ok x =>
    simp only [ok_bind]
    generalize hc : checkusername H o a.sendBanner x.1.username = y
    cases y with
    | error msg => rfl
    | ok y =>
      obtain ⟨validUser, a₁⟩ := y
      have h₁ : a₁.authdone = false := by
        rcases checkusername_ok hc with ⟨-, -, rfl⟩ | ⟨-, ⟨-, ha⟩ | ⟨-, ha⟩, -⟩
        · exact h
        · rw [ha]
          exact h
        · rw [ha]
          exact h
      simp only [ok_bind, userauthMethod]
      split_ifs
      · exact sendMsgUserauthSuccess_withSwitch
      · exact (sendMsgUserauthFailure_thenSwitch h₁).symm
      · exact svrAuthPassword_withSwitch h₁
      · exact svrAuthPubkey_withSwitch h₁
      · exact (sendMsgUserauthFailure_thenSwitch h₁).symm

/-! ### The session in it -/

theorem serialUserauthRequest_result :
    ∃ r, (serialUserauthRequest kern o host σ s p).result =
      runHandler (hostAt kern host σ.glob.creds r) o (kexMethods K σ.glob.tables σ.kex p.rand) s
        .recvMsgUserauthRequest (p.at σ.glob.creds) := by
  by_cases hdone : s.authstate.authdone = true
  · refine ⟨.ok (), ?_⟩
    simp only [serialUserauthRequest, if_pos hdone, runHandler,
      recvMsgUserauthRequest_of_authdone hdone]
    rfl
  · simp only [Bool.not_eq_true] at hdone
    simp only [serialUserauthRequest, if_neg (show ¬ s.authstate.authdone = true by simp [hdone])]
    split
    · next msg hreq =>
      refine ⟨.ok (), ?_⟩
      simp only [runHandler]
      exact (congrArg (· >>= _) hreq).symm
    · next a hreq =>
      -- the result of `svr_switch_user` is the one for the account of the session
      have hrun : ∀ r, runHandler (hostAt kern host σ.glob.creds r) o
          (kexMethods K σ.glob.tables σ.kex p.rand) s .recvMsgUserauthRequest
          (p.at σ.glob.creds) = thenSwitch r a >>= fun a => .ok { s with authstate := a } := by
        intro r
        simp only [runHandler]
        rw [show recvMsgUserauthRequest (hostAt kern host σ.glob.creds r) o (s.sessionId.getD [])
          s.authstate ⟨(p.at σ.glob.creds).payload, (p.at σ.glob.creds).authfile⟩ =
            thenSwitch r a from (recvMsgUserauthRequest_withSwitch hdone).trans
              (congrArg (· >>= _) hreq)]
        rfl
      split
      · next pw hd hpw =>
        refine ⟨(svrSwitchUser kern σ.glob.creds pw).1, ?_⟩
        rw [hrun, thenSwitch]
        by_cases hroot : pw.pwName = ascii "root"
        · have hname : a.pwName = ascii "root" := by simp [AuthState.pwName, hpw, hroot]
          rw [if_neg (by simp [hname]), svrSwitchUser, if_pos hroot]
          rfl
        · have hname : a.pwName ≠ ascii "root" := by simp [AuthState.pwName, hpw, hroot]
          rw [if_pos ⟨hd, hname⟩]
          cases (svrSwitchUser kern σ.glob.creds pw).1 <;> rfl
      · refine ⟨.ok (), ?_⟩
        rw [hrun, thenSwitch]
        split_ifs <;> rfl

theorem serialHandler_result (h : Handler) :
    ∃ r, (serialHandler kern o K host σ s p h).result =
      runHandler (hostAt kern host σ.glob.creds r) o (kexMethods K σ.glob.tables σ.kex p.rand) s h
        (p.at σ.glob.creds) := by
  cases h with
  | recvMsgKexdhInit =>
    refine ⟨.ok (), ?_⟩
    simp only [serialHandler, serialKexdhInit, runHandler]
    cases recvMsgKexdhInit (kexMethods K σ.glob.tables σ.kex p.rand) s
      (p.at σ.glob.creds).payload.buf <;> rfl
  | recvMsgUserauthRequest => exact serialUserauthRequest_result
  | recvMsgKexinit => exact ⟨.ok (), rfl⟩
  | recvMsgNewkeys => exact ⟨.ok (), rfl⟩
  | recvMsgServiceRequest => exact ⟨.ok (), rfl⟩
  | _ => exact ⟨.ok (), (by simp only [serialHandler, runHandler]; rfl)⟩

theorem serialPacket_ses :
    ∃ r, (serialPacket kern o K host σ s p).ses =
      processPacket (hostAt kern host σ.glob.creds r) o
        (kexMethods K σ.glob.tables σ.kex p.rand) s (p.at σ.glob.creds) := by
  have hraw : (p.at σ.glob.creds).raw = p.raw := rfl
  unfold serialPacket processPacket
  rw [hraw]
  cases bufGetbyte p.raw with
  | error msg => exact ⟨.ok (), rfl⟩
  | ok x =>
    obtain ⟨type, buf⟩ := x
    dsimp only
    cases acceptPacket s type.toNat with
    | error msg => exact ⟨.ok (), rfl⟩
    | ok y =>
      obtain ⟨s', h⟩ := y
      cases h with
      | none => exact ⟨.ok (), rfl⟩
      | some h =>
        obtain ⟨r, hr⟩ : ∃ r, (serialHandler kern o K host σ
            { s' with ran := s'.ran ++ [(type.toNat, h)] } p h).result = _ :=
          serialHandler_result h
        refine ⟨r, ?_⟩
        dsimp only
        rw [← hr]
        generalize serialHandler kern o K host σ _ p h = out
        cases out.result <;> rfl

/-- **The session in a serial session is the one of `serverSession`**, with the system and the
tables as they are at that step. -/
theorem serialSession_refines {ev : SerialEvent C} {τ : Serial C}
    (h : (serialSession kern o K host).step σ ev = some τ) :
    ∃ r rand, (serverSession (hostAt kern host σ.glob.creds r) o
      (kexMethods K σ.glob.tables σ.kex rand)).step σ.ses (ev.at σ.glob.creds) = some τ.ses := by
  simp only [serialSession] at h
  by_cases hend : σ.ses.ended.isSome = true
  · rw [if_pos hend] at h
    cases h
  rw [if_neg hend] at h
  simp only [serverSession, if_neg hend]
  cases ev with
  | ident line =>
    cases h
    exact ⟨.ok (), [], rfl⟩
  | packet p =>
    simp only at h
    split_ifs at h with hid
    cases h
    obtain ⟨r, hr⟩ : ∃ r, (serialPacket kern o K host σ
        { σ.ses with recvseq := (σ.ses.recvseq + 1) % 2 ^ 32 } p).ses = _ := serialPacket_ses
    refine ⟨r, p.rand, ?_⟩
    simp only [SerialEvent.at, if_pos hid]
    exact congrArg some hr.symm
  | timer rekey close rand =>
    refine ⟨.ok (), [], ?_⟩
    cases close with
    | some msg =>
      cases h
      rfl
    | none =>
      simp only [SerialEvent.at] at h ⊢
      split_ifs at h ⊢ <;> cases h <;> rfl
  | channelDone index unlistens =>
    cases h
    exact ⟨.ok (), [], rfl⟩
  | accept listener opens =>
    refine ⟨.ok (), [], ?_⟩
    simp only [SerialEvent.at] at h ⊢
    split_ifs at h ⊢ <;> cases h <;> rfl
  | loop sends =>
    refine ⟨.ok (), [], ?_⟩
    simp only at h
    split_ifs at h
    cases h
    simp [SerialEvent.at]

/-- In a serial session, too, there is no service before keys and authentication. -/
theorem serialSession_gated {g : Globals C} {rand : Bytes} {τ : Serial C}
    (h : (serialSession kern o K host).Reachable (serialStart o g rand) τ) :
    ServiceGated τ.ses := by
  refine (h.invariant (I := fun τ => GateInv τ.ses) (.svrSession g.banner) ?_).gated
  intro σ ev τ hI hst
  obtain ⟨r, rand, hr⟩ := serialSession_refines hst
  exact serverSession_inv hI hr

/-- Key exchange with a fixed reply and hash. -/
def plainCrypto : KexCrypto where
  kexdhReply _ _ _ _ := .ok ([31], ascii "hash")

end Ps4Dropbear
