import Ps4Dropbear.Channel.Chansession
import Ps4Dropbear.Forward.Tcpfwd
import Ps4Dropbear.LTS.Basic

/-!
# Global requests

`svr_recv_msg_global_request` (`svr-forward.c`), which hands a request to one of four handlers, and
runs of it: a client may ask for forwarded ports and sockets and cancel them in any order, and all
of them share the table of listeners.

A forwarded socket is in the table under `LISTENER_TYPE_STREAMFORWARDED`, and the request to cancel
it looks for `CHANNEL_ID_STREAMLOCALFORWARDED`, which is no value of that `enum`.

* `globalRequests` : the requests of a session as a transition system.
* `svrCancelremotestreamlocal_eq` : no listener is ever found.
* `cancels_right_iff` : **when forwarded sockets can be cancelled**.
-/

namespace Ps4Dropbear

/-- The handlers of `svr_recv_msg_global_request`. -/
inductive GlobalRequest
  | tcpipForward
  | cancelTcpipForward
  | streamlocalForward
  | cancelStreamlocalForward
  | unhandled
  deriving DecidableEq, Repr

/-- The comparisons with the names of the requests. -/
def GlobalRequest.ofName (reqname : Bytes) : GlobalRequest :=
  if strEq (ascii "tcpip-forward") reqname then tcpipForward
  else if strEq (ascii "cancel-tcpip-forward") reqname then cancelTcpipForward
  else if strEq (ascii "streamlocal-forward@openssh.com") reqname then streamlocalForward
  else if strEq (ascii "cancel-streamlocal-forward@openssh.com") reqname then
    cancelStreamlocalForward
  else unhandled

/-- `svr_recv_msg_global_request` up to the handlers: the handler, `wantreply`, and the payload
behind the two. -/
def globalHeader (cfg : FwdConfig) (payload : Buffer) :
    Except Exit (GlobalRequest × Bool × Buffer) := do
  let (reqname, payload) ← bufGetstring payload
  let (wantreply, payload) ← bufGetbool payload
  if cfg.noremotefwd ∨ ¬ cfg.svrPubkeyAllowsTcpfwd then return (.unhandled, wantreply, payload)
  if reqname.length > maxNameLen then return (.unhandled, wantreply, payload)
  return (.ofName reqname, wantreply, payload)

/-- What the system does in a request. -/
structure GlobalAnswers where
  stream : StreamlocalAnswers
  tcp : TcpAnswers

/-- The reply at the end of `svr_recv_msg_global_request`. -/
def Forwards.replyGlobal (s : Forwards) (wantreply ret : Bool) : Forwards :=
  if wantreply then { s with sent := s.sent ++ [if ret then [81] else [82]] } else s

/-- `svr_recv_msg_global_request`. -/
def Forwards.svrRecvMsgGlobalRequest (s : Forwards) (cfg : FwdConfig) (sys : GlobalAnswers)
    (payload : Buffer) : Except Exit (HandlerEnd × Forwards) := do
  let (request, wantreply, payload) ← globalHeader cfg payload
  match request with
  | .tcpipForward =>
    -- svr_remotetcpreq sends its own reply if needed
    let (ret, _, s) ← svrRemotetcpreq cfg sys.tcp wantreply payload s
    return (.returned ret, s)
  | .cancelTcpipForward =>
    let (ret, _, s) ← svrCancelremotetcp sys.stream.mayUnlink payload s
    return (.returned ret, s.replyGlobal wantreply ret)
  | .streamlocalForward =>
    match ← svrRemotestreamlocalreq cfg sys.stream payload s with
    | (.returned ret, _, s) => return (.returned ret, s.replyGlobal wantreply ret)
    | (.nullAccess, _, s) => return (.nullAccess, s)
  | .cancelStreamlocalForward =>
    let (ret, _, s) ← svrCancelremotestreamlocal sys.stream.mayUnlink payload s
    return (.returned ret, s.replyGlobal wantreply ret)
  | .unhandled => return (.returned false, s.replyGlobal wantreply false)

/-- The requests of a session; a run ends with a `dropbear_exit` or an access through a null
pointer. -/
def globalRequests (cfg : FwdConfig) : LTS Forwards (Buffer × GlobalAnswers) where
  step s l :=
    match s.svrRecvMsgGlobalRequest cfg l.2 l.1 with
    | .ok (.returned _, s') => some s'
    | _ => none

/-! ### Cancelling a forwarded socket -/

/-- The listener of a forwarded socket. -/
def Listener.IsFor (l : Listener) (path : Bytes) : Prop :=
  l.type = .streamforwarded ∧ ∃ info, l.typedata = .fwd info ∧ info.socketPath = some path

/-- Some listener in the table is for the path. -/
def Forwards.HasListenerFor (s : Forwards) (path : Bytes) : Prop :=
  ∃ i l, s.listener i = some l ∧ l.IsFor path

/-- Exactly one listener for the path is gone, with its sockets and its name. -/
def Forwards.RemovesOne (s : Forwards) (path : Bytes) (s' : Forwards) : Prop :=
  ∃ i l, s.listener i = some l ∧ l.IsFor path ∧
    (∀ j, s'.listener j = if j = i then none else s.listener j) ∧
    (∀ fd, s'.fds.owner fd = if fd ∈ l.socks then none else s.fds.owner fd) ∧
    ∀ q, s'.files q = if q = path then none else s.files q

/-- What a request to cancel the path should do. -/
def Forwards.CancelsRight (s : Forwards) (path : Bytes) (ret : Bool) (s' : Forwards) : Prop :=
  (s.HasListenerFor path → ret = true ∧ s.RemovesOne path s') ∧
    (¬ s.HasListenerFor path → ret = false ∧ s' = s)

/-- The payload is a request to cancel the path, `payload'` being what its handler reads. -/
def CancelRequest (cfg : FwdConfig) (payload payload' : Buffer) (path : Bytes) : Prop :=
  (∃ wantreply, globalHeader cfg payload = .ok (.cancelStreamlocalForward, wantreply, payload')) ∧
    ∃ r, path.length ≤ maxStringLen ∧ payload'.rest = sshString path ++ r

/-- No listener has the number that the request looks for. -/
theorem getListener_streamlocal (s : Forwards) (accepts : Typedata → Bool) :
    s.getListener channelIdStreamlocalforwarded accepts = none := by
  have hnone : s.listeners.find? (fun slot => slot.any fun l =>
      l.type.toNat == channelIdStreamlocalforwarded && accepts l.typedata) = none := by
    rw [List.find?_eq_none]
    intro slot _
    cases slot with
    | none => exact nofun
    | some l =>
      have htype : l.type.toNat ≠ channelIdStreamlocalforwarded := by
        cases l.type <;> decide
      simp [htype]
  rw [Forwards.getListener, hnone]
  rfl

/-- Nothing is ever cancelled. -/
theorem svrCancelremotestreamlocal_eq {path r : Bytes} {payload : Buffer} (mayUnlink : Bool)
    (s : Forwards) (hlen : path.length ≤ maxStringLen) (hr : payload.rest = sshString path ++ r) :
    svrCancelremotestreamlocal mayUnlink payload s =
      .ok (false, payload.advance (4 + path.length), s) := by
  have hget : bufGetstring payload = .ok (path, payload.advance (4 + path.length)) :=
    bufGetstring_ok.2 ⟨⟨hlen, r, hr⟩, rfl⟩
  unfold svrCancelremotestreamlocal
  rw [hget, ok_bind]
  dsimp only
  split_ifs
  · rfl
  · rfl
  · rw [getListener_streamlocal]
    rfl

/-- A request to cancel a path does what it should exactly when there is nothing to cancel. -/
theorem svrCancelremotestreamlocal_right_iff {path r : Bytes} {payload : Buffer} (mayUnlink : Bool)
    (s : Forwards) (hlen : path.length ≤ maxStringLen) (hr : payload.rest = sshString path ++ r) :
    (∃ ret b s', svrCancelremotestreamlocal mayUnlink payload s = .ok (ret, b, s') ∧
      s.CancelsRight path ret s') ↔ ¬ s.HasListenerFor path := by
  rw [svrCancelremotestreamlocal_eq mayUnlink s hlen hr]
  constructor
  · rintro ⟨ret, b, s', h, hright, -⟩ hhas
    cases h
    cases (hright hhas).1
  · intro hno
    exact ⟨false, _, s, rfl, fun hhas => absurd hhas hno, fun _ => ⟨rfl, rfl⟩⟩

/-- A request to cancel a path in this state does what it should. -/
def CancelsRightAt (cfg : FwdConfig) (s : Forwards) (l : Buffer × GlobalAnswers) : Prop :=
  ∀ payload' path, CancelRequest cfg l.1 payload' path →
    ∃ ret b s', svrCancelremotestreamlocal l.2.stream.mayUnlink payload' s = .ok (ret, b, s') ∧
      s.CancelsRight path ret s'

/-- The request does not cancel a path for which there is a listener. -/
def CancelsNothing (cfg : FwdConfig) (s : Forwards) (l : Buffer × GlobalAnswers) : Prop :=
  ∀ payload' path, CancelRequest cfg l.1 payload' path → ¬ s.HasListenerFor path

theorem cancelsRightAt_iff (cfg : FwdConfig) (s : Forwards) (l : Buffer × GlobalAnswers) :
    CancelsRightAt cfg s l ↔ CancelsNothing cfg s l := by
  refine forall_congr' fun payload' => forall_congr' fun path => ?_
  constructor
  · intro hright hreq
    obtain ⟨-, r, hlen, hr⟩ := id hreq
    exact (svrCancelremotestreamlocal_right_iff _ s hlen hr).1 (hright hreq)
  · intro hno hreq
    obtain ⟨-, r, hlen, hr⟩ := id hreq
    exact (svrCancelremotestreamlocal_right_iff _ s hlen hr).2 (hno hreq)

/-- **When forwarded sockets can be cancelled.**  In a run of global requests from the start of a
session, every request to cancel a socket does what it should if and only if none of them is about
a socket for which there is a listener. -/
theorem cancels_right_iff (cfg : FwdConfig) (maxfd : ℕ) (fds : FdTable Unit)
    (files : Bytes → Option FileKind) (ls : List (Buffer × GlobalAnswers)) :
    (globalRequests cfg).Along (CancelsRightAt cfg) (.initialise maxfd fds files) ls ↔
      (globalRequests cfg).Along (CancelsNothing cfg) (.initialise maxfd fds files) ls := by
  generalize Forwards.initialise maxfd fds files = s
  -- by induction on the run: the two conditions are the same at every step
  induction ls generalizing s with
  | nil => exact Iff.rfl
  | cons l ls ih =>
    refine and_congr (cancelsRightAt_iff cfg s l) ?_
    exact forall_congr' fun s' => imp_congr_right fun _ => ih s'

/-- A global request of this name for the socket `/tmp/s`. -/
def streamlocalMessage (name : String) : Bytes :=
  sshString (ascii name) ++ [1] ++ sshString (ascii "/tmp/s")

/-- The server is asked to listen on `/tmp/s`, and everything succeeds. -/
def streamForward : Buffer × GlobalAnswers :=
  (.ofBytes (streamlocalMessage "streamlocal-forward@openssh.com") (by decide),
    ⟨⟨true, true, none, none⟩, ⟨.error "", 0⟩⟩)

/-- The server is asked to stop. -/
def streamCancel : Buffer × GlobalAnswers :=
  (.ofBytes (streamlocalMessage "cancel-streamlocal-forward@openssh.com") (by decide),
    ⟨⟨true, true, none, none⟩, ⟨.error "", 0⟩⟩)

/-- A socket is forwarded, and the request to cancel it fails. -/
theorem cancel_fails_after_forward :
    ((globalRequests { sunPathSize := 104 }).exec
        (.initialise 0 ⟨[some ()]⟩ fun _ => none) [streamForward, streamCancel]).map (·.sent) =
      some [[81], [82]] ∧
    ¬ (globalRequests { sunPathSize := 104 }).Along (CancelsRightAt { sunPathSize := 104 })
      (.initialise 0 ⟨[some ()]⟩ fun _ => none) [streamForward, streamCancel] := by
  refine ⟨by decide, ?_⟩
  rintro ⟨-, hrest⟩
  have hforward : ((globalRequests { sunPathSize := 104 }).step
      (.initialise 0 ⟨[some ()]⟩ fun _ => none) streamForward).map (·.listener 0) =
        some (some ⟨[1], 0, .streamforwarded, .fwd (streamlocalInfo (ascii "/tmp/s")),
          some .cleanupStreamlocal⟩) := by
    decide
  obtain ⟨s, hs, hlistener⟩ := Option.map_eq_some_iff.1 hforward
  obtain ⟨hright, -⟩ := hrest s hs
  obtain ⟨⟨request, wantreply, payload⟩, hheader, hpayload⟩ := exists_ok_of_any
    (x := globalHeader { sunPathSize := 104 } streamCancel.1)
    (p := fun r => r.1 = .cancelStreamlocalForward ∧ r.2.2.rest = sshString (ascii "/tmp/s"))
    (by decide)
  obtain ⟨rfl, hrest⟩ := of_decide_eq_true hpayload
  have hreq : CancelRequest { sunPathSize := 104 } streamCancel.1 payload (ascii "/tmp/s") :=
    ⟨⟨wantreply, hheader⟩, [], by decide, hrest.trans (List.append_nil _).symm⟩
  exact (cancelsRightAt_iff _ s streamCancel).1 hright _ _ hreq ⟨0, _, hlistener, rfl, _, rfl, rfl⟩

end Ps4Dropbear
