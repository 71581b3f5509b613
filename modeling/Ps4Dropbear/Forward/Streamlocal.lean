import Ps4Dropbear.Forward.Listener
import Mathlib.Data.List.TakeWhile

/-!
# Forwarded sockets

`svr-streamfwd.c`: a client asks the server to listen on a Unix socket, or to stop.  The answers of
`socket`, `bind` and `listen` are given by the system; a descriptor that `socket` returns is the
lowest free one, and `bind` fails on a name that is taken.

A request that is refused before `tcpinfo` has been allocated still runs through the clean-up at
the end, which reads `tcpinfo->socket_path`.  When the table of listeners is full, both
`new_listener` and `listen_streamlocal` close the socket.

* `Forwards.listenStreamlocal_settles_iff` : what `listen_streamlocal` leaves behind.
* `svrRemotestreamlocalreq_harmless_iff` : **when a request is harmless**.
-/

namespace Ps4Dropbear

/-- `MAX_HOST_LEN`. -/
def maxHostLen : ℕ := 254

/-- `CHANNEL_ID_STREAMLOCALFORWARDED`. -/
def channelIdStreamlocalforwarded : ℕ := 0x53747265

/-- What the forwarding handlers read of the options and of the key. -/
structure FwdConfig where
  /-- `svr_opts.forced_command` is set. -/
  forcedCommand : Bool := false
  noremotefwd : Bool := false
  nolocaltcp : Bool := false
  /-- `opts.listen_fwd_all`. -/
  listenFwdAll : Bool := false
  /-- `svr_opts.interface`. -/
  interface : Option Bytes := none
  /-- `ses.allowprivport`. -/
  allowprivport : Bool := false
  /-- `ses.authstate.pubkey_options`. -/
  pubkeyOptions : Option PubKeyOptions := none
  /-- `sizeof(addr.sun_path)`, which is up to the platform. -/
  sunPathSize : ℕ

namespace FwdConfig

/-- `svr_pubkey_allows_tcpfwd`. -/
def svrPubkeyAllowsTcpfwd (cfg : FwdConfig) : Bool :=
  !cfg.pubkeyOptions.any (·.noPortForwardingFlag)

/-- `svr_pubkey_has_forced_command`. -/
def svrPubkeyHasForcedCommand (cfg : FwdConfig) : Bool :=
  cfg.pubkeyOptions.any (·.forcedCommand.isSome)

end FwdConfig

/-- What the system does in a request: whether `socket` succeeds, whether the permissions let a
file be removed, and the errors of `bind` and `listen`. -/
structure StreamlocalAnswers where
  socket : Bool
  mayUnlink : Bool
  bind : Option String
  listen : Option String
  deriving DecidableEq, Repr

namespace Forwards

/-- `bind`: the error, or the socket in the file system. -/
def bindPath (s : Forwards) (answer : Option String) (path : Bytes) : Except String Forwards :=
  match answer with
  | some error => .error error
  | none =>
    if s.files path = none then .ok { s with files := Function.update s.files path (some .socket) }
    else .error "Address already in use"

/-- `listen_streamlocal` from `listen` on. -/
def listenBound (s : Forwards) (sys : StreamlocalAnswers) (tcpinfo : FwdListener) (path : Bytes)
    (sock : ℕ) : Bool × Forwards :=
  match sys.listen with
  | some error =>
    (false, ((s.info ("Streamlocal forward failed: listen() failed: " ++ error)).unlink
      sys.mayUnlink path).close sock)
  | none =>
    match s.newListener [sock] .streamforwarded (.fwd tcpinfo) (some .cleanupStreamlocal) with
    | (none, s) => (false, (s.unlink sys.mayUnlink path).close sock)
    | (some _, s) => (true, s)

/-- `listen_streamlocal`; the result says whether it is `DROPBEAR_SUCCESS`. -/
def listenStreamlocal (s : Forwards) (cfg : FwdConfig) (sys : StreamlocalAnswers)
    (tcpinfo : FwdListener) : Bool × Forwards :=
  match tcpinfo.socketPath with
  | none => (false, s)
  | some path =>
    if (cstr path).length ≥ cfg.sunPathSize then
      (false, s.info "Streamlocal forward failed: socket path too long")
    else if ¬ sys.socket then (false, s.info "Streamlocal forward failed: socket() failed")
    else
      let sock := s.fds.lowest
      -- Unlink existing socket if it exists
      let s := { s with fds := s.fds.alloc () }.unlink sys.mayUnlink path
      match s.bindPath sys.bind path with
      | .error error =>
        (false, (s.info ("Streamlocal forward failed: bind() failed: " ++ error)).close sock)
      | .ok s => s.listenBound sys tcpinfo path sock

end Forwards

/-- How a handler ends: with `DROPBEAR_SUCCESS` or `DROPBEAR_FAILURE`, or in an access through a
null pointer. -/
inductive HandlerEnd
  | returned (success : Bool)
  | nullAccess
  deriving DecidableEq, Repr

/-- The end of `svr_remotestreamlocalreq`, from `out` on: after a failure `tcpinfo->socket_path` is
freed. -/
def remotestreamlocalOut (tcpinfo : Option FwdListener) (ret : Bool) : HandlerEnd :=
  if ret then .returned true
  else
    match tcpinfo with
    | none => .nullAccess
    | some _ => .returned false

/-- The `FwdListener` of a request for a path. -/
def streamlocalInfo (requestPath : Bytes) : FwdListener where
  chantype := .svrChanStreamlocalremote
  fwdType := .forwarded
  socketPath := some requestPath
  requestListenaddr := some requestPath

/-- `svr_remotestreamlocalreq`. -/
def svrRemotestreamlocalreq (cfg : FwdConfig) (sys : StreamlocalAnswers) (payload : Buffer)
    (s : Forwards) : Except Exit (HandlerEnd × Buffer × Forwards) := do
  if cfg.forcedCommand ∨ cfg.svrPubkeyHasForcedCommand then
    return (remotestreamlocalOut none false, payload, s)
  if cfg.noremotefwd ∨ ¬ cfg.svrPubkeyAllowsTcpfwd then
    return (remotestreamlocalOut none false, payload, s)
  let (requestPath, payload) ← bufGetstring payload
  if requestPath.length > maxHostLen then
    return (remotestreamlocalOut none false, payload, s)
  if (cstr requestPath).length ≠ requestPath.length then
    return (remotestreamlocalOut none false, payload, s)
  let tcpinfo := streamlocalInfo requestPath
  let (ret, s) := s.listenStreamlocal cfg sys tcpinfo
  return (remotestreamlocalOut (some tcpinfo) ret, payload, s)

/-- `matchstreamlocal`. -/
def matchstreamlocal (info1 info2 : FwdListener) : Bool :=
  match info1.socketPath, info2.socketPath with
  | some path1, some path2 => info1.chantype = info2.chantype ∧ strEq path1 path2
  | _, _ => false

/-- `svr_cancelremotestreamlocal`. -/
def svrCancelremotestreamlocal (mayUnlink : Bool) (payload : Buffer) (s : Forwards) :
    Except Exit (Bool × Buffer × Forwards) := do
  let (socketPath, payload) ← bufGetstring payload
  if socketPath.length > maxHostLen then return (false, payload, s)
  if (cstr socketPath).length ≠ socketPath.length then return (false, payload, s)
  -- of the `tcpinfo` on the stack only these two fields are set
  let tcpinfo : FwdListener :=
    { socketPath := some socketPath, chantype := .svrChanStreamlocalremote, fwdType := .forwarded }
  let accepts : Typedata → Bool
    | .fwd info => matchstreamlocal tcpinfo info
    | .chansess => false
  match s.getListener channelIdStreamlocalforwarded accepts with
  | some listener => return (true, payload, s.removeListener mayUnlink listener)
  | none => return (false, payload, s)

/-! ### What `listen_streamlocal` can do -/

namespace Forwards

variable {s s' : Forwards} {cfg : FwdConfig} {sys : StreamlocalAnswers} {path : Bytes} {b : Bool}

@[simp] theorem unlink_listeners : (s.unlink b path).listeners = s.listeners := by
  unfold unlink
  split_ifs <;> rfl

@[simp] theorem unlink_fds : (s.unlink b path).fds = s.fds := by
  unfold unlink
  split_ifs <;> rfl

@[simp] theorem unlink_closes : (s.unlink b path).closes = s.closes := by
  unfold unlink
  split_ifs <;> rfl

theorem unlink_files_of_ne {q : Bytes} (h : q ≠ path) :
    (s.unlink b path).files q = s.files q := by
  unfold unlink
  split_ifs
  · exact Function.update_of_ne h _ _
  · rfl

/-- Exactly one slot has a listener that it did not have. -/
def OneMore (s s' : Forwards) : Prop :=
  ∃ i l, s.listener i = none ∧ ∀ j, s'.listener j = if j = i then some l else s.listener j

/-- Files that are no sockets are still there. -/
def KeepsOthers (s s' : Forwards) : Prop :=
  ∀ path k, s.files path = some k → k ≠ .socket → s'.files path = some k

/-- A failure without harm: the table and the open descriptors are as before, no file but a socket
is gone, and no descriptor has been closed twice. -/
structure Unharmed (s s' : Forwards) : Prop where
  listeners : s'.listeners = s.listeners
  fds : ∀ n, s'.fds.owner n = s.fds.owner n
  files : KeepsOthers s s'
  closes : ∃ cs : List ℕ, s'.closes = s.closes ++ cs ∧ cs.Nodup

/-- The file at the path is no socket and is removed. -/
def RemovesFile (s : Forwards) (sys : StreamlocalAnswers) (path : Bytes) : Prop :=
  sys.mayUnlink = true ∧ s.files path = some .other

/-- `bind` succeeds: the name is free, or is made free. -/
def Binds (s : Forwards) (sys : StreamlocalAnswers) (path : Bytes) : Prop :=
  sys.bind = none ∧
    (s.files path = none ∨ (sys.mayUnlink = true ∧ s.files path ≠ some .directory))

instance (s : Forwards) (sys : StreamlocalAnswers) (path : Bytes) : Decidable (s.Binds sys path) :=
  inferInstanceAs (Decidable (_ ∧ (_ ∨ (_ ∧ _))))

/-- The path is the only name that may be different. -/
theorem keepsOthers_iff (h : ∀ q ≠ path, s'.files q = s.files q) :
    KeepsOthers s s' ↔ ∀ k, s.files path = some k → k ≠ .socket → s'.files path = some k := by
  refine ⟨fun hk => hk path, fun hk q k hq hne => ?_⟩
  by_cases hpath : q = path
  · subst hpath
    exact hk k hq hne
  · rw [h q hpath]
    exact hq

theorem files_unlink_self :
    (s.unlink b path).files path =
      if b = true ∧ s.files path ≠ some .directory then none else s.files path := by
  unfold unlink
  split_ifs
  · exact Function.update_self _ _ _
  · rfl

/-- The first `unlink` removes nothing but a socket. -/
theorem keepsOthers_unlink_iff (h : ∀ q ≠ path, s'.files q = s.files q)
    (hp : s'.files path = if sys.mayUnlink = true ∧ s.files path ≠ some .directory then none
      else s.files path) :
    KeepsOthers s s' ↔ ¬ s.RemovesFile sys path := by
  rw [keepsOthers_iff h, hp]
  constructor
  · rintro hk ⟨hmay, hother⟩
    have hgone := hk .other hother nofun
    rw [if_pos ⟨hmay, by rw [hother]; nofun⟩] at hgone
    cases hgone
  · intro hrem k hk hne
    cases k with
    | socket => exact absurd rfl hne
    | directory => rw [if_neg (fun hc => hc.2 hk), hk]
    | other => rw [if_neg (fun hc => hrem ⟨hc.1, hk⟩), hk]

/-- After `bind` on a name that was free or has been made free. -/
theorem keepsOthers_bound_iff (hb : s.Binds sys path) (h : ∀ q ≠ path, s'.files q = s.files q)
    (hp : s'.files path ≠ some .other) : KeepsOthers s s' ↔ ¬ s.RemovesFile sys path := by
  rw [keepsOthers_iff h]
  constructor
  · rintro hk ⟨-, hother⟩
    exact hp (hk .other hother nofun)
  · intro hrem k hk hne
    obtain hnone | ⟨hmay, hdir⟩ := hb.2
    · rw [hnone] at hk
      cases hk
    · cases k with
      | socket => exact absurd rfl hne
      | directory => exact absurd hk hdir
      | other => exact absurd ⟨hmay, hk⟩ hrem

/-- The descriptors after the socket has been opened and closed. -/
theorem owner_release_alloc (t : FdTable Unit) (n : ℕ) :
    ((t.alloc ()).release t.lowest).owner n = t.owner n := by
  rw [FdTable.owner_release, FdTable.owner_alloc]
  split_ifs with hn
  · rw [hn, FdTable.owner_lowest]
  · rfl

/-- A call of `listen_streamlocal` or of the handler is as it should be. -/
def Settles (s : Forwards) (ret : Bool) (s' : Forwards) : Prop :=
  (ret = true ∧ OneMore s s') ∨ (ret = false ∧ Unharmed s s')

theorem settles_false : Settles s false s' ↔ Unharmed s s' := by
  simp [Settles]

/-- The socket has been opened and the name made free. -/
def opened (s : Forwards) (sys : StreamlocalAnswers) (path : Bytes) : Forwards :=
  { s with fds := s.fds.alloc () }.unlink sys.mayUnlink path

theorem files_opened_eq_none_iff :
    (s.opened sys path).files path = none ↔
      s.files path = none ∨ (sys.mayUnlink = true ∧ s.files path ≠ some .directory) := by
  rw [opened, files_unlink_self]
  split_ifs with h
  · exact ⟨fun _ => .inr h, fun _ => rfl⟩
  · exact ⟨.inl, fun h' => h'.resolve_right h⟩

theorem bindPath_of_binds (hb : s.Binds sys path) :
    (s.opened sys path).bindPath sys.bind path = .ok { s.opened sys path with
      files := Function.update (s.opened sys path).files path (some .socket) } := by
  obtain ⟨hbind, hfree⟩ := hb
  unfold bindPath
  rw [hbind]
  dsimp only
  rw [if_pos (files_opened_eq_none_iff.2 hfree)]

theorem bindPath_of_not_binds (hb : ¬ s.Binds sys path) :
    ∃ error, (s.opened sys path).bindPath sys.bind path = .error error := by
  unfold bindPath
  cases hbind : sys.bind with
  | some error => exact ⟨error, rfl⟩
  | none =>
    dsimp only
    rw [if_neg fun h => hb ⟨hbind, files_opened_eq_none_iff.1 h⟩]
    exact ⟨_, rfl⟩

/-- When `bind` fails: the name has been made free all the same. -/
theorem settles_unbound (hfds : s'.fds = (s.fds.alloc ()).release s.fds.lowest)
    (hlisteners : s'.listeners = s.listeners) (hcloses : s'.closes = s.closes ++ [s.fds.lowest])
    (hfiles : KeepsOthers s s' ↔ ¬ s.RemovesFile sys path) :
    Settles s false s' ↔ ¬ s.RemovesFile sys path := by
  rw [settles_false, ← hfiles]
  refine ⟨fun h => h.files, fun hk => ⟨hlisteners, fun n => ?_, hk, _, hcloses, ?_⟩⟩
  · rw [hfds, owner_release_alloc]
  · simp

/-- A socket closed twice. -/
theorem not_settles_closed_twice (fd : ℕ) (h : s'.closes = s.closes ++ [fd, fd]) :
    ¬ Settles s false s' := by
  rw [settles_false]
  rintro ⟨-, -, -, cs, hcs, hnodup⟩
  rw [h, List.append_cancel_left_eq] at hcs
  subst hcs
  simp at hnodup

/-- `listen_streamlocal` from `listen` on, when `bind` has succeeded. -/
theorem listenBound_settles_iff (hb : s.Binds sys path) (tcpinfo : FwdListener) {bound : Forwards}
    (hbound : bound = { s.opened sys path with
      files := Function.update (s.opened sys path).files path (some .socket) }) :
    Settles s (bound.listenBound sys tcpinfo path s.fds.lowest).1
        (bound.listenBound sys tcpinfo path s.fds.lowest).2 ↔
      if sys.listen = none then s.HasRoom else ¬ s.RemovesFile sys path := by
  have hlisteners : bound.listeners = s.listeners := by
    rw [hbound]
    exact unlink_listeners
  have hfds : bound.fds = s.fds.alloc () := by
    rw [hbound]
    exact unlink_fds
  have hcloses : bound.closes = s.closes := by
    rw [hbound]
    exact unlink_closes
  have hother (q : Bytes) (hq : q ≠ path) : bound.files q = s.files q := by
    rw [hbound]
    exact (Function.update_of_ne hq _ _).trans (unlink_files_of_ne hq)
  have hself : bound.files path = some .socket := by
    rw [hbound]
    exact Function.update_self _ _ _
  have hroom : bound.HasRoom ↔ s.HasRoom := by
    unfold HasRoom freeSlot
    rw [hlisteners]
  unfold listenBound
  cases hlisten : sys.listen with
  | some error =>
    rw [if_neg nofun]
    refine settles_unbound ?_ ?_ ?_ (keepsOthers_bound_iff hb ?_ ?_)
    · change FdTable.release (Forwards.unlink _ _ _).fds _ = _
      rw [unlink_fds]
      exact congrArg (FdTable.release · s.fds.lowest) hfds
    · exact unlink_listeners.trans hlisteners
    · change (Forwards.unlink _ _ _).closes ++ _ = _
      rw [unlink_closes]
      exact congrArg (· ++ [s.fds.lowest]) hcloses
    · intro q hq
      exact (unlink_files_of_ne hq).trans (hother q hq)
    · change (Forwards.unlink _ _ _).files path ≠ _
      rw [files_unlink_self]
      split_ifs
      · exact nofun
      · exact fun h => by cases hself.symm.trans h
  | none =>
    rw [if_pos rfl]
    by_cases hr : s.HasRoom
    · obtain ⟨s', hnew, hfree, hslots, -⟩ := newListener_room [s.fds.lowest] .streamforwarded
        (.fwd tcpinfo) (some .cleanupStreamlocal) (hroom.2 hr)
      have hsame (j : ℕ) : bound.listener j = s.listener j := by
        rw [listener, hlisteners]
        rfl
      have hmore : OneMore s s' :=
        ⟨bound.freeSlot, _, (hsame _).symm.trans hfree, fun j => (hslots j).trans (by rw [hsame j])⟩
      rw [hnew]
      exact iff_of_true (.inl ⟨rfl, hmore⟩) hr
    · -- `new_listener` has closed the socket, and it is closed again
      rw [newListener_full _ _ _ _ (fun h => hr (hroom.1 h))]
      refine iff_of_false (not_settles_closed_twice s.fds.lowest ?_) hr
      change (Forwards.unlink _ _ _).closes ++ _ = _
      rw [unlink_closes, closeAll_singleton]
      change bound.closes ++ [s.fds.lowest] ++ [s.fds.lowest] = _
      rw [hcloses, List.append_assoc]
      rfl

/-- When a request for this path does no harm: it is given up before the name is touched, or it
succeeds, or it fails at `bind` or `listen` where no other file had the name. -/
def Sound (s : Forwards) (cfg : FwdConfig) (sys : StreamlocalAnswers) (path : Bytes) : Prop :=
  cfg.sunPathSize ≤ path.length ∨ sys.socket = false ∨
    if s.Binds sys path ∧ sys.listen = none then s.HasRoom else ¬ s.RemovesFile sys path

theorem listenStreamlocal_settles_iff (hpath : cstr path = path) (tcpinfo : FwdListener)
    (hinfo : tcpinfo.socketPath = some path) :
    Settles s (s.listenStreamlocal cfg sys tcpinfo).1 (s.listenStreamlocal cfg sys tcpinfo).2 ↔
      s.Sound cfg sys path := by
  have hlog (message : String) : Settles s false (s.info message) :=
    settles_false.2 ⟨rfl, fun _ => rfl, fun _ _ hk _ => hk, [], (List.append_nil _).symm, .nil⟩
  unfold listenStreamlocal Sound
  rw [hinfo]
  dsimp only
  rw [hpath]
  by_cases hlong : path.length ≥ cfg.sunPathSize
  · rw [if_pos hlong]
    exact iff_of_true (hlog _) (.inl hlong)
  rw [if_neg hlong]
  by_cases hsocket : ¬ sys.socket = true
  · rw [if_pos hsocket]
    exact iff_of_true (hlog _) (.inr (.inl (by simpa using hsocket)))
  rw [if_neg hsocket, or_iff_right hlong, or_iff_right (by simpa using hsocket)]
  by_cases hb : s.Binds sys path
  · have hbind := bindPath_of_binds hb
    unfold opened at hbind
    rw [hbind]
    refine (listenBound_settles_iff hb tcpinfo rfl).trans ?_
    by_cases hlisten : sys.listen = none
    · rw [if_pos hlisten, if_pos ⟨hb, hlisten⟩]
    · rw [if_neg hlisten, if_neg (fun h => hlisten h.2)]
  · obtain ⟨error, hbind⟩ := bindPath_of_not_binds hb
    unfold opened at hbind
    rw [hbind, if_neg (fun h => hb h.1)]
    refine settles_unbound ?_ unlink_listeners ?_
      (keepsOthers_unlink_iff (fun q hq => unlink_files_of_ne hq) files_unlink_self)
    · exact congrArg (FdTable.release · s.fds.lowest) unlink_fds
    · exact congrArg (· ++ [s.fds.lowest]) unlink_closes

end Forwards

/-- The request returns, with one more listener or after a failure without harm. -/
def Harmless (s : Forwards) (r : Except Exit (HandlerEnd × Buffer × Forwards)) : Prop :=
  ∃ ret payload' s', r = .ok (.returned ret, payload', s') ∧ s.Settles ret s'

/-- The request passes the checks before `tcpinfo` is allocated, with this path. -/
def Admits (cfg : FwdConfig) (payload : Buffer) (path : Bytes) : Prop :=
  cfg.forcedCommand = false ∧ cfg.svrPubkeyHasForcedCommand = false ∧ cfg.noremotefwd = false ∧
    cfg.svrPubkeyAllowsTcpfwd = true ∧ path.length ≤ maxHostLen ∧ 0 ∉ path ∧
    ∃ r, payload.rest = sshString path ++ r

/-- The check for a NUL byte in a string. -/
theorem length_cstr_iff {bs : Bytes} : (cstr bs).length = bs.length ↔ 0 ∉ bs := by
  constructor
  · intro h hmem
    have hpre : cstr bs = bs := (List.takeWhile_prefix _).eq_of_length h
    rw [← hpre] at hmem
    exact not_mem_cstr bs hmem
  · intro h
    rw [cstr_eq_self h]

theorem Admits.cstr_eq {cfg : FwdConfig} {payload : Buffer} {path : Bytes}
    (h : Admits cfg payload path) : cstr path = path := by
  obtain ⟨-, -, -, -, -, hnul, -⟩ := h
  exact cstr_eq_self hnul

variable {cfg : FwdConfig} {sys : StreamlocalAnswers} {payload : Buffer} {s : Forwards}

/-- A request that is not admitted does not come to a good end. -/
theorem not_harmless_of_not_admits (h : ∀ path, ¬ Admits cfg payload path) :
    ¬ Harmless s (svrRemotestreamlocalreq cfg sys payload s) := by
  rintro ⟨ret, payload', s', hr, -⟩
  unfold svrRemotestreamlocalreq at hr
  by_cases hforced : cfg.forcedCommand = true ∨ cfg.svrPubkeyHasForcedCommand = true
  · rw [if_pos hforced] at hr
    cases hr
  rw [if_neg hforced] at hr
  by_cases hno : cfg.noremotefwd = true ∨ ¬ cfg.svrPubkeyAllowsTcpfwd = true
  · rw [if_pos hno] at hr
    cases hr
  rw [if_neg hno] at hr
  obtain ⟨⟨path, b⟩, hget, hr⟩ := bind_eq_ok.1 hr
  obtain ⟨⟨-, hrest⟩, -⟩ := bufGetstring_ok.1 hget
  dsimp only at hr
  by_cases hlen : path.length > maxHostLen
  · rw [if_pos hlen] at hr
    cases hr
  rw [if_neg hlen] at hr
  by_cases hnul : (cstr path).length ≠ path.length
  · rw [if_pos hnul] at hr
    cases hr
  refine h path ⟨?_, ?_, ?_, ?_, Nat.le_of_not_lt hlen, length_cstr_iff.1 (not_not.1 hnul), hrest⟩
  · simpa using fun h => hforced (.inl h)
  · simpa using fun h => hforced (.inr h)
  · simpa using fun h => hno (.inl h)
  · exact not_not.1 fun h => hno (.inr h)

/-- An admitted request ends as `listen_streamlocal` does. -/
theorem svrRemotestreamlocalreq_of_admits (sys : StreamlocalAnswers) (s : Forwards) {path : Bytes}
    (h : Admits cfg payload path) :
    ∃ payload', svrRemotestreamlocalreq cfg sys payload s =
      .ok (.returned (s.listenStreamlocal cfg sys (streamlocalInfo path)).1, payload',
        (s.listenStreamlocal cfg sys (streamlocalInfo path)).2) := by
  obtain ⟨hforced, hkey, hno, hallows, hlen, hnul, r, hr⟩ := h
  have hget : bufGetstring payload = .ok (path, payload.advance (4 + path.length)) := by
    refine bufGetstring_ok.2 ⟨⟨Nat.le_trans hlen (by decide), r, hr⟩, rfl⟩
  have hnul' := length_cstr_iff.2 hnul
  unfold svrRemotestreamlocalreq
  simp only [hforced, hkey, hno, hallows, hget, Bool.false_eq_true, or_self, not_true_eq_false,
    if_false, ok_bind, Nat.not_lt.2 hlen, gt_iff_lt, hnul', ne_eq]
  refine ⟨payload.advance (4 + path.length), ?_⟩
  cases (s.listenStreamlocal cfg sys (streamlocalInfo path)).1 <;> rfl

/-- **When a request is harmless**: exactly when it passes the checks before `tcpinfo` is allocated,
and then is given up before the name is touched, or succeeds, or fails at `bind` or `listen` where
no file but a socket had the name. -/
theorem svrRemotestreamlocalreq_harmless_iff (cfg : FwdConfig) (sys : StreamlocalAnswers)
    (payload : Buffer) (s : Forwards) :
    Harmless s (svrRemotestreamlocalreq cfg sys payload s) ↔
      ∃ path, Admits cfg payload path ∧ s.Sound cfg sys path := by
  constructor
  · intro hh
    by_cases hadmits : ∃ path, Admits cfg payload path
    · obtain ⟨path, hadmits⟩ := hadmits
      refine ⟨path, hadmits, ?_⟩
      have hpath := hadmits.cstr_eq
      obtain ⟨ret, payload', s', hr, hsettles⟩ := hh
      obtain ⟨b, hreq⟩ := svrRemotestreamlocalreq_of_admits sys s hadmits
      rw [hreq] at hr
      cases hr
      exact (Forwards.listenStreamlocal_settles_iff hpath _ rfl).1 hsettles
    · exact absurd hh (not_harmless_of_not_admits fun path h => hadmits ⟨path, h⟩)
  · rintro ⟨path, hadmits, hsound⟩
    obtain ⟨b, hreq⟩ := svrRemotestreamlocalreq_of_admits sys s hadmits
    exact ⟨_, b, _, hreq, (Forwards.listenStreamlocal_settles_iff hadmits.cstr_eq _ rfl).2 hsound⟩

/-- A request for the socket `/tmp/s`. -/
def socketRequest : Buffer := Buffer.ofBytes (sshString (ascii "/tmp/s")) (by decide)

/-- A table with as many listeners as there can be. -/
def fullTable : Forwards where
  listeners := List.replicate 21 (some ⟨[], 0, .default, .chansess, none⟩)
  maxfd := 0
  fds := ⟨[some ()]⟩
  closes := []
  files _ := none
  sent := []
  log := []

/-- With a forced command the handler reads from a null pointer; with a full table the socket, which
has the number 1, is closed twice. -/
theorem svrRemotestreamlocalreq_harms :
    ¬ Harmless fullTable (svrRemotestreamlocalreq { forcedCommand := true, sunPathSize := 104 }
        ⟨true, true, none, none⟩ socketRequest fullTable) ∧
      ¬ Harmless fullTable (svrRemotestreamlocalreq { sunPathSize := 104 }
        ⟨true, true, none, none⟩ socketRequest fullTable) := by
  constructor
  · rintro ⟨ret, payload', s', h, -⟩
    cases h
  · rintro ⟨ret, payload', s', h, hsettles⟩
    have hcloses : (svrRemotestreamlocalreq { sunPathSize := 104 } ⟨true, true, none, none⟩
        socketRequest fullTable).toOption.map (fun r => (r.1, r.2.2.closes)) =
          some (.returned false, [1, 1]) := by
      decide
    rw [h] at hcloses
    obtain ⟨hret, htwice⟩ := Prod.mk.inj (Option.some.inj hcloses)
    cases hret
    exact Forwards.not_settles_closed_twice (s := fullTable) 1 htwice hsettles

end Ps4Dropbear
