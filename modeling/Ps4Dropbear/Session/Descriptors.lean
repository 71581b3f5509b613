import Mathlib.Data.Finset.Card
import Ps4Dropbear.LTS.Basic

/-!
# The descriptors of serial sessions

The server of the port handles one session after the other in one process: `main_noinetd` accepts
a connection, runs the session, and every `dropbear_exit` comes back by `longjmp` after
`session_cleanup`.  What a session leaves open stays open.

`SerialServer` is the process with its open descriptors.  A session records the descriptors it
knows: its socket, the signal pipe, those of channels and their workers, listeners and pending
connects.  The number that a call returns is a part of the event, and not in use.  Descriptors that
a handler opens and closes again do not appear.

* `SessionFds.perform` : what the events of a session open, close and record.
* `SerialServer.leave` : `session_cleanup` and the `longjmp`.
* `serial_never_balanced` : no session leaves the descriptors as it found them.
* `serial_leaks` : every session costs the process a descriptor.
-/

namespace Ps4Dropbear

/-- The descriptors of a channel. -/
structure ChannelFds where
  readfd : Option ℕ := none
  writefd : Option ℕ := none
  /-- `bidir_fd`. -/
  bidir : Bool := true
  /-- `ps4_backend_fd`, the worker's end of the socket pair. -/
  backendFd : Option ℕ := none
  /-- `ps4_cancel_fd`. -/
  cancelFd : Option ℕ := none
  /-- The files that the worker has open. -/
  workerFiles : List ℕ := []

namespace ChannelFds

/-- What `remove_channel` closes.  It joins the worker, which closes its files. -/
def fds (c : ChannelFds) : List ℕ :=
  c.writefd.toList ++ c.readfd.toList ++ c.workerFiles ++ c.backendFd.toList ++ c.cancelFd.toList

/-- `close_chan_fd` for `readfd` or `writefd`: what is closed, and the channel. -/
def closeChanFd (c : ChannelFds) (read : Bool) : List ℕ × ChannelFds :=
  let fd := if read then c.readfd else c.writefd
  if c.bidir then
    let c' := if read then { c with readfd := none } else { c with writefd := none }
    (if c'.readfd = none ∧ c'.writefd = none then fd.toList else [], c')
  else
    (fd.toList,
      { c with
        readfd := if c.readfd = fd then none else c.readfd
        writefd := if c.writefd = fd then none else c.writefd })

end ChannelFds

/-- A session and its descriptors. -/
structure SessionFds where
  /-- The open descriptors before `accept`. -/
  before : Finset ℕ
  /-- The accepted socket, `ses.sock_in` and `ses.sock_out`. -/
  sock : ℕ
  signalPipe : Option (ℕ × ℕ) := none
  initDone : Bool := false
  channels : List ChannelFds := []
  listeners : List (List ℕ) := []
  /-- The sockets of pending connects. -/
  pending : List ℕ := []

/-- The descriptors that the events of a session may close. -/
def SessionFds.records (s : SessionFds) : List ℕ :=
  s.channels.flatMap ChannelFds.fds ++ s.listeners.flatten ++ s.pending

/-- What happens to descriptors, with the numbers the kernel gives out. -/
inductive FdEvent
  /-- A connection is accepted.  The pipe for the child is closed before the session starts. -/
  | accept (sock : ℕ)
  /-- `common_session_init` makes the signal pipe, or ends the session. -/
  | signalPipe (ends : Option (ℕ × ℕ))
  /-- `ses.init_done`. -/
  | initDone
  /-- `ps4_shell_start` or `ps4_scp_start`: a socket pair. -/
  | startWorker (near far : ℕ)
  /-- `ps4_builtin_command`: the output of the command, and `/dev/null`. -/
  | startExec (out devnull : ℕ)
  /-- `connect_try_next` makes a socket. -/
  | connectSocket (sock : ℕ)
  | connectFailed (sock : ℕ)
  /-- `channel_connect_done` gives the socket to a channel. -/
  | connectDone (sock : ℕ)
  /-- `cancel_callback`: the channel is gone. -/
  | connectCancelled (sock : ℕ)
  | listen (socks : List ℕ)
  | removeListener (i : ℕ)
  /-- A listener accepts a connection for a channel. -/
  | acceptForwarded (sock : ℕ)
  | closeChanFd (i : ℕ) (read : Bool)
  | removeChannel (i : ℕ)
  /-- `sesscheckclose` moves the worker's end to `ps4_cancel_fd`. -/
  | cancelWorker (i : ℕ)
  | workerOpen (i file : ℕ)
  | workerClose (i file : ℕ)
  /-- The worker exchanges `ps4_backend_fd`, closes what it gets and returns. -/
  | workerDone (i : ℕ)
  /-- `dropbear_exit`; `remote` when `svr_remoteclosed` has closed the socket. -/
  | exit (remote : Bool)
  deriving DecidableEq

/-- What an event of a session opens and closes, and the session after it. -/
structure FdEffect where
  opened : List ℕ := []
  closed : List ℕ := []
  session : SessionFds

namespace SessionFds

/-- An event of one channel. -/
def onChannel (s : SessionFds) (i : ℕ) (f : ChannelFds → List ℕ × List ℕ × ChannelFds) :
    Option FdEffect :=
  (s.channels[i]?).map fun c =>
    { opened := (f c).1, closed := (f c).2.1
      session := { s with channels := s.channels.set i (f c).2.2 } }

/-- A channel is added. -/
def addChannel (s : SessionFds) (c : ChannelFds) : SessionFds :=
  { s with channels := s.channels ++ [c] }

/-- The events of a session that has been initialised. -/
def perform (s : SessionFds) : FdEvent → Option FdEffect
  | .startWorker near far => some
    { opened := [near, far]
      session := s.addChannel { readfd := some near, writefd := some near, backendFd := some far } }
  | .startExec out devnull => some
    { opened := [out, devnull]
      session := s.addChannel { readfd := some out, writefd := some devnull, bidir := false } }
  | .connectSocket sock => some
    { opened := [sock], session := { s with pending := s.pending ++ [sock] } }
  | .connectFailed sock | .connectCancelled sock =>
    if sock ∈ s.pending then some
      { closed := [sock], session := { s with pending := s.pending.erase sock } }
    else none
  | .connectDone sock =>
    if sock ∈ s.pending then some
      { session := { s with pending := s.pending.erase sock }.addChannel
          { readfd := some sock, writefd := some sock } }
    else none
  | .listen socks => some
    { opened := socks, session := { s with listeners := s.listeners ++ [socks] } }
  | .removeListener i => (s.listeners[i]?).map fun socks =>
    { closed := socks, session := { s with listeners := s.listeners.eraseIdx i } }
  | .acceptForwarded sock => some
    { opened := [sock]
      session := s.addChannel { readfd := some sock, writefd := some sock } }
  | .closeChanFd i read => s.onChannel i fun c => ([], c.closeChanFd read)
  | .removeChannel i => (s.channels[i]?).map fun c =>
    { closed := c.fds, session := { s with channels := s.channels.eraseIdx i } }
  | .cancelWorker i => s.onChannel i fun c =>
    ([], [], { c with cancelFd := c.backendFd, backendFd := none })
  | .workerOpen i file => s.onChannel i fun c =>
    ([file], [], { c with workerFiles := c.workerFiles ++ [file] })
  | .workerClose i file => s.onChannel i fun c =>
    if file ∈ c.workerFiles then ([], [file], { c with workerFiles := c.workerFiles.erase file })
    else ([], [], c)
  | .workerDone i => s.onChannel i fun c =>
    if c.workerFiles = [] then ([], c.backendFd.toList, { c with backendFd := none })
    else ([], [], c)
  | _ => none

/-- What `session_cleanup` closes: channels with their workers, and listeners.  Before `init_done`
it does nothing. -/
def sessionCleanup (s : SessionFds) : List ℕ :=
  if s.initDone then s.channels.flatMap ChannelFds.fds ++ s.listeners.flatten else []

end SessionFds

/-- A session that has ended: the open descriptors before and after it, its socket and signal pipe,
and whether `svr_remoteclosed` has closed the socket. -/
structure SessionRecord where
  before : Finset ℕ
  after : Finset ℕ
  sock : ℕ
  signalPipe : Option (ℕ × ℕ)
  remote : Bool

/-- The process with its open descriptors, the session it serves, and those it has served. -/
structure SerialServer where
  fds : Finset ℕ
  session : Option SessionFds := none
  history : List SessionRecord := []

namespace SerialServer

/-- `svr_dropbear_exit`: the session is cleaned up, and control returns to the accept loop. -/
def leave (s : SerialServer) (ss : SessionFds) (remote : Bool) : SerialServer :=
  let after := (if remote then s.fds.erase ss.sock else s.fds) \ ss.sessionCleanup.toFinset
  { fds := after, session := none
    history := s.history ++ [⟨ss.before, after, ss.sock, ss.signalPipe, remote⟩] }

/-- A step of the process. -/
def step (s : SerialServer) : FdEvent → Option SerialServer
  | .accept sock =>
    if s.session.isNone ∧ sock ∉ s.fds then
      some { s with fds := insert sock s.fds, session := some { before := s.fds, sock := sock } }
    else none
  | .signalPipe ends => s.session.bind fun ss =>
    if ss.signalPipe.isSome then none
    else
      match ends with
      | none => some (s.leave ss false)
      | some (p, q) =>
        if p ∉ s.fds ∧ q ∉ s.fds ∧ p ≠ q then
          some { s with
            fds := insert p (insert q s.fds)
            session := some { ss with signalPipe := some (p, q) } }
        else none
  | .initDone => s.session.bind fun ss =>
    if ss.signalPipe.isSome then some { s with session := some { ss with initDone := true } }
    else none
  | .exit remote => s.session.bind fun ss =>
    if ss.signalPipe.isSome then some (s.leave ss remote) else none
  | e => s.session.bind fun ss =>
    if ss.initDone then
      (ss.perform e).bind fun eff =>
        if ∀ n ∈ eff.opened, n ∉ s.fds then
          some { s with
            fds := (s.fds ∪ eff.opened.toFinset) \ eff.closed.toFinset
            session := some eff.session }
        else none
    else none

end SerialServer

/-- The process as a transition system. -/
def serialServer : LTS SerialServer FdEvent where
  step := SerialServer.step

/-- The property: the open descriptors are those from before `accept`. -/
def SessionRecord.Balanced (r : SessionRecord) : Prop := r.after = r.before

/-! ### What an event can do -/

namespace SessionFds

variable {s : SessionFds} {n : ℕ}

theorem mem_records : n ∈ s.records ↔
    (∃ c ∈ s.channels, n ∈ c.fds) ∨ (∃ l ∈ s.listeners, n ∈ l) ∨ n ∈ s.pending := by
  simp [records]

theorem mem_records_of_channel {c : ChannelFds} (hc : c ∈ s.channels) (hn : n ∈ c.fds) :
    n ∈ s.records := mem_records.2 (.inl ⟨c, hc, hn⟩)

theorem mem_records_of_listener {l : List ℕ} (hl : l ∈ s.listeners) (hn : n ∈ l) :
    n ∈ s.records := mem_records.2 (.inr (.inl ⟨l, hl, hn⟩))

theorem mem_records_of_pending (hn : n ∈ s.pending) : n ∈ s.records :=
  mem_records.2 (.inr (.inr hn))

/-- An event closes only what the session has recorded, records only that and what it has opened,
and leaves the socket and the signal pipe alone. -/
structure Contained (s : SessionFds) (eff : FdEffect) : Prop where
  closed : ∀ n ∈ eff.closed, n ∈ s.records
  records : ∀ n ∈ eff.session.records, n ∈ s.records ∨ n ∈ eff.opened
  before : eff.session.before = s.before
  sock : eff.session.sock = s.sock
  signalPipe : eff.session.signalPipe = s.signalPipe

/-- An event of a channel that closes and records only what the channel has, or opens. -/
theorem onChannel_contained {i : ℕ} {f : ChannelFds → List ℕ × List ℕ × ChannelFds}
    {eff : FdEffect} (h : s.onChannel i f = some eff) (hclosed : ∀ c, ∀ n ∈ (f c).2.1, n ∈ c.fds)
    (hfds : ∀ c, ∀ n ∈ (f c).2.2.fds, n ∈ c.fds ∨ n ∈ (f c).1) : Contained s eff := by
  unfold onChannel at h
  obtain ⟨c, hc, rfl⟩ := Option.map_eq_some_iff.1 h
  have hmem : c ∈ s.channels := List.mem_of_getElem? hc
  refine ⟨fun n hn => mem_records_of_channel hmem (hclosed c n hn), ?_, rfl, rfl, rfl⟩
  intro n hn
  rcases mem_records.1 hn with ⟨c', hc', hn'⟩ | ⟨l, hl, hn'⟩ | hn'
  · rcases List.mem_or_eq_of_mem_set hc' with hold | rfl
    · exact .inl (mem_records_of_channel hold hn')
    · exact (hfds c n hn').imp_left (mem_records_of_channel hmem)
  · exact .inl (mem_records_of_listener hl hn')
  · exact .inl (mem_records_of_pending hn')

/-- The records when a channel is added. -/
theorem mem_records_addChannel {c : ChannelFds} (h : n ∈ (s.addChannel c).records) :
    n ∈ s.records ∨ n ∈ c.fds := by
  rcases mem_records.1 h with ⟨c', hc', hn⟩ | ⟨l, hl, hn⟩ | hn
  · rcases List.mem_append.1 hc' with hold | hnew
    · exact .inl (mem_records_of_channel hold hn)
    · rw [List.mem_singleton.1 hnew] at hn
      exact .inr hn
  · exact .inl (mem_records_of_listener hl hn)
  · exact .inl (mem_records_of_pending hn)

theorem mem_closeChanFd (c : ChannelFds) (read : Bool) :
    (∀ n ∈ (c.closeChanFd read).1, n ∈ c.fds) ∧
      ∀ n ∈ (c.closeChanFd read).2.fds, n ∈ c.fds := by
  unfold ChannelFds.closeChanFd
  constructor
  · intro n hn
    cases read <;> cases hb : c.bidir <;> simp [hb, ChannelFds.fds] at hn ⊢ <;> grind
  · intro n hn
    cases read <;> cases hb : c.bidir <;> simp [hb, ChannelFds.fds] at hn ⊢ <;> grind

/-- The records of a session with less in it. -/
theorem records_subset {s' : SessionFds} (hn : n ∈ s'.records)
    (hc : ∀ c ∈ s'.channels, c ∈ s.channels) (hl : ∀ l ∈ s'.listeners, l ∈ s.listeners)
    (hp : ∀ n ∈ s'.pending, n ∈ s.pending) : n ∈ s.records := by
  rcases mem_records.1 hn with ⟨c, hmem, hn⟩ | ⟨l, hmem, hn⟩ | hn
  · exact mem_records_of_channel (hc c hmem) hn
  · exact mem_records_of_listener (hl l hmem) hn
  · exact mem_records_of_pending (hp n hn)

/-- What one event of a session can do. -/
theorem perform_contained {e : FdEvent} {eff : FdEffect} (h : s.perform e = some eff) :
    Contained s eff := by
  cases e with
  | accept | signalPipe | initDone | exit => simp [perform] at h
  | startWorker near far =>
    cases h
    refine ⟨nofun, ?_, rfl, rfl, rfl⟩
    intro n hn
    exact (mem_records_addChannel hn).imp_right fun h => by simpa [ChannelFds.fds] using h
  | startExec out devnull =>
    cases h
    refine ⟨nofun, ?_, rfl, rfl, rfl⟩
    intro n hn
    exact (mem_records_addChannel hn).imp_right fun h => by
      simpa [ChannelFds.fds, or_comm] using h
  | connectSocket sock =>
    cases h
    refine ⟨nofun, ?_, rfl, rfl, rfl⟩
    intro n hn
    rcases mem_records.1 hn with ⟨c, hc, hn⟩ | ⟨l, hl, hn⟩ | hn
    · exact .inl (mem_records_of_channel hc hn)
    · exact .inl (mem_records_of_listener hl hn)
    · exact (List.mem_append.1 hn).imp_left mem_records_of_pending
  | connectFailed sock | connectCancelled sock =>
    simp only [perform, Option.ite_none_right_eq_some, Option.some.injEq] at h
    obtain ⟨hmem, rfl⟩ := h
    refine ⟨?_, ?_, rfl, rfl, rfl⟩
    · intro n hn
      rw [List.mem_singleton.1 hn]
      exact mem_records_of_pending hmem
    · intro n hn
      exact .inl (records_subset hn (fun _ => id) (fun _ => id) fun _ => List.mem_of_mem_erase)
  | connectDone sock =>
    simp only [perform, Option.ite_none_right_eq_some, Option.some.injEq] at h
    obtain ⟨hmem, rfl⟩ := h
    refine ⟨nofun, fun n hn => .inl ?_, rfl, rfl, rfl⟩
    rcases mem_records_addChannel hn with hold | hnew
    · exact records_subset hold (fun _ => id) (fun _ => id) fun _ => List.mem_of_mem_erase
    · have heq : n = sock := by simpa [ChannelFds.fds] using hnew
      rw [heq]
      exact mem_records_of_pending hmem
  | listen socks =>
    cases h
    refine ⟨nofun, ?_, rfl, rfl, rfl⟩
    intro n hn
    rcases mem_records.1 hn with ⟨c, hc, hn⟩ | ⟨l, hl, hn⟩ | hn
    · exact .inl (mem_records_of_channel hc hn)
    · rcases List.mem_append.1 hl with hold | hnew
      · exact .inl (mem_records_of_listener hold hn)
      · rw [List.mem_singleton.1 hnew] at hn
        exact .inr hn
    · exact .inl (mem_records_of_pending hn)
  | removeListener i =>
    obtain ⟨socks, hsocks, rfl⟩ := Option.map_eq_some_iff.1 h
    refine ⟨fun n hn => mem_records_of_listener (List.mem_of_getElem? hsocks) hn, ?_, rfl, rfl, rfl⟩
    intro n hn
    exact .inl (records_subset hn (fun _ => id) (fun _ => List.mem_of_mem_eraseIdx) fun _ => id)
  | acceptForwarded sock =>
    cases h
    refine ⟨nofun, ?_, rfl, rfl, rfl⟩
    intro n hn
    exact (mem_records_addChannel hn).imp_right fun h => by simpa [ChannelFds.fds] using h
  | closeChanFd i read =>
    refine onChannel_contained h (fun c n hn => ?_) (fun c n hn => .inl ?_)
    · exact (mem_closeChanFd c read).1 n hn
    · exact (mem_closeChanFd c read).2 n hn
  | removeChannel i =>
    obtain ⟨c, hc, rfl⟩ := Option.map_eq_some_iff.1 h
    refine ⟨fun n hn => mem_records_of_channel (List.mem_of_getElem? hc) hn, ?_, rfl, rfl, rfl⟩
    intro n hn
    exact .inl (records_subset hn (fun _ => List.mem_of_mem_eraseIdx) (fun _ => id) fun _ => id)
  | cancelWorker i =>
    refine onChannel_contained h (fun _ _ hn => absurd hn List.not_mem_nil) (fun c n hn => .inl ?_)
    simp only [ChannelFds.fds, List.mem_append, Option.toList_none, List.not_mem_nil,
      or_false] at hn ⊢
    tauto
  | workerOpen i file =>
    refine onChannel_contained h (fun _ _ hn => absurd hn List.not_mem_nil) (fun c n hn => ?_)
    simp only [ChannelFds.fds, List.mem_append] at hn ⊢
    tauto
  | workerClose i file =>
    refine onChannel_contained h (fun c n hn => ?_) (fun c n hn => .inl ?_)
    · split_ifs at hn with hfile
      · rw [List.mem_singleton.1 hn]
        simp [ChannelFds.fds, hfile]
      · simp at hn
    · split_ifs at hn with hfile
      · simp only [ChannelFds.fds, List.mem_append] at hn ⊢
        have := @List.mem_of_mem_erase ℕ _ n file c.workerFiles
        tauto
      · exact hn
  | workerDone i =>
    refine onChannel_contained h (fun c n hn => ?_) (fun c n hn => .inl ?_)
    · split_ifs at hn
      · simp only [ChannelFds.fds, List.mem_append]
        tauto
      · simp at hn
    · split_ifs at hn
      · simp only [ChannelFds.fds, List.mem_append, Option.toList_none, List.not_mem_nil,
          or_false] at hn ⊢
        tauto
      · exact hn

end SessionFds

/-! ### What stays open -/

/-- The descriptors that no event of a session closes: those from before it, its socket, and the
signal pipe. -/
def SessionFds.Keeps (ss : SessionFds) (n : ℕ) : Prop :=
  n ∈ ss.before ∨ n = ss.sock ∨ ∃ p q, ss.signalPipe = some (p, q) ∧ (n = p ∨ n = q)

/-- The invariant of a session. -/
structure SerialServer.Holds (s : SerialServer) (ss : SessionFds) : Prop where
  opened : ∀ n, ss.Keeps n → n ∈ s.fds
  unrecorded : ∀ n, ss.Keeps n → n ∉ ss.records
  sockNew : ss.sock ∉ ss.before
  pipeNew : ∀ p q, ss.signalPipe = some (p, q) →
    p ∉ ss.before ∧ q ∉ ss.before ∧ p ≠ ss.sock ∧ q ≠ ss.sock
  /-- Before the signal pipe is made nothing else happens. -/
  early : ss.signalPipe = none → ss.initDone = false ∧ ss.records = []

/-- What is left behind by a session. -/
structure SessionRecord.Leaks (r : SessionRecord) : Prop where
  before : r.before ⊂ r.after
  signalPipe : ∀ p q, r.signalPipe = some (p, q) →
    (p ∈ r.after ∧ p ∉ r.before) ∧ q ∈ r.after ∧ q ∉ r.before
  sock : r.remote = false → r.sock ∈ r.after ∧ r.sock ∉ r.before

namespace SerialServer

variable {s s' : SerialServer} {ss : SessionFds}

/-- Everything a step of the process can do. -/
theorem step_cases {e : FdEvent} (hst : s.step e = some s') :
    (∃ sock, s.session = none ∧ sock ∉ s.fds ∧ s' =
      { s with fds := insert sock s.fds, session := some { before := s.fds, sock := sock } }) ∨
    ∃ ss, s.session = some ss ∧
      ((∃ remote, (ss.signalPipe = none → remote = false) ∧ s' = s.leave ss remote) ∨
      (∃ p q, ss.signalPipe = none ∧ p ∉ s.fds ∧ q ∉ s.fds ∧ s' =
        { s with
          fds := insert p (insert q s.fds)
          session := some { ss with signalPipe := some (p, q) } }) ∨
      (ss.signalPipe ≠ none ∧ s' = { s with session := some { ss with initDone := true } }) ∨
      ∃ eff, ss.initDone = true ∧ ss.Contained eff ∧ (∀ n ∈ eff.opened, n ∉ s.fds) ∧ s' =
        { s with
          fds := (s.fds ∪ eff.opened.toFinset) \ eff.closed.toFinset
          session := some eff.session }) := by
  cases e with
  | accept sock =>
    simp only [SerialServer.step, Option.ite_none_right_eq_some, Option.some.injEq] at hst
    obtain ⟨⟨hidle, hsock⟩, rfl⟩ := hst
    exact .inl ⟨sock, Option.isNone_iff_eq_none.1 hidle, hsock, rfl⟩
  | signalPipe ends =>
    obtain ⟨ss, hs, hst⟩ := Option.bind_eq_some_iff.1 hst
    by_cases hsome : ss.signalPipe.isSome = true
    · simp [hsome] at hst
    have hnone : ss.signalPipe = none := by simpa using hsome
    rw [if_neg hsome] at hst
    cases ends with
    | none => exact .inr ⟨ss, hs, .inl ⟨false, fun _ => rfl, (Option.some.inj hst).symm⟩⟩
    | some ends =>
      simp only [Option.ite_none_right_eq_some, Option.some.injEq] at hst
      obtain ⟨⟨hp, hq, -⟩, rfl⟩ := hst
      exact .inr ⟨ss, hs, .inr (.inl ⟨ends.1, ends.2, hnone, hp, hq, rfl⟩)⟩
  | initDone =>
    obtain ⟨ss, hs, hst⟩ := Option.bind_eq_some_iff.1 hst
    simp only [Option.ite_none_right_eq_some, Option.some.injEq] at hst
    obtain ⟨hsome, rfl⟩ := hst
    exact .inr ⟨ss, hs, .inr (.inr (.inl ⟨Option.isSome_iff_ne_none.1 hsome, rfl⟩))⟩
  | exit remote =>
    obtain ⟨ss, hs, hst⟩ := Option.bind_eq_some_iff.1 hst
    simp only [Option.ite_none_right_eq_some, Option.some.injEq] at hst
    obtain ⟨hsome, rfl⟩ := hst
    exact .inr ⟨ss, hs, .inl ⟨remote, fun hnone => absurd hnone (Option.isSome_iff_ne_none.1 hsome),
      rfl⟩⟩
  | startWorker | startExec | connectSocket | connectFailed | connectDone | connectCancelled
  | listen | removeListener | acceptForwarded | closeChanFd | removeChannel | cancelWorker
  | workerOpen | workerClose | workerDone =>
    obtain ⟨ss, hs, hst⟩ := Option.bind_eq_some_iff.1 hst
    simp only [Option.ite_none_right_eq_some] at hst
    obtain ⟨hinit, hst⟩ := hst
    obtain ⟨eff, heff, hst⟩ := Option.bind_eq_some_iff.1 hst
    simp only [Option.ite_none_right_eq_some, Option.some.injEq] at hst
    obtain ⟨hnew, rfl⟩ := hst
    exact .inr ⟨ss, hs, .inr (.inr (.inr
      ⟨eff, hinit, SessionFds.perform_contained heff, hnew, rfl⟩))⟩

/-- An event of a session keeps the invariant. -/
theorem Holds.perform {eff : FdEffect} (h : s.Holds ss) (hc : ss.Contained eff)
    (hinit : ss.initDone = true) (hnew : ∀ n ∈ eff.opened, n ∉ s.fds)
    (hist : List SessionRecord) :
    Holds ⟨(s.fds ∪ eff.opened.toFinset) \ eff.closed.toFinset, some eff.session, hist⟩
      eff.session := by
  have hkeeps : ∀ n, eff.session.Keeps n → ss.Keeps n := by
    intro n hn
    rwa [SessionFds.Keeps, hc.before, hc.sock, hc.signalPipe] at hn
  refine ⟨?_, ?_, ?_, ?_, ?_⟩
  · intro n hn
    have hkept := hkeeps n hn
    simp only [Finset.mem_sdiff, Finset.mem_union, List.mem_toFinset]
    exact ⟨.inl (h.opened n hkept), fun hcl => h.unrecorded n hkept (hc.closed n hcl)⟩
  · intro n hn hrec
    rcases hc.records n hrec with hold | hop
    · exact h.unrecorded n (hkeeps n hn) hold
    · exact hnew n hop (h.opened n (hkeeps n hn))
  · rw [hc.before, hc.sock]
    exact h.sockNew
  · intro p q hpq
    rw [hc.signalPipe] at hpq
    rw [hc.before, hc.sock]
    exact h.pipeNew p q hpq
  · intro hnone
    rw [hc.signalPipe] at hnone
    simp [(h.early hnone).1] at hinit

theorem mem_sessionCleanup {n : ℕ} (h : n ∈ ss.sessionCleanup) : n ∈ ss.records := by
  unfold SessionFds.sessionCleanup at h
  split_ifs at h
  · exact List.mem_append_left _ h
  · simp at h

/-- The session that ends leaves descriptors behind: the signal pipe if it was made, and otherwise
the socket. -/
theorem Holds.leave (h : s.Holds ss) {remote : Bool}
    (hpipe : ss.signalPipe = none → remote = false) :
    SessionRecord.Leaks ⟨ss.before, (s.leave ss remote).fds, ss.sock, ss.signalPipe, remote⟩ := by
  have hstay : ∀ n, ss.Keeps n → (remote = true → n ≠ ss.sock) → n ∈ (s.leave ss remote).fds := by
    intro n hn hne
    simp only [SerialServer.leave, Finset.mem_sdiff, List.mem_toFinset]
    refine ⟨?_, fun hcl => h.unrecorded n hn (mem_sessionCleanup hcl)⟩
    split_ifs with hr
    · exact Finset.mem_erase.2 ⟨hne hr, h.opened n hn⟩
    · exact h.opened n hn
  have hsub : ss.before ⊆ (s.leave ss remote).fds := by
    intro n hn
    exact hstay n (.inl hn) fun _ heq => h.sockNew (heq ▸ hn)
  have hends : ∀ p q, ss.signalPipe = some (p, q) →
      (p ∈ (s.leave ss remote).fds ∧ p ∉ ss.before) ∧
        q ∈ (s.leave ss remote).fds ∧ q ∉ ss.before := by
    intro p q hpq
    obtain ⟨hp, hq, hps, hqs⟩ := h.pipeNew p q hpq
    exact ⟨⟨hstay p (.inr (.inr ⟨p, q, hpq, .inl rfl⟩)) fun _ => hps, hp⟩,
      hstay q (.inr (.inr ⟨p, q, hpq, .inr rfl⟩)) fun _ => hqs, hq⟩
  have hsock : remote = false → ss.sock ∈ (s.leave ss remote).fds ∧ ss.sock ∉ ss.before := by
    intro hr
    exact ⟨hstay ss.sock (.inr (.inl rfl)) (by simp [hr]), h.sockNew⟩
  refine ⟨Finset.ssubset_iff_subset_ne.2 ⟨hsub, fun heq => ?_⟩, hends, hsock⟩
  have heq' : ss.before = (s.leave ss remote).fds := heq
  cases hpq : ss.signalPipe with
  | none =>
    obtain ⟨hin, hout⟩ := hsock (hpipe hpq)
    exact hout (heq' ▸ hin)
  | some ends =>
    obtain ⟨⟨hin, hout⟩, -⟩ := hends ends.1 ends.2 hpq
    exact hout (heq' ▸ hin)

/-- The invariant of the process. -/
structure Inv (s : SerialServer) : Prop where
  holds : ∀ ss, s.session = some ss → s.Holds ss
  leaks : ∀ r ∈ s.history, r.Leaks

/-- `dropbear_exit` in a session that keeps the invariant. -/
theorem Inv.leave (h : s.Inv) (hs : s.session = some ss) {remote : Bool}
    (hpipe : ss.signalPipe = none → remote = false) : (s.leave ss remote).Inv := by
  refine ⟨nofun, ?_⟩
  intro r hr
  rcases List.mem_append.1 hr with hold | hnew
  · exact h.leaks r hold
  · rw [List.mem_singleton.1 hnew]
    exact (h.holds ss hs).leave hpipe

/-- `accept` in an idle process. -/
theorem Inv.accept (h : s.Inv) {sock : ℕ} (hsock : sock ∉ s.fds) :
    Inv { s with fds := insert sock s.fds, session := some { before := s.fds, sock := sock } } := by
  refine ⟨?_, h.leaks⟩
  intro ss hss
  cases hss
  refine ⟨?_, ?_, hsock, nofun, fun _ => ⟨rfl, rfl⟩⟩
  · intro n hn
    rcases hn with hn | hn | ⟨p, q, hpq, -⟩
    · exact Finset.mem_insert_of_mem hn
    · exact Finset.mem_insert.2 (.inl hn)
    · cases hpq
  · intro n _ hrec
    simp [SessionFds.records] at hrec

/-- The signal pipe is made. -/
theorem Inv.signalPipe (h : s.Inv) (hs : s.session = some ss) (hnone : ss.signalPipe = none)
    {p q : ℕ} (hp : p ∉ s.fds) (hq : q ∉ s.fds) :
    Inv { s with
      fds := insert p (insert q s.fds)
      session := some { ss with signalPipe := some (p, q) } } := by
  have hold := h.holds ss hs
  have hsock : ss.sock ∈ s.fds := hold.opened ss.sock (.inr (.inl rfl))
  refine ⟨?_, h.leaks⟩
  intro ss' hss
  cases hss
  refine ⟨?_, ?_, hold.sockNew, ?_, nofun⟩
  · intro n hn
    rcases hn with hn | hn | ⟨p', q', hpq, hn⟩
    · exact Finset.mem_insert_of_mem (Finset.mem_insert_of_mem (hold.opened n (.inl hn)))
    · exact Finset.mem_insert_of_mem (Finset.mem_insert_of_mem (hold.opened n (.inr (.inl hn))))
    · cases hpq
      rcases hn with rfl | rfl
      · exact Finset.mem_insert_self _ _
      · exact Finset.mem_insert_of_mem (Finset.mem_insert_self _ _)
  · intro n _ hrec
    have hrec' : n ∈ ss.records := hrec
    simp [(hold.early hnone).2] at hrec'
  · intro p' q' hpq
    cases hpq
    exact ⟨fun hb => hp (hold.opened _ (.inl hb)), fun hb => hq (hold.opened _ (.inl hb)),
      fun heq => hp (heq ▸ hsock), fun heq => hq (heq ▸ hsock)⟩

/-- The events of an initialised session. -/
theorem Inv.perform (h : s.Inv) (hs : s.session = some ss) (hinit : ss.initDone = true)
    {eff : FdEffect} (hc : ss.Contained eff) (hnew : ∀ n ∈ eff.opened, n ∉ s.fds) :
    Inv { s with
      fds := (s.fds ∪ eff.opened.toFinset) \ eff.closed.toFinset
      session := some eff.session } := by
  refine ⟨?_, h.leaks⟩
  intro ss' hss
  cases hss
  exact (h.holds ss hs).perform hc hinit hnew s.history

/-- Every step keeps the invariant. -/
theorem Inv.step {e : FdEvent} (h : s.Inv) (hst : s.step e = some s') : s'.Inv := by
  obtain ⟨sock, -, hsock, rfl⟩ | ⟨ss, hs, ⟨remote, hpipe, rfl⟩ | ⟨p, q, hnone, hp, hq, rfl⟩ |
    ⟨hsome, rfl⟩ | ⟨eff, hinit, hc, hnew, rfl⟩⟩ := step_cases hst
  · exact h.accept hsock
  · exact h.leave hs hpipe
  · exact h.signalPipe hs hnone hp hq
  · have hold := h.holds ss hs
    refine ⟨?_, h.leaks⟩
    intro ss' hss
    cases hss
    exact ⟨hold.opened, hold.unrecorded, hold.sockNew, hold.pipeNew,
      fun hnone => absurd hnone hsome⟩
  · exact h.perform hs hinit hc hnew

/-- The descriptors that are open while no session runs: those of an idle process, or those from
before the session. -/
def base (s : SerialServer) : Finset ℕ := (s.session.map SessionFds.before).getD s.fds

/-- A step makes the base larger by at least the sessions that end in it. -/
theorem Inv.base_card {e : FdEvent} (h : s.Inv) (hst : s.step e = some s') :
    s.base.card + s'.history.length ≤ s'.base.card + s.history.length := by
  obtain ⟨sock, hidle, -, rfl⟩ | ⟨ss, hs, ⟨remote, hpipe, rfl⟩ | ⟨p, q, -, -, -, rfl⟩ |
    ⟨-, rfl⟩ | ⟨eff, -, hc, -, rfl⟩⟩ := step_cases hst
  · simp [base, hidle]
  · have hlt : ss.before.card < (s.leave ss remote).fds.card :=
      Finset.card_lt_card ((h.holds ss hs).leave hpipe).before
    have hbase : s.base = ss.before := by simp [base, hs]
    have hidle : (s.leave ss remote).base = (s.leave ss remote).fds := rfl
    have hlen : (s.leave ss remote).history.length = s.history.length + 1 := List.length_append
    rw [hbase, hidle, hlen]
    omega
  · simp [base, hs]
  · simp [base, hs]
  · simp [base, hs, hc.before]

end SerialServer

/-- **No session is balanced**: whatever it does and however it ends, more descriptors are open
when control returns to the accept loop than before `accept`.  Both ends of the signal pipe stay
open, and the socket does unless the peer's close has been seen. -/
theorem serial_never_balanced (fds : Finset ℕ) (ls : List FdEvent) (t : SerialServer)
    (h : serialServer.exec { fds := fds } ls = some t) :
    ∀ r ∈ t.history, ¬ r.Balanced ∧ r.Leaks := by
  have hinit : SerialServer.Inv { fds := fds } := ⟨nofun, nofun⟩
  have hinv : t.Inv := LTS.exec_invariant' hinit (fun _ _ _ h hst => h.step hst) h
  intro r hr
  have hleaks := hinv.leaks r hr
  exact ⟨fun hbal => hleaks.before.ne hbal.symm, hleaks⟩

/-- **Every session costs the process a descriptor**: after `k` sessions at least `k` more are
open, until `accept` or `pipe` fails. -/
theorem serial_leaks (fds : Finset ℕ) (ls : List FdEvent) (t : SerialServer)
    (h : serialServer.exec { fds := fds } ls = some t) :
    fds.card + t.history.length ≤ t.base.card := by
  have hinv : t.Inv ∧ fds.card + t.history.length ≤ t.base.card := by
    refine LTS.exec_invariant' (I := fun s => s.Inv ∧ fds.card + s.history.length ≤ s.base.card)
      ⟨⟨nofun, nofun⟩, Nat.le_refl _⟩ (fun s e s' hs hst => ⟨hs.1.step hst, ?_⟩) h
    have hstep := hs.1.base_card hst
    omega
  exact hinv.2

/-- A session with a shell channel that ends when the peer closes the connection. -/
def shellSession : List FdEvent :=
  [.accept 4, .signalPipe (some (5, 6)), .initDone, .startWorker 7 8, .workerDone 0,
    .closeChanFd 0 true, .closeChanFd 0 false, .removeChannel 0, .exit true]

theorem serial_never_balanced_shell :
    ∃ t, serialServer.exec { fds := {0, 1, 2, 3} } shellSession = some t ∧
      ∃ r ∈ t.history, ¬ r.Balanced ∧ r.Leaks := by
  refine ⟨_, rfl, _, List.mem_cons_self, ?_⟩
  exact serial_never_balanced {0, 1, 2, 3} shellSession _ rfl _ List.mem_cons_self

/-- The listening socket is descriptor 3.  The session has taken 4 for its socket and 5 and 6 for
the signal pipe, and leaves the pipe behind. -/
theorem shell_session_unbalanced :
    ∃ t, serialServer.exec { fds := {0, 1, 2, 3} } shellSession = some t ∧
      ∃ r ∈ t.history, r.before = {0, 1, 2, 3} ∧ r.after = {0, 1, 2, 3, 5, 6} ∧ ¬ r.Balanced := by
  refine ⟨_, rfl, _, List.mem_cons_self, rfl, ?_, ?_⟩
  · decide
  · unfold SessionRecord.Balanced
    decide

end Ps4Dropbear
