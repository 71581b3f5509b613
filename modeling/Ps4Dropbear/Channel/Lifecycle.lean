import Ps4Dropbear.Channel.Requests

/-!
# The life of a channel

A channel from its opening to its removal, as a transition system: the peer's messages, the
descriptors that become ready, a connection that completes, key exchanges, and the worker thread
of a session channel.

The main thread stops wherever another thread may change what it looks at next: between a request
and its reply, and between the three parts of `check_close`.  Worker steps come anywhere.  The
worker stores the fields of its exit status one by one, then `PS4_BACKEND_DONE`.

A worker may write and finish as it likes.  Its socket and the pipe of `ps4_builtin_command` keep
order and lose nothing, and end of file comes behind the last byte.  Messages that are sent while
a key exchange runs are queued in order and go out at its end.

* `ChannelLife`, `LifeEvent`, `channelLife` : the transition system.
-/

namespace Ps4Dropbear

/-- Where the main thread is, as far as the channel goes. -/
inductive MainAt
  /-- In no function for the channel. -/
  | poll
  /-- In `chansessionrequest`, behind the handler of the request. -/
  | replying (wantreply ret : Bool)
  /-- In front of `check_close`. -/
  | checking
  /-- In `check_close`, behind the type's check. -/
  | flushing (closeAllowed : Bool)
  /-- In `check_close`, behind the poll of `readfd`. -/
  | closing (closeAllowed : Bool)
  deriving DecidableEq, Repr

/-- Where the worker thread is. -/
inductive WorkerAt
  | absent
  | loop
  /-- The loop has been left with this status. -/
  | leaving (status : ℤ)
  /-- `exitpid` has been stored. -/
  | exitpid (status : ℤ)
  | exitstatus
  | exitsignal
  | exitcore
  /-- `PS4_BACKEND_DONE` has been stored. -/
  | done
  /-- `ps4_backend_fd` has been exchanged. -/
  | finished
  deriving DecidableEq, Repr

/-- A channel with its worker. -/
structure ChannelLife where
  chan : Channel
  main : MainAt := .poll
  worker : WorkerAt := .absent
  /-- All that the command has written. -/
  written : Bytes := []
  /-- The part of it that the main thread has not read. -/
  unread : Bytes := []
  /-- Nothing can be written any more, and end of file follows `unread`. -/
  ended : Bool := false
  /-- The command requests that have succeeded. -/
  commands : ℕ := 0
  /-- The status with which the command has ended. -/
  result : Option ℤ := none
  /-- The stores to `ps4_backend_state`. -/
  stores : List BackendStore := []
  /-- An assertion of `send_msg_channel_data` has failed. -/
  aborted : Bool := false
  /-- `ses.dataallowed`: no key exchange is running. -/
  dataallowed : Bool := true
  /-- The messages of the channel that are on their way; the reply queue holds the others. -/
  wire : List ChanMsg
  deriving DecidableEq

/-- What can happen. -/
inductive LifeEvent
  /-- CHANNEL_EOF. -/
  | recvEof
  /-- CHANNEL_CLOSE. -/
  | recvClose
  /-- CHANNEL_REQUEST, with this payload behind the channel number. -/
  | recvRequest (payload : Buffer) (env : LaunchEnv)
  /-- CHANNEL_DATA with `len` bytes, and what becomes of writing them. -/
  | recvData (len : ℕ) (w : ChanWrite)
  /-- CHANNEL_WINDOW_ADJUST. -/
  | recvWindowAdjust (incr : ℕ)
  /-- `channelio` finds `readfd` ready. -/
  | readable (r : ChanRead)
  /-- `channelio` finds `writefd` ready. -/
  | writable (w : ChanWrite)
  /-- `channelio` finds `ses.channel_signal_pending` set. -/
  | signalPending
  /-- The connection of the channel stands, or has failed. -/
  | connectDone (sock : Option ℕ)
  /-- The end of `chansessionrequest`. -/
  | reply
  /-- The first part of `check_close`. -/
  | check
  /-- The second part. -/
  | flush
  /-- The third part. -/
  | closeUp
  /-- KEXINIT. -/
  | kexStart
  /-- NEWKEYS, and `maybe_flush_reply_queue`. -/
  | kexEnd
  /-- The worker writes. -/
  | workerWrite (bytes : Bytes)
  /-- The worker leaves its loop. -/
  | workerLeave (status : ℤ)
  /-- The worker stores the next field of its exit status. -/
  | workerStore
  /-- The worker stores `PS4_BACKEND_DONE`. -/
  | workerDone
  /-- The worker exchanges `ps4_backend_fd`, and closes the descriptor if it was still there. -/
  | workerClose

namespace ChannelLife

variable (R : Restriction) (recvWindow : ℕ)

/-- The main thread may start something for the channel. -/
def polling (s : ChannelLife) : Bool := s.chan.present && !s.aborted && s.main == .poll

/-- A `read` of `readfd` may return this.  A session's descriptor is the output of its command, and
blocks until there is some. -/
def mayRead (s : ChannelLife) : ChanRead → Bool
  | .data bytes =>
    decide (bytes ≠ [] ∧ bytes.length ≤ s.chan.maxlen) &&
      (s.chan.type != .session || bytes.isPrefixOf s.unread)
  | .eof | .error => s.chan.type != .session || (s.unread == [] && s.ended)
  | .interrupted => true

/-- `fd_read_pending(readfd)`. -/
def pending (s : ChannelLife) : Bool := s.unread != [] || s.ended

/-- The bytes that a `read` takes. -/
def taken : ChanRead → ℕ
  | .data bytes => bytes.length
  | _ => 0

/-- `send_msg_channel_data` from `channelio`. -/
def readable (s : ChannelLife) (r : ChanRead) : ChannelLife :=
  match s.chan.sendMsgChannelData r with
  | none => { s with aborted := true }
  | some c =>
    { s with
      chan := c, main := .checking
      unread := if s.chan.maxlen = 0 then s.unread else s.unread.drop (taken r) }

/-- The output of `ps4_builtin_command`: what `ps4_format_command` made of the command line. -/
def execOutput (env : LaunchEnv) (cs cs' : ChanSess) : Bytes :=
  (ps4FormatCommand env.kernel cs.shell cs'.cmdline 4096).output

/-- The channel behind the handler of a session request, which has changed `cs` to `cs'`. -/
def handled (s : ChannelLife) (env : LaunchEnv) (cs cs' : ChanSess) : ChannelLife :=
  let s := { s with chan := s.chan.withSession cs' }
  if cs'.backendState = cs.backendState then s
  else if cs'.backendState = .execReady then
    -- the pipe has been filled, and its other end closed
    { s with
      written := execOutput env cs cs', unread := execOutput env cs cs', ended := true
      result := some cs'.exit.exitstatus }
  else { s with worker := .loop, written := [], unread := [], ended := false }

/-- `recv_msg_channel_request` up to the reply. -/
def recvRequest (s : ChannelLife) (payload : Buffer) (env : LaunchEnv) : Option ChannelLife :=
  if s.chan.type = .session then do
    let (type, buf) ← (bufGetstring payload).toOption
    let (wantreply, buf) ← (bufGetbool buf).toOption
    if type.length > maxNameLen then return { s with main := .replying wantreply false }
    else
      let cs := s.chan.session
      let (ret, cs') ← (dispatchRequest R env cs type buf).toOption
      return { s.handled env cs cs' with
        main := .replying wantreply ret
        stores := s.stores ++ requestStores R env cs type buf
        commands := if ret && isCommandRequest type then s.commands + 1 else s.commands }
  else do
    let buf ← (bufEatstring payload).toOption
    let (wantreply, _) ← (bufGetbool buf).toOption
    return { s with main := .replying wantreply false }

/-- The end of `chansessionrequest`: the reply, and the compare-exchange of the state. -/
def reply (s : ChannelLife) (wantreply ret : Bool) : ChannelLife :=
  { s with
    chan := { s.chan.sendReply wantreply ret with
      chansess := s.chan.chansess.answer wantreply ret }
    main := .poll
    stores := if ret && s.chan.chansess.backendState == .execReady then s.stores ++ [.done]
      else s.stores }

/-- The first part of `check_close`.  Taking the worker's end away shuts it down. -/
def check (s : ChannelLife) : ChannelLife :=
  { s with
    chan := s.chan.checked.2, main := .flushing s.chan.checked.1
    ended := s.ended || decide (0 ≤ s.chan.checked.2.chansess.cancelFd) }

/-- The exit status is stored field by field. -/
def workerStore (s : ChannelLife) : Option ChannelLife :=
  let cs := s.chan.chansess
  match s.worker with
  | .leaving status => some { s with
      worker := .exitpid status
      chan := { s.chan with chansess := { cs with exit := { cs.exit with exitpid := 0 } } } }
  | .exitpid status => some { s with
      worker := .exitstatus
      chan := { s.chan with chansess := { cs with exit := { cs.exit with exitstatus := status } } } }
  | .exitstatus => some { s with
      worker := .exitsignal
      chan := { s.chan with chansess := { cs with exit := { cs.exit with exitsignal := -1 } } } }
  | .exitsignal => some { s with
      worker := .exitcore
      chan := { s.chan with chansess := { cs with exit := { cs.exit with exitcore := 0 } } } }
  | _ => none

/-- The worker's last exchange. -/
def workerClose (s : ChannelLife) : ChannelLife :=
  { s with
    worker := .finished
    ended := s.ended || decide (0 ≤ s.chan.chansess.backendFd)
    chan := { s.chan with chansess := { s.chan.chansess with backendFd := -1 } } }

/-- What a step does, before messages are put on their way. -/
def perform (s : ChannelLife) : LifeEvent → Option ChannelLife
  | .recvEof =>
    if s.polling then some { s with chan := { s.chan with recvEof := true }, main := .checking }
    else none
  | .recvClose =>
    if s.polling then
      some { s with chan := { s.chan with recvEof := true, recvClose := true }, main := .checking }
    else none
  | .recvRequest payload env =>
    if s.polling ∧ env.fresh then s.recvRequest R payload env else none
  | .recvData len w =>
    if s.polling then
      (s.chan.commonRecvMsgChannelData recvWindow len w).map fun c => { s with chan := c }
    else none
  | .recvWindowAdjust incr =>
    if s.polling then some { s with chan := s.chan.recvMsgChannelWindowAdjust incr } else none
  | .readable r =>
    if s.polling ∧ 0 ≤ s.chan.readfd ∧ s.mayRead r then some (s.readable r) else none
  | .writable w =>
    -- in one call of channelio a write may follow a read
    if s.chan.present ∧ !s.aborted ∧ (s.main = .poll ∨ s.main = .checking) ∧ s.chan.writePending then
      (s.chan.writechannel recvWindow 0 w).map fun c => { s with chan := c, main := .checking }
    else none
  | .signalPending => if s.polling then some { s with main := .checking } else none
  | .connectDone sock =>
    if s.polling ∧ s.chan.connPending then some { s with chan := s.chan.channelConnectDone sock }
    else none
  | .reply =>
    match s.main with
    | .replying wantreply ret => some (s.reply wantreply ret)
    | _ => none
  | .check => if s.main = .checking then some s.check else none
  | .flush =>
    match s.main with
    | .flushing allowed =>
      some { s with chan := s.chan.flush s.pending, main := .closing allowed }
    | _ => none
  | .closeUp =>
    match s.main with
    | .closing allowed => some { s with chan := s.chan.closeUp allowed, main := .poll }
    | _ => none
  | .kexStart => if s.polling then some { s with dataallowed := false } else none
  | .kexEnd => if s.polling then some { s with dataallowed := true } else none
  | .workerWrite bytes =>
    if s.worker = .loop then
      some (if s.ended ∨ !s.chan.present then s
        else { s with written := s.written ++ bytes, unread := s.unread ++ bytes })
    else none
  | .workerLeave status =>
    if s.worker = .loop then some { s with worker := .leaving status, result := some status }
    else none
  | .workerStore => s.workerStore
  | .workerDone =>
    if s.worker = .exitcore then
      some { s with
        worker := .done
        stores := s.stores ++ [.done]
        chan := { s.chan with chansess := { s.chan.chansess with backendState := .done } } }
    else none
  | .workerClose => if s.worker = .done then some s.workerClose else none

/-- `encrypt_packet` puts messages on their way unless a key exchange is running. -/
def transmit (s : ChannelLife) : ChannelLife :=
  if s.dataallowed then { s with wire := s.chan.sent } else s

/-- A channel that has just been opened. -/
def opened (type : ChanType) (transwindow transmaxpacket : ℕ) : ChannelLife :=
  let c := Channel.opened recvWindow type transwindow transmaxpacket
  { chan := c, wire := c.sent }

end ChannelLife

/-- A channel with its worker, in a session under the restriction `R` and with receive windows of
`recvWindow` bytes. -/
def channelLife (R : Restriction) (recvWindow : ℕ) : LTS ChannelLife LifeEvent where
  step s e := (s.perform R recvWindow e).map ChannelLife.transmit

namespace ChannelLife

variable {R : Restriction} {recvWindow : ℕ} {s t : ChannelLife}

theorem channelLife_step {e : LifeEvent} : (channelLife R recvWindow).step s e = some t ↔
    ∃ u, s.perform R recvWindow e = some u ∧ u.transmit = t := by
  simp [channelLife]

/-- Putting messages on their way changes only `wire`. -/
theorem transmit_eq (s : ChannelLife) : ∃ wire, s.transmit = { s with wire := wire } := by
  unfold transmit
  split_ifs
  · exact ⟨_, rfl⟩
  · exact ⟨_, rfl⟩

variable {env : LaunchEnv} {cs cs' : ChanSess}

theorem handled_unstarted (h : Unstarted cs cs') :
    s.handled env cs cs' = { s with chan := s.chan.withSession cs' } := by
  unfold handled
  dsimp only
  rw [if_pos h.state]

theorem handled_executed (h : Executed env cs cs') : s.handled env cs cs' = { s with
    chan := s.chan.withSession cs'
    written := execOutput env cs cs', unread := execOutput env cs cs', ended := true
    result := some cs'.exit.exitstatus } := by
  unfold handled
  dsimp only
  rw [if_neg (by rw [h.state, h.idle]; decide), if_pos h.state]

theorem handled_forked (h : Forked env cs cs') : s.handled env cs cs' = { s with
    chan := s.chan.withSession cs'
    worker := .loop, written := [], unread := [], ended := false } := by
  unfold handled
  dsimp only
  rw [if_neg (by rw [h.state, h.idle]; decide), if_neg (by rw [h.state]; decide)]

/-- A request is refused at once, or its handler has one of the three outcomes. -/
theorem recvRequest_cases {payload : Buffer}
    (h : s.recvRequest R payload env = some t) :
    (∃ wantreply, t = { s with main := .replying wantreply false }) ∨
      s.chan.type = .session ∧ ∃ wantreply ret started stores cs',
        (started = true → ret = true) ∧ Outcome env s.chan.session cs' started stores ∧
        t = { s.handled env s.chan.session cs' with
          main := .replying wantreply ret
          stores := s.stores ++ stores
          commands := if started then s.commands + 1 else s.commands } := by
  unfold recvRequest at h
  split_ifs at h with htype
  · simp only [Option.bind_eq_bind, Option.bind_eq_some_iff, Prod.exists] at h
    obtain ⟨type, buf, -, wantreply, buf', -, h⟩ := h
    split_ifs at h with hlen
    · cases h
      exact .inl ⟨wantreply, rfl⟩
    · simp only [Option.bind_eq_some_iff, Prod.exists] at h
      obtain ⟨ret, cs', hdisp, h⟩ := h
      cases h
      have hok : dispatchRequest R env s.chan.session type buf' = .ok (ret, cs') := by
        cases hd : dispatchRequest R env s.chan.session type buf' with
        | error e => simp [hd, Except.toOption] at hdisp
        | ok r =>
          rw [hd] at hdisp
          cases hdisp
          rfl
      exact .inr ⟨htype, wantreply, ret, _, _, cs', fun hs => (Bool.and_eq_true_iff.1 hs).1,
        dispatchRequest_outcome hok, rfl⟩
  · simp only [Option.bind_eq_bind, Option.bind_eq_some_iff, Prod.exists] at h
    obtain ⟨buf, -, wantreply, buf', -, h⟩ := h
    cases h
    exact .inl ⟨wantreply, rfl⟩

/-- What a step can do, one case for each way through the code. -/
inductive Performs (R : Restriction) (s : ChannelLife) : LifeEvent → ChannelLife → Prop
  | recvEof (hmain : s.main = .poll) : Performs R s .recvEof
      { s with chan := { s.chan with recvEof := true }, main := .checking }
  | recvClose (hmain : s.main = .poll) : Performs R s .recvClose
      { s with chan := { s.chan with recvEof := true, recvClose := true }, main := .checking }
  | recvRequest {payload : Buffer} {env : LaunchEnv} {t : ChannelLife} (hmain : s.main = .poll)
      (hfresh : env.fresh = true) (h : s.recvRequest R payload env = some t) :
      Performs R s (.recvRequest payload env) t
  | recvData {len : ℕ} {w : ChanWrite} {c : Channel} (hmain : s.main = .poll)
      (h : s.chan.Relays c) : Performs R s (.recvData len w) { s with chan := c }
  | recvWindowAdjust {incr : ℕ} (hmain : s.main = .poll) : Performs R s (.recvWindowAdjust incr)
      { s with chan := s.chan.recvMsgChannelWindowAdjust incr }
  | abort {r : ChanRead} (hmain : s.main = .poll) (hfd : 0 ≤ s.chan.readfd)
      (h : s.chan.sendMsgChannelData r = none) : Performs R s (.readable r)
      { s with aborted := true }
  | readNothing {r : ChanRead} (hmain : s.main = .poll) :
      Performs R s (.readable r) { s with main := .checking }
  | readEnd {r : ChanRead} (hmain : s.main = .poll) (hfd : 0 ≤ s.chan.readfd)
      (hend : s.chan.type = .session → s.unread = [] ∧ s.ended = true) :
      Performs R s (.readable r)
        { s with chan := s.chan.closeChanFd s.chan.readfd .rd, main := .checking }
  | readData {bytes : Bytes} (hmain : s.main = .poll) (hfd : 0 ≤ s.chan.readfd)
      (hopen : s.chan.sentClose = false) (hbytes : s.chan.type = .session → bytes <+: s.unread) :
      Performs R s (.readable (.data bytes)) { s with
        chan := { s.chan with
          transwindow := s.chan.transwindow - bytes.length
          sent := s.chan.sent ++ [.data bytes] }
        main := .checking, unread := s.unread.drop bytes.length }
  | writable {w : ChanWrite} {c : Channel} (h : s.chan.Relays c) :
      Performs R s (.writable w) { s with chan := c, main := .checking }
  | signalPending (hmain : s.main = .poll) : Performs R s .signalPending
      { s with main := .checking }
  | connectDone {sock : Option ℕ} (hmain : s.main = .poll) (hpending : s.chan.connPending = true) :
      Performs R s (.connectDone sock) { s with chan := s.chan.channelConnectDone sock }
  | reply {wantreply ret : Bool} (hmain : s.main = .replying wantreply ret) :
      Performs R s .reply (s.reply wantreply ret)
  | check (hmain : s.main = .checking) : Performs R s .check s.check
  | flush {allowed : Bool} (hmain : s.main = .flushing allowed) : Performs R s .flush
      { s with chan := s.chan.flush s.pending, main := .closing allowed }
  | closeUp {allowed : Bool} (hmain : s.main = .closing allowed) : Performs R s .closeUp
      { s with chan := s.chan.closeUp allowed, main := .poll }
  | kexStart (hmain : s.main = .poll) : Performs R s .kexStart { s with dataallowed := false }
  | kexEnd (hmain : s.main = .poll) : Performs R s .kexEnd { s with dataallowed := true }
  | workerWriteFails {bytes : Bytes} : Performs R s (.workerWrite bytes) s
  | workerWrite {bytes : Bytes} (hworker : s.worker = .loop) (hopen : s.ended = false) :
      Performs R s (.workerWrite bytes)
        { s with written := s.written ++ bytes, unread := s.unread ++ bytes }
  | workerLeave {status : ℤ} (hworker : s.worker = .loop) : Performs R s (.workerLeave status)
      { s with worker := .leaving status, result := some status }
  | workerStore {t : ChannelLife} (h : s.workerStore = some t) : Performs R s .workerStore t
  | workerDone (hworker : s.worker = .exitcore) : Performs R s .workerDone { s with
      worker := .done
      stores := s.stores ++ [.done]
      chan := { s.chan with chansess := { s.chan.chansess with backendState := .done } } }
  | workerClose (hworker : s.worker = .done) : Performs R s .workerClose s.workerClose

theorem main_of_polling (h : s.polling = true) : s.main = .poll := by
  simpa using (Bool.and_eq_true_iff.1 h).2

theorem readable_performs {r : ChanRead} (hmain : s.main = .poll) (hfd : 0 ≤ s.chan.readfd)
    (hmay : s.mayRead r = true) : Performs R s (.readable r) (s.readable r) := by
  unfold readable
  cases hdata : s.chan.sendMsgChannelData r with
  | none => exact .abort hmain hfd hdata
  | some c =>
    obtain ⟨hopen, ⟨rfl, hnothing⟩ | ⟨hend, rfl⟩ | ⟨bytes, rfl, hmax, rfl⟩⟩ :=
      Channel.sendMsgChannelData_cases hdata
    · have hsame : (if s.chan.maxlen = 0 then s.unread else s.unread.drop (taken r)) =
          s.unread := by
        rcases hnothing with hmax | rfl
        · rw [if_pos hmax]
        · simp [taken]
      dsimp only
      rw [hsame]
      exact .readNothing hmain
    · have hsame : (if s.chan.maxlen = 0 then s.unread else s.unread.drop (taken r)) =
          s.unread := by
        rcases hend with rfl | rfl <;> simp [taken]
      have hover : s.chan.type = .session → s.unread = [] ∧ s.ended = true := by
        intro htype
        rcases hend with rfl | rfl <;> simpa [mayRead, htype] using hmay
      dsimp only
      rw [hsame]
      exact .readEnd hmain hfd hover
    · dsimp only
      rw [if_neg hmax]
      refine .readData hmain hfd hopen fun htype => ?_
      simp only [mayRead, htype, bne_self_eq_false, Bool.false_or, Bool.and_eq_true,
        List.isPrefixOf_iff_prefix] at hmay
      exact hmay.2

/-- **Inversion**: a step is one of the cases. -/
theorem perform_cases {e : LifeEvent} (h : s.perform R recvWindow e = some t) :
    Performs R s e t := by
  cases e with
  | recvEof =>
    simp only [perform, Option.ite_none_right_eq_some, Option.some.injEq] at h
    exact h.2 ▸ .recvEof (main_of_polling h.1)
  | recvClose =>
    simp only [perform, Option.ite_none_right_eq_some, Option.some.injEq] at h
    exact h.2 ▸ .recvClose (main_of_polling h.1)
  | recvRequest payload env =>
    simp only [perform, Option.ite_none_right_eq_some] at h
    exact .recvRequest (main_of_polling h.1.1) h.1.2 h.2
  | recvData len w =>
    simp only [perform, Option.ite_none_right_eq_some, Option.map_eq_some_iff] at h
    obtain ⟨hp, c, hdata, rfl⟩ := h
    exact .recvData (main_of_polling hp) (Channel.commonRecvMsgChannelData_relays hdata)
  | recvWindowAdjust incr =>
    simp only [perform, Option.ite_none_right_eq_some, Option.some.injEq] at h
    exact h.2 ▸ .recvWindowAdjust (main_of_polling h.1)
  | readable r =>
    simp only [perform, Option.ite_none_right_eq_some, Option.some.injEq] at h
    obtain ⟨⟨hp, hfd, hmay⟩, rfl⟩ := h
    exact readable_performs (main_of_polling hp) hfd hmay
  | writable w =>
    simp only [perform, Option.ite_none_right_eq_some, Option.map_eq_some_iff] at h
    obtain ⟨⟨-, -, -, hpending⟩, c, hwrite, rfl⟩ := h
    exact .writable
      (Channel.writechannel_relays hwrite (Channel.writefd_of_writePending hpending))
  | signalPending =>
    simp only [perform, Option.ite_none_right_eq_some, Option.some.injEq] at h
    exact h.2 ▸ .signalPending (main_of_polling h.1)
  | connectDone sock =>
    simp only [perform, Option.ite_none_right_eq_some, Option.some.injEq] at h
    exact h.2 ▸ .connectDone (main_of_polling h.1.1) h.1.2
  | reply =>
    simp only [perform] at h
    cases hmain : s.main <;> rw [hmain] at h <;> cases h
    exact .reply hmain
  | check =>
    simp only [perform, Option.ite_none_right_eq_some, Option.some.injEq] at h
    exact h.2 ▸ .check h.1
  | flush =>
    simp only [perform] at h
    cases hmain : s.main <;> rw [hmain] at h <;> cases h
    exact .flush hmain
  | closeUp =>
    simp only [perform] at h
    cases hmain : s.main <;> rw [hmain] at h <;> cases h
    exact .closeUp hmain
  | kexStart =>
    simp only [perform, Option.ite_none_right_eq_some, Option.some.injEq] at h
    exact h.2 ▸ .kexStart (main_of_polling h.1)
  | kexEnd =>
    simp only [perform, Option.ite_none_right_eq_some, Option.some.injEq] at h
    exact h.2 ▸ .kexEnd (main_of_polling h.1)
  | workerWrite bytes =>
    simp only [perform, Option.ite_none_right_eq_some, Option.some.injEq] at h
    obtain ⟨hw, rfl⟩ := h
    split_ifs with hfails
    · exact .workerWriteFails
    · exact .workerWrite hw (by simpa using fun he => hfails (.inl he))
  | workerLeave status =>
    simp only [perform, Option.ite_none_right_eq_some, Option.some.injEq] at h
    exact h.2 ▸ .workerLeave h.1
  | workerStore => exact .workerStore h
  | workerDone =>
    simp only [perform, Option.ite_none_right_eq_some, Option.some.injEq] at h
    exact h.2 ▸ .workerDone h.1
  | workerClose =>
    simp only [perform, Option.ite_none_right_eq_some, Option.some.injEq] at h
    exact h.2 ▸ .workerClose h.1

end ChannelLife

end Ps4Dropbear
