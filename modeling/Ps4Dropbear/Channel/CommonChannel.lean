import Ps4Dropbear.Channel.Chansession

/-!
# Channels

`common-channel.c`: the record of a channel, what its descriptors go through, and how it is
closed.  A channel keeps two records of what has been done for it, the messages handed to
`encrypt_packet` and the system calls made on its descriptors.

`extrabuf` is never set in the server, so `errfd` is a descriptor to read from; the PS4 build
never opens it.

The outcomes of system calls are arguments.  `check_close` is cut where it looks at something
that another thread may change: the type's own check, the poll of `readfd`, the rest.

* `Channel.closeChanFd`, `Channel.sendMsgChannelClose`, `Channel.removeChannel` : how descriptors
  are given up.
* `Channel.checked`, `Channel.flush`, `Channel.closeUp` : the three parts of `check_close`.
* `Channel.sendMsgChannelData`, `Channel.commonRecvMsgChannelData` : data in both directions.
-/

namespace Ps4Dropbear

/-- `FD_UNINIT`. -/
def fdUninit : ℤ := -2

/-- `FD_CLOSED`. -/
def fdClosed : ℤ := -1

/-- The types of channels. -/
inductive ChanType
  /-- `svrchansess`; the only type with handlers beside `inithandler`. -/
  | session
  /-- `svr_chan_tcpdirect`. -/
  | directTcpip
  /-- `svr_chan_streamlocal`. -/
  | directStreamlocal
  /-- The types of the channels that the server opens. -/
  | forwarded
  deriving DecidableEq, Repr

/-- The second argument of `shutdown`. -/
inductive How
  | rd
  | wr
  | rdwr
  deriving DecidableEq, Repr

/-- The system calls that give a descriptor up. -/
inductive FdCall
  | shutdown (fd : ℤ) (how : How)
  | close (fd : ℕ)
  deriving DecidableEq

/-- The messages that the server sends for a channel. -/
inductive ChanMsg
  | openConfirmation
  | openFailure
  | success
  | failure
  | windowAdjust (incr : ℕ)
  | data (bytes : Bytes)
  | eof
  | exitStatus (status : ℤ)
  | exitSignal (signal : ℤ)
  | close
  deriving DecidableEq

/-- `struct Channel`, with the `struct ChanSess` of a session channel. -/
structure Channel where
  type : ChanType
  /-- The channel is in `ses.channels`. -/
  present : Bool := true
  sentClose : Bool := false
  recvClose : Bool := false
  sentEof : Bool := false
  recvEof : Bool := false
  transwindow : ℕ := 0
  transmaxpacket : ℕ := 0
  writefd : ℤ := fdUninit
  readfd : ℤ := fdUninit
  errfd : ℤ := fdClosed
  bidirFd : Bool := false
  flushing : Bool := false
  /-- `conn_pending` is not `NULL`. -/
  connPending : Bool := false
  /-- The bytes in `writebuf`. -/
  writebuf : ℕ := 0
  recvwindow : ℕ := 0
  recvdonelen : ℕ := 0
  /-- `typedata`. -/
  chansess : ChanSess := newchansess
  /-- The messages sent for the channel. -/
  sent : List ChanMsg := []
  /-- The calls made on its descriptors. -/
  calls : List FdCall := []
  deriving DecidableEq

/-- The calls of `m_close`. -/
def mClose (fd : ℤ) : List FdCall := if fd < 0 then [] else [.close fd.toNat]

/-- What a `read` returns. -/
inductive ChanRead
  | data (bytes : Bytes)
  | eof
  /-- Every error but `EINTR`. -/
  | error
  | interrupted
  deriving DecidableEq

/-- What a `writev` returns. -/
inductive ChanWrite
  | wrote (len : ℕ)
  /-- `EAGAIN` or `EINTR`. -/
  | again
  | error
  deriving DecidableEq, Repr

namespace Channel

/-! ### Descriptors -/

/-- The first half of `close_chan_fd`: a shared descriptor is shut down in one direction, another one
is closed, and the references to it are given up. -/
def endDirection (c : Channel) (fd : ℤ) (how : How) : Channel :=
  let closeout := !c.bidirFd || how == .rd
  let closein := !c.bidirFd || how != .rd
  { c with
    calls := c.calls ++ (if c.bidirFd then [.shutdown fd how] else mClose fd)
    readfd := if closeout && fd == c.readfd then fdClosed else c.readfd
    errfd := if closeout && fd == c.errfd then fdClosed else c.errfd
    writefd := if closein && fd == c.writefd then fdClosed else c.writefd }

/-- `close_chan_fd`.  A shared descriptor is closed with its last reference. -/
def closeChanFd (c : Channel) (fd : ℤ) (how : How) : Channel :=
  let c := c.endDirection fd how
  if c.bidirFd ∧ c.readfd = fdClosed ∧ c.writefd = fdClosed ∧ c.errfd = fdClosed then
    { c with calls := c.calls ++ mClose fd }
  else c

/-- `remove_channel`, up to the handler of the type. -/
def removeChannel (c : Channel) : Channel :=
  { c with
    present := false, connPending := false
    calls := c.calls ++ mClose c.writefd ++ mClose c.readfd ++ mClose c.errfd }

/-- `write_pending`. -/
def writePending (c : Channel) : Bool := 0 ≤ c.writefd && 0 < c.writebuf

/-! ### Closing -/

/-- `closechansess`: the exit status or the signal, once the command has ended. -/
def exitMessages (c : Channel) : List ChanMsg :=
  if c.type = .session ∧ 0 ≤ c.chansess.exit.exitpid then
    if 0 < c.chansess.exit.exitsignal then [.exitSignal c.chansess.exit.exitsignal]
    else [.exitStatus c.chansess.exit.exitstatus]
  else []

/-- `send_msg_channel_eof`. -/
def sendMsgChannelEof (c : Channel) : Channel :=
  { c with sent := c.sent ++ [.eof], sentEof := true }

/-- `close_chan_fd` for all three descriptors. -/
def closeAll (c : Channel) : Channel :=
  let c := c.closeChanFd c.readfd .rd
  let c := c.closeChanFd c.errfd .rdwr
  c.closeChanFd c.writefd .wr

/-- `send_msg_channel_close`. -/
def sendMsgChannelClose (c : Channel) : Channel :=
  let c : Channel := { c with
    sent := c.sent ++ (c.exitMessages ++ [.close])
    sentEof := true, sentClose := true }
  c.closeAll

/-- The worker's end of the socket is taken away from a running worker, once the peer has closed. -/
def cancelBackend (c : Channel) : Channel :=
  if c.chansess.backendState = .running ∧ c.recvClose ∧ 0 ≤ c.chansess.backendFd then
    { c with chansess := { c.chansess with backendFd := -1, cancelFd := c.chansess.backendFd } }
  else c

/-- `sesscheckclose`. -/
def sesscheckclose (c : Channel) : Bool × Channel :=
  (c.chansess.backendState = .idle ∨ c.chansess.backendState = .done,
    { c.cancelBackend with flushing := c.flushing || c.chansess.backendState = .done })

/-- The first part of `check_close`: closing is allowed unless the type has a check that objects. -/
def checked (c : Channel) : Bool × Channel :=
  if c.type ≠ .session ∨ c.sentClose then (true, c) else c.sesscheckclose

/-- The second part: `pending` is `fd_read_pending(readfd)`. -/
def flush (c : Channel) (pending : Bool) : Channel :=
  if c.flushing ∧ 0 ≤ c.readfd ∧ !pending then c.closeChanFd c.readfd .rd else c

/-- EOF, when nothing more can be read. -/
def sendEofIfDrained (c : Channel) : Channel :=
  if !c.sentEof ∧ c.readfd = fdClosed ∧ c.errfd = fdClosed then c.sendMsgChannelEof else c

/-- CLOSE, when nothing more can be written either. -/
def sendCloseIfUnused (c : Channel) (closeAllowed : Bool) : Channel :=
  if c.readfd = fdClosed ∧ c.writefd = fdClosed ∧ c.errfd = fdClosed ∧ !c.sentClose ∧
      closeAllowed ∧ !c.writePending then
    c.sendMsgChannelClose
  else c

/-- The last part, behind the removal. -/
def closeDown (c : Channel) (closeAllowed : Bool) : Channel :=
  let c := if (c.recvEof ∧ !c.writePending) ∨
      (c.writefd ≠ fdUninit ∧ c.type = .session ∧ closeAllowed) then
    c.closeChanFd c.writefd .wr else c
  c.sendEofIfDrained.sendCloseIfUnused closeAllowed

/-- The third part. -/
def closeUp (c : Channel) (closeAllowed : Bool) : Channel :=
  if c.recvClose ∧ !c.writePending ∧ closeAllowed then
    (if c.sentClose then c else c.sendMsgChannelClose).removeChannel
  else c.closeDown closeAllowed

/-! ### Data -/

/-- The most that `send_msg_channel_data` reads. -/
def maxlen (c : Channel) : ℕ := min (min c.transwindow c.transmaxpacket) (16384 - 9)

/-- `send_msg_channel_data`; `none` when one of its assertions fails. -/
def sendMsgChannelData (c : Channel) (r : ChanRead) : Option Channel :=
  if c.sentClose then none
  else if c.readfd < 0 then none
  else if c.maxlen = 0 then some c
  else
    match r with
    | .data bytes =>
      some { c with transwindow := c.transwindow - bytes.length, sent := c.sent ++ [.data bytes] }
    | .interrupted => some c
    | .eof | .error => some (c.closeChanFd c.readfd .rd)

/-- The window is extended when a third of it has been used, `RECV_WINDOWEXTEND`; `none` when an
assertion of `writechannel` fails. -/
def extendWindow (recvWindow : ℕ) (c : Channel) : Option Channel :=
  let c := if c.recvdonelen ≥ recvWindow / 3 then
    { c with
      sent := c.sent ++ [.windowAdjust c.recvdonelen]
      recvwindow := c.recvwindow + c.recvdonelen, recvdonelen := 0 } else c
  if c.recvwindow ≤ recvWindow ∧ c.recvwindow ≤ recvWindow - c.writebuf then some c else none

/-- `writechannel` for `writefd`, with `len` bytes beside those in `writebuf`, and what
`common_recv_msg_channel_data` does with the bytes that were not written. -/
def writechannel (recvWindow : ℕ) (c : Channel) (len : ℕ) (w : ChanWrite) : Option Channel :=
  match w with
  | .error => (c.closeChanFd c.writefd .wr).extendWindow recvWindow
  | .again => { c with writebuf := c.writebuf + len }.extendWindow recvWindow
  | .wrote n =>
    let n := min n (c.writebuf + len)
    { c with writebuf := c.writebuf + len - n, recvdonelen := c.recvdonelen + n }.extendWindow
      recvWindow

/-- `common_recv_msg_channel_data`; `none` when the session ends. -/
def commonRecvMsgChannelData (recvWindow : ℕ) (c : Channel) (len : ℕ) (w : ChanWrite) :
    Option Channel :=
  if c.recvEof then none
  else if c.writefd < 0 then some c
  else if len > recvWindow - c.writebuf ∨ len > c.recvwindow then none
  else { c with recvwindow := c.recvwindow - len }.writechannel recvWindow len w

/-- `recv_msg_channel_window_adjust`. -/
def recvMsgChannelWindowAdjust (c : Channel) (incr : ℕ) : Channel :=
  { c with transwindow := min (c.transwindow + incr) (2 ^ 32 - 1) }

/-! ### Opening -/

/-- `channel_connect_done`. -/
def channelConnectDone (c : Channel) : Option ℕ → Channel
  | some sock =>
    { c with
      readfd := sock, writefd := sock, bidirFd := true, connPending := false
      sent := c.sent ++ [.openConfirmation] }
  | none => { c.removeChannel with sent := c.sent ++ [.openFailure] }

/-- `recv_msg_channel_open` for a type that the peer may open.  A session is confirmed at once,
the others when the connection stands. -/
def opened (recvWindow : ℕ) (type : ChanType) (transwindow transmaxpacket : ℕ) : Channel :=
  { type := type
    transwindow := transwindow
    transmaxpacket := min transmaxpacket 16384
    recvwindow := recvWindow
    connPending := type ≠ .session
    sent := if type = .session then [.openConfirmation] else [] }

/-! ### Requests -/

/-- `typedata`, with the fields of the channel that the launchers set. -/
def session (c : Channel) : ChanSess :=
  { c.chansess with
    writefd := c.writefd, readfd := c.readfd, errfd := c.errfd, bidirFd := c.bidirFd }

/-- The channel behind a request handler. -/
def withSession (c : Channel) (cs : ChanSess) : Channel :=
  { c with
    chansess := cs
    writefd := cs.writefd, readfd := cs.readfd, errfd := cs.errfd, bidirFd := cs.bidirFd }

/-- `send_msg_channel_success` and `send_msg_channel_failure`. -/
def sendReply (c : Channel) (wantreply ret : Bool) : Channel :=
  if wantreply ∧ !c.sentClose then
    { c with sent := c.sent ++ [if ret then .success else .failure] } else c

/-! ### What closing descriptors leaves alone -/

/-- Some descriptors have been given up, and nothing else has changed. -/
structure Shuts (c c' : Channel) : Prop where
  readfd : c'.readfd = c.readfd ∨ c'.readfd = fdClosed
  writefd : c'.writefd = c.writefd ∨ c'.writefd = fdClosed
  errfd : c'.errfd = c.errfd ∨ c'.errfd = fdClosed
  rest : c' = { c with
    readfd := c'.readfd, writefd := c'.writefd, errfd := c'.errfd, calls := c'.calls }

variable {c c' c'' : Channel}

theorem Shuts.refl (c : Channel) : Shuts c c := ⟨.inl rfl, .inl rfl, .inl rfl, rfl⟩

theorem Shuts.trans (h : Shuts c c') (h' : Shuts c' c'') : Shuts c c'' where
  readfd := by
    rcases h'.readfd with e | e
    · rw [e]
      exact h.readfd
    · exact .inr e
  writefd := by
    rcases h'.writefd with e | e
    · rw [e]
      exact h.writefd
    · exact .inr e
  errfd := by
    rcases h'.errfd with e | e
    · rw [e]
      exact h.errfd
    · exact .inr e
  rest := by
    have hrest := h'.rest
    rw [h.rest] at hrest
    exact hrest

theorem Shuts.keeps (h : Shuts c c') :
    c'.type = c.type ∧ c'.chansess = c.chansess ∧ c'.sentClose = c.sentClose ∧
      c'.recvEof = c.recvEof ∧ c'.flushing = c.flushing ∧ c'.connPending = c.connPending := by
  rw [h.rest]
  exact ⟨rfl, rfl, rfl, rfl, rfl, rfl⟩

theorem endDirection_shuts (c : Channel) (fd : ℤ) (how : How) :
    Shuts c (c.endDirection fd how) := by
  have hset : ∀ (p : Bool) (old : ℤ),
      (if p then fdClosed else old) = old ∨ (if p then fdClosed else old) = fdClosed := by
    intro p old
    cases p
    · exact .inl rfl
    · exact .inr rfl
  exact ⟨hset _ _, hset _ _, hset _ _, rfl⟩

/-- The second half of `close_chan_fd` touches no field. -/
theorem closeChanFd_eq (c : Channel) (fd : ℤ) (how : How) :
    ∃ calls, c.closeChanFd fd how = { c.endDirection fd how with calls := calls } := by
  unfold closeChanFd
  generalize c.endDirection fd how = d
  dsimp only
  split_ifs
  · exact ⟨_, rfl⟩
  · exact ⟨_, rfl⟩

theorem closeChanFd_shuts (c : Channel) (fd : ℤ) (how : How) : Shuts c (c.closeChanFd fd how) := by
  obtain ⟨calls, heq⟩ := closeChanFd_eq c fd how
  have h := endDirection_shuts c fd how
  rw [heq]
  refine ⟨h.readfd, h.writefd, h.errfd, ?_⟩
  rw [h.rest]

theorem closeAll_shuts (c : Channel) : Shuts c c.closeAll :=
  ((closeChanFd_shuts c _ _).trans (closeChanFd_shuts _ _ _)).trans (closeChanFd_shuts _ _ _)

/-- The first part of `check_close` concerns the worker and the flush only. -/
theorem checked_eq (c : Channel) : ∃ flushing backendFd cancelFd,
    c.checked.2 = { c with
      flushing := flushing
      chansess := { c.chansess with backendFd := backendFd, cancelFd := cancelFd } } := by
  unfold checked sesscheckclose cancelBackend
  split_ifs
  · exact ⟨_, _, _, rfl⟩
  · exact ⟨_, _, _, rfl⟩
  · exact ⟨_, _, _, rfl⟩

/-- Before the peer closes, the first part of `check_close` only turns the flush on. -/
theorem checked_open (h : c.recvClose = false) : ∃ flushing,
    c.checked.2 = { c with flushing := flushing } ∧
      (flushing = true → c.flushing = true ∨ c.chansess.backendState = .done) := by
  unfold checked sesscheckclose cancelBackend
  split_ifs with hc hcancel
  · exact ⟨c.flushing, rfl, .inl⟩
  · simp [h] at hcancel
  · exact ⟨_, rfl, fun hf => by simpa using hf⟩

/-- The first part of `check_close` allows closing for one of these reasons. -/
theorem checked_allowed (h : c.checked.1 = true) : c.type ≠ .session ∨ c.sentClose = true ∨
    c.chansess.backendState = .idle ∨ c.chansess.backendState = .done := by
  unfold checked at h
  split_ifs at h with hc
  · exact hc.imp_right .inl
  · exact .inr (.inr (by simpa [sesscheckclose] using h))

/-- `send_msg_channel_data` does nothing, gives `readfd` up, or sends what it has read. -/
theorem sendMsgChannelData_cases {r : ChanRead} (h : c.sendMsgChannelData r = some c') :
    c.sentClose = false ∧ (c' = c ∧ (c.maxlen = 0 ∨ r = .interrupted) ∨
      (r = .eof ∨ r = .error) ∧ c' = c.closeChanFd c.readfd .rd ∨
      ∃ bytes, r = .data bytes ∧ c.maxlen ≠ 0 ∧ c' = { c with
        transwindow := c.transwindow - bytes.length, sent := c.sent ++ [.data bytes] }) := by
  unfold sendMsgChannelData at h
  split_ifs at h with hs hfd hmax
  · cases h
    exact ⟨by simpa using hs, .inl ⟨rfl, .inl hmax⟩⟩
  · refine ⟨by simpa using hs, ?_⟩
    cases r with
    | data bytes =>
      cases h
      exact .inr (.inr ⟨bytes, rfl, hmax, rfl⟩)
    | interrupted =>
      cases h
      exact .inl ⟨rfl, .inr rfl⟩
    | eof =>
      cases h
      exact .inr (.inl ⟨.inl rfl, rfl⟩)
    | error =>
      cases h
      exact .inr (.inl ⟨.inr rfl, rfl⟩)

/-- The assertions of `send_msg_channel_data` are its only way to fail. -/
theorem sendMsgChannelData_ne_none {r : ChanRead} (hs : c.sentClose = false)
    (hfd : 0 ≤ c.readfd) : c.sendMsgChannelData r ≠ none := by
  unfold sendMsgChannelData
  rw [if_neg (by simp [hs]), if_neg (by omega)]
  split_ifs
  · simp
  · cases r <;> simp

theorem flush_shuts (c : Channel) (pending : Bool) : Shuts c (c.flush pending) := by
  unfold flush
  split_ifs
  · exact closeChanFd_shuts c _ _
  · exact .refl c

/-- Closing a descriptor in its direction closes it. -/
theorem closeChanFd_readfd (c : Channel) : (c.closeChanFd c.readfd .rd).readfd = fdClosed := by
  obtain ⟨calls, heq⟩ := closeChanFd_eq c c.readfd .rd
  rw [heq]
  simp [endDirection]

theorem closeChanFd_writefd (c : Channel) : (c.closeChanFd c.writefd .wr).writefd = fdClosed := by
  obtain ⟨calls, heq⟩ := closeChanFd_eq c c.writefd .wr
  rw [heq]
  simp [endDirection]

/-- A closed descriptor stays closed. -/
theorem Shuts.closed (h : Shuts c c') :
    (c.readfd = fdClosed → c'.readfd = fdClosed) ∧
      (c.writefd = fdClosed → c'.writefd = fdClosed) ∧
      (c.errfd = fdClosed → c'.errfd = fdClosed) := by
  refine ⟨fun hc => ?_, fun hc => ?_, fun hc => ?_⟩
  · exact h.readfd.elim (·.trans hc) id
  · exact h.writefd.elim (·.trans hc) id
  · exact h.errfd.elim (·.trans hc) id

theorem closeAll_closed (c : Channel) :
    c.closeAll.readfd = fdClosed ∧ c.closeAll.writefd = fdClosed := by
  constructor
  · have hread := closeChanFd_readfd c
    exact (closeChanFd_shuts _ _ _).closed.1 ((closeChanFd_shuts _ _ _).closed.1 hread)
  · exact closeChanFd_writefd _

/-! ### Rules -/

/-- What the steps behind the removal keep, in the situations in which they are taken, the last part
of `check_close` keeps. -/
theorem closeDown_rule {P : Channel → Prop} {allowed : Bool} (hP : P c)
    (hwrite : ∀ d, P d → d.recvEof = true ∨ d.writefd ≠ fdUninit →
      P (d.closeChanFd d.writefd .wr))
    (heof : ∀ d, P d → d.sentEof = false → d.readfd = fdClosed → P d.sendMsgChannelEof)
    (hclose : ∀ d, P d → d.sentClose = false → allowed = true →
      d.recvClose = true ∨ d.readfd = fdClosed ∧ d.sentEof = true → P d.sendMsgChannelClose) :
    P (c.closeDown allowed) := by
  have h₁ : P (if (c.recvEof ∧ !c.writePending) ∨
      (c.writefd ≠ fdUninit ∧ c.type = .session ∧ allowed) then
      c.closeChanFd c.writefd .wr else c) := by
    split_ifs with hw
    · exact hwrite c hP (hw.imp And.left And.left)
    · exact hP
  have h₂ : ∀ d, P d → P d.sendEofIfDrained ∧ (d.sendEofIfDrained.readfd = fdClosed →
      d.sendEofIfDrained.errfd = fdClosed → d.sendEofIfDrained.sentEof = true) := by
    intro d hd
    unfold sendEofIfDrained
    split_ifs with he
    · exact ⟨heof d hd (by simpa using he.1) he.2.1, fun _ _ => rfl⟩
    · refine ⟨hd, fun hread herr => ?_⟩
      by_contra hn
      exact he ⟨by simpa using hn, hread, herr⟩
  have h₃ : ∀ d, P d ∧ (d.readfd = fdClosed → d.errfd = fdClosed → d.sentEof = true) →
      P (d.sendCloseIfUnused allowed) := by
    rintro d ⟨hd, hsent⟩
    unfold sendCloseIfUnused
    split_ifs with hc
    · exact hclose d hd (by simpa using hc.2.2.2.1) hc.2.2.2.2.1
        (.inr ⟨hc.1, hsent hc.1 hc.2.2.1⟩)
    · exact hd
  exact h₃ _ (h₂ _ h₁)

/-- **Rule for the last part of `check_close`**: what its steps keep, in the situations in which
they are taken, it keeps. -/
theorem closeUp_rule {P : Channel → Prop} {allowed : Bool} (hP : P c)
    (hwrite : ∀ d, P d → d.recvEof = true ∨ d.writefd ≠ fdUninit →
      P (d.closeChanFd d.writefd .wr))
    (heof : ∀ d, P d → d.sentEof = false → d.readfd = fdClosed → P d.sendMsgChannelEof)
    (hclose : ∀ d, P d → d.sentClose = false → allowed = true →
      d.recvClose = true ∨ d.readfd = fdClosed ∧ d.sentEof = true → P d.sendMsgChannelClose)
    (hremove : ∀ d, P d → P d.removeChannel) : P (c.closeUp allowed) := by
  unfold closeUp
  split_ifs with hr hs
  · exact hremove c hP
  · exact hremove _ (hclose c hP (by simpa using hs) hr.2.2 (.inl hr.1))
  · exact closeDown_rule hP hwrite heof hclose

theorem sendMsgChannelClose_eq (c : Channel) : ∃ d : Channel, Shuts { c with
    sent := c.sent ++ (c.exitMessages ++ [.close]), sentEof := true, sentClose := true } d ∧
    d.readfd = fdClosed ∧ d.writefd = fdClosed ∧ c.sendMsgChannelClose = d :=
  ⟨_, closeAll_shuts _, (closeAll_closed _).1, (closeAll_closed _).2, rfl⟩

/-- `check_close` keeps the type and its data, and never takes CLOSE back. -/
theorem closeUp_keeps (c : Channel) (allowed : Bool) :
    (c.closeUp allowed).type = c.type ∧ (c.closeUp allowed).chansess = c.chansess ∧
      (c.closeUp allowed).recvEof = c.recvEof ∧ (c.closeUp allowed).flushing = c.flushing ∧
      (c.connPending = false → (c.closeUp allowed).connPending = false) := by
  refine closeUp_rule (P := fun d => d.type = c.type ∧ d.chansess = c.chansess ∧
    d.recvEof = c.recvEof ∧ d.flushing = c.flushing ∧
    (c.connPending = false → d.connPending = false)) ⟨rfl, rfl, rfl, rfl, id⟩ ?_ ?_ ?_ ?_
  · intro d hd _
    rw [(closeChanFd_shuts d d.writefd .wr).rest]
    exact hd
  · intro d hd _ _
    exact hd
  · intro d hd _ _ _
    obtain ⟨d', hshuts, -, -, heq⟩ := sendMsgChannelClose_eq d
    rw [heq, hshuts.rest]
    exact hd
  · intro d hd
    exact ⟨hd.1, hd.2.1, hd.2.2.1, hd.2.2.2.1, fun _ => rfl⟩

/-- Data has been passed to `writefd`: the descriptor may have been given up, the counters have
changed, and windows may have been adjusted. -/
def Relays (c c' : Channel) : Prop :=
  ∃ d adjusts writebuf recvwindow recvdonelen,
    (d = c ∨ 0 ≤ c.writefd ∧ d = c.closeChanFd c.writefd .wr) ∧
    (adjusts = [] ∨ ∃ incr, adjusts = [ChanMsg.windowAdjust incr]) ∧
    c' = { d with
      sent := d.sent ++ adjusts, writebuf := writebuf, recvwindow := recvwindow
      recvdonelen := recvdonelen }

theorem Relays.keeps (h : Relays c c') :
    c'.type = c.type ∧ c'.chansess = c.chansess ∧ c'.sentClose = c.sentClose ∧
      c'.recvEof = c.recvEof ∧ c'.flushing = c.flushing ∧ c'.connPending = c.connPending := by
  obtain ⟨d, adjusts, writebuf, recvwindow, recvdonelen, rfl | ⟨-, rfl⟩, -, rfl⟩ := h
  · exact ⟨rfl, rfl, rfl, rfl, rfl, rfl⟩
  · rw [(closeChanFd_shuts c c.writefd .wr).rest]
    exact ⟨rfl, rfl, rfl, rfl, rfl, rfl⟩

theorem extendWindow_eq {recvWindow : ℕ} (h : c.extendWindow recvWindow = some c') :
    ∃ adjusts recvwindow recvdonelen,
      (adjusts = [] ∨ ∃ incr, adjusts = [ChanMsg.windowAdjust incr]) ∧
      c' = { c with
        sent := c.sent ++ adjusts, recvwindow := recvwindow, recvdonelen := recvdonelen } := by
  unfold extendWindow at h
  simp only [Option.ite_none_right_eq_some, Option.some.injEq] at h
  obtain ⟨-, rfl⟩ := h
  split_ifs
  · exact ⟨[.windowAdjust c.recvdonelen], _, _, .inr ⟨_, rfl⟩, rfl⟩
  · exact ⟨[], c.recvwindow, c.recvdonelen, .inl rfl, by simp⟩

theorem writechannel_relays {recvWindow len : ℕ} {w : ChanWrite}
    (h : c.writechannel recvWindow len w = some c') (hfd : 0 ≤ c.writefd) : Relays c c' := by
  cases w with
  | error =>
    obtain ⟨adjusts, r, n, hadj, rfl⟩ := extendWindow_eq h
    exact ⟨_, adjusts, _, r, n, .inr ⟨hfd, rfl⟩, hadj, rfl⟩
  | again =>
    obtain ⟨adjusts, r, n, hadj, rfl⟩ := extendWindow_eq h
    exact ⟨c, adjusts, _, r, n, .inl rfl, hadj, rfl⟩
  | wrote k =>
    obtain ⟨adjusts, r, n, hadj, rfl⟩ := extendWindow_eq h
    exact ⟨c, adjusts, _, r, n, .inl rfl, hadj, rfl⟩

theorem writefd_of_writePending (h : c.writePending = true) : 0 ≤ c.writefd := by
  simp only [writePending, Bool.and_eq_true, decide_eq_true_eq] at h
  exact h.1

theorem commonRecvMsgChannelData_relays {recvWindow len : ℕ} {w : ChanWrite}
    (h : c.commonRecvMsgChannelData recvWindow len w = some c') : Relays c c' := by
  unfold commonRecvMsgChannelData at h
  split_ifs at h with heof hfd hlen
  · cases h
    exact ⟨c, [], c.writebuf, c.recvwindow, c.recvdonelen, .inl rfl, .inl rfl, by simp⟩
  · have hopen : 0 ≤ c.writefd := by omega
    obtain ⟨d, adjusts, b, r, n, rfl | ⟨-, rfl⟩, hadj, rfl⟩ := writechannel_relays h hopen
    · exact ⟨c, adjusts, b, r, n, .inl rfl, hadj, rfl⟩
    · refine ⟨_, adjusts, b, r, n, .inr ⟨hopen, rfl⟩, hadj, ?_⟩
      unfold closeChanFd endDirection
      dsimp only
      split_ifs <;> rfl

end Channel

end Ps4Dropbear
