import Ps4Dropbear.Channel.Chansession

/-!
# Closing a channel with a worker

`check_close`, `sesscheckclose` and what leads to them, for a session channel with a shell or an
`scp` worker.  The main thread and the worker interleave: the worker writes output, leaves its
loop, stores its exit status, stores `PS4_BACKEND_DONE`, and gives its descriptor up; the main
thread receives messages for the channel, selects and reads.

`check_close` runs only when a message for the channel arrives or one of its descriptors is ready.
Nothing else wakes the main thread, there is no child whose death would raise a signal.

The descriptors `readfd` and `writefd` are the same socket; `errfd` is closed from the start, and
the circular buffer is empty because writes block.

* `checkClose`, `channelio` : the main thread.
* `closingChannel` : the channel and its worker as a transition system.
* `stranded_iff` : which steps of the main thread can leave a channel behind for ever.
-/

namespace Ps4Dropbear

/-- How far the worker has come. -/
inductive WorkerPhase
  /-- In its loop. -/
  | loop
  /-- The exit status has been stored. -/
  | exitStored
  /-- `PS4_BACKEND_DONE` has been stored. -/
  | doneStored
  /-- `ps4_backend_fd` has been exchanged, and the descriptor closed if it was still there. -/
  | finished
  deriving DecidableEq, Repr

/-- The messages of a channel that closing sends. -/
inductive ChannelMsg
  | data (len : ℕ)
  | eof
  | exitStatus
  | close
  deriving DecidableEq

/-- A session channel with its worker. -/
structure Closing where
  /-- The channel is in `ses.channels`. -/
  present : Bool := true
  recvEof : Bool := false
  recvClose : Bool := false
  sentEof : Bool := false
  sentClose : Bool := false
  flushing : Bool := false
  /-- `readfd` is open. -/
  readfd : Bool := true
  /-- `writefd` is open. -/
  writefd : Bool := true
  transwindow : ℕ
  transmaxpacket : ℕ
  backendState : BackendState := .running
  /-- `ps4_backend_fd` holds the worker's end. -/
  backendFd : Bool := true
  /-- `ps4_cancel_fd` holds it. -/
  cancelFd : Bool := false
  phase : WorkerPhase := .loop
  /-- The bytes of output that the main thread has not read. -/
  output : ℕ := 0
  /-- End of file behind them: the worker's end is closed or shut down. -/
  ended : Bool := false
  sent : List ChannelMsg := []
  deriving DecidableEq

namespace Closing

/-- A read of `readfd` would not block. -/
def readable (s : Closing) : Bool := decide (0 < s.output) || s.ended

/-- `setchannelfds` puts `readfd` into the read set, when data may be sent and the write queue has
room.  `writefd` is never in the write set. -/
def selected (s : Closing) : Bool := s.present && decide (0 < s.transwindow) && s.readfd

/-- `close_chan_fd` for `readfd`. -/
def closeReadfd (s : Closing) : Closing := { s with readfd := false }

/-- `close_chan_fd` for `writefd`. -/
def closeWritefd (s : Closing) : Closing := { s with writefd := false }

/-- `send_msg_channel_close`; the close handler sends the exit status. -/
def sendMsgChannelClose (s : Closing) : Closing :=
  { s with
    sent := s.sent ++ (if s.phase = .loop then [] else [.exitStatus]) ++ [.close]
    sentEof := true, sentClose := true, readfd := false, writefd := false }

/-- `send_msg_channel_eof`. -/
def sendMsgChannelEof (s : Closing) : Closing :=
  { s with sent := s.sent ++ [.eof], sentEof := true }

/-- `remove_channel`. -/
def removeChannel (s : Closing) : Closing :=
  { s with present := false, readfd := false, writefd := false, backendFd := false
           cancelFd := false }

/-- `sesscheckclose`: whether the channel may be closed, and the worker's end shut down when the
peer has closed the channel under a running worker. -/
def sesscheckclose (s : Closing) : Bool × Closing :=
  let s := if s.backendState = .running ∧ s.recvClose ∧ s.backendFd then
    { s with backendFd := false, cancelFd := true, ended := true } else s
  let s := if s.backendState = .done then { s with flushing := true } else s
  (s.backendState = .idle ∨ s.backendState = .done, s)

/-- The part of `check_close` behind the removal. -/
def closeDown (s : Closing) (closeAllowed : Bool) : Closing :=
  let s := if s.recvEof ∨ closeAllowed then s.closeWritefd else s
  let s := if !s.sentEof ∧ !s.readfd then s.sendMsgChannelEof else s
  if !s.readfd ∧ !s.writefd ∧ !s.sentClose ∧ closeAllowed then s.sendMsgChannelClose else s

/-- The part of `check_close` behind the check of the channel's type. -/
def closeChecked (s : Closing) (closeAllowed : Bool) : Closing :=
  let s := if s.flushing ∧ s.readfd ∧ !s.readable then s.closeReadfd else s
  if s.recvClose ∧ closeAllowed then
    (if s.sentClose then s else s.sendMsgChannelClose).removeChannel
  else s.closeDown closeAllowed

/-- `check_close`. -/
def checkClose (s : Closing) : Closing :=
  if s.sentClose then s.closeChecked true
  else s.sesscheckclose.2.closeChecked s.sesscheckclose.1

/-- The most that `send_msg_channel_data` reads. -/
def maxlen (s : Closing) : ℕ := min (min s.transwindow s.transmaxpacket) (16384 - 9)

/-- The bytes that a `read` returns which would take `len`: some of those that are there. -/
def readLen (s : Closing) (len : ℕ) : ℕ := max 1 (min len (min s.maxlen s.output))

/-- `send_msg_channel_data`, on a descriptor that is ready: data or the end of the file. -/
def sendMsgChannelData (s : Closing) (len : ℕ) : Closing :=
  if s.maxlen = 0 then s
  else if s.output = 0 then s.closeReadfd
  else
    { s with
      transwindow := s.transwindow - s.readLen len, output := s.output - s.readLen len
      sent := s.sent ++ [.data (s.readLen len)] }

/-- `channelio` for the channel, in an iteration in which its `readfd` was selected and ready. -/
def channelio (s : Closing) (len : ℕ) : Closing := (s.sendMsgChannelData len).checkClose

end Closing

/-- The steps of the two threads. -/
inductive ClosingEvent
  /-- CHANNEL_EOF. -/
  | recvEof
  /-- CHANNEL_CLOSE. -/
  | recvClose
  /-- CHANNEL_WINDOW_ADJUST. -/
  | windowAdjust (incr : ℕ)
  /-- `select` reports `readfd`, and `channelio` reads up to `len` bytes. -/
  | channelio (len : ℕ)
  /-- A write of CHANNEL_DATA fails, because the worker's end is gone. -/
  | writeError
  /-- The worker writes. -/
  | workerWrite (len : ℕ)
  /-- The worker leaves its loop and stores its exit status. -/
  | workerExit
  /-- The worker stores `PS4_BACKEND_DONE`. -/
  | workerDone
  /-- The worker exchanges `ps4_backend_fd` and closes its descriptor if it was still there. -/
  | workerClose
  deriving DecidableEq

/-- The event is a message of the peer. -/
def ClosingEvent.isMessage : ClosingEvent → Bool
  | .recvEof | .recvClose | .windowAdjust _ | .writeError => true
  | _ => false

/-- When a step is possible.  A message for a channel that is gone ends the session. -/
def ClosingEvent.possible (s : Closing) : ClosingEvent → Bool
  | .recvEof | .recvClose | .windowAdjust _ => s.present
  | .channelio _ => s.selected && s.readable
  | .writeError => s.present && s.writefd && s.ended && !s.recvEof
  | .workerWrite _ | .workerExit => s.phase = .loop
  | .workerDone => s.phase = .exitStored
  | .workerClose => s.phase = .doneStored

/-- What a step does. -/
def ClosingEvent.perform (s : Closing) : ClosingEvent → Closing
  | .recvEof => { s with recvEof := true }.checkClose
  | .recvClose => { s with recvEof := true, recvClose := true }.checkClose
  | .windowAdjust incr => { s with transwindow := min (s.transwindow + incr) (2 ^ 32 - 1) }
  | .channelio len => s.channelio len
  | .writeError => s.closeWritefd
  | .workerWrite len => if s.ended then s else { s with output := s.output + len }
  | .workerExit => { s with phase := .exitStored }
  | .workerDone => { s with phase := .doneStored, backendState := .done }
  | .workerClose =>
    { s with phase := .finished, backendFd := false, ended := s.ended || s.backendFd }

/-- A channel with its worker. -/
def closingChannel : LTS Closing ClosingEvent where
  step s e := if e.possible s then some (e.perform s) else none

/-- The channel when the worker has been started. -/
def startedWorker (transwindow transmaxpacket : ℕ) : Closing :=
  { transwindow := transwindow, transmaxpacket := transmaxpacket }

/-- The worker has finished, the peer has closed the channel, and the channel is still there. -/
def Closing.Finished (s : Closing) : Prop :=
  s.present = true ∧ s.recvClose = true ∧ s.backendState = .done

/-- **The property**: a descriptor of a finished channel is in the select sets and ready, and the
iteration that handles it removes the channel. -/
def Closing.Served (s : Closing) : Prop :=
  s.Finished → s.selected = true ∧ s.readable = true ∧
    ∀ len s', closingChannel.step s (.channelio len) = some s' → s'.present = false

/-- **The condition** on the steps of the main thread while the worker runs: the peer's close
finds window left, and after it the main thread neither reads the end of the file nor uses the
window up. -/
def KeepsDescriptor (s : Closing) : ClosingEvent → Prop
  | .recvClose => s.backendState = .running → 0 < s.transwindow
  | .channelio len => s.backendState = .running → s.recvClose = true → 0 < s.maxlen →
    0 < s.output ∧ s.readLen len < s.transwindow
  | _ => True

/-! ### `check_close` -/

namespace Closing

variable {s : Closing}

/-- The invariant of a channel and its worker. -/
structure Inv (s : Closing) : Prop where
  state : s.backendState = .running ∨ s.backendState = .done
  phase : s.backendState = .running → s.phase = .loop ∨ s.phase = .exitStored
  running : s.backendState = .running →
    s.present = true ∧ s.flushing = false ∧ s.sentClose = false
  /-- Before the peer closes, a running worker has its end of the socket. -/
  held : s.backendState = .running → s.recvClose = false →
    s.backendFd = true ∧ s.readfd = true ∧ s.ended = false
  /-- Afterwards the socket has been shut down. -/
  ended : s.present = true → s.recvClose = true → s.ended = true

/-- What the steps behind the removal leave alone. -/
structure Frame (s t : Closing) : Prop where
  present : t.present = s.present
  recvClose : t.recvClose = s.recvClose
  transwindow : t.transwindow = s.transwindow
  backendState : t.backendState = s.backendState
  phase : t.phase = s.phase
  backendFd : t.backendFd = s.backendFd
  ended : t.ended = s.ended
  flushing : t.flushing = s.flushing

theorem Frame.trans {s t u : Closing} (h : Frame s t) (h' : Frame t u) : Frame s u :=
  ⟨h'.1.trans h.1, h'.2.trans h.2, h'.3.trans h.3, h'.4.trans h.4, h'.5.trans h.5, h'.6.trans h.6,
    h'.7.trans h.7, h'.8.trans h.8⟩

theorem closeDown_frame (s : Closing) (closeAllowed : Bool) :
    Frame s (s.closeDown closeAllowed) := by
  have hw : Frame s (if s.recvEof ∨ closeAllowed then s.closeWritefd else s) := by
    split_ifs <;> exact ⟨rfl, rfl, rfl, rfl, rfl, rfl, rfl, rfl⟩
  have he : ∀ t, Frame s t →
      Frame s (if !t.sentEof ∧ !t.readfd then t.sendMsgChannelEof else t) := by
    intro t ht
    split_ifs
    · exact ⟨ht.1, ht.2, ht.3, ht.4, ht.5, ht.6, ht.7, ht.8⟩
    · exact ht
  have hc : ∀ t, Frame s t → Frame s (if !t.readfd ∧ !t.writefd ∧ !t.sentClose ∧ closeAllowed then
      t.sendMsgChannelClose else t) := by
    intro t ht
    split_ifs
    · exact ⟨ht.1, ht.2, ht.3, ht.4, ht.5, ht.6, ht.7, ht.8⟩
    · exact ht
  exact hc _ (he _ hw)

/-- While closing is not allowed, neither `readfd` nor `sent_close` changes. -/
theorem closeDown_denied (s : Closing) :
    (s.closeDown false).readfd = s.readfd ∧ (s.closeDown false).sentClose = s.sentClose := by
  simp only [closeDown, Bool.false_eq_true, and_false, if_false]
  split_ifs <;> exact ⟨rfl, rfl⟩

/-- The socket behind `sesscheckclose` under a running worker. -/
def cancelled (s : Closing) : Closing :=
  if s.recvClose ∧ s.backendFd then { s with backendFd := false, cancelFd := true, ended := true }
  else s

/-- Under a running worker `check_close` shuts the socket down once the peer has closed, and
allows nothing else. -/
theorem checkClose_running (hr : s.backendState = .running) (hf : s.flushing = false)
    (hs : s.sentClose = false) : s.checkClose = s.cancelled.closeDown false := by
  have hses : s.sesscheckclose = (false, s.cancelled) := by
    unfold sesscheckclose cancelled
    simp only [hr, true_and]
    split_ifs <;> simp_all
  have hflush : s.cancelled.flushing = false := by
    unfold cancelled
    split_ifs <;> exact hf
  simp only [checkClose, closeChecked, hs, Bool.false_eq_true, if_false, hses, hflush, false_and,
    and_false]

/-- When the worker is done, closing is allowed. -/
theorem checkClose_done (hd : s.backendState = .done) :
    ∃ t : Closing, t.recvClose = s.recvClose ∧ t.backendState = .done ∧
      s.checkClose = t.closeChecked true := by
  by_cases hs : s.sentClose = true
  · refine ⟨s, rfl, hd, ?_⟩
    rw [checkClose, if_pos hs]
  · have hses : s.sesscheckclose = (true, { s with flushing := true }) := by
      simp [sesscheckclose, hd]
    refine ⟨{ s with flushing := true }, rfl, hd, ?_⟩
    rw [checkClose, if_neg hs, hses]

/-- Closing that is allowed removes the channel if the peer has closed it, and nothing else. -/
theorem closeChecked_allowed (s : Closing) :
    (s.recvClose = true → (s.closeChecked true).present = false) ∧
      (s.recvClose = false → (s.closeChecked true).recvClose = false) ∧
      (s.closeChecked true).backendState = s.backendState := by
  have hflush : Frame s (if s.flushing ∧ s.readfd ∧ !s.readable then s.closeReadfd else s) := by
    split_ifs <;> exact ⟨rfl, rfl, rfl, rfl, rfl, rfl, rfl, rfl⟩
  unfold closeChecked
  generalize (if s.flushing ∧ s.readfd ∧ !s.readable then s.closeReadfd else s) = t at hflush
  by_cases hc : t.recvClose = true
  · have hs : s.recvClose = true := hflush.recvClose ▸ hc
    have hkeep : (if t.sentClose then t else t.sendMsgChannelClose).backendState =
        t.backendState := by
      split_ifs <;> rfl
    rw [if_pos ⟨hc, rfl⟩]
    exact ⟨fun _ => rfl, fun hn => by simp [hs] at hn, hkeep.trans hflush.backendState⟩
  · have hframe := hflush.trans (closeDown_frame t true)
    rw [if_neg (fun h => hc h.1)]
    exact ⟨fun hs => absurd (hflush.recvClose.trans hs) hc, fun hn => hframe.recvClose.trans hn,
      hframe.backendState⟩

/-- When the worker is done and the peer has closed, `check_close` removes the channel. -/
theorem checkClose_removes (hd : s.backendState = .done) (hc : s.recvClose = true) :
    s.checkClose.present = false := by
  obtain ⟨t, hrecv, -, heq⟩ := checkClose_done hd
  rw [heq]
  exact (closeChecked_allowed t).1 (hrecv.trans hc)

/-- What `check_close` finds: the invariant, but the socket may still have to be shut down. -/
structure Ready (s : Closing) : Prop where
  state : s.backendState = .running ∨ s.backendState = .done
  phase : s.backendState = .running → s.phase = .loop ∨ s.phase = .exitStored
  running : s.backendState = .running →
    s.present = true ∧ s.flushing = false ∧ s.sentClose = false
  held : s.backendState = .running → s.recvClose = false →
    s.backendFd = true ∧ s.readfd = true ∧ s.ended = false
  shut : s.backendState = .running → s.recvClose = true → s.backendFd = false → s.ended = true

theorem Inv.ready (h : Inv s) : Ready s where
  state := h.state
  phase := h.phase
  running := h.running
  held := h.held
  shut hr hc _ := h.ended (h.running hr).1 hc

/-- `check_close` under a running worker establishes the invariant, and `readfd` and the window
stay as they were. -/
theorem Ready.checkClose_running (h : Ready s) (hr : s.backendState = .running) :
    Inv s.checkClose ∧ s.checkClose.selected = s.selected ∧
      s.checkClose.recvClose = s.recvClose ∧ s.checkClose.backendState = .running := by
  obtain ⟨hp, hf, hs⟩ := h.running hr
  have hframe := closeDown_frame s.cancelled false
  obtain ⟨hread, hsent⟩ := closeDown_denied s.cancelled
  have hkeep : s.cancelled.present = s.present ∧ s.cancelled.recvClose = s.recvClose ∧
      s.cancelled.transwindow = s.transwindow ∧ s.cancelled.backendState = s.backendState ∧
      s.cancelled.phase = s.phase ∧ s.cancelled.flushing = s.flushing ∧
      s.cancelled.readfd = s.readfd ∧ s.cancelled.sentClose = s.sentClose := by
    unfold cancelled
    split_ifs <;> exact ⟨rfl, rfl, rfl, rfl, rfl, rfl, rfl, rfl⟩
  obtain ⟨kp, kc, kw, kb, kph, kf, kr, ks⟩ := hkeep
  have hopen : s.recvClose = false → s.cancelled = s := by
    intro hc
    rw [cancelled, if_neg (by simp [hc])]
  have hshut : s.recvClose = true → s.cancelled.ended = true := by
    intro hc
    unfold cancelled
    split_ifs with hfd
    · rfl
    · exact h.shut hr hc (by simpa [hc] using hfd)
  rw [Closing.checkClose_running hr hf hs]
  refine ⟨⟨?_, ?_, ?_, ?_, ?_⟩, ?_, hframe.recvClose.trans kc,
    hframe.backendState.trans (kb.trans hr)⟩
  · exact .inl (hframe.backendState.trans (kb.trans hr))
  · intro _
    rw [hframe.phase, kph]
    exact h.phase hr
  · intro _
    exact ⟨hframe.present.trans (kp.trans hp), hframe.flushing.trans (kf.trans hf),
      hsent.trans (ks.trans hs)⟩
  · intro _ hc
    rw [hframe.recvClose, kc] at hc
    rw [hframe.backendFd, hread, hframe.ended, hopen hc]
    exact h.held hr hc
  · intro _ hc
    rw [hframe.recvClose, kc] at hc
    exact hframe.ended.trans (hshut hc)
  · rw [selected, selected, hframe.present, hframe.transwindow, hread, kp, kw, kr]

/-- `check_close` establishes the invariant. -/
theorem Ready.checkClose_inv (h : Ready s) : Inv s.checkClose := by
  rcases h.state with hr | hd
  · exact (h.checkClose_running hr).1
  · obtain ⟨t, hrecv, hdone, heq⟩ := checkClose_done hd
    obtain ⟨hremoved, hstays, hstate⟩ := closeChecked_allowed t
    have hnot : (t.closeChecked true).backendState ≠ .running := by
      rw [hstate, hdone]
      decide
    rw [heq]
    refine ⟨.inr (hstate.trans hdone), fun hr => absurd hr hnot, fun hr => absurd hr hnot,
      fun hr => absurd hr hnot, fun hp hc => ?_⟩
    cases ht : t.recvClose with
    | true => simp [hremoved ht] at hp
    | false => simp [hstays ht] at hc

/-- `check_close` keeps a channel that the peer has closed only if its descriptor was selected. -/
theorem Ready.checkClose_kept (h : Ready s)
    (hsel : s.backendState = .running → s.recvClose = true → s.selected = true) :
    s.checkClose.present = true → s.checkClose.recvClose = true →
      s.checkClose.selected = true := by
  intro hp hc
  rcases h.state with hr | hd
  · obtain ⟨-, hsame, hrecv, -⟩ := h.checkClose_running hr
    rw [hsame]
    exact hsel hr (hrecv ▸ hc)
  · obtain ⟨t, -, -, heq⟩ := checkClose_done hd
    obtain ⟨hremoved, hstays, -⟩ := closeChecked_allowed t
    rw [heq] at hp hc
    cases ht : t.recvClose with
    | true => simp [hremoved ht] at hp
    | false => simp [hstays ht] at hc

/-- After the peer's close. -/
theorem Inv.ready_recvClose (h : Inv s) : Ready { s with recvEof := true, recvClose := true } where
  state := h.state
  phase := h.phase
  running := h.running
  held _ hc := by simp at hc
  shut hr _ hfd := by
    by_cases hc : s.recvClose = true
    · exact h.ended (h.running hr).1 hc
    · have hheld := (h.held hr (by simpa using hc)).1
      simp [hheld] at hfd

/-- After a read that `select` has announced. -/
theorem Inv.ready_sendMsgChannelData (h : Inv s) (hread : s.readable = true) (len : ℕ) :
    Ready (s.sendMsgChannelData len) := by
  unfold sendMsgChannelData
  split_ifs with hmax hout
  · exact h.ready
  · refine ⟨h.state, h.phase, h.running, ?_, ?_⟩
    · intro hr hc
      -- before the peer's close there is no end of the file to read
      have hended : s.ended = false := (h.held hr hc).2.2
      simp [readable, hout, hended] at hread
    · intro hr hc _
      exact h.ended (h.running hr).1 hc
  · exact ⟨h.state, h.phase, h.running, h.held, fun hr hc _ => h.ended (h.running hr).1 hc⟩

end Closing

/-! ### The steps -/

open Closing

variable {s s' : Closing}

theorem closingChannel_step {e : ClosingEvent} :
    closingChannel.step s e = some s' ↔ e.possible s = true ∧ e.perform s = s' := by
  simp [closingChannel]

/-- Every step preserves the invariant. -/
theorem closingChannel_inv {e : ClosingEvent} (h : Inv s)
    (hst : closingChannel.step s e = some s') : Inv s' := by
  obtain ⟨hen, rfl⟩ := closingChannel_step.1 hst
  cases e with
  | recvEof =>
    have hready : Ready { s with recvEof := true } :=
      ⟨h.state, h.phase, h.running, h.held, h.ready.shut⟩
    exact hready.checkClose_inv
  | recvClose =>
    exact h.ready_recvClose.checkClose_inv
  | windowAdjust incr =>
    exact ⟨h.state, h.phase, h.running, h.held, h.ended⟩
  | channelio len =>
    obtain ⟨-, hread⟩ := Bool.and_eq_true_iff.1 hen
    exact (h.ready_sendMsgChannelData hread len).checkClose_inv
  | writeError =>
    exact ⟨h.state, h.phase, h.running, h.held, h.ended⟩
  | workerWrite len =>
    unfold ClosingEvent.perform
    split_ifs
    · exact h
    · exact ⟨h.state, h.phase, h.running, h.held, h.ended⟩
  | workerExit =>
    exact ⟨h.state, fun _ => .inr rfl, h.running, h.held, h.ended⟩
  | workerDone =>
    exact ⟨.inr rfl, nofun, nofun, nofun, h.ended⟩
  | workerClose =>
    -- the worker closes only after it has stored `PS4_BACKEND_DONE`
    have hnot : s.backendState ≠ .running := by
      intro hr
      rcases h.phase hr with hp | hp <;> simp [ClosingEvent.possible, hp] at hen
    refine ⟨h.state, fun hr => absurd hr hnot, fun hr => absurd hr hnot, fun hr => absurd hr hnot,
      fun hp hc => ?_⟩
    show (s.ended || s.backendFd) = true
    rw [h.ended hp hc, Bool.true_or]

/-- The peer has closed the channel, and its descriptor is still in the select sets. -/
def Closing.Kept (s : Closing) : Prop :=
  s.present = true → s.recvClose = true → s.selected = true

/-- A step that meets the condition keeps the descriptor in the select sets. -/
theorem closingChannel_kept {e : ClosingEvent} (h : Inv s) (hk : s.Kept)
    (hcond : KeepsDescriptor s e) (hst : closingChannel.step s e = some s') : s'.Kept := by
  obtain ⟨hen, rfl⟩ := closingChannel_step.1 hst
  cases e with
  | recvEof =>
    have hp : s.present = true := hen
    have hready : Ready { s with recvEof := true } :=
      ⟨h.state, h.phase, h.running, h.held, h.ready.shut⟩
    exact hready.checkClose_kept fun _ hc => hk hp hc
  | recvClose =>
    have hp : s.present = true := hen
    refine h.ready_recvClose.checkClose_kept fun hr _ => ?_
    by_cases hc : s.recvClose = true
    · exact hk hp hc
    · have hopen : s.readfd = true := (h.held hr (by simpa using hc)).2.1
      have hwindow : 0 < s.transwindow := hcond hr
      simp [selected, hp, hwindow, hopen]
  | windowAdjust incr =>
    intro hp hc
    have hsel := hk hp hc
    simp only [selected, Bool.and_eq_true, decide_eq_true_eq] at hsel ⊢
    have hwindow : 0 < min (s.transwindow + incr) (2 ^ 32 - 1) := by omega
    exact ⟨⟨hen, hwindow⟩, hsel.2⟩
  | channelio len =>
    obtain ⟨hsel, hread⟩ := Bool.and_eq_true_iff.1 hen
    refine (h.ready_sendMsgChannelData hread len).checkClose_kept ?_
    unfold sendMsgChannelData
    split_ifs with hmax hout
    · exact fun _ _ => hsel
    · intro hr hc
      have hdata := (hcond hr hc (Nat.pos_of_ne_zero hmax)).1
      omega
    · intro hr hc
      have hleft := (hcond hr hc (Nat.pos_of_ne_zero hmax)).2
      simp only [selected, Bool.and_eq_true, decide_eq_true_eq] at hsel ⊢
      exact ⟨⟨hsel.1.1, by omega⟩, hsel.2⟩
  | writeError =>
    exact hk
  | workerWrite len =>
    unfold ClosingEvent.perform
    split_ifs <;> exact hk
  | workerExit | workerDone | workerClose =>
    exact hk

/-- A step that fails the condition takes the descriptor out of the select sets while the worker
runs. -/
theorem closingChannel_lost {e : ClosingEvent} (h : Inv s) (hcond : ¬ KeepsDescriptor s e)
    (hst : closingChannel.step s e = some s') :
    Inv s' ∧ s'.backendState = .running ∧ s'.recvClose = true ∧ s'.selected = false := by
  refine ⟨closingChannel_inv h hst, ?_⟩
  obtain ⟨hen, rfl⟩ := closingChannel_step.1 hst
  cases e with
  | recvClose =>
    simp only [KeepsDescriptor, Classical.not_imp] at hcond
    obtain ⟨hr, hwindow⟩ := hcond
    obtain ⟨-, hsame, hrecv, hrun⟩ := h.ready_recvClose.checkClose_running hr
    refine ⟨hrun, hrecv, hsame.trans ?_⟩
    simp [selected, Nat.eq_zero_of_not_pos hwindow]
  | channelio len =>
    simp only [KeepsDescriptor, Classical.not_imp] at hcond
    obtain ⟨-, hread⟩ := Bool.and_eq_true_iff.1 hen
    obtain ⟨hr, hc, hmax, hlost⟩ := hcond
    have hdata : (s.sendMsgChannelData len).backendState = .running ∧
        (s.sendMsgChannelData len).recvClose = true ∧
        (s.sendMsgChannelData len).selected = false := by
      unfold sendMsgChannelData
      rw [if_neg (Nat.pos_iff_ne_zero.1 hmax)]
      split_ifs with hout
      · exact ⟨hr, hc, by simp [selected, closeReadfd]⟩
      · refine ⟨hr, hc, ?_⟩
        have hused : s.transwindow - s.readLen len = 0 := by
          have := Nat.pos_of_ne_zero hout
          omega
        simp [selected, hused]
    obtain ⟨-, hsame, hrecv, hrun⟩ :=
      (h.ready_sendMsgChannelData hread len).checkClose_running hdata.1
    exact ⟨hrun, hrecv.trans hdata.2.1, hsame.trans hdata.2.2⟩
  | recvEof | windowAdjust | writeError | workerWrite | workerExit | workerDone | workerClose =>
    exact absurd trivial hcond

/-- The worker finishes by itself. -/
theorem worker_finishes (h : Inv s) (hr : s.backendState = .running) :
    ∃ ms, closingChannel.exec s ms =
      some { s with phase := .doneStored, backendState := .done } := by
  rcases h.phase hr with hp | hp
  · refine ⟨[.workerExit, .workerDone], ?_⟩
    simp [closingChannel, ClosingEvent.possible, ClosingEvent.perform, hp]
  · refine ⟨[.workerDone], ?_⟩
    simp [closingChannel, ClosingEvent.possible, ClosingEvent.perform, hp]

/-- Nothing but a message of the peer gets a finished channel back into the select sets. -/
theorem stranded_step {e : ClosingEvent} (h : s.Finished ∧ s.selected = false)
    (he : e.isMessage = false) (hst : closingChannel.step s e = some s') :
    s'.Finished ∧ s'.selected = false := by
  obtain ⟨hfin, hsel⟩ := h
  obtain ⟨hen, rfl⟩ := closingChannel_step.1 hst
  cases e with
  | recvEof | recvClose | windowAdjust | writeError => simp [ClosingEvent.isMessage] at he
  | channelio len => simp [ClosingEvent.possible, hsel] at hen
  | workerWrite len =>
    unfold ClosingEvent.perform
    split_ifs <;> exact ⟨hfin, hsel⟩
  | workerExit | workerClose =>
    exact ⟨hfin, hsel⟩
  | workerDone =>
    exact ⟨⟨hfin.1, hfin.2.1, rfl⟩, hsel⟩

theorem startedWorker_inv (transwindow transmaxpacket : ℕ) :
    Inv (startedWorker transwindow transmaxpacket) :=
  ⟨.inl rfl, fun _ => .inl rfl, fun _ => ⟨rfl, rfl, rfl⟩, fun _ _ => ⟨rfl, rfl, rfl⟩, nofun⟩

/-! ### The property -/

/-- A finished channel whose descriptor is in the select sets is served. -/
theorem Closing.Kept.served (h : Inv s) (hk : s.Kept) : s.Served := by
  rintro ⟨hp, hc, hd⟩
  refine ⟨hk hp hc, ?_, ?_⟩
  · simp [readable, h.ended hp hc]
  · intro len s' hst
    obtain ⟨-, rfl⟩ := closingChannel_step.1 hst
    have hkeep : (s.sendMsgChannelData len).backendState = s.backendState ∧
        (s.sendMsgChannelData len).recvClose = s.recvClose := by
      unfold sendMsgChannelData
      split_ifs <;> exact ⟨rfl, rfl⟩
    exact checkClose_removes (hkeep.1.trans hd) (hkeep.2.trans hc)

/-- **No stranded channel**, for every run whose steps meet the condition.  Conversely every
possible step that fails it leads, by steps of the worker alone, to a channel that is finished and
stays in `ses.channels` unserved whatever the two threads do, unless another message for it
arrives. -/
theorem stranded_iff (transwindow transmaxpacket : ℕ) :
    (∀ ls t, closingChannel.Along KeepsDescriptor (startedWorker transwindow transmaxpacket) ls →
      closingChannel.exec (startedWorker transwindow transmaxpacket) ls = some t → t.Served) ∧
    (∀ ls s e s', closingChannel.exec (startedWorker transwindow transmaxpacket) ls = some s →
      closingChannel.step s e = some s' → ¬ KeepsDescriptor s e →
      ∃ ms t, closingChannel.exec s' ms = some t ∧ ∀ ns u, (∀ n ∈ ns, n.isMessage = false) →
        closingChannel.exec t ns = some u → u.Finished ∧ ¬ u.Served) := by
  have hinit := startedWorker_inv transwindow transmaxpacket
  refine ⟨?_, ?_⟩
  · intro ls t hal hls
    have hkeep : Inv t ∧ t.Kept :=
      LTS.exec_invariant (I := fun s => Inv s ∧ s.Kept) ⟨hinit, nofun⟩
        (fun s l s' h hC hst =>
          ⟨closingChannel_inv h.1 hst, closingChannel_kept h.1 h.2 hC hst⟩) hal hls
    exact hkeep.2.served hkeep.1
  · intro ls s e s' hls hst hcond
    have hinv : Inv s := LTS.exec_invariant' hinit (fun _ _ _ => closingChannel_inv) hls
    obtain ⟨hinv', hr, hc, hsel⟩ := closingChannel_lost hinv hcond hst
    obtain ⟨ms, hms⟩ := worker_finishes hinv' hr
    refine ⟨ms, _, hms, ?_⟩
    intro ns u hns hu
    have hstay : u.Finished ∧ u.selected = false := by
      refine LTS.exec_invariant (C := fun _ n => n.isMessage = false)
        (I := fun s => s.Finished ∧ s.selected = false) ?_
        (fun s l s' h hl hst => stranded_step h hl hst) ?_ hu
      · exact ⟨⟨(hinv'.running hr).1, hc, rfl⟩, hsel⟩
      · rw [LTS.along_iff]
        rintro pre n post - rfl -
        exact hns n (by simp)
    refine ⟨hstay.1, ?_⟩
    intro hserved
    simp [(hserved hstay.1).1] at hstay

/-- A peer that closes the channel while the worker runs, and a main thread that does not look at
the descriptor before the worker is done. -/
theorem stranded_iff_slowMain :
    (∀ t, closingChannel.exec (startedWorker (2 ^ 21) 32768)
        [.recvClose, .workerExit, .workerDone] = some t → t.Served) ∧
      ∃ t, closingChannel.exec (startedWorker (2 ^ 21) 32768)
        [.recvClose, .workerExit, .workerDone] = some t ∧ t.Finished := by
  refine ⟨fun t ht => (stranded_iff (2 ^ 21) 32768).1 _ t ?_ ht, ?_⟩
  · exact ⟨fun _ => by decide, fun _ _ => ⟨trivial, fun _ _ => ⟨trivial, fun _ _ => trivial⟩⟩⟩
  · exact ⟨_, rfl, rfl, rfl, rfl⟩

/-- The main thread shuts the socket down, reads the end of the file it has made itself, and only
then the worker stores `PS4_BACKEND_DONE`: the channel is finished, and no descriptor of it is in
the select sets. -/
theorem closed_worker_stranded :
    ∃ t, closingChannel.exec (startedWorker (2 ^ 21) 32768)
        [.recvClose, .channelio 0, .workerExit, .workerDone, .workerClose] = some t ∧
      t.Finished ∧ t.selected = false ∧ ¬ t.Served ∧
      ∀ e, e.isMessage = false → closingChannel.step t e = none := by
  refine ⟨_, rfl, ⟨rfl, rfl, rfl⟩, rfl, ?_, ?_⟩
  · intro h
    exact Bool.false_ne_true (h ⟨rfl, rfl, rfl⟩).1
  · intro e he
    cases e <;> first | rfl | cases he

end Ps4Dropbear
