import Ps4Dropbear.Channel.Conservation
import Ps4Dropbear.Channel.Inbound

/-!
# The way of data to the descriptor, over a channel's life

The life of a channel, with its circular buffer.  CHANNEL_DATA and the write events of `channelio`
are those of `Channel.Inbound`; everything else is a step of `channelLife`.

`accepted` are the bytes of the messages that came while `writefd` was open.  After a failed write
the rest of the message is discarded, to `lost`, and `writefd` is given up for good.

* `Channel.InputKept` : what the other steps leave alone.
* `InboundInv` : nothing is lost or written twice, and the windows never promise too much.
* `delivered_in_order`, `window_accounted` : **the results**.
-/

namespace Ps4Dropbear

/-- The bytes by which the messages extend the peer's window. -/
def adjusted (msgs : List ChanMsg) : ℕ :=
  (msgs.map fun
    | .windowAdjust incr => incr
    | _ => 0).sum

@[simp] theorem adjusted_append (xs ys : List ChanMsg) :
    adjusted (xs ++ ys) = adjusted xs + adjusted ys := by
  simp [adjusted]

/-- The bytes of a CHANNEL_DATA message. -/
def carried (payload : Buffer) : Bytes :=
  match bufGetint payload with
  | .ok (len, payload) =>
    match bufGetptr payload len with
    | .ok data => data
    | .error _ => []
  | .error _ => []

theorem carried_eq {payload : Buffer} {data : Bytes} (h : Inbound.Carries payload data) :
    carried payload = data := by
  obtain ⟨hint, hptr⟩ := h.read
  simp [carried, hint, hptr]

/-- A channel with its worker and its buffer. -/
structure InboundLife where
  life : ChannelLife
  cbuf : Circbuffer
  /-- What `writefd` has been given. -/
  delivered : Bytes := []
  /-- The data that came while `writefd` was open. -/
  accepted : Bytes := []
  /-- The part of it that was discarded. -/
  lost : Bytes := []
  /-- The bytes in all CHANNEL_DATA messages. -/
  received : ℕ := 0

/-- What can happen. -/
inductive InboundEvent
  /-- CHANNEL_DATA, with this payload behind the channel number. -/
  | recvData (payload : Buffer) (w : ChanWrite)
  /-- `channelio` finds `writefd` ready. -/
  | writable (w : ChanWrite)
  /-- Everything else. -/
  | other (e : LifeEvent)

/-- A write fails. -/
def InboundEvent.fails : InboundEvent → Bool
  | .recvData _ w | .writable w => w = .error
  | .other _ => false

/-- The event is CHANNEL_DATA. -/
def InboundEvent.isData : InboundEvent → Bool
  | .recvData _ _ => true
  | _ => false

/-- The event is one of those that are given byte by byte here. -/
def LifeEvent.isInput : LifeEvent → Bool
  | .recvData _ _ | .writable _ => true
  | _ => false

namespace InboundLife

variable (haveWritev : Bool) (R : Restriction) (W : RecvWindow)

/-- The channel, as `common_recv_msg_channel_data` sees it. -/
def inbound (s : InboundLife) : Inbound := ⟨s.life.chan, s.cbuf, s.delivered⟩

/-- The state behind `common_recv_msg_channel_data` or `writechannel`. -/
def resume (s : InboundLife) (t : Inbound) : InboundLife :=
  { s with
    life := { s.life with chan := t.view }
    cbuf := t.cbuf, delivered := t.delivered }

/-- What the peer may still send: the first window and the adjustments, less what has come. -/
def granted (s : InboundLife) : ℕ := W.len + adjusted s.life.chan.sent - s.received

/-- `recv_msg_channel_data`. -/
def recvMsgChannelData (s : InboundLife) (payload : Buffer) (w : ChanWrite) : Option InboundLife :=
  (s.inbound.commonRecvMsgChannelData haveWritev W payload w).toOption.map fun t =>
    { s.resume t with
      received := s.received + (carried payload).length
      accepted := if 0 ≤ s.life.chan.writefd then s.accepted ++ carried payload else s.accepted
      lost := if 0 ≤ s.life.chan.writefd ∧ w = .error then s.lost ++ carried payload
        else s.lost }

/-- `channelio` may write.  `writefd` was set in `setchannelfds`, and the buffer may have been
emptied since. -/
def mayWrite (s : InboundLife) : Bool :=
  s.life.chan.present && !s.life.aborted && (s.life.main == .poll || s.life.main == .checking) &&
    decide (0 ≤ s.life.chan.writefd)

/-- `channelio`, for `writefd`. -/
def writeEvent (s : InboundLife) (w : ChanWrite) : Option InboundLife :=
  (s.inbound.writechannel haveWritev W none w).toOption.map fun r =>
    { s.resume r.2.2 with life := { (s.resume r.2.2).life with main := .checking } }

/-- What a step does, before messages are put on their way. -/
def perform (s : InboundLife) : InboundEvent → Option InboundLife
  | .recvData payload w =>
    if s.life.polling then s.recvMsgChannelData haveWritev W payload w else none
  | .writable w => if s.mayWrite then s.writeEvent haveWritev W w else none
  | .other e =>
    if e.isInput then none
    else (s.life.perform R W.len e).map fun life => { s with life := life }

/-- A channel that has just been opened, by `newchannel`. -/
def opened (type : ChanType) (transwindow transmaxpacket : ℕ) : Except Exit InboundLife := do
  let cbuf ← cbufNew W.len W.pos
  return { life := ChannelLife.opened W.len type transwindow transmaxpacket, cbuf := cbuf }

end InboundLife

/-- A channel with its buffer, with `writev` or without it. -/
def inboundLife (haveWritev : Bool) (R : Restriction) (W : RecvWindow) :
    LTS InboundLife InboundEvent where
  step s e := (s.perform haveWritev R W e).map fun t => { t with life := t.life.transmit }

/-! ### Steps that are not about input -/

namespace Channel

variable {c c' c'' : Channel}

/-- Only a channel that is not a session waits for a connection. -/
def Shaped (c : Channel) : Prop := c.connPending = true → c.type ≠ .session

/-- The input of the channel is left alone, and `writefd` is kept, given up, or set for the first
time. -/
structure InputKept (c c' : Channel) : Prop where
  writebuf : c'.writebuf = c.writebuf
  recvwindow : c'.recvwindow = c.recvwindow
  recvdonelen : c'.recvdonelen = c.recvdonelen
  adjusted : adjusted c'.sent = adjusted c.sent
  writefd : c'.writefd = c.writefd ∨ c'.writefd < 0 ∨ c.Unused ∧ ¬ c'.Unused
  unused : c'.Unused → c.Unused
  shaped : c.Shaped → c'.Shaped

theorem InputKept.refl (c : Channel) : InputKept c c := ⟨rfl, rfl, rfl, rfl, .inl rfl, id, id⟩

theorem InputKept.trans (h : InputKept c c') (h' : InputKept c' c'') : InputKept c c'' where
  writebuf := h'.writebuf.trans h.writebuf
  recvwindow := h'.recvwindow.trans h.recvwindow
  recvdonelen := h'.recvdonelen.trans h.recvdonelen
  adjusted := h'.adjusted.trans h.adjusted
  writefd := by
    rcases h'.writefd with heq | hneg | ⟨hun, hused⟩
    · rcases h.writefd with heq' | hneg' | ⟨hun', hused'⟩
      · exact .inl (heq.trans heq')
      · exact .inr (.inl (heq ▸ hneg'))
      · exact .inr (.inr ⟨hun', fun hn => hused' (h'.unused hn)⟩)
    · exact .inr (.inl hneg)
    · exact .inr (.inr ⟨h.unused hun, hused⟩)
  unused := fun hn => h.unused (h'.unused hn)
  shaped := fun hs => h'.shaped (h.shaped hs)

theorem Shuts.inputKept (h : Shuts c c') : InputKept c c' := by
  obtain ⟨htype, hsess, -, -, -, hpending⟩ := h.keeps
  have hwritefd : c'.writefd = c.writefd ∨ c'.writefd < 0 := h.narrows.2
  refine ⟨?_, ?_, ?_, ?_, hwritefd.imp_right .inl, ?_, ?_⟩
  · rw [h.rest]
  · rw [h.rest]
  · rw [h.rest]
  · rw [h.rest]
  · unfold Unused
    rw [htype, hsess, hpending]
    exact id
  · unfold Shaped
    rw [htype, hpending]
    exact id

/-- Messages that adjust no window. -/
theorem inputKept_send (c : Channel) (msgs : List ChanMsg) (h : Ps4Dropbear.adjusted msgs = 0)
    (sentEof sentClose : Bool) : InputKept c { c with
      sent := c.sent ++ msgs, sentEof := sentEof, sentClose := sentClose } :=
  ⟨rfl, rfl, rfl, by rw [adjusted_append, h, Nat.add_zero], .inl rfl, id, id⟩

theorem adjusted_exitMessages (c : Channel) : Ps4Dropbear.adjusted c.exitMessages = 0 := by
  unfold exitMessages
  split_ifs <;> rfl

theorem sendMsgChannelClose_inputKept (c : Channel) : InputKept c c.sendMsgChannelClose := by
  obtain ⟨d, hshuts, -, -, heq⟩ := sendMsgChannelClose_eq c
  have hmsgs : Ps4Dropbear.adjusted (c.exitMessages ++ [ChanMsg.close]) = 0 := by
    rw [adjusted_append, adjusted_exitMessages]
    rfl
  rw [heq]
  exact (inputKept_send c _ hmsgs true true).trans hshuts.inputKept

theorem removeChannel_inputKept (c : Channel) : InputKept c c.removeChannel := by
  refine ⟨rfl, rfl, rfl, rfl, .inl rfl, ?_, ?_⟩
  · rintro (hs | hp)
    · exact .inl hs
    · cases hp
  · intro _ hp
    cases hp

theorem closeUp_inputKept (c : Channel) (allowed : Bool) :
    InputKept c (c.closeUp allowed) := by
  refine closeUp_rule (P := InputKept c) (.refl c) ?_ ?_ ?_ ?_
  · intro d hd _
    exact hd.trans (closeChanFd_shuts d d.writefd .wr).inputKept
  · intro d hd _ _
    exact hd.trans (inputKept_send d [.eof] rfl true d.sentClose)
  · intro d hd _ _ _
    exact hd.trans (sendMsgChannelClose_inputKept d)
  · intro d hd
    exact hd.trans (removeChannel_inputKept d)

theorem channelConnectDone_inputKept (hshaped : c.Shaped) (hpending : c.connPending = true)
    (sock : Option ℕ) : InputKept c (c.channelConnectDone sock) := by
  cases sock with
  | none =>
    exact (removeChannel_inputKept c).trans
      (inputKept_send c.removeChannel [.openFailure] rfl c.sentEof c.sentClose)
  | some sock =>
    have hused : ¬ (c.channelConnectDone (some sock)).Unused := by
      rintro (⟨htype, -⟩ | hp)
      · exact hshaped hpending htype
      · cases hp
    refine ⟨rfl, rfl, rfl, ?_, .inr (.inr ⟨.inr hpending, hused⟩), fun hn => absurd hn hused, ?_⟩
    · change Ps4Dropbear.adjusted (c.sent ++ [ChanMsg.openConfirmation]) = _
      rw [adjusted_append]
      rfl
    · intro _ hp
      cases hp

theorem withSession_inputKept {cs' : ChanSess}
    (hshaped : c.Shaped) (htype : c.type = .session)
    (h : cs'.writefd = c.writefd ∧ cs'.backendState = c.chansess.backendState ∨
      c.chansess.backendState = .idle ∧
        (cs'.writefd < 0 ∧ cs'.backendState = .idle ∨ cs'.backendState ≠ .idle)) :
    InputKept c (c.withSession cs') := by
  have hpending : ¬ c.connPending = true := fun hp => hshaped hp htype
  have hunused : (c.withSession cs').Unused ↔ cs'.backendState = .idle := by
    simp [Unused, withSession, htype, hpending]
  have hbefore : c.Unused ↔ c.chansess.backendState = .idle := by
    simp [Unused, htype, hpending]
  refine ⟨rfl, rfl, rfl, rfl, ?_, ?_, fun hs hp => hs hp⟩
  · rcases h with ⟨hw, -⟩ | ⟨hidle, ⟨hneg, -⟩ | hstarted⟩
    · exact .inl hw
    · exact .inr (.inl hneg)
    · exact .inr (.inr ⟨hbefore.2 hidle, fun hn => hstarted (hunused.1 hn)⟩)
  · rw [hunused, hbefore]
    intro hi
    rcases h with ⟨-, hstate⟩ | ⟨hidle, -⟩
    · exact hstate ▸ hi
    · exact hidle

end Channel

namespace ChannelLife

open Channel

variable {R : Restriction} {recvWindow : ℕ} {s t : ChannelLife}

theorem recvRequest_inputKept (hs : s.chan.Shaped) {payload : Buffer} {env : LaunchEnv}
    (h : s.recvRequest R payload env = some t) : InputKept s.chan t.chan := by
  rcases recvRequest_cases h with ⟨w, rfl⟩ | ⟨htype, w, ret, started, stores, cs', -, hout, rfl⟩
  · exact .refl _
  change InputKept s.chan (s.handled env s.chan.session cs').chan
  rw [(handled_chan s env s.chan.session cs').1]
  refine withSession_inputKept hs htype ?_
  cases hout with
  | unstarted hun =>
    have hstate : cs'.backendState = s.chan.chansess.backendState := hun.state
    rcases hun.writefd with hw | ⟨hidle, hw⟩
    · exact .inl ⟨hw, hstate⟩
    · replace hidle : s.chan.chansess.backendState = .idle := hidle
      exact .inr ⟨hidle, .inl ⟨by rw [hw]; decide, hstate.trans hidle⟩⟩
  | executed hex => exact .inr ⟨hex.idle, .inr (by simp [hex.state])⟩
  | forked hfork => exact .inr ⟨hfork.idle, .inr (by simp [hfork.state])⟩

/-- **Frame**: a step that is not about input leaves it alone. -/
theorem perform_inputKept {e : LifeEvent} (hs : s.chan.Shaped) (he : e.isInput = false)
    (hst : Performs R s e t) : InputKept s.chan t.chan := by
  have hstate : ∀ c : Channel,
      c = { s.chan with chansess := c.chansess, flushing := c.flushing } →
      (c.chansess.backendState = .idle → s.chan.chansess.backendState = .idle) →
      InputKept s.chan c := by
    intro c hc hidle
    rw [hc]
    exact ⟨rfl, rfl, rfl, rfl, .inl rfl, Or.imp_left (And.imp_right hidle), id⟩
  cases hst with
  | recvData | writable => cases he
  | recvRequest _ _ h => exact recvRequest_inputKept hs h
  | readEnd => exact (closeChanFd_shuts _ _ _).inputKept
  | @readData bytes =>
    have hsent := inputKept_send s.chan [.data bytes] rfl s.chan.sentEof s.chan.sentClose
    exact ⟨rfl, rfl, rfl, hsent.adjusted, .inl rfl, id, id⟩
  | connectDone _ hpending => exact channelConnectDone_inputKept hs hpending _
  | @reply wantreply ret =>
    have hreply : InputKept s.chan (s.chan.sendReply wantreply ret) := by
      unfold Channel.sendReply
      split_ifs
      · exact inputKept_send s.chan [.success] rfl s.chan.sentEof s.chan.sentClose
      · exact inputKept_send s.chan [.failure] rfl s.chan.sentEof s.chan.sentClose
      · exact .refl _
    have hkeeps : (s.chan.sendReply wantreply ret).chansess = s.chan.chansess := by
      unfold Channel.sendReply
      split_ifs <;> rfl
    refine hreply.trans ⟨rfl, rfl, rfl, rfl, .inl rfl, Or.imp_left (And.imp_right ?_), id⟩
    intro hidle
    rw [hkeeps]
    change (s.chan.chansess.answer wantreply ret).backendState = .idle at hidle
    unfold ChanSess.answer at hidle
    dsimp only at hidle
    split_ifs at hidle
    exact hidle
  | check =>
    obtain ⟨flushing, backendFd, cancelFd, heq⟩ := checked_eq s.chan
    simp only [ChannelLife.check, heq]
    exact hstate _ rfl id
  | flush => exact (flush_shuts _ _).inputKept
  | closeUp => exact closeUp_inputKept _ _
  | workerStore h =>
    simp only [workerStore] at h
    cases hw : s.worker <;> rw [hw] at h <;> cases h <;> exact hstate _ rfl id
  | workerDone => exact hstate _ rfl fun hidle => by cases hidle
  | workerClose => exact hstate _ rfl id
  | recvEof | recvClose | recvWindowAdjust | abort | readNothing | signalPending | kexStart
  | kexEnd | workerWriteFails | workerWrite | workerLeave =>
    exact ⟨rfl, rfl, rfl, rfl, .inl rfl, id, id⟩

end ChannelLife

/-! ### Steps on the input -/

namespace Inbound

variable {W : RecvWindow} {s t : Inbound} {data : Bytes} {w : ChanWrite}

/-- The window and the messages about it change together. -/
theorem adjustWindow_granted (W : RecvWindow) (c : Channel) :
    (adjustWindow W c).recvwindow + adjusted c.sent =
        c.recvwindow + adjusted (adjustWindow W c).sent ∧
      (adjustWindow W c).writefd = c.writefd := by
  unfold adjustWindow
  split_ifs
  · refine ⟨?_, rfl⟩
    simp only [adjusted_append]
    have hone : adjusted [.windowAdjust c.recvdonelen] = c.recvdonelen := by simp [adjusted]
    omega
  · exact ⟨rfl, rfl⟩

/-- What a write, or a message with `len` bytes, does to the input: `kept` when it did not fail. -/
structure Balances (s : Inbound) (len : ℕ) (kept : Bool) (t : Inbound) : Prop where
  size : t.cbuf.size = s.cbuf.size
  sum : t.chan.recvwindow + t.chan.recvdonelen + t.cbuf.used ≤
    s.chan.recvwindow + s.chan.recvdonelen + s.cbuf.used
  exact : kept = true → t.chan.recvwindow + t.chan.recvdonelen + t.cbuf.used =
    s.chan.recvwindow + s.chan.recvdonelen + s.cbuf.used
  granted : t.chan.recvwindow + len + adjusted s.chan.sent =
    s.chan.recvwindow + adjusted t.chan.sent
  closed : kept = false → t.chan.writefd < 0

theorem WriteOutcome.balances {ret : Bool} {morelen : ℕ} (h : WriteOutcome s [] w ret morelen t) :
    Balances s 0 ret { t with chan := adjustWindow W t.chan } := by
  have hsum := adjustWindow_sum W t.chan
  obtain ⟨hgranted, hfd⟩ := adjustWindow_granted W t.chan
  cases h with
  | failed =>
    obtain ⟨hopen, hdone, hsent⟩ := closeChanFd_window s.chan s.chan.writefd .wr
    simp only [failWrite] at hsum hgranted hfd
    rw [hopen, hdone] at hsum
    rw [hopen, hsent] at hgranted
    refine ⟨rfl, ?_, fun hkept => absurd hkept Bool.false_ne_true, hgranted, fun _ => ?_⟩
    · simp only [failWrite]
      omega
    · simp only [failWrite]
      rw [hfd, Channel.closeChanFd_writefd]
      decide
  | wrote _ hsize _ hused =>
    simp only [List.length_nil, Nat.zero_sub, Nat.add_zero] at hused
    dsimp only at hsum hgranted
    exact ⟨hsize, by dsimp only; omega, fun _ => by dsimp only; omega, hgranted,
      fun hlost => by cases hlost⟩

theorem Received.balances (hwindow : data.length ≤ s.chan.recvwindow)
    (h : Received W s data w t) :
    ∃ kept, Balances s data.length kept t ∧ (w ≠ .error → kept = true) ∧
      if kept then t.delivered ++ t.cbuf.content = s.delivered ++ s.cbuf.content ++ data ∧
          (w = .error → data = [])
      else t.delivered ++ t.cbuf.content = s.delivered ++ s.cbuf.content ∧ w = .error := by
  cases h with
  | failed hw =>
    have hsum := adjustWindow_sum W ((debit s.chan data.length).closeChanFd s.chan.writefd .wr)
    obtain ⟨hgranted, hfd⟩ :=
      adjustWindow_granted W ((debit s.chan data.length).closeChanFd s.chan.writefd .wr)
    obtain ⟨hopen, hdone, hsent⟩ := closeChanFd_window (debit s.chan data.length) s.chan.writefd .wr
    rw [hopen, hdone] at hsum
    rw [hopen, hsent] at hgranted
    simp only [debit] at hsum hgranted
    refine ⟨false, ⟨rfl, ?_, fun hkept => absurd hkept Bool.false_ne_true, ?_, fun _ => ?_⟩,
      fun hn => absurd hw hn, rfl, hw⟩
    · simp only [debit]
      omega
    · simp only [debit]
      omega
    · dsimp only
      rw [hfd]
      exact (Channel.closeChanFd_writefd (debit s.chan data.length)).trans_lt (by decide)
  | @stored n cbuf delivered hw hsize hused hbytes =>
    have hsum := adjustWindow_sum W { debit s.chan data.length with
      recvdonelen := s.chan.recvdonelen + n }
    obtain ⟨hgranted, -⟩ := adjustWindow_granted W { debit s.chan data.length with
      recvdonelen := s.chan.recvdonelen + n }
    simp only [debit] at hsum hgranted
    refine ⟨true, ⟨hsize, ?_, fun _ => ?_, ?_, fun hlost => by cases hlost⟩, fun _ => rfl,
      hbytes, hw⟩
    · simp only [debit]
      omega
    · simp only [debit]
      omega
    · simp only [debit]
      omega

end Inbound

/-! ### The invariant -/

/-- What holds at all times. -/
structure InboundInv (W : RecvWindow) (s : InboundLife) : Prop where
  sized : s.cbuf.size = W.len
  counted : s.life.chan.writebuf = s.cbuf.used
  shaped : s.life.chan.Shaped
  unused : s.life.chan.Unused → s.life.chan.writefd < 0
  window : s.life.chan.recvwindow + s.life.chan.recvdonelen + s.cbuf.used ≤ W.len
  bytes : s.delivered ++ s.cbuf.content ++ s.lost = s.accepted
  /-- Behind a loss nothing more is written or accepted. -/
  lost : s.lost = [] ∨ s.life.chan.writefd < 0 ∧ ¬ s.life.chan.Unused

namespace InboundLife

open Channel Inbound

variable {haveWritev : Bool} {R : Restriction} {W : RecvWindow} {s t u : InboundLife}
variable {payload : Buffer} {data : Bytes} {w : ChanWrite} {e : LifeEvent}

theorem inboundInv_opened (W : RecvWindow) (type : ChanType) (transwindow transmaxpacket : ℕ) :
    ∃ s, opened W type transwindow transmaxpacket = .ok s ∧ InboundInv W s ∧ s.lost = [] ∧
      s.life.chan.recvwindow = W.len ∧ s.life.chan.recvdonelen = 0 ∧ s.cbuf.used = 0 ∧
      adjusted s.life.chan.sent = 0 ∧ s.received = 0 := by
  have hle : W.len ≤ maxCbufSize := W.le.trans (by decide)
  obtain ⟨c, hc, hsize, hused, hcontent⟩ := cbufNew_ok W.pos hle
  refine ⟨_, by rw [opened, hc]; rfl, ⟨hsize, hused.symm, ?_, fun _ => ?_, ?_, ?_, .inl rfl⟩, rfl,
    rfl, rfl, hused, ?_, rfl⟩
  · intro hp htype
    have htype' : type = .session := htype
    simp [ChannelLife.opened, Channel.opened, htype'] at hp
  · exact (by decide : fdUninit < 0)
  · dsimp only
    rw [hused]
    exact Nat.le_refl _
  · simp [hcontent]
  · simp only [ChannelLife.opened, Channel.opened]
    split_ifs <;> rfl

/-- The input behind a write or a message. -/
theorem resume_frame (hs : InboundInv W s) {t : Inbound} (hr : Relays s.life.chan t.view) :
    (s.resume t).life.chan.Shaped ∧ ((s.resume t).life.chan.Unused ↔ s.life.chan.Unused) ∧
      ((s.resume t).life.chan.writefd = s.life.chan.writefd ∨ t.chan.writefd < 0) := by
  obtain ⟨htype, hsess, -, -, -, hpending⟩ := hr.keeps
  refine ⟨?_, ?_, hr.narrows.2⟩
  · intro hp
    exact htype ▸ hs.shaped (hpending ▸ hp)
  · unfold Unused
    change t.view.type = _ ∧ t.view.chansess.backendState = _ ∨ t.view.connPending = true ↔ _
    rw [htype, hsess, hpending]

theorem inbound_view (hs : InboundInv W s) : s.inbound.view = s.life.chan := by
  unfold inbound Inbound.view
  rw [← hs.counted]

/-- A write event keeps the invariant. -/
theorem inboundInv_written (hs : InboundInv W s) (hfd : 0 ≤ s.life.chan.writefd)
    {ret : Bool} {morelen : ℕ} {t : Inbound}
    (h : WriteOutcome s.inbound [] w ret morelen t) :
    InboundInv W (s.resume { t with chan := adjustWindow W t.chan }) := by
  have hbal := h.balances (W := W)
  obtain ⟨w', href⟩ := writeOutcome_refines hs.window h
  rw [inbound_view hs] at href
  obtain ⟨hshaped, hunused, -⟩ := resume_frame hs (writechannel_relays href hfd)
  have hused : ¬ s.life.chan.Unused := fun hn => absurd (hs.unused hn) (Int.not_lt.2 hfd)
  have hlost : s.lost = [] := hs.lost.resolve_right fun hn => absurd hn.1 (Int.not_lt.2 hfd)
  refine ⟨hbal.size.trans hs.sized, rfl, hshaped, fun hn => absurd (hunused.1 hn) hused,
    hbal.sum.trans hs.window, ?_, .inl hlost⟩
  change t.delivered ++ t.cbuf.content ++ s.lost = s.accepted
  rw [← hs.bytes]
  cases h with
  | failed => rfl
  | wrote _ _ _ _ hbytes =>
    simp only [List.drop_nil, List.append_nil] at hbytes
    simp only [hbytes, inbound]

/-- A message keeps the invariant. -/
theorem inboundInv_received (hs : InboundInv W s) (heof : s.life.chan.recvEof = false)
    (hfd : 0 ≤ s.life.chan.writefd) (hwindow : data.length ≤ s.life.chan.recvwindow)
    {t : Inbound} (h : Received W s.inbound data w t) (n : ℕ) :
    InboundInv W { s.resume t with
      received := n, accepted := s.accepted ++ data
      lost := if w = .error then s.lost ++ data else s.lost } := by
  obtain ⟨kept, hbal, -, hbytes⟩ := h.balances hwindow
  obtain ⟨w', href⟩ := received_refines hs.window heof hfd hwindow h
  rw [inbound_view hs] at href
  obtain ⟨hshaped, hunused, -⟩ := resume_frame hs (commonRecvMsgChannelData_relays href)
  have hused : ¬ s.life.chan.Unused := fun hn => absurd (hs.unused hn) (Int.not_lt.2 hfd)
  have hlost : s.lost = [] := hs.lost.resolve_right fun hn => absurd hn.1 (Int.not_lt.2 hfd)
  have hold := hs.bytes
  rw [hlost, List.append_nil] at hold
  have hnew : t.delivered ++ t.cbuf.content ++ (if w = .error then s.lost ++ data else s.lost) =
      s.accepted ++ data ∧ (kept = true → (if w = .error then s.lost ++ data else s.lost) = []) := by
    rw [hlost, List.nil_append, ← hold]
    cases kept with
    | true =>
      obtain ⟨hstored, hnone⟩ := hbytes
      have hnil : (if w = .error then data else []) = [] := by
        split_ifs with hw
        · exact hnone hw
        · rfl
      rw [hnil, List.append_nil]
      exact ⟨hstored, fun _ => rfl⟩
    | false =>
      obtain ⟨hstored, hw⟩ := hbytes
      rw [if_pos hw, hstored]
      exact ⟨rfl, nofun⟩
  refine ⟨hbal.size.trans hs.sized, rfl, hshaped, fun hn => absurd (hunused.1 hn) hused,
    hbal.sum.trans hs.window, hnew.1, ?_⟩
  cases kept with
  | true => exact .inl (hnew.2 rfl)
  | false => exact .inr ⟨hbal.closed rfl, fun hn => hused (hunused.1 hn)⟩

/-- A step that is not about input keeps the invariant. -/
theorem inboundInv_other (hs : InboundInv W s) {life : ChannelLife}
    (h : InputKept s.life.chan life.chan) : InboundInv W { s with life := life } := by
  refine ⟨hs.sized, h.writebuf.trans hs.counted, h.shaped hs.shaped, fun hn => ?_, ?_, hs.bytes, ?_⟩
  · rcases h.writefd with heq | hneg | ⟨-, hused⟩
    · exact heq ▸ hs.unused (h.unused hn)
    · exact hneg
    · exact absurd hn hused
  · dsimp only
    rw [h.recvwindow, h.recvdonelen]
    exact hs.window
  · refine hs.lost.imp_right fun hl => ⟨?_, fun hn => hl.2 (h.unused hn)⟩
    rcases h.writefd with heq | hneg | ⟨hun, -⟩
    · exact heq ▸ hl.1
    · exact hneg
    · exact absurd hun hl.2

/-- What a step can do. -/
inductive Steps (W : RecvWindow) (s : InboundLife) : InboundEvent → InboundLife → Prop
  | dropped {payload : Buffer} {w : ChanWrite} (hfd : s.life.chan.writefd < 0) :
      Steps W s (.recvData payload w) { s with received := s.received + (carried payload).length }
  | received {payload : Buffer} {data : Bytes} {w : ChanWrite} {t : Inbound}
      (heof : s.life.chan.recvEof = false) (hfd : 0 ≤ s.life.chan.writefd)
      (hdata : Inbound.Carries payload data) (hwindow : data.length ≤ s.life.chan.recvwindow)
      (h : Received W s.inbound data w t) :
      Steps W s (.recvData payload w) { s.resume t with
        received := s.received + data.length, accepted := s.accepted ++ data
        lost := if w = .error then s.lost ++ data else s.lost }
  | written {w : ChanWrite} {ret : Bool} {morelen : ℕ} {t : Inbound}
      (hfd : 0 ≤ s.life.chan.writefd) (h : WriteOutcome s.inbound [] w ret morelen t) :
      Steps W s (.writable w) (s.resume { t with chan := adjustWindow W t.chan })
  | other {e : LifeEvent} {life : ChannelLife} (h : InputKept s.life.chan life.chan) :
      Steps W s (.other e) { s with life := life }

theorem resume_inbound (hs : InboundInv W s) : s.resume s.inbound = s := by
  unfold resume
  rw [inbound_view hs]
  rfl

/-- **Inversion**: a step is one of the cases, but for fields that the input does not touch. -/
theorem step_cases {ev : InboundEvent} (hs : InboundInv W s)
    (h : (inboundLife haveWritev R W).step s ev = some u) :
    ∃ t, Steps W s ev t ∧ u.life.chan = t.life.chan ∧ u = { t with life := u.life } := by
  obtain ⟨t, hperform, rfl⟩ := Option.map_eq_some_iff.1 h
  obtain ⟨wire, hwire⟩ := ChannelLife.transmit_eq t.life
  have hchan : t.life.transmit.chan = t.life.chan := by rw [hwire]
  cases ev with
  | recvData payload w =>
    simp only [perform, Option.ite_none_right_eq_some] at hperform
    obtain ⟨r, hr, rfl⟩ := Option.map_eq_some_iff.1 hperform.2
    have hok : s.inbound.commonRecvMsgChannelData haveWritev W payload w = .ok r := by
      cases hrun : s.inbound.commonRecvMsgChannelData haveWritev W payload w with
      | error e => simp [hrun, Except.toOption] at hr
      | ok r' =>
        rw [hrun] at hr
        cases hr
        rfl
    obtain ⟨heof, ⟨hfd, rfl⟩ | ⟨hfd, data, hdata, hwindow, hreceived⟩⟩ :=
      commonRecvMsgChannelData_cases hs.sized hs.window hok
    · replace hfd : s.life.chan.writefd < 0 := hfd
      refine ⟨_, .dropped hfd, ?_, ?_⟩
      · rw [hchan, resume_inbound hs]
      · simp only [resume_inbound hs, if_neg (Int.not_le.2 hfd),
          if_neg fun hn : _ ∧ _ => absurd hn.1 (Int.not_le.2 hfd)]
    · replace hfd : 0 ≤ s.life.chan.writefd := hfd
      have hlost : (if 0 ≤ s.life.chan.writefd ∧ w = .error then s.lost ++ data else s.lost) =
          if w = .error then s.lost ++ data else s.lost := by simp only [hfd, true_and]
      refine ⟨_, .received heof hfd hdata hwindow hreceived, hchan, ?_⟩
      simp only [if_pos hfd, carried_eq hdata, hlost]
  | writable w =>
    simp only [perform, Option.ite_none_right_eq_some, mayWrite, Bool.and_eq_true,
      decide_eq_true_eq] at hperform
    obtain ⟨⟨-, hfd⟩, hperform⟩ := hperform
    obtain ⟨r, hr, rfl⟩ := Option.map_eq_some_iff.1 hperform
    obtain ⟨ret, morelen, t, hok, hout⟩ :=
      writechannel_ok (s := s.inbound) none hs.sized hs.window haveWritev w
    rw [hok] at hr
    cases hr
    exact ⟨_, .written hfd hout, hchan, rfl⟩
  | other e =>
    simp only [perform, Option.ite_none_left_eq_some] at hperform
    obtain ⟨he, hperform⟩ := hperform
    obtain ⟨life, hlife, rfl⟩ := Option.map_eq_some_iff.1 hperform
    have hframe := ChannelLife.perform_inputKept hs.shaped (by simpa using he)
      (ChannelLife.perform_cases hlife)
    exact ⟨_, .other hframe, hchan, rfl⟩

theorem inboundInv_step {ev : InboundEvent} (hs : InboundInv W s)
    (hst : (inboundLife haveWritev R W).step s ev = some u) : InboundInv W u := by
  obtain ⟨t, hsteps, hchan, hu⟩ := step_cases hs hst
  have ht : InboundInv W t := by
    cases hsteps with
    | dropped =>
      exact ⟨hs.sized, hs.counted, hs.shaped, hs.unused, hs.window, hs.bytes, hs.lost⟩
    | received heof hfd _ hwindow h => exact inboundInv_received hs heof hfd hwindow h _
    | written hfd h => exact inboundInv_written hs hfd h
    | other h => exact inboundInv_other hs h
  rw [hu]
  exact inboundInv_other ht (hchan ▸ .refl _)

/-- A message within the window is handled. -/
theorem step_recvData (hs : InboundInv W s) (hpoll : s.life.polling = true)
    (heof : s.life.chan.recvEof = false) (hfd : 0 ≤ s.life.chan.writefd)
    (hdata : Inbound.Carries payload data) (hwindow : data.length ≤ s.life.chan.recvwindow) :
    ∃ u, (inboundLife haveWritev R W).step s (.recvData payload w) = some u ∧
      u.accepted = s.accepted ++ data := by
  obtain ⟨r, hok, -⟩ :=
    commonRecvMsgChannelData_ok (s := s.inbound) hs.sized hs.window heof hfd hdata hwindow
      haveWritev w
  simp only [inboundLife, perform, hpoll, if_true, recvMsgChannelData, hok, Except.toOption,
    Option.map_some, Option.some.injEq, exists_eq_left', if_pos hfd, carried_eq hdata]

/-- A write event is handled. -/
theorem step_writable (hs : InboundInv W s) (hmay : s.mayWrite = true) (w : ChanWrite) :
    ∃ u, (inboundLife haveWritev R W).step s (.writable w) = some u := by
  obtain ⟨ret, morelen, t, hok, -⟩ :=
    writechannel_ok (s := s.inbound) none hs.sized hs.window haveWritev w
  simp only [inboundLife, perform, hmay, if_true, writeEvent, hok, Except.toOption,
    Option.map_some, Option.some.injEq, exists_eq']

/-- Without a failed write nothing is lost. -/
theorem lost_step {ev : InboundEvent} (hs : InboundInv W s) (hev : ev.fails = false)
    (hst : (inboundLife haveWritev R W).step s ev = some u) (hlost : s.lost = []) :
    u.lost = [] := by
  obtain ⟨t, hsteps, -, hu⟩ := step_cases hs hst
  rw [hu]
  cases hsteps with
  | dropped | written | other => exact hlost
  | received =>
    have hw := of_decide_eq_false hev
    exact (if_neg hw).trans hlost

/-- The window is spent on what has been written and on what waits in the buffer, and the peer may
send as much as `recvwindow` says. -/
structure Accounted (W : RecvWindow) (s : InboundLife) : Prop where
  sum : s.life.chan.recvwindow + s.life.chan.recvdonelen + s.cbuf.used = W.len
  peer : s.life.chan.recvwindow + s.received = W.len + adjusted s.life.chan.sent

theorem Accounted.granted (h : Accounted W s) : s.life.chan.recvwindow = s.granted W := by
  have hpeer := h.peer
  unfold InboundLife.granted
  omega

/-- A step keeps the account, unless data comes to a closed descriptor or a write fails. -/
theorem accounted_step {ev : InboundEvent} (hs : InboundInv W s) (h : Accounted W s)
    (hev : ev.fails = false) (hdata : ev.isData = true → 0 ≤ s.life.chan.writefd)
    (hst : (inboundLife haveWritev R W).step s ev = some u) : Accounted W u := by
  obtain ⟨t, hsteps, hchan, hu⟩ := step_cases hs hst
  have ht : Accounted W t := by
    cases hsteps with
    | dropped hfd => exact absurd hfd (Int.not_lt.2 (hdata rfl))
    | @received payload data w r _ _ _ hwindow hr =>
      obtain ⟨kept, hbal, hkept, -⟩ := hr.balances hwindow
      have hexact := hbal.exact (hkept (of_decide_eq_false hev))
      have hgranted := hbal.granted
      have hpeer := h.peer
      refine ⟨hexact.trans h.sum, ?_⟩
      change r.chan.recvwindow + (s.received + data.length) = W.len + adjusted r.chan.sent
      simp only [inbound] at hgranted
      omega
    | @written w ret _ r _ hr =>
      have hbal := hr.balances (W := W)
      have hret : ret = true := by
        cases hr with
        | failed hw => exact absurd hw (of_decide_eq_false hev)
        | wrote => rfl
      have hgranted := hbal.granted
      have hpeer := h.peer
      refine ⟨(hbal.exact hret).trans h.sum, ?_⟩
      change (adjustWindow W r.chan).recvwindow + s.received =
        W.len + adjusted (adjustWindow W r.chan).sent
      simp only [inbound] at hgranted
      omega
    | other hframe =>
      refine ⟨?_, ?_⟩
      · dsimp only
        rw [hframe.recvwindow, hframe.recvdonelen]
        exact h.sum
      · dsimp only
        rw [hframe.recvwindow, hframe.adjusted]
        exact h.peer
  rw [hu]
  refine ⟨?_, ?_⟩
  · dsimp only
    rw [hchan]
    exact ht.sum
  · dsimp only
    rw [hchan]
    exact ht.peer

/-- A channel that has got its descriptor keeps it or gives it up for good. -/
theorem writefd_step {ev : InboundEvent} (hs : InboundInv W s) (hused : ¬ s.life.chan.Unused)
    (hst : (inboundLife haveWritev R W).step s ev = some u) :
    ¬ u.life.chan.Unused ∧ (s.life.chan.writefd < 0 → u.life.chan.writefd < 0) := by
  obtain ⟨t, hsteps, hchan, -⟩ := step_cases hs hst
  rw [hchan]
  cases hsteps with
  | dropped => exact ⟨hused, id⟩
  | received heof hfd _ hwindow hr =>
    obtain ⟨w', href⟩ := received_refines hs.window heof hfd hwindow hr
    rw [inbound_view hs] at href
    obtain ⟨-, hunused, -⟩ := resume_frame hs (commonRecvMsgChannelData_relays href)
    exact ⟨fun hn => hused (hunused.1 hn), fun hneg => absurd hneg (Int.not_lt.2 hfd)⟩
  | written hfd hr =>
    obtain ⟨w', href⟩ := writeOutcome_refines hs.window hr
    rw [inbound_view hs] at href
    obtain ⟨-, hunused, -⟩ := resume_frame hs (writechannel_relays href hfd)
    exact ⟨fun hn => hused (hunused.1 hn), fun hneg => absurd hneg (Int.not_lt.2 hfd)⟩
  | other hframe =>
    refine ⟨fun hn => hused (hframe.unused hn), fun hneg => ?_⟩
    rcases hframe.writefd with heq | hneg' | ⟨hun, -⟩
    · exact heq ▸ hneg
    · exact hneg'
    · exact absurd hun hused

/-- The peer keeps to the window that it has been granted, and the write does not fail. -/
def WithinGrant (W : RecvWindow) (s : InboundLife) : InboundEvent → Prop
  | .recvData payload w =>
    w ≠ .error ∧ ∃ data, Inbound.Carries payload data ∧ data.length ≤ s.granted W
  | .writable w => w ≠ .error
  | .other _ => True

theorem WithinGrant.fails {ev : InboundEvent} (h : WithinGrant W s ev) : ev.fails = false := by
  cases ev with
  | recvData payload w => exact decide_eq_false h.1
  | writable w => exact decide_eq_false h
  | other e => rfl

end InboundLife

open InboundLife

variable {haveWritev : Bool} {R : Restriction} {W : RecvWindow} {type : ChanType}
variable {transwindow transmaxpacket : ℕ} {s₀ s t : InboundLife} {evs : List InboundEvent}

/-- **Data is delivered in order.**  In every run of a channel, with `writev` or without it, what the
descriptor has been given is a prefix of the data that was accepted; without a failed write the rest
is in the buffer.  Every message within the window is accepted, and every write event is
handled. -/
theorem delivered_in_order (hopen : opened W type transwindow transmaxpacket = .ok s₀)
    (h : (inboundLife haveWritev R W).exec s₀ evs = some t) :
    t.delivered <+: t.accepted ∧
      ((∀ ev ∈ evs, ev.fails = false) → t.delivered ++ t.cbuf.content = t.accepted) ∧
      (∀ payload data w, t.life.polling = true → t.life.chan.recvEof = false →
        0 ≤ t.life.chan.writefd → Inbound.Carries payload data →
        data.length ≤ t.life.chan.recvwindow →
        ∃ u, (inboundLife haveWritev R W).step t (.recvData payload w) = some u ∧
          u.accepted = t.accepted ++ data) ∧
      ∀ w, t.mayWrite = true →
        ∃ u, (inboundLife haveWritev R W).step t (.writable w) = some u := by
  obtain ⟨s, hs, hinv₀, hlost₀, -⟩ := inboundInv_opened W type transwindow transmaxpacket
  obtain rfl : s = s₀ := by simpa using hs.symm.trans hopen
  have hinv : InboundInv W t :=
    LTS.exec_invariant' hinv₀ (fun _ _ _ hI hst => inboundInv_step hI hst) h
  refine ⟨⟨t.cbuf.content ++ t.lost, ?_⟩, fun hfails => ?_, ?_, fun w hmay => ?_⟩
  · rw [← List.append_assoc]
    exact hinv.bytes
  · have hlost : InboundInv W t ∧ t.lost = [] := by
      refine LTS.exec_invariant (C := fun _ ev => ev.fails = false)
        (I := fun s => InboundInv W s ∧ s.lost = []) ⟨hinv₀, hlost₀⟩ ?_
        (LTS.along_of_forall (fun ev hev _ => hfails ev hev) s) h
      intro s ev s' hI hev hst
      exact ⟨inboundInv_step hI.1 hst, lost_step hI.1 hev hst hI.2⟩
    rw [← hinv.bytes, hlost.2, List.append_nil]
  · intro payload data w hpoll heof hfd hdata hwindow
    exact step_recvData hinv hpoll heof hfd hdata hwindow
  · exact step_writable hinv hmay w

/-- A window of ten bytes. -/
def smallWindow : RecvWindow := ⟨10, by decide, by decide⟩

/-- A connection to be forwarded, with the small window. -/
def smallChannel : InboundLife where
  life := ChannelLife.opened 10 .directTcpip 1000 1000
  cbuf :=
    { size := 10, readpos := 0, writepos := 0, used := 0, data := none
      size_pos := by decide, size_le := by decide, readpos_lt := by decide
      used_le := by decide, writepos_eq := rfl, length_data := nofun }

theorem opened_smallWindow : opened smallWindow .directTcpip 1000 1000 = .ok smallChannel := rfl

/-- The payload of CHANNEL_DATA, behind the channel number. -/
def dataPayload (data : Bytes) (h : (sshString data).length ≤ bufMaxSize) : Buffer :=
  .ofBytes (sshString data) h

/-- The connection is made. -/
def connects : List InboundEvent := [.other (.connectDone (some 5))]

/-- `channelio` writes, and `check_close` follows. -/
def writes (n : ℕ) : List InboundEvent :=
  .writable (.wrote n) :: checkCloseEvents.map InboundEvent.other

/-- A message with two short writes. -/
def shortWrites : List InboundEvent :=
  .recvData (dataPayload (ascii "abcdefgh") (by decide)) (.wrote 3) :: writes 2

/-- A message for which the descriptor is not ready. -/
def laterWrites : List InboundEvent :=
  .recvData (dataPayload (ascii "ijklm") (by decide)) .again :: writes 4

/-- The last message goes around the end of the buffer. -/
def wraps : List InboundEvent :=
  shortWrites ++ laterWrites ++
    [InboundEvent.recvData (dataPayload (ascii "nopqrs") (by decide)) (.wrote 1)]

theorem delivered_in_order_wraps : ∃ t : InboundLife,
    (inboundLife true unrestricted smallWindow).exec smallChannel (connects ++ wraps) = some t ∧
    t.delivered = ascii "abcdefghij" ∧ t.cbuf.content = ascii "klmnopqrs" ∧
    t.delivered ++ t.cbuf.content = t.accepted := by
  have hrun : ((inboundLife true unrestricted smallWindow).exec smallChannel
      (connects ++ wraps)).map (fun t => (t.delivered, t.cbuf.content)) =
      some (ascii "abcdefghij", ascii "klmnopqrs") := by
    decide
  obtain ⟨t, ht, heq⟩ := Option.map_eq_some_iff.1 hrun
  refine ⟨t, ht, congrArg Prod.fst heq, congrArg Prod.snd heq, ?_⟩
  exact (delivered_in_order opened_smallWindow ht).2.1 (by decide)

/-- **The receive window is accounted for.**  `writefd` was open before any data came and is open
now, no write has failed, and the peer has kept to its window: the window, what has been written and
what waits in the buffer are `opts.recv_window` together, `recvwindow` is what the peer may still
send, and no assertion fails on its next message or in the next write event. -/
theorem window_accounted (hopen : opened W type transwindow transmaxpacket = .ok s₀)
    {before : List InboundEvent} (hbefore : ∀ ev ∈ before, ev.isData = false ∧ ev.fails = false)
    (h₀ : (inboundLife haveWritev R W).exec s₀ before = some s) (hfd : 0 ≤ s.life.chan.writefd)
    (hgrant : (inboundLife haveWritev R W).Along (WithinGrant W) s evs)
    (h : (inboundLife haveWritev R W).exec s evs = some t) (hfd' : 0 ≤ t.life.chan.writefd) :
    t.life.chan.recvwindow + t.life.chan.recvdonelen + cbufGetused t.cbuf = W.len ∧
      t.life.chan.recvwindow = t.granted W ∧
      (∀ payload data w, t.life.polling = true → t.life.chan.recvEof = false →
        Inbound.Carries payload data → data.length ≤ t.granted W →
        ∃ u, (inboundLife haveWritev R W).step t (.recvData payload w) = some u) ∧
      ∀ w, t.mayWrite = true →
        ∃ u, (inboundLife haveWritev R W).step t (.writable w) = some u := by
  obtain ⟨s₁, hs₁, hinv₀, -, hwin, hdone, hused, hadj, hrec⟩ :=
    inboundInv_opened W type transwindow transmaxpacket
  obtain rfl : s₁ = s₀ := by simpa using hs₁.symm.trans hopen
  -- before the first data the account is kept whether or not the descriptor is open
  have hs : InboundInv W s ∧ Accounted W s := by
    refine LTS.exec_invariant (C := fun _ ev => ev.isData = false ∧ ev.fails = false)
      (I := fun s => InboundInv W s ∧ Accounted W s) ⟨hinv₀, ?_⟩ ?_
      (LTS.along_of_forall (fun ev hev _ => hbefore ev hev) s₁) h₀
    · exact ⟨by omega, by omega⟩
    · intro s ev s' hI hev hst
      exact ⟨inboundInv_step hI.1 hst,
        accounted_step hI.1 hI.2 hev.2 (fun hd => by simp [hev.1] at hd) hst⟩
  have hstarted : ¬ s.life.chan.Unused := fun hn => absurd (hs.1.unused hn) (Int.not_lt.2 hfd)
  -- from then on it is kept until the descriptor is given up
  have ht : InboundInv W t ∧ ¬ t.life.chan.Unused ∧
      (t.life.chan.writefd < 0 ∨ Accounted W t) := by
    refine LTS.exec_invariant (C := WithinGrant W)
      (I := fun s => InboundInv W s ∧ ¬ s.life.chan.Unused ∧
        (s.life.chan.writefd < 0 ∨ Accounted W s)) ⟨hs.1, hstarted, .inr hs.2⟩ ?_ hgrant h
    rintro s ev s' ⟨hinv, hun, hI⟩ hev hst
    obtain ⟨hun', hclosed⟩ := writefd_step hinv hun hst
    refine ⟨inboundInv_step hinv hst, hun', ?_⟩
    rcases hI with hneg | hacc
    · exact .inl (hclosed hneg)
    · by_cases hneg : s.life.chan.writefd < 0
      · exact .inl (hclosed hneg)
      · exact .inr (accounted_step hinv hacc hev.fails (fun _ => Int.not_lt.1 hneg) hst)
  obtain ⟨hinv, -, hacc⟩ := ht
  replace hacc := hacc.resolve_left (Int.not_lt.2 hfd')
  refine ⟨hacc.sum, hacc.granted, ?_, fun w hmay => step_writable hinv hmay w⟩
  intro payload data w hpoll heof hdata hlen
  rw [← hacc.granted] at hlen
  obtain ⟨u, hu, -⟩ := step_recvData (w := w) hinv hpoll heof hfd' hdata hlen
  exact ⟨u, hu⟩

theorem carries_dataPayload {data : Bytes} {h : (sshString data).length ≤ bufMaxSize}
    (hlt : data.length < 2 ^ 32) : Inbound.Carries (dataPayload data h) data :=
  ⟨hlt, [], by simp [dataPayload, Buffer.rest, Buffer.ofBytes]⟩

/-- A message within the grant, for a state that a run leads to. -/
theorem withinGrant_of_run {pre : List InboundEvent} {n : ℕ} {data : Bytes} {w : ChanWrite}
    (hn : ((inboundLife haveWritev R W).exec s₀ pre).map (·.granted W) = some n)
    (hs : (inboundLife haveWritev R W).exec s₀ pre = some s) (hw : w ≠ .error)
    (hlen : data.length ≤ n) (h : (sshString data).length ≤ bufMaxSize) :
    WithinGrant W s (.recvData (dataPayload data h) w) := by
  have hgranted : s.granted W = n := by simpa [hs] using hn
  have hlt : data.length < 2 ^ 32 := by
    rw [length_sshString] at h
    simp only [bufMaxSize] at h
    omega
  exact ⟨hw, data, carries_dataPayload hlt, by omega⟩

theorem window_accounted_wraps : ∃ t : InboundLife,
    (inboundLife true unrestricted smallWindow).exec smallChannel (connects ++ wraps) = some t ∧
    t.life.chan.recvwindow + t.life.chan.recvdonelen + cbufGetused t.cbuf = 10 ∧
    t.life.chan.recvwindow = t.granted smallWindow := by
  have hrun : ((inboundLife true unrestricted smallWindow).exec smallChannel
      (connects ++ wraps)).map (fun t => decide (0 ≤ t.life.chan.writefd)) = some true := by
    decide
  have hconnected : ((inboundLife true unrestricted smallWindow).exec smallChannel
      connects).map (fun t => decide (0 ≤ t.life.chan.writefd)) = some true := by
    decide
  obtain ⟨t, ht, hfd'⟩ := Option.map_eq_some_iff.1 hrun
  obtain ⟨s, hs, hrest⟩ := LTS.exec_append_eq_some.1 ht
  have hfd : 0 ≤ s.life.chan.writefd := by simpa [hs] using hconnected
  have hwrites : ∀ (n : ℕ) (s : InboundLife),
      (inboundLife true unrestricted smallWindow).Along (WithinGrant smallWindow) s (writes n) :=
    fun n s => LTS.along_of_forall (by simp [writes, checkCloseEvents, WithinGrant]) s
  have hgrant : (inboundLife true unrestricted smallWindow).Along (WithinGrant smallWindow) s
      wraps := by
    refine LTS.along_append (LTS.along_append ⟨?_, fun s' _ => hwrites 2 s'⟩ fun s₁ h₁ =>
      ⟨?_, fun s' _ => hwrites 4 s'⟩) fun s₂ h₂ => ⟨?_, fun _ _ => trivial⟩
    · refine withinGrant_of_run (n := 10) (by decide) hs ?_ ?_ _
      · decide
      · decide
    · refine withinGrant_of_run (n := 5) (by decide)
        (LTS.exec_append_eq_some.2 ⟨s, hs, h₁⟩) ?_ ?_ _
      · decide
      · decide
    · refine withinGrant_of_run (n := 6) (by decide)
        (LTS.exec_append_eq_some.2 ⟨s, hs, h₂⟩) ?_ ?_ _
      · decide
      · decide
  obtain ⟨hsum, hpeer, -⟩ := window_accounted opened_smallWindow (by decide) hs hfd hgrant hrest
    (of_decide_eq_true hfd')
  exact ⟨t, ht, hsum, hpeer⟩

end Ps4Dropbear
