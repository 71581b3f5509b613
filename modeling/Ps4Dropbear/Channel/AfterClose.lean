import Ps4Dropbear.Channel.ForcedCommand
import Ps4Dropbear.Channel.Lifecycle

/-!
# After CHANNEL_CLOSE

`send_msg_channel_close` gives up all descriptors of a channel, so that nothing more can be read
for it.  But a CHANNEL_EOF that arrives while the descriptors are uninitialised closes them too, and
with them the channel; a connection that completes then, or a command that is started then, puts
descriptors back into a channel whose CLOSE has been sent.

* `Channel.Quiet` : what holds of a channel as long as that does not happen.
* `channelLife_quiet` : no traffic follows CLOSE in a run in which it does not happen.
* `channelLife_traffic_after_close` : it happens on the channels of both kinds.
-/

namespace Ps4Dropbear

/-- CHANNEL_DATA, CHANNEL_EOF and CHANNEL_OPEN_CONFIRMATION. -/
def ChanMsg.isTraffic : ChanMsg → Bool
  | .data _ | .eof | .openConfirmation => true
  | _ => false

/-- No traffic and no second CLOSE comes behind a CLOSE. -/
def SilentAfterClose (msgs : List ChanMsg) : Prop :=
  ∀ pre post, msgs = pre ++ ChanMsg.close :: post → ∀ m ∈ post, m.isTraffic = false ∧ m ≠ .close

/-- **The property**: nothing but replies and window adjustments behind CLOSE, EOF and CLOSE at
most once, and no failed assertion. -/
structure QuietAfterClose (s : ChannelLife) : Prop where
  silent : SilentAfterClose s.chan.sent
  eofOnce : s.chan.sent.count .eof ≤ 1
  closeOnce : s.chan.sent.count .close ≤ 1
  asserted : s.aborted = false

/-- **The condition**: once CLOSE has been sent, no connection completes for the channel and no
command is started on it. -/
def KeepsClosed (R : Restriction) (s : ChannelLife) : LifeEvent → Prop
  | .connectDone (some _) => s.chan.sentClose = false
  | .recvRequest payload env => s.chan.sentClose = true →
    ∀ s', s.recvRequest R payload env = some s' → s'.commands = s.commands
  | _ => True

theorem SilentAfterClose.append {msgs : List ChanMsg} {m : ChanMsg} (h : SilentAfterClose msgs)
    (hm : m.isTraffic = false ∧ m ≠ .close ∨ .close ∉ msgs) : SilentAfterClose (msgs ++ [m]) := by
  intro pre post heq x hx
  rcases List.eq_nil_or_concat post with rfl | ⟨init, last, rfl⟩
  · cases hx
  · rw [List.concat_eq_append, ← List.cons_append, ← List.append_assoc] at heq
    obtain ⟨hmsgs, hlast⟩ := List.append_inj' heq rfl
    simp only [List.cons.injEq, and_true] at hlast
    subst hlast
    rw [List.concat_eq_append, List.mem_append, List.mem_singleton] at hx
    rcases hx with hx | rfl
    · exact h pre init hmsgs x hx
    · rcases hm with hm | hm
      · exact hm
      · exact absurd (by rw [hmsgs]; simp) hm

namespace Channel

variable {c c' : Channel}

/-- What holds of a channel in which CLOSE stays the last word. -/
structure Quiet (c : Channel) : Prop where
  errfd : c.errfd = fdClosed
  closed : c.sentClose = true →
    c.readfd = fdClosed ∧ c.writefd = fdClosed ∧ c.sentEof = true
  noEof : c.sentEof = false → .eof ∉ c.sent
  noClose : c.sentClose = false → .close ∉ c.sent
  eofOnce : c.sent.count .eof ≤ 1
  closeOnce : c.sent.count .close ≤ 1
  silent : SilentAfterClose c.sent

theorem Quiet.shuts (h : Quiet c) (hs : Shuts c c') : Quiet c' := by
  obtain ⟨hread, hwrite, herr⟩ := hs.closed
  have hsent : c'.sent = c.sent := by rw [hs.rest]
  have heof : c'.sentEof = c.sentEof := by rw [hs.rest]
  have hclose : c'.sentClose = c.sentClose := by rw [hs.rest]
  refine ⟨herr h.errfd, fun hc => ?_, ?_, ?_, ?_, ?_, ?_⟩
  · obtain ⟨hr, hw, he⟩ := h.closed (hclose ▸ hc)
    exact ⟨hread hr, hwrite hw, heof.trans he⟩
  · rw [heof, hsent]
    exact h.noEof
  · rw [hclose, hsent]
    exact h.noClose
  · exact hsent ▸ h.eofOnce
  · exact hsent ▸ h.closeOnce
  · exact hsent ▸ h.silent

/-- A message other than EOF and CLOSE; traffic only before CLOSE. -/
theorem Quiet.send {m : ChanMsg} (h : Quiet c) (heof : m ≠ .eof) (hclose : m ≠ .close)
    (hm : m.isTraffic = false ∨ c.sentClose = false) :
    Quiet { c with sent := c.sent ++ [m] } where
  errfd := h.errfd
  closed := h.closed
  noEof he := by simpa [heof.symm] using h.noEof he
  noClose hc := by simpa [hclose.symm] using h.noClose hc
  eofOnce := by simpa [heof] using h.eofOnce
  closeOnce := by simpa [hclose] using h.closeOnce
  silent := h.silent.append (hm.imp (⟨·, hclose⟩) h.noClose)

theorem Quiet.sendMsgChannelEof (h : Quiet c) (he : c.sentEof = false) :
    Quiet c.sendMsgChannelEof := by
  have hc : c.sentClose = false := by
    by_contra hc
    simp [(h.closed (by simpa using hc)).2.2] at he
  refine ⟨h.errfd, fun hc' => ?_, fun hn => ?_, fun _ => ?_, ?_, ?_, ?_⟩
  · simp [Channel.sendMsgChannelEof, hc] at hc'
  · cases hn
  · simpa [Channel.sendMsgChannelEof] using h.noClose hc
  · simp [Channel.sendMsgChannelEof, List.count_eq_zero.2 (h.noEof he)]
  · simpa [Channel.sendMsgChannelEof] using h.closeOnce
  · exact h.silent.append (.inr (h.noClose hc))

/-- The close handler sends at most one message, which is no traffic. -/
theorem exitMessages_cases (c : Channel) :
    c.exitMessages = [] ∨ ∃ m, c.exitMessages = [m] ∧ m ≠ .eof ∧ m ≠ .close ∧
      m.isTraffic = false := by
  unfold exitMessages
  split_ifs
  · exact .inr ⟨_, rfl, by simp, by simp, rfl⟩
  · exact .inr ⟨_, rfl, by simp, by simp, rfl⟩
  · exact .inl rfl

theorem Quiet.sendMsgChannelClose (h : Quiet c) (hc : c.sentClose = false) :
    Quiet c.sendMsgChannelClose := by
  -- the exit status first, then CLOSE
  have hexit : Quiet { c with sent := c.sent ++ c.exitMessages } := by
    rcases exitMessages_cases c with he | ⟨m, he, heof, hclose, hm⟩
    · rw [he, List.append_nil]
      exact h
    · rw [he]
      exact h.send heof hclose (.inl hm)
  have hno : ChanMsg.close ∉ c.sent ++ c.exitMessages := hexit.noClose hc
  set d : Channel := { c with
    sent := c.sent ++ (c.exitMessages ++ [ChanMsg.close])
    sentEof := true, sentClose := true } with hd
  have hsent : d.sent = (c.sent ++ c.exitMessages) ++ [ChanMsg.close] := by
    rw [hd, List.append_assoc]
  have hs := closeAll_shuts d
  obtain ⟨hread, hwrite⟩ := closeAll_closed d
  have hkeep : d.closeAll.sent = d.sent ∧ d.closeAll.sentEof = true ∧
      d.closeAll.sentClose = true := by
    rw [hs.rest]
    exact ⟨rfl, rfl, rfl⟩
  obtain ⟨ksent, keof, kclose⟩ := hkeep
  change Quiet d.closeAll
  refine ⟨hs.closed.2.2 h.errfd, fun _ => ⟨hread, hwrite, keof⟩, ?_, ?_, ?_, ?_, ?_⟩
  · rw [keof]
    exact fun hn => by cases hn
  · rw [kclose]
    exact fun hn => by cases hn
  · rw [ksent, hsent]
    simpa using hexit.eofOnce
  · rw [ksent, hsent, List.count_append, List.count_eq_zero.2 hno]
    simp
  · rw [ksent, hsent]
    exact hexit.silent.append (.inr hno)

theorem Quiet.removeChannel (h : Quiet c) : Quiet c.removeChannel :=
  ⟨h.1, h.2, h.3, h.4, h.5, h.6, h.7⟩

/-! ### `check_close` -/

theorem Quiet.checked (h : Quiet c) : Quiet c.checked.2 := by
  obtain ⟨flushing, backendFd, cancelFd, heq⟩ := checked_eq c
  rw [heq]
  exact ⟨h.1, h.2, h.3, h.4, h.5, h.6, h.7⟩

theorem Quiet.closeUp (h : Quiet c) (allowed : Bool) : Quiet (c.closeUp allowed) :=
  closeUp_rule h (fun _ hd _ => hd.shuts (closeChanFd_shuts _ _ _))
    (fun _ hd he _ => hd.sendMsgChannelEof he) (fun _ hd hs _ _ => hd.sendMsgChannelClose hs)
    (fun _ hd => hd.removeChannel)

/-! ### Data -/

theorem Quiet.relays (h : Quiet c) (hr : Relays c c') : Quiet c' := by
  obtain ⟨d, adjusts, writebuf, recvwindow, recvdonelen, hd, hadjusts, rfl⟩ := hr
  have hquiet : Quiet d := by
    rcases hd with rfl | ⟨-, rfl⟩
    · exact h
    · exact h.shuts (closeChanFd_shuts _ _ _)
  have hall : Quiet { d with sent := d.sent ++ adjusts } := by
    rcases hadjusts with rfl | ⟨incr, rfl⟩
    · simpa using hquiet
    · exact hquiet.send (m := .windowAdjust incr) (by simp) (by simp) (.inl rfl)
  exact ⟨hall.1, hall.2, hall.3, hall.4, hall.5, hall.6, hall.7⟩

end Channel

namespace ChannelLife

open Channel

variable {R : Restriction} {recvWindow : ℕ} {s t : ChannelLife}

/-- The handler of a request keeps a channel quiet, if it starts a command before CLOSE only. -/
theorem withSession_quiet {c : Channel} {env : LaunchEnv} {cs' : ChanSess} {started : Bool}
    {stores : List BackendStore} (hc : Quiet c) (h : Outcome env c.session cs' started stores)
    (hs : c.sentClose = true → started = false) : Quiet (c.withSession cs') := by
  have hopen : started = true → c.sentClose = false := by
    intro hst
    by_contra hn
    rw [hs (by simpa using hn)] at hst
    cases hst
  have hflags : ∀ hcs : c.sentClose = true → cs'.readfd = fdClosed ∧ cs'.writefd = fdClosed,
      cs'.errfd = fdClosed → Quiet (c.withSession cs') := fun hcs herr =>
    ⟨herr, fun hcl => ⟨(hcs hcl).1, (hcs hcl).2, (hc.closed hcl).2.2⟩, hc.noEof, hc.noClose,
      hc.eofOnce, hc.closeOnce, hc.silent⟩
  cases h with
  | unstarted h =>
    refine hflags (fun hcl => ?_) (h.errfd.trans hc.errfd)
    obtain ⟨hr, hw, -⟩ := hc.closed hcl
    exact ⟨h.readfd.trans hr, h.writefd.elim (·.trans hw) And.right⟩
  | executed h => exact hflags (fun hcl => by simp [hopen rfl] at hcl) h.errfd
  | forked h => exact hflags (fun hcl => by simp [hopen rfl] at hcl) h.errfd

theorem handled_chan (s : ChannelLife) (env : LaunchEnv) (cs cs' : ChanSess) :
    (s.handled env cs cs').chan = s.chan.withSession cs' ∧
      (s.handled env cs cs').aborted = s.aborted ∧ (s.handled env cs cs').wire = s.wire := by
  unfold handled
  dsimp only
  split_ifs <;> exact ⟨rfl, rfl, rfl⟩

theorem recvRequest_quiet {payload : Buffer} {env : LaunchEnv} (hc : Quiet s.chan)
    (ha : s.aborted = false) (hC : KeepsClosed R s (.recvRequest payload env))
    (h : s.recvRequest R payload env = some t) : Quiet t.chan ∧ t.aborted = false := by
  rcases recvRequest_cases h with ⟨w, rfl⟩ | ⟨-, w, ret, started, stores, cs', -, hout, rfl⟩
  · exact ⟨hc, ha⟩
  · obtain ⟨hchan, habort, -⟩ := handled_chan s env s.chan.session cs'
    have hstart : s.chan.sentClose = true → started = false := by
      intro hcl
      have hcommands := hC hcl _ h
      cases started with
      | false => rfl
      | true => simp at hcommands
    refine ⟨?_, habort.trans ha⟩
    change Quiet (s.handled env s.chan.session cs').chan
    rw [hchan]
    exact withSession_quiet hc hout hstart

/-- One step keeps the channel quiet. -/
theorem perform_quiet {e : LifeEvent} (hc : Quiet s.chan) (ha : s.aborted = false)
    (hC : KeepsClosed R s e) (hst : Performs R s e t) :
    Quiet t.chan ∧ t.aborted = false := by
  -- most steps change fields of the channel that do not matter here
  have hsame : ∀ c : Channel, c.errfd = s.chan.errfd → c.sentClose = s.chan.sentClose →
      c.readfd = s.chan.readfd → c.writefd = s.chan.writefd → c.sentEof = s.chan.sentEof →
      c.sent = s.chan.sent → Quiet c := by
    intro c h₁ h₂ h₃ h₄ h₅ h₆
    refine ⟨h₁.trans hc.errfd, ?_, ?_, ?_, h₆ ▸ hc.eofOnce, h₆ ▸ hc.closeOnce, h₆ ▸ hc.silent⟩
    · rw [h₂, h₃, h₄, h₅]
      exact hc.closed
    · rw [h₅, h₆]
      exact hc.noEof
    · rw [h₂, h₆]
      exact hc.noClose
  cases hst with
  | recvEof | recvClose | recvWindowAdjust => exact ⟨hsame _ rfl rfl rfl rfl rfl rfl, ha⟩
  | readNothing | signalPending | kexStart | kexEnd | workerWriteFails | workerWrite
  | workerLeave => exact ⟨hc, ha⟩
  | recvRequest _ _ h => exact recvRequest_quiet hc ha hC h
  | recvData _ h => exact ⟨hc.relays h, ha⟩
  | writable h => exact ⟨hc.relays h, ha⟩
  | abort _ hfd h =>
    -- a channel with an open descriptor has not sent CLOSE, so the assertions hold
    refine absurd h (sendMsgChannelData_ne_none ?_ hfd)
    by_contra hcl
    rw [(hc.closed (by simpa using hcl)).1] at hfd
    exact absurd hfd (by decide)
  | readEnd => exact ⟨hc.shuts (closeChanFd_shuts _ _ _), ha⟩
  | @readData bytes _ _ hopen =>
    have hsend := hc.send (m := .data bytes) (by simp) (by simp) (.inr hopen)
    exact ⟨⟨hsend.1, hsend.2, hsend.3, hsend.4, hsend.5, hsend.6, hsend.7⟩, ha⟩
  | @connectDone sock =>
    cases sock with
    | some n =>
      have hopen : s.chan.sentClose = false := hC
      have hsend := hc.send (m := .openConfirmation) (by simp) (by simp) (.inr hopen)
      exact ⟨⟨hc.errfd, fun hcl => by simp [channelConnectDone, hopen] at hcl, hsend.noEof,
        hsend.noClose, hsend.eofOnce, hsend.closeOnce, hsend.silent⟩, ha⟩
    | none =>
      have hsend := hc.send (m := .openFailure) (by simp) (by simp) (.inl rfl)
      exact ⟨⟨hsend.1, hsend.2, hsend.3, hsend.4, hsend.5, hsend.6, hsend.7⟩, ha⟩
  | @reply wantreply ret =>
    have hreply : Quiet (s.chan.sendReply wantreply ret) := by
      unfold Channel.sendReply
      split_ifs
      · exact hc.send (m := .success) (by simp) (by simp) (.inl rfl)
      · exact hc.send (m := .failure) (by simp) (by simp) (.inl rfl)
      · exact hc
    exact ⟨⟨hreply.1, hreply.2, hreply.3, hreply.4, hreply.5, hreply.6, hreply.7⟩, ha⟩
  | check => exact ⟨hc.checked, ha⟩
  | flush => exact ⟨hc.shuts (flush_shuts _ _), ha⟩
  | @closeUp allowed => exact ⟨hc.closeUp allowed, ha⟩
  | workerStore h =>
    simp only [workerStore] at h
    cases hw : s.worker <;> rw [hw] at h <;> cases h <;>
      exact ⟨hsame _ rfl rfl rfl rfl rfl rfl, ha⟩
  | workerDone | workerClose => exact ⟨hsame _ rfl rfl rfl rfl rfl rfl, ha⟩

theorem opened_quiet (recvWindow : ℕ) (type : ChanType) (transwindow transmaxpacket : ℕ) :
    Quiet (opened recvWindow type transwindow transmaxpacket).chan := by
  have hsent : ∀ m, m ≠ .openConfirmation →
      m ∉ (opened recvWindow type transwindow transmaxpacket).chan.sent := by
    intro m hm
    simp only [ChannelLife.opened, Channel.opened]
    split_ifs <;> simp [hm]
  have heof := hsent .eof (by simp)
  have hclose := hsent .close (by simp)
  refine ⟨rfl, ?_, fun _ => heof, fun _ => hclose, ?_, ?_, fun pre post h => ?_⟩
  · intro h
    cases h
  · rw [List.count_eq_zero.2 heof]
    exact Nat.zero_le 1
  · rw [List.count_eq_zero.2 hclose]
    exact Nat.zero_le 1
  · rw [h] at hclose
    simp at hclose

end ChannelLife

/-- **No traffic after CLOSE**, for every channel that the peer opens and every run in which no
connection completes and no command starts behind CLOSE. -/
theorem channelLife_quiet {R : Restriction} {recvWindow transwindow transmaxpacket : ℕ}
    {type : ChanType} {es : List LifeEvent} {t : ChannelLife}
    (hC : (channelLife R recvWindow).Along (KeepsClosed R)
      (.opened recvWindow type transwindow transmaxpacket) es)
    (h : (channelLife R recvWindow).exec (.opened recvWindow type transwindow transmaxpacket) es =
      some t) : QuietAfterClose t := by
  have hinv : t.chan.Quiet ∧ t.aborted = false := by
    refine LTS.exec_invariant (I := fun s => s.chan.Quiet ∧ s.aborted = false) ?_ ?_ hC h
    · exact ⟨ChannelLife.opened_quiet _ _ _ _, rfl⟩
    · intro s e s' hs hCe hst
      obtain ⟨u, hu, rfl⟩ := ChannelLife.channelLife_step.1 hst
      obtain ⟨wire, hwire⟩ := u.transmit_eq
      have hquiet := ChannelLife.perform_quiet hs.1 hs.2 hCe (ChannelLife.perform_cases hu)
      rw [hwire]
      exact hquiet
  exact ⟨hinv.1.silent, hinv.1.eofOnce, hinv.1.closeOnce, hinv.2⟩

/-- No restriction. -/
def unrestricted : Restriction := ⟨none, none⟩

/-- `check_close`, without a step of another thread in between. -/
def checkCloseEvents : List LifeEvent := [.check, .flush, .closeUp]

/-- A request, handled to its end. -/
def requestEvents (payload : Buffer) : List LifeEvent := [.recvRequest payload willingEnv, .reply]

/-- The payload of `exec` with the command `true`. -/
def execTrue : Buffer :=
  requestPayload (ascii "exec") (sshString (ascii "true")) (by decide)

theorem channelLife_quiet_execTrue : ∃ t : ChannelLife,
    (channelLife unrestricted 24576).exec (.opened 24576 .session 1000 1000)
      (requestEvents execTrue ++ LifeEvent.readable .eof :: checkCloseEvents) = some t ∧
    ChanMsg.close ∈ t.chan.sent ∧ QuietAfterClose t := by
  have hrun : ((channelLife unrestricted 24576).exec (.opened 24576 .session 1000 1000)
      (requestEvents execTrue ++ LifeEvent.readable .eof :: checkCloseEvents)).map (·.chan.sent) =
      some [.openConfirmation, .eof, .exitStatus 0, .close] := by
    decide
  obtain ⟨t, ht, hsent⟩ := Option.map_eq_some_iff.1 hrun
  refine ⟨t, ht, by simp [hsent], channelLife_quiet ?_ ht⟩
  refine ⟨(fun hc => by cases hc), fun s' _ => LTS.along_of_forall ?_ s'⟩
  simp [checkCloseEvents, KeepsClosed]

/-- A CHANNEL_EOF on a channel whose descriptors are not there yet closes it.  A connection that
completes then is confirmed, and a command that is started then makes an assertion fail. -/
theorem channelLife_traffic_after_close :
    (¬ ∀ R recvWindow transwindow transmaxpacket es t,
      (channelLife R recvWindow).exec
        (.opened recvWindow .directTcpip transwindow transmaxpacket) es = some t →
      QuietAfterClose t) ∧
    ¬ ∀ R recvWindow transwindow transmaxpacket es t,
      (channelLife R recvWindow).exec
        (.opened recvWindow .session transwindow transmaxpacket) es = some t →
      QuietAfterClose t := by
  constructor
  · intro hall
    have hrun : ((channelLife unrestricted 24576).exec (.opened 24576 .directTcpip 1000 1000)
        (LifeEvent.recvEof :: checkCloseEvents ++ [LifeEvent.connectDone (some 7)])).map
          (·.chan.sent) = some [.eof, .close, .openConfirmation] := by
      decide
    obtain ⟨t, ht, hsent⟩ := Option.map_eq_some_iff.1 hrun
    have hsilent := (hall _ _ _ _ _ t ht).silent [.eof] [.openConfirmation] hsent
      .openConfirmation (by simp)
    exact absurd hsilent.1 (by decide)
  · intro hall
    have hrun : ((channelLife unrestricted 24576).exec (.opened 24576 .session 1000 1000)
        (LifeEvent.recvEof :: checkCloseEvents ++ requestEvents execTrue ++
          [LifeEvent.readable .eof])).map (·.aborted) =
        some true := by
      decide
    obtain ⟨t, ht, haborted⟩ := Option.map_eq_some_iff.1 hrun
    have hasserted := (hall _ _ _ _ _ t ht).asserted
    simp [haborted] at hasserted

end Ps4Dropbear
