import Ps4Dropbear.Channel.AfterClose

/-!
# One command on a channel

`sessioncommand` starts a command only when `ps4_backend_state` is idle, and no successful start
ever leads back there.  The state is written by the main thread, by the compare-exchange that
follows every successful request, and by the worker; the exit status is written by the command
and read by the main thread when it sends CLOSE.

* `backendStates` : the transitions of `ps4_backend_state`, as a transition system of its own.
* `CommandStage` : how the state, the worker and the exit status go together.
* `channelLife_singleCommand` : every run of a session channel is a run of `backendStates`, with one
  command at most and its own exit status.
-/

namespace Ps4Dropbear

/-- The transitions of `ps4_backend_state`. -/
def backendStates : LTS BackendState BackendStore where
  step
    | .idle, .running => some .running
    | .running, .threadFailed => some .idle
    | .running, .done => some .done
    | .idle, .execReady => some .execReady
    | .execReady, .done => some .done
    | _, _ => none

/-- The message tells how the command ended. -/
def ChanMsg.isExit : ChanMsg → Bool
  | .exitStatus _ | .exitSignal _ => true
  | _ => false

/-- **The property.** -/
structure SingleCommand (s : ChannelLife) : Prop where
  /-- At most one command request has succeeded. -/
  commands : s.commands ≤ 1
  /-- The stores to `ps4_backend_state` are transitions, and have led to its value. -/
  transitions : backendStates.exec .idle s.stores = some s.chan.chansess.backendState
  exitOnce : s.chan.sent.countP ChanMsg.isExit ≤ 1
  /-- Whatever has been sent about the end of a command is the status of the one command, which is
  done. -/
  exit : ∀ m ∈ s.chan.sent, m.isExit = true →
    s.chan.chansess.backendState = .done ∧ s.commands = 1 ∧ ∃ status,
      m = .exitStatus status ∧ s.result = some status ∧
      s.chan.chansess.exit = ⟨0, status, -1, 0⟩

/-! ### Stages -/

/-- What a worker on its way out has stored of its status. -/
def ExitStored (w : WorkerAt) (e : ExitInfo) (result : Option ℤ) : Prop :=
  match w with
  | .loop => True
  | .leaving status => result = some status
  | .exitpid status => result = some status ∧ e.exitpid = 0
  | .exitstatus => result = some e.exitstatus ∧ e.exitpid = 0
  | .exitsignal => result = some e.exitstatus ∧ e.exitpid = 0 ∧ e.exitsignal = -1
  | .exitcore => ∃ status, result = some status ∧ e = ⟨0, status, -1, 0⟩
  | .absent | .done | .finished => False

/-- What the state of a channel says about its command. -/
def CommandStage (state : BackendState) (w : WorkerAt) (e : ExitInfo) (result : Option ℤ)
    (commands : ℕ) : Prop :=
  match state with
  | .idle => w = .absent ∧ e.exitpid = -1 ∧ commands = 0
  | .running => commands = 1 ∧ ExitStored w e result
  | .execReady => commands = 1 ∧ w = .absent ∧
    ∃ status, result = some status ∧ e = ⟨0, status, -1, 0⟩
  | .done => commands = 1 ∧ (w = .absent ∨ w = .done ∨ w = .finished) ∧
    ∃ status, result = some status ∧ e = ⟨0, status, -1, 0⟩

/-- What has been sent about the end of the command. -/
structure Channel.Exits (c : Channel) : Prop where
  unsent : c.sentClose = false → ∀ m ∈ c.sent, m.isExit = false
  once : c.sent.countP ChanMsg.isExit ≤ 1
  value : ∀ m ∈ c.sent, m.isExit = true →
    c.chansess.backendState = .done ∧ m = .exitStatus c.chansess.exit.exitstatus

/-- The invariant of a session channel. -/
structure CommandInv (s : ChannelLife) : Prop where
  type : s.chan.type = .session
  stage : CommandStage s.chan.chansess.backendState s.worker s.chan.chansess.exit s.result
    s.commands
  transitions : backendStates.exec .idle s.stores = some s.chan.chansess.backendState
  /-- What `check_close` has found out stays true while it runs. -/
  allowed : s.main = .flushing true ∨ s.main = .closing true →
    s.chan.sentClose = true ∨ s.chan.chansess.backendState = .idle ∨
      s.chan.chansess.backendState = .done
  exits : s.chan.Exits

namespace Channel

variable {c c' : Channel}

theorem Exits.shuts (h : Exits c) (hs : Shuts c c') : Exits c' := by
  rw [hs.rest]
  exact ⟨h.unsent, h.once, h.value⟩

theorem Exits.send {m : ChanMsg} (h : Exits c) (hm : m.isExit = false) :
    Exits { c with sent := c.sent ++ [m] } where
  unsent hc m' hm' := by
    rcases List.mem_append.1 hm' with hold | hnew
    · exact h.unsent hc m' hold
    · rw [List.mem_singleton.1 hnew]
      exact hm
  once := by simpa [hm] using h.once
  value m' hm' hexit := by
    rcases List.mem_append.1 hm' with hold | hnew
    · exact h.value m' hold hexit
    · rw [List.mem_singleton.1 hnew, hm] at hexit
      cases hexit

theorem Exits.relays (h : Exits c) (hr : Relays c c') : Exits c' := by
  obtain ⟨d, adjusts, writebuf, recvwindow, recvdonelen, hd, hadjusts, rfl⟩ := hr
  have hexits : Exits d := by
    rcases hd with rfl | ⟨-, rfl⟩
    · exact h
    · exact h.shuts (closeChanFd_shuts _ _ _)
  have hall : Exits { d with sent := d.sent ++ adjusts } := by
    rcases hadjusts with rfl | ⟨incr, rfl⟩
    · simpa using hexits
    · exact hexits.send rfl
  exact ⟨hall.1, hall.2, hall.3⟩

/-- CLOSE, with the status of a command that is done or without one. -/
theorem Exits.sendMsgChannelClose (h : Exits c) (hc : c.sentClose = false)
    (hexit : c.exitMessages = [] ∨ c.chansess.backendState = .done ∧
      c.exitMessages = [.exitStatus c.chansess.exit.exitstatus]) :
    Exits c.sendMsgChannelClose := by
  obtain ⟨d, hs, -, -, heq⟩ := sendMsgChannelClose_eq c
  rw [heq]
  refine Exits.shuts ⟨(fun hn => by cases hn), ?_, ?_⟩ hs
  · have hnone : c.sent.countP ChanMsg.isExit = 0 :=
      List.countP_eq_zero.2 fun m hm => by simp [h.unsent hc m hm]
    rcases hexit with hnil | ⟨-, hone⟩
    · simp [hnone, hnil, ChanMsg.isExit]
    · simp [hnone, hone, List.countP_cons, ChanMsg.isExit]
  · intro m hm hx
    simp only [List.mem_append, List.mem_singleton] at hm
    rcases hm with hold | hnew | rfl
    · rw [h.unsent hc m hold] at hx
      cases hx
    · rcases hexit with hnil | ⟨hdone, hone⟩
      · rw [hnil] at hnew
        cases hnew
      · rw [hone, List.mem_singleton] at hnew
        exact ⟨hdone, hnew⟩
    · cases hx

theorem Exits.closeUp (h : Exits c) {allowed : Bool}
    (hexit : allowed = true → c.sentClose = false → c.exitMessages = [] ∨
      c.chansess.backendState = .done ∧
        c.exitMessages = [.exitStatus c.chansess.exit.exitstatus]) :
    Exits (c.closeUp allowed) := by
  have hrule : Exits (c.closeUp allowed) ∧ (c.closeUp allowed).type = c.type ∧
      (c.closeUp allowed).chansess = c.chansess ∧
      ((c.closeUp allowed).sentClose = false → c.sentClose = false) := by
    refine closeUp_rule (P := fun d => Exits d ∧ d.type = c.type ∧ d.chansess = c.chansess ∧
      (d.sentClose = false → c.sentClose = false)) ⟨h, rfl, rfl, id⟩ ?_ ?_ ?_ ?_
    · rintro d ⟨hd, hrest⟩ _
      refine ⟨hd.shuts (closeChanFd_shuts _ _ _), ?_⟩
      rw [(closeChanFd_shuts d d.writefd .wr).rest]
      exact hrest
    · rintro d ⟨hd, hrest⟩ _ _
      have hsend := hd.send (m := .eof) rfl
      exact ⟨⟨hsend.1, hsend.2, hsend.3⟩, hrest⟩
    · rintro d ⟨hd, htype, hsess, hopen⟩ hs hall _
      have hmsgs : d.exitMessages = c.exitMessages := by
        rw [exitMessages, exitMessages, htype, hsess]
      refine ⟨hd.sendMsgChannelClose hs ?_, ?_⟩
      · rw [hmsgs, hsess]
        exact hexit hall (hopen hs)
      · obtain ⟨d', hshuts, -, -, heq⟩ := sendMsgChannelClose_eq d
        rw [heq, hshuts.rest]
        exact ⟨htype, hsess, fun hn => by cases hn⟩
    · rintro d ⟨hd, hrest⟩
      exact ⟨⟨hd.1, hd.2, hd.3⟩, hrest⟩
  exact hrule.1

end Channel

/-- The messages of the close handler in a stage. -/
theorem CommandStage.exitMessages {c : Channel} {w : WorkerAt} {result : Option ℤ} {commands : ℕ}
    (h : CommandStage c.chansess.backendState w c.chansess.exit result commands)
    (hstate : c.chansess.backendState = .idle ∨ c.chansess.backendState = .done) :
    c.exitMessages = [] ∨ c.chansess.backendState = .done ∧
      c.exitMessages = [.exitStatus c.chansess.exit.exitstatus] := by
  unfold Channel.exitMessages
  rcases hstate with hidle | hdone
  · rw [hidle] at h
    rw [if_neg (by simp [h.2.1])]
    exact .inl rfl
  · rw [hdone] at h
    obtain ⟨-, -, status, -, he⟩ := h
    rw [he]
    by_cases htype : c.type = .session
    · rw [if_pos ⟨htype, Int.le_refl 0⟩, if_neg (by simp)]
      exact .inr ⟨hdone, rfl⟩
    · rw [if_neg fun h => htype h.1]
      exact .inl rfl

/-! ### Steps -/

namespace CommandInv

open Channel ChannelLife

variable {R : Restriction} {recvWindow : ℕ} {s t : ChannelLife}

/-- Steps of the main thread that leave the command alone. -/
theorem of_chan (h : CommandInv s) (hworker : t.worker = s.worker) (hresult : t.result = s.result)
    (hcommands : t.commands = s.commands) (hstores : t.stores = s.stores)
    (htype : t.chan.type = s.chan.type)
    (hstate : t.chan.chansess.backendState = s.chan.chansess.backendState)
    (hexit : t.chan.chansess.exit = s.chan.chansess.exit)
    (hallowed : t.main = .flushing true ∨ t.main = .closing true →
      t.chan.sentClose = true ∨ s.chan.chansess.backendState = .idle ∨
        s.chan.chansess.backendState = .done)
    (hexits : t.chan.Exits) : CommandInv t where
  type := htype.trans h.type
  stage := by
    rw [hstate, hworker, hexit, hresult, hcommands]
    exact h.stage
  transitions := by
    rw [hstores, hstate]
    exact h.transitions
  allowed := by
    rw [hstate]
    exact hallowed
  exits := hexits

/-- Before the command is done nothing has been sent about its end. -/
theorem exits_of_ne_done {c c' : Channel} (h : c.Exits)
    (hne : c.chansess.backendState ≠ .done) (hsent : c'.sent = c.sent)
    (hclose : c'.sentClose = c.sentClose) : Exits c' := by
  refine ⟨?_, hsent ▸ h.once, fun m hm hx => ?_⟩
  · rw [hclose, hsent]
    exact h.unsent
  · rw [hsent] at hm
    exact absurd (h.value m hm hx).1 hne

/-- A worker that is not done belongs to a running command. -/
theorem running (h : CommandInv s) (hw : s.worker ≠ .absent ∧ s.worker ≠ .done ∧
    s.worker ≠ .finished) : s.chan.chansess.backendState = .running ∧ s.commands = 1 ∧
      ExitStored s.worker s.chan.chansess.exit s.result := by
  have hstage := h.stage
  cases hstate : s.chan.chansess.backendState with
  | idle =>
    rw [hstate] at hstage
    exact absurd hstage.1 hw.1
  | execReady =>
    rw [hstate] at hstage
    exact absurd hstage.2.1 hw.1
  | done =>
    rw [hstate] at hstage
    rcases hstage.2.1 with ha | hd | hf
    · exact absurd ha hw.1
    · exact absurd hd hw.2.1
    · exact absurd hf hw.2.2
  | running =>
    rw [hstate] at hstage
    exact ⟨rfl, hstage.1, hstage.2⟩

/-- A step of a running worker that changes its exit status. -/
theorem of_worker (h : CommandInv s) (w : WorkerAt) (e : ExitInfo) (result : Option ℤ)
    (hw : s.worker ≠ .absent ∧ s.worker ≠ .done ∧ s.worker ≠ .finished)
    (hstored : ExitStored w e result) : CommandInv { s with
      worker := w, result := result
      chan := { s.chan with chansess := { s.chan.chansess with exit := e } } } := by
  obtain ⟨hstate, hcommands, -⟩ := h.running hw
  refine ⟨h.type, ?_, h.transitions, h.allowed, exits_of_ne_done h.exits (by simp [hstate]) rfl rfl⟩
  change CommandStage s.chan.chansess.backendState w e result s.commands
  rw [hstate]
  exact ⟨hcommands, hstored⟩

theorem workerStore (h : CommandInv s) (hst : s.workerStore = some t) : CommandInv t := by
  unfold ChannelLife.workerStore at hst
  cases hw : s.worker with
  | leaving status =>
    rw [hw] at hst
    cases hst
    have hstored := (h.running (by simp [hw])).2.2
    rw [hw] at hstored
    exact h.of_worker _ _ s.result (by simp [hw]) ⟨hstored, rfl⟩
  | exitpid status =>
    rw [hw] at hst
    cases hst
    have hstored := (h.running (by simp [hw])).2.2
    rw [hw] at hstored
    exact h.of_worker _ _ s.result (by simp [hw]) ⟨hstored.1, hstored.2⟩
  | exitstatus =>
    rw [hw] at hst
    cases hst
    have hstored := (h.running (by simp [hw])).2.2
    rw [hw] at hstored
    exact h.of_worker _ _ s.result (by simp [hw]) ⟨hstored.1, hstored.2, rfl⟩
  | exitsignal =>
    rw [hw] at hst
    cases hst
    have hstored := (h.running (by simp [hw])).2.2
    rw [hw] at hstored
    obtain ⟨hres, hpid, hsig⟩ := hstored
    refine h.of_worker _ _ s.result (by simp [hw])
      ⟨s.chan.chansess.exit.exitstatus, hres, ?_⟩
    dsimp only
    rw [hpid, hsig]
  | _ =>
    rw [hw] at hst
    cases hst

theorem recvRequest (h : CommandInv s) {payload : Buffer} {env : LaunchEnv}
    (hst : s.recvRequest R payload env = some t) : CommandInv t := by
  rcases recvRequest_cases hst with ⟨w, rfl⟩ | ⟨-, w, ret, started, stores, cs', -, hout, rfl⟩
  · exact h.of_chan rfl rfl rfl rfl rfl rfl rfl (by simp) h.exits
  have hchan := (handled_chan s env s.chan.session cs').1
  have htype : (s.handled env s.chan.session cs').chan.type = .session := by
    rw [hchan]
    exact h.type
  cases hout with
  | unstarted hun hstores =>
    have hstate : cs'.backendState = s.chan.chansess.backendState := hun.state
    have hexit : cs'.exit = s.chan.chansess.exit := hun.exit
    rw [handled_unstarted hun] at htype ⊢
    refine ⟨htype, ?_, ?_, by simp, ⟨h.exits.unsent, h.exits.once, fun m hm hx => ?_⟩⟩
    · change CommandStage cs'.backendState s.worker cs'.exit s.result s.commands
      rw [hstate, hexit]
      exact h.stage
    · change backendStates.exec .idle (s.stores ++ stores) = some cs'.backendState
      rw [LTS.exec_append, h.transitions, hstate]
      rcases hstores with rfl | ⟨hidle, -, rfl⟩
      · rfl
      · have hidle' : s.chan.chansess.backendState = .idle := hidle
        rw [hidle']
        rfl
    · change cs'.backendState = .done ∧ m = .exitStatus cs'.exit.exitstatus
      rw [hstate, hexit]
      exact h.exits.value m hm hx
  | executed hex =>
    have hidle : s.chan.chansess.backendState = .idle := hex.idle
    have hstage := h.stage
    rw [hidle] at hstage
    rw [handled_executed hex] at htype ⊢
    refine ⟨htype, ?_, ?_, by simp, exits_of_ne_done h.exits (by simp [hidle]) rfl rfl⟩
    · change CommandStage cs'.backendState s.worker cs'.exit _ _
      rw [hex.state]
      refine ⟨?_, hstage.1, _, rfl, ?_⟩
      · simp [hstage.2.2]
      · rw [hex.exit]
    · change backendStates.exec .idle (s.stores ++ [BackendStore.execReady]) = some cs'.backendState
      rw [LTS.exec_append, h.transitions, hidle, hex.state]
      rfl
  | forked hfork =>
    have hidle : s.chan.chansess.backendState = .idle := hfork.idle
    have hstage := h.stage
    rw [hidle] at hstage
    rw [handled_forked hfork] at htype ⊢
    refine ⟨htype, ?_, ?_, by simp, exits_of_ne_done h.exits (by simp [hidle]) rfl rfl⟩
    · change CommandStage cs'.backendState .loop cs'.exit _ _
      rw [hfork.state]
      refine ⟨?_, trivial⟩
      simp [hstage.2.2]
    · change backendStates.exec .idle (s.stores ++ [BackendStore.running]) = some cs'.backendState
      rw [LTS.exec_append, h.transitions, hidle, hfork.state]
      rfl

/-- The compare-exchange behind a request. -/
theorem reply (h : CommandInv s) (wantreply ret : Bool) : CommandInv (s.reply wantreply ret) := by
  have hreply : Exits (s.chan.sendReply wantreply ret) := by
    unfold Channel.sendReply
    split_ifs
    · exact h.exits.send rfl
    · exact h.exits.send rfl
    · exact h.exits
  have hfields : (s.chan.sendReply wantreply ret).type = .session ∧
      (s.chan.sendReply wantreply ret).chansess = s.chan.chansess := by
    unfold Channel.sendReply
    split_ifs <;> exact ⟨h.type, rfl⟩
  cases hcas : (ret && s.chan.chansess.backendState == .execReady) with
  | false =>
    refine h.of_chan rfl rfl rfl ?_ (hfields.1.trans h.type.symm) ?_ rfl ?_ ?_
    · simp [ChannelLife.reply, hcas]
    · simp [ChannelLife.reply, ChanSess.answer, hcas]
    · simp [ChannelLife.reply]
    · refine ⟨hreply.unsent, hreply.once, fun m hm hx => ?_⟩
      have hvalue := hreply.value m hm hx
      rw [hfields.2] at hvalue
      simpa [ChannelLife.reply, ChanSess.answer, hcas] using hvalue
  | true =>
    have hready : s.chan.chansess.backendState = .execReady := by
      simpa using (Bool.and_eq_true_iff.1 hcas).2
    have hstage := h.stage
    rw [hready] at hstage
    have hdone : (s.reply wantreply ret).chan.chansess.backendState = .done := by
      simp [ChannelLife.reply, ChanSess.answer, hcas]
    have hexits : Exits (s.reply wantreply ret).chan :=
      exits_of_ne_done hreply (by rw [hfields.2, hready]; decide) rfl rfl
    refine ⟨hfields.1, ?_, ?_, by simp [ChannelLife.reply], hexits⟩
    · rw [hdone]
      exact ⟨hstage.1, .inl hstage.2.1, hstage.2.2⟩
    · rw [hdone]
      simp only [ChannelLife.reply, hcas, if_true]
      rw [LTS.exec_append, h.transitions, hready]
      rfl

/-- **One step** keeps the invariant. -/
theorem perform (h : CommandInv s) {e : LifeEvent} (hst : Performs R s e t) : CommandInv t := by
  cases hst with
  | recvEof hmain | recvClose hmain | recvWindowAdjust hmain =>
    exact h.of_chan rfl rfl rfl rfl rfl rfl rfl (by simp [hmain]) ⟨h.exits.1, h.exits.2, h.exits.3⟩
  | abort hmain | readNothing hmain | signalPending hmain | kexStart hmain | kexEnd hmain =>
    exact h.of_chan rfl rfl rfl rfl rfl rfl rfl (by simp [hmain]) h.exits
  | recvRequest _ _ hst => exact h.recvRequest hst
  | recvData hmain hrelays =>
    exact h.of_chan rfl rfl rfl rfl hrelays.keeps.1 (by rw [hrelays.keeps.2.1])
      (by rw [hrelays.keeps.2.1]) (by simp [hmain]) (h.exits.relays hrelays)
  | writable hrelays =>
    exact h.of_chan rfl rfl rfl rfl hrelays.keeps.1 (by rw [hrelays.keeps.2.1])
      (by rw [hrelays.keeps.2.1]) (by simp) (h.exits.relays hrelays)
  | readEnd =>
    have hs := closeChanFd_shuts s.chan s.chan.readfd .rd
    exact h.of_chan rfl rfl rfl rfl hs.keeps.1 (by rw [hs.keeps.2.1]) (by rw [hs.keeps.2.1])
      (by simp) (h.exits.shuts hs)
  | @readData bytes =>
    have hsend := h.exits.send (m := .data bytes) rfl
    exact h.of_chan rfl rfl rfl rfl rfl rfl rfl (by simp) ⟨hsend.1, hsend.2, hsend.3⟩
  | @connectDone sock hmain =>
    cases sock with
    | some n =>
      have hsend := h.exits.send (m := .openConfirmation) rfl
      exact h.of_chan rfl rfl rfl rfl rfl rfl rfl (by simp [hmain]) ⟨hsend.1, hsend.2, hsend.3⟩
    | none =>
      have hsend := h.exits.send (m := .openFailure) rfl
      exact h.of_chan rfl rfl rfl rfl rfl rfl rfl (by simp [hmain]) ⟨hsend.1, hsend.2, hsend.3⟩
  | @reply wantreply ret => exact h.reply wantreply ret
  | check =>
    obtain ⟨flushing, backendFd, cancelFd, heq⟩ := checked_eq s.chan
    have hallowed : s.check.main = .flushing true ∨ s.check.main = .closing true →
        s.check.chan.sentClose = true ∨ s.chan.chansess.backendState = .idle ∨
          s.chan.chansess.backendState = .done := by
      intro hmain
      have htrue : s.chan.checked.1 = true := by simpa [ChannelLife.check] using hmain
      have hclose : s.check.chan.sentClose = s.chan.sentClose := by
        simp only [ChannelLife.check]
        rw [heq]
      rw [hclose]
      exact (checked_allowed htrue).resolve_left (by simp [h.type])
    refine h.of_chan rfl rfl rfl rfl ?_ ?_ ?_ hallowed ?_
    all_goals
      simp only [ChannelLife.check]
      rw [heq]
    exact ⟨h.exits.1, h.exits.2, h.exits.3⟩
  | @flush allowed hmain =>
    have hs := flush_shuts s.chan s.pending
    refine h.of_chan rfl rfl rfl rfl hs.keeps.1 (by rw [hs.keeps.2.1]) (by rw [hs.keeps.2.1]) ?_
      (h.exits.shuts hs)
    intro hclosing
    have htrue : allowed = true := by simpa using hclosing
    rw [hs.keeps.2.2.1]
    exact h.allowed (.inl (hmain.trans (by rw [htrue])))
  | @closeUp allowed hmain =>
    obtain ⟨htype, hsess, -⟩ := closeUp_keeps s.chan allowed
    refine h.of_chan rfl rfl rfl rfl htype (by rw [hsess]) (by rw [hsess]) (by simp)
      (h.exits.closeUp fun hall hopen => h.stage.exitMessages ?_)
    exact (h.allowed (.inr (hmain.trans (by rw [hall])))).resolve_left (by simp [hopen])
  | workerWriteFails => exact h
  | workerWrite => exact h.of_chan rfl rfl rfl rfl rfl rfl rfl h.allowed h.exits
  | @workerLeave status hw =>
    exact h.of_worker (.leaving status) s.chan.chansess.exit (some status) (by simp [hw]) rfl
  | workerStore hst => exact h.workerStore hst
  | workerDone hw =>
    obtain ⟨hstate, hcommands, hstored⟩ := h.running (by simp [hw])
    rw [hw] at hstored
    refine ⟨h.type, ⟨hcommands, .inr (.inl rfl), hstored⟩, ?_, fun _ => .inr (.inr rfl),
      exits_of_ne_done h.exits (by simp [hstate]) rfl rfl⟩
    rw [LTS.exec_append, h.transitions, hstate]
    rfl
  | workerClose hw =>
    have hstage := h.stage
    refine ⟨h.type, ?_, h.transitions, h.allowed, ⟨h.exits.1, h.exits.2, h.exits.3⟩⟩
    change CommandStage s.chan.chansess.backendState .finished s.chan.chansess.exit s.result
      s.commands
    cases hstate : s.chan.chansess.backendState <;> rw [hstate] at hstage
    · simp [CommandStage, hw] at hstage
    · simp [CommandStage, ExitStored, hw] at hstage
    · simp [CommandStage, hw] at hstage
    · exact ⟨hstage.1, .inr (.inr rfl), hstage.2.2⟩

theorem opened (recvWindow transwindow transmaxpacket : ℕ) :
    CommandInv (.opened recvWindow .session transwindow transmaxpacket) where
  type := rfl
  stage := ⟨rfl, rfl, rfl⟩
  transitions := rfl
  allowed h := by simp [ChannelLife.opened] at h
  exits := by
    constructor <;> simp [ChannelLife.opened, Channel.opened, ChanMsg.isExit]

/-- The invariant gives the property. -/
theorem singleCommand (h : CommandInv s) : SingleCommand s := by
  have hstage := h.stage
  refine ⟨?_, h.transitions, h.exits.once, fun m hm hx => ?_⟩
  · cases hstate : s.chan.chansess.backendState <;> rw [hstate] at hstage
    · exact hstage.2.2 ▸ Nat.zero_le 1
    · exact Nat.le_of_eq hstage.1
    · exact Nat.le_of_eq hstage.1
    · exact Nat.le_of_eq hstage.1
  · obtain ⟨hdone, hvalue⟩ := h.exits.value m hm hx
    rw [hdone] at hstage
    obtain ⟨hcommands, -, status, hresult, hexit⟩ := hstage
    rw [hexit] at hvalue
    exact ⟨hdone, hcommands, status, hvalue, hresult, hexit⟩

end CommandInv

/-- Only a request whose `pthread_create` fails takes the state back. -/
theorem ChannelLife.perform_threadFailed {R : Restriction} {s t : ChannelLife} {e : LifeEvent}
    (hst : Performs R s e t) (hold : .threadFailed ∉ s.stores)
    (hnew : .threadFailed ∈ t.stores) :
    ∃ payload env, e = .recvRequest payload env ∧ env.pthreadCreate = false := by
  have hsame : t.stores = s.stores ∨ t.stores = s.stores ++ [BackendStore.done] →
      ∃ payload env, e = .recvRequest payload env ∧ env.pthreadCreate = false := by
    rintro (heq | heq)
    · exact absurd (heq ▸ hnew) hold
    · rw [heq] at hnew
      simp [hold] at hnew
  cases hst with
  | @recvRequest payload env t _ _ hst =>
    rcases recvRequest_cases hst with ⟨w, rfl⟩ | ⟨-, w, ret, started, stores, cs', -, hout, rfl⟩
    · exact absurd hnew hold
    · simp only [List.mem_append, hold, false_or] at hnew
      cases hout with
      | unstarted hun hstores =>
        rcases hstores with rfl | ⟨-, hcreate, rfl⟩
        · cases hnew
        · exact ⟨payload, env, rfl, hcreate⟩
      | executed => simp at hnew
      | forked => simp at hnew
  | @reply wantreply ret =>
    refine hsame ?_
    simp only [reply]
    split_ifs
    · exact .inr rfl
    · exact .inl rfl
  | workerDone => exact hsame (.inr rfl)
  | workerStore h =>
    simp only [workerStore] at h
    cases hw : s.worker <;> rw [hw] at h <;> cases h <;> exact hsame (.inl rfl)
  | _ => exact hsame (.inl rfl)

/-- **One command for a session channel**, in every run: at most one command request succeeds, the
state takes only the transitions of `backendStates`, back to idle only when a thread could not be
created, and what is sent about the end of the command is its own final status. -/
theorem channelLife_singleCommand {R : Restriction} {recvWindow transwindow transmaxpacket : ℕ}
    {es : List LifeEvent} {t : ChannelLife}
    (h : (channelLife R recvWindow).exec
      (.opened recvWindow .session transwindow transmaxpacket) es = some t) :
    SingleCommand t ∧ (.threadFailed ∈ t.stores →
      ∃ payload env, LifeEvent.recvRequest payload env ∈ es ∧ env.pthreadCreate = false) := by
  have hinv : CommandInv t := by
    refine LTS.exec_invariant' (CommandInv.opened _ _ _) (fun s e s' hs hst => ?_) h
    obtain ⟨u, hu, rfl⟩ := ChannelLife.channelLife_step.1 hst
    obtain ⟨wire, hwire⟩ := u.transmit_eq
    have hnext := hs.perform (ChannelLife.perform_cases hu)
    rw [hwire]
    exact ⟨hnext.1, hnext.2, hnext.3, hnext.4, hnext.5⟩
  refine ⟨hinv.singleCommand, fun hfailed => ?_⟩
  obtain ⟨pre, e, post, u, v, rfl, -, hu, huv, hv, -⟩ :=
    LTS.exec_turning_point (P := fun s : ChannelLife => .threadFailed ∈ s.stores)
      (by simp [ChannelLife.opened]) hfailed h
  obtain ⟨v', hv', rfl⟩ := ChannelLife.channelLife_step.1 huv
  obtain ⟨wire, hwire⟩ := v'.transmit_eq
  rw [hwire] at hv
  obtain ⟨payload, env, rfl, hcreate⟩ := ChannelLife.perform_threadFailed
    (ChannelLife.perform_cases hv') hu hv
  exact ⟨payload, env, by simp, hcreate⟩

/-- A `shell` request fails because no thread can be created, and a second one succeeds. -/
def secondShell : List LifeEvent :=
  [.recvRequest shellPayload { willingEnv with pthreadCreate := false }, .reply,
    .recvRequest shellPayload willingEnv, .reply, .workerLeave 3, .workerStore, .workerStore,
    .workerStore, .workerStore, .workerDone, .workerClose, .readable .eof, .check, .flush, .closeUp]

theorem channelLife_singleCommand_secondShell : ∃ t : ChannelLife,
    (channelLife unrestricted 24576).exec (.opened 24576 .session 1000 1000) secondShell = some t ∧
    t.stores = [.running, .threadFailed, .running, .done] ∧
    t.chan.sent = [.openConfirmation, .eof, .exitStatus 3, .close] ∧ SingleCommand t := by
  have hrun : ((channelLife unrestricted 24576).exec (.opened 24576 .session 1000 1000)
      secondShell).map (fun t => (t.stores, t.chan.sent)) =
      some ([.running, .threadFailed, .running, .done],
        [.openConfirmation, .eof, .exitStatus 3, .close]) := by
    decide
  obtain ⟨t, ht, hfields⟩ := Option.map_eq_some_iff.1 hrun
  obtain ⟨hstores, hsent⟩ := Prod.mk.inj hfields
  exact ⟨t, ht, hstores, hsent, (channelLife_singleCommand ht).1⟩

end Ps4Dropbear
