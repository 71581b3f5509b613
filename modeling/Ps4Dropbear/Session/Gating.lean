import Ps4Dropbear.Session.LoopCalls

/-!
# Is input and output gated by `select`?

The comment of `setnonblocking` says that blocking descriptors are safe because the session gates
its calls with `select`.  `Call.gated` says it of the log of a session: every `read` and `writev`
is on a descriptor that was reported for it, with no call in that direction since the report.

It is not so.  `read_packet` reads the rest of a packet after its first block without asking again,
CHANNEL_DATA is written to the channel while it is handled, and `write_packet` runs whenever there
is something to write.

* `Announced` : which steps make only announced calls.
* `gated_iff_announced` : runs of such steps are gated, and a step of another kind can be continued
  to a run that is not.
-/

namespace Ps4Dropbear

open Call

/-- The step queues a packet, and the session goes on. -/
def LoopEvent.Queues (s : Loop) : LoopEvent → Prop
  | timeouts queued => queued.getD [] ≠ []
  | handle (.channelData i len res _) => ∃ c, s.writesData i len = some c ∧
    recvWindowextend ≤ c.recvdonelen + res.taken (c.writebuf + len)
  | handle (.other h) => h.exits = false ∧ h.queued ≠ []
  | replies flushed connected =>
    flushed ≠ [] ∨ ∃ i n, connected = some (i, n) ∧ s.connects i = true
  | channelio io accepted =>
    (∃ i c, s.channel i = some c ∧ c.sends s.readfds s.writefds i (io i) = true) ∨ accepted ≠ []
  | _ => False

/-- **The condition** on a step, from what it meets and the state before it:

* `select` reports the socket when there is something to write, and only then a packet is queued;
* a packet whose first block is completed ends with that block;
* CHANNEL_DATA finds its `writefd` reported, and `writev` takes all or fails. -/
def Announced (s : Loop) (e : LoopEvent) : Prop :=
  (e.Queues s → .sock ∈ s.writefds) ∧
    match e with
    | .select failed _ writefds => (s.connectsFailed failed).writequeue ≠ [] → .sock ∈ writefds
    | .input inp => .sock ∈ s.readfds → s.remoteident = true → s.inFirstBlock = true →
      s.completesBlock inp.first = true → ∀ len, s.packetLen inp.field = some len →
        len ≤ s.blocksize
    | .handle (.channelData i len res _) => ∀ c, s.writesData i len = some c →
      .chan i ∈ s.writefds ∧
        (res = .error ∨ res.taken (c.writebuf + len) = c.writebuf + len)
    | _ => True

/-! ### Announced runs -/

/-- The invariant of an iteration: the calls that are still to come are announced. -/
structure Loop.Announcing (s : Loop) : Prop where
  sockWrite : .sock ∈ s.writefds → writeReported .sock s.log = true
  queue : s.writequeue ≠ [] → .sock ∈ s.writefds
  sockRead : s.phase = .timeouts ∨ s.phase = .input → .sock ∈ s.readfds →
    readReported .sock s.log = true
  chanRead : s.phase ≠ .output → ∀ i, .chan i ∈ s.readfds → readReported (.chan i) s.log = true
  /-- Before a packet is handled nothing has been written to a channel. -/
  unwritten : s.phase = .timeouts ∨ s.phase = .input ∨ s.phase = .handle →
    ∀ i, .chan i ∈ s.writefds → writeReported (.chan i) s.log = true
  /-- Afterwards a channel that has been written to has nothing left. -/
  chanWrite : s.phase = .replies ∨ s.phase = .channels → ∀ i c, s.channel i = some c →
    .chan i ∈ s.writefds → writeReported (.chan i) s.log = true ∨ c.writebuf = 0 ∨
      c.writefd = .closed

/-- The invariant of a session. -/
def Loop.Gated (s : Loop) : Prop :=
  gated s.log = true ∧ (s.exited = false → s.phase ≠ .select → s.Announcing)

theorem sessionLoop_step {s s' : Loop} {e : LoopEvent} :
    sessionLoop.step s e = some s' ↔
      s.exited = false ∧ s.phase = e.phase ∧ e.answers s = true ∧ e.perform s = s' := by
  simp [sessionLoop, and_assoc]

namespace Loop

variable {s : Loop}

theorem gated_select (h : s.Gated) {failed : List (ℕ × ℕ)} {readfds writefds : List Desc}
    (hcond : Announced s (.select failed readfds writefds)) :
    (LoopEvent.perform s (.select failed readfds writefds)).Gated := by
  refine ⟨h.1, fun _ _ => ⟨?_, ?_, ?_, ?_, ?_, ?_⟩⟩
  · exact fun hmem => writeReported_select.2 hmem
  · exact hcond.2
  · exact fun _ hmem => readReported_select.2 hmem
  · exact fun _ i hmem => readReported_select.2 hmem
  · exact fun _ i hmem => writeReported_select.2 hmem
  · exact nofun

/-- Queueing what the condition allows. -/
theorem queue_append {queued : List ℕ} (hq : s.writequeue ≠ [] → .sock ∈ s.writefds)
    (hnew : queued ≠ [] → .sock ∈ s.writefds) :
    s.writequeue ++ queued ≠ [] → .sock ∈ s.writefds := by
  intro h
  rcases append_ne_nil_iff.1 h with h | h
  · exact hq h
  · exact hnew h

theorem gated_timeouts (h : s.Gated) (hx : s.exited = false) (hp : s.phase = .timeouts)
    {queued : Option (List ℕ)} (hcond : Announced s (.timeouts queued)) :
    (LoopEvent.perform s (.timeouts queued)).Gated := by
  have ha := h.2 hx (by rw [hp]; decide)
  cases queued with
  | none => exact ⟨h.1, nofun⟩
  | some queued =>
    refine ⟨h.1, fun _ _ => ⟨ha.sockWrite, queue_append ha.queue hcond.1, ?_, ?_, ?_, ?_⟩⟩
    · exact fun _ => ha.sockRead (.inl hp)
    · exact fun _ => ha.chanRead (by rw [hp]; decide)
    · exact fun _ => ha.unwritten (.inl hp)
    · exact nofun

theorem gated_input (h : s.Gated) (hx : s.exited = false) (hp : s.phase = .input)
    {inp : SockInput} (hcond : Announced s (.input inp)) :
    (LoopEvent.perform s (.input inp)).Gated := by
  have ha := h.2 hx (by rw [hp]; decide)
  have hunwritten := ha.unwritten (.inr (.inl hp))
  refine ⟨input_gated h.1 (ha.sockRead (.inr hp)) hcond.2, ?_⟩
  intro _ _
  obtain ⟨t, hframe, heq⟩ := input_frame s inp
  show (s.input inp).Announcing
  rw [heq]
  refine ⟨?_, ?_, ?_, ?_, ?_, ?_⟩
  · intro hmem
    exact (hframe.writeReported _).trans (ha.sockWrite (hframe.writefds ▸ hmem))
  · intro hq
    exact hframe.writefds ▸ ha.queue (hframe.writequeue ▸ hq)
  · intro hphase
    dsimp only at hphase
    split_ifs at hphase <;> simp at hphase
  · intro _ i hmem
    exact (hframe.readReported i).trans (ha.chanRead (by rw [hp]; decide) i (hframe.readfds ▸ hmem))
  · intro _ i hmem
    exact (hframe.writeReported _).trans (hunwritten i (hframe.writefds ▸ hmem))
  · intro _ i c _ hmem
    exact .inl ((hframe.writeReported _).trans (hunwritten i (hframe.writefds ▸ hmem)))

/-- The channel in a slot when another is put into a slot in use. -/
theorem channel_set {i : ℕ} {c₀ : LoopChannel} (hi : s.channel i = some c₀) (c : LoopChannel)
    (j : ℕ) :
    ((s.channels.set i (some c))[j]?).join = if j = i then some c else s.channel j := by
  by_cases hj : j = i
  · subst hj
    have hlt : j < s.channels.length := by
      by_contra hge
      simp [channel, List.getElem?_eq_none (Nat.not_lt.1 hge)] at hi
    rw [if_pos rfl, List.getElem?_set_self hlt, Option.join_some]
  · rw [if_neg hj, List.getElem?_set_ne (Ne.symm hj)]
    rfl

theorem gated_handle (h : s.Gated) (hx : s.exited = false) (hp : s.phase = .handle)
    {p : LoopPacket} (hcond : Announced s (.handle p)) :
    (LoopEvent.perform s (.handle p)).Gated := by
  have ha := h.2 hx (by rw [hp]; decide)
  have hunwritten := ha.unwritten (.inr (.inr hp))
  have hread := ha.chanRead (by rw [hp]; decide)
  cases p with
  | other handled =>
    refine ⟨h.1, fun hex _ => ⟨ha.sockWrite, ?_, nofun, fun _ => hread, nofun, ?_⟩⟩
    · exact queue_append ha.queue fun hne => hcond.1 ⟨hex, hne⟩
    · exact fun _ i c _ hmem => .inl (hunwritten i hmem)
  | channelData i len res adjust =>
    show Gated { s.recvMsgChannelData i len res adjust with phase := .replies, payload := false }
    rcases recvMsgChannelData_cases s i len res adjust with ⟨-, heq | heq⟩ |
      ⟨c, hlen, hc, hw, heq⟩
    · rw [heq]
      exact ⟨h.1, nofun⟩
    · rw [heq]
      exact ⟨h.1, fun _ _ => ⟨ha.sockWrite, ha.queue, nofun, fun _ => hread, nofun,
        fun _ j c _ hmem => .inl (hunwritten j hmem)⟩⟩
    · obtain ⟨hmem, hall⟩ := hcond.2 c hw
      have hdone := written_done c len hlen res hall
      rw [heq]
      refine ⟨gated_write.2 ⟨hunwritten i hmem, h.1⟩, fun _ _ =>
        ⟨?_, ?_, nofun, fun _ => hread, nofun, ?_⟩⟩
      · exact fun hs => (writeReported_write_of_ne (by simp)).trans (ha.sockWrite hs)
      · refine queue_append ha.queue fun hne => ?_
        by_cases hadj : (c.written len hlen res).adjusts = true
        · exact hcond.1 ⟨c, hw, (written_adjusts c len hlen res).1 hadj⟩
        · simp [hadj] at hne
      · intro _ j c' hc' hj
        by_cases hji : j = i
        · have hset : (if j = i then some (c.written len hlen res).windowAdjust else s.channel j) =
              some c' := (channel_set hc _ j).symm.trans hc'
          rw [if_pos hji] at hset
          cases hset
          obtain ⟨hbuf, hfd⟩ := windowAdjust_writebuf (c.written len hlen res)
          rw [hbuf, hfd]
          exact .inr hdone
        · exact .inl ((writeReported_write_of_ne (by simp [hji])).trans (hunwritten j hj))

/-- `handle_connect_fds` opens a channel whose connect was reported, or does nothing. -/
theorem connected_cases (s : Loop) (connected : Option (ℕ × ℕ)) :
    s.connected connected = s ∨ ∃ i n c, connected = some (i, n) ∧ s.connects i = true ∧
      s.channel i = some c ∧ c.writefd = .uninit ∧ s.connected connected =
        { s with
          channels := s.channels.set i
            (some { c with readfd := .opened, writefd := .opened, connPending := false })
          writequeue := s.writequeue ++ [n] } := by
  cases connected with
  | none => exact .inl rfl
  | some conn =>
    obtain ⟨i, n⟩ := conn
    unfold Loop.connected
    dsimp only
    cases hc : s.channel i with
    | none => exact .inl rfl
    | some c =>
      dsimp only
      split_ifs with hpend
      · refine .inr ⟨i, n, c, rfl, ?_, hc, hpend.2.2.1, rfl⟩
        simp [connects, hc, hpend]
      · exact .inl rfl

theorem gated_replies (h : s.Gated) (hx : s.exited = false) (hp : s.phase = .replies)
    {flushed : List ℕ} {connected : Option (ℕ × ℕ)}
    (hcond : Announced s (.replies flushed connected)) :
    (LoopEvent.perform s (.replies flushed connected)).Gated := by
  have ha := h.2 hx (by rw [hp]; decide)
  have hread := ha.chanRead (by rw [hp]; decide)
  have hwrite := ha.chanWrite (.inl hp)
  have hflush := queue_append ha.queue fun hne => hcond.1 (.inl hne)
  show Gated { (s.enqueue flushed).connected connected with phase := .channels }
  rcases connected_cases (s.enqueue flushed) connected with heq |
    ⟨i, n, c, hconn, hpend, hc, hfd, heq⟩
  · rw [heq]
    exact ⟨h.1, fun _ _ =>
      ⟨ha.sockWrite, hflush, nofun, fun _ => hread, nofun, fun _ => hwrite⟩⟩
  · rw [heq]
    refine ⟨h.1, fun _ _ => ⟨ha.sockWrite, fun _ => ?_, nofun, fun _ => hread, nofun, ?_⟩⟩
    · exact hcond.1 (.inr ⟨i, n, hconn, hpend⟩)
    · intro _ j c' hc' hj
      have hset : (if j = i then
            some { c with readfd := .opened, writefd := .opened, connPending := false }
          else s.channel j) = some c' := (channel_set hc _ j).symm.trans hc'
      split_ifs at hset with hji
      · cases hset
        -- a channel that is being connected has not been closed
        rcases hwrite j c (hji ▸ hc) hj with hw | hw | hw
        · exact .inl hw
        · exact .inr (.inl hw)
        · rw [hfd] at hw
          exact absurd hw (by decide)
      · exact hwrite j c' hset hj

theorem gated_channelio (h : s.Gated) (hx : s.exited = false) (hp : s.phase = .channels)
    {io : ℕ → ChannelIo} {accepted : List ℕ} (hcond : Announced s (.channelio io accepted)) :
    (LoopEvent.perform s (.channelio io accepted)).Gated := by
  have ha := h.2 hx (by rw [hp]; decide)
  have hwrite : ∀ k c, s.channels[k]? = some (some c) → .chan (0 + k) ∈ s.writefds →
      writeReported (.chan (0 + k)) s.log = true ∨ c.writebuf = 0 ∨ c.writefd = .closed := by
    intro k c hk hmem
    rw [Nat.zero_add] at hmem ⊢
    exact ha.chanWrite (.inr hp) k c (by simp [channel, hk]) hmem
  obtain ⟨hg, hsock⟩ := channelioFrom_spec io h.1
    (fun j _ hmem => ha.chanRead (by rw [hp]; decide) j hmem) hwrite
  refine ⟨hg, fun _ _ =>
    ⟨fun hmem => hsock.trans (ha.sockWrite hmem), ?_, nofun, fun hne => absurd rfl hne, nofun,
      nofun⟩⟩
  intro hq
  show .sock ∈ s.writefds
  rcases append_ne_nil_iff.1 hq with hq | hq
  · refine queue_append ha.queue (fun hne => ?_) hq
    obtain ⟨k, c, hk, hsends⟩ := (channelioFrom_queued _ _ io 0 s.channels s.log).1 hne
    rw [Nat.zero_add] at hsends
    exact hcond.1 (.inl ⟨k, c, by simp [channel, hk], hsends⟩)
  · exact hcond.1 (.inr hq)

theorem gated_output (h : s.Gated) (hx : s.exited = false) (hp : s.phase = .output)
    (res : WriteResult) : (LoopEvent.perform s (.output res)).Gated := by
  have ha := h.2 hx (by rw [hp]; decide)
  refine ⟨?_, fun _ hne => absurd rfl hne⟩
  show gated (s.writePacket res).log = true
  unfold writePacket
  by_cases hq : s.writequeue = []
  · rw [if_pos hq]
    exact h.1
  · have hwrite : gated (s.call (.write .sock)).log = true :=
      gated_write.2 ⟨ha.sockWrite (ha.queue hq), h.1⟩
    rw [if_neg hq]
    cases res with
    | intr => exact hwrite
    | error => exact hwrite
    | wrote n =>
      dsimp only
      split_ifs <;> exact hwrite

end Loop

/-- A step that meets the condition keeps the invariant. -/
theorem sessionLoop_gated {s s' : Loop} {e : LoopEvent} (h : s.Gated) (hcond : Announced s e)
    (hst : sessionLoop.step s e = some s') : s'.Gated := by
  obtain ⟨hx, hp, -, rfl⟩ := sessionLoop_step.1 hst
  cases e with
  | select failed readfds writefds => exact Loop.gated_select h hcond
  | timeouts queued => exact Loop.gated_timeouts h hx hp hcond
  | input inp => exact Loop.gated_input h hx hp hcond
  | handle p => exact Loop.gated_handle h hx hp hcond
  | replies flushed connected => exact Loop.gated_replies h hx hp hcond
  | channelio io accepted => exact Loop.gated_channelio h hx hp hcond
  | output res => exact Loop.gated_output h hx hp res

/-! ### Other runs -/

/-- Every report that is still to be used comes from the `select` of the iteration. -/
def Loop.Reported (s : Loop) : Prop :=
  s.phase ≠ .select → ∀ d, writeReported d s.log = true → d ∈ s.writefds

theorem sessionLoop_reported {s s' : Loop} {e : LoopEvent} (h : s.Reported)
    (hst : sessionLoop.step s e = some s') : s'.Reported := by
  obtain ⟨-, hp, -, rfl⟩ := sessionLoop_step.1 hst
  cases e with
  | select failed readfds writefds => exact fun _ d hd => writeReported_select.1 hd
  | timeouts queued => cases queued <;> exact fun _ => h (by rw [hp]; simp [LoopEvent.phase])
  | input inp =>
    obtain ⟨t, hframe, heq⟩ := Loop.input_frame s inp
    intro _ d hd
    rw [LoopEvent.perform, heq] at hd ⊢
    rw [show _ = _ from hframe.writeReported d] at hd
    rw [show _ = _ from hframe.writefds]
    exact h (by rw [hp]; simp [LoopEvent.phase]) d hd
  | handle p =>
    have hold := h (by rw [hp]; simp [LoopEvent.phase])
    cases p with
    | other handled => exact fun _ => hold
    | channelData i len res adjust =>
      show Loop.Reported
        { s.recvMsgChannelData i len res adjust with phase := .replies, payload := false }
      rcases Loop.recvMsgChannelData_cases s i len res adjust with ⟨-, heq | heq⟩ |
        ⟨c, hlen, -, -, heq⟩
      · rw [heq]
        exact fun _ => hold
      · rw [heq]
        exact fun _ => hold
      · rw [heq]
        exact fun _ d hd => hold d ((Later.write s.log (.chan i)).writeReported d hd)
  | replies flushed connected =>
    have hold := h (by rw [hp]; simp [LoopEvent.phase])
    show Loop.Reported { (s.enqueue flushed).connected connected with phase := .channels }
    rcases Loop.connected_cases (s.enqueue flushed) connected with heq |
      ⟨i, n, c, -, -, -, -, heq⟩ <;> rw [heq] <;> exact fun _ => hold
  | channelio io accepted =>
    have hlater := Loop.channelioFrom_later s.readfds s.writefds io 0 s.channels s.log
    exact fun _ d hd =>
      h (by rw [hp]; simp [LoopEvent.phase]) d (hlater.writeReported d hd)
  | output res => exact fun hne => absurd rfl hne

/-- The session can go on to a call without a report. -/
def Loop.Ungated (s : Loop) : Prop :=
  ∃ ms t, sessionLoop.exec s ms = some t ∧ gated t.log = false

theorem Loop.Ungated.of_step {s : Loop} {e : LoopEvent} (hx : s.exited = false)
    (hp : s.phase = e.phase) (ha : e.answers s = true) (h : (e.perform s).Ungated) :
    s.Ungated := by
  obtain ⟨ms, t, hms, ht⟩ := h
  refine ⟨e :: ms, t, ?_, ht⟩
  rw [LTS.exec_cons, sessionLoop_step.2 ⟨hx, hp, ha, rfl⟩]
  exact hms

theorem Loop.Ungated.of_log {s : Loop} (h : gated s.log = false) : s.Ungated := ⟨[], s, rfl, h⟩

/-- There is something to write, and the socket has not been reported for it. -/
structure Loop.Overdue (s : Loop) : Prop where
  exited : s.exited = false
  queue : s.writequeue ≠ []
  sock : writeReported .sock s.log = false

/-- The peer's identification, and no packet. -/
def quietInput : SockInput := { ident := (ascii "SSH-2.0\n").map .byte }

namespace Loop

variable {s : Loop}

theorem identReadln_exited (s : Loop) (line : Bytes) (inputs : List IdentInput) :
    (s.identReadln line inputs).1.exited = s.exited := by
  induction inputs generalizing s line with
  | nil => rfl
  | cons inp inputs ih =>
    cases inp with
    | silent => exact ih _ line
    | intr => exact ih _ line
    | ended => rfl
    | byte b =>
      rw [identReadln]
      dsimp only
      generalize (if b = 13 then line else line ++ [b]) = line'
      split_ifs
      · rfl
      · exact ih _ line'
      · rfl

/-- The line that is read does not depend on the state. -/
theorem identReadln_line (s t : Loop) (line : Bytes) (inputs : List IdentInput) :
    (s.identReadln line inputs).2 = (t.identReadln line inputs).2 := by
  induction inputs generalizing s t line with
  | nil => rfl
  | cons inp inputs ih =>
    cases inp with
    | silent => exact ih _ _ line
    | intr => exact ih _ _ line
    | ended => rfl
    | byte b =>
      rw [identReadln, identReadln]
      dsimp only
      generalize (if b = 13 then line else line ++ [b]) = line'
      split_ifs
      · rfl
      · exact ih _ _ line'
      · rfl

theorem input_quiet (hx : s.exited = false) : (s.input quietInput).exited = false := by
  have hline : (s.identReadln [] quietInput.ident).2 = some (ascii "SSH-2.0") := by
    rw [identReadln_line s {}]
    decide
  have hident : (s.readSessionIdentification quietInput.ident).exited = s.exited := by
    have hkeep := identReadln_exited s [] quietInput.ident
    unfold readSessionIdentification
    generalize s.identReadln [] quietInput.ident = r at hline hkeep
    obtain ⟨t, line⟩ := r
    subst hline
    dsimp only at hkeep ⊢
    rw [if_pos (by decide)]
    exact hkeep
  have hrest : ∀ buf, (s.readPacketRest buf .intr false).exited = s.exited := by
    intro buf
    unfold readPacketRest
    dsimp only
    split_ifs <;> rfl
  have hpacket : (s.readPacket quietInput).exited = s.exited := by
    unfold readPacket
    split_ifs
    · rfl
    · exact hrest _
  unfold input
  dsimp only
  split_ifs
  · exact hpacket.trans hx
  · exact hident.trans hx
  · exact hx

/-- What is overdue is written without a report at the end of the iteration. -/
theorem Overdue.ungated (h : s.Overdue) (hp : s.phase ≠ .select) : s.Ungated := by
  have houtput : ∀ s : Loop, s.Overdue → s.phase = .output → s.Ungated := by
    intro s h hp
    refine Ungated.of_step (e := .output .intr) h.exited hp rfl (Ungated.of_log ?_)
    show gated (s.writePacket .intr).log = false
    rw [writePacket, if_neg h.queue]
    simp [call, gated, h.sock]
  have hchannels : ∀ s : Loop, s.Overdue → s.phase = .channels → s.Ungated := by
    intro s h hp
    refine Ungated.of_step (e := .channelio (fun _ => {}) []) h.exited hp rfl
      (houtput _ ⟨h.exited, ?_, ?_⟩ rfl)
    · show (s.writequeue ++ _) ++ _ ≠ []
      exact append_ne_nil_iff.2 (.inl (append_ne_nil_iff.2 (.inl h.queue)))
    · have hlater := channelioFrom_later s.readfds s.writefds (fun _ => {}) 0 s.channels s.log
      show writeReported .sock
        (channelioFrom s.readfds s.writefds (fun _ => {}) 0 s.channels s.log).2.1 = false
      by_contra hne
      have hrep := hlater.writeReported .sock (by simpa using hne)
      simp [h.sock] at hrep
  have hreplies : ∀ s : Loop, s.Overdue → s.phase = .replies → s.Ungated := by
    intro s h hp
    refine Ungated.of_step (e := .replies [] none) h.exited hp rfl
      (hchannels _ ⟨h.exited, ?_, h.sock⟩ rfl)
    exact append_ne_nil_iff.2 (.inl h.queue)
  have hhandle : ∀ s : Loop, s.Overdue → s.phase = .handle → s.Ungated := by
    intro s h hp
    refine Ungated.of_step (e := .handle (.other ⟨false, [], s.channels, s.blocksize, s.macsize,
      s.aead, s.dataallowed⟩)) h.exited hp rfl (hreplies _ ⟨rfl, ?_, h.sock⟩ rfl)
    exact append_ne_nil_iff.2 (.inl h.queue)
  have hinput : ∀ s : Loop, s.Overdue → s.phase = .input → s.Ungated := by
    intro s h hp
    refine Ungated.of_step (e := .input quietInput) h.exited hp rfl ?_
    have hx := input_quiet h.exited
    show (s.input quietInput).Ungated
    obtain ⟨t, hframe, heq⟩ := input_frame s quietInput
    rw [heq] at hx ⊢
    have hover : Overdue { t with phase := if t.payload then .handle else .replies } :=
      ⟨hx, fun hq => h.queue (hframe.writequeue.symm.trans hq),
        (hframe.writeReported .sock).trans h.sock⟩
    cases hpay : t.payload with
    | true =>
      rw [hpay] at hover
      exact hhandle _ hover rfl
    | false =>
      rw [hpay] at hover
      exact hreplies _ hover rfl
  cases hphase : s.phase with
  | select => exact absurd hphase hp
  | timeouts =>
    refine Ungated.of_step (e := .timeouts (some [])) h.exited hphase rfl
      (hinput _ ⟨h.exited, ?_, h.sock⟩ rfl)
    exact append_ne_nil_iff.2 (.inl h.queue)
  | input => exact hinput s h hphase
  | handle => exact hhandle s h hphase
  | replies => exact hreplies s h hphase
  | channels => exact hchannels s h hphase
  | output => exact houtput s h hphase

end Loop

/-- A step that queues a packet keeps it in the queue, and the session and the reports of `select`
as they are. -/
theorem queues_perform {s : Loop} {e : LoopEvent} (hx : s.exited = false) (hq : e.Queues s) :
    (e.perform s).exited = false ∧ (e.perform s).writequeue ≠ [] ∧
      (e.perform s).writefds = s.writefds ∧ (e.perform s).phase ≠ .select := by
  cases e with
  | select failed readfds writefds => exact hq.elim
  | input inp => exact hq.elim
  | output res => exact hq.elim
  | timeouts queued =>
    cases queued with
    | none => exact absurd rfl hq
    | some queued =>
      exact ⟨hx, Loop.append_ne_nil_iff.2 (.inr hq), rfl, by simp [LoopEvent.perform]⟩
  | handle p =>
    cases p with
    | other handled =>
      exact ⟨hq.1, Loop.append_ne_nil_iff.2 (.inr hq.2), rfl, by simp [LoopEvent.perform]⟩
    | channelData i len res adjust =>
      obtain ⟨c, hw, hadj⟩ := hq
      rcases Loop.recvMsgChannelData_cases s i len res adjust with ⟨hnone, -⟩ |
        ⟨c', hlen, -, hw', heq⟩
      · simp [hnone] at hw
      · rw [hw] at hw'
        cases hw'
        have hsend : (c.written len hlen res).adjusts = true :=
          (Loop.written_adjusts c len hlen res).2 hadj
        rw [hsend, if_pos rfl] at heq
        refine ⟨?_, ?_, ?_, by simp [LoopEvent.perform]⟩
        · show (s.recvMsgChannelData i len res adjust).exited = false
          rw [heq]
          exact hx
        · show (s.recvMsgChannelData i len res adjust).writequeue ≠ []
          rw [heq]
          simp
        · show (s.recvMsgChannelData i len res adjust).writefds = s.writefds
          rw [heq]
  | replies flushed connected =>
    show ((s.enqueue flushed).connected connected).exited = false ∧
      ((s.enqueue flushed).connected connected).writequeue ≠ [] ∧
      ((s.enqueue flushed).connected connected).writefds = s.writefds ∧ LoopPhase.channels ≠ _
    rcases Loop.connected_cases (s.enqueue flushed) connected with heq |
      ⟨i, n, c, -, -, -, -, heq⟩
    · rcases hq with hq | ⟨i, n, rfl, hpend⟩
      · rw [heq]
        exact ⟨hx, Loop.append_ne_nil_iff.2 (.inr hq), rfl, by decide⟩
      · -- the connect was there, so it has been taken
        exfalso
        have hlong := congrArg (fun t : Loop => t.writequeue.length) heq
        unfold Loop.connects at hpend
        unfold Loop.connected at hlong
        dsimp only at hlong
        cases hc : s.channel i with
        | none => simp [hc] at hpend
        | some c =>
          have hc' : (s.enqueue flushed).channel i = some c := hc
          simp only [hc, Bool.and_eq_true, decide_eq_true_eq] at hpend
          rw [hc'] at hlong
          simp [hpend, Loop.enqueue] at hlong
    · rw [heq]
      exact ⟨hx, by simp, rfl, by decide⟩
  | channelio io accepted =>
    refine ⟨hx, ?_, rfl, by simp [LoopEvent.perform]⟩
    rcases hq with ⟨i, c, hc, hsends⟩ | hacc
    · have hslot : s.channels[i]? = some (some c) := by
        unfold Loop.channel at hc
        exact Option.join_eq_some_iff.1 hc
      refine Loop.append_ne_nil_iff.2 (.inl (Loop.append_ne_nil_iff.2 (.inr ?_)))
      exact (Loop.channelioFrom_queued _ _ io 0 s.channels s.log).2
        ⟨i, c, hslot, by rw [Nat.zero_add]; exact hsends⟩
    · exact Loop.append_ne_nil_iff.2 (.inr hacc)

/-- CHANNEL_DATA that finds its `writefd` reported and is not taken as a whole is followed by a
second call. -/
theorem partial_data_ungated {s : Loop} {i len : ℕ} {res : WriteResult} {adjust : ℕ}
    {c : LoopChannel} (hx : s.exited = false) (hw : s.writesData i len = some c)
    (hmem : .chan i ∈ s.writefds) (herr : res ≠ .error)
    (hpart : res.taken (c.writebuf + len) ≠ c.writebuf + len) :
    (LoopEvent.perform s (.handle (.channelData i len res adjust))).Ungated := by
  rcases Loop.recvMsgChannelData_cases s i len res adjust with ⟨hnone, -⟩ |
    ⟨c', hlen, hc, hw', heq⟩
  · simp [hnone] at hw
  · rw [hw] at hw'
    cases hw'
    have hopen : c.writefd = .opened := by
      have hpass := (Option.filter_eq_some_iff.1 hw).2
      simp only [Bool.and_eq_true, decide_eq_true_eq] at hpass
      exact hpass.1.2
    show Loop.Ungated
      { s.recvMsgChannelData i len res adjust with phase := .replies, payload := false }
    rw [heq]
    refine Loop.Ungated.of_step (e := .replies [] none) hx rfl rfl ?_
    refine Loop.Ungated.of_step (e := .channelio (fun _ => {}) []) hx rfl rfl
      (Loop.Ungated.of_log ?_)
    obtain ⟨hbuf, hfd⟩ := Loop.windowAdjust_writebuf (c.written len hlen res)
    have hslot : (s.channels.set i (some (c.written len hlen res).windowAdjust))[i]? =
        some (some (c.written len hlen res).windowAdjust) := by
      have hset := Loop.channel_set hc (c.written len hlen res).windowAdjust i
      rw [if_pos rfl] at hset
      exact Option.join_eq_some_iff.1 hset
    have hwritten : (c.written len hlen res).writebuf ≠ 0 ∧
        (c.written len hlen res).writefd = .opened := by
      have hle := res.taken_le (c.writebuf + len)
      rw [LoopChannel.written, if_neg herr]
      exact ⟨by show c.writebuf + len - res.taken (c.writebuf + len) ≠ 0; omega, hopen⟩
    have hmem' : .chan (0 + i) ∈ s.writefds := by
      rw [Nat.zero_add]
      exact hmem
    exact Loop.channelioFrom_not_gated (fun _ => {}) hslot (hfd.trans hwritten.2) hmem'
      (fun h => hwritten.1 (hbuf.symm.trans h))
      (by rw [Nat.zero_add]; exact writeReported_write_self)

/-- A step that does not meet the condition can be continued to a call without a report. -/
theorem sessionLoop_ungated {s s' : Loop} {e : LoopEvent} (h : s.Reported)
    (hcond : ¬ Announced s e) (hst : sessionLoop.step s e = some s') : s'.Ungated := by
  have hrep := sessionLoop_reported h hst
  obtain ⟨hx, hp, -, rfl⟩ := sessionLoop_step.1 hst
  by_cases hqueue : e.Queues s ∧ .sock ∉ s.writefds
  · obtain ⟨hexit, hne, hfds, hphase⟩ := queues_perform hx hqueue.1
    refine Loop.Overdue.ungated ⟨hexit, hne, ?_⟩ hphase
    by_contra hsock
    exact hqueue.2 (hfds ▸ hrep hphase .sock (by simpa using hsock))
  have hfirst : e.Queues s → .sock ∈ s.writefds := by
    intro hq
    by_contra hsock
    exact hqueue ⟨hq, hsock⟩
  cases e with
  | select failed readfds writefds =>
    have hlate : (s.connectsFailed failed).writequeue ≠ [] ∧ .sock ∉ writefds := by
      by_contra hno
      refine hcond ⟨hfirst, fun hq => ?_⟩
      by_contra hsock
      exact hno ⟨hq, hsock⟩
    refine Loop.Overdue.ungated ⟨hx, hlate.1, ?_⟩ (by simp [LoopEvent.perform])
    by_contra hsock
    exact hlate.2 (writeReported_select.1 (eq_true_of_ne_false hsock))
  | input inp =>
    by_contra hgood
    refine hcond ⟨hfirst, fun hsel hident hblock hdone len hlen => ?_⟩
    by_contra hlong
    refine hgood (Loop.Ungated.of_log ?_)
    show gated (s.input inp).log = false
    unfold Loop.input
    rw [if_pos hsel, if_pos hident]
    exact Loop.readPacket_not_gated hblock hdone hlen (Nat.lt_of_not_le hlong)
  | handle p =>
    cases p with
    | other handled => exact absurd ⟨hfirst, trivial⟩ hcond
    | channelData i len res adjust =>
      by_contra hgood
      refine hcond ⟨hfirst, fun c hw => ?_⟩
      have hmem : .chan i ∈ s.writefds := by
        by_contra hnot
        refine hgood (Loop.Ungated.of_log ?_)
        show gated (s.recvMsgChannelData i len res adjust).log = false
        rcases Loop.recvMsgChannelData_cases s i len res adjust with ⟨hnone, -⟩ |
          ⟨c', hlen, -, -, heq⟩
        · simp [hnone] at hw
        · have hunreported : writeReported (.chan i) s.log = false := by
            by_contra hne
            exact hnot (h (by rw [hp]; simp [LoopEvent.phase]) _ (by simpa using hne))
          rw [heq]
          simp [gated, hunreported]
      refine ⟨hmem, ?_⟩
      by_contra hpart
      rw [not_or] at hpart
      exact hgood (partial_data_ungated hx hw hmem hpart.1 hpart.2)
  | timeouts queued => exact absurd ⟨hfirst, trivial⟩ hcond
  | replies flushed connected => exact absurd ⟨hfirst, trivial⟩ hcond
  | channelio io accepted => exact absurd ⟨hfirst, trivial⟩ hcond
  | output res => exact absurd ⟨hfirst, trivial⟩ hcond

/-- **Input and output are gated by `select`** in every run whose steps meet the condition.
Conversely every possible step that fails it has been made with a call that was not reported, or
the iteration can go on to one. -/
theorem gated_iff_announced (kexinit : ℕ) :
    (∀ ls t, sessionLoop.Along Announced (enteredLoop kexinit) ls →
      sessionLoop.exec (enteredLoop kexinit) ls = some t → gated t.log = true) ∧
    (∀ ls s e s', sessionLoop.exec (enteredLoop kexinit) ls = some s →
      sessionLoop.step s e = some s' → ¬ Announced s e →
      ∃ ms t, sessionLoop.exec s' ms = some t ∧ gated t.log = false) := by
  refine ⟨?_, ?_⟩
  · intro ls t hal hls
    have hinit : (enteredLoop kexinit).Gated := ⟨rfl, fun _ hne => absurd rfl hne⟩
    exact (LTS.exec_invariant hinit (fun s l s' h hC hst => sessionLoop_gated h hC hst) hal hls).1
  · intro ls s e s' hls hst hcond
    have hinit : (enteredLoop kexinit).Reported := fun hne => absurd rfl hne
    exact sessionLoop_ungated
      (LTS.exec_invariant' hinit (fun _ _ _ => sessionLoop_reported) hls) hcond hst

/-- The iteration in which KEXINIT is written to a socket that was reported. -/
def kexinitIteration : List LoopEvent :=
  [.select [] [] [.sock], .timeouts (some []), .input {}, .replies [] none,
    .channelio (fun _ => {}) [], .output (.wrote 1024)]

/-- The iteration in which the peer's identification is read. -/
def identIteration : List LoopEvent :=
  [.select [] [.sock] [], .timeouts (some []), .input quietInput, .replies [] none,
    .channelio (fun _ => {}) [], .output .intr]

theorem gated_iff_announced_kexinit :
    ∃ t, sessionLoop.exec (enteredLoop 1024) kexinitIteration = some t ∧
      t.log = [.write .sock, .select [] [.sock]] ∧ gated t.log = true := by
  refine ⟨_, rfl, rfl, (gated_iff_announced 1024).1 kexinitIteration _ ?_ rfl⟩
  refine ⟨⟨nofun, fun _ => by simp⟩, fun s₁ h₁ =>
    ⟨⟨fun h => absurd rfl h, trivial⟩, fun s₂ h₂ => ⟨⟨nofun, fun _ _ _ hb => nomatch hb⟩,
      fun s₃ h₃ => ⟨⟨?_, trivial⟩, fun s₄ h₄ => ⟨⟨?_, trivial⟩, fun s₅ h₅ => ?_⟩⟩⟩⟩⟩
  · rintro (h | ⟨i, n, h, -⟩)
    · exact absurd rfl h
    · cases h
  · cases h₁
    cases h₂
    cases h₃
    cases h₄
    rintro (⟨i, c, h, -⟩ | h)
    · cases h
    · exact absurd rfl h
  · exact ⟨⟨nofun, trivial⟩, fun _ _ => trivial⟩

/-- The peer sends the first block of its KEXINIT and nothing else.  `read_packet` reads the block
and then reads again, and the second read blocks. -/
theorem packet_head_not_gated :
    ∃ t, sessionLoop.exec (enteredLoop 1024) (kexinitIteration ++ identIteration ++
        [LoopEvent.select [] [.sock] [], .timeouts (some []),
          .input { first := .got 8, field := 1020, rest := .intr }]) = some t ∧
      gated t.log = false := by
  refine ⟨_, rfl, ?_⟩
  decide

end Ps4Dropbear
