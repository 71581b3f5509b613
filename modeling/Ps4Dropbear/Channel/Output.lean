import Ps4Dropbear.Channel.SingleCommand

/-!
# The output of a command

A command has written all its output before `ps4_backend_state` says that it is done, and only then
does `check_close` flush: it gives `readfd` up when nothing is left to read.  Otherwise `readfd` is
given up at end of file.  EOF is sent once `readfd` is gone, and CLOSE behind EOF.

That needs a descriptor of the command's own from the start.  A CHANNEL_EOF that arrives before the
command takes the uninitialised descriptors away, and a CHANNEL_CLOSE cuts the output off.

* `OrderedOutput` : data, EOF, exit status, CLOSE.
* `Channel.Streams` : the part of the invariant that speaks about the channel alone.
* `channelLife_orderedOutput` : what the peer is sent, in every run without the two.
-/

namespace Ps4Dropbear

/-- The message belongs to the output of a command or to its end. -/
def ChanMsg.isOutput : ChanMsg → Bool
  | .data _ | .eof | .exitStatus _ | .exitSignal _ | .close => true
  | _ => false

/-- **The property** of the messages sent so far, when `written` has been written so far: data that
is a prefix of it, then EOF only if it is all, then at most one exit status, then CLOSE. -/
def OrderedOutput (msgs : List ChanMsg) (written : Bytes) : Prop :=
  ∃ (chunks : List Bytes) (tail exits : List ChanMsg),
    msgs.filter ChanMsg.isOutput = chunks.map .data ++ tail ∧
    chunks.flatten <+: written ∧ (tail ≠ [] → chunks.flatten = written) ∧
    (exits = [] ∨ ∃ status, exits = [ChanMsg.exitStatus status]) ∧
    tail <+: .eof :: (exits ++ [ChanMsg.close])

/-- **The condition**: no CHANNEL_CLOSE, and CHANNEL_EOF only behind a successful command request. -/
def KeepsOutput (s : ChannelLife) (e : LifeEvent) : Prop :=
  e ≠ .recvClose ∧ (s.commands = 0 → e ≠ .recvEof)

/-- What has been sent up to some earlier moment is ordered as well. -/
theorem OrderedOutput.of_isPrefix {msgs msgs' : List ChanMsg} {written : Bytes}
    (h : OrderedOutput msgs written) (hp : msgs' <+: msgs) : OrderedOutput msgs' written := by
  obtain ⟨chunks, tail, exits, hmsgs, hwritten, hall, hexits, htail⟩ := h
  have hp' := hp.filter ChanMsg.isOutput
  rw [hmsgs] at hp'
  rcases List.prefix_or_prefix_of_prefix hp' (List.prefix_append _ tail) with hdata | hdata
  · -- the cut is in the data
    obtain ⟨chunks', hchunks', heq⟩ := List.prefix_map_iff.1 hdata
    obtain ⟨rest, rfl⟩ := hchunks'
    refine ⟨chunks', [], exits, by simp [heq], ?_, by simp, hexits, List.nil_prefix⟩
    rw [List.flatten_append] at hwritten
    exact (List.prefix_append _ _).trans hwritten
  · -- the cut is behind it
    obtain ⟨tail', heq⟩ := hdata
    rw [← heq, List.prefix_append_right_inj] at hp'
    refine ⟨chunks, tail', exits, heq.symm, hwritten, fun hne => hall ?_, hexits, hp'.trans htail⟩
    rintro rfl
    exact hne (List.prefix_nil.1 hp')

/-! ### The channel -/

/-- The messages behind the data, as the flags have it. -/
def OutputTail (sentEof sentClose : Bool) (tail : List ChanMsg) : Prop :=
  match sentEof, sentClose with
  | false, false => tail = []
  | true, false => tail = [.eof]
  | true, true => ∃ exits, (exits = [] ∨ ∃ status, exits = [ChanMsg.exitStatus status]) ∧
    tail = .eof :: (exits ++ [ChanMsg.close])
  | false, true => False

/-- The channel has sent all of `written` but `unread`.  `silent` says that nothing more will be
written. -/
structure Channel.Streams (c : Channel) (written unread : Bytes) (silent : Prop) : Prop where
  recvClose : c.recvClose = false
  errfd : c.errfd = fdClosed
  /-- Giving `writefd` up leaves `readfd` alone. -/
  apart : c.bidirFd = true ∨ c.readfd ≠ c.writefd ∨ c.readfd = fdClosed ∨
    c.readfd = fdUninit ∧ c.recvEof = false
  stream : ∃ (chunks : List Bytes) (tail : List ChanMsg),
    c.sent.filter ChanMsg.isOutput = chunks.map .data ++ tail ∧
    chunks.flatten ++ unread = written ∧ OutputTail c.sentEof c.sentClose tail
  drained : c.readfd = fdClosed → unread = [] ∧ silent
  eof : c.sentEof = true → c.readfd = fdClosed

namespace Channel

variable {c c' : Channel} {written unread : Bytes} {silent : Prop}

theorem Streams.mono {silent' : Prop} (h : Streams c written unread silent)
    (hsilent : silent → silent') :
    Streams c written unread silent' :=
  ⟨h.1, h.2, h.3, h.4, fun hc => ⟨(h.drained hc).1, hsilent (h.drained hc).2⟩, h.6⟩

/-- Only these fields matter. -/
theorem Streams.of_eq (h : Streams c written unread silent) (h₁ : c'.recvClose = c.recvClose)
    (h₂ : c'.errfd = c.errfd) (h₃ : c'.bidirFd = c.bidirFd) (h₄ : c'.readfd = c.readfd)
    (h₅ : c'.writefd = c.writefd) (h₆ : c'.recvEof = c.recvEof) (h₇ : c'.sentEof = c.sentEof)
    (h₈ : c'.sentClose = c.sentClose)
    (h₉ : c'.sent.filter ChanMsg.isOutput = c.sent.filter ChanMsg.isOutput) :
    Streams c' written unread silent where
  recvClose := h₁.trans h.recvClose
  errfd := h₂.trans h.errfd
  apart := by
    rw [h₃, h₄, h₅, h₆]
    exact h.apart
  stream := by
    rw [h₇, h₈, h₉]
    exact h.stream
  drained := by
    rw [h₄]
    exact h.drained
  eof := by
    rw [h₄, h₇]
    exact h.eof

/-- Giving `writefd` up leaves `readfd` alone, unless both are uninitialised. -/
theorem closeChanFd_wr_readfd
    (h : c.bidirFd = true ∨ c.readfd ≠ c.writefd ∨ c.readfd = fdClosed) :
    (c.closeChanFd c.writefd .wr).readfd = c.readfd := by
  obtain ⟨calls, heq⟩ := closeChanFd_eq c c.writefd .wr
  rw [heq]
  simp only [endDirection]
  rcases h with hb | hne | hc
  · simp [hb]
  · rw [if_neg (by simp [hne.symm])]
  · rw [hc]
    split_ifs <;> rfl

theorem Streams.readfd_eq (h : Streams c written unread silent)
    (hw : c.recvEof = true ∨ c.writefd ≠ fdUninit) :
    (c.closeChanFd c.writefd .wr).readfd = c.readfd := by
  refine closeChanFd_wr_readfd ?_
  rcases h.apart with hb | hne | hc | ⟨hu, he⟩
  · exact .inl hb
  · exact .inr (.inl hne)
  · exact .inr (.inr hc)
  · have hne : c.writefd ≠ fdUninit := hw.resolve_left (by simp [he])
    rw [hu]
    exact .inr (.inl hne.symm)

theorem Streams.closeWritefd (h : Streams c written unread silent)
    (hw : c.recvEof = true ∨ c.writefd ≠ fdUninit) :
    Streams (c.closeChanFd c.writefd .wr) written unread silent := by
  have hread := h.readfd_eq hw
  have hwrite := closeChanFd_writefd c
  have hs := closeChanFd_shuts c c.writefd .wr
  have hkeep : (c.closeChanFd c.writefd .wr).recvClose = c.recvClose ∧
      (c.closeChanFd c.writefd .wr).bidirFd = c.bidirFd ∧
      (c.closeChanFd c.writefd .wr).sentEof = c.sentEof ∧
      (c.closeChanFd c.writefd .wr).sentClose = c.sentClose ∧
      (c.closeChanFd c.writefd .wr).sent = c.sent := by
    rw [hs.rest]
    exact ⟨rfl, rfl, rfl, rfl, rfl⟩
  obtain ⟨kclose, kbidir, keof, ksent, kmsgs⟩ := hkeep
  refine ⟨kclose.trans h.recvClose, hs.closed.2.2 h.errfd, ?_, ?_, ?_, ?_⟩
  · rw [kbidir, hread, hwrite]
    by_cases hc : c.readfd = fdClosed
    · exact .inr (.inr (.inl hc))
    · exact .inr (.inl hc)
  · rw [keof, ksent, kmsgs]
    exact h.stream
  · rw [hread]
    exact h.drained
  · rw [keof, hread]
    exact h.eof

theorem Streams.closeReadfd (h : Streams c written unread silent) (hunread : unread = [])
    (hsilent : silent) :
    Streams (c.closeChanFd c.readfd .rd) written unread silent := by
  have hread := closeChanFd_readfd c
  have hs := closeChanFd_shuts c c.readfd .rd
  have hkeep : (c.closeChanFd c.readfd .rd).recvClose = c.recvClose ∧
      (c.closeChanFd c.readfd .rd).sentEof = c.sentEof ∧
      (c.closeChanFd c.readfd .rd).sentClose = c.sentClose ∧
      (c.closeChanFd c.readfd .rd).sent = c.sent := by
    rw [hs.rest]
    exact ⟨rfl, rfl, rfl, rfl⟩
  obtain ⟨kclose, keof, ksent, kmsgs⟩ := hkeep
  refine ⟨kclose.trans h.recvClose, hs.closed.2.2 h.errfd, .inr (.inr (.inl hread)), ?_,
    fun _ => ⟨hunread, hsilent⟩, fun _ => hread⟩
  rw [keof, ksent, kmsgs]
  exact h.stream

theorem Streams.sendMsgChannelEof (h : Streams c written unread silent) (he : c.sentEof = false)
    (hfd : c.readfd = fdClosed) : Streams c.sendMsgChannelEof written unread silent := by
  obtain ⟨chunks, tail, hsent, hstream, htail⟩ := h.stream
  refine ⟨h.recvClose, h.errfd, h.apart, ⟨chunks, [.eof], ?_, hstream, ?_⟩, h.drained,
    fun _ => hfd⟩
  · rw [he] at htail
    cases hc : c.sentClose with
    | true =>
      rw [hc] at htail
      exact htail.elim
    | false =>
      rw [hc] at htail
      have hnil : tail = [] := htail
      simp [Channel.sendMsgChannelEof, hsent, hnil, ChanMsg.isOutput]
  · rw [he] at htail
    cases hc : c.sentClose with
    | true =>
      rw [hc] at htail
      exact htail.elim
    | false =>
      simp only [Channel.sendMsgChannelEof, hc]
      rfl

theorem Streams.sendMsgChannelClose (h : Streams c written unread silent)
    (hs : c.sentClose = false) (he : c.sentEof = true)
    (hexit : c.exitMessages = [] ∨ ∃ status, c.exitMessages = [.exitStatus status]) :
    Streams c.sendMsgChannelClose written unread silent := by
  obtain ⟨chunks, tail, hsent, hstream, htail⟩ := h.stream
  rw [he, hs] at htail
  have heof : tail = [.eof] := htail
  obtain ⟨d, hshuts, hread, -, heq⟩ := sendMsgChannelClose_eq c
  have hkeep : d.recvClose = c.recvClose ∧ d.sentEof = true ∧ d.sentClose = true ∧
      d.sent = c.sent ++ (c.exitMessages ++ [ChanMsg.close]) := by
    rw [hshuts.rest]
    exact ⟨rfl, rfl, rfl, rfl⟩
  obtain ⟨kclose, keof, ksent, kmsgs⟩ := hkeep
  have hexits : (c.exitMessages ++ [ChanMsg.close]).filter ChanMsg.isOutput =
      c.exitMessages ++ [ChanMsg.close] := by
    rcases hexit with hnil | ⟨status, hone⟩
    · simp [hnil, ChanMsg.isOutput]
    · simp [hone, ChanMsg.isOutput]
  rw [heq]
  refine ⟨kclose.trans h.recvClose, hshuts.closed.2.2 h.errfd, .inr (.inr (.inl hread)),
    ⟨chunks, .eof :: (c.exitMessages ++ [ChanMsg.close]), ?_, hstream, ?_⟩,
    fun _ => h.drained (h.eof he),
    fun _ => hread⟩
  · rw [kmsgs, List.filter_append, hexits, hsent, heof]
    simp
  · rw [keof, ksent]
    exact ⟨c.exitMessages, hexit, rfl⟩

theorem Streams.closeUp (h : Streams c written unread silent) {allowed : Bool}
    (hexit : allowed = true → c.sentClose = false →
      c.exitMessages = [] ∨ ∃ status, c.exitMessages = [.exitStatus status]) :
    Streams (c.closeUp allowed) written unread silent ∧
      (c.closeUp allowed).readfd = c.readfd := by
  have hrule : Streams (c.closeUp allowed) written unread silent ∧
      (c.closeUp allowed).readfd = c.readfd ∧ (c.closeUp allowed).type = c.type ∧
      (c.closeUp allowed).chansess = c.chansess ∧
      ((c.closeUp allowed).sentClose = false → c.sentClose = false) := by
    refine closeUp_rule (P := fun d => Streams d written unread silent ∧ d.readfd = c.readfd ∧
      d.type = c.type ∧ d.chansess = c.chansess ∧ (d.sentClose = false → c.sentClose = false))
      ⟨h, rfl, rfl, rfl, id⟩ ?_ ?_ ?_ ?_
    · rintro d ⟨hd, hread, hrest⟩ hw
      refine ⟨hd.closeWritefd hw, (hd.readfd_eq hw).trans hread, ?_⟩
      rw [(closeChanFd_shuts d d.writefd .wr).rest]
      exact hrest
    · rintro d ⟨hd, hrest⟩ he hfd
      exact ⟨hd.sendMsgChannelEof he hfd, hrest⟩
    · rintro d ⟨hd, hread, htype, hsess, hopen⟩ hs hall hwhy
      have hmsgs : d.exitMessages = c.exitMessages := by
        rw [exitMessages, exitMessages, htype, hsess]
      obtain ⟨hclosed, heof⟩ := hwhy.resolve_left (by simp [hd.recvClose])
      obtain ⟨d', hshuts, hread', -, heq⟩ := sendMsgChannelClose_eq d
      refine ⟨hd.sendMsgChannelClose hs heof ?_, ?_, ?_⟩
      · rw [hmsgs]
        exact hexit hall (hopen hs)
      · rw [heq, hread', ← hread, hclosed]
      · rw [heq, hshuts.rest]
        exact ⟨htype, hsess, fun hn => by cases hn⟩
    · rintro d ⟨hd, hrest⟩
      exact ⟨hd.of_eq rfl rfl rfl rfl rfl rfl rfl rfl rfl, hrest⟩
  exact ⟨hrule.1, hrule.2.1⟩

theorem Streams.relays (h : Streams c written unread silent) (hr : Relays c c') :
    Streams c' written unread silent ∧ c'.readfd = c.readfd := by
  obtain ⟨d, adjusts, writebuf, recvwindow, recvdonelen, hd, hadjusts, rfl⟩ := hr
  have hstreams : Streams d written unread silent ∧ d.readfd = c.readfd := by
    rcases hd with rfl | ⟨hfd, rfl⟩
    · exact ⟨h, rfl⟩
    · have hw : c.writefd ≠ fdUninit := by
        intro hu
        rw [hu] at hfd
        exact absurd hfd (by decide)
      exact ⟨h.closeWritefd (.inr hw), h.readfd_eq (.inr hw)⟩
  refine ⟨hstreams.1.of_eq rfl rfl rfl rfl rfl rfl rfl rfl ?_, hstreams.2⟩
  rcases hadjusts with rfl | ⟨incr, rfl⟩
  · simp
  · simp [ChanMsg.isOutput]

/-- Data is sent while `readfd` is open. -/
theorem Streams.sendData (h : Streams c written unread silent) (hs : c.sentClose = false)
    (hfd : 0 ≤ c.readfd) {bytes : Bytes} (hb : bytes <+: unread) (n : ℕ) :
    Streams { c with transwindow := n, sent := c.sent ++ [.data bytes] } written
      (unread.drop bytes.length) silent := by
  obtain ⟨chunks, tail, hsent, hstream, htail⟩ := h.stream
  have hopen : c.readfd ≠ fdClosed := by
    intro hc
    rw [hc] at hfd
    exact absurd hfd (by decide)
  have he : c.sentEof = false := by
    by_contra he
    exact hopen (h.eof (by simpa using he))
  rw [he, hs] at htail
  have hnil : tail = [] := htail
  obtain ⟨rest, rfl⟩ := hb
  refine ⟨h.recvClose, h.errfd, h.apart, ⟨chunks ++ [bytes], [], ?_, ?_, ?_⟩,
    fun hc => absurd hc hopen, h.eof⟩
  · simp [hsent, hnil, ChanMsg.isOutput]
  · simp [← hstream]
  · rw [he, hs]
    rfl

/-- A command starts on a channel that has sent nothing. -/
theorem Streams.start (h : Streams c [] [] silent) (hread : c.readfd = fdUninit) {cs' : ChanSess}
    (hfd : 0 ≤ cs'.readfd) (herr : cs'.errfd = fdClosed)
    (hapart : cs'.bidirFd = true ∨ cs'.readfd ≠ cs'.writefd) (out : Bytes) (silent' : Prop) :
    Streams (c.withSession cs') out out silent' := by
  have heof : c.sentEof = false := by
    by_contra he
    have hclosed := h.eof (by simpa using he)
    rw [hread] at hclosed
    exact absurd hclosed (by decide)
  obtain ⟨chunks, tail, hsent, hstream, htail⟩ := h.stream
  rw [List.append_nil] at hstream
  refine ⟨h.recvClose, herr, hapart.imp_right .inl, ⟨chunks, tail, hsent, ?_, htail⟩,
    fun hc => ?_, fun he => ?_⟩
  · rw [hstream, List.nil_append]
  · have hc' : cs'.readfd = fdClosed := hc
    rw [hc'] at hfd
    exact absurd hfd (by decide)
  · have he' : c.sentEof = true := he
    simp [heof] at he'

/-! ### Messages are never taken back -/

theorem closeUp_sent (c : Channel) (allowed : Bool) : c.sent <+: (c.closeUp allowed).sent := by
  refine closeUp_rule (P := fun d => c.sent <+: d.sent) List.prefix_rfl ?_ ?_ ?_ ?_
  · intro d hd _
    rw [(closeChanFd_shuts d d.writefd .wr).rest]
    exact hd
  · intro d hd _ _
    exact hd.trans (List.prefix_append _ _)
  · intro d hd _ _ _
    obtain ⟨d', hshuts, -, -, heq⟩ := sendMsgChannelClose_eq d
    rw [heq, hshuts.rest]
    exact hd.trans (List.prefix_append _ _)
  · intro d hd
    exact hd

theorem Relays.sent (h : Relays c c') : c.sent <+: c'.sent := by
  obtain ⟨d, adjusts, writebuf, recvwindow, recvdonelen, rfl | ⟨-, rfl⟩, -, rfl⟩ := h
  · exact List.prefix_append _ _
  · rw [(closeChanFd_shuts c c.writefd .wr).rest]
    exact List.prefix_append _ _

end Channel

namespace ChannelLife

open Channel

variable {R : Restriction} {recvWindow : ℕ} {s t : ChannelLife}

theorem perform_sent {e : LifeEvent} (hst : Performs R s e t) :
    s.chan.sent <+: t.chan.sent := by
  cases hst with
  | @recvRequest payload env t _ _ hst =>
    rcases recvRequest_cases hst with ⟨w, rfl⟩ | ⟨-, w, ret, started, stores, cs', -, hout, rfl⟩
    · exact List.prefix_rfl
    · change s.chan.sent <+: (s.handled env s.chan.session cs').chan.sent
      rw [(handled_chan s env s.chan.session cs').1]
      exact List.prefix_rfl
  | recvData _ h => exact h.sent
  | writable h => exact h.sent
  | readEnd =>
    have hrest : (s.chan.closeChanFd s.chan.readfd .rd).sent = s.chan.sent := by
      rw [(closeChanFd_shuts s.chan s.chan.readfd .rd).rest]
    exact hrest ▸ List.prefix_rfl
  | readData => exact List.prefix_append _ _
  | @connectDone sock => cases sock <;> exact List.prefix_append _ _
  | @reply wantreply ret =>
    simp only [reply, Channel.sendReply]
    split_ifs
    · exact List.prefix_append _ _
    · exact List.prefix_append _ _
    · exact List.prefix_rfl
  | check =>
    obtain ⟨flushing, backendFd, cancelFd, heq⟩ := checked_eq s.chan
    have hchan : s.chan.checked.2.sent = s.chan.sent := by rw [heq]
    exact hchan ▸ List.prefix_rfl
  | flush =>
    have hrest : (s.chan.flush s.pending).sent = s.chan.sent := by
      rw [(flush_shuts s.chan s.pending).rest]
    exact hrest ▸ List.prefix_rfl
  | @closeUp allowed => exact closeUp_sent s.chan allowed
  | workerStore h =>
    simp only [workerStore] at h
    cases hw : s.worker <;> rw [hw] at h <;> cases h <;> exact List.prefix_rfl
  | _ => exact List.prefix_rfl

/-- Only `transmit` puts messages on their way. -/
theorem perform_wire {e : LifeEvent} (hst : Performs R s e t) : t.wire = s.wire := by
  cases hst with
  | @recvRequest payload env t _ _ hst =>
    rcases recvRequest_cases hst with ⟨w, rfl⟩ | ⟨-, w, ret, started, stores, cs', -, hout, rfl⟩
    · rfl
    · exact (handled_chan s env s.chan.session cs').2.2
  | workerStore h =>
    simp only [workerStore] at h
    cases hw : s.worker <;> rw [hw] at h <;> cases h <;> rfl
  | _ => rfl

/-- What is on its way has been sent. -/
theorem transmit_wire {e : LifeEvent} (hst : Performs R s e t) (h : s.wire <+: s.chan.sent) :
    t.transmit.wire <+: t.transmit.chan.sent := by
  unfold transmit
  split_ifs
  · exact List.prefix_rfl
  · rw [perform_wire hst]
    exact h.trans (perform_sent hst)

end ChannelLife

/-! ### The channel and its worker -/

/-- The invariant of a session channel in a run with `KeepsOutput`. -/
structure OutputInv (s : ChannelLife) : Prop where
  command : CommandInv s
  streams : s.chan.Streams s.written s.unread (s.worker ≠ .loop)
  connPending : s.chan.connPending = false
  /-- Nothing has been read before there is a command. -/
  unstarted : s.commands = 0 → s.chan.readfd = fdUninit ∧ s.chan.recvEof = false ∧ s.unread = [] ∧
    s.written = []
  started : s.chan.readfd = fdUninit → s.commands = 0
  ended : s.ended = true → s.worker ≠ .loop
  flushing : s.chan.flushing = true → s.chan.chansess.backendState = .done
  cancelFd : s.chan.chansess.cancelFd < 0

namespace OutputInv

open Channel ChannelLife

variable {R : Restriction} {s t : ChannelLife}

/-- A command that is done does not write. -/
theorem silent (h : OutputInv s) (hd : s.chan.chansess.backendState = .done) :
    s.worker ≠ .loop := by
  have hstage := h.command.stage
  rw [hd] at hstage
  rcases hstage.2.1 with hw | hw | hw <;> simp [hw]

/-- A command that is idle has not succeeded. -/
theorem idle_iff (h : OutputInv s) :
    s.chan.chansess.backendState = .idle ↔ s.commands = 0 := by
  have hstage := h.command.stage
  cases hstate : s.chan.chansess.backendState <;> rw [hstate] at hstage
  · exact ⟨fun _ => hstage.2.2, fun _ => rfl⟩
  all_goals
    refine ⟨(fun hn => by cases hn), fun hn => ?_⟩
    have hone := hstage.1
    omega

/-- Steps of the main thread for the channel alone. -/
theorem of_chan (h : OutputInv s) (hnext : CommandInv t)
    (hstreams : t.chan.Streams t.written t.unread (t.worker ≠ .loop))
    (hpending : t.chan.connPending = false) (hcommands : t.commands = s.commands)
    (hworker : t.worker = s.worker) (hended : t.ended = s.ended)
    (hunread : s.unread = [] → t.unread = []) (hwritten : t.written = s.written)
    (hread : t.chan.readfd = s.chan.readfd ∨ 0 ≤ s.chan.readfd ∧ t.chan.readfd = fdClosed)
    (hrecv : s.commands = 0 → t.chan.recvEof = s.chan.recvEof)
    (hflushing : t.chan.flushing = true → t.chan.chansess.backendState = .done)
    (hcancel : t.chan.chansess.cancelFd < 0) : OutputInv t where
  command := hnext
  streams := hstreams
  connPending := hpending
  unstarted hn := by
    rw [hcommands] at hn
    obtain ⟨hu, he, hr, hw⟩ := h.unstarted hn
    refine ⟨?_, (hrecv hn).trans he, hunread hr, hwritten.trans hw⟩
    rcases hread with hsame | ⟨hfd, -⟩
    · exact hsame.trans hu
    · rw [hu] at hfd
      exact absurd hfd (by decide)
  started hu := by
    rw [hcommands]
    rcases hread with hsame | ⟨-, hclosed⟩
    · exact h.started (hsame ▸ hu)
    · rw [hclosed] at hu
      exact absurd hu (by decide)
  ended he := by
    rw [hworker]
    exact h.ended (hended ▸ he)
  flushing := hflushing
  cancelFd := hcancel

theorem recvRequest (h : OutputInv s) {payload : Buffer} {env : LaunchEnv}
    (hfresh : env.fresh = true) (hst : s.recvRequest R payload env = some t) : OutputInv t := by
  have hnext := h.command.recvRequest hst
  rcases recvRequest_cases hst with ⟨w, rfl⟩ | ⟨-, w, ret, started, stores, cs', -, hout, rfl⟩
  · exact h.of_chan hnext h.streams h.connPending rfl rfl rfl id rfl (.inl rfl) (fun _ => rfl)
      h.flushing h.cancelFd
  cases hout with
  | unstarted hun =>
    rw [handled_unstarted hun] at hnext ⊢
    have hstreams : (s.chan.withSession cs').Streams s.written s.unread (s.worker ≠ .loop) := by
      rcases hun.writefd with hw | ⟨hidle, hw⟩
      · exact h.streams.of_eq rfl hun.errfd hun.bidirFd hun.readfd hw rfl rfl rfl rfl
      · -- nothing is open yet, and `writefd` cannot be opened
        have hread : cs'.readfd = fdUninit :=
          hun.readfd.trans (h.unstarted (h.idle_iff.1 hidle)).1
        refine ⟨h.streams.recvClose, hun.errfd.trans h.streams.errfd, .inr (.inl ?_),
          h.streams.stream, ?_, fun he => ?_⟩
        · change cs'.readfd ≠ cs'.writefd
          rw [hread, hw]
          decide
        · intro hc
          have hc' : cs'.readfd = fdClosed := hc
          rw [hread] at hc'
          exact absurd hc' (by decide)
        · exact hun.readfd.trans (h.streams.eof he)
    refine h.of_chan hnext hstreams h.connPending rfl rfl rfl id rfl (.inl hun.readfd)
      (fun _ => rfl) (fun hf => ?_) ?_
    · exact hun.state.trans (h.flushing hf)
    · exact hun.cancelFd ▸ h.cancelFd
  | executed hex =>
    obtain ⟨hread, -, hunread, hwritten⟩ := h.unstarted (h.idle_iff.1 hex.idle)
    have hempty := h.streams
    rw [hunread, hwritten] at hempty
    rw [handled_executed hex] at hnext ⊢
    refine ⟨hnext, hempty.start hread hex.readfd hex.errfd (.inr (hex.apart hfresh)) _ _,
      h.connPending, fun hn => by simp at hn, fun hu => ?_, fun _ => ?_, fun hf => ?_, ?_⟩
    · have hu' : cs'.readfd = fdUninit := hu
      exact absurd (hu' ▸ hex.readfd) (by decide)
    · have hstage := h.command.stage
      have hidle : s.chan.chansess.backendState = .idle := hex.idle
      rw [hidle] at hstage
      simp [hstage.1]
    · have hdone : s.chan.chansess.backendState = .done := h.flushing hf
      have hidle : s.chan.chansess.backendState = .idle := hex.idle
      rw [hdone] at hidle
      cases hidle
    · exact hex.cancelFd ▸ h.cancelFd
  | forked hfork =>
    obtain ⟨hread, -, hunread, hwritten⟩ := h.unstarted (h.idle_iff.1 hfork.idle)
    have hempty := h.streams
    rw [hunread, hwritten] at hempty
    rw [handled_forked hfork] at hnext ⊢
    refine ⟨hnext, hempty.start hread hfork.readfd hfork.errfd (.inl hfork.bidirFd) _ _,
      h.connPending, fun hn => by simp at hn, fun hu => ?_, (fun he => by cases he), fun hf => ?_, ?_⟩
    · have hu' : cs'.readfd = fdUninit := hu
      exact absurd (hu' ▸ hfork.readfd) (by decide)
    · have hdone : s.chan.chansess.backendState = .done := h.flushing hf
      have hidle : s.chan.chansess.backendState = .idle := hfork.idle
      rw [hdone] at hidle
      cases hidle
    · exact hfork.cancelFd ▸ h.cancelFd

/-- The reply, and the compare-exchange behind it. -/
theorem reply (h : OutputInv s) (wantreply ret : Bool) : OutputInv (s.reply wantreply ret) := by
  have hfields : ∃ msgs, s.chan.sendReply wantreply ret = { s.chan with sent := msgs } ∧
      msgs.filter ChanMsg.isOutput = s.chan.sent.filter ChanMsg.isOutput := by
    unfold Channel.sendReply
    split_ifs
    · exact ⟨_, rfl, by simp [ChanMsg.isOutput]⟩
    · exact ⟨_, rfl, by simp [ChanMsg.isOutput]⟩
    · exact ⟨_, rfl, rfl⟩
  obtain ⟨msgs, heq, hmsgs⟩ := hfields
  have hstate : s.chan.chansess.backendState = .done →
      (s.chan.chansess.answer wantreply ret).backendState = .done := by
    intro hd
    simp [ChanSess.answer, hd]
  refine h.of_chan (h.command.reply wantreply ret) ?_ ?_ rfl rfl rfl id rfl (.inl ?_)
    (fun _ => ?_) (fun hf => ?_) h.cancelFd
  all_goals simp only [ChannelLife.reply, heq] at *
  · exact h.streams.of_eq rfl rfl rfl rfl rfl rfl rfl rfl hmsgs
  · exact h.connPending
  · exact hstate (h.flushing hf)

/-- The worker is no longer in its loop. -/
theorem of_worker (h : OutputInv s) (hnext : CommandInv t) (hworker : t.worker ≠ .loop)
    (hchan : t.chan = { s.chan with chansess := t.chan.chansess })
    (hcommands : t.commands = s.commands) (hunread : t.unread = s.unread)
    (hwritten : t.written = s.written)
    (hflushing : s.chan.flushing = true → t.chan.chansess.backendState = .done)
    (hcancel : t.chan.chansess.cancelFd < 0) : OutputInv t := by
  have hstreams : t.chan.Streams t.written t.unread (t.worker ≠ .loop) := by
    rw [hwritten, hunread, hchan]
    exact (h.streams.mono fun _ => hworker).of_eq rfl rfl rfl rfl rfl rfl rfl rfl rfl
  refine ⟨hnext, hstreams, ?_, ?_, ?_, fun _ => hworker, ?_, hcancel⟩
  · rw [hchan]
    exact h.connPending
  · rw [hcommands, hunread, hwritten, hchan]
    exact h.unstarted
  · rw [hcommands, hchan]
    exact h.started
  · intro hf
    rw [hchan] at hf
    exact hflushing hf

theorem workerStore (h : OutputInv s) (hst : s.workerStore = some t) : OutputInv t := by
  have hnext := h.command.workerStore hst
  unfold ChannelLife.workerStore at hst
  cases hw : s.worker <;> rw [hw] at hst <;> cases hst <;>
    exact h.of_worker hnext (by simp) rfl rfl rfl rfl h.flushing h.cancelFd

/-- **One step** keeps the invariant. -/
theorem perform (h : OutputInv s) {e : LifeEvent} (hC : KeepsOutput s e)
    (hst : Performs R s e t) : OutputInv t := by
  have hnext := h.command.perform hst
  cases hst with
  | recvEof =>
    have hstarted : s.commands ≠ 0 := fun hn => hC.2 hn rfl
    have hstreams : Streams { s.chan with recvEof := true } s.written s.unread
        (s.worker ≠ .loop) := by
      refine ⟨h.streams.1, h.streams.2, ?_, h.streams.4, h.streams.5, h.streams.6⟩
      rcases h.streams.apart with hb | hne | hc | ⟨hu, -⟩
      · exact .inl hb
      · exact .inr (.inl hne)
      · exact .inr (.inr (.inl hc))
      · exact absurd (h.started hu) hstarted
    exact h.of_chan hnext hstreams h.connPending rfl rfl rfl id rfl (.inl rfl)
      (fun hn => absurd hn hstarted) h.flushing h.cancelFd
  | recvClose => exact absurd rfl hC.1
  | recvRequest _ hfresh hst => exact h.recvRequest hfresh hst
  | recvData _ hrelays =>
    obtain ⟨hstreams, hread⟩ := h.streams.relays hrelays
    obtain ⟨-, hsess, -, hrecv, hflush, hconn⟩ := hrelays.keeps
    exact h.of_chan hnext hstreams (hconn.trans h.connPending) rfl rfl rfl id rfl (.inl hread)
      (fun _ => hrecv) (fun hf => hsess ▸ h.flushing (hflush ▸ hf)) (hsess ▸ h.cancelFd)
  | writable hrelays =>
    obtain ⟨hstreams, hread⟩ := h.streams.relays hrelays
    obtain ⟨-, hsess, -, hrecv, hflush, hconn⟩ := hrelays.keeps
    exact h.of_chan hnext hstreams (hconn.trans h.connPending) rfl rfl rfl id rfl (.inl hread)
      (fun _ => hrecv) (fun hf => hsess ▸ h.flushing (hflush ▸ hf)) (hsess ▸ h.cancelFd)
  | recvWindowAdjust =>
    exact h.of_chan hnext (h.streams.of_eq rfl rfl rfl rfl rfl rfl rfl rfl rfl) h.connPending rfl
      rfl rfl id rfl (.inl rfl) (fun _ => rfl) h.flushing h.cancelFd
  | abort | readNothing | signalPending | kexStart | kexEnd =>
    exact h.of_chan hnext h.streams h.connPending rfl rfl rfl id rfl (.inl rfl) (fun _ => rfl)
      h.flushing h.cancelFd
  | readEnd _ hfd hend =>
    obtain ⟨hunread, hended⟩ := hend h.command.type
    have hs := closeChanFd_shuts s.chan s.chan.readfd .rd
    obtain ⟨-, hsess, -, hrecv, hflush, hconn⟩ := hs.keeps
    exact h.of_chan hnext (h.streams.closeReadfd hunread (h.ended hended))
      (hconn.trans h.connPending) rfl rfl rfl id rfl (.inr ⟨hfd, closeChanFd_readfd _⟩)
      (fun _ => hrecv) (fun hf => hsess ▸ h.flushing (hflush ▸ hf)) (hsess ▸ h.cancelFd)
  | readData _ hfd hopen hbytes =>
    exact h.of_chan hnext (h.streams.sendData hopen hfd (hbytes h.command.type) _) h.connPending
      rfl rfl rfl (fun hu => by simp [hu]) rfl (.inl rfl) (fun _ => rfl) h.flushing h.cancelFd
  | connectDone _ hpending =>
    rw [h.connPending] at hpending
    cases hpending
  | @reply wantreply ret => exact h.reply wantreply ret
  | check =>
    obtain ⟨flushing, heq, hdone⟩ := checked_open h.streams.recvClose
    have hcancel : s.check.ended = s.ended := by
      simp only [ChannelLife.check, heq]
      rw [decide_eq_false (by have := h.cancelFd; omega), Bool.or_false]
    refine h.of_chan hnext ?_ ?_ rfl rfl hcancel id rfl (.inl ?_) (fun _ => ?_) (fun hf => ?_) ?_
    all_goals simp only [ChannelLife.check, heq] at *
    · exact h.streams.of_eq rfl rfl rfl rfl rfl rfl rfl rfl rfl
    · exact h.connPending
    · exact (hdone hf).elim h.flushing id
    · exact h.cancelFd
  | flush =>
    have hs := flush_shuts s.chan s.pending
    obtain ⟨-, hsess, -, hrecv, hflush, hconn⟩ := hs.keeps
    have hread : (s.chan.flush s.pending).Streams s.written s.unread (s.worker ≠ .loop) ∧
        ((s.chan.flush s.pending).readfd = s.chan.readfd ∨
          0 ≤ s.chan.readfd ∧ (s.chan.flush s.pending).readfd = fdClosed) := by
      unfold Channel.flush
      split_ifs with hf
      · obtain ⟨hflushing, hfd, hpending⟩ := hf
        have hunread : s.unread = [] := by
          simp only [pending, Bool.not_eq_true', Bool.or_eq_false_iff, bne_eq_false_iff_eq]
            at hpending
          exact hpending.1
        exact ⟨h.streams.closeReadfd hunread (h.silent (h.flushing hflushing)),
          .inr ⟨hfd, closeChanFd_readfd _⟩⟩
      · exact ⟨h.streams, .inl rfl⟩
    exact h.of_chan hnext hread.1 (hconn.trans h.connPending) rfl rfl rfl id rfl hread.2
      (fun _ => hrecv) (fun hf => hsess ▸ h.flushing (hflush ▸ hf)) (hsess ▸ h.cancelFd)
  | @closeUp allowed hmain =>
    obtain ⟨-, hsess, hrecv, hflush, hconn⟩ := closeUp_keeps s.chan allowed
    have hexit : allowed = true → s.chan.sentClose = false →
        s.chan.exitMessages = [] ∨ ∃ status, s.chan.exitMessages = [.exitStatus status] := by
      intro hall hopen
      have hstate := (h.command.allowed (.inr (hmain.trans (by rw [hall])))).resolve_left
        (by simp [hopen])
      exact (h.command.stage.exitMessages hstate).imp_right fun hone => ⟨_, hone.2⟩
    obtain ⟨hstreams, hread⟩ := h.streams.closeUp hexit
    exact h.of_chan hnext hstreams (hconn h.connPending) rfl rfl rfl id rfl (.inl hread)
      (fun _ => hrecv) (fun hf => hsess ▸ h.flushing (hflush ▸ hf)) (hsess ▸ h.cancelFd)
  | workerWriteFails => exact h
  | @workerWrite bytes hworker hopen =>
    have hrunning := (h.command.running (by simp [hworker])).1
    have hstarted : s.commands ≠ 0 := fun hn => by simp [h.idle_iff.2 hn] at hrunning
    obtain ⟨chunks, tail, hsent, hstream, htail⟩ := h.streams.stream
    refine ⟨hnext, ⟨h.streams.1, h.streams.2, h.streams.3, ⟨chunks, tail, hsent, ?_, htail⟩,
      fun hc => absurd hworker (h.streams.drained hc).2, h.streams.6⟩, h.connPending,
      fun hn => absurd hn hstarted, h.started, h.ended, h.flushing, h.cancelFd⟩
    rw [← hstream, List.append_assoc]
  | workerLeave =>
    exact h.of_worker hnext (by simp) rfl rfl rfl rfl h.flushing h.cancelFd
  | workerStore hst => exact h.workerStore hst
  | workerDone =>
    exact h.of_worker hnext (by simp) rfl rfl rfl rfl (fun _ => rfl) h.cancelFd
  | workerClose =>
    exact h.of_worker hnext (by simp [ChannelLife.workerClose]) rfl rfl rfl rfl h.flushing
      h.cancelFd

theorem transmit (h : OutputInv s) : OutputInv s.transmit := by
  obtain ⟨wire, heq⟩ := s.transmit_eq
  rw [heq]
  exact ⟨⟨h.1.1, h.1.2, h.1.3, h.1.4, h.1.5⟩, h.2, h.3, h.4, h.5, h.6, h.7, h.8⟩

theorem opened (recvWindow transwindow transmaxpacket : ℕ) :
    OutputInv (.opened recvWindow .session transwindow transmaxpacket) where
  command := CommandInv.opened _ _ _
  streams := by
    refine ⟨rfl, rfl, .inr (.inr (.inr ⟨rfl, rfl⟩)), ⟨[], [], rfl, rfl, rfl⟩, ?_, ?_⟩
    · intro hc
      have hu : fdUninit = fdClosed := hc
      exact absurd hu (by decide)
    · intro he
      cases he
  connPending := rfl
  unstarted _ := ⟨rfl, rfl, rfl, rfl⟩
  started _ := rfl
  ended he := by cases he
  flushing hf := by cases hf
  cancelFd := by
    change (-1 : ℤ) < 0
    decide

/-- All that has been sent is ordered. -/
theorem orderedOutput (h : OutputInv s) : OrderedOutput s.chan.sent s.written := by
  obtain ⟨chunks, tail, hsent, hstream, htail⟩ := h.streams.stream
  have hall : s.chan.sentEof = true → chunks.flatten = s.written := by
    intro he
    rw [← hstream, (h.streams.drained (h.streams.eof he)).1, List.append_nil]
  have hwritten : chunks.flatten <+: s.written := ⟨s.unread, hstream⟩
  cases he : s.chan.sentEof <;> cases hc : s.chan.sentClose <;> rw [he, hc] at htail
  · have hnil : tail = [] := htail
    exact ⟨chunks, tail, [], hsent, hwritten, fun hne => absurd hnil hne, .inl rfl,
      hnil ▸ List.nil_prefix⟩
  · exact htail.elim
  · have heof : tail = [.eof] := htail
    exact ⟨chunks, tail, [], hsent, hwritten, fun _ => hall he, .inl rfl,
      heof ▸ ⟨[.close], rfl⟩⟩
  · obtain ⟨exits, hexits, hclose⟩ := htail
    exact ⟨chunks, tail, exits, hsent, hwritten, fun _ => hall he, hexits,
      hclose ▸ List.prefix_rfl⟩

end OutputInv

/-- **A command's output is complete and in order**: in every run in which the peer does not close
the channel and ends its own data only behind a successful command request, what is on its way to
the peer is data, a prefix of what the command has written, then EOF behind all of it, then at most
one exit status, then CLOSE. -/
theorem channelLife_orderedOutput {R : Restriction} {recvWindow transwindow transmaxpacket : ℕ}
    {es : List LifeEvent} {t : ChannelLife}
    (hC : (channelLife R recvWindow).Along KeepsOutput
      (.opened recvWindow .session transwindow transmaxpacket) es)
    (h : (channelLife R recvWindow).exec
      (.opened recvWindow .session transwindow transmaxpacket) es = some t) :
    OrderedOutput t.wire t.written := by
  have hinv : OutputInv t ∧ t.wire <+: t.chan.sent := by
    refine LTS.exec_invariant (I := fun s => OutputInv s ∧ s.wire <+: s.chan.sent)
      ⟨OutputInv.opened _ _ _, List.prefix_rfl⟩ ?_ hC h
    intro s e s' hs hCe hst
    obtain ⟨u, hu, rfl⟩ := ChannelLife.channelLife_step.1 hst
    have hcases := ChannelLife.perform_cases hu
    exact ⟨(hs.1.perform hCe hcases).transmit, ChannelLife.transmit_wire hcases hs.2⟩
  exact hinv.1.orderedOutput.of_isPrefix hinv.2

/-- A shell that has been started and has written `hi`. -/
def shellWrites : List LifeEvent :=
  requestEvents shellPayload ++ [LifeEvent.workerWrite (ascii "hi")]

/-- The peer ends its data, half of the output is read in a key exchange, and the shell is done
before the other half is. -/
def shellEnds : List LifeEvent :=
  checkCloseEvents ++ [LifeEvent.kexStart, .readable (.data (ascii "h"))] ++ checkCloseEvents ++
    [LifeEvent.workerLeave 0, .workerStore, .workerStore, .workerStore, .workerStore,
      .workerDone] ++
    LifeEvent.signalPending :: checkCloseEvents ++
    [LifeEvent.kexEnd, .workerClose, .readable (.data (ascii "i"))] ++
    checkCloseEvents ++ LifeEvent.readable .eof :: checkCloseEvents

theorem channelLife_orderedOutput_shellEnds : ∃ t : ChannelLife,
    (channelLife unrestricted 24576).exec (.opened 24576 .session 1000 1000)
      (shellWrites ++ LifeEvent.recvEof :: shellEnds) = some t ∧
    t.wire = [.openConfirmation, .data (ascii "h"), .data (ascii "i"), .eof, .exitStatus 0,
      .close] ∧
    OrderedOutput t.wire t.written := by
  have hstart : ((channelLife unrestricted 24576).exec (.opened 24576 .session 1000 1000)
      shellWrites).map (·.commands) = some 1 := by
    decide
  have hrun : ((channelLife unrestricted 24576).exec (.opened 24576 .session 1000 1000)
      (shellWrites ++ LifeEvent.recvEof :: shellEnds)).map (·.wire) =
      some [.openConfirmation, .data (ascii "h"), .data (ascii "i"), .eof, .exitStatus 0,
        .close] := by
    decide
  obtain ⟨t, ht, hwire⟩ := Option.map_eq_some_iff.1 hrun
  refine ⟨t, ht, hwire, channelLife_orderedOutput (LTS.along_append ?_ fun s hs => ?_) ht⟩
  · refine LTS.along_of_forall ?_ _
    simp [shellWrites, requestEvents, KeepsOutput]
  · have hcommands : s.commands = 1 := by simpa [hs] using hstart
    refine ⟨⟨by simp, by simp [hcommands]⟩, fun s' _ => LTS.along_of_forall ?_ s'⟩
    simp [shellEnds, checkCloseEvents, KeepsOutput]

end Ps4Dropbear
