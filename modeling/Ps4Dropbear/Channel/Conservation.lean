import Mathlib.Data.List.Perm.Basic
import Ps4Dropbear.Channel.SingleCommand

/-!
# The descriptors of a channel

A channel refers to its descriptors by `readfd`, `writefd` and `errfd`.  A socket is referred to
twice, and is closed when the second reference is given up.

Each function of `common-channel.c` that gives references up closes exactly the descriptors that
are no longer referred to, with one exception: `remove_channel` closes what `writefd` and `readfd`
hold, and so a socket that both still hold is closed twice.

* `Channel.fds` : the descriptors, each once.
* `Channel.Conserves` : what is closed and what is left make up what was there.
* `ChannelLife.perform_conserves` : every step of a channel's life, unless it is such a removal.
-/

namespace Ps4Dropbear

namespace Channel

/-- The number in a field. -/
def fdNum (fd : ℤ) : List ℕ := if fd < 0 then [] else [fd.toNat]

/-- The descriptors that the fields refer to. -/
def refs (c : Channel) : List ℕ :=
  (if c.bidirFd ∧ c.readfd = c.writefd then fdNum c.readfd else fdNum c.readfd ++ fdNum c.writefd) ++
    fdNum c.errfd

/-- The descriptors of the channel. -/
def fds (c : Channel) : List ℕ := if c.present then c.refs else []

/-- The numbers that are closed. -/
def closedBy (calls : List FdCall) : List ℕ :=
  calls.filterMap fun
    | .close fd => some fd
    | .shutdown _ _ => none

/-- Both references to a socket are there. -/
def Doubled (c : Channel) : Prop := 0 ≤ c.readfd ∧ c.readfd = c.writefd

instance (c : Channel) : Decidable c.Doubled :=
  inferInstanceAs (Decidable (0 ≤ c.readfd ∧ c.readfd = c.writefd))

/-- What the fields can hold. -/
structure Paired (c : Channel) : Prop where
  errfd : c.errfd = fdClosed
  /-- A socket is in both fields until one of them is given up. -/
  bidir : c.bidirFd = true → (c.readfd = fdClosed ∨ 0 ≤ c.readfd) ∧
    (c.writefd = fdClosed ∨ 0 ≤ c.writefd) ∧ (0 ≤ c.readfd → 0 ≤ c.writefd → c.readfd = c.writefd)
  apart : c.bidirFd = false → 0 ≤ c.readfd → c.readfd ≠ c.writefd

/-- The calls that lead from one state of the channel to the other close what is given up. -/
def Conserves (c c' : Channel) : Prop :=
  ∃ new, c'.calls = c.calls ++ new ∧ (closedBy new ++ c'.fds).Perm c.fds ∧ c'.Paired

variable {c c' c'' : Channel}

@[simp] theorem closedBy_append (xs ys : List FdCall) :
    closedBy (xs ++ ys) = closedBy xs ++ closedBy ys :=
  List.filterMap_append

@[simp] theorem closedBy_mClose (fd : ℤ) : closedBy (mClose fd) = fdNum fd := by
  unfold mClose fdNum
  split_ifs <;> rfl

@[simp] theorem closedBy_shutdown (fd : ℤ) (how : How) (calls : List FdCall) :
    closedBy (.shutdown fd how :: calls) = closedBy calls := rfl

@[simp] theorem closedBy_nil : closedBy [] = [] := rfl

@[simp] theorem fdNum_fdClosed : fdNum fdClosed = [] := rfl

theorem mClose_fdClosed : mClose fdClosed = [] := rfl

theorem fdClosed_neg : ¬ 0 ≤ fdClosed := by decide

theorem fdUninit_neg : ¬ 0 ≤ fdUninit := by decide

theorem fdNum_of_neg {fd : ℤ} (h : fd < 0) : fdNum fd = [] := if_pos h

theorem fdNum_of_nonneg {fd : ℤ} (h : 0 ≤ fd) : fdNum fd = [fd.toNat] :=
  if_neg (by omega)

theorem fdNum_nodup (fd : ℤ) : (fdNum fd).Nodup := by
  unfold fdNum
  split_ifs
  · exact List.nodup_nil
  · simp

theorem Conserves.refl (h : Paired c) : Conserves c c := ⟨[], by simp, by simp, h⟩

theorem Conserves.trans (h : Conserves c c') (h' : Conserves c' c'') : Conserves c c'' := by
  obtain ⟨new, hcalls, hperm, -⟩ := h
  obtain ⟨new', hcalls', hperm', hpaired⟩ := h'
  refine ⟨new ++ new', by rw [hcalls', hcalls, List.append_assoc], ?_, hpaired⟩
  rw [closedBy_append, List.append_assoc]
  exact (hperm'.append_left _).trans hperm

/-- Only these fields matter. -/
theorem Conserves.of_eq (h : Conserves c c') (h₁ : c''.errfd = c'.errfd)
    (h₂ : c''.bidirFd = c'.bidirFd) (h₃ : c''.readfd = c'.readfd) (h₄ : c''.writefd = c'.writefd)
    (h₅ : c''.present = c'.present) (h₆ : c''.calls = c'.calls) : Conserves c c'' := by
  obtain ⟨new, hcalls, hperm, hpaired⟩ := h
  refine ⟨new, h₆.trans hcalls, ?_, ⟨h₁.trans hpaired.errfd, ?_, ?_⟩⟩
  · rw [fds, refs, h₁, h₂, h₃, h₄, h₅]
    exact hperm
  · rw [h₂, h₃, h₄]
    exact hpaired.bidir
  · rw [h₂, h₃, h₄]
    exact hpaired.apart

/-! ### Closing -/

theorem Paired.refs_of_bidir (h : Paired c) (hb : c.bidirFd = true) :
    c.refs = if c.readfd = fdClosed then fdNum c.writefd else fdNum c.readfd := by
  obtain ⟨hread, hwrite, hsame⟩ := h.bidir hb
  unfold refs
  rw [h.errfd, fdNum_fdClosed, List.append_nil]
  by_cases hc : c.readfd = fdClosed
  · rw [if_pos hc]
    split_ifs with heq
    · rw [heq.2]
    · rw [hc, fdNum_fdClosed, List.nil_append]
  · rw [if_neg hc]
    split_ifs with heq
    · rfl
    · rcases hwrite with hw | hw
      · rw [hw, fdNum_fdClosed, List.append_nil]
      · exact absurd ⟨hb, hsame (hread.resolve_left hc) hw⟩ heq

theorem Paired.refs_of_not_bidir (h : Paired c) (hb : c.bidirFd = false) :
    c.refs = fdNum c.readfd ++ fdNum c.writefd := by
  unfold refs
  rw [h.errfd, fdNum_fdClosed, List.append_nil, if_neg (by simp [hb])]

theorem closeReadfd_eq_of_bidir (h : Paired c) (hb : c.bidirFd = true) :
    c.closeChanFd c.readfd .rd = { c with
      readfd := fdClosed
      calls := c.calls ++ (.shutdown c.readfd .rd ::
        if c.writefd = fdClosed then mClose c.readfd else []) } := by
  obtain ⟨type, present, sentClose, recvClose, sentEof, recvEof, transwindow, transmaxpacket, w, r,
    e, b, flushing, connPending, writebuf, recvwindow, recvdonelen, chansess, sent, calls⟩ := c
  obtain rfl : b = true := hb
  obtain rfl : e = fdClosed := h.errfd
  by_cases hw : w = fdClosed
  · simp [closeChanFd, endDirection, hw]
  · simp [closeChanFd, endDirection, hw]

theorem closeWritefd_eq_of_bidir (h : Paired c) (hb : c.bidirFd = true) :
    c.closeChanFd c.writefd .wr = { c with
      writefd := fdClosed
      calls := c.calls ++ (.shutdown c.writefd .wr ::
        if c.readfd = fdClosed then mClose c.writefd else []) } := by
  obtain ⟨type, present, sentClose, recvClose, sentEof, recvEof, transwindow, transmaxpacket, w, r,
    e, b, flushing, connPending, writebuf, recvwindow, recvdonelen, chansess, sent, calls⟩ := c
  obtain rfl : b = true := hb
  obtain rfl : e = fdClosed := h.errfd
  by_cases hr : r = fdClosed
  · simp [closeChanFd, endDirection, hr]
  · simp [closeChanFd, endDirection, hr]

/-- Without sharing, the descriptor is closed, and no field refers to it any more. -/
theorem closeChanFd_eq_of_not_bidir (h : Paired c) (hb : c.bidirFd = false) (fd : ℤ) (how : How) :
    c.closeChanFd fd how = { c with
      readfd := if fd = c.readfd then fdClosed else c.readfd
      writefd := if fd = c.writefd then fdClosed else c.writefd
      calls := c.calls ++ mClose fd } := by
  obtain ⟨type, present, sentClose, recvClose, sentEof, recvEof, transwindow, transmaxpacket, w, r,
    e, b, flushing, connPending, writebuf, recvwindow, recvdonelen, chansess, sent, calls⟩ := c
  obtain rfl : b = false := hb
  obtain rfl : e = fdClosed := h.errfd
  simp [closeChanFd, endDirection]

theorem Paired.conserves (hp : c.present = true) {r w : ℤ} {new : List FdCall}
    (hpaired : Paired { c with readfd := r, writefd := w, calls := c.calls ++ new })
    (hperm : (closedBy new ++
      refs { c with readfd := r, writefd := w, calls := c.calls ++ new }).Perm c.refs) :
    Conserves c { c with readfd := r, writefd := w, calls := c.calls ++ new } := by
  refine ⟨new, rfl, ?_, hpaired⟩
  rw [fds, fds, if_pos hp, if_pos hp]
  exact hperm

theorem Paired.closeReadfd (h : Paired c) (hp : c.present = true) :
    Conserves c (c.closeChanFd c.readfd .rd) := by
  cases hb : c.bidirFd with
  | true =>
    obtain ⟨hread, hwrite, hsame⟩ := h.bidir hb
    rw [closeReadfd_eq_of_bidir h hb]
    have hpaired : Paired { c with
        readfd := fdClosed, writefd := c.writefd
        calls := c.calls ++ (.shutdown c.readfd .rd ::
          if c.writefd = fdClosed then mClose c.readfd else []) } :=
      ⟨h.errfd, fun _ => ⟨.inl rfl, hwrite, fun hn => absurd hn fdClosed_neg⟩,
        fun _ hn => absurd hn fdClosed_neg⟩
    refine Paired.conserves hp hpaired ?_
    rw [hpaired.refs_of_bidir hb, h.refs_of_bidir hb, if_pos rfl]
    rcases hwrite with hw | hw
    · rw [if_pos hw, hw]
      split_ifs with hr <;> simp [hr]
    · have hopen : c.writefd ≠ fdClosed := fun hc => absurd (hc ▸ hw) fdClosed_neg
      rw [if_neg hopen]
      split_ifs with hr
      · simp
      · simp [hsame (hread.resolve_left hr) hw]
  | false =>
    rw [closeChanFd_eq_of_not_bidir h hb, if_pos rfl]
    have hpaired : Paired { c with
        readfd := fdClosed, writefd := if c.readfd = c.writefd then fdClosed else c.writefd
        calls := c.calls ++ mClose c.readfd } :=
      ⟨h.errfd, fun hn => by simp [hb] at hn, fun _ hn => absurd hn fdClosed_neg⟩
    refine Paired.conserves hp hpaired ?_
    rw [hpaired.refs_of_not_bidir hb, h.refs_of_not_bidir hb]
    split_ifs with heq
    · have hneg : c.readfd < 0 := by
        by_contra hn
        exact h.apart hb (by omega) heq
      simp [← heq, fdNum_of_neg hneg]
    · simp

theorem Paired.closeWritefd (h : Paired c) (hp : c.present = true) :
    Conserves c (c.closeChanFd c.writefd .wr) := by
  cases hb : c.bidirFd with
  | true =>
    obtain ⟨hread, hwrite, hsame⟩ := h.bidir hb
    rw [closeWritefd_eq_of_bidir h hb]
    have hpaired : Paired { c with
        readfd := c.readfd, writefd := fdClosed
        calls := c.calls ++ (.shutdown c.writefd .wr ::
          if c.readfd = fdClosed then mClose c.writefd else []) } :=
      ⟨h.errfd, fun _ => ⟨hread, .inl rfl, fun _ hn => absurd hn fdClosed_neg⟩,
        fun hn => by simp [hb] at hn⟩
    refine Paired.conserves hp hpaired ?_
    rw [hpaired.refs_of_bidir hb, h.refs_of_bidir hb]
    by_cases hr : c.readfd = fdClosed
    · simp [hr]
    · simp [hr]
  | false =>
    rw [closeChanFd_eq_of_not_bidir h hb, if_pos (rfl : c.writefd = c.writefd)]
    have hpaired : Paired { c with
        readfd := if c.writefd = c.readfd then fdClosed else c.readfd, writefd := fdClosed
        calls := c.calls ++ mClose c.writefd } := by
      refine ⟨h.errfd, (fun hn => by simp [hb] at hn), fun _ hn hc => ?_⟩
      rw [hc] at hn
      exact absurd hn fdClosed_neg
    refine Paired.conserves hp hpaired ?_
    rw [hpaired.refs_of_not_bidir hb, h.refs_of_not_bidir hb]
    by_cases heq : c.writefd = c.readfd
    · have hneg : c.readfd < 0 := by
        by_contra hn
        exact h.apart hb (by omega) heq.symm
      simp [heq, fdNum_of_neg hneg]
    · simpa [heq] using List.perm_append_comm

/-- There is nothing in `errfd`. -/
theorem closeErrfd_eq (h : Paired c) : ∃ new, closedBy new = [] ∧
    c.closeChanFd c.errfd .rdwr = { c with calls := c.calls ++ new } := by
  obtain ⟨type, present, sentClose, recvClose, sentEof, recvEof, transwindow, transmaxpacket, w, r,
    e, b, flushing, connPending, writebuf, recvwindow, recvdonelen, chansess, sent, calls⟩ := c
  obtain rfl : e = fdClosed := h.errfd
  have hsame : ∀ fd : ℤ, (if fdClosed = fd then fdClosed else fd) = fd := by
    intro fd
    split_ifs with heq
    · exact heq
    · rfl
  cases b with
  | true =>
    refine ⟨[.shutdown fdClosed .rdwr], rfl, ?_⟩
    simp [closeChanFd, endDirection, hsame, mClose_fdClosed]
  | false =>
    refine ⟨[], rfl, ?_⟩
    simp [closeChanFd, endDirection, hsame, mClose_fdClosed]

theorem closeChanFd_present (c : Channel) (fd : ℤ) (how : How) :
    (c.closeChanFd fd how).present = c.present := by
  rw [(closeChanFd_shuts c fd how).rest]

theorem Conserves.paired (h : Conserves c c') : Paired c' := by
  obtain ⟨-, -, -, hpaired⟩ := h
  exact hpaired

theorem Paired.closeErrfd (h : Paired c) : Conserves c (c.closeChanFd c.errfd .rdwr) := by
  obtain ⟨new, hnew, heq⟩ := closeErrfd_eq h
  rw [heq]
  refine ⟨new, rfl, ?_, ⟨h.1, h.2, h.3⟩⟩
  rw [hnew]
  exact List.Perm.refl _

theorem Paired.closeAll (h : Paired c) (hp : c.present = true) : Conserves c c.closeAll := by
  have h₁ := h.closeReadfd hp
  have h₂ := h₁.paired.closeErrfd
  have h₃ := h₂.paired.closeWritefd (by rw [closeChanFd_present, closeChanFd_present, hp])
  exact (h₁.trans h₂).trans h₃

theorem Paired.sendMsgChannelClose (h : Paired c) (hp : c.present = true) :
    Conserves c c.sendMsgChannelClose := by
  have hsent : Paired { c with
      sent := c.sent ++ (c.exitMessages ++ [.close]), sentEof := true, sentClose := true } :=
    ⟨h.1, h.2, h.3⟩
  exact hsent.closeAll hp

/-- `remove_channel` closes what the fields hold, one by one. -/
theorem Paired.removeChannel (h : Paired c) (hp : c.present = true) (hd : ¬ c.Doubled) :
    Conserves c c.removeChannel := by
  refine ⟨mClose c.writefd ++ mClose c.readfd ++ mClose c.errfd, ?_, ?_, ⟨h.1, h.2, h.3⟩⟩
  · simp [Channel.removeChannel]
  · have hgone : c.removeChannel.fds = [] := rfl
    rw [hgone, fds, if_pos hp]
    simp only [closedBy_append, closedBy_mClose, h.errfd, fdNum_fdClosed, List.append_nil]
    cases hb : c.bidirFd with
    | true =>
      obtain ⟨hread, hwrite, hsame⟩ := h.bidir hb
      rw [h.refs_of_bidir hb]
      by_cases hr : c.readfd = fdClosed
      · simp [hr]
      · have hread' : 0 ≤ c.readfd := hread.resolve_left hr
        have hw : c.writefd = fdClosed := by
          refine hwrite.resolve_right fun hw => ?_
          exact hd ⟨hread', hsame hread' hw⟩
        simp [hr, hw]
    | false =>
      rw [h.refs_of_not_bidir hb]
      exact List.perm_append_comm

/-- The last part of `check_close`.  A channel for which CLOSE has not been sent yet has no
descriptor left when it is removed. -/
theorem Paired.closeUp (h : Paired c) (hp : c.present = true) {allowed : Bool}
    (hd : c.recvClose = true → c.writePending = false → allowed = true → c.sentClose = true →
      ¬ c.Doubled) :
    Conserves c (c.closeUp allowed) := by
  unfold Channel.closeUp
  split_ifs with hr hs
  · exact h.removeChannel hp (hd hr.1 (by simpa using hr.2.1) hr.2.2 hs)
  · have hclose := h.sendMsgChannelClose hp
    obtain ⟨d, hshuts, hread, -, heq⟩ := sendMsgChannelClose_eq c
    refine hclose.trans (hclose.paired.removeChannel ?_ ?_)
    · rw [heq, hshuts.rest]
      exact hp
    · rw [heq]
      rintro ⟨hn, -⟩
      rw [hread] at hn
      exact absurd hn fdClosed_neg
  · refine (closeDown_rule (P := fun d => Conserves c d ∧ d.present = true)
      ⟨.refl h, hp⟩ ?_ ?_ ?_).1
    · rintro d ⟨hc, hd⟩ -
      exact ⟨hc.trans (hc.paired.closeWritefd hd), (closeChanFd_present d _ _).trans hd⟩
    · rintro d ⟨hc, hd⟩ - -
      exact ⟨hc.of_eq rfl rfl rfl rfl rfl rfl, hd⟩
    · rintro d ⟨hc, hd⟩ - - -
      refine ⟨hc.trans (hc.paired.sendMsgChannelClose hd), ?_⟩
      obtain ⟨d', hshuts, -, -, heq⟩ := sendMsgChannelClose_eq d
      rw [heq, hshuts.rest]
      exact hd

theorem Paired.relays (h : Paired c) (hp : c.present = true) (hr : Relays c c') :
    Conserves c c' := by
  obtain ⟨d, adjusts, writebuf, recvwindow, recvdonelen, hd, -, rfl⟩ := hr
  have hconserves : Conserves c d := by
    rcases hd with rfl | ⟨-, rfl⟩
    · exact .refl h
    · exact h.closeWritefd hp
  exact hconserves.of_eq rfl rfl rfl rfl rfl rfl

theorem Paired.flush (h : Paired c) (hp : c.present = true) (pending : Bool) :
    Conserves c (c.flush pending) := by
  unfold Channel.flush
  split_ifs
  · exact h.closeReadfd hp
  · exact .refl h

/-- The fields `readfd` and `writefd` are kept or given up. -/
def Narrows (c c' : Channel) : Prop :=
  (c'.readfd = c.readfd ∨ c'.readfd < 0) ∧ (c'.writefd = c.writefd ∨ c'.writefd < 0)

theorem Shuts.narrows (h : Shuts c c') : Narrows c c' := by
  have hclosed : ∀ fd : ℤ, fd = fdClosed → fd < 0 := by
    rintro fd rfl
    decide
  exact ⟨h.readfd.imp_right (hclosed _), h.writefd.imp_right (hclosed _)⟩

theorem Narrows.trans (h : Narrows c c') (h' : Narrows c' c'') : Narrows c c'' := by
  refine ⟨?_, ?_⟩
  · rcases h'.1 with heq | hn
    · rw [heq]
      exact h.1
    · exact .inr hn
  · rcases h'.2 with heq | hn
    · rw [heq]
      exact h.2
    · exact .inr hn

theorem Relays.narrows (h : Relays c c') : Narrows c c' := by
  obtain ⟨d, adjusts, writebuf, recvwindow, recvdonelen, rfl | ⟨-, rfl⟩, -, rfl⟩ := h
  · exact ⟨.inl rfl, .inl rfl⟩
  · exact (closeChanFd_shuts c c.writefd .wr).narrows

theorem closeUp_narrows (c : Channel) (allowed : Bool) : Narrows c (c.closeUp allowed) := by
  refine closeUp_rule (P := Narrows c) ⟨.inl rfl, .inl rfl⟩ ?_ ?_ ?_ ?_
  · intro d hd _
    exact hd.trans (closeChanFd_shuts d d.writefd .wr).narrows
  · intro d hd _ _
    exact hd
  · intro d hd _ _ _
    obtain ⟨d', hshuts, -, -, heq⟩ := sendMsgChannelClose_eq d
    exact heq ▸ hd.trans hshuts.narrows
  · intro d hd
    exact hd

/-- No descriptor has been given to the channel: its command has not been started, or its connection
is pending. -/
def Unused (c : Channel) : Prop :=
  c.type = .session ∧ c.chansess.backendState = .idle ∨ c.connPending = true

/-- What holds for a channel's descriptors at all times. -/
structure Sound (c : Channel) : Prop where
  paired : c.Paired
  unused : c.Unused → c.readfd < 0 ∧ c.writefd < 0
  connPending : c.connPending = true → c.type ≠ .session

theorem Sound.fds_of_unused (h : Sound c) (hu : c.Unused) : c.fds = [] := by
  obtain ⟨hread, hwrite⟩ := h.unused hu
  unfold fds refs
  simp [fdNum_of_neg hread, fdNum_of_neg hwrite, h.paired.errfd]

/-- The channel gets its descriptors. -/
structure Installs (c c' : Channel) : Prop where
  before : c.Unused
  after : ¬ c'.Unused
  calls : c'.calls = c.calls
  nodup : c'.fds.Nodup
  sound : c'.Sound

/-- A step on the descriptors of a channel. -/
def FdStep (c c' : Channel) : Prop :=
  Installs c c' ∨ Conserves c c' ∧ c'.Sound ∧ (c'.Unused → c.Unused)

/-- A step that keeps what tells whether the channel is in use. -/
theorem Conserves.fdStep (h : Conserves c c') (hs : Sound c) (htype : c'.type = c.type)
    (hstate : c'.chansess.backendState = .idle → c.chansess.backendState = .idle)
    (hpending : c'.connPending = true → c.connPending = true) (hn : Narrows c c') :
    FdStep c c' := by
  have hunused : c'.Unused → c.Unused := by
    rintro (⟨ht, hi⟩ | hp)
    · exact .inl ⟨htype ▸ ht, hstate hi⟩
    · exact .inr (hpending hp)
  refine .inr ⟨h, ⟨h.paired, fun hu => ?_, fun hp => ?_⟩, hunused⟩
  · obtain ⟨hr, hw⟩ := hs.unused (hunused hu)
    exact ⟨hn.1.elim (fun heq => heq ▸ hr) id, hn.2.elim (fun heq => heq ▸ hw) id⟩
  · rw [htype]
    exact hs.connPending (hpending hp)

end Channel

namespace ChannelLife

open Channel

variable {R : Restriction} {recvWindow : ℕ} {s t : ChannelLife}

/-- A session channel that is in use behind a request. -/
theorem withSession_installs (hs : s.chan.Sound) (htype : s.chan.type = .session)
    (hidle : s.chan.chansess.backendState = .idle) {cs' : ChanSess}
    (hstate : cs'.backendState ≠ .idle) (hpaired : (s.chan.withSession cs').Paired)
    (hnodup : (s.chan.withSession cs').refs.Nodup) :
    Installs s.chan (s.chan.withSession cs') := by
  have hpending : s.chan.connPending = false := by
    by_contra hn
    exact hs.connPending (by simpa using hn) htype
  have hused : ¬ (s.chan.withSession cs').Unused := by
    rintro (⟨-, hi⟩ | hp)
    · exact hstate hi
    · simp [withSession, hpending] at hp
  refine ⟨.inl ⟨htype, hidle⟩, hused, rfl, ?_, hpaired, fun hu => absurd hu hused, fun hp => ?_⟩
  · unfold fds
    split_ifs
    · exact hnodup
    · exact List.nodup_nil
  · simp [withSession, hpending] at hp

theorem recvRequest_fdStep (hs : s.chan.Sound) {payload : Buffer} {env : LaunchEnv}
    (hfresh : env.fresh = true) (h : s.recvRequest R payload env = some t) :
    FdStep s.chan t.chan := by
  rcases recvRequest_cases h with ⟨w, rfl⟩ | ⟨htype, w, ret, started, stores, cs', -, hout, rfl⟩
  · exact (Conserves.refl hs.paired).fdStep hs rfl id id ⟨.inl rfl, .inl rfl⟩
  change FdStep s.chan (s.handled env s.chan.session cs').chan
  rw [(handled_chan s env s.chan.session cs').1]
  cases hout with
  | unstarted hun =>
    have hstate : cs'.backendState = .idle → s.chan.chansess.backendState = .idle :=
      fun hi => hun.state.symm.trans hi
    rcases hun.writefd with hw | ⟨hidle, hw⟩
    · have hconserves : Conserves s.chan (s.chan.withSession cs') :=
        (Conserves.refl hs.paired).of_eq hun.errfd hun.bidirFd hun.readfd hw rfl rfl
      exact hconserves.fdStep hs rfl hstate id ⟨.inl hun.readfd, .inl hw⟩
    · -- `writefd` was uninitialised or closed before
      have hunused : s.chan.Unused := .inl ⟨htype, hidle⟩
      have hread : cs'.readfd < 0 := hun.readfd ▸ (hs.unused hunused).1
      have hneg : cs'.writefd < 0 := by
        rw [hw]
        decide
      have hpaired : (s.chan.withSession cs').Paired := by
        refine ⟨hun.errfd.trans hs.paired.errfd, fun hb => ?_, fun _ hn => ?_⟩
        · have hbidir := hs.paired.bidir (hun.bidirFd.symm.trans hb)
          refine ⟨?_, .inl hw, fun hn => absurd hread (Int.not_lt.2 hn)⟩
          exact hbidir.1.imp hun.readfd.trans fun hn => hn.trans_eq hun.readfd.symm
        · exact absurd hread (Int.not_lt.2 hn)
      have hconserves : Conserves s.chan (s.chan.withSession cs') := by
        refine ⟨[], (List.append_nil _).symm, ?_, hpaired⟩
        rw [hs.fds_of_unused hunused]
        simp [fds, refs, withSession, fdNum_of_neg hread, fdNum_of_neg hneg, hun.errfd,
          session, hs.paired.errfd]
      exact hconserves.fdStep hs rfl hstate id ⟨.inl hun.readfd, .inr hneg⟩
  | executed hex =>
    have hpaired : (s.chan.withSession cs').Paired := by
      refine ⟨hex.errfd, fun hb => ?_, fun _ _ => hex.apart hfresh⟩
      have hb' : cs'.bidirFd = true := hb
      simp [hex.bidirFd] at hb'
    refine .inl (withSession_installs hs htype hex.idle (by simp [hex.state]) hpaired ?_)
    rw [hpaired.refs_of_not_bidir hex.bidirFd]
    simp only [withSession, fdNum_of_nonneg hex.readfd, fdNum_of_nonneg hex.writefd]
    have hapart := hex.apart hfresh
    have hread := hex.readfd
    have hwrite := hex.writefd
    simp only [List.singleton_append, List.nodup_cons, List.mem_singleton, List.not_mem_nil,
      not_false_eq_true, List.nodup_nil, and_true]
    omega
  | forked hfork =>
    have hwrite : 0 ≤ cs'.writefd := hfork.writefd ▸ hfork.readfd
    have hpaired : (s.chan.withSession cs').Paired := by
      refine ⟨hfork.errfd, fun _ => ⟨.inr hfork.readfd, .inr hwrite, fun _ _ => hfork.writefd.symm⟩,
        fun hb => ?_⟩
      have hb' : cs'.bidirFd = false := hb
      simp [hfork.bidirFd] at hb'
    refine .inl (withSession_installs hs htype hfork.idle (by simp [hfork.state]) hpaired ?_)
    rw [hpaired.refs_of_bidir hfork.bidirFd]
    split_ifs
    · exact fdNum_nodup _
    · exact fdNum_nodup _

theorem connectDone_fdStep (hs : s.chan.Sound) (hp : s.chan.present = true)
    (hpending : s.chan.connPending = true) (sock : Option ℕ) :
    FdStep s.chan (s.chan.channelConnectDone sock) := by
  have hunused : s.chan.Unused := .inr hpending
  cases sock with
  | none =>
    have hnot : ¬ s.chan.Doubled := fun hd => absurd (hs.unused hunused).1 (Int.not_lt.2 hd.1)
    have hconserves : Conserves s.chan (s.chan.channelConnectDone none) :=
      (hs.paired.removeChannel hp hnot).of_eq rfl rfl rfl rfl rfl rfl
    exact hconserves.fdStep hs rfl id (fun hn => by cases hn) ⟨.inl rfl, .inl rfl⟩
  | some sock =>
    have hpaired : (s.chan.channelConnectDone (some sock)).Paired :=
      ⟨hs.paired.errfd, fun _ => ⟨.inr (Int.natCast_nonneg _), .inr (Int.natCast_nonneg _),
        fun _ _ => rfl⟩, fun hb => by cases hb⟩
    have hused : ¬ (s.chan.channelConnectDone (some sock)).Unused := by
      rintro (⟨ht, -⟩ | hn)
      · exact hs.connPending hpending ht
      · cases hn
    refine .inl ⟨hunused, hused, rfl, ?_, hpaired, fun hu => absurd hu hused, fun hn => by cases hn⟩
    unfold fds
    split_ifs
    · rw [hpaired.refs_of_bidir rfl]
      split_ifs
      · exact fdNum_nodup _
      · exact fdNum_nodup _
    · exact List.nodup_nil

/-- The event is a step of the worker. -/
def isWorker : LifeEvent → Bool
  | .workerWrite _ | .workerLeave _ | .workerStore | .workerDone | .workerClose => true
  | _ => false

/-- The worker does not touch the channel's descriptors. -/
theorem perform_worker {e : LifeEvent} (he : isWorker e = true) (hst : Performs R s e t) :
    t.chan = { s.chan with chansess := t.chan.chansess } ∧ t.main = s.main ∧
      (t.chan.chansess.backendState = s.chan.chansess.backendState ∨
        t.chan.chansess.backendState = .done) := by
  cases hst with
  | workerWriteFails | workerWrite | workerLeave => exact ⟨rfl, rfl, .inl rfl⟩
  | workerDone => exact ⟨rfl, rfl, .inr rfl⟩
  | workerClose => exact ⟨rfl, rfl, .inl rfl⟩
  | workerStore h =>
    simp only [workerStore] at h
    cases hw : s.worker <;> rw [hw] at h <;> cases h <;> exact ⟨rfl, rfl, .inl rfl⟩
  | _ => cases he

/-- Nothing but the worker is left of a channel that has been removed. -/
theorem isWorker_of_removed {e : LifeEvent} (hp : s.chan.present = false) (hm : s.main = .poll)
    (h : s.perform R recvWindow e = some t) : isWorker e = true := by
  cases e with
  | workerWrite | workerLeave | workerStore | workerDone | workerClose => rfl
  | _ => simp [perform, polling, hp, hm] at h

/-- **One step**: descriptors are conserved or installed, unless the channel is removed while both
references to its socket are there. -/
theorem perform_fdStep {e : LifeEvent} (hs : s.chan.Sound)
    (hp : isWorker e = true ∨ s.chan.present = true)
    (hC : e = .closeUp → s.chan.recvClose = true → s.chan.writePending = false →
      s.chan.sentClose = true → ¬ s.chan.Doubled)
    (hst : Performs R s e t) : FdStep s.chan t.chan := by
  have hsame : ∀ c : Channel, c.errfd = s.chan.errfd → c.bidirFd = s.chan.bidirFd →
      c.readfd = s.chan.readfd → c.writefd = s.chan.writefd → c.present = s.chan.present →
      c.calls = s.chan.calls → c.type = s.chan.type → c.connPending = s.chan.connPending →
      (c.chansess.backendState = .idle → s.chan.chansess.backendState = .idle) →
      FdStep s.chan c := by
    intro c h₁ h₂ h₃ h₄ h₅ h₆ h₇ h₈ h₉
    have hconserves := (Conserves.refl hs.paired).of_eq h₁ h₂ h₃ h₄ h₅ h₆
    exact hconserves.fdStep hs h₇ h₉ (fun hn => h₈ ▸ hn) ⟨.inl h₃, .inl h₄⟩
  by_cases he : isWorker e = true
  · obtain ⟨hchan, -, hstate⟩ := perform_worker he hst
    rw [hchan]
    refine hsame _ rfl rfl rfl rfl rfl rfl rfl rfl fun hi => ?_
    exact hstate.elim (fun heq => heq ▸ hi) fun hd => by simp [hd] at hi
  replace hp := hp.resolve_left he
  have hshuts : ∀ c : Channel, Conserves s.chan c → Shuts s.chan c → FdStep s.chan c := by
    intro c hc hsh
    obtain ⟨htype, hsess, -, -, -, hpending⟩ := hsh.keeps
    exact hc.fdStep hs htype (fun hi => hsess ▸ hi) (fun hn => hpending ▸ hn) hsh.narrows
  have hrelays : ∀ c : Channel, Relays s.chan c → FdStep s.chan c := by
    intro c hr
    obtain ⟨htype, hsess, -, -, -, hpending⟩ := hr.keeps
    exact (hs.paired.relays hp hr).fdStep hs htype (fun hi => hsess ▸ hi)
      (fun hn => hpending ▸ hn) hr.narrows
  cases hst with
  | recvRequest _ hfresh h => exact recvRequest_fdStep hs hfresh h
  | recvData _ h => exact hrelays _ h
  | writable h => exact hrelays _ h
  | readEnd => exact hshuts _ (hs.paired.closeReadfd hp) (closeChanFd_shuts _ _ _)
  | @connectDone sock _ hpending => exact connectDone_fdStep hs hp hpending sock
  | @reply wantreply ret =>
    have hreply : ∃ msgs, s.chan.sendReply wantreply ret = { s.chan with sent := msgs } := by
      unfold Channel.sendReply
      split_ifs <;> exact ⟨_, rfl⟩
    obtain ⟨msgs, heq⟩ := hreply
    simp only [ChannelLife.reply, heq]
    refine hsame _ rfl rfl rfl rfl rfl rfl rfl rfl fun hi => ?_
    simp only [ChanSess.answer] at hi
    split_ifs at hi
    exact hi
  | check =>
    obtain ⟨flushing, backendFd, cancelFd, heq⟩ := checked_eq s.chan
    simp only [ChannelLife.check, heq]
    exact hsame _ rfl rfl rfl rfl rfl rfl rfl rfl id
  | flush => exact hshuts _ (hs.paired.flush hp _) (flush_shuts _ _)
  | @closeUp allowed hmain =>
    obtain ⟨htype, hsess, -, -, hpending⟩ := closeUp_keeps s.chan allowed
    refine (hs.paired.closeUp hp fun hr hw _ hc => hC rfl hr hw hc).fdStep hs htype
      (fun hi => hsess ▸ hi) (fun hn => ?_) (closeUp_narrows _ _)
    by_contra hno
    simp [hpending (by simpa using hno)] at hn
  | workerWriteFails | workerWrite | workerLeave | workerStore | workerDone | workerClose =>
    exact absurd rfl he
  | recvEof | recvClose | recvWindowAdjust | abort | readNothing | readData | signalPending
  | kexStart | kexEnd => exact hsame _ rfl rfl rfl rfl rfl rfl rfl rfl id

/-- The main thread has nothing to do for a channel that has been removed. -/
theorem perform_removed {e : LifeEvent} (hs : s.chan.present = false → s.main = .poll)
    (hp : isWorker e = true ∨ s.chan.present = true) (hst : Performs R s e t)
    (ht : t.chan.present = false) : t.main = .poll := by
  by_cases he : isWorker e = true
  · obtain ⟨hchan, hmain, -⟩ := perform_worker he hst
    rw [hchan] at ht
    exact hmain.trans (hs ht)
  replace hp := hp.resolve_left he
  have hkept : t.chan.present = s.chan.present → t.main = .poll := by
    intro heq
    rw [heq, hp] at ht
    cases ht
  cases hst with
  | @recvRequest payload env t _ _ hst =>
    rcases recvRequest_cases hst with ⟨w, rfl⟩ | ⟨-, w, ret, started, stores, cs', -, hout, rfl⟩
    · exact hkept rfl
    · refine hkept ?_
      change (s.handled env s.chan.session cs').chan.present = _
      rw [(handled_chan s env s.chan.session cs').1]
      rfl
  | recvData hmain => exact hmain
  | @writable w c hr =>
    refine hkept ?_
    obtain ⟨d, adjusts, writebuf, recvwindow, recvdonelen, rfl | ⟨-, rfl⟩, -, rfl⟩ := hr
    · rfl
    · exact closeChanFd_present _ _ _
  | readEnd => exact hkept (closeChanFd_present _ _ _)
  | @connectDone sock hmain => exact hmain
  | check =>
    obtain ⟨flushing, backendFd, cancelFd, heq⟩ := checked_eq s.chan
    refine hkept ?_
    simp only [ChannelLife.check, heq]
  | flush =>
    refine hkept ?_
    dsimp only
    rw [(flush_shuts s.chan s.pending).rest]
  | reply | closeUp => rfl
  | recvEof | recvClose | recvWindowAdjust | abort | readNothing | readData | signalPending
  | kexStart | kexEnd => exact hkept rfl
  | workerWriteFails | workerWrite | workerLeave | workerStore | workerDone | workerClose =>
    exact absurd rfl he

end ChannelLife

end Ps4Dropbear
