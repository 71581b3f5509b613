import Ps4Dropbear.Channel.Delivery

/-!
# A peer that overruns its window

`common_recv_msg_channel_data` compares the length of a message with the space in the circular
buffer, and asserts that it is within the window.  The two differ by `recvdonelen`, the bytes that
have been written and not been granted again.

* `Settled` : the window, what has been written and what is in the buffer make up the whole, as long
  as the descriptor has not been given up.
* `overrun_refused_iff` : **exactly those lengths in between fail the assertion**.
-/

namespace Ps4Dropbear

namespace InboundLife

open Channel Inbound

variable {haveWritev : Bool} {R : Restriction} {W : RecvWindow} {s t u : InboundLife}

/-- Nothing of the window is missing, or the descriptor has been given up for good. -/
def Settled (W : RecvWindow) (s : InboundLife) : Prop :=
  s.life.chan.writefd < 0 ∧ ¬ s.life.chan.Unused ∨
    s.life.chan.recvwindow + s.life.chan.recvdonelen + s.cbuf.used = W.len

theorem settled_step {ev : InboundEvent} (hs : InboundInv W s) (h : Settled W s)
    (hst : (inboundLife haveWritev R W).step s ev = some u) : Settled W u := by
  rcases h with ⟨hclosed, hused⟩ | hsum
  · obtain ⟨hused', hkeeps⟩ := writefd_step hs hused hst
    exact .inl ⟨hkeeps hclosed, hused'⟩
  obtain ⟨t, hsteps, hchan, hu⟩ := step_cases hs hst
  have hopen : 0 ≤ s.life.chan.writefd → ¬ u.life.chan.Unused := fun hfd =>
    (writefd_step hs (fun hn => absurd (hs.unused hn) (Int.not_lt.2 hfd)) hst).1
  have hbuf : u.cbuf = t.cbuf := by rw [hu]
  unfold Settled
  rw [hbuf, hchan]
  cases hsteps with
  | dropped => exact .inr hsum
  | @received payload data w r _ hfd _ hwindow hr =>
    obtain ⟨kept, hbal, -, -⟩ := hr.balances hwindow
    cases kept with
    | true => exact .inr ((hbal.exact rfl).trans hsum)
    | false => exact .inl ⟨hbal.closed rfl, hchan ▸ hopen hfd⟩
  | @written w ret _ r hfd hr =>
    have hbal := hr.balances (W := W)
    cases ret with
    | true => exact .inr ((hbal.exact rfl).trans hsum)
    | false => exact .inl ⟨hbal.closed rfl, hchan ▸ hopen hfd⟩
  | other hframe =>
    right
    dsimp only
    rw [hframe.recvwindow, hframe.recvdonelen]
    exact hsum

/-- The space in the buffer is the window and what has not been granted again. -/
theorem Settled.avail (h : Settled W s) (hs : InboundInv W s) (hfd : 0 ≤ s.life.chan.writefd) :
    cbufGetavail s.cbuf = s.life.chan.recvwindow + s.life.chan.recvdonelen := by
  have hsum := h.resolve_left fun hn => absurd hn.1 (Int.not_lt.2 hfd)
  have hsize := hs.sized
  unfold cbufGetavail
  omega

end InboundLife

open InboundLife

/-- The text of the assertion. -/
def windowAssertion : Exit := "Failed assertion: channel->recvwindow >= datalen"

/-- **The property**: a message that is longer than the window ends the session by the check for
oversized packets, and the assertion does not fail.  Messages behind CHANNEL_EOF, and those for a
descriptor that is not open, do not get that far. -/
def OverrunRefused (haveWritev : Bool) (W : RecvWindow) (s : InboundLife) (payload : Buffer)
    (w : ChanWrite) (datalen : ℕ) : Prop :=
  s.inbound.commonRecvMsgChannelData haveWritev W payload w ≠ .error windowAssertion ∧
    (s.life.chan.recvEof = false → 0 ≤ s.life.chan.writefd →
      datalen ≤ s.life.chan.recvwindow ∨
        s.inbound.commonRecvMsgChannelData haveWritev W payload w = .error "Oversized packet")

variable {haveWritev : Bool} {R : Restriction} {W : RecvWindow} {type : ChanType}
variable {transwindow transmaxpacket : ℕ} {s₀ t : InboundLife} {evs : List InboundEvent}

theorem error_ne {α : Type*} {e e' : Exit} (h : e ≠ e') :
    (.error e : Except Exit α) ≠ .error e' :=
  fun heq => h (Except.error.inj heq)

/-- A message within the window is handled, or its payload is too short. -/
theorem Inbound.commonRecvMsgChannelData_within {s : Inbound} (hsize : s.cbuf.size = W.len)
    (hsum : s.chan.recvwindow + s.chan.recvdonelen + s.cbuf.used ≤ W.len)
    (heof : s.chan.recvEof = false) (hfd : 0 ≤ s.chan.writefd)
    {payload rest : Buffer} {datalen : ℕ} (hint : bufGetint payload = .ok (datalen, rest))
    (hle : datalen ≤ s.chan.recvwindow) (w : ChanWrite) :
    (∃ r, s.commonRecvMsgChannelData haveWritev W payload w = .ok r) ∨
      s.commonRecvMsgChannelData haveWritev W payload w = .error "Bad buf_getptr" := by
  obtain ⟨⟨hlt, r, hr⟩, rfl⟩ := bufGetint_ok.1 hint
  cases hptr : bufGetptr (payload.advance 4) datalen with
  | ok data =>
    obtain ⟨rfl, r', hr'⟩ := bufGetptr_ok.1 hptr
    have hrest : r = data ++ r' := by
      rw [← hr', ← length_store32h data.length, Buffer.rest_advance_of_append hr]
    have hdata : Inbound.Carries payload data :=
      ⟨hlt, r', by rw [hr, hrest, sshString, List.append_assoc]⟩
    obtain ⟨s', hok, -⟩ := commonRecvMsgChannelData_ok hsize hsum heof hfd hdata hle haveWritev w
    exact .inl ⟨s', hok⟩
  | error e =>
    right
    have htext : e = "Bad buf_getptr" := by
      unfold bufGetptr at hptr
      split_ifs at hptr
      exact (Except.error.inj hptr).symm
    have havail : ¬ datalen > cbufGetavail s.cbuf := by
      unfold cbufGetavail
      omega
    unfold commonRecvMsgChannelData
    rw [if_neg (Bool.eq_false_iff.1 heof), if_neg (Int.not_lt.2 hfd), hint, ok_bind]
    dsimp only
    rw [if_neg havail, if_neg (not_not.2 hle), if_neg (not_not.2 (by omega)), hptr, htext]
    rfl

/-- **Which overruns are refused**: in every state that a channel can reach, a message of `datalen`
bytes is accepted or refused as it should be, unless it exceeds the window by no more than what has
been written and not yet been granted again. -/
theorem overrun_refused_iff (hopen : opened W type transwindow transmaxpacket = .ok s₀)
    (h : (inboundLife haveWritev R W).exec s₀ evs = some t) {payload rest : Buffer} {datalen : ℕ}
    (hint : bufGetint payload = .ok (datalen, rest)) (w : ChanWrite) :
    OverrunRefused haveWritev W t payload w datalen ↔
      ¬ (t.life.chan.recvEof = false ∧ 0 ≤ t.life.chan.writefd ∧
        t.life.chan.recvwindow < datalen ∧
        datalen ≤ t.life.chan.recvwindow + t.life.chan.recvdonelen) := by
  obtain ⟨s₁, hs₁, hinv₀, -, hwin, hdone, hused, -, -⟩ :=
    inboundInv_opened W type transwindow transmaxpacket
  obtain rfl : s₁ = s₀ := by simpa using hs₁.symm.trans hopen
  obtain ⟨hinv, hsettled⟩ : InboundInv W t ∧ Settled W t := by
    refine LTS.exec_invariant' (I := fun s => InboundInv W s ∧ Settled W s)
      ⟨hinv₀, .inr (by omega)⟩ ?_ h
    intro s ev s' hI hst
    exact ⟨inboundInv_step hI.1 hst, settled_step hI.1 hI.2 hst⟩
  unfold OverrunRefused
  cases heof : t.life.chan.recvEof with
  | true =>
    have hrun : t.inbound.commonRecvMsgChannelData haveWritev W payload w =
        .error "Received data after eof" := if_pos heof
    rw [hrun]
    exact ⟨fun _ hn => absurd hn.1 (by decide), fun _ => ⟨error_ne (by decide), nofun⟩⟩
  | false =>
    have hnot : ¬ t.inbound.chan.recvEof = true := Bool.eq_false_iff.1 heof
    by_cases hfd : t.life.chan.writefd < 0
    · have hrun : t.inbound.commonRecvMsgChannelData haveWritev W payload w = .ok t.inbound :=
        (if_neg hnot).trans (if_pos hfd)
      rw [hrun]
      exact ⟨fun _ hn => Int.not_lt.2 hn.2.1 hfd,
        fun _ => ⟨nofun, fun _ hopen' => absurd hfd (Int.not_lt.2 hopen')⟩⟩
    replace hfd : 0 ≤ t.life.chan.writefd := Int.not_lt.1 hfd
    have havail := hsettled.avail hinv hfd
    by_cases hle : datalen ≤ t.life.chan.recvwindow
    · refine ⟨fun _ hn => Nat.not_lt.2 hle hn.2.2.1, fun _ => ⟨?_, fun _ _ => .inl hle⟩⟩
      rcases t.inbound.commonRecvMsgChannelData_within hinv.sized hinv.window heof hfd hint hle w
        with ⟨r, hok⟩ | herr
      · rw [hok]
        exact nofun
      · rw [herr]
        exact error_ne (by decide)
    -- longer than the window: what decides is the space in the buffer
    have hrun : t.inbound.commonRecvMsgChannelData haveWritev W payload w =
        if datalen > t.life.chan.recvwindow + t.life.chan.recvdonelen then
          .error "Oversized packet" else .error windowAssertion := by
      unfold Inbound.commonRecvMsgChannelData
      rw [if_neg hnot, if_neg (show ¬ t.inbound.chan.writefd < 0 from Int.not_lt.2 hfd), hint,
        ok_bind, ← havail]
      dsimp only
      rw [if_pos (show ¬ t.inbound.chan.recvwindow ≥ datalen from hle)]
      rfl
    rw [hrun]
    by_cases hover : datalen > t.life.chan.recvwindow + t.life.chan.recvdonelen
    · rw [if_pos hover]
      exact ⟨fun _ hn => absurd hn.2.2.2 (Nat.not_le.2 hover),
        fun _ => ⟨error_ne (by decide), fun _ _ => .inr rfl⟩⟩
    · rw [if_neg hover]
      exact ⟨fun hn => absurd rfl hn.1,
        fun hn => absurd ⟨rfl, hfd, Nat.not_le.1 hle, Nat.not_lt.1 hover⟩ hn⟩

/-- A connection to be forwarded, with the default window. -/
def defaultChannel : InboundLife where
  life := ChannelLife.opened 24576 .directTcpip 1000 1000
  cbuf :=
    { size := 24576, readpos := 0, writepos := 0, used := 0, data := none
      size_pos := RecvWindow.default.pos, size_le := by decide
      readpos_lt := RecvWindow.default.pos, used_le := by decide
      writepos_eq := (Nat.zero_mod 24576).symm, length_data := nofun }

/-- One byte comes and is written, which leaves 24575 in the window. -/
def oneByte : List InboundEvent :=
  connects ++ [InboundEvent.recvData (dataPayload [0] (by decide)) (.wrote 1)]

/-- CHANNEL_DATA with 24576 bytes. -/
def longPayload : Buffer :=
  dataPayload (List.replicate 24576 0) (by rw [length_sshString, List.length_replicate]; decide)

theorem bufGetint_longPayload : bufGetint longPayload = .ok (24576, longPayload.advance 4) := by
  refine bufGetint_ok.2 ⟨⟨by decide, List.replicate 24576 0, ?_⟩, rfl⟩
  rw [longPayload, dataPayload, Buffer.rest_ofBytes, sshString, List.length_replicate]

theorem opened_default : opened .default .directTcpip 1000 1000 = .ok defaultChannel := rfl

/-- The message does not end in the assertion when the window is full. -/
theorem overrun_refused_iff_full : ∃ t,
    (inboundLife true unrestricted .default).exec defaultChannel connects = some t ∧
      OverrunRefused true .default t longPayload .again 24576 := by
  have hrun : ((inboundLife true unrestricted .default).exec defaultChannel connects).map
      (fun t => t.life.chan.recvwindow) = some 24576 := by decide
  obtain ⟨t, ht, hwindow⟩ := Option.map_eq_some_iff.1 hrun
  refine ⟨t, ht, (overrun_refused_iff opened_default ht bufGetint_longPayload .again).2 ?_⟩
  rintro ⟨-, -, hlt, -⟩
  omega

/-- When one byte has been written, it does: there is space for the message, but no window. -/
theorem overrun_not_refused : ∃ t,
    opened .default .directTcpip 1000 1000 = .ok defaultChannel ∧
      (inboundLife true unrestricted .default).exec defaultChannel oneByte = some t ∧
      bufGetint longPayload = .ok (24576, longPayload.advance 4) ∧
      ¬ OverrunRefused true .default t longPayload .again 24576 := by
  have hrun : ((inboundLife true unrestricted .default).exec defaultChannel oneByte).map
      (fun t => match t.inbound.commonRecvMsgChannelData true .default longPayload .again with
        | .error e => decide (e = windowAssertion)
        | .ok _ => false) = some true := by decide +kernel
  obtain ⟨t, ht, hfails⟩ := Option.map_eq_some_iff.1 hrun
  refine ⟨t, opened_default, ht, bufGetint_longPayload, fun hrefused => hrefused.1 ?_⟩
  cases hrun' : t.inbound.commonRecvMsgChannelData true .default longPayload .again with
  | ok r =>
    rw [hrun'] at hfails
    cases hfails
  | error e =>
    rw [hrun'] at hfails
    rw [of_decide_eq_true hfails]

end Ps4Dropbear
