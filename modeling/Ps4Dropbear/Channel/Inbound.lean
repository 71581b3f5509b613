import Ps4Dropbear.Buffer.Circbuffer
import Ps4Dropbear.Channel.CommonChannel

/-!
# Data from the peer, byte by byte

`common-channel.c` again, for the way of CHANNEL_DATA to `writefd`: `writechannel` with both of its
ways to write, and `common_recv_msg_channel_data`, over the circular buffer itself and not over the
number of bytes in it.  `delivered` is what the descriptor has been given.

`writebuf` of the channel record is the number of bytes in the buffer, and is set by
`Inbound.view`; nothing here reads it.

* `RecvWindow` : the option of the receive window, with its bounds.
* `Inbound.writechannel`, `Inbound.commonRecvMsgChannelData` : the functions.
* `Inbound.WriteOutcome`, `Inbound.Received` : what they do.
* `Inbound.received_refines` : they do to the counters what the functions of
  `Channel.CommonChannel` do.
-/

namespace Ps4Dropbear

/-- `MAX_RECV_WINDOW`. -/
def maxRecvWindow : ℕ := 10 * 1024 * 1024

/-- `opts.recv_window`, within the bounds of `parse_recv_window`. -/
structure RecvWindow where
  len : ℕ
  pos : 0 < len
  le : len ≤ maxRecvWindow

/-- `DEFAULT_RECV_WINDOW`. -/
def RecvWindow.default : RecvWindow := ⟨24576, by decide, by decide⟩

/-- A channel with its `writebuf`, and the bytes that its `writefd` has been given. -/
structure Inbound where
  chan : Channel
  cbuf : Circbuffer
  delivered : Bytes

namespace Inbound

/-- The channel with the number of bytes in its buffer. -/
def view (s : Inbound) : Channel := { s.chan with writebuf := s.cbuf.used }

/-- `close_chan_fd` behind a failed write. -/
def failWrite (s : Inbound) : Inbound := { s with chan := s.chan.closeChanFd s.chan.writefd .wr }

/-- `writechannel_writev`: the result, what is left in `*morelen`, and the channel.  Empty parts of
the buffer are not in `iov`. -/
def writechannelWritev (s : Inbound) (moredata : Option Bytes) (w : ChanWrite) :
    Except Exit (Bool × ℕ × Inbound) :=
  let p1 := (cbufReadptrs s.cbuf).1
  let p2 := (cbufReadptrs s.cbuf).2
  let iov := p1 ++ p2 ++ moredata.getD []
  if p1 = [] ∧ p2 = [] ∧ moredata = none then .ok (true, 0, s)
  else
    match w with
    | .error => .ok (false, 0, s.failWrite)
    | .again => .ok (true, 0, s)
    | .wrote n => do
      let written := min n iov.length
      let cbufWritten := min (p1.length + p2.length) written
      let cbuf ← cbufIncrread s.cbuf cbufWritten
      return (true, written - cbufWritten,
        { chan := { s.chan with recvdonelen := s.chan.recvdonelen + written }
          cbuf := cbuf, delivered := s.delivered ++ iov.take written })

/-- `writechannel_fallback`: only the first part of the buffer is written. -/
def writechannelFallback (s : Inbound) (w : ChanWrite) : Except Exit (Bool × ℕ × Inbound) :=
  let p1 := (cbufReadptrs s.cbuf).1
  match w with
  | .error => .ok (false, 0, s.failWrite)
  | .again => .ok (true, 0, s)
  | .wrote n => do
    let written := min n p1.length
    let cbuf ← cbufIncrread s.cbuf written
    return (true, 0,
      { chan := { s.chan with recvdonelen := s.chan.recvdonelen + written }
        cbuf := cbuf, delivered := s.delivered ++ p1.take written })

variable (haveWritev : Bool) (W : RecvWindow)

/-- The window adjustment of `writechannel`, with `send_msg_channel_window_adjust`. -/
def adjustWindow (c : Channel) : Channel :=
  if c.recvdonelen ≥ W.len / 3 then
    { c with
      sent := c.sent ++ [.windowAdjust c.recvdonelen]
      recvwindow := c.recvwindow + c.recvdonelen, recvdonelen := 0 }
  else c

/-- `writechannel`.  `extrabuf` is `NULL`. -/
def writechannel (s : Inbound) (moredata : Option Bytes) (w : ChanWrite) :
    Except Exit (Bool × ℕ × Inbound) := do
  let (ret, morelen, s) ←
    (if haveWritev then s.writechannelWritev moredata w else s.writechannelFallback w)
  let s := { s with chan := adjustWindow W s.chan }
  if ¬ s.chan.recvwindow ≤ W.len then
    dropbearExit "Failed assertion: channel->recvwindow <= opts.recv_window"
  else if ¬ s.chan.recvwindow ≤ cbufGetavail s.cbuf then
    dropbearExit "Failed assertion: channel->recvwindow <= cbuf_getavail(channel->writebuf)"
  else return (ret, morelen, s)

/-- The loop that copies payload to the buffer.  Every turn that copies something takes a byte, so
the fuel is used up before the payload only by turns that copy nothing: the loop would not end. -/
def storePayload : ℕ → Circbuffer → Bytes → Except Exit Circbuffer
  | 0, c, data => if data = [] then .ok c else .error "no progress"
  | fuel + 1, c, data =>
    if data = [] then .ok c
    else do
      let buflen ← cbufWritelen c
      let buflen := min buflen data.length
      let c ← c.store (data.take buflen)
      storePayload fuel c (data.drop buflen)

/-- `common_recv_msg_channel_data`; `payload` is read behind the channel number. -/
def commonRecvMsgChannelData (s : Inbound) (payload : Buffer) (w : ChanWrite) :
    Except Exit Inbound :=
  if s.chan.recvEof then dropbearExit "Received data after eof"
  else if s.chan.writefd < 0 then .ok s
  else do
    let (datalen, payload) ← bufGetint payload
    if datalen > cbufGetavail s.cbuf then dropbearExit "Oversized packet"
    else if ¬ s.chan.recvwindow ≥ datalen then
      dropbearExit "Failed assertion: channel->recvwindow >= datalen"
    else
      let s := { s with chan := { s.chan with recvwindow := s.chan.recvwindow - datalen } }
      if ¬ s.chan.recvwindow ≤ W.len then
        dropbearExit "Failed assertion: channel->recvwindow <= opts.recv_window"
      else
        let data ← bufGetptr payload datalen
        let (res, consumed, s) ← s.writechannel haveWritev W (some data) w
        -- what was not written is stored, and discarded when writing failed
        if res then
          let cbuf ← storePayload (datalen - consumed) s.cbuf (data.drop consumed)
          return { s with cbuf := cbuf }
        else return s

/-! ### Writing -/

variable {haveWritev W} {s s' : Inbound} {data : Bytes} {w : ChanWrite}

/-- What a write can do, with `data` behind the bytes in the buffer. -/
inductive WriteOutcome (s : Inbound) (data : Bytes) (w : ChanWrite) : Bool → ℕ → Inbound → Prop
  | failed (hw : w = .error) : WriteOutcome s data w false 0 s.failWrite
  | wrote {n consumed : ℕ} {cbuf : Circbuffer} {delivered : Bytes} (hw : w = .error → data = [])
      (hsize : cbuf.size = s.cbuf.size) (hconsumed : consumed ≤ data.length)
      (hused : cbuf.used + (data.length - consumed) + n = s.cbuf.used + data.length)
      (hbytes : delivered ++ cbuf.content ++ data.drop consumed =
        s.delivered ++ s.cbuf.content ++ data) :
      WriteOutcome s data w true consumed
        { chan := { s.chan with recvdonelen := s.chan.recvdonelen + n }
          cbuf := cbuf, delivered := delivered }

theorem WriteOutcome.nothing (s : Inbound) (hw : w = .error → data = []) :
    WriteOutcome s data w true 0 s :=
  @WriteOutcome.wrote s data w 0 0 s.cbuf s.delivered hw rfl (Nat.zero_le _) rfl rfl

theorem writechannelWritev_ok (s : Inbound) (moredata : Option Bytes) (w : ChanWrite) :
    ∃ ret morelen s', s.writechannelWritev moredata w = .ok (ret, morelen, s') ∧
      WriteOutcome s (moredata.getD []) w ret morelen s' := by
  have hcontent := cbufReadptrs_content s.cbuf
  have hlen : (cbufReadptrs s.cbuf).1.length + (cbufReadptrs s.cbuf).2.length = s.cbuf.used := by
    rw [← List.length_append, hcontent, Circbuffer.length_content]
  unfold writechannelWritev
  dsimp only
  split_ifs with hnone
  · exact ⟨_, _, _, rfl, .nothing s fun _ => by rw [hnone.2.2]; rfl⟩
  · cases w with
    | error => exact ⟨_, _, _, rfl, .failed rfl⟩
    | again => exact ⟨_, _, _, rfl, .nothing s nofun⟩
    | wrote n =>
      rw [hlen, hcontent, List.length_append, Circbuffer.length_content]
      dsimp only
      generalize moredata.getD [] = data
      generalize hwritten : min n (s.cbuf.used + data.length) = written
      obtain ⟨cbuf, hok, hsize, hused, hbytes⟩ :=
        cbufIncrread_ok s.cbuf (Nat.min_le_left s.cbuf.used written)
      rw [hok]
      refine ⟨_, _, _, rfl, .wrote nofun hsize (by omega) (by omega) ?_⟩
      rw [hbytes]
      rcases Nat.le_total s.cbuf.used written with hle | hle
      · -- the buffer is empty now, and the rest was taken from `data`
        rw [Nat.min_eq_left hle, List.drop_of_length_le s.cbuf.length_content.le,
          List.take_append, List.take_of_length_le (by rw [s.cbuf.length_content]; exact hle),
          Circbuffer.length_content, List.append_nil]
        simp only [List.append_assoc, List.take_append_drop]
      · rw [Nat.min_eq_right hle, Nat.sub_self, List.drop_zero,
          List.take_append_of_le_length (by rw [s.cbuf.length_content]; exact hle)]
        rw [List.append_assoc s.delivered, List.take_append_drop]

theorem writechannelFallback_ok (s : Inbound) (data : Bytes) (w : ChanWrite) :
    ∃ ret morelen s', s.writechannelFallback w = .ok (ret, morelen, s') ∧
      WriteOutcome s data w ret morelen s' := by
  have hcontent := cbufReadptrs_content s.cbuf
  have hlen : (cbufReadptrs s.cbuf).1.length + (cbufReadptrs s.cbuf).2.length = s.cbuf.used := by
    rw [← List.length_append, hcontent, Circbuffer.length_content]
  unfold writechannelFallback
  dsimp only
  cases w with
  | error => exact ⟨_, _, _, rfl, .failed rfl⟩
  | again => exact ⟨_, _, _, rfl, .nothing s nofun⟩
  | wrote n =>
    dsimp only
    generalize hwritten : min n (cbufReadptrs s.cbuf).1.length = written
    have hle : written ≤ (cbufReadptrs s.cbuf).1.length := hwritten ▸ Nat.min_le_right _ _
    obtain ⟨cbuf, hok, hsize, hused, hbytes⟩ :=
      cbufIncrread_ok s.cbuf (show written ≤ s.cbuf.used by omega)
    rw [hok]
    refine ⟨_, _, _, rfl, .wrote nofun hsize (Nat.zero_le _) (by omega) ?_⟩
    have htake : (cbufReadptrs s.cbuf).1.take written = s.cbuf.content.take written := by
      rw [← hcontent, List.take_append_of_le_length hle]
    rw [hbytes, htake, List.drop_zero]
    rw [List.append_assoc s.delivered, List.take_append_drop]

/-! ### The window -/

/-- Giving a descriptor up leaves the window alone. -/
theorem closeChanFd_window (c : Channel) (fd : ℤ) (how : How) :
    (c.closeChanFd fd how).recvwindow = c.recvwindow ∧
      (c.closeChanFd fd how).recvdonelen = c.recvdonelen ∧
      (c.closeChanFd fd how).sent = c.sent := by
  rw [(Channel.closeChanFd_shuts c fd how).rest]
  exact ⟨rfl, rfl, rfl⟩

theorem adjustWindow_sum (W : RecvWindow) (c : Channel) :
    (adjustWindow W c).recvwindow + (adjustWindow W c).recvdonelen =
      c.recvwindow + c.recvdonelen := by
  unfold adjustWindow
  split_ifs
  · rfl
  · rfl

/-- The assertions of `writechannel` hold as long as the window, what has been written and what is
in the buffer or on its way there are not more than the option allows. -/
theorem writechannel_ok (moredata : Option Bytes) (hsize : s.cbuf.size = W.len)
    (hsum : s.chan.recvwindow + s.chan.recvdonelen + s.cbuf.used + (moredata.getD []).length ≤
      W.len) (haveWritev : Bool) (w : ChanWrite) :
    ∃ ret morelen t, s.writechannel haveWritev W moredata w =
        .ok (ret, morelen, { t with chan := adjustWindow W t.chan }) ∧
      WriteOutcome s (moredata.getD []) w ret morelen t := by
  have hwrite : ∃ ret morelen t,
      (if haveWritev then s.writechannelWritev moredata w else s.writechannelFallback w) =
        .ok (ret, morelen, t) ∧ WriteOutcome s (moredata.getD []) w ret morelen t := by
    cases haveWritev with
    | true => exact writechannelWritev_ok s moredata w
    | false => exact writechannelFallback_ok s _ w
  obtain ⟨ret, morelen, t, hok, hout⟩ := hwrite
  refine ⟨ret, morelen, t, ?_, hout⟩
  have hcount : t.cbuf.size = s.cbuf.size ∧
      t.chan.recvwindow + t.chan.recvdonelen + t.cbuf.used ≤ W.len := by
    cases hout with
    | failed =>
      obtain ⟨hwindow, hdone, -⟩ := closeChanFd_window s.chan s.chan.writefd .wr
      refine ⟨rfl, ?_⟩
      simp only [failWrite, hwindow, hdone]
      omega
    | wrote _ hsize _ hused => exact ⟨hsize, by dsimp only; omega⟩
  have hadjusted := adjustWindow_sum W t.chan
  have havail : (adjustWindow W t.chan).recvwindow ≤ cbufGetavail t.cbuf := by
    unfold cbufGetavail
    omega
  unfold writechannel
  rw [hok, ok_bind]
  dsimp only
  rw [if_neg (not_not.2 (by omega)), if_neg (not_not.2 havail)]
  rfl

/-! ### Storing -/

/-- Payload that fits into the buffer gets there, in two pieces at most. -/
theorem storePayload_ok {fuel : ℕ} (hfuel : data.length ≤ fuel) (c : Circbuffer)
    (hfits : c.used + data.length ≤ c.size) :
    ∃ c', storePayload fuel c data = .ok c' ∧ c'.size = c.size ∧
      c'.used = c.used + data.length ∧ c'.content = c.content ++ data := by
  induction fuel generalizing c data with
  | zero =>
    obtain rfl : data = [] := List.length_eq_zero_iff.1 (Nat.le_zero.1 hfuel)
    exact ⟨c, rfl, rfl, rfl, (List.append_nil _).symm⟩
  | succ fuel ih =>
    rw [storePayload]
    split_ifs with hnil
    · subst hnil
      exact ⟨c, rfl, rfl, rfl, (List.append_nil _).symm⟩
    · have hpos := List.length_pos_iff.2 hnil
      have hroom := c.linearRoom_pos (by omega)
      rw [cbufWritelen_eq, ok_bind]
      dsimp only
      generalize hlen : min c.linearRoom data.length = len
      have htake : (data.take len).length = len := by
        rw [List.length_take]
        omega
      have hdrop : (data.drop len).length = data.length - len := List.length_drop
      obtain ⟨c₁, hstore, hsize, hused, hcontent⟩ :=
        c.store_ok (show (data.take len).length ≤ c.linearRoom by omega)
      obtain ⟨c', hok, hsize', hused', hcontent'⟩ :=
        ih (show (data.drop len).length ≤ fuel by omega) c₁ (by omega)
      rw [hstore, ok_bind]
      refine ⟨c', hok, hsize'.trans hsize, by omega, ?_⟩
      rw [hcontent', hcontent, List.append_assoc, List.take_append_drop]

/-! ### Receiving -/

/-- A CHANNEL_DATA message with these bytes. -/
def Carries (payload : Buffer) (data : Bytes) : Prop :=
  data.length < 2 ^ 32 ∧ ∃ r, payload.rest = sshString data ++ r

/-- The channel when `n` bytes are taken from the window. -/
def debit (c : Channel) (n : ℕ) : Channel := { c with recvwindow := c.recvwindow - n }

/-- What becomes of a message that comes while `writefd` is open. -/
inductive Received (W : RecvWindow) (s : Inbound) (data : Bytes) (w : ChanWrite) : Inbound → Prop
  | failed (hw : w = .error) : Received W s data w
      { s with chan := adjustWindow W ((debit s.chan data.length).closeChanFd s.chan.writefd .wr) }
  | stored {n : ℕ} {cbuf : Circbuffer} {delivered : Bytes} (hw : w = .error → data = [])
      (hsize : cbuf.size = s.cbuf.size) (hused : cbuf.used + n = s.cbuf.used + data.length)
      (hbytes : delivered ++ cbuf.content = s.delivered ++ s.cbuf.content ++ data) :
      Received W s data w
        { chan := adjustWindow W { debit s.chan data.length with
            recvdonelen := s.chan.recvdonelen + n }
          cbuf := cbuf, delivered := delivered }

theorem Carries.read {payload : Buffer} (h : Carries payload data) :
    bufGetint payload = .ok (data.length, payload.advance 4) ∧
      bufGetptr (payload.advance 4) data.length = .ok data := by
  obtain ⟨hlt, r, hr⟩ := h
  rw [sshString, List.append_assoc] at hr
  have hrest : (payload.advance 4).rest = data ++ r := by
    rw [← length_store32h data.length, Buffer.rest_advance_of_append hr]
  exact ⟨bufGetint_ok.2 ⟨⟨hlt, _, hr⟩, rfl⟩, bufGetptr_ok.2 ⟨rfl, r, hrest⟩⟩

/-- **Admission**: a message within the window is handled. -/
theorem commonRecvMsgChannelData_ok {payload : Buffer} (hsize : s.cbuf.size = W.len)
    (hsum : s.chan.recvwindow + s.chan.recvdonelen + s.cbuf.used ≤ W.len)
    (heof : s.chan.recvEof = false) (hfd : 0 ≤ s.chan.writefd) (hdata : Carries payload data)
    (hwindow : data.length ≤ s.chan.recvwindow) (haveWritev : Bool) (w : ChanWrite) :
    ∃ s', s.commonRecvMsgChannelData haveWritev W payload w = .ok s' ∧ Received W s data w s' := by
  obtain ⟨hint, hptr⟩ := hdata.read
  have havail : data.length ≤ cbufGetavail s.cbuf := by
    unfold cbufGetavail
    omega
  obtain ⟨ret, consumed, t, hwrite, hout⟩ :=
    writechannel_ok (s := { s with chan := debit s.chan data.length }) (some data) hsize
      (by simp only [debit, Option.getD_some]; omega) haveWritev w
  unfold commonRecvMsgChannelData
  rw [if_neg (by simp [heof]), if_neg (Int.not_lt.2 hfd), hint, ok_bind]
  dsimp only
  rw [if_neg (Nat.not_lt.2 havail), if_neg (not_not.2 hwindow), if_neg (not_not.2 (by omega)),
    hptr, ok_bind]
  change ∃ s', (writechannel haveWritev W { s with chan := debit s.chan data.length } (some data) w
    >>= _) = Except.ok s' ∧ _
  rw [hwrite, ok_bind]
  dsimp only
  cases hout with
  | failed hw => exact ⟨_, rfl, .failed hw⟩
  | @wrote n consumed cbuf delivered hw hsize' hconsumed hused hbytes =>
    simp only [Option.getD_some] at hw hconsumed hused hbytes
    have hdrop : (data.drop consumed).length = data.length - consumed := List.length_drop
    obtain ⟨c', hstore, hsize'', hused', hcontent⟩ :=
      storePayload_ok hdrop.le cbuf (by dsimp only at hused hsize'; omega)
    rw [if_pos rfl, hstore]
    refine ⟨_, rfl, .stored hw (hsize''.trans hsize') (by omega) ?_⟩
    rw [hcontent, ← List.append_assoc]
    exact hbytes

/-- **Inversion**: a message that is handled was dropped, or came within the window. -/
theorem commonRecvMsgChannelData_cases {payload : Buffer} (hsize : s.cbuf.size = W.len)
    (hsum : s.chan.recvwindow + s.chan.recvdonelen + s.cbuf.used ≤ W.len)
    (h : s.commonRecvMsgChannelData haveWritev W payload w = .ok s') :
    s.chan.recvEof = false ∧ (s.chan.writefd < 0 ∧ s' = s ∨
      0 ≤ s.chan.writefd ∧ ∃ data, Carries payload data ∧ data.length ≤ s.chan.recvwindow ∧
        Received W s data w s') := by
  have hrun := h
  unfold commonRecvMsgChannelData at h
  simp only [ite_exit_eq_ok] at h
  obtain ⟨heof, h⟩ := h
  replace heof : s.chan.recvEof = false := by simpa using heof
  refine ⟨heof, ?_⟩
  split_ifs at h with hfd
  · cases h
    exact .inl ⟨hfd, rfl⟩
  · simp only [bind_eq_ok, ite_exit_eq_ok, Prod.exists] at h
    obtain ⟨datalen, payload', hint, -, hwindow, -, data, hptr, -⟩ := h
    obtain ⟨⟨hlt, r, hr⟩, rfl⟩ := bufGetint_ok.1 hint
    obtain ⟨rfl, r', hr'⟩ := bufGetptr_ok.1 hptr
    have hrest : r = data ++ r' := by
      rw [← hr', ← length_store32h data.length, Buffer.rest_advance_of_append hr]
    have hdata : Carries payload data := ⟨hlt, r', by rw [hr, hrest, sshString, List.append_assoc]⟩
    replace hfd : 0 ≤ s.chan.writefd := Int.not_lt.1 hfd
    replace hwindow : data.length ≤ s.chan.recvwindow := not_not.1 hwindow
    obtain ⟨t, hok, hreceived⟩ :=
      commonRecvMsgChannelData_ok hsize hsum heof hfd hdata hwindow haveWritev w
    obtain rfl : t = s' := by simpa using hok.symm.trans hrun
    exact .inr ⟨hfd, data, hdata, hwindow, hreceived⟩

/-! ### The counters -/

theorem adjustWindow_writebuf (c : Channel) (n : ℕ) :
    adjustWindow W { c with writebuf := n } = { adjustWindow W c with writebuf := n } := by
  unfold adjustWindow
  dsimp only
  split_ifs <;> rfl

theorem closeChanFd_writebuf (c : Channel) (fd : ℤ) (how : How) (n : ℕ) :
    ({ c with writebuf := n } : Channel).closeChanFd fd how =
      { c.closeChanFd fd how with writebuf := n } := by
  unfold Channel.closeChanFd Channel.endDirection
  dsimp only
  split_ifs <;> rfl

theorem extendWindow_eq_adjustWindow {c : Channel}
    (h : c.recvwindow + c.recvdonelen + c.writebuf ≤ W.len) :
    c.extendWindow W.len = some (adjustWindow W c) := by
  have hsum := adjustWindow_sum W c
  have hbuf : (adjustWindow W c).writebuf = c.writebuf := by
    unfold adjustWindow
    split_ifs <;> rfl
  change (if (adjustWindow W c).recvwindow ≤ W.len ∧
    (adjustWindow W c).recvwindow ≤ W.len - (adjustWindow W c).writebuf then
      some (adjustWindow W c) else none) = _
  rw [if_pos (by omega)]

/-- The counters behind a write. -/
theorem writeOutcome_refines {ret : Bool} {morelen : ℕ} {t : Inbound}
    (hsum : s.chan.recvwindow + s.chan.recvdonelen + s.cbuf.used ≤ W.len)
    (h : WriteOutcome s [] w ret morelen t) :
    ∃ w', s.view.writechannel W.len 0 w' =
      some (view { t with chan := adjustWindow W t.chan }) := by
  cases h with
  | failed =>
    refine ⟨.error, ?_⟩
    obtain ⟨hopen, hdone, -⟩ := closeChanFd_window s.chan s.chan.writefd .wr
    rw [Channel.writechannel]
    unfold view failWrite
    dsimp only
    rw [closeChanFd_writebuf, extendWindow_eq_adjustWindow, adjustWindow_writebuf]
    dsimp only
    rw [hopen, hdone]
    exact hsum
  | @wrote n _ cbuf _ _ _ _ hused =>
    refine ⟨.wrote n, ?_⟩
    simp only [List.length_nil, Nat.zero_sub, Nat.add_zero] at hused
    have hmin : min n (s.cbuf.used + 0) = n := by omega
    have hleft : s.cbuf.used + 0 - n = cbuf.used := by omega
    rw [Channel.writechannel]
    simp only [view, hmin, hleft]
    rw [extendWindow_eq_adjustWindow (by dsimp only; omega), ← adjustWindow_writebuf]

/-- **Refinement**: the functions over the buffer do to the counters what those over its length
do. -/
theorem received_refines (hsum : s.chan.recvwindow + s.chan.recvdonelen + s.cbuf.used ≤ W.len)
    (heof : s.chan.recvEof = false) (hfd : 0 ≤ s.chan.writefd)
    (hwindow : data.length ≤ s.chan.recvwindow) (h : Received W s data w s') :
    ∃ w', s.view.commonRecvMsgChannelData W.len data.length w' = some s'.view := by
  have hhandled : ∀ w', s.view.commonRecvMsgChannelData W.len data.length w' =
      ({ debit s.chan data.length with writebuf := s.cbuf.used } : Channel).writechannel W.len
        data.length w' := by
    intro w'
    unfold Channel.commonRecvMsgChannelData view debit
    dsimp only
    rw [if_neg (by simp [heof]), if_neg (Int.not_lt.2 hfd), if_neg (by omega)]
  cases h with
  | failed =>
    refine ⟨.error, (hhandled _).trans ?_⟩
    obtain ⟨hopen, hdone, -⟩ :=
      closeChanFd_window (debit s.chan data.length) s.chan.writefd .wr
    rw [Channel.writechannel, closeChanFd_writebuf]
    simp only [view]
    rw [← adjustWindow_writebuf]
    refine extendWindow_eq_adjustWindow ?_
    change ((debit s.chan data.length).closeChanFd s.chan.writefd .wr).recvwindow +
      ((debit s.chan data.length).closeChanFd s.chan.writefd .wr).recvdonelen + s.cbuf.used ≤ W.len
    rw [hopen, hdone]
    dsimp only [debit]
    omega
  | @stored n cbuf _ _ _ hused =>
    refine ⟨.wrote n, (hhandled _).trans ?_⟩
    have hmin : min n (s.cbuf.used + data.length) = n := by omega
    have hleft : s.cbuf.used + data.length - n = cbuf.used := by omega
    rw [Channel.writechannel]
    simp only [view, hmin, hleft]
    rw [← adjustWindow_writebuf]
    exact extendWindow_eq_adjustWindow (by dsimp only [debit]; omega)

end Inbound

end Ps4Dropbear
