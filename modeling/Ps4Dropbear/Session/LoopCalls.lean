import Ps4Dropbear.Session.SessionLoop

/-!
# The calls of an iteration

What the functions of `session_loop` add to the log, and when they queue packets.  Reading from the
socket (`InputFrame`) leaves the reports of every channel alone, a channel's turn in `channelio`
(`TurnFrame`) those of every other descriptor.

* `Loop.readPacket_gated` : `read_packet` makes one call, unless it completes the first block of a
  longer packet.
* `Loop.recvMsgChannelData_cases` : CHANNEL_DATA is written at once or not at all.
* `Loop.channelioFrom_spec`, `Loop.channelioFrom_queued` : `channelio`.
-/

namespace Ps4Dropbear

open Call

/-- The read completes the first block of the packet. -/
def Loop.completesBlock (s : Loop) : ReadResult → Bool
  | .got n => decide (0 < s.blocksize - s.initPos) && decide (s.blocksize - s.initPos ≤ n)
  | _ => false

/-- A channel's turn in `channelio` sends a packet. -/
def LoopChannel.sends (c : LoopChannel) (readfds writefds : List Desc) (i : ℕ) (io : ChannelIo) :
    Bool :=
  let reads : Bool := c.readfd = .opened && decide (.chan i ∈ readfds)
  let writes : Bool := c.writefd = .opened && decide (.chan i ∈ writefds)
  let taken := if c.writebuf = 0 then 0 else io.write.taken c.writebuf
  (reads && decide (0 < c.maxlen) &&
      (match io.read with | .got n => decide (0 < n) | _ => false)) ||
    (writes && decide (recvWindowextend ≤ c.recvdonelen + taken)) ||
    ((reads || writes) && !io.closing.isEmpty)

/-- The pending connect of the channel is there and was reported. -/
def Loop.connects (s : Loop) (i : ℕ) : Bool :=
  match s.channel i with
  | none => false
  | some c => c.connPending && c.readfd = .uninit && c.writefd = .uninit &&
    decide (.chan i ∈ s.writefds)

/-! ### Reading from the socket -/

/-- What reading from the socket leaves alone. -/
structure InputFrame (s t : Loop) : Prop where
  readfds : t.readfds = s.readfds
  writefds : t.writefds = s.writefds
  writequeue : t.writequeue = s.writequeue
  channels : t.channels = s.channels
  phase : t.phase = s.phase
  writeReported : ∀ d, writeReported d t.log = writeReported d s.log
  readReported : ∀ i, readReported (.chan i) t.log = readReported (.chan i) s.log

namespace InputFrame

variable {s t u : Loop}

theorem refl (s : Loop) : InputFrame s s := ⟨rfl, rfl, rfl, rfl, rfl, fun _ => rfl, fun _ => rfl⟩

theorem trans (h : InputFrame s t) (h' : InputFrame t u) : InputFrame s u where
  readfds := h'.readfds.trans h.readfds
  writefds := h'.writefds.trans h.writefds
  writequeue := h'.writequeue.trans h.writequeue
  channels := h'.channels.trans h.channels
  phase := h'.phase.trans h.phase
  writeReported d := (h'.writeReported d).trans (h.writeReported d)
  readReported i := (h'.readReported i).trans (h.readReported i)

/-- Fields that reading may change. -/
theorem of_fields (h : InputFrame s t) (hr : u.readfds = t.readfds) (hw : u.writefds = t.writefds)
    (hq : u.writequeue = t.writequeue) (hc : u.channels = t.channels) (hp : u.phase = t.phase)
    (hl : u.log = t.log) : InputFrame s u :=
  h.trans ⟨hr, hw, hq, hc, hp, fun d => by rw [hl], fun i => by rw [hl]⟩

theorem read (s : Loop) : InputFrame s (s.call (.read .sock)) :=
  ⟨rfl, rfl, rfl, rfl, rfl, fun _ => rfl, fun i => readReported_read_of_ne (by simp)⟩

theorem selectRead (s : Loop) (ready : Bool) : InputFrame s (s.call (.selectRead .sock ready)) :=
  ⟨rfl, rfl, rfl, rfl, rfl, fun _ => rfl, fun i => readReported_selectRead_of_ne (by simp)⟩

theorem selectedRead (s : Loop) :
    InputFrame s ((s.call (.selectRead .sock true)).call (.read .sock)) :=
  (selectRead s true).trans (read _)

end InputFrame

namespace Loop

variable {s : Loop}

theorem readPacketInit_frame (s : Loop) (first : ReadResult) (field : ℕ) :
    InputFrame s (s.readPacketInit first field).2 := by
  unfold readPacketInit
  cases first with
  | error => exact (InputFrame.read s).of_fields rfl rfl rfl rfl rfl rfl
  | intr => exact (InputFrame.read s).of_fields rfl rfl rfl rfl rfl rfl
  | got n =>
    dsimp only
    split_ifs
    · exact (InputFrame.read s).of_fields rfl rfl rfl rfl rfl rfl
    · exact (InputFrame.read s).of_fields rfl rfl rfl rfl rfl rfl
    · split <;> exact (InputFrame.read s).of_fields rfl rfl rfl rfl rfl rfl

theorem decryptPacket_frame (s : Loop) (corrupt : Bool) :
    InputFrame s (s.decryptPacket corrupt) := by
  unfold decryptPacket
  split_ifs <;> exact (InputFrame.refl s).of_fields rfl rfl rfl rfl rfl rfl

theorem readPacketRest_frame (s : Loop) (buf : ReadBuf) (rest : ReadResult) (corrupt : Bool) :
    InputFrame s (s.readPacketRest buf rest corrupt) := by
  unfold readPacketRest
  dsimp only
  split_ifs
  · exact decryptPacket_frame s corrupt
  · cases rest with
    | error => exact (InputFrame.read s).of_fields rfl rfl rfl rfl rfl rfl
    | intr => exact InputFrame.read s
    | got n =>
      dsimp only
      split_ifs
      · exact (InputFrame.read s).of_fields rfl rfl rfl rfl rfl rfl
      · exact (InputFrame.read s).trans (decryptPacket_frame _ corrupt)
      · exact (InputFrame.read s).of_fields rfl rfl rfl rfl rfl rfl

theorem readPacket_frame (s : Loop) (inp : SockInput) : InputFrame s (s.readPacket inp) := by
  have hinit := readPacketInit_frame s inp.first inp.field
  unfold readPacket
  split_ifs
  · split
    · rename_i t ht
      rw [ht] at hinit
      exact hinit
    · rename_i t ht
      rw [ht] at hinit
      exact hinit.trans (readPacketRest_frame t _ _ _)
  · exact readPacketRest_frame s _ _ _

/-- Reading the identification: every byte is announced by a `select` of its own. -/
theorem identReadln_spec (s : Loop) (line : Bytes) (inputs : List IdentInput) :
    InputFrame s (s.identReadln line inputs).1 ∧
      (gated s.log = true → gated (s.identReadln line inputs).1.log = true) := by
  have hgate : ∀ s : Loop, gated s.log = true →
      gated ((s.call (.selectRead .sock true)).call (.read .sock)).log = true := by
    intro s hs
    exact gated_read.2 ⟨readReported_selectRead_self, hs⟩
  induction inputs generalizing s line with
  | nil => exact ⟨InputFrame.refl s, id⟩
  | cons inp inputs ih =>
    cases inp with
    | silent =>
      obtain ⟨hframe, hg⟩ := ih (s.call (.selectRead .sock false)) line
      exact ⟨(InputFrame.selectRead s false).trans hframe, fun hs => hg hs⟩
    | intr =>
      obtain ⟨hframe, hg⟩ := ih ((s.call (.selectRead .sock true)).call (.read .sock)) line
      exact ⟨(InputFrame.selectedRead s).trans hframe, fun hs => hg (hgate s hs)⟩
    | ended => exact ⟨InputFrame.selectedRead s, hgate s⟩
    | byte b =>
      rw [identReadln]
      dsimp only
      generalize (if b = 13 then line else line ++ [b]) = line'
      obtain ⟨hframe, hg⟩ := ih ((s.call (.selectRead .sock true)).call (.read .sock)) line'
      split_ifs
      · exact ⟨InputFrame.selectedRead s, hgate s⟩
      · exact ⟨(InputFrame.selectedRead s).trans hframe, fun hs => hg (hgate s hs)⟩
      · exact ⟨InputFrame.selectedRead s, hgate s⟩

theorem readSessionIdentification_spec (s : Loop) (inputs : List IdentInput) :
    InputFrame s (s.readSessionIdentification inputs) ∧
      (gated s.log = true → gated (s.readSessionIdentification inputs).log = true) := by
  obtain ⟨hframe, hg⟩ := identReadln_spec s [] inputs
  unfold readSessionIdentification
  split
  · rename_i t ht
    rw [ht] at hframe hg
    exact ⟨hframe.of_fields rfl rfl rfl rfl rfl rfl, hg⟩
  · rename_i t line ht
    rw [ht] at hframe hg
    split_ifs <;> exact ⟨hframe.of_fields rfl rfl rfl rfl rfl rfl, hg⟩

theorem decryptPacket_log (s : Loop) (corrupt : Bool) : (s.decryptPacket corrupt).log = s.log := by
  unfold decryptPacket
  split_ifs <;> rfl

theorem readPacketRest_gated {buf : ReadBuf} {rest : ReadResult} {corrupt : Bool}
    (hg : gated s.log = true)
    (hr : buf.len - buf.pos ≠ 0 → readReported .sock s.log = true) :
    gated (s.readPacketRest buf rest corrupt).log = true := by
  unfold readPacketRest
  dsimp only
  split_ifs with hmax
  · rw [decryptPacket_log]
    exact hg
  · have hread : gated (s.call (.read .sock)).log = true := gated_read.2 ⟨hr hmax, hg⟩
    cases rest with
    | error => exact hread
    | intr => exact hread
    | got n =>
      dsimp only
      split_ifs
      · exact hread
      · rw [decryptPacket_log]
        exact hread
      · exact hread

/-- `read_packet_init` makes one call; when it succeeds, it has completed the block. -/
theorem readPacketInit_spec (s : Loop) (first : ReadResult) (field : ℕ) :
    (s.readPacketInit first field).2.log = .read .sock :: s.log ∧
      ((s.readPacketInit first field).1 = true → s.completesBlock first = true ∧
        ∃ len, s.packetLen field = some len ∧
          (s.readPacketInit first field).2.readbuf = some ⟨s.blocksize, len⟩) := by
  unfold readPacketInit
  cases first with
  | error => exact ⟨rfl, nofun⟩
  | intr => exact ⟨rfl, nofun⟩
  | got n =>
    dsimp only
    split_ifs with hzero hpart
    · exact ⟨rfl, nofun⟩
    · exact ⟨rfl, nofun⟩
    · split
      · exact ⟨rfl, nofun⟩
      · rename_i len hlen
        refine ⟨rfl, fun _ => ⟨?_, len, hlen, rfl⟩⟩
        simp only [completesBlock, Bool.and_eq_true, decide_eq_true_eq]
        omega

/-- `read_packet` makes one call if the condition holds. -/
theorem readPacket_gated {inp : SockInput} (hg : gated s.log = true)
    (hr : readReported .sock s.log = true)
    (hcond : s.inFirstBlock = true → s.completesBlock inp.first = true →
      ∀ len, s.packetLen inp.field = some len → len ≤ s.blocksize) :
    gated (s.readPacket inp).log = true := by
  obtain ⟨hlog, hsucc⟩ := readPacketInit_spec s inp.first inp.field
  have hread : gated (.read .sock :: s.log) = true := gated_read.2 ⟨hr, hg⟩
  unfold readPacket
  split_ifs with hfirst
  · split
    · rename_i t ht
      rw [ht] at hlog
      rw [show t.log = _ from hlog]
      exact hread
    · rename_i t ht
      rw [ht] at hlog hsucc
      obtain ⟨hblock, len, hlen, hbuf⟩ := hsucc rfl
      have hshort := hcond hfirst hblock len hlen
      apply readPacketRest_gated
      · rw [show t.log = _ from hlog]
        exact hread
      · intro hmore
        rw [show t.readbuf = _ from hbuf] at hmore
        simp only [Option.getD_some] at hmore
        omega
  · exact readPacketRest_gated hg fun _ => hr

/-- The step that reads. -/
theorem input_frame (s : Loop) (inp : SockInput) :
    ∃ t, InputFrame s t ∧
      s.input inp = { t with phase := if t.payload then .handle else .replies } := by
  refine ⟨_, ?_, rfl⟩
  split_ifs
  · exact readPacket_frame s inp
  · exact (readSessionIdentification_spec s inp.ident).1
  · exact InputFrame.refl s

theorem input_gated {inp : SockInput} (hg : gated s.log = true)
    (hr : .sock ∈ s.readfds → readReported .sock s.log = true)
    (hcond : .sock ∈ s.readfds → s.remoteident = true → s.inFirstBlock = true →
      s.completesBlock inp.first = true → ∀ len, s.packetLen inp.field = some len →
        len ≤ s.blocksize) : gated (s.input inp).log = true := by
  unfold input
  dsimp only
  split_ifs with hsel hident
  · exact readPacket_gated hg (hr hsel) (hcond hsel hident)
  · exact (readSessionIdentification_spec s inp.ident).2 hg
  · exact hg

/-! ### CHANNEL_DATA -/

/-- `recv_msg_channel_data` writes when the packet passes the checks, and otherwise changes nothing
or ends the session. -/
theorem recvMsgChannelData_cases (s : Loop) (i len : ℕ) (res : WriteResult) (adjust : ℕ) :
    (s.writesData i len = none ∧ (s.recvMsgChannelData i len res adjust = s.exit ∨
      s.recvMsgChannelData i len res adjust = s)) ∨
    ∃ c, ∃ hlen : len ≤ c.recvwindow, s.channel i = some c ∧ s.writesData i len = some c ∧
      s.recvMsgChannelData i len res adjust =
        { s with
          log := .write (.chan i) :: s.log
          channels := s.channels.set i (some (c.written len hlen res).windowAdjust)
          writequeue :=
            s.writequeue ++ if (c.written len hlen res).adjusts then [adjust] else [] } := by
  unfold recvMsgChannelData writesData
  cases hc : s.channel i with
  | none => exact .inl ⟨rfl, .inl rfl⟩
  | some c =>
    have hbound := c.bound
    dsimp only
    by_cases heof : c.recvEof = true
    · rw [if_pos heof]
      exact .inl ⟨by simp [heof], .inl rfl⟩
    rw [if_neg heof]
    by_cases hfd : c.writefd = .opened
    · rw [if_neg (not_not.2 hfd)]
      by_cases hlen : len ≤ c.recvwindow
      · rw [if_neg (by omega), dif_pos hlen]
        refine .inr ⟨c, hlen, rfl, ?_, rfl⟩
        simp [heof, hfd, hlen]
      · refine .inl ⟨by simp [heof, hfd]; omega, .inl ?_⟩
        rw [dif_neg hlen, ite_self]
    · rw [if_pos hfd]
      exact .inl ⟨by simp [hfd], .inr rfl⟩

theorem written_adjusts (c : LoopChannel) (len : ℕ) (hlen : len ≤ c.recvwindow)
    (res : WriteResult) : (c.written len hlen res).adjusts = true ↔
      recvWindowextend ≤ c.recvdonelen + res.taken (c.writebuf + len) := by
  unfold LoopChannel.written LoopChannel.adjusts
  split_ifs with herr
  · simp [herr, WriteResult.taken]
  · simp

theorem windowAdjust_writebuf (c : LoopChannel) :
    c.windowAdjust.writebuf = c.writebuf ∧ c.windowAdjust.writefd = c.writefd := by
  unfold LoopChannel.windowAdjust
  split_ifs <;> exact ⟨rfl, rfl⟩

/-- A call that takes all, or fails, leaves nothing to write. -/
theorem written_done (c : LoopChannel) (len : ℕ) (hlen : len ≤ c.recvwindow) (res : WriteResult)
    (h : res = .error ∨ res.taken (c.writebuf + len) = c.writebuf + len) :
    (c.written len hlen res).writebuf = 0 ∨ (c.written len hlen res).writefd = .closed := by
  unfold LoopChannel.written
  split_ifs with herr
  · exact .inr rfl
  · rcases h with h | h
    · exact absurd h herr
    · left
      show c.writebuf + len - res.taken (c.writebuf + len) = 0
      omega

/-! ### `channelio` -/

/-- What a channel's turn leaves alone in the log: the reports of every other descriptor. -/
structure TurnFrame (i : ℕ) (log log' : List (Call Desc)) : Prop where
  readReported : ∀ d, d ≠ .chan i → readReported d log' = readReported d log
  writeReported : ∀ d, d ≠ .chan i → writeReported d log' = writeReported d log

theorem TurnFrame.refl (i : ℕ) (log : List (Call Desc)) : TurnFrame i log log :=
  ⟨fun _ _ => rfl, fun _ _ => rfl⟩

theorem TurnFrame.read {i : ℕ} {log log' : List (Call Desc)} (h : TurnFrame i log log') :
    TurnFrame i log (.read (.chan i) :: log') :=
  ⟨fun d hd => (readReported_read_of_ne hd).trans (h.readReported d hd), h.writeReported⟩

theorem TurnFrame.write {i : ℕ} {log log' : List (Call Desc)} (h : TurnFrame i log log') :
    TurnFrame i log (.write (.chan i) :: log') :=
  ⟨h.readReported, fun d hd => (writeReported_write_of_ne hd).trans (h.writeReported d hd)⟩

/-- `send_msg_channel_data` reads at most once. -/
theorem sendMsgChannelData_spec (t : ChannelTurn) (i : ℕ) (io : ChannelIo) :
    ((t.sendMsgChannelData i io).log = t.log ∨
      (t.sendMsgChannelData i io).log = .read (.chan i) :: t.log) ∧
    (t.sendMsgChannelData i io).channel.writebuf = t.channel.writebuf ∧
    (t.sendMsgChannelData i io).channel.writefd = t.channel.writefd ∧
    (t.sendMsgChannelData i io).channel.recvdonelen = t.channel.recvdonelen := by
  unfold ChannelTurn.sendMsgChannelData
  split_ifs
  · exact ⟨.inl rfl, rfl, rfl, rfl⟩
  · cases io.read with
    | intr => exact ⟨.inr rfl, rfl, rfl, rfl⟩
    | error => exact ⟨.inr rfl, rfl, rfl, rfl⟩
    | got n =>
      dsimp only
      split_ifs <;> exact ⟨.inr rfl, rfl, rfl, rfl⟩

/-- Reading makes at most one call, on a descriptor that was reported. -/
theorem readTurn_spec (t : ChannelTurn) (readfds : List Desc) (i : ℕ) (io : ChannelIo) :
    ((t.readTurn readfds i io).log = t.log ∨
      .chan i ∈ readfds ∧ (t.readTurn readfds i io).log = .read (.chan i) :: t.log) ∧
    (t.readTurn readfds i io).channel.writebuf = t.channel.writebuf ∧
    (t.readTurn readfds i io).channel.writefd = t.channel.writefd ∧
    (t.readTurn readfds i io).channel.recvdonelen = t.channel.recvdonelen := by
  unfold ChannelTurn.readTurn
  split_ifs with hsel
  · obtain ⟨hlog, hkeep⟩ := sendMsgChannelData_spec t i io
    exact ⟨hlog.imp_right fun h => ⟨hsel.2, h⟩, hkeep⟩
  · exact ⟨.inl rfl, rfl, rfl, rfl⟩

/-- Writing makes a call if there is something buffered. -/
theorem writeTurn_log (t : ChannelTurn) (writefds : List Desc) (i : ℕ) (io : ChannelIo) :
    (t.writeTurn writefds i io).log =
      if t.channel.writefd = .opened ∧ .chan i ∈ writefds ∧ t.channel.writebuf ≠ 0 then
        .write (.chan i) :: t.log
      else t.log := by
  unfold ChannelTurn.writeTurn ChannelTurn.writechannel
  by_cases hsel : t.channel.writefd = .opened ∧ .chan i ∈ writefds
  · by_cases hbuf : t.channel.writebuf = 0
    · rw [if_pos hsel, if_pos hbuf, if_neg (fun h => h.2.2 hbuf)]
    · rw [if_pos hsel, if_neg hbuf, if_pos ⟨hsel.1, hsel.2, hbuf⟩]
  · rw [if_neg hsel, if_neg (fun h => hsel ⟨h.1, h.2.1⟩)]

theorem channelTurn_log (readfds writefds : List Desc) (i : ℕ) (io : ChannelIo) (c : LoopChannel)
    (log : List (Call Desc)) : (channelTurn readfds writefds i io c log).2.1 =
      (((⟨c, log, []⟩ : ChannelTurn).readTurn readfds i io).writeTurn writefds i io).log := by
  unfold channelTurn
  dsimp only
  split_ifs <;> rfl

/-- A channel's turn makes only announced calls. -/
theorem channelTurn_spec {readfds writefds : List Desc} {i : ℕ} (io : ChannelIo) {c : LoopChannel}
    {log : List (Call Desc)} (hg : gated log = true)
    (hr : .chan i ∈ readfds → readReported (.chan i) log = true)
    (hw : .chan i ∈ writefds → writeReported (.chan i) log = true ∨ c.writebuf = 0 ∨
      c.writefd = .closed) :
    gated (channelTurn readfds writefds i io c log).2.1 = true ∧
      TurnFrame i log (channelTurn readfds writefds i io c log).2.1 := by
  obtain ⟨hlog, hbuf, hfd, -⟩ := readTurn_spec ⟨c, log, []⟩ readfds i io
  rw [channelTurn_log]
  generalize (⟨c, log, []⟩ : ChannelTurn).readTurn readfds i io = t at hlog hbuf hfd
  have hread : gated t.log = true ∧ TurnFrame i log t.log ∧
      writeReported (.chan i) t.log = writeReported (.chan i) log := by
    rcases hlog with hlog | ⟨hmem, hlog⟩
    · rw [hlog]
      exact ⟨hg, TurnFrame.refl i log, rfl⟩
    · rw [hlog]
      exact ⟨gated_read.2 ⟨hr hmem, hg⟩, (TurnFrame.refl i log).read, rfl⟩
  obtain ⟨htg, htf, htw⟩ := hread
  rw [writeTurn_log]
  split_ifs with hsel
  · obtain ⟨hopen, hmem, hne⟩ := hsel
    have hrep : writeReported (.chan i) t.log = true := by
      rw [htw]
      rcases hw hmem with h | h | h
      · exact h
      · exact absurd (hbuf.trans h) hne
      · rw [hfd, show c.writefd = .closed from h] at hopen
        exact absurd hopen (by decide)
    exact ⟨gated_write.2 ⟨hrep, htg⟩, htf.write⟩
  · exact ⟨htg, htf⟩

/-- `channelio` makes only announced calls, and none on the socket. -/
theorem channelioFrom_spec {readfds writefds : List Desc} (io : ℕ → ChannelIo) {i : ℕ}
    {cs : List (Option LoopChannel)} {log : List (Call Desc)} (hg : gated log = true)
    (hr : ∀ j, i ≤ j → .chan j ∈ readfds → readReported (.chan j) log = true)
    (hw : ∀ k c, cs[k]? = some (some c) → .chan (i + k) ∈ writefds →
      writeReported (.chan (i + k)) log = true ∨ c.writebuf = 0 ∨ c.writefd = .closed) :
    gated (channelioFrom readfds writefds io i cs log).2.1 = true ∧
      writeReported .sock (channelioFrom readfds writefds io i cs log).2.1 =
        writeReported .sock log := by
  induction cs generalizing i log with
  | nil => exact ⟨hg, rfl⟩
  | cons c cs ih =>
    -- the slots behind this one
    have hrest : ∀ log' : List (Call Desc), TurnFrame i log log' →
        (∀ j, i + 1 ≤ j → .chan j ∈ readfds → readReported (.chan j) log' = true) ∧
        ∀ k c, cs[k]? = some (some c) → .chan (i + 1 + k) ∈ writefds →
          writeReported (.chan (i + 1 + k)) log' = true ∨ c.writebuf = 0 ∨
            c.writefd = .closed := by
      intro log' hframe
      refine ⟨?_, ?_⟩
      · intro j hj hmem
        rw [hframe.readReported _ (by simp; omega)]
        exact hr j (by omega) hmem
      · intro k c' hk hmem
        rw [hframe.writeReported _ (by simp; omega)]
        have hshift : i + 1 + k = i + (k + 1) := by omega
        rw [hshift] at hmem ⊢
        exact hw (k + 1) c' (by simpa using hk) hmem
    cases c with
    | none =>
      obtain ⟨hr', hw'⟩ := hrest log (TurnFrame.refl i log)
      exact ih hg hr' hw'
    | some c =>
      obtain ⟨hg', hframe⟩ := channelTurn_spec (io i) hg (hr i (Nat.le_refl i))
        (fun hmem => hw 0 c rfl hmem)
      obtain ⟨hr', hw'⟩ := hrest _ hframe
      obtain ⟨hgr, hsock⟩ := ih hg' hr' hw'
      exact ⟨hgr, hsock.trans (hframe.writeReported _ (by simp))⟩

theorem append_ne_nil_iff {xs ys : List ℕ} : xs ++ ys ≠ [] ↔ xs ≠ [] ∨ ys ≠ [] := by
  rw [ne_eq, List.append_eq_nil_iff, not_and_or]

theorem sendMsgChannelData_queued (t : ChannelTurn) (i : ℕ) (io : ChannelIo) :
    (t.sendMsgChannelData i io).queued ≠ [] ↔ t.queued ≠ [] ∨
      (decide (0 < t.channel.maxlen) &&
        (match io.read with | .got n => decide (0 < n) | _ => false)) = true := by
  unfold ChannelTurn.sendMsgChannelData
  split_ifs with hmax
  · simp [hmax]
  · have hpos : 0 < t.channel.maxlen := Nat.pos_of_ne_zero hmax
    cases io.read with
    | intr => simp
    | error => simp
    | got n =>
      dsimp only
      split_ifs with hn
      · have hzero : n = 0 := by omega
        simp [hzero]
      · have hdata : 0 < n := by omega
        simp [hpos, hdata]

theorem writechannel_queued (t : ChannelTurn) (i : ℕ) (io : ChannelIo) :
    (t.writechannel i io).queued ≠ [] ↔ t.queued ≠ [] ∨
      recvWindowextend ≤ t.channel.recvdonelen +
        if t.channel.writebuf = 0 then 0 else io.write.taken t.channel.writebuf := by
  have hone : ∀ (b : Bool) (n : ℕ), (if b then [n] else []) ≠ [] ↔ b = true := by
    intro b n
    cases b <;> simp
  unfold ChannelTurn.writechannel
  by_cases hbuf : t.channel.writebuf = 0
  · rw [if_pos hbuf, if_pos hbuf]
    dsimp only
    rw [append_ne_nil_iff, hone]
    simp [LoopChannel.adjusts]
  · rw [if_neg hbuf, if_neg hbuf]
    dsimp only
    rw [append_ne_nil_iff, hone, written_adjusts, Nat.add_zero]

/-- A channel's turn queues packets exactly when it sends. -/
theorem channelTurn_queued (readfds writefds : List Desc) (i : ℕ) (io : ChannelIo)
    (c : LoopChannel) (log : List (Call Desc)) :
    (channelTurn readfds writefds i io c log).2.2 ≠ [] ↔
      c.sends readfds writefds i io = true := by
  have hread : ((⟨c, log, []⟩ : ChannelTurn).readTurn readfds i io).queued ≠ [] ↔
      (c.readfd = .opened ∧ .chan i ∈ readfds) ∧ (decide (0 < c.maxlen) &&
        (match io.read with | .got n => decide (0 < n) | _ => false)) = true := by
    unfold ChannelTurn.readTurn
    by_cases hsel : c.readfd = .opened ∧ .chan i ∈ readfds
    · rw [if_pos hsel, sendMsgChannelData_queued]
      simp [hsel]
    · rw [if_neg hsel]
      simp [hsel]
  obtain ⟨-, hbuf, hfd, hdone⟩ := readTurn_spec ⟨c, log, []⟩ readfds i io
  unfold channelTurn
  generalize (⟨c, log, []⟩ : ChannelTurn).readTurn readfds i io = t at hread hbuf hfd hdone
  have hwrite : (t.writeTurn writefds i io).queued ≠ [] ↔ t.queued ≠ [] ∨
      (c.writefd = .opened ∧ .chan i ∈ writefds) ∧ recvWindowextend ≤ c.recvdonelen +
        if c.writebuf = 0 then 0 else io.write.taken c.writebuf := by
    unfold ChannelTurn.writeTurn
    rw [hfd]
    by_cases hsel : c.writefd = .opened ∧ .chan i ∈ writefds
    · rw [if_pos hsel, writechannel_queued, hbuf, hdone]
      simp [hsel]
    · rw [if_neg hsel]
      simp [hsel]
  dsimp only
  rw [hfd]
  by_cases hio : (c.readfd = .opened ∧ .chan i ∈ readfds) ∨
      (c.writefd = .opened ∧ .chan i ∈ writefds)
  · rw [if_pos hio, ChannelTurn.checkClose, append_ne_nil_iff, hwrite, hread]
    simp only [LoopChannel.sends, Bool.or_eq_true, Bool.and_eq_true, decide_eq_true_eq,
      Bool.not_eq_true', List.isEmpty_eq_false_iff, hio, true_and, and_assoc]
  · rw [if_neg hio, hwrite, hread]
    simp only [LoopChannel.sends, Bool.or_eq_true, Bool.and_eq_true, decide_eq_true_eq,
      Bool.not_eq_true', List.isEmpty_eq_false_iff, hio, false_and, or_false, and_assoc]

/-- `channelio` queues packets exactly when some channel sends. -/
theorem channelioFrom_queued (readfds writefds : List Desc) (io : ℕ → ChannelIo) (i : ℕ)
    (cs : List (Option LoopChannel)) (log : List (Call Desc)) :
    (channelioFrom readfds writefds io i cs log).2.2 ≠ [] ↔
      ∃ k, ∃ c : LoopChannel, cs[k]? = some (some c) ∧
        c.sends readfds writefds (i + k) (io (i + k)) = true := by
  induction cs generalizing i log with
  | nil => simp [channelioFrom]
  | cons c cs ih =>
    have hshift : (∃ k, ∃ c : LoopChannel, cs[k]? = some (some c) ∧
          c.sends readfds writefds (i + 1 + k) (io (i + 1 + k)) = true) ↔
        ∃ k, ∃ c' : LoopChannel, (c :: cs)[k + 1]? = some (some c') ∧
          c'.sends readfds writefds (i + (k + 1)) (io (i + (k + 1))) = true := by
      simp only [List.getElem?_cons_succ, Nat.add_comm 1, Nat.add_assoc]
    rw [← Nat.or_exists_add_one, ← hshift]
    cases c with
    | none =>
      rw [channelioFrom, ih (i + 1) log]
      simp
    | some c =>
      rw [channelioFrom, append_ne_nil_iff, channelTurn_queued, ih (i + 1) _]
      simp

/-! ### Calls without a report -/

theorem readTurn_later (t : ChannelTurn) (readfds : List Desc) (i : ℕ) (io : ChannelIo) :
    Later t.log (t.readTurn readfds i io).log := by
  rcases (readTurn_spec t readfds i io).1 with hlog | ⟨-, hlog⟩
  · rw [hlog]
    exact Later.refl t.log
  · rw [hlog]
    exact Later.read t.log (.chan i)

theorem channelTurn_later (readfds writefds : List Desc) (i : ℕ) (io : ChannelIo)
    (c : LoopChannel) (log : List (Call Desc)) :
    Later log (channelTurn readfds writefds i io c log).2.1 := by
  rw [channelTurn_log, writeTurn_log]
  refine (readTurn_later ⟨c, log, []⟩ readfds i io).trans ?_
  split_ifs
  · exact Later.write _ (Desc.chan i)
  · exact Later.refl _

theorem channelioFrom_later (readfds writefds : List Desc) (io : ℕ → ChannelIo) (i : ℕ)
    (cs : List (Option LoopChannel)) (log : List (Call Desc)) :
    Later log (channelioFrom readfds writefds io i cs log).2.1 := by
  induction cs generalizing i log with
  | nil => exact Later.refl log
  | cons c cs ih =>
    cases c with
    | none => exact ih (i + 1) log
    | some c => exact (channelTurn_later readfds writefds i (io i) c log).trans (ih (i + 1) _)

/-- A channel whose report is used up and whose buffer is not empty. -/
theorem channelTurn_not_gated {readfds writefds : List Desc} {i : ℕ} (io : ChannelIo)
    {c : LoopChannel} {log : List (Call Desc)} (hfd : c.writefd = .opened)
    (hmem : .chan i ∈ writefds) (hbuf : c.writebuf ≠ 0)
    (hused : writeReported (.chan i) log = false) :
    gated (channelTurn readfds writefds i io c log).2.1 = false := by
  obtain ⟨-, hb, hw, -⟩ := readTurn_spec ⟨c, log, []⟩ readfds i io
  have hlater := readTurn_later ⟨c, log, []⟩ readfds i io
  rw [channelTurn_log, writeTurn_log]
  generalize (⟨c, log, []⟩ : ChannelTurn).readTurn readfds i io = t at hb hw hlater
  have hrep : writeReported (.chan i) t.log = false := by
    by_contra hne
    simp [hlater.writeReported (.chan i) (by simpa using hne)] at hused
  rw [if_pos ⟨hw.trans hfd, hmem, fun h => hbuf (hb.symm.trans h)⟩]
  simp [gated, hrep]

theorem channelioFrom_not_gated {readfds writefds : List Desc} (io : ℕ → ChannelIo) {i k : ℕ}
    {cs : List (Option LoopChannel)} {c : LoopChannel} {log : List (Call Desc)}
    (hk : cs[k]? = some (some c)) (hfd : c.writefd = .opened) (hmem : .chan (i + k) ∈ writefds)
    (hbuf : c.writebuf ≠ 0) (hused : writeReported (.chan (i + k)) log = false) :
    gated (channelioFrom readfds writefds io i cs log).2.1 = false := by
  induction cs generalizing i k log with
  | nil => simp at hk
  | cons c' cs ih =>
    cases k with
    | zero =>
      simp only [List.getElem?_cons_zero, Option.some.injEq] at hk
      subst hk
      exact (channelioFrom_later readfds writefds io (i + 1) cs _).not_gated
        (channelTurn_not_gated (io i) hfd hmem hbuf hused)
    | succ k =>
      have hshift : i + (k + 1) = i + 1 + k := by omega
      rw [hshift] at hmem hused
      rw [List.getElem?_cons_succ] at hk
      cases c' with
      | none => exact ih hk hmem hused
      | some c' =>
        refine ih hk hmem ?_
        by_contra hne
        have hlater := channelTurn_later readfds writefds i (io i) c' log
        simp [hlater.writeReported _ (by simpa using hne)] at hused

/-- The second read of `read_packet`. -/
theorem readPacket_not_gated {inp : SockInput} {len : ℕ} (hfirst : s.inFirstBlock = true)
    (hblock : s.completesBlock inp.first = true) (hlen : s.packetLen inp.field = some len)
    (hlong : s.blocksize < len) : gated (s.readPacket inp).log = false := by
  cases hread : inp.first with
  | intr => simp [completesBlock, hread] at hblock
  | error => simp [completesBlock, hread] at hblock
  | got n =>
    simp only [completesBlock, hread, Bool.and_eq_true, decide_eq_true_eq] at hblock
    have hinit : s.readPacketInit (.got n) inp.field =
        (true, { s.call (.read .sock) with readbuf := some ⟨s.blocksize, len⟩ }) := by
      unfold readPacketInit
      dsimp only
      rw [if_neg (by omega), if_neg (by omega), hlen]
    have hlog : (s.readPacket inp).log = .read .sock :: .read .sock :: s.log := by
      unfold readPacket
      rw [if_pos hfirst, hread, hinit]
      dsimp only
      unfold readPacketRest
      rw [Option.getD_some]
      dsimp only
      rw [if_neg (by omega)]
      cases inp.rest with
      | intr => rfl
      | error => rfl
      | got n =>
        dsimp only
        split_ifs
        · rfl
        · exact decryptPacket_log _ inp.corrupt
        · rfl
    rw [hlog]
    simp [gated]

end Loop

end Ps4Dropbear
