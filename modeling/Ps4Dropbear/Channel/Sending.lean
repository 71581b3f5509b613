import Ps4Dropbear.Buffer.Content
import Ps4Dropbear.Channel.AfterClose

/-!
# The window of the peer

What a channel sends, byte by byte: `send_msg_channel_data` builds its packet in `ses.writepayload`,
with as many bytes as the peer's window, its largest packet and the buffer allow, and
`recv_msg_channel_window_adjust` extends the window.  A channel that the server opens itself has no
window before CHANNEL_OPEN_CONFIRMATION.

Every other function leaves the window alone, and is a step to a channel with the same one; for the
steps of `channelLife` that is `ChannelLife.perform_sendFrame`.

* `Outbound.sendMsgChannelData_sends` : what a call of `send_msg_channel_data` does.
* `OutboundInv` : what has been sent was within the window.
* `transwindow_respected` : **the result**.
* `Outbound.sendMsgChannelData_refines` : the counts are those of `Channel.sendMsgChannelData`.
-/

namespace Ps4Dropbear

/-- `SSH_MSG_CHANNEL_DATA` and `SSH_MSG_CHANNEL_EXTENDED_DATA`. -/
def dataType (isextended : Bool) : UInt8 := if isextended then 95 else 94

/-- `SSH_EXTENDED_DATA_STDERR`. -/
def sshExtendedDataStderr : ℕ := 1

/-- A channel, as far as it sends. -/
structure Outbound where
  chan : Channel
  awaitOpen : Bool := false
  remotechan : ℕ
  /-- `ses.writepayload`. -/
  writepayload : Buffer
  /-- The payloads given to `encrypt_packet`, for data. -/
  packets : List Bytes := []
  /-- The window with which the channel was opened. -/
  initial : ℕ
  /-- The increments of all window adjustments, one by one. -/
  increments : List ℕ := []

namespace Outbound

/-- The descriptor to read. -/
def sendFd (s : Outbound) (isextended : Bool) : ℤ :=
  if isextended then s.chan.errfd else s.chan.readfd

/-- `maxlen` in `send_msg_channel_data`. -/
def sendLimit (s : Outbound) (isextended : Bool) : ℕ :=
  min (min s.chan.transwindow s.chan.transmaxpacket)
    (u32 (s.writepayload.data.length - 1 - 4 - 4 - (if isextended then 4 else 0)))

/-- `encrypt_packet` takes the payload, whether it is sent or queued, and clears the buffer. -/
def encryptPacket (s : Outbound) (writepayload : Buffer) : Except Exit Outbound := do
  let cleared ← bufSetpos writepayload 0
  let cleared ← bufSetlen cleared 0
  return { s with packets := s.packets ++ [writepayload.contents], writepayload := cleared }

/-- The header of a data packet, with a dummy size; returns `size_pos` too. -/
def putHeader (s : Outbound) (isextended : Bool) : Except Exit (ℕ × Buffer) := do
  let buf ← bufPutbyte s.writepayload (dataType isextended)
  let buf ← bufPutint buf s.remotechan
  let buf ← (if isextended then bufPutint buf sshExtendedDataStderr else .ok buf)
  let sizePos := buf.pos
  let buf ← bufPutint buf 0
  return (sizePos, buf)

/-- The end of a packet with the bytes that `read` has put into `buf`. -/
def putData (s : Outbound) (isextended : Bool) (sizePos : ℕ) (buf : Buffer) (data : Bytes) :
    Except Exit Outbound := do
  let buf ← bufIncrwritepos buf data.length
  let buf ← bufSetpos buf sizePos
  let buf ← bufPutint buf data.length
  let chan := { s.chan with
    transwindow := u32 (s.chan.transwindow - data.length)
    -- no channel of this build has an `errfd`, and `ChanMsg` has no message for it
    sent := if isextended then s.chan.sent else s.chan.sent ++ [ChanMsg.data data] }
  { s with chan := chan }.encryptPacket buf

/-- `send_msg_channel_data`.  The server has no `read_mangler`. -/
def sendMsgChannelData (s : Outbound) (isextended : Bool) (r : ChanRead) : Except Exit Outbound :=
  if s.chan.sentClose then dropbearExit "Failed assertion: !channel->sent_close"
  else if s.sendFd isextended < 0 then dropbearExit "Failed assertion: fd >= 0"
  else if s.sendLimit isextended = 0 then .ok s
  else do
    let (sizePos, buf) ← s.putHeader isextended
    bufGetwriteptr buf (s.sendLimit isextended)
    match r with
    | .data data =>
      let buf ← bufOverwrite buf (s.sendLimit isextended) data
      s.putData isextended sizePos buf data
    | r =>
      let chan := if r = .interrupted then s.chan
        else s.chan.closeChanFd (s.sendFd isextended) .rd
      let buf ← bufSetpos buf 0
      let buf ← bufSetlen buf 0
      return { s with chan := chan, writepayload := buf }

/-- `recv_msg_channel_window_adjust`, with the payload behind the channel number. -/
def recvMsgChannelWindowAdjust (s : Outbound) (payload : Buffer) : Except Exit Outbound := do
  let (incr, _) ← bufGetint payload
  let newwin := (s.chan.transwindow + incr) % 2 ^ 32
  let newwin := if newwin < s.chan.transwindow then 0xffffffff else newwin
  return { s with
    chan := { s.chan with transwindow := newwin }
    increments := s.increments ++ [incr] }

/-- `recv_msg_channel_open_confirmation`, with the payload behind the channel number.  The types
that the server opens have no `inithandler`. -/
def recvMsgChannelOpenConfirmation (s : Outbound) (payload : Buffer) : Except Exit Outbound :=
  if !s.awaitOpen then dropbearExit "Unexpected channel reply"
  else do
    let (remotechan, payload) ← bufGetint payload
    let (transwindow, payload) ← bufGetint payload
    let (transmaxpacket, _) ← bufGetint payload
    return { s with
      awaitOpen := false, remotechan := remotechan, initial := transwindow
      chan := { s.chan with transwindow := transwindow, transmaxpacket := transmaxpacket } }

/-- `recv_msg_channel_open`, for a type that the peer may open. -/
def recvMsgChannelOpen (writepayload : Buffer) (recvWindow : ℕ) (type : ChanType)
    (payload : Buffer) : Except Exit Outbound := do
  let (_, payload) ← bufGetstring payload
  let (remotechan, payload) ← bufGetint payload
  let (transwindow, payload) ← bufGetint payload
  let (transmaxpacket, _) ← bufGetint payload
  return {
    chan := Channel.opened recvWindow type transwindow transmaxpacket
    remotechan := remotechan, writepayload := writepayload, initial := transwindow }

/-- `send_msg_channel_open_init`. -/
def sendMsgChannelOpenInit (writepayload : Buffer) (recvWindow fd : ℕ) : Outbound where
  chan :=
    { type := .forwarded, readfd := fd, writefd := fd, bidirFd := true, recvwindow := recvWindow }
  awaitOpen := true
  remotechan := 0
  writepayload := writepayload
  initial := 0

/-- A `read` of at most `maxlen` bytes may return this. -/
def MayReturn (maxlen : ℕ) : ChanRead → Prop
  | .data data => data ≠ [] ∧ data.length ≤ maxlen
  | _ => True

instance (maxlen : ℕ) : DecidablePred (MayReturn maxlen)
  | .data data => inferInstanceAs (Decidable (data ≠ [] ∧ data.length ≤ maxlen))
  | .eof | .error | .interrupted => inferInstanceAs (Decidable True)

/-- The data of a packet. -/
def packetData (packet : Bytes) : Bytes :=
  if packet.head? = some (dataType true) then packet.drop 13 else packet.drop 9

/-- The data bytes in all packets. -/
def sentBytes (s : Outbound) : ℕ := (s.packets.map fun p => (packetData p).length).sum

end Outbound

/-- What can happen. -/
inductive OutboundEvent
  /-- CHANNEL_WINDOW_ADJUST. -/
  | windowAdjust (payload : Buffer)
  /-- `channelio` finds `readfd` or `errfd` ready. -/
  | readable (isextended : Bool) (r : ChanRead)
  /-- CHANNEL_OPEN_CONFIRMATION. -/
  | openConfirmation (payload : Buffer)
  /-- Everything else. -/
  | other (chan : Channel)

/-- A channel that is opened, by the peer or by the server. -/
inductive Outbound.Opened (recvWindow : ℕ) : Outbound → Prop
  | byPeer {writepayload payload : Buffer} {type : ChanType} {s : Outbound}
      (hclear : writepayload.Has transMaxPayloadLen [] 0)
      (h : Outbound.recvMsgChannelOpen writepayload recvWindow type payload = .ok s) :
      Opened recvWindow s
  | byServer {writepayload : Buffer} (hclear : writepayload.Has transMaxPayloadLen [] 0)
      (fd : ℕ) : Opened recvWindow (Outbound.sendMsgChannelOpenInit writepayload recvWindow fd)

/-- The sending side of a channel. -/
def outbound : LTS Outbound OutboundEvent where
  step s
    | .windowAdjust payload => (s.recvMsgChannelWindowAdjust payload).toOption
    | .readable isextended r =>
      if Outbound.MayReturn (s.sendLimit isextended) r then
        (s.sendMsgChannelData isextended r).toOption else none
    | .openConfirmation payload => (s.recvMsgChannelOpenConfirmation payload).toOption
    | .other chan =>
      if chan.transwindow = s.chan.transwindow ∧ chan.transmaxpacket = s.chan.transmaxpacket then
        some { s with chan := chan } else none

/-! ### One packet -/

namespace Outbound

/-- The header of a data packet, up to the size. -/
def header (isextended : Bool) (remotechan : ℕ) : Bytes :=
  [dataType isextended] ++ store32h remotechan ++
    if isextended then store32h sshExtendedDataStderr else []

/-- A data packet. -/
def dataPacket (isextended : Bool) (remotechan : ℕ) (data : Bytes) : Bytes :=
  header isextended remotechan ++ store32h data.length ++ data

theorem length_header (isextended : Bool) (remotechan : ℕ) :
    (header isextended remotechan).length = 5 + if isextended then 4 else 0 := by
  cases isextended <;> rfl

theorem length_dataPacket (isextended : Bool) (remotechan : ℕ) (data : Bytes) :
    (dataPacket isextended remotechan data).length =
      9 + (if isextended then 4 else 0) + data.length := by
  simp only [dataPacket, List.length_append, length_header, length_store32h]
  omega

theorem packetData_dataPacket (isextended : Bool) (remotechan : ℕ) (data : Bytes) :
    packetData (dataPacket isextended remotechan data) = data := by
  cases isextended <;> rfl

variable {s t : Outbound} {isextended : Bool} {r : ChanRead}

theorem sendLimit_le (s : Outbound) (isextended : Bool) :
    s.sendLimit isextended ≤ s.chan.transwindow ∧
      s.sendLimit isextended ≤ s.chan.transmaxpacket := by
  unfold sendLimit
  omega

/-- The header, the size and the data fit into the buffer. -/
theorem sendLimit_fits (h : s.writepayload.Has transMaxPayloadLen [] 0) (isextended : Bool) :
    9 + (if isextended then 4 else 0) + s.sendLimit isextended ≤ transMaxPayloadLen := by
  have hsize : u32 (s.writepayload.data.length - 1 - 4 - 4 - (if isextended then 4 else 0)) =
      transMaxPayloadLen - 9 - if isextended then 4 else 0 := by
    rw [h.size]
    cases isextended <;> decide
  have hext : (if isextended then 4 else 0) ≤ 4 := by split_ifs <;> omega
  unfold sendLimit
  rw [hsize]
  generalize (if isextended then 4 else 0) = n at hext
  simp only [transMaxPayloadLen]
  omega

theorem putHeader_has (h : s.writepayload.Has transMaxPayloadLen [] 0) (isextended : Bool) :
    ∃ b, s.putHeader isextended = .ok ((header isextended s.remotechan).length, b) ∧
      b.Has transMaxPayloadLen (header isextended s.remotechan ++ store32h 0)
        ((header isextended s.remotechan).length + 4) := by
  obtain ⟨b₁, h₁, hb₁⟩ := Buffer.Has.putbyte (d := dataType isextended) h (by decide)
  rw [List.nil_append] at hb₁
  obtain ⟨b₂, h₂, hb₂⟩ := hb₁.putbytes (x := store32h s.remotechan)
    (show 1 + 4 ≤ 16384 by omega)
  have hext : ∃ b₃, (if isextended then bufPutint b₂ sshExtendedDataStderr else .ok b₂) = .ok b₃ ∧
      b₃.Has transMaxPayloadLen (header isextended s.remotechan)
        (header isextended s.remotechan).length := by
    cases isextended with
    | false => exact ⟨b₂, rfl, hb₂⟩
    | true =>
      exact
      hb₂.putbytes (x := store32h sshExtendedDataStderr) (show 5 + 4 ≤ 16384 by omega)
  obtain ⟨b₃, h₃, hb₃⟩ := hext
  obtain ⟨b₄, h₄, hb₄⟩ := hb₃.putbytes (x := store32h 0) (by
    rw [length_header, length_store32h, transMaxPayloadLen]
    split_ifs <;> omega)
  refine ⟨b₄, ?_, hb₄⟩
  unfold putHeader
  rw [h₁, ok_bind, bufPutint, h₂, ok_bind, h₃, ok_bind, hb₃.pos, bufPutint, h₄]
  rfl

/-- The buffer is cleared. -/
theorem clear_has {b : Buffer} {u : Bytes} {size pos : ℕ} (h : b.Has size u pos) :
    ∃ b₁ b₂, bufSetpos b 0 = .ok b₁ ∧ bufSetlen b₁ 0 = .ok b₂ ∧ b₂.Has size [] 0 := by
  obtain ⟨b₁, h₁, hb₁⟩ := h.setpos (n := 0) (Nat.zero_le _)
  obtain ⟨b₂, h₂, hb₂⟩ := hb₁.setlen_shrink (n := 0) (Nat.zero_le _) (Nat.le_refl 0)
  exact ⟨b₁, b₂, h₁, h₂, hb₂⟩

/-- What a call of `send_msg_channel_data` can do. -/
inductive Sends (s : Outbound) (isextended : Bool) : ChanRead → Outbound → Prop
  | nothing {r : ChanRead} {b : Buffer} (hclear : b.Has transMaxPayloadLen [] 0)
      (h : s.sendLimit isextended = 0 ∨ r = .interrupted) :
      Sends s isextended r { s with writepayload := b }
  | ended {r : ChanRead} {b : Buffer} (hclear : b.Has transMaxPayloadLen [] 0)
      (hlimit : s.sendLimit isextended ≠ 0) (h : r = .eof ∨ r = .error) :
      Sends s isextended r { s with
        chan := s.chan.closeChanFd (s.sendFd isextended) .rd, writepayload := b }
  | sent {data : Bytes} {b : Buffer} (hclear : b.Has transMaxPayloadLen [] 0)
      (hlimit : s.sendLimit isextended ≠ 0) (hlen : data.length ≤ s.sendLimit isextended) :
      Sends s isextended (.data data) { s with
        chan := { s.chan with
          transwindow := s.chan.transwindow - data.length
          sent := if isextended then s.chan.sent else s.chan.sent ++ [ChanMsg.data data] }
        packets := s.packets ++ [dataPacket isextended s.remotechan data]
        writepayload := b }

/-- The packet is put together. -/
theorem putData_sends {data : Bytes} {b : Buffer}
    (hclear : s.writepayload.Has transMaxPayloadLen [] 0)
    (hwin : s.chan.transwindow < 2 ^ 32) (hlimit : s.sendLimit isextended ≠ 0)
    (hlen : data.length ≤ s.sendLimit isextended)
    (hb : b.Has transMaxPayloadLen (header isextended s.remotechan ++ store32h 0)
      ((header isextended s.remotechan).length + 4)) :
    ∃ b' t, bufOverwrite b (s.sendLimit isextended) data = .ok b' ∧
      s.putData isextended (header isextended s.remotechan).length b' data = .ok t ∧
      Sends s isextended (.data data) t := by
  have hfits := sendLimit_fits hclear isextended
  have hle := (s.sendLimit_le isextended).1
  have hused : (header isextended s.remotechan ++ store32h 0).length =
      (header isextended s.remotechan).length + 4 := List.length_append
  have hheader := length_header isextended s.remotechan
  obtain ⟨b₁, b₂, h₁, h₂, hb₂⟩ := Buffer.Has.append (x := data) (n := s.sendLimit isextended)
    (by rwa [hused]) hlen (by rw [hused, hheader]; omega)
  obtain ⟨b₃, h₃, hb₃⟩ := hb₂.setpos (n := (header isextended s.remotechan).length)
    (by rw [List.length_append, hused]; omega)
  obtain ⟨b₄, h₄, hb₄⟩ := hb₃.putbytes_within (x := store32h data.length) rfl
  obtain ⟨b₅, b₆, h₅, h₆, hb₆⟩ := clear_has hb₄
  have hwindow : u32 (s.chan.transwindow - data.length) = s.chan.transwindow - data.length :=
    u32_eq (by omega) (by omega)
  refine ⟨b₁, _, h₁, ?_, .sent hb₆ hlimit hlen⟩
  unfold putData encryptPacket
  rw [h₂, ok_bind, h₃, ok_bind, bufPutint, h₄, ok_bind, hwindow]
  dsimp only
  rw [h₅, ok_bind, h₆, ok_bind, hb₄.used]
  rfl

/-- **One call of `send_msg_channel_data`** does not exit, unless one of its two assertions fails. -/
theorem sendMsgChannelData_sends (hclear : s.writepayload.Has transMaxPayloadLen [] 0)
    (hwin : s.chan.transwindow < 2 ^ 32) (hclose : s.chan.sentClose = false)
    (hfd : 0 ≤ s.sendFd isextended) (hr : MayReturn (s.sendLimit isextended) r) :
    ∃ t, s.sendMsgChannelData isextended r = .ok t ∧ Sends s isextended r t := by
  unfold sendMsgChannelData
  rw [hclose, if_neg Bool.false_ne_true, if_neg (Int.not_lt.2 hfd)]
  by_cases hlimit : s.sendLimit isextended = 0
  · rw [if_pos hlimit]
    exact ⟨s, rfl, .nothing hclear (.inl hlimit)⟩
  rw [if_neg hlimit]
  obtain ⟨b, hb, hhas⟩ := putHeader_has hclear isextended
  have hfits := sendLimit_fits hclear isextended
  have hheader := length_header isextended s.remotechan
  have hwrite := hhas.getwriteptr (n := s.sendLimit isextended) (by rw [hheader]; omega)
  obtain ⟨b₁, b₂, h₁, h₂, hb₂⟩ := clear_has hhas
  rw [hb, ok_bind]
  dsimp only
  rw [hwrite, ok_bind]
  cases r with
  | data data =>
    obtain ⟨b', t, hover, hput, hsends⟩ := putData_sends hclear hwin hlimit hr.2 hhas
    dsimp only
    rw [hover, ok_bind]
    exact ⟨t, hput, hsends⟩
  | eof =>
    dsimp only
    rw [h₁, ok_bind, h₂, ok_bind]
    exact ⟨_, rfl, .ended hb₂ hlimit (.inl rfl)⟩
  | error =>
    dsimp only
    rw [h₁, ok_bind, h₂, ok_bind]
    exact ⟨_, rfl, .ended hb₂ hlimit (.inr rfl)⟩
  | interrupted =>
    dsimp only
    rw [h₁, ok_bind, h₂, ok_bind]
    exact ⟨_, rfl, .nothing hb₂ (.inr rfl)⟩

/-- The assertions of `send_msg_channel_data`. -/
theorem asserted_of_sendMsgChannelData (h : s.sendMsgChannelData isextended r = .ok t) :
    s.chan.sentClose = false ∧ 0 ≤ s.sendFd isextended := by
  unfold sendMsgChannelData at h
  rw [ite_exit_eq_ok, ite_exit_eq_ok] at h
  exact ⟨Bool.eq_false_iff.2 h.1, Int.not_lt.1 h.2.1⟩

/-! ### The window -/

theorem recvMsgChannelWindowAdjust_of_getint {payload rest : Buffer} {incr : ℕ}
    (hwin : s.chan.transwindow < 2 ^ 32) (hint : bufGetint payload = .ok (incr, rest)) :
    s.recvMsgChannelWindowAdjust payload = .ok { s with
      chan := s.chan.recvMsgChannelWindowAdjust incr, increments := s.increments ++ [incr] } := by
  have hlt : incr < 2 ^ 32 := (bufGetint_ok.1 hint).1.1
  -- the sum has overflowed exactly when it is below the old window
  have hnewwin : (if (s.chan.transwindow + incr) % 2 ^ 32 < s.chan.transwindow then 0xffffffff
      else (s.chan.transwindow + incr) % 2 ^ 32) =
      min (s.chan.transwindow + incr) (2 ^ 32 - 1) := by
    split_ifs <;> omega
  unfold recvMsgChannelWindowAdjust
  rw [hint, ok_bind]
  dsimp only
  rw [hnewwin]
  rfl

theorem recvMsgChannelWindowAdjust_eq {payload : Buffer} (hwin : s.chan.transwindow < 2 ^ 32)
    (h : s.recvMsgChannelWindowAdjust payload = .ok t) :
    ∃ incr, t = { s with
      chan := s.chan.recvMsgChannelWindowAdjust incr, increments := s.increments ++ [incr] } := by
  have hbind := h
  unfold recvMsgChannelWindowAdjust at hbind
  obtain ⟨⟨incr, rest⟩, hint, -⟩ := bind_eq_ok.1 hbind
  rw [recvMsgChannelWindowAdjust_of_getint hwin hint] at h
  exact ⟨incr, (Except.ok.inj h).symm⟩

theorem recvMsgChannelOpenConfirmation_eq {payload : Buffer}
    (h : s.recvMsgChannelOpenConfirmation payload = .ok t) :
    s.awaitOpen = true ∧ ∃ remotechan transwindow transmaxpacket, transwindow < 2 ^ 32 ∧
      t = { s with
        awaitOpen := false, remotechan := remotechan, initial := transwindow
        chan := { s.chan with
          transwindow := transwindow, transmaxpacket := transmaxpacket } } := by
  unfold recvMsgChannelOpenConfirmation at h
  rw [ite_exit_eq_ok] at h
  obtain ⟨hawait, h⟩ := h
  obtain ⟨⟨remotechan, b₁⟩, -, h⟩ := bind_eq_ok.1 h
  obtain ⟨⟨transwindow, b₂⟩, hint, h⟩ := bind_eq_ok.1 h
  obtain ⟨⟨transmaxpacket, b₃⟩, -, h⟩ := bind_eq_ok.1 h
  have hlt : transwindow < 2 ^ 32 := (bufGetint_ok.1 hint).1.1
  cases h
  exact ⟨by simpa using hawait, remotechan, transwindow, transmaxpacket, hlt, rfl⟩

end Outbound

/-- What has been sent was within the window, and no packet was too large. -/
structure OutboundInv (s : Outbound) : Prop where
  clear : s.writepayload.Has transMaxPayloadLen [] 0
  window : s.chan.transwindow < 2 ^ 32
  within : s.sentBytes + s.chan.transwindow ≤ s.initial + s.increments.sum
  awaitOpen : s.awaitOpen = true → s.packets = [] ∧ s.chan.transmaxpacket = 0
  packets : ∀ p ∈ s.packets, ∃ isextended data,
    p = Outbound.dataPacket isextended s.remotechan data ∧
      data.length ≤ s.chan.transmaxpacket ∧ p.length ≤ transMaxPayloadLen

namespace OutboundInv

open Outbound

variable {s t : Outbound}

theorem opened {recvWindow : ℕ} (h : Opened recvWindow s) : OutboundInv s := by
  cases h with
  | byPeer hclear h =>
    unfold Outbound.recvMsgChannelOpen at h
    obtain ⟨⟨name, b₁⟩, -, h⟩ := bind_eq_ok.1 h
    obtain ⟨⟨remotechan, b₂⟩, -, h⟩ := bind_eq_ok.1 h
    obtain ⟨⟨transwindow, b₃⟩, hint, h⟩ := bind_eq_ok.1 h
    obtain ⟨⟨transmaxpacket, b₄⟩, -, h⟩ := bind_eq_ok.1 h
    have hlt : transwindow < 2 ^ 32 := (bufGetint_ok.1 hint).1.1
    cases h
    exact ⟨hclear, hlt, Nat.le_of_eq (Nat.zero_add _), nofun, nofun⟩
  | byServer hclear fd =>
    exact ⟨hclear, Nat.two_pow_pos 32, Nat.le_refl _, fun _ => ⟨rfl, rfl⟩, nofun⟩

theorem sends (h : OutboundInv s) {isextended : Bool} {r : ChanRead}
    (hst : Sends s isextended r t) : OutboundInv t := by
  cases hst with
  | nothing hclear => exact ⟨hclear, h.window, h.within, h.awaitOpen, h.packets⟩
  | ended hclear =>
    have hrest := (Channel.closeChanFd_shuts s.chan (s.sendFd isextended) .rd).rest
    refine ⟨hclear, ?_, ?_, ?_, ?_⟩
    · rw [hrest]
      exact h.window
    · rw [hrest]
      exact h.within
    · rw [hrest]
      exact h.awaitOpen
    · rw [hrest]
      exact h.packets
  | @sent data b hclear hlimit hlen =>
    obtain ⟨hle, hmax⟩ := s.sendLimit_le isextended
    have hfits := sendLimit_fits h.clear isextended
    have hwindow := h.window
    have hwithin := h.within
    refine ⟨hclear, ?_, ?_, ?_, ?_⟩
    · change s.chan.transwindow - data.length < 2 ^ 32
      omega
    · simp only [sentBytes, List.map_append, List.map_cons, List.map_nil, List.sum_append,
        List.sum_singleton, packetData_dataPacket]
      rw [sentBytes] at hwithin
      omega
    · intro hawait
      have hzero := (h.awaitOpen hawait).2
      omega
    · intro p hp
      rcases List.mem_append.1 hp with hp | hp
      · exact h.packets p hp
      · rw [List.mem_singleton] at hp
        refine ⟨isextended, data, hp, Nat.le_trans hlen hmax, ?_⟩
        rw [hp, length_dataPacket]
        omega

/-- **One step** keeps the invariant. -/
theorem step (h : OutboundInv s) {e : OutboundEvent} (hst : outbound.step s e = some t) :
    OutboundInv t := by
  cases e with
  | windowAdjust payload =>
    obtain ⟨incr, rfl⟩ :=
      recvMsgChannelWindowAdjust_eq h.window (toOption_eq_some.1 hst)
    have hwithin := h.within
    refine ⟨h.clear, ?_, ?_, h.awaitOpen, h.packets⟩
    · change min (s.chan.transwindow + incr) (2 ^ 32 - 1) < 2 ^ 32
      omega
    · change s.sentBytes + min (s.chan.transwindow + incr) (2 ^ 32 - 1) ≤
        s.initial + (s.increments ++ [incr]).sum
      rw [List.sum_append, List.sum_singleton]
      omega
  | readable isextended r =>
    obtain ⟨hr, hst⟩ := Option.ite_none_right_eq_some.1 hst
    have hok := toOption_eq_some.1 hst
    obtain ⟨hclose, hfd⟩ := asserted_of_sendMsgChannelData hok
    obtain ⟨t', hok', hsends⟩ := sendMsgChannelData_sends h.clear h.window hclose hfd hr
    cases hok.symm.trans hok'
    exact h.sends hsends
  | openConfirmation payload =>
    obtain ⟨hawait, remotechan, transwindow, transmaxpacket, hlt, rfl⟩ :=
      recvMsgChannelOpenConfirmation_eq (toOption_eq_some.1 hst)
    have hnone := (h.awaitOpen hawait).1
    refine ⟨h.clear, hlt, ?_, nofun, ?_⟩
    · rw [sentBytes, hnone]
      change 0 + transwindow ≤ transwindow + s.increments.sum
      omega
    · rw [hnone]
      exact nofun
  | other chan =>
    obtain ⟨⟨hwin, hmax⟩, hst⟩ := Option.ite_none_right_eq_some.1 hst
    cases hst
    refine ⟨h.clear, ?_, ?_, ?_, ?_⟩
    · rw [hwin]
      exact h.window
    · rw [hwin]
      exact h.within
    · rw [hmax]
      exact h.awaitOpen
    · rw [hmax]
      exact h.packets

end OutboundInv

open Outbound in
/-- **The peer's window is respected.**  In every run of a channel, opened by the peer or by the
server, the data that has been sent and what is left of the window are no more than the first
window and all increments; every packet carries at most `transmaxpacket` bytes of data and fits into
`ses.writepayload`; and the window neither falls below zero nor exceeds an `unsigned int`: it goes
down by what is sent, and up by an increment or to the end of its range. -/
theorem transwindow_respected {recvWindow : ℕ} {s₀ s : Outbound} (h₀ : Opened recvWindow s₀)
    (hs : outbound.Reachable s₀ s) :
    s.sentBytes + s.chan.transwindow ≤ s.initial + s.increments.sum ∧
      s.chan.transwindow < 2 ^ 32 ∧
      (∀ p ∈ s.packets, ∃ isextended data, p = dataPacket isextended s.remotechan data ∧
        data.length ≤ s.chan.transmaxpacket ∧ p.length ≤ transMaxPayloadLen) ∧
      (∀ isextended r, s.chan.sentClose = false → 0 ≤ s.sendFd isextended →
        MayReturn (s.sendLimit isextended) r → ∃ t, s.sendMsgChannelData isextended r = .ok t ∧
          t.sentBytes + t.chan.transwindow = s.sentBytes + s.chan.transwindow) ∧
      ∀ payload t, s.recvMsgChannelWindowAdjust payload = .ok t → ∃ incr,
        t.increments = s.increments ++ [incr] ∧
          t.chan.transwindow = min (s.chan.transwindow + incr) (2 ^ 32 - 1) := by
  have h : OutboundInv s := hs.invariant (OutboundInv.opened h₀) fun _ _ _ hI hst => hI.step hst
  refine ⟨h.within, h.window, h.packets, fun isextended r hclose hfd hr => ?_,
    fun payload t hok => ?_⟩
  · obtain ⟨t, hok, hsends⟩ := sendMsgChannelData_sends h.clear h.window hclose hfd hr
    refine ⟨t, hok, ?_⟩
    cases hsends with
    | nothing => rfl
    | ended =>
      change s.sentBytes + (s.chan.closeChanFd (s.sendFd isextended) .rd).transwindow = _
      rw [(Channel.closeChanFd_shuts s.chan (s.sendFd isextended) .rd).rest]
    | @sent data b _ _ hlen =>
      have hle := (s.sendLimit_le isextended).1
      simp only [sentBytes, List.map_append, List.map_cons, List.map_nil, List.sum_append,
        List.sum_singleton, packetData_dataPacket]
      omega
  · obtain ⟨incr, rfl⟩ := recvMsgChannelWindowAdjust_eq h.window hok
    exact ⟨incr, rfl, rfl⟩

/-- CHANNEL_OPEN for a session channel with a window of three bytes. -/
def openPayload : Buffer :=
  Buffer.ofBytes (sshString (ascii "session") ++ store32h 0 ++ store32h 3 ++ store32h 100)
    (by decide)

/-- Its descriptor becomes readable, and the peer extends the window beyond its range. -/
def extendedWindow : List OutboundEvent :=
  [.other { Channel.opened 10 .session 3 100 with readfd := 5 },
    .readable false (.data [7, 8]),
    .windowAdjust (Buffer.ofBytes (store32h (2 ^ 32 - 1)) (by decide)),
    .readable false (.data [9, 10, 11, 12])]

theorem transwindow_respected_extended : ∃ b s₀ s, bufNew transMaxPayloadLen = .ok b ∧
    Outbound.recvMsgChannelOpen b 10 .session openPayload = .ok s₀ ∧
    outbound.exec s₀ extendedWindow = some s ∧
    s.sentBytes = 6 ∧ s.chan.transwindow = 2 ^ 32 - 5 ∧
    s.sentBytes + s.chan.transwindow ≤ s.initial + s.increments.sum := by
  have hrun : ((bufNew transMaxPayloadLen).toOption.bind fun b =>
      (Outbound.recvMsgChannelOpen b 10 .session openPayload).toOption.bind fun s₀ =>
        (outbound.exec s₀ extendedWindow).map fun s => (s.sentBytes, s.chan.transwindow)) =
      some (6, 2 ^ 32 - 5) := by decide +kernel
  obtain ⟨b, hb, hrun⟩ := Option.bind_eq_some_iff.1 hrun
  obtain ⟨s₀, hs₀, hrun⟩ := Option.bind_eq_some_iff.1 hrun
  obtain ⟨s, hs, hrun⟩ := Option.map_eq_some_iff.1 hrun
  obtain ⟨b', hb', hclear⟩ := Buffer.bufNew_has (show transMaxPayloadLen ≤ bufMaxSize by decide)
  cases (toOption_eq_some.1 hb).symm.trans hb'
  have hresult := transwindow_respected (.byPeer hclear (toOption_eq_some.1 hs₀)) ⟨_, hs⟩
  exact ⟨b, s₀, s, hb', toOption_eq_some.1 hs₀, hs, congrArg Prod.fst hrun,
    congrArg Prod.snd hrun, hresult.1⟩

/-! ### The life of a channel -/

namespace Outbound

variable {o : Outbound}

theorem sendLimit_eq_maxlen (h : o.writepayload.Has transMaxPayloadLen [] 0) :
    o.sendLimit false = o.chan.maxlen := by
  have hsize : u32 (o.writepayload.data.length - 1 - 4 - 4 - (if false then 4 else 0)) =
      16384 - 9 := by
    rw [h.size]
    decide
  rw [sendLimit, hsize]
  rfl

/-- **Refinement**: the packet in the buffer and the descriptor are what `Channel.sendMsgChannelData`
says. -/
theorem sendMsgChannelData_refines {r : ChanRead} (h : OutboundInv o)
    (hr : MayReturn (o.sendLimit false) r) :
    (o.sendMsgChannelData false r).toOption.map Outbound.chan = o.chan.sendMsgChannelData r := by
  have hlimit := sendLimit_eq_maxlen h.clear
  unfold Channel.sendMsgChannelData
  by_cases hclose : o.chan.sentClose = true
  · rw [sendMsgChannelData, if_pos hclose, if_pos hclose]
    rfl
  by_cases hfd : o.chan.readfd < 0
  · rw [sendMsgChannelData, if_neg hclose, if_pos (show o.sendFd false < 0 from hfd),
      if_neg hclose, if_pos hfd]
    rfl
  have hopen : 0 ≤ o.sendFd false := Int.not_lt.1 hfd
  obtain ⟨t, hok, hsends⟩ := sendMsgChannelData_sends h.clear h.window
    (Bool.eq_false_iff.2 hclose) hopen hr
  rw [hok, if_neg hclose, if_neg hfd, ← hlimit]
  cases hsends with
  | nothing _ hnothing =>
    rcases hnothing with hzero | rfl
    · rw [if_pos hzero]
      rfl
    · split_ifs <;> rfl
  | ended _ hpos hend =>
    rw [if_neg hpos]
    rcases hend with rfl | rfl <;> rfl
  | sent _ hpos _ =>
    rw [if_neg hpos]
    rfl

end Outbound

namespace Channel

variable {c c' : Channel}

/-- The window and the largest packet are the same. -/
def SameWindow (c c' : Channel) : Prop :=
  c'.transwindow = c.transwindow ∧ c'.transmaxpacket = c.transmaxpacket

theorem Shuts.sameWindow (h : Shuts c c') : SameWindow c c' := by
  rw [h.rest]
  exact ⟨rfl, rfl⟩

theorem Relays.sameWindow (h : Relays c c') : SameWindow c c' := by
  obtain ⟨d, adjusts, writebuf, recvwindow, recvdonelen, rfl | ⟨-, rfl⟩, -, rfl⟩ := h
  · exact ⟨rfl, rfl⟩
  · exact (closeChanFd_shuts c c.writefd .wr).sameWindow

theorem closeUp_sameWindow (c : Channel) (allowed : Bool) : SameWindow c (c.closeUp allowed) := by
  refine closeUp_rule (P := SameWindow c) ⟨rfl, rfl⟩ ?_ ?_ ?_ ?_
  · intro d hd _
    have hshut := (closeChanFd_shuts d d.writefd .wr).sameWindow
    exact ⟨hshut.1.trans hd.1, hshut.2.trans hd.2⟩
  · intro d hd _ _
    exact hd
  · intro d hd _ _ _
    obtain ⟨d', hshuts, -, -, heq⟩ := sendMsgChannelClose_eq d
    rw [heq]
    exact ⟨hshuts.sameWindow.1.trans hd.1, hshuts.sameWindow.2.trans hd.2⟩
  · intro d hd
    exact hd

end Channel

namespace ChannelLife

variable {R : Restriction} {recvWindow : ℕ} {s t : ChannelLife} {o : Outbound}

/-- **Frame**: the other steps leave the window alone. -/
theorem perform_sendFrame {e : LifeEvent} (hst : Performs R s e t)
    (hread : ∀ r, e ≠ .readable r) (hadjust : ∀ incr, e ≠ .recvWindowAdjust incr) :
    s.chan.SameWindow t.chan := by
  cases hst with
  | recvEof | recvClose | signalPending | kexStart | kexEnd | workerWriteFails | workerWrite
  | workerLeave | workerDone | workerClose => exact ⟨rfl, rfl⟩
  | recvWindowAdjust => exact absurd rfl (hadjust _)
  | abort | readNothing | readEnd | readData => exact absurd rfl (hread _)
  | recvData _ h => exact h.sameWindow
  | writable h => exact h.sameWindow
  | recvRequest _ _ h =>
    rcases recvRequest_cases h with ⟨w, rfl⟩ | ⟨-, w, ret, started, stores, cs', -, -, rfl⟩
    · exact ⟨rfl, rfl⟩
    · change s.chan.SameWindow (s.handled _ s.chan.session cs').chan
      rw [(handled_chan s _ s.chan.session cs').1]
      exact ⟨rfl, rfl⟩
  | @connectDone sock => cases sock <;> exact ⟨rfl, rfl⟩
  | @reply wantreply ret =>
    change s.chan.SameWindow { s.chan.sendReply wantreply ret with
      chansess := s.chan.chansess.answer wantreply ret }
    unfold Channel.sendReply
    split_ifs <;> exact ⟨rfl, rfl⟩
  | check =>
    obtain ⟨flushing, backendFd, cancelFd, heq⟩ := Channel.checked_eq s.chan
    simp only [ChannelLife.check, heq]
    exact ⟨rfl, rfl⟩
  | flush => exact (Channel.flush_shuts _ _).sameWindow
  | closeUp => exact Channel.closeUp_sameWindow _ _
  | workerStore h =>
    simp only [workerStore] at h
    cases hw : s.worker <;> rw [hw] at h <;> cases h <;> exact ⟨rfl, rfl⟩

/-- **Simulation**: a step of a channel's life is one of its sending side. -/
theorem step_simulated {e : LifeEvent} (h : OutboundInv o) (hchan : o.chan = s.chan)
    (hincr : ∀ incr, e = .recvWindowAdjust incr → incr < 2 ^ 32)
    (hst : (channelLife R recvWindow).step s e = some t) :
    ∃ e' o', outbound.step o e' = some o' ∧ o'.chan = t.chan := by
  obtain ⟨t', hperform, rfl⟩ := channelLife_step.1 hst
  have hother : ∀ c : Channel, s.chan.SameWindow c →
      ∃ e' o', outbound.step o e' = some o' ∧ o'.chan = c := by
    intro c hc
    rw [← hchan] at hc
    exact ⟨.other c, { o with chan := c }, if_pos hc, rfl⟩
  have htransmit : t'.transmit.chan = t'.chan := by
    unfold transmit
    split_ifs <;> rfl
  rw [htransmit]
  by_cases hread : ∃ r, e = .readable r
  · obtain ⟨r, rfl⟩ := hread
    obtain ⟨⟨-, -, hmay⟩, hperform⟩ := Option.ite_none_right_eq_some.1 hperform
    cases hperform
    have hr : Outbound.MayReturn (o.sendLimit false) r := by
      rw [Outbound.sendLimit_eq_maxlen h.clear, hchan]
      cases r with
      | data data =>
        simp only [mayRead, Bool.and_eq_true, decide_eq_true_eq] at hmay
        exact hmay.1
      | eof => trivial
      | error => trivial
      | interrupted => trivial
    have hrefines := Outbound.sendMsgChannelData_refines h hr
    rw [hchan] at hrefines
    unfold readable
    cases hdata : s.chan.sendMsgChannelData r with
    | none => exact hother s.chan ⟨rfl, rfl⟩
    | some c =>
      rw [hdata] at hrefines
      obtain ⟨o', ho', rfl⟩ := Option.map_eq_some_iff.1 hrefines
      exact ⟨.readable false r, o', (if_pos hr).trans ho', rfl⟩
  by_cases hadjust : ∃ incr, e = .recvWindowAdjust incr
  · obtain ⟨incr, rfl⟩ := hadjust
    obtain ⟨-, hperform⟩ := Option.ite_none_right_eq_some.1 hperform
    cases hperform
    -- a payload with this increment
    have hsize : (store32h incr).length ≤ bufMaxSize := by
      rw [length_store32h]
      decide
    have hint : bufGetint (Buffer.ofBytes (store32h incr) hsize) =
        .ok (incr, (Buffer.ofBytes (store32h incr) hsize).advance 4) :=
      bufGetint_ok.2 ⟨⟨hincr incr rfl, [], by rw [Buffer.rest_ofBytes, List.append_nil]⟩, rfl⟩
    have hok := Outbound.recvMsgChannelWindowAdjust_of_getint h.window hint
    exact ⟨.windowAdjust _, _, toOption_eq_some.2 hok, by rw [hchan]⟩
  · exact hother _ (perform_sendFrame (perform_cases hperform)
      (fun r he => hread ⟨r, he⟩) fun incr he => hadjust ⟨incr, he⟩)

/-- **Simulation** of whole runs: what a channel has sent at any time of its life, it has sent within
the window. -/
theorem run_simulated {es : List LifeEvent}
    (hincr : ∀ e ∈ es, ∀ incr, e = .recvWindowAdjust incr → incr < 2 ^ 32) :
    ∀ {s : ChannelLife} {o : Outbound}, OutboundInv o → o.chan = s.chan →
      (channelLife R recvWindow).exec s es = some t →
      ∃ es' o', outbound.exec o es' = some o' ∧ o'.chan = t.chan := by
  induction es with
  | nil =>
    intro s o h hchan hrun
    cases hrun
    exact ⟨[], o, rfl, hchan⟩
  | cons e es ih =>
    intro s o h hchan hrun
    obtain ⟨s₁, hst, hrun⟩ := LTS.exec_cons_eq_some.1 hrun
    obtain ⟨e', o₁, ho₁, hchan₁⟩ :=
      step_simulated h hchan (hincr e (List.mem_cons_self ..)) hst
    obtain ⟨es', o', ho', hchan'⟩ := ih (fun e₁ he₁ => hincr e₁ (List.mem_cons_of_mem _ he₁))
      (h.step ho₁) hchan₁ hrun
    exact ⟨e' :: es', o', LTS.exec_cons_eq_some.2 ⟨o₁, ho₁, ho'⟩, hchan'⟩

end ChannelLife

end Ps4Dropbear
