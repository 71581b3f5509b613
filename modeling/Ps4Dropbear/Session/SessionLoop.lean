import Ps4Dropbear.Buffer.Basic
import Ps4Dropbear.LTS.Basic
import Ps4Dropbear.LTS.Readiness

/-!
# `session_loop` and its system calls

One iteration of the main loop as the steps it consists of: `select`, the timeouts, reading from
the socket, handling a packet, the held back replies and pending connects, `channelio`, and
`write_packet`.  The session logs every `select`, `read` and `writev` it makes on the session's
socket and on the descriptors of channels.  Descriptors block, so a call never returns `EAGAIN`.

A descriptor is named by its owner: the socket (`sock_in` and `sock_out` are one descriptor) or a
slot of `ses.channels`.  In a slot the two directions may be two descriptors; `errfd` is closed.

The handlers of packets other than CHANNEL_DATA make none of these calls.  What they do to the
state of the loop is a part of the event (`Handled`), and so is what the closing of a channel does
(`ChannelIo`).

* `Loop.readPacket`, `Loop.readSessionIdentification` : reading.
* `Loop.recvMsgChannelData` : CHANNEL_DATA is written to the channel at once.
* `Loop.channelio`, `Loop.writePacket` : the rest of an iteration.
* `sessionLoop` : the transition system.
-/

namespace Ps4Dropbear

/-- A descriptor of the main thread. -/
inductive Desc
  | sock
  | chan (i : ℕ)
  deriving DecidableEq

/-- What a `read` of at most `maxlen` bytes returns; `got 0` is the end of the file. -/
inductive ReadResult
  | got (n : ℕ)
  | intr
  | error
  deriving DecidableEq

/-- What a `writev` returns. -/
inductive WriteResult
  | wrote (n : ℕ)
  | intr
  | error
  deriving DecidableEq

/-- The bytes of `total` that the call has taken. -/
def WriteResult.taken : WriteResult → ℕ → ℕ
  | .wrote n, total => min n total
  | .intr, _ => 0
  | .error, _ => 0

theorem WriteResult.taken_le (res : WriteResult) (total : ℕ) : res.taken total ≤ total := by
  cases res with
  | wrote n => exact Nat.min_le_right n total
  | intr => exact Nat.zero_le total
  | error => exact Nat.zero_le total

/-- What an iteration of `ident_readln` meets. -/
inductive IdentInput
  /-- `select` times out. -/
  | silent
  /-- The read is interrupted. -/
  | intr
  /-- The read fails, or returns the end of the file. -/
  | ended
  | byte (b : UInt8)
  deriving DecidableEq

/-- `readfd` or `writefd` of a channel. -/
inductive ChanFd
  /-- `FD_UNINIT`. -/
  | uninit
  /-- `FD_CLOSED`. -/
  | closed
  | opened
  deriving DecidableEq

/-- `opts.recv_window`. -/
def recvWindow : ℕ := 24576

/-- `RECV_WINDOWEXTEND`. -/
def recvWindowextend : ℕ := recvWindow / 3

/-- A channel as far as its input and output go.  The last field is what `writechannel` asserts:
the window that the peer has, and what it has not been given back yet, fit in the buffer. -/
structure LoopChannel where
  readfd : ChanFd := .uninit
  writefd : ChanFd := .uninit
  /-- `conn_pending` is set. -/
  connPending : Bool := false
  recvEof : Bool := false
  transwindow : ℕ
  transmaxpacket : ℕ
  /-- The bytes in `writebuf`. -/
  writebuf : ℕ := 0
  recvwindow : ℕ := recvWindow
  recvdonelen : ℕ := 0
  bound : recvwindow + recvdonelen + writebuf ≤ recvWindow := by decide
  deriving DecidableEq

namespace LoopChannel

/-- The part of `writechannel` behind `writev`, for a call with `len` bytes of payload.  What the
call has not taken goes to `writebuf`; after an error the payload is dropped. -/
def written (c : LoopChannel) (len : ℕ) (hlen : len ≤ c.recvwindow) (res : WriteResult) :
    LoopChannel :=
  if res = .error then
    { c with
      writefd := .closed, recvwindow := c.recvwindow - len
      bound := by have := c.bound; omega }
  else
    { c with
      writebuf := c.writebuf + len - res.taken (c.writebuf + len)
      recvwindow := c.recvwindow - len
      recvdonelen := c.recvdonelen + res.taken (c.writebuf + len)
      bound := by
        have := c.bound
        have := res.taken_le (c.writebuf + len)
        omega }

/-- `writechannel` sends CHANNEL_WINDOW_ADJUST. -/
def adjusts (c : LoopChannel) : Bool := decide (recvWindowextend ≤ c.recvdonelen)

/-- The window adjustment of `writechannel`. -/
def windowAdjust (c : LoopChannel) : LoopChannel :=
  if c.adjusts then
    { c with
      recvwindow := c.recvwindow + c.recvdonelen, recvdonelen := 0
      bound := by have := c.bound; omega }
  else c

/-- The most that `send_msg_channel_data` reads. -/
def maxlen (c : LoopChannel) : ℕ := min (min c.transwindow c.transmaxpacket) (16384 - 9)

end LoopChannel

/-- `ses.readbuf`. -/
structure ReadBuf where
  pos : ℕ
  len : ℕ
  deriving DecidableEq

/-- How far the iteration has come. -/
inductive LoopPhase
  | select
  | timeouts
  | input
  | handle
  | replies
  | channels
  | output
  deriving DecidableEq

/-- The state of `session_loop`. -/
structure Loop where
  phase : LoopPhase := .select
  /-- `dropbear_exit` has been called. -/
  exited : Bool := false
  /-- The descriptors that the `select` of the iteration has reported. -/
  readfds : List Desc := []
  writefds : List Desc := []
  /-- `ses.remoteident` is set. -/
  remoteident : Bool := false
  /-- The block size and the size of the MAC of `ses.keys->recv`, and whether its mode is AEAD. -/
  blocksize : ℕ := 8
  macsize : ℕ := 0
  aead : Bool := false
  readbuf : Option ReadBuf := none
  /-- `ses.payload` is set. -/
  payload : Bool := false
  dataallowed : Bool := true
  /-- The bytes left of every packet in `ses.writequeue`. -/
  writequeue : List ℕ := []
  channels : List (Option LoopChannel) := []
  /-- The calls, the newest first. -/
  log : List (Call Desc) := []

namespace Loop

/-- The channel in a slot. -/
def channel (s : Loop) (i : ℕ) : Option LoopChannel := (s.channels[i]?).join

/-- `dropbear_exit`. -/
def exit (s : Loop) : Loop := { s with exited := true }

/-- A call is made. -/
def call (s : Loop) (c : Call Desc) : Loop := { s with log := c :: s.log }

/-- Packets are put into the write queue. -/
def enqueue (s : Loop) (packets : List ℕ) : Loop :=
  { s with writequeue := s.writequeue ++ packets }

/-! ### `select` -/

/-- `writequeue_has_space`. -/
def writequeueHasSpace (s : Loop) : Bool := decide (s.writequeue.sum ≤ 2 * 16384)

/-- `set_connect_fds` gives up on pending connects: the channel in the slot is removed, and
CHANNEL_OPEN_FAILURE goes out. -/
def connectsFailed (s : Loop) (failed : List (ℕ × ℕ)) : Loop :=
  { s with
    channels := failed.foldl (fun cs f => cs.set f.1 none) s.channels
    writequeue := s.writequeue ++ failed.map Prod.snd }

/-- The read set that `setchannelfds` builds and the socket. -/
def inReadSet (s : Loop) (hasSpace : Bool) : Desc → Bool
  | .sock => (s.remoteident || s.writequeue.isEmpty) && hasSpace
  | .chan i =>
    match s.channel i with
    | none => false
    | some c => decide (0 < c.transwindow) && s.dataallowed && hasSpace && c.readfd = .opened

/-- The write set: buffered data, pending connects and the socket. -/
def inWriteSet (s : Loop) : Desc → Bool
  | .sock => !s.writequeue.isEmpty
  | .chan i =>
    match s.channel i with
    | none => false
    | some c => (c.writefd = .opened && decide (0 < c.writebuf)) || c.connPending

/-! ### Reading from the socket -/

/-- `ident_readln`, which selects and reads byte by byte.  When the peer stays silent the session
times out. -/
def identReadln (s : Loop) (line : Bytes) : List IdentInput → Loop × Option Bytes
  | [] => (s, none)
  | .silent :: inputs => identReadln (s.call (.selectRead .sock false)) line inputs
  | .intr :: inputs =>
    identReadln ((s.call (.selectRead .sock true)).call (.read .sock)) line inputs
  | .ended :: _ => ((s.call (.selectRead .sock true)).call (.read .sock), none)
  | .byte b :: inputs =>
    let s := (s.call (.selectRead .sock true)).call (.read .sock)
    if b = 10 then (s, some line)
    else
      let line := if b = 13 then line else line ++ [b]
      if line.length < 255 then identReadln s line inputs else (s, some line)

/-- `read_session_identification`. -/
def readSessionIdentification (s : Loop) (inputs : List IdentInput) : Loop :=
  match s.identReadln [] inputs with
  | (s, none) => s.exit
  | (s, some line) =>
    if (ascii "SSH-2.").isPrefixOf line || (ascii "SSH-1.99-").isPrefixOf line then
      { s with remoteident := true }
    else s.exit

/-- The length of the packet that `read_packet_init` computes from the first four bytes of the
block, `none` when it is rejected. -/
def packetLen (s : Loop) (field : ℕ) : Option ℕ :=
  let plen := if s.aead then field % 2 ^ 32 else (field + 4) % 2 ^ 32
  let len := if s.aead then (plen + 4 + s.macsize) % 2 ^ 32 else (plen + s.macsize) % 2 ^ 32
  if 35000 < len ∨ plen < s.blocksize ∨ plen % s.blocksize ≠ 0 then none else some len

/-- Where `read_packet_init` continues to read. -/
def initPos (s : Loop) : ℕ := (s.readbuf.getD ⟨0, 0⟩).pos

/-- `read_packet_init`, and whether the length is known. -/
def readPacketInit (s : Loop) (first : ReadResult) (field : ℕ) : Bool × Loop :=
  let maxlen := s.blocksize - s.initPos
  let t := s.call (.read .sock)
  match first with
  | .error => (false, t.exit)
  | .intr => (false, { t with readbuf := some (s.readbuf.getD ⟨0, 0⟩) })
  | .got n =>
    if min n maxlen = 0 then (false, t.exit)
    else if min n maxlen ≠ maxlen then
      (false, { t with readbuf := some ⟨s.initPos + n, s.initPos + n⟩ })
    else
      match s.packetLen field with
      | none => (false, t.exit)
      | some len => (true, { t with readbuf := some ⟨s.blocksize, len⟩ })

/-- `decrypt_packet`. -/
def decryptPacket (s : Loop) (corrupt : Bool) : Loop :=
  if corrupt then s.exit else { s with readbuf := none, payload := true }

/-- The part of `read_packet` behind `read_packet_init`. -/
def readPacketRest (s : Loop) (buf : ReadBuf) (rest : ReadResult) (corrupt : Bool) : Loop :=
  let maxlen := buf.len - buf.pos
  if maxlen = 0 then s.decryptPacket corrupt
  else
    let t := s.call (.read .sock)
    match rest with
    | .error => t.exit
    | .intr => t
    | .got n =>
      if min n maxlen = 0 then t.exit
      else if min n maxlen = maxlen then t.decryptPacket corrupt
      else { t with readbuf := some ⟨buf.pos + n, buf.len⟩ }

/-- The packet's first block has not been read. -/
def inFirstBlock (s : Loop) : Bool :=
  match s.readbuf with
  | none => true
  | some buf => decide (buf.len < s.blocksize)

end Loop

/-- What reading from the socket meets: the bytes of the identification, the results of the two
reads of `read_packet`, the length in the first block, and whether the packet is corrupt. -/
structure SockInput where
  ident : List IdentInput := []
  first : ReadResult := .intr
  field : ℕ := 0
  rest : ReadResult := .intr
  corrupt : Bool := false

namespace Loop

/-- `read_packet`. -/
def readPacket (s : Loop) (inp : SockInput) : Loop :=
  if s.inFirstBlock then
    match s.readPacketInit inp.first inp.field with
    | (false, t) => t
    | (true, t) => t.readPacketRest (t.readbuf.getD ⟨0, 0⟩) inp.rest inp.corrupt
  else s.readPacketRest (s.readbuf.getD ⟨0, 0⟩) inp.rest inp.corrupt

/-- The socket's part of the iteration. -/
def input (s : Loop) (inp : SockInput) : Loop :=
  let t :=
    if .sock ∈ s.readfds then
      if s.remoteident then s.readPacket inp else s.readSessionIdentification inp.ident
    else s
  { t with phase := if t.payload then .handle else .replies }

end Loop

/-- What a handler other than that of CHANNEL_DATA does to the state of the loop. -/
structure Handled where
  exits : Bool := false
  queued : List ℕ := []
  channels : List (Option LoopChannel)
  blocksize : ℕ
  macsize : ℕ
  aead : Bool
  dataallowed : Bool

/-- A packet as `process_packet` sees it. -/
inductive LoopPacket
  /-- CHANNEL_DATA for a slot, the result of the `writev` it leads to, and the size of a
  CHANNEL_WINDOW_ADJUST. -/
  | channelData (i len : ℕ) (res : WriteResult) (adjust : ℕ)
  | other (h : Handled)

namespace Loop

/-- The channel that `common_recv_msg_channel_data` writes to, once the packet has passed its
checks. -/
def writesData (s : Loop) (i len : ℕ) : Option LoopChannel :=
  (s.channel i).filter fun c =>
    !c.recvEof && c.writefd = .opened && decide (len ≤ c.recvwindow)

/-- `recv_msg_channel_data`.  `Oversized packet` is the first of two checks against the window;
the other is an assertion, and the stronger one. -/
def recvMsgChannelData (s : Loop) (i len : ℕ) (res : WriteResult) (adjust : ℕ) : Loop :=
  match s.channel i with
  | none => s.exit
  | some c =>
    if c.recvEof then s.exit
    else if c.writefd ≠ .opened then s
    else if recvWindow - c.writebuf < len then s.exit
    else if hlen : len ≤ c.recvwindow then
      let c' := c.written len hlen res
      { s with
        log := .write (.chan i) :: s.log
        channels := s.channels.set i (some c'.windowAdjust)
        writequeue := s.writequeue ++ if c'.adjusts then [adjust] else [] }
    else s.exit

/-- `process_packet`. -/
def processPacket (s : Loop) : LoopPacket → Loop
  | .channelData i len res adjust => s.recvMsgChannelData i len res adjust
  | .other h =>
    { s with
      exited := h.exits, writequeue := s.writequeue ++ h.queued, channels := h.channels
      blocksize := h.blocksize, macsize := h.macsize, aead := h.aead
      dataallowed := h.dataallowed }

/-- `handle_connect_fds`: a pending connect of a channel has succeeded. -/
def connected (s : Loop) : Option (ℕ × ℕ) → Loop
  | none => s
  | some (i, confirmation) =>
    match s.channel i with
    | none => s
    | some c =>
      if c.connPending ∧ c.readfd = .uninit ∧ c.writefd = .uninit ∧ .chan i ∈ s.writefds then
        { s with
          channels := s.channels.set i
            (some { c with readfd := .opened, writefd := .opened, connPending := false })
          writequeue := s.writequeue ++ [confirmation] }
      else s

end Loop

/-- What `channelio` meets on a channel: the results of its calls, the sizes of the packets it
sends, and what `check_close` does. -/
structure ChannelIo where
  read : ReadResult := .intr
  data : ℕ := 0
  write : WriteResult := .intr
  adjust : ℕ := 0
  /-- The packets that `check_close` sends. -/
  closing : List ℕ := []
  closesRead : Bool := false
  closesWrite : Bool := false
  removes : Bool := false

/-- A channel's turn in `channelio`: the channel, the calls and the packets it leads to. -/
structure ChannelTurn where
  channel : LoopChannel
  log : List (Call Desc)
  queued : List ℕ := []

namespace ChannelTurn

/-- `send_msg_channel_data` for a channel whose `readfd` was reported. -/
def sendMsgChannelData (t : ChannelTurn) (i : ℕ) (io : ChannelIo) : ChannelTurn :=
  if t.channel.maxlen = 0 then t
  else
    let t := { t with log := .read (.chan i) :: t.log }
    match io.read with
    | .intr => t
    | .error => { t with channel := { t.channel with readfd := .closed } }
    | .got n =>
      let n := min n t.channel.maxlen
      if n = 0 then { t with channel := { t.channel with readfd := .closed } }
      else
        { t with
          channel := { t.channel with transwindow := t.channel.transwindow - n }
          queued := t.queued ++ [io.data] }

/-- `writechannel` for a channel whose `writefd` was reported, without payload. -/
def writechannel (t : ChannelTurn) (i : ℕ) (io : ChannelIo) : ChannelTurn :=
  let t :=
    if t.channel.writebuf = 0 then t
    else
      { t with
        log := .write (.chan i) :: t.log
        channel := t.channel.written 0 (Nat.zero_le _) io.write }
  { t with
    channel := t.channel.windowAdjust
    queued := t.queued ++ if t.channel.adjusts then [io.adjust] else [] }

/-- Reading, if `readfd` was reported. -/
def readTurn (t : ChannelTurn) (readfds : List Desc) (i : ℕ) (io : ChannelIo) : ChannelTurn :=
  if t.channel.readfd = .opened ∧ .chan i ∈ readfds then t.sendMsgChannelData i io else t

/-- Writing, if `writefd` was reported. -/
def writeTurn (t : ChannelTurn) (writefds : List Desc) (i : ℕ) (io : ChannelIo) : ChannelTurn :=
  if t.channel.writefd = .opened ∧ .chan i ∈ writefds then t.writechannel i io else t

/-- What `check_close` does to the channel. -/
def checkClose (t : ChannelTurn) (io : ChannelIo) :
    Option LoopChannel × List (Call Desc) × List ℕ :=
  let c := if io.closesRead then { t.channel with readfd := .closed } else t.channel
  let c := if io.closesWrite then { c with writefd := .closed } else c
  (if io.removes then none else some c, t.log, t.queued ++ io.closing)

end ChannelTurn

namespace Loop

/-- `channelio` for one channel. -/
def channelTurn (readfds writefds : List Desc) (i : ℕ) (io : ChannelIo) (c : LoopChannel)
    (log : List (Call Desc)) : Option LoopChannel × List (Call Desc) × List ℕ :=
  let t := (⟨c, log, []⟩ : ChannelTurn).readTurn readfds i io
  let u := t.writeTurn writefds i io
  if (c.readfd = .opened ∧ .chan i ∈ readfds) ∨
      (t.channel.writefd = .opened ∧ .chan i ∈ writefds) then u.checkClose io
  else (some u.channel, u.log, u.queued)

/-- `channelio` from slot `i` on: the channels, the calls and the packets. -/
def channelioFrom (readfds writefds : List Desc) (io : ℕ → ChannelIo) :
    ℕ → List (Option LoopChannel) → List (Call Desc) →
      List (Option LoopChannel) × List (Call Desc) × List ℕ
  | _, [], log => ([], log, [])
  | i, none :: cs, log =>
    let r := channelioFrom readfds writefds io (i + 1) cs log
    (none :: r.1, r.2.1, r.2.2)
  | i, some c :: cs, log =>
    let t := channelTurn readfds writefds i (io i) c log
    let r := channelioFrom readfds writefds io (i + 1) cs t.2.1
    (t.1 :: r.1, r.2.1, t.2.2 ++ r.2.2)

/-- `newchannel` in the first free slot. -/
def newchannel (c : LoopChannel) : List (Option LoopChannel) → List (Option LoopChannel)
  | [] => [some c]
  | none :: cs => some c :: cs
  | some c' :: cs => some c' :: newchannel c cs

/-- `handle_listeners`: a channel for every connection accepted, and CHANNEL_OPEN for it. -/
def handleListeners (s : Loop) (accepted : List ℕ) : Loop :=
  { s with
    channels := accepted.foldl (fun cs _ =>
      newchannel { readfd := .opened, writefd := .opened, transwindow := 0, transmaxpacket := 0 }
        cs) s.channels
    writequeue := s.writequeue ++ accepted }

/-- `channelio`. -/
def channelio (s : Loop) (io : ℕ → ChannelIo) (accepted : List ℕ) : Loop :=
  let r := channelioFrom s.readfds s.writefds io 0 s.channels s.log
  ({ s with channels := r.1, log := r.2.1, writequeue := s.writequeue ++ r.2.2 }).handleListeners
    accepted

/-- `packet_queue_consume`. -/
def packetQueueConsume : List ℕ → ℕ → List ℕ
  | [], _ => []
  | p :: ps, n => if p ≤ n then packetQueueConsume ps (n - p) else (p - n) :: ps

/-- `write_packet`, if there is a packet: at most 50 of them go into one `writev`. -/
def writePacket (s : Loop) (res : WriteResult) : Loop :=
  if s.writequeue = [] then s
  else
    let t := s.call (.write .sock)
    match res with
    | .intr => t
    | .error => t.exit
    | .wrote n =>
      let n := min n (s.writequeue.take 50).sum
      if n = 0 then t.exit else { t with writequeue := packetQueueConsume s.writequeue n }

end Loop

/-- The steps of an iteration, with what they meet. -/
inductive LoopEvent
  /-- The connects that `set_connect_fds` gives up, and what `select` reports. -/
  | select (failed : List (ℕ × ℕ)) (readfds writefds : List Desc)
  /-- `checktimeouts`: the packets it queues, or `none` when it ends the session. -/
  | timeouts (queued : Option (List ℕ))
  | input (inp : SockInput)
  | handle (p : LoopPacket)
  /-- The packets that `maybe_flush_reply_queue` queues, and the connect that succeeds. -/
  | replies (flushed : List ℕ) (connected : Option (ℕ × ℕ))
  /-- What `channelio` meets in every slot, and the connections that listeners accept. -/
  | channelio (io : ℕ → ChannelIo) (accepted : List ℕ)
  | output (res : WriteResult)

namespace LoopEvent

/-- The phase of the step. -/
def phase : LoopEvent → LoopPhase
  | select _ _ _ => .select
  | timeouts _ => .timeouts
  | input _ => .input
  | handle _ => .handle
  | replies _ _ => .replies
  | channelio _ _ => .channels
  | output _ => .output

/-- The kernel reports only what it is asked for. -/
def answers (s : Loop) : LoopEvent → Bool
  | select failed readfds writefds =>
    readfds.all ((s.connectsFailed failed).inReadSet s.writequeueHasSpace) &&
      writefds.all (s.connectsFailed failed).inWriteSet
  | _ => true

/-- What a step does. -/
def perform (s : Loop) : LoopEvent → Loop
  | select failed readfds writefds =>
    { s.connectsFailed failed with
      phase := .timeouts, readfds := readfds, writefds := writefds
      log := .select readfds writefds :: s.log }
  | timeouts none => s.exit
  | timeouts (some queued) => { s.enqueue queued with phase := .input }
  | input inp => s.input inp
  | handle p => { s.processPacket p with phase := .replies, payload := false }
  | replies flushed connected =>
    { (s.enqueue flushed).connected connected with phase := .channels }
  | channelio io accepted => { s.channelio io accepted with phase := .output }
  | output res => { s.writePacket res with phase := .select }

end LoopEvent

/-- `session_loop`. -/
def sessionLoop : LTS Loop LoopEvent where
  step s e :=
    if s.exited = false ∧ s.phase = e.phase ∧ e.answers s then some (e.perform s) else none

/-- The loop when it is entered: KEXINIT is in the queue, and the identification has been sent. -/
def enteredLoop (kexinit : ℕ) : Loop := { writequeue := [kexinit] }

end Ps4Dropbear
