import Ps4Dropbear.Channel.Lifecycle
import Ps4Dropbear.LTS.Ledger

/-!
# Pending connections

`netio.c`: the connections that the server makes for `direct-tcpip` and `direct-streamlocal`
channels.  A connection tries one address after the other; it is tried from `set_connect_fds`, at
the top of the session loop, and looked at from `handle_connect_fds`, further down.  When it stands
or has failed for good its callback is called and it is freed.  A channel that is removed before
that changes the callback.

A connection and a channel point to each other.  Both are known here by their place in the order in
which they were made, so that a pointer to something that has been freed can be told from one to
what came after it.  The sockets are numbered in the same way.  Three records are kept: the calls of
callbacks, the sockets that were closed, and those that were handed to a channel.

* `Progress`, `Progress.connectTryNext` : a connection, and trying its addresses.
* `Netio` : the channels, the connections and the sockets of a session.
* `Netio.setConnectFds`, `Netio.handleConnectFds` : the two loops over the connections.
* `netio` : the transition system.
-/

namespace Ps4Dropbear

/-- `ai_family`, as far as it is looked at. -/
inductive AiFamily
  | unix
  | inet
  deriving DecidableEq, Repr

/-- The values of `errno` behind `connect` that are told apart. -/
inductive ConnectErrno
  | eagain
  | einprogress
  | other
  deriving DecidableEq, Repr

/-- What becomes of trying an address: whether there is a socket, the error of the source address
if one is given, and the error of `connect`, each with its text. -/
structure Attempt where
  socket : Bool
  bindError : Option Bytes
  connect : Option (ConnectErrno × Bytes)
  deriving DecidableEq

/-- The callbacks, with their data. -/
inductive ConnectCallback
  /-- `channel_connect_done` for this channel. -/
  | channelConnectDone (chan : ℕ)
  /-- `cancel_callback`. -/
  | cancelCallback
  deriving DecidableEq, Repr

/-- What a callback is told. -/
inductive ConnectResult
  | success (sock : ℕ)
  | failure (errstring : Bytes)
  deriving DecidableEq

/-- `struct dropbear_progress_connection`. -/
structure Progress where
  id : ℕ
  /-- The channel that it was made for. -/
  chan : ℕ
  resIter : List AiFamily
  /-- `bind_address` or `bind_port` is given. -/
  bound : Bool
  cb : ConnectCallback
  sock : Option ℕ
  errstring : Option Bytes
  deriving DecidableEq

/-- The sockets of the connections: how many there have been, and those that were closed here. -/
structure Sockets where
  made : ℕ := 0
  closed : List ℕ := []
  deriving DecidableEq

namespace Sockets

/-- `socket`. -/
def socket (k : Sockets) : Sockets := { k with made := k.made + 1 }

/-- `close`. -/
def close (k : Sockets) (sock : ℕ) : Sockets := { k with closed := sock :: k.closed }

end Sockets

/-- The value of `errno` that says that the connection is on its way. -/
def retryErrno : AiFamily → ConnectErrno
  | .unix => .eagain
  | .inet => .einprogress

namespace Progress

/-- The loop of `connect_try_next` over the addresses that are left; `attempt` says what becomes of
the address in front of so many others. -/
def tryAddresses (attempt : ℕ → Attempt) (c : Progress) (k : Sockets) :
    List AiFamily → Progress × Sockets
  | [] => ({ c with resIter := [] }, k)
  | r :: rest =>
    let a := attempt rest.length
    if !a.socket then tryAddresses attempt c k rest
    else
      match (if c.bound then a.bindError else none) with
      | some text =>
        tryAddresses attempt { c with errstring := some text } (k.socket.close k.made) rest
      | none =>
        match a.connect with
        | some (errno, text) =>
          if errno ≠ retryErrno r then
            tryAddresses attempt { c with errstring := some text } (k.socket.close k.made) rest
          else ({ c with sock := some k.made, resIter := rest }, k.socket)
        | none => ({ c with sock := some k.made, resIter := rest }, k.socket)

/-- `connect_try_next`. -/
def connectTryNext (attempt : ℕ → Attempt) (c : Progress) (k : Sockets) : Progress × Sockets :=
  tryAddresses attempt c k c.resIter

/-- The inner loop of `set_connect_fds`.  Behind `connect_try_next` there is a socket or no address
left, so it is never entered twice. -/
def setGoing (attempt : ℕ → Attempt) (c : Progress) (k : Sockets) : Progress × Sockets :=
  if c.resIter ≠ [] ∧ c.sock = none then c.connectTryNext attempt k else (c, k)

/-- What a failed connection tells its callback. -/
def failure (c : Progress) : ConnectResult :=
  .failure (c.errstring.getD (ascii "unexpected failure"))

end Progress

/-- A call of a callback: the connection with its channel, the callback, what it was told, and
whether the channel was there. -/
structure ConnectCall where
  conn : ℕ
  chan : ℕ
  cb : ConnectCallback
  result : ConnectResult
  present : Bool
  deriving DecidableEq

/-- A channel, and the connection that was made for it.  `conn_pending` points to that connection,
or is `NULL` when `connPending` says so. -/
structure NetChannel where
  life : ChannelLife
  conn : Option ℕ := none
  deriving DecidableEq

/-- `channel_connect_done` as the channel sees it. -/
def NetChannel.connectDone (ch : NetChannel) (sock : Option ℕ) : NetChannel :=
  { ch with life := { ch.life with chan := ch.life.chan.channelConnectDone sock }.transmit }

/-- The state of `getsockopt` with `SO_ERROR`: it fails, it returns an error, or none. -/
inductive SockStatus
  | unknown
  | error (text : Bytes)
  | connected
  deriving DecidableEq

/-- The channels, `ses.conn_pending`, and the three records. -/
structure Netio where
  chans : List NetChannel := []
  pending : List Progress := []
  /-- How many connections there have been. -/
  made : ℕ := 0
  sockets : Sockets := {}
  calls : List ConnectCall := []
  /-- The sockets that were handed to a channel. -/
  handed : List (ℕ × ℕ) := []

namespace Netio

/-- The channel is in `ses.channels`. -/
def present (s : Netio) (i : ℕ) : Bool := (s.chans[i]?).any (·.life.chan.present)

/-! ### Callbacks -/

/-- `cancel_connect`. -/
def cancelConnect (s : Netio) (k : ℕ) : Netio :=
  { s with pending := s.pending.map fun c =>
      if c.id = k then { c with cb := .cancelCallback } else c }

/-- `remove_connect`. -/
def removeConnect (s : Netio) (k : ℕ) : Netio :=
  { s with pending := s.pending.filter (·.id ≠ k) }

/-- The end of `remove_channel` for a channel: its connection is cancelled if there is one. -/
def cancelPending (s : Netio) (ch : NetChannel) : Netio :=
  match ch.conn with
  | some k => if ch.life.chan.connPending then s.cancelConnect k else s
  | none => s

/-- `channel_connect_done` for channel `i`. -/
def channelConnectDone (s : Netio) (i : ℕ) (result : ConnectResult) : Netio :=
  match s.chans[i]? with
  | none => s
  | some ch =>
    match result with
    | .success sock =>
      { s with
        chans := s.chans.set i (ch.connectDone (some sock))
        handed := (sock, i) :: s.handed }
    | .failure _ => { s with chans := s.chans.set i (ch.connectDone none) }.cancelPending ch

/-- The callback of a connection. -/
def callback (s : Netio) (c : Progress) (result : ConnectResult) : Netio :=
  match c.cb with
  | .channelConnectDone i => s.channelConnectDone i result
  | .cancelCallback =>
    match result with
    | .success sock => { s with sockets := s.sockets.close sock }
    | .failure _ => s

/-- The callback is called, and the connection is freed. -/
def finish (s : Netio) (c : Progress) (result : ConnectResult) : Netio :=
  { (s.callback c result).removeConnect c.id with
    calls := ⟨c.id, c.chan, c.cb, result, s.present c.chan⟩ :: s.calls }

/-! ### The loops -/

/-- The connection `k` becomes `c`. -/
def replace (s : Netio) (k : ℕ) (c : Progress) : Netio :=
  { s with pending := s.pending.map fun d => if d.id = k then c else d }

/-- One round of `set_connect_fds`. -/
def setRound (attempt : ℕ → ℕ → Attempt) (s : Netio) (k : ℕ) : Netio :=
  match s.pending.find? (·.id = k) with
  | none => s
  | some c =>
    let (c', sockets) := c.setGoing (attempt k) s.sockets
    let s := { s.replace k c' with sockets := sockets }
    if c'.sock.isSome then s else s.finish c' c'.failure

/-- `set_connect_fds`.  `attempt k n` is what becomes of the address of connection `k` in front of
`n` others. -/
def setConnectFds (attempt : ℕ → ℕ → Attempt) (s : Netio) : Netio :=
  (s.pending.map (·.id)).foldl (setRound attempt) s

/-- The loop of `handle_connect_fds`.  It returns behind the first connection that stands. -/
def handleRounds (ready : ℕ → Bool) (status : ℕ → SockStatus) (s : Netio) : List ℕ → Netio
  | [] => s
  | k :: ks =>
    match s.pending.find? (·.id = k) with
    | none => handleRounds ready status s ks
    | some c =>
      match c.sock with
      | none => handleRounds ready status s ks
      | some sock =>
        if !ready k then handleRounds ready status s ks
        else
          match status k with
          | .unknown =>
            handleRounds ready status
              { s.replace k { c with sock := none } with sockets := s.sockets.close sock } ks
          | .error text =>
            handleRounds ready status
              { s.replace k { c with sock := none, errstring := some text } with
                sockets := s.sockets.close sock } ks
          | .connected => s.finish c (.success sock)

/-- `handle_connect_fds`. -/
def handleConnectFds (ready : ℕ → Bool) (status : ℕ → SockStatus) (s : Netio) : Netio :=
  s.handleRounds ready status (s.pending.map (·.id))

/-! ### Opening -/

/-- What a connection is made to: the addresses of a host, or the text of an error, and the path of
a socket. -/
inductive Target
  | remote (res : Except Bytes (List AiFamily))
  | streamlocal (path : Bytes)

/-- The type of the channel. -/
def Target.type : Target → ChanType
  | .remote _ => .directTcpip
  | .streamlocal _ => .directStreamlocal

/-- `connect_remote` and `connect_streamlocal`, with the size of `sun_path`: the addresses, and the
error if there are none.  The server gives no source address. -/
def Target.connect (sunPathSize : ℕ) : Target → List AiFamily × Option Bytes
  | .remote (.ok res) => (res, none)
  | .remote (.error text) => ([], some text)
  | .streamlocal path =>
    if (cstr path).length ≥ sunPathSize then ([], some (ascii "Stream path too long"))
    else ([.unix], none)

/-- `recv_msg_channel_open` for a channel whose `inithandler` starts a connection. -/
def openDirect (recvWindow sunPathSize : ℕ) (s : Netio) (transwindow transmaxpacket : ℕ)
    (target : Target) : Netio :=
  let (res, errstring) := target.connect sunPathSize
  { s with
    chans := s.chans ++
      [⟨.opened recvWindow target.type transwindow transmaxpacket, some s.made⟩]
    pending := s.pending ++ [{
      id := s.made, chan := s.chans.length, resIter := res, bound := false
      cb := .channelConnectDone s.chans.length, sock := none, errstring := errstring }]
    made := s.made + 1 }

/-- The main thread is in no function for a channel, and the session has not ended. -/
def Idle (s : Netio) : Prop := ∀ ch ∈ s.chans, ch.life.main = .poll ∧ ch.life.aborted = false

instance (s : Netio) : Decidable s.Idle := inferInstanceAs (Decidable (∀ ch ∈ s.chans, _))

/-- A step in the life of channel `i`.  If it removes the channel, its connection is cancelled. -/
def lifeStep (R : Restriction) (recvWindow : ℕ) (s : Netio) (i : ℕ) (e : LifeEvent) :
    Option Netio := do
  let ch ← s.chans[i]?
  let life ← (channelLife R recvWindow).step ch.life e
  let s := { s with chans := s.chans.set i { ch with life := life } }
  if life.chan.present then return s
  return s.cancelPending ch

end Netio

/-- What can happen. -/
inductive NetioEvent
  /-- CHANNEL_OPEN that starts a connection. -/
  | openDirect (transwindow transmaxpacket : ℕ) (target : Netio.Target)
  /-- A channel without a connection appears: a session, a forwarded one, or one that is refused. -/
  | openOther (life : ChannelLife)
  /-- A step in the life of a channel: messages of the peer, and `channelio`. -/
  | life (i : ℕ) (e : LifeEvent)
  /-- `set_connect_fds`. -/
  | setConnectFds (attempt : ℕ → ℕ → Attempt)
  /-- `handle_connect_fds`. -/
  | handleConnectFds (ready : ℕ → Bool) (status : ℕ → SockStatus)

/-- The event of a channel that only a callback brings. -/
def LifeEvent.isConnectDone : LifeEvent → Bool
  | .connectDone _ => true
  | _ => false

/-- The session, under the restriction `R`. -/
def netio (R : Restriction) (recvWindow sunPathSize : ℕ) : LTS Netio NetioEvent where
  step s
    | .openDirect transwindow transmaxpacket target =>
      if s.Idle then some (s.openDirect recvWindow sunPathSize transwindow transmaxpacket target)
      else none
    | .openOther life =>
      if s.Idle ∧ life.chan.connPending = false then
        some { s with chans := s.chans ++ [{ life := life }] }
      else none
    | .life i e =>
      -- nothing reaches a channel that is gone; functions of different channels may overlap here,
      -- although the main thread is in one of them at a time
      if s.present i ∧ !e.isConnectDone then s.lifeStep R recvWindow i e else none
    | .setConnectFds attempt => if s.Idle then some (s.setConnectFds attempt) else none
    | .handleConnectFds ready status =>
      if s.Idle then some (s.handleConnectFds ready status) else none

end Ps4Dropbear
