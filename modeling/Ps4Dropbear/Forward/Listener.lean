import Ps4Dropbear.Auth.PubkeyOptions
import Ps4Dropbear.Files.FdTable
import Mathlib.Logic.Function.Basic

/-!
# Listeners

`listener.c`: the table of listening sockets, which forwarded ports, forwarded sockets and agents
share.  Beside the table the state has the descriptors of the process, the calls of `close` so far
and the file system as far as sockets in it are concerned.

* `Forwards.newListener`, `Forwards.getListener`, `Forwards.removeListener` : the operations.
* `Forwards.newListener_full`, `Forwards.newListener_room` : the two outcomes of `new_listener`.
-/

namespace Ps4Dropbear

/-- `MAX_LISTENERS`. -/
def maxListeners : ℕ := 20

/-- `LISTENER_EXTEND_SIZE`. -/
def listenerExtendSize : ℕ := 1

/-- `enum ListenerType`. -/
inductive ListenerType
  | default
  | tcpforwarded
  | streamforwarded
  deriving DecidableEq, Repr

/-- The number behind a constant of the `enum`. -/
def ListenerType.toNat : ListenerType → ℕ
  | default => 0
  | tcpforwarded => 1
  | streamforwarded => 2

/-- The channel types of accepted connections; they are compared by address. -/
inductive FwdChanType
  | svrChanTcpremote
  | svrChanStreamlocalremote
  deriving DecidableEq, Repr

/-- `fwd_type`. -/
inductive FwdType
  | direct
  | forwarded
  deriving DecidableEq, Repr

/-- `struct FwdListener`; `none` is `NULL`. -/
structure FwdListener where
  sendaddr : Option Bytes := none
  sendport : ℕ := 0
  listenaddr : Option Bytes := none
  listenport : ℕ := 0
  requestListenaddr : Option Bytes := none
  interface : Option Bytes := none
  chantype : FwdChanType
  fwdType : FwdType
  /-- For Unix socket forwarding, this is the socket path. -/
  socketPath : Option Bytes := none
  deriving DecidableEq, Repr

/-- What `typedata` points to: the agent listener has the session channel there. -/
inductive Typedata
  | fwd (info : FwdListener)
  | chansess
  deriving DecidableEq, Repr

/-- The cleanup functions; the agent listener has none. -/
inductive ListenerCleanup
  | cleanupTcp
  | cleanupStreamlocal
  deriving DecidableEq, Repr

/-- `struct Listener`. -/
structure Listener where
  socks : List ℕ
  index : ℕ
  type : ListenerType
  typedata : Typedata
  cleanup : Option ListenerCleanup
  deriving DecidableEq, Repr

/-- What a name in the file system is, as far as `unlink` and `bind` are concerned. -/
inductive FileKind
  | socket
  | directory
  | other
  deriving DecidableEq, Repr

/-- The state that forwarding requests work on. -/
structure Forwards where
  /-- `ses.listeners`, of length `ses.listensize`. -/
  listeners : List (Option Listener)
  maxfd : ℕ
  /-- The open descriptors. -/
  fds : FdTable Unit
  /-- The arguments of the calls of `close`. -/
  closes : List ℕ
  files : Bytes → Option FileKind
  /-- Replies to global requests. -/
  sent : List Bytes
  /-- `LOG_INFO` messages. -/
  log : List String

namespace Forwards

/-- The state after `listeners_initialise`. -/
def initialise (maxfd : ℕ) (fds : FdTable Unit) (files : Bytes → Option FileKind) : Forwards :=
  ⟨[none], maxfd, fds, [], files, [], []⟩

/-- `close` and `m_close`: a number that is not open is no error. -/
def close (s : Forwards) (fd : ℕ) : Forwards :=
  { s with fds := s.fds.release fd, closes := s.closes ++ [fd] }

/-- The loop that closes the sockets of a listener. -/
def closeAll (s : Forwards) (socks : List ℕ) : Forwards := socks.foldl close s

/-- `unlink`, where the permissions allow it; directories stay. -/
def unlink (s : Forwards) (mayUnlink : Bool) (path : Bytes) : Forwards :=
  if mayUnlink ∧ s.files path ≠ some .directory then
    { s with files := Function.update s.files path none }
  else s

/-- `dropbear_log`. -/
def info (s : Forwards) (message : String) : Forwards := { s with log := s.log ++ [message] }

/-- The first slot that is free, or the number of slots. -/
def freeSlot (s : Forwards) : ℕ := s.listeners.findIdx Option.isNone

/-- There is a free slot or one can be added. -/
def HasRoom (s : Forwards) : Prop :=
  s.freeSlot < s.listeners.length ∨ s.listeners.length ≤ maxListeners

instance (s : Forwards) : Decidable s.HasRoom := inferInstanceAs (Decidable (_ ∨ _))

/-- `new_listener`. -/
def newListener (s : Forwards) (socks : List ℕ) (type : ListenerType) (typedata : Typedata)
    (cleanup : Option ListenerCleanup) : Option Listener × Forwards :=
  if s.freeSlot = s.listeners.length ∧ s.listeners.length > maxListeners then
    (none, s.closeAll socks)
  else
    let listeners := if s.freeSlot = s.listeners.length then
      s.listeners ++ List.replicate listenerExtendSize none else s.listeners
    let newlisten : Listener := ⟨socks, s.freeSlot, type, typedata, cleanup⟩
    (some newlisten, { s with
      listeners := listeners.set s.freeSlot (some newlisten)
      maxfd := socks.foldl max s.maxfd })

/-- `get_listener`; an argument of an `enum` type can be any number. -/
def getListener (s : Forwards) (type : ℕ) (accepts : Typedata → Bool) : Option Listener :=
  (s.listeners.find? fun slot => slot.any fun l =>
    l.type.toNat == type && accepts l.typedata).join

/-- `cleanup_tcp` only frees memory; `cleanup_streamlocal` also removes the socket. -/
def cleanup (s : Forwards) (mayUnlink : Bool) (listener : Listener) : Forwards :=
  match listener.cleanup, listener.typedata with
  | some .cleanupStreamlocal, .fwd info =>
    match info.socketPath with
    | some path => s.unlink mayUnlink path
    | none => s
  | _, _ => s

/-- `remove_listener`. -/
def removeListener (s : Forwards) (mayUnlink : Bool) (listener : Listener) : Forwards :=
  let s := (s.cleanup mayUnlink listener).closeAll listener.socks
  { s with listeners := s.listeners.set listener.index none }

/-! ### The table -/

/-- The listener in a slot. -/
def listener (s : Forwards) (i : ℕ) : Option Listener := s.listeners[i]?.join

variable {s : Forwards} (socks : List ℕ) (type : ListenerType) (typedata : Typedata)
variable (cleanup : Option ListenerCleanup)

@[simp] theorem closeAll_singleton (fd : ℕ) : s.closeAll [fd] = s.close fd := rfl

/-- `new_listener` on a full table closes the sockets itself. -/
theorem newListener_full (h : ¬ s.HasRoom) :
    s.newListener socks type typedata cleanup = (none, s.closeAll socks) := by
  obtain ⟨hslot, hlen⟩ := not_or.1 h
  refine if_pos ⟨Nat.le_antisymm List.findIdx_le_length (Nat.le_of_not_lt hslot), ?_⟩
  exact Nat.lt_of_not_le hlen

/-- `new_listener` with room: one slot has the new listener, and all others are what they were. -/
theorem newListener_room (h : s.HasRoom) :
    ∃ s', s.newListener socks type typedata cleanup =
        (some ⟨socks, s.freeSlot, type, typedata, cleanup⟩, s') ∧
      s.listener s.freeSlot = none ∧
      (∀ i, s'.listener i = if i = s.freeSlot then
        some ⟨socks, s.freeSlot, type, typedata, cleanup⟩ else s.listener i) ∧
      s'.fds = s.fds ∧ s'.closes = s.closes ∧ s'.files = s.files ∧ s'.sent = s.sent ∧
      s'.log = s.log := by
  have hfree : s.listener s.freeSlot = none := FdTable.owner_lowest ⟨s.listeners⟩
  have hroom : ¬ (s.freeSlot = s.listeners.length ∧ s.listeners.length > maxListeners) := by
    rintro ⟨hslot, hlen⟩
    rcases h with h | h <;> omega
  refine ⟨_, if_neg hroom, hfree, ?_, rfl, rfl, rfl, rfl, rfl⟩
  intro i
  -- the slots are a table in which the lowest free number is taken
  have hlast := FdTable.owner_alloc (⟨s.listeners⟩ : FdTable Listener)
    ⟨socks, s.freeSlot, type, typedata, cleanup⟩ i
  refine Eq.trans ?_ hlast
  unfold listener FdTable.owner FdTable.alloc
  dsimp only
  by_cases hslot : s.freeSlot = s.listeners.length
  · have hlow : ¬ FdTable.lowest ⟨s.listeners⟩ < s.listeners.length :=
      Nat.not_lt_of_le (Nat.le_of_eq hslot.symm)
    rw [if_pos hslot, if_neg hlow, hslot, List.set_append_right _ _ (Nat.le_refl _), Nat.sub_self]
    rfl
  · have hlow : FdTable.lowest ⟨s.listeners⟩ < s.listeners.length :=
      Nat.lt_of_le_of_ne List.findIdx_le_length hslot
    rw [if_neg hslot, if_pos hlow]
    rfl

end Forwards

end Ps4Dropbear
