import Ps4Dropbear.Buffer.Content
import Ps4Dropbear.Buffer.LinkedList
import Ps4Dropbear.LTS.Basic

/-!
# The queue of packets to write

`queue.c`, the two functions of `netio.c` that turn a queue into an `iovec` and take off what has
been written, and `write_packet` and `writebuf_enqueue`.  `m_malloc` returns any address at which
nothing is allocated; following a pointer to nothing is what `sigsegv_handler` reports.  A link owns
its packet, so `buf_incrpos` on a queued packet is a store into the link.

* `Queue.Holds` : the packets of a queue, in order.
* `Queue.dequeue_holds`, `Queue.enqueue_holds`, ... : what the functions do to them.
* `packetQueueToIovec_holds`, `packetQueueConsume_holds` : what is offered, and what is left.
* `writeQueue_integrity` : **what has been written and what is queued is what was enqueued**.
-/

namespace Ps4Dropbear

/-- `struct Queue`, with the links in memory. -/
structure Queue (α : Type) where
  links : ℕ → Option (Link α)
  head : Option ℕ
  tail : Option ℕ
  count : ℕ

namespace Queue

variable {α : Type}

/-- The link behind a pointer. -/
def deref (links : ℕ → Option (Link α)) (p : Option ℕ) : Except Exit (Link α) :=
  match p.bind links with
  | some l => .ok l
  | none => .error ("Aiee, segfault! You should probably report " ++
      "this as a bug to the developer\n")

/-- `initqueue`. -/
def initqueue : Queue α := ⟨fun _ => none, none, none, 0⟩

/-- `isempty`. -/
def isempty (q : Queue α) : Bool := q.head.isNone

/-- `dequeue`. -/
def dequeue (q : Queue α) : Except Exit (α × Queue α) :=
  if q.isempty then dropbearExit "Failed assertion: !isempty(queue)"
  else do
    let oldhead ← deref q.links q.head
    let links := match q.head with
      | some a => Function.update q.links a none
      | none => q.links
    if oldhead.link.isSome then
      return (oldhead.item,
        { q with links := links, head := oldhead.link, count := u32 (q.count - 1) })
    else
      return (oldhead.item,
        { links := links, head := none, tail := none, count := u32 (q.count - 1) })

/-- `examine`. -/
def examine (q : Queue α) : Except Exit α :=
  if q.isempty then dropbearExit "Failed assertion: !isempty(queue)"
  else do
    let l ← deref q.links q.head
    return l.item

/-- `enqueue`, with the address that `m_malloc` returns. -/
def enqueue (q : Queue α) (item : α) (newlink : ℕ) : Except Exit (Queue α) := do
  let links := Function.update q.links newlink (some ⟨item, none⟩)
  let links ← (match q.tail with
    | none => .ok links
    | some t => do
      let l ← deref links (some t)
      return Function.update links t (some { l with link := some newlink }))
  return { links := links, head := if q.head.isNone then some newlink else q.head,
           tail := some newlink, count := u32 (q.count + 1) }

/-- A store into the item of the first link. -/
def setHead (q : Queue α) (item : α) : Queue α :=
  match q.head with
  | none => q
  | some a => { q with links := Function.update q.links a ((q.links a).map ({ · with item })) }

/-- The items of a queue, in order. -/
def Holds (q : Queue α) (items : List α) : Prop :=
  ∃ l : List (ℕ × α), l.map Prod.snd = items ∧ Linked q.links q.head l ∧
    (l.map Prod.fst).Nodup ∧ q.tail = l.getLast?.map Prod.fst ∧ q.count = items.length % 2 ^ 32

variable {q : Queue α} {items : List α} {x y : α} {addr : ℕ}

theorem initqueue_holds : (initqueue : Queue α).Holds [] :=
  ⟨[], rfl, rfl, List.nodup_nil, rfl, rfl⟩

theorem Holds.isempty_iff (h : q.Holds items) : q.isempty = items.isEmpty := by
  obtain ⟨l, rfl, hlinked, -⟩ := h
  unfold isempty
  rw [hlinked.head_eq]
  cases l <;> rfl

theorem Holds.deref_head (h : q.Holds (x :: items)) :
    ∃ next, deref q.links q.head = .ok ⟨x, next⟩ := by
  obtain ⟨l, hl, hlinked, -⟩ := h
  cases l with
  | nil => cases hl
  | cons c rest =>
    obtain ⟨a, z⟩ := c
    obtain ⟨rfl, -⟩ := List.cons.inj hl
    obtain ⟨hhead, next, hlink, -⟩ := hlinked
    refine ⟨next, ?_⟩
    unfold deref
    rw [hhead, Option.bind_some, hlink]

theorem Holds.examine (h : q.Holds (x :: items)) : q.examine = .ok x := by
  obtain ⟨next, hderef⟩ := h.deref_head
  unfold Queue.examine
  rw [h.isempty_iff, List.isEmpty_cons, if_neg Bool.false_ne_true, hderef]
  rfl

theorem Holds.dequeue (h : q.Holds (x :: items)) :
    ∃ q', q.dequeue = .ok (x, q') ∧ q'.Holds items := by
  have hempty := h.isempty_iff
  obtain ⟨l, hl, hlinked, hnodup, htail, hcount⟩ := h
  cases l with
  | nil => cases hl
  | cons c rest =>
    obtain ⟨a, z⟩ := c
    obtain ⟨rfl, rfl⟩ := List.cons.inj hl
    have hhead : q.head = some a := hlinked.1
    rw [List.map_cons, List.nodup_cons] at hnodup
    obtain ⟨next, hlink, hrest⟩ := hlinked.tail hnodup.1
    have hderef : deref q.links q.head = .ok ⟨z, next⟩ := by
      unfold deref
      rw [hhead, Option.bind_some, hlink]
    have hcount' : u32 ((q.count : ℤ) - 1) = (rest.map Prod.snd).length % 2 ^ 32 := by
      rw [List.length_cons] at hcount
      unfold u32
      omega
    unfold Queue.dequeue
    rw [hempty, List.isEmpty_cons, if_neg Bool.false_ne_true, hderef, ok_bind, hhead]
    dsimp only
    have hnext := hrest.head_eq
    cases rest with
    | nil =>
      obtain rfl : next = none := hnext
      rw [Option.isSome_none, if_neg Bool.false_ne_true]
      exact ⟨_, rfl, [], rfl, rfl, List.nodup_nil, rfl, hcount'⟩
    | cons c' rest' =>
      obtain rfl : next = some c'.1 := hnext
      rw [Option.isSome_some, if_pos rfl]
      refine ⟨_, rfl, c' :: rest', rfl, hrest, hnodup.2, ?_, hcount'⟩
      rw [htail, List.getLast?_cons_cons]

theorem Holds.setHead (h : q.Holds (x :: items)) (y : α) : (q.setHead y).Holds (y :: items) := by
  obtain ⟨l, hl, hlinked, hnodup, htail, hcount⟩ := h
  cases l with
  | nil => cases hl
  | cons c rest =>
    obtain ⟨a, z⟩ := c
    obtain ⟨rfl, rfl⟩ := List.cons.inj hl
    have hhead : q.head = some a := hlinked.1
    obtain ⟨next, hlink, hset⟩ := hlinked.set_head (y := y) (List.nodup_cons.1 hnodup).1
    unfold Queue.setHead
    rw [hhead]
    dsimp only
    rw [hlink]
    rw [hhead] at hset
    refine ⟨(a, y) :: rest, rfl, hset, hnodup, ?_, hcount⟩
    rw [htail]
    cases rest <;> rfl

/-- No other memory is taken. -/
theorem Holds.enqueue (h : q.Holds items) (hfree : q.links addr = none) (x : α) :
    ∃ q', q.enqueue x addr = .ok q' ∧ q'.Holds (items ++ [x]) ∧
      ∀ a, a ≠ addr → q.links a = none → q'.links a = none := by
  obtain ⟨l, rfl, hlinked, hnodup, htail, hcount⟩ := h
  have hnew : addr ∉ l.map Prod.fst := fun hmem => hlinked.allocated hmem hfree
  have hcount' : u32 ((q.count : ℤ) + 1) = (l.map Prod.snd ++ [x]).length % 2 ^ 32 := by
    rw [List.length_append, List.length_singleton]
    unfold u32
    omega
  unfold Queue.enqueue
  rcases List.eq_nil_or_concat' l with rfl | ⟨front, c, rfl⟩
  · have htail' : q.tail = none := htail
    have hhead : q.head = none := hlinked
    rw [htail', hhead]
    refine ⟨_, rfl, ⟨[(addr, x)], rfl, ⟨rfl, none, Function.update_self .., rfl⟩,
      List.nodup_singleton _, rfl, hcount'⟩, fun a ha hnone => ?_⟩
    exact (Function.update_of_ne ha _ _).trans hnone
  · obtain ⟨t, z⟩ := c
    have htail' : q.tail = some t := by
      rw [htail, List.getLast?_concat]
      rfl
    have hhead : q.head.isNone = false := by
      rw [hlinked.head_eq]
      cases front <;> rfl
    have ht : t ≠ addr := fun heq => hnew (by rw [← heq]; simp)
    have hlast := hlinked.last
    have hderef : deref (Function.update q.links addr (some ⟨x, none⟩)) (some t) =
        .ok ⟨z, none⟩ := by
      unfold deref
      rw [Option.bind_some, Function.update_of_ne ht, hlast]
    rw [htail']
    dsimp only
    rw [hderef, hhead, ok_bind]
    refine ⟨_, rfl, ⟨front ++ [(t, z), (addr, x)], ?_, hlinked.append hnodup hnew, ?_, ?_,
      hcount'⟩, ?_⟩
    · simp
    · have hconcat : front ++ [(t, z), (addr, x)] = front ++ [(t, z)] ++ [(addr, x)] := by simp
      rw [hconcat, List.map_append, List.nodup_append]
      refine ⟨hnodup, List.nodup_singleton _, ?_⟩
      intro b hb c hc heq
      obtain rfl : c = addr := List.mem_singleton.1 hc
      exact hnew (heq ▸ hb)
    · simp
    · intro a ha hnone
      have hat : a ≠ t := by
        rintro rfl
        rw [hlast] at hnone
        cases hnone
      exact (Function.update_of_ne hat _ _).trans ((Function.update_of_ne ha _ _).trans hnone)

end Queue

/-! ### Packets in a queue -/

/-- The bytes of the packets that have not been written. -/
def unwritten (packets : List Buffer) : Bytes := packets.flatMap Buffer.rest

/-- The loop of `packet_queue_to_iovec`: `n` more entries from the link `l` on. -/
def iovecLoop (links : ℕ → Option (Link Buffer)) : ℕ → Option ℕ → Except Exit (List Bytes)
  | 0, _ => .ok []
  | n + 1, l => do
    let l ← Queue.deref links l
    let writebuf := l.item
    let len := writebuf.len - writebuf.pos
    if ¬ len > 0 then dropbearExit "Failed assertion: len > 0"
    else
      let base ← bufGetptr writebuf len
      let iov ← iovecLoop links n l.link
      return base :: iov

/-- `packet_queue_to_iovec`, for an array of `iovCount` entries. -/
def packetQueueToIovec (iovMax : ℕ) (queue : Queue Buffer) (iovCount : ℕ) :
    Except Exit (List Bytes) :=
  iovecLoop queue.links (min (min queue.count iovMax) iovCount) queue.head

/-- The loop of `packet_queue_consume`.  Every packet that it takes off has a byte, so that
`written` turns are enough; without them it would not end. -/
def consumeLoop : ℕ → Queue Buffer → ℕ → Except Exit (Queue Buffer)
  | _, queue, 0 => .ok queue
  | 0, _, _ + 1 => .error "packet_queue_consume does not end"
  | turns + 1, queue, written + 1 => do
    let writebuf ← queue.examine
    let len := writebuf.len - writebuf.pos
    if len > written + 1 then
      -- partial buffer write
      let writebuf ← bufIncrpos writebuf (written + 1)
      return queue.setHead writebuf
    else
      let (_, queue) ← queue.dequeue
      consumeLoop turns queue (written + 1 - len)

/-- `packet_queue_consume`. -/
def packetQueueConsume (queue : Queue Buffer) (written : ℕ) : Except Exit (Queue Buffer) :=
  consumeLoop written queue written

/-- What `packet_queue_consume` does to the packets. -/
def consume : List Buffer → ℕ → List Buffer
  | [], _ => []
  | packet :: packets, written =>
    if written = 0 then packet :: packets
    else if packet.len - packet.pos > written then packet.advance written :: packets
    else consume packets (written - (packet.len - packet.pos))

/-- A packet with bytes left. -/
def Buffer.Pending (b : Buffer) : Prop := b.pos < b.len

section Packets

variable {links : ℕ → Option (Link Buffer)} {p : Option ℕ} {l : List (ℕ × Buffer)}
variable {queue : Queue Buffer} {packets : List Buffer} {n iovMax iovCount written : ℕ}

@[simp] theorem unwritten_nil : unwritten [] = [] := rfl

@[simp] theorem unwritten_cons (packet : Buffer) (packets : List Buffer) :
    unwritten (packet :: packets) = packet.rest ++ unwritten packets :=
  List.flatMap_cons

@[simp] theorem unwritten_append (packets more : List Buffer) :
    unwritten (packets ++ more) = unwritten packets ++ unwritten more :=
  List.flatMap_append

theorem unwritten_take_le (packets : List Buffer) (n : ℕ) :
    (unwritten (packets.take n)).length ≤ (unwritten packets).length := by
  have hsplit : unwritten packets = unwritten (packets.take n) ++ unwritten (packets.drop n) := by
    rw [← unwritten_append, List.take_append_drop]
  rw [hsplit, List.length_append]
  exact Nat.le_add_right _ _

theorem unwritten_take_prefix (packets : List Buffer) (n k : ℕ)
    (hk : k ≤ (unwritten (packets.take n)).length) :
    (unwritten (packets.take n)).take k = (unwritten packets).take k := by
  have hsplit : unwritten packets = unwritten (packets.take n) ++ unwritten (packets.drop n) := by
    rw [← unwritten_append, List.take_append_drop]
  rw [hsplit, List.take_append_of_le_length hk]

/-- Packets with bytes left are not more than their bytes. -/
theorem length_le_unwritten (h : ∀ b ∈ packets, Buffer.Pending b) :
    packets.length ≤ (unwritten packets).length := by
  induction packets with
  | nil => exact Nat.le_refl 0
  | cons packet packets ih =>
    have hpacket : packet.pos < packet.len := h packet List.mem_cons_self
    have hrest := ih fun b hb => h b (List.mem_cons_of_mem _ hb)
    have hlen := packet.length_rest
    rw [unwritten_cons, List.length_cons, List.length_append]
    omega

/-- The assertion of `packet_queue_to_iovec` holds, and the entries are the packets. -/
theorem iovecLoop_linked (h : Linked links p l) (hn : n ≤ l.length)
    (hpending : ∀ b ∈ l.map Prod.snd, Buffer.Pending b) :
    iovecLoop links n p = .ok (((l.map Prod.snd).take n).map Buffer.rest) := by
  induction n generalizing p l with
  | zero =>
    rw [List.take_zero]
    rfl
  | succ n ih =>
    cases l with
    | nil => exact absurd hn (Nat.not_succ_le_zero n)
    | cons c rest =>
      obtain ⟨a, packet⟩ := c
      obtain ⟨rfl, next, hlink, hrest⟩ := h
      have hpacket : packet.pos < packet.len := hpending packet List.mem_cons_self
      have hderef : Queue.deref links (some a) = .ok ⟨packet, next⟩ := by
        unfold Queue.deref
        rw [Option.bind_some, hlink]
      have hptr : bufGetptr packet (packet.len - packet.pos) = .ok packet.rest :=
        bufGetptr_ok.2 ⟨packet.length_rest, [], (List.append_nil _).symm⟩
      have hmore := ih hrest (Nat.le_of_succ_le_succ hn)
        fun b hb => hpending b (List.mem_cons_of_mem _ hb)
      unfold iovecLoop
      rw [hderef, ok_bind]
      dsimp only
      rw [if_neg (by omega), hptr, ok_bind, hmore]
      rfl

theorem packetQueueToIovec_holds (h : queue.Holds packets)
    (hpending : ∀ b ∈ packets, Buffer.Pending b) :
    packetQueueToIovec iovMax queue iovCount =
      .ok ((packets.take (min (min queue.count iovMax) iovCount)).map Buffer.rest) := by
  obtain ⟨l, rfl, hlinked, -, -, hcount⟩ := h
  have hle := Nat.mod_le (l.map Prod.snd).length (2 ^ 32)
  rw [List.length_map] at hle hcount
  exact iovecLoop_linked hlinked (by omega) hpending

/-- `consume` takes the bytes off the front. -/
theorem unwritten_consume (h : written ≤ (unwritten packets).length) :
    unwritten (consume packets written) = (unwritten packets).drop written := by
  induction packets generalizing written with
  | nil => simp [consume]
  | cons packet packets ih =>
    have hlen := packet.length_rest
    rw [unwritten_cons, List.length_append] at h
    unfold consume
    split_ifs with hzero hpart
    · rw [hzero, List.drop_zero]
    · rw [unwritten_cons, unwritten_cons, Buffer.rest_advance,
        List.drop_append_of_le_length (by omega)]
    · have hle : written - (packet.len - packet.pos) ≤ (unwritten packets).length := by omega
      have hdone : packet.rest.drop written = [] := List.drop_of_length_le (by omega)
      rw [ih hle, unwritten_cons, List.drop_append, hdone, hlen, List.nil_append]

theorem consume_pending (h : ∀ b ∈ packets, Buffer.Pending b) :
    ∀ b ∈ consume packets written, Buffer.Pending b := by
  induction packets generalizing written with
  | nil => simp [consume]
  | cons packet packets ih =>
    have hrest : ∀ b ∈ packets, Buffer.Pending b := fun b hb => h b (List.mem_cons_of_mem _ hb)
    unfold consume
    split_ifs with hzero hpart
    · exact h
    · intro b hb
      rcases List.mem_cons.1 hb with rfl | hb
      · have hle := packet.pos_le
        change min (packet.pos + written) packet.len < packet.len
        omega
      · exact hrest b hb
    · exact ih hrest

/-- `packet_queue_consume` ends, without an exit. -/
theorem consumeLoop_holds {turns : ℕ} (h : queue.Holds packets)
    (hpending : ∀ b ∈ packets, Buffer.Pending b) (hle : written ≤ (unwritten packets).length)
    (hturns : written ≤ turns) :
    ∃ queue', consumeLoop turns queue written = .ok queue' ∧
      queue'.Holds (consume packets written) := by
  induction turns generalizing queue packets written with
  | zero =>
    obtain rfl := Nat.le_zero.1 hturns
    refine ⟨queue, rfl, ?_⟩
    cases packets with
    | nil => exact h
    | cons packet packets => exact h
  | succ turns ih =>
    cases written with
    | zero =>
      refine ⟨queue, rfl, ?_⟩
      cases packets with
      | nil => exact h
      | cons packet packets => exact h
    | succ written =>
      cases packets with
      | nil => exact absurd hle (Nat.not_succ_le_zero written)
      | cons packet packets =>
        have hpacket : packet.pos < packet.len := hpending packet List.mem_cons_self
        have hlen := packet.length_rest
        rw [unwritten_cons, List.length_append] at hle
        unfold consumeLoop consume
        rw [h.examine, ok_bind, if_neg (Nat.succ_ne_zero written)]
        dsimp only
        split_ifs with hpart
        · have hincr : bufIncrpos packet (written + 1) = .ok (packet.advance (written + 1)) :=
            bufIncrpos_ok.2 ⟨by omega, rfl⟩
          rw [hincr]
          exact ⟨_, rfl, h.setHead _⟩
        · obtain ⟨queue', hdequeue, h'⟩ := h.dequeue
          rw [hdequeue]
          exact ih h' (fun b hb => hpending b (List.mem_cons_of_mem _ hb)) (by omega) (by omega)

theorem packetQueueConsume_holds (h : queue.Holds packets)
    (hpending : ∀ b ∈ packets, Buffer.Pending b) (hle : written ≤ (unwritten packets).length) :
    ∃ queue', packetQueueConsume queue written = .ok queue' ∧
      queue'.Holds (consume packets written) :=
  consumeLoop_holds h hpending hle (Nat.le_refl _)

end Packets

/-! ### The writer -/

/-- What `writev` returns. -/
inductive WritevResult where
  | wrote (n : ℕ)
  /-- `EINTR` or `EAGAIN`. -/
  | again
  | failed (err : String)
  deriving DecidableEq

/-- The part of `ses` that is about writing, and what the socket has taken. -/
structure WriteState where
  writequeue : Queue Buffer
  writequeueLen : ℕ
  sent : Bytes

/-- What happens to the queue. -/
inductive WriteCall where
  /-- `writebuf_enqueue`, with the address of the new link. -/
  | enqueue (writebuf : Buffer) (newlink : ℕ)
  | writePacket (written : WritevResult)

namespace WriteState

/-- The queue of a new session. -/
def start : WriteState := ⟨Queue.initqueue, 0, []⟩

/-- `writebuf_enqueue`. -/
def writebufEnqueue (s : WriteState) (writebuf : Buffer) (newlink : ℕ) :
    Except Exit WriteState := do
  let writebuf ← bufSetpos writebuf 0
  let queue ← s.writequeue.enqueue writebuf newlink
  return { s with writequeue := queue, writequeueLen := u32 (s.writequeueLen + writebuf.len) }

/-- `write_packet`, on a system with `IOV_MAX`. -/
def writePacket (iovMax : ℕ) (s : WriteState) (written : WritevResult) :
    Except Exit WriteState :=
  if s.writequeue.isempty then dropbearExit "Failed assertion: !isempty(&ses.writequeue)"
  else do
    let iov ← packetQueueToIovec iovMax s.writequeue 50
    match written with
    | .again => return s
    | .failed err => dropbearExit ("Error writing: " ++ err)
    | .wrote n =>
      let queue ← packetQueueConsume s.writequeue n
      -- `svr_remoteclosed`
      if n = 0 then dropbearExit "Exited normally"
      else return { writequeue := queue, writequeueLen := u32 (s.writequeueLen - n),
                    sent := s.sent ++ iov.flatten.take n }

/-- One call. -/
def call (iovMax : ℕ) (s : WriteState) : WriteCall → Except Exit WriteState
  | .enqueue writebuf newlink => s.writebufEnqueue writebuf newlink
  | .writePacket written => writePacket iovMax s written

/-- A packet has bytes and `m_malloc` returns free memory; `write_packet` is called when there is
something to write, and `writev` takes at most what it is offered. -/
def allowed (iovMax : ℕ) (s : WriteState) : WriteCall → Bool
  | .enqueue writebuf newlink => 0 < writebuf.len && (s.writequeue.links newlink).isNone
  | .writePacket written => !s.writequeue.isempty &&
      match written with
      | .wrote n => (packetQueueToIovec iovMax s.writequeue 50).toOption.all (n ≤ ·.flatten.length)
      | _ => true

/-- What holds when the packets `enqueued` have been enqueued. -/
def Holds (enqueued : Bytes) (s : WriteState) : Prop :=
  ∃ packets, s.writequeue.Holds packets ∧ (∀ b ∈ packets, Buffer.Pending b) ∧
    s.sent ++ unwritten packets = enqueued ∧
    s.writequeueLen = (unwritten packets).length % 2 ^ 32

end WriteState

namespace WriteCall

/-- The bytes that a call adds to the queue. -/
def enqueued : WriteCall → Bytes
  | .enqueue writebuf _ => writebuf.contents
  | .writePacket _ => []

end WriteCall

/-- The queue and its users. -/
def writeQueueUse (iovMax : ℕ) : LTS WriteState WriteCall where
  step s l := if s.allowed iovMax l then (s.call iovMax l).toOption else none

/-- The bytes that a run has enqueued. -/
def enqueuedBy (ls : List WriteCall) : Bytes := ls.flatMap WriteCall.enqueued

namespace WriteState

variable {iovMax : ℕ} {s s' : WriteState} {enqueued : Bytes} {l : WriteCall}

theorem holds_start : start.Holds [] :=
  ⟨[], Queue.initqueue_holds, nofun, rfl, rfl⟩

theorem Holds.writebufEnqueue {writebuf : Buffer} {newlink : ℕ} (h : s.Holds enqueued)
    (hlen : 0 < writebuf.len) (hfree : s.writequeue.links newlink = none) :
    ∃ s', s.writebufEnqueue writebuf newlink = .ok s' ∧ s'.Holds (enqueued ++ writebuf.contents) ∧
      s'.sent = s.sent ∧ ∀ a, a ≠ newlink → s.writequeue.links a = none →
        s'.writequeue.links a = none := by
  obtain ⟨packets, hqueue, hpending, hsent, hcount⟩ := h
  have hself : writebuf.Has writebuf.data.length writebuf.contents writebuf.pos := ⟨rfl, rfl, rfl⟩
  obtain ⟨b, hset, hb⟩ := hself.setpos (n := 0) (Nat.zero_le _)
  have hrest : b.rest = writebuf.contents := by rw [hb.rest, List.drop_zero]
  have hblen : b.len = writebuf.contents.length := hb.len
  have hwlen : writebuf.len = writebuf.contents.length := hself.len
  obtain ⟨queue, henqueue, hqueue', hfrees⟩ := hqueue.enqueue hfree b
  unfold WriteState.writebufEnqueue
  rw [hset, ok_bind, henqueue]
  refine ⟨_, rfl, ⟨packets ++ [b], hqueue', ?_, ?_, ?_⟩, rfl, hfrees⟩
  · intro c hc
    rcases List.mem_append.1 hc with hc | hc
    · exact hpending c hc
    · obtain rfl := List.mem_singleton.1 hc
      have hpos := hb.pos
      change c.pos < c.len
      omega
  · rw [unwritten_append, ← List.append_assoc, hsent]
    simp [hrest]
  · change u32 ((s.writequeueLen : ℤ) + b.len) = _
    rw [unwritten_append, unwritten_cons, unwritten_nil, List.append_nil, List.length_append, hrest,
      ← hblen]
    unfold u32
    omega

/-- `write_packet` goes on, or the peer has closed the connection, or `writev` has failed. -/
theorem Holds.writePacket {written : WritevResult} (h : s.Holds enqueued)
    (hallowed : s.allowed iovMax (.writePacket written) = true) :
    (∃ s', WriteState.writePacket iovMax s written = .ok s' ∧ s'.Holds enqueued) ∨
      (written = .wrote 0 ∧
        WriteState.writePacket iovMax s written = dropbearExit "Exited normally") ∨
      ∃ err, written = .failed err ∧
        WriteState.writePacket iovMax s written = dropbearExit ("Error writing: " ++ err) := by
  obtain ⟨packets, hqueue, hpending, hsent, hcount⟩ := h
  have hiov : packetQueueToIovec iovMax s.writequeue 50 = _ :=
    packetQueueToIovec_holds hqueue hpending
  unfold WriteState.allowed at hallowed
  rw [Bool.and_eq_true, Bool.not_eq_true', hiov] at hallowed
  unfold WriteState.writePacket
  rw [hallowed.1, if_neg Bool.false_ne_true, hiov, ok_bind]
  cases written with
  | again => exact .inl ⟨s, rfl, packets, hqueue, hpending, hsent, hcount⟩
  | failed err => exact .inr (.inr ⟨err, rfl, rfl⟩)
  | wrote n =>
    have hoffered := of_decide_eq_true hallowed.2
    generalize min (min s.writequeue.count iovMax) 50 = k at hoffered
    have hflat : ((packets.take k).map Buffer.rest).flatten = unwritten (packets.take k) :=
      List.flatMap_def.symm
    rw [hflat] at hoffered
    have hle := hoffered.trans (unwritten_take_le packets k)
    obtain ⟨queue, hconsume, hqueue'⟩ := packetQueueConsume_holds hqueue hpending hle
    dsimp only
    rw [hconsume, ok_bind]
    by_cases hzero : n = 0
    · exact .inr (.inl ⟨by rw [hzero], if_pos hzero⟩)
    · left
      rw [if_neg hzero, hflat, unwritten_take_prefix packets k n hoffered]
      refine ⟨_, rfl, consume packets n, hqueue', consume_pending hpending, ?_, ?_⟩
      · rw [unwritten_consume hle, List.append_assoc, List.take_append_drop]
        exact hsent
      · change u32 ((s.writequeueLen : ℤ) - n) = _
        rw [unwritten_consume hle, List.length_drop]
        unfold u32
        omega

theorem Holds.call (h : s.Holds enqueued) (hallowed : s.allowed iovMax l = true) :
    (∃ s', s.call iovMax l = .ok s' ∧ s'.Holds (enqueued ++ l.enqueued)) ∨
      (l = .writePacket (.wrote 0) ∧ s.call iovMax l = dropbearExit "Exited normally") ∨
      ∃ err, l = .writePacket (.failed err) ∧
        s.call iovMax l = dropbearExit ("Error writing: " ++ err) := by
  cases l with
  | enqueue writebuf newlink =>
    unfold allowed at hallowed
    rw [Bool.and_eq_true, decide_eq_true_iff, Option.isNone_iff_eq_none] at hallowed
    obtain ⟨s', hok, h', -⟩ := h.writebufEnqueue hallowed.1 hallowed.2
    exact .inl ⟨s', hok, h'⟩
  | writePacket written =>
    rcases h.writePacket hallowed with ⟨s', hok, h'⟩ | ⟨rfl, hexit⟩ | ⟨err, rfl, hexit⟩
    · exact .inl ⟨s', hok, by rwa [WriteCall.enqueued, List.append_nil]⟩
    · exact .inr (.inl ⟨rfl, hexit⟩)
    · exact .inr (.inr ⟨err, rfl, hexit⟩)

theorem Holds.step (h : s.Holds enqueued) (hstep : (writeQueueUse iovMax).step s l = some s') :
    s'.Holds (enqueued ++ l.enqueued) := by
  unfold writeQueueUse at hstep
  dsimp only at hstep
  split_ifs at hstep with hallowed
  have hcall := toOption_eq_some.1 hstep
  rcases h.call hallowed with ⟨t, hok, ht⟩ | ⟨-, hexit⟩ | ⟨err, -, hexit⟩
  · rw [hok] at hcall
    cases hcall
    exact ht
  · rw [hexit] at hcall
    cases hcall
  · rw [hexit] at hcall
    cases hcall

theorem Holds.run {ls : List WriteCall} (h : s.Holds enqueued)
    (hrun : (writeQueueUse iovMax).exec s ls = some s') : s'.Holds (enqueued ++ enqueuedBy ls) := by
  induction ls generalizing s enqueued with
  | nil =>
    cases hrun
    rwa [enqueuedBy, List.flatMap_nil, List.append_nil]
  | cons l ls ih =>
    obtain ⟨t, hstep, hrest⟩ := LTS.exec_cons_eq_some.1 hrun
    have hend := ih (h.step hstep) hrest
    rwa [List.append_assoc] at hend

/-- Packets can be enqueued one after the other, each with a link of its own. -/
theorem Holds.enqueue_all {b : Buffer} (hb : 0 < b.len) (n k : ℕ) (h : s.Holds enqueued)
    (hfree : ∀ a, k ≤ a → s.writequeue.links a = none) :
    ∃ s', (writeQueueUse iovMax).exec s ((List.range' k n).map fun a => .enqueue b a) = some s' ∧
      s'.sent = s.sent := by
  induction n generalizing s k enqueued with
  | zero => exact ⟨s, rfl, rfl⟩
  | succ n ih =>
    obtain ⟨t, hok, ht, hsent, hfrees⟩ := h.writebufEnqueue hb (hfree k (Nat.le_refl k))
    obtain ⟨s', hrun, hs'⟩ := ih (k + 1) ht fun a ha => hfrees a (by omega) (hfree a (by omega))
    have hallowed : s.allowed iovMax (.enqueue b k) = true := by
      change (decide (0 < b.len) && (s.writequeue.links k).isNone) = true
      rw [hfree k (Nat.le_refl k), decide_eq_true hb]
      rfl
    refine ⟨s', ?_, hs'.trans hsent⟩
    rw [List.range'_succ, List.map_cons]
    exact LTS.exec_cons_eq_some.2 ⟨t, (if_pos hallowed).trans (toOption_eq_some.2 hok), hrun⟩

end WriteState

/-- **The write queue**: after every run of packets enqueued and of calls of `write_packet`, with
any results of `writev`, the bytes that the socket has taken and those of the queued packets are
the bytes enqueued, in order; `writequeue_len` and `count` are the bytes and the packets in the
queue modulo `2^32`, and so exact while less than `2^32` bytes are queued; every queued packet has
bytes left; and a further call exits only for `writev`, by what it returns. -/
theorem writeQueue_integrity {iovMax : ℕ} {ls : List WriteCall} {s : WriteState}
    (hrun : (writeQueueUse iovMax).exec WriteState.start ls = some s) :
    ∃ packets, s.writequeue.Holds packets ∧ s.sent ++ unwritten packets = enqueuedBy ls ∧
      s.writequeueLen = (unwritten packets).length % 2 ^ 32 ∧
      s.writequeue.count = packets.length % 2 ^ 32 ∧
      ((unwritten packets).length < 2 ^ 32 → s.writequeueLen = (unwritten packets).length ∧
        s.writequeue.count = packets.length) ∧
      (∀ b ∈ packets, 0 < b.len - b.pos) ∧
      ∀ l, s.allowed iovMax l = true → (∃ s', s.call iovMax l = .ok s') ∨
        (l = .writePacket (.wrote 0) ∧ s.call iovMax l = dropbearExit "Exited normally") ∨
        ∃ err, l = .writePacket (.failed err) ∧
          s.call iovMax l = dropbearExit ("Error writing: " ++ err) := by
  have hs := WriteState.holds_start.run hrun
  rw [List.nil_append] at hs
  obtain ⟨packets, hqueue, hpending, hsent, hlen⟩ := hs
  have hcount : s.writequeue.count = packets.length % 2 ^ 32 := by
    obtain ⟨l, rfl, -, -, -, hcount⟩ := hqueue
    exact hcount
  refine ⟨packets, hqueue, hsent, hlen, hcount, fun hsmall => ⟨?_, ?_⟩, ?_, fun l hl => ?_⟩
  · rw [hlen, Nat.mod_eq_of_lt hsmall]
  · have hle := length_le_unwritten hpending
    rw [hcount, Nat.mod_eq_of_lt (by omega)]
  · intro b hb
    have hlt : b.pos < b.len := hpending b hb
    omega
  · rcases WriteState.Holds.call ⟨packets, hqueue, hpending, hsent, hlen⟩ hl with h | h | h
    · exact .inl (h.imp fun _ h => h.1)
    · exact .inr (.inl h)
    · exact .inr (.inr h)

/-- What `n` packets of one size count for. -/
theorem writequeueLen_enqueue_all {b : Buffer} (hb : 0 < b.len) (n : ℕ) :
    ∃ s packets, (writeQueueUse 1024).exec WriteState.start
        ((List.range' 0 n).map fun a => .enqueue b a) = some s ∧ s.writequeue.Holds packets ∧
      s.writequeueLen = n * b.len % 2 ^ 32 ∧ (unwritten packets).length = n * b.len := by
  obtain ⟨s, hrun, hsent⟩ : ∃ s, (writeQueueUse 1024).exec WriteState.start
      ((List.range' 0 n).map fun a => .enqueue b a) = some s ∧ s.sent = WriteState.start.sent :=
    WriteState.holds_start.enqueue_all hb n 0 fun _ _ => rfl
  obtain ⟨packets, hqueue, -, hall, hlen⟩ := WriteState.holds_start.run hrun
  have hnil : s.sent = [] := hsent
  have hcontents := b.length_contents
  have htotal : (unwritten packets).length = n * b.len := by
    rw [hnil, List.nil_append, List.nil_append] at hall
    rw [hall, enqueuedBy, List.flatMap_map, List.length_flatMap]
    simp only [WriteCall.enqueued, hcontents, List.map_const', List.length_range',
      List.sum_replicate_nat]
  exact ⟨s, packets, hrun, hqueue, by rw [hlen, htotal], htotal⟩

/-- A packet of `n` bytes. -/
def fullPacket (n : ℕ) (h : n ≤ bufMaxSize) : Buffer :=
  Buffer.ofBytes (List.replicate n 0) (by rwa [List.length_replicate])

/-- Five packets of `BUF_MAX_SIZE` are `5000000000` bytes, which `writequeue_len` cannot count. -/
theorem writequeueLen_wraps :
    ∃ s packets, (writeQueueUse 1024).exec WriteState.start
        ((List.range' 0 5).map fun a => .enqueue (fullPacket bufMaxSize (Nat.le_refl _)) a) = some s ∧
      s.writequeue.Holds packets ∧ s.writequeueLen ≠ (unwritten packets).length := by
  have hlen : (fullPacket bufMaxSize (Nat.le_refl _)).len = bufMaxSize := List.length_replicate
  generalize fullPacket bufMaxSize (Nat.le_refl _) = b at hlen
  obtain ⟨s, packets, hrun, hqueue, hcount, htotal⟩ :=
    writequeueLen_enqueue_all (b := b) (by rw [hlen, bufMaxSize]; decide) 5
  refine ⟨s, packets, hrun, hqueue, ?_⟩
  rw [hcount, htotal, hlen, bufMaxSize]
  decide

/-- Three packets, and a call of `writev` that ends within the second. -/
theorem writeQueue_integrity_three :
    ∃ s packets, (writeQueueUse 1024).exec WriteState.start
        [.enqueue (Buffer.ofBytes [7, 8] (by decide)) 3,
          .enqueue (Buffer.ofBytes [9, 10, 11] (by decide)) 5,
          .enqueue (Buffer.ofBytes [12] (by decide)) 4, .writePacket (.wrote 3)] = some s ∧
      s.sent = [7, 8, 9] ∧ s.writequeue.Holds packets ∧ unwritten packets = [10, 11, 12] ∧
      s.writequeueLen = 3 ∧ s.writequeue.count = 2 := by
  have hruns : ((writeQueueUse 1024).exec WriteState.start
      [.enqueue (Buffer.ofBytes [7, 8] (by decide)) 3,
        .enqueue (Buffer.ofBytes [9, 10, 11] (by decide)) 5,
        .enqueue (Buffer.ofBytes [12] (by decide)) 4, .writePacket (.wrote 3)]).map (fun s =>
          (s.sent, s.writequeue.count)) = some ([7, 8, 9], 2) := by decide
  obtain ⟨s, hrun, hs⟩ := Option.map_eq_some_iff.1 hruns
  obtain ⟨hsent, hcount⟩ := Prod.mk.inj hs
  obtain ⟨packets, hqueue, hall, hlen, -⟩ := writeQueue_integrity hrun
  rw [hsent] at hall
  have hrest : unwritten packets = [10, 11, 12] := List.append_cancel_left hall
  exact ⟨s, packets, hrun, hsent, hqueue, hrest, by rw [hlen, hrest]; rfl, hcount⟩

end Ps4Dropbear
