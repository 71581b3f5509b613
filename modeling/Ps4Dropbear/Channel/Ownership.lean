import Ps4Dropbear.Channel.Conservation
import Ps4Dropbear.Files.FdTable

/-!
# Who closes which descriptor

The threads of the process share one table of descriptors.  A number that has been closed is the
first to be given out again, and a worker may be the one that gets it.

Here the channels of a session live over such a table.  A function of the main thread makes its
calls on descriptors one by one, and other threads open and close descriptors of their own in
between.

* `FdSystem`, `fdSystem` : the channels and the table.
* `OwnCloses` : the main thread closes for a channel what that channel owns, and that once.
* `fdSystem_ownCloses` : in every run in which no channel is removed while both references to its
  socket are there.
-/

namespace Ps4Dropbear

open Channel

/-- The owner of a descriptor: the main thread, a worker, or a channel. -/
inductive FdOwner
  | main
  | worker
  | channel (i : ℕ)
  deriving DecidableEq

/-- A channel. -/
structure FdChannel where
  life : ChannelLife
  /-- `await_open`. -/
  awaitOpen : Bool := false
  /-- The descriptors that it has been given. -/
  acquired : List ℕ := []

/-- A `close` for a channel, with the owner that the number had. -/
structure ChanClose where
  chan : ℕ
  fd : ℕ
  owner : Option FdOwner
  deriving DecidableEq

/-- The channels, each known by its place in the order of their opening, and the table. -/
structure FdSystem where
  table : FdTable FdOwner
  chans : List FdChannel := []
  /-- The calls that the main thread is about to make for a channel. -/
  pending : List (ℕ × FdCall) := []
  /-- The calls of `close` that it has made. -/
  closes : List ChanClose := []

/-- What can happen. -/
inductive TableEvent
  /-- CHANNEL_OPEN. -/
  | opened (type : ChanType) (transwindow transmaxpacket : ℕ)
  /-- `send_msg_channel_open_init` for a connection that a listener has accepted. -/
  | forward (fd : ℕ)
  /-- CHANNEL_OPEN_CONFIRMATION. -/
  | openConfirmation (i transwindow transmaxpacket : ℕ)
  /-- CHANNEL_OPEN_FAILURE. -/
  | openFailure (i : ℕ)
  /-- A step in the life of a channel. -/
  | life (i : ℕ) (e : LifeEvent)
  /-- `chancleanup` comes to the channel. -/
  | chancleanup (i : ℕ)
  /-- The next call of the main thread for a channel. -/
  | call
  /-- The main thread opens a descriptor, or closes one that is its own. -/
  | mainOpen
  | mainClose (fd : ℕ)
  /-- A worker does. -/
  | workerOpen
  | workerClose (fd : ℕ)
  /-- The end of a socket pair is given to a worker, or taken back. -/
  | handOver (fd : ℕ)
  | takeBack (fd : ℕ)

/-- The channel that `send_msg_channel_open_init` makes. -/
def ChannelLife.forwarded (recvWindow fd : ℕ) : ChannelLife where
  chan := {
    type := .forwarded, recvwindow := recvWindow, readfd := fd, writefd := fd, bidirFd := true }
  wire := []

/-- `remove_channel`. -/
def FdChannel.remove (c : FdChannel) : FdChannel :=
  { c with
    awaitOpen := false
    life := { c.life with chan := c.life.chan.removeChannel, main := .poll } }

namespace FdSystem

/-- The descriptors that a channel gets in a step. -/
def installed (c c' : Channel) : List ℕ := c'.fds.filter (· ∉ c.fds)

/-- Channel `i` becomes `c`, with descriptors `fds` that were the main thread's, and with calls to
make. -/
def advance (s : FdSystem) (i : ℕ) (c : FdChannel) (fds : List ℕ) (calls : List FdCall) :
    FdSystem :=
  { s with
    table := s.table.assignAll fds (.channel i)
    chans := s.chans.set i { c with acquired := c.acquired ++ fds }
    pending := s.pending ++ calls.map (i, ·) }

/-- A step in the life of channel `i`.  The main thread starts nothing before its calls are made. -/
def lifeStep (R : Restriction) (recvWindow : ℕ) (s : FdSystem) (i : ℕ) (e : LifeEvent) :
    Option FdSystem := do
  let c ← s.chans[i]?
  if ChannelLife.isWorker e ∨ s.pending = [] then
    let t ← (channelLife R recvWindow).step c.life e
    let fds := installed c.life.chan t.chan
    if ∀ n ∈ fds, s.table.owner n = some .main then
      some (s.advance i { c with life := t } fds
        (t.chan.calls.drop c.life.chan.calls.length))
    else none
  else none

/-- `remove_channel` for channel `i`. -/
def removeStep (s : FdSystem) (i : ℕ) (p : FdChannel → Bool) : Option FdSystem := do
  let c ← s.chans[i]?
  if s.pending = [] ∧ c.life.chan.present ∧ p c then
    some (s.advance i c.remove [] (c.remove.life.chan.calls.drop c.life.chan.calls.length))
  else none

/-- A call that has been made. -/
def callStep (s : FdSystem) : Option FdSystem :=
  match s.pending with
  | [] => none
  | (_, .shutdown _ _) :: rest => some { s with pending := rest }
  | (i, .close fd) :: rest => some { s with
      pending := rest
      table := s.table.release fd
      closes := s.closes ++ [⟨i, fd, s.table.owner fd⟩] }

end FdSystem

/-- The channels of a session over the table of the process. -/
def fdSystem (R : Restriction) (recvWindow : ℕ) : LTS FdSystem TableEvent where
  step s
    | .opened type transwindow transmaxpacket =>
      if s.pending = [] ∧ type ≠ .forwarded then
        some { s with
          chans := s.chans ++ [{ life := .opened recvWindow type transwindow transmaxpacket }] }
      else none
    | .forward fd =>
      if s.pending = [] ∧ s.table.owner fd = some .main then
        some { s with
          table := s.table.assign fd (.channel s.chans.length)
          chans := s.chans ++
            [{ life := .forwarded recvWindow fd, awaitOpen := true, acquired := [fd] }] }
      else none
    | .openConfirmation i transwindow transmaxpacket => do
      let c ← s.chans[i]?
      if s.pending = [] ∧ c.life.chan.present ∧ c.awaitOpen then
        some { s with chans := s.chans.set i { c with
          awaitOpen := false
          life := { c.life with chan := { c.life.chan with
            transwindow := transwindow, transmaxpacket := transmaxpacket } } } }
      else none
    | .openFailure i => s.removeStep i fun c => c.awaitOpen && c.life.main == .poll
    | .life i e => s.lifeStep R recvWindow i e
    | .chancleanup i => s.removeStep i fun _ => true
    | .call => s.callStep
    | .mainOpen => some { s with table := s.table.alloc .main }
    | .mainClose fd =>
      if s.table.owner fd = some .main then some { s with table := s.table.release fd } else none
    | .workerOpen => some { s with table := s.table.alloc .worker }
    | .workerClose fd =>
      if s.table.owner fd = some .worker then some { s with table := s.table.release fd } else none
    | .handOver fd =>
      if s.table.owner fd = some .main then some { s with table := s.table.assign fd .worker }
      else none
    | .takeBack fd =>
      if s.table.owner fd = some .worker then some { s with table := s.table.assign fd .main }
      else none

/-- A process in which some numbers are in use, all by the main thread. -/
def FdSystem.start (used : List Bool) : FdSystem where
  table := ⟨used.map fun b => if b then some .main else none⟩

namespace FdSystem

/-- The numbers that have been closed for a channel. -/
def closesOf (s : FdSystem) (i : ℕ) : List ℕ := (s.closes.filter (·.chan = i)).map (·.fd)

/-- The numbers that are about to be closed for it. -/
def pendingOf (s : FdSystem) (i : ℕ) : List ℕ :=
  closedBy ((s.pending.filter (·.1 = i)).map (·.2))

end FdSystem

/-- **The property**: what is closed for a channel is its own, and a channel that has been removed has
had each of its descriptors closed once, a socket with two references too. -/
structure OwnCloses (s : FdSystem) : Prop where
  owned : ∀ c ∈ s.closes, c.owner = some (.channel c.chan)
  once : ∀ i c, s.chans[i]? = some c → c.life.chan.present = false →
    (∀ call ∈ s.pending, call.1 ≠ i) →
    (s.closesOf i).Perm c.acquired ∧ c.acquired.Nodup

/-- **The condition**: no channel is removed while both references to its socket are there. -/
def RemovesUndoubled (s : FdSystem) : TableEvent → Prop
  | .openFailure i | .chancleanup i => ∀ c, s.chans[i]? = some c → ¬ c.life.chan.Doubled
  | .life i .closeUp => ∀ c, s.chans[i]? = some c → c.life.chan.recvClose = true →
    c.life.chan.writePending = false → c.life.chan.sentClose = true → ¬ c.life.chan.Doubled
  | _ => True

/-! ### The invariant -/

namespace FdSystem

/-- What holds for one channel. -/
structure ChanInv (s : FdSystem) (i : ℕ) (c : FdChannel) : Prop where
  sound : c.life.chan.Sound
  removed : c.life.chan.present = false → c.life.main = .poll
  /-- What has been closed, what is about to be and what is left make up what it was given. -/
  conserved : (s.closesOf i ++ s.pendingOf i ++ c.life.chan.fds).Perm c.acquired
  nodup : c.acquired.Nodup
  unused : c.life.chan.Unused → c.acquired = []

/-- The invariant. -/
structure Inv (s : FdSystem) : Prop where
  owned : ∀ c ∈ s.closes, c.owner = some (.channel c.chan)
  chan : ∀ i c, s.chans[i]? = some c → ChanInv s i c
  /-- A channel owns what it refers to and what is about to be closed for it. -/
  owner : ∀ n i, s.table.owner n = some (.channel i) ↔
    ∃ c, s.chans[i]? = some c ∧ n ∈ s.pendingOf i ++ c.life.chan.fds
  absent : ∀ i, s.chans.length ≤ i → s.closesOf i = [] ∧ s.pendingOf i = []

variable {R : Restriction} {recvWindow : ℕ} {s t : FdSystem} {i : ℕ} {c c' : FdChannel}

theorem pendingOf_append (s : FdSystem) (i j : ℕ) (calls : List FdCall) :
    closedBy (((s.pending ++ calls.map (i, ·)).filter (·.1 = j)).map (·.2)) =
      s.pendingOf j ++ if i = j then closedBy calls else [] := by
  rw [List.filter_append, List.map_append, closedBy_append, pendingOf]
  congr 1
  split_ifs with h
  · simp [List.filter_map, h, Function.comp_def]
  · simp [List.filter_map, h, Function.comp_def]

/-- Only the table has changed, and there only what the channels do not own. -/
theorem Inv.of_table (h : Inv s) {table : FdTable FdOwner}
    (htable : ∀ n i, table.owner n = some (.channel i) ↔ s.table.owner n = some (.channel i)) :
    Inv { s with table := table } :=
  ⟨h.owned, fun i c hi => ⟨(h.chan i c hi).1, (h.chan i c hi).2, (h.chan i c hi).3,
    (h.chan i c hi).4, (h.chan i c hi).5⟩, fun n i => (htable n i).trans (h.owner n i), h.absent⟩

/-- **A channel goes on**: it has been given `fds`, and `calls` are to be made for it. -/
theorem Inv.advance (h : Inv s) (hi : s.chans[i]? = some c) {fds : List ℕ} {calls : List FdCall}
    (hacq : c'.acquired = c.acquired) (hmain : ∀ n ∈ fds, s.table.owner n = some .main)
    (hperm : (closedBy calls ++ c'.life.chan.fds).Perm (c.life.chan.fds ++ fds))
    (hsound : c'.life.chan.Sound) (hremoved : c'.life.chan.present = false → c'.life.main = .poll)
    (hnodup : (c.acquired ++ fds).Nodup) (hunused : c'.life.chan.Unused → c.acquired ++ fds = []) :
    Inv (s.advance i c' fds calls) := by
  have hlt : i < s.chans.length := (List.getElem?_eq_some_iff.1 hi).1
  have hpend : ∀ j, (s.advance i c' fds calls).pendingOf j =
      s.pendingOf j ++ if i = j then closedBy calls else [] := fun j => pendingOf_append s i j calls
  have hself : (s.advance i c' fds calls).chans[i]? =
      some { c' with acquired := c'.acquired ++ fds } := by
    simp [FdSystem.advance, hlt]
  have hother : ∀ j, i ≠ j → (s.advance i c' fds calls).chans[j]? = s.chans[j]? := by
    intro j hj
    simp [FdSystem.advance, List.getElem?_set_ne hj]
  have hmem : ∀ n, n ∈ closedBy calls ++ c'.life.chan.fds ↔ n ∈ c.life.chan.fds ++ fds :=
    fun n => hperm.mem_iff
  refine ⟨h.owned, fun j d hd => ?_, fun n j => ?_, fun j hj => ?_⟩
  · by_cases hij : i = j
    · subst hij
      rw [hself, Option.some.injEq] at hd
      subst hd
      refine ⟨hsound, hremoved, ?_, ?_, ?_⟩
      · change (s.closesOf i ++ (s.advance i c' fds calls).pendingOf i ++ c'.life.chan.fds).Perm _
        rw [hpend, if_pos rfl, hacq]
        have hleft : s.closesOf i ++ (s.pendingOf i ++ closedBy calls) ++ c'.life.chan.fds =
            s.closesOf i ++ s.pendingOf i ++ (closedBy calls ++ c'.life.chan.fds) := by
          simp only [List.append_assoc]
        have hright := (h.chan i c hi).conserved.append_right fds
        rw [List.append_assoc] at hright
        rw [hleft]
        exact (hperm.append_left _).trans hright
      · rw [hacq]
        exact hnodup
      · rw [hacq]
        exact hunused
    · rw [hother j hij] at hd
      have hinv := h.chan j d hd
      refine ⟨hinv.sound, hinv.removed, ?_, hinv.nodup, hinv.unused⟩
      change (s.closesOf j ++ (s.advance i c' fds calls).pendingOf j ++ d.life.chan.fds).Perm _
      rw [hpend, if_neg hij, List.append_nil]
      exact hinv.conserved
  · have hused : ∀ n ∈ fds, (s.table.owner n).isSome := fun n hn => by simp [hmain n hn]
    change (s.table.assignAll fds (.channel i)).owner n = _ ↔ _
    rw [FdTable.owner_assignAll hused, hpend]
    by_cases hij : i = j
    · subst hij
      rw [hself, if_pos rfl]
      split_ifs with hfds
      · refine ⟨fun _ => ⟨_, rfl, ?_⟩, fun _ => rfl⟩
        rw [List.append_assoc]
        exact List.mem_append_right _ ((hmem n).2 (List.mem_append_right _ hfds))
      · have hsame : n ∈ s.pendingOf i ++ c.life.chan.fds ↔
            n ∈ s.pendingOf i ++ closedBy calls ++ c'.life.chan.fds := by
          rw [List.append_assoc, List.mem_append, List.mem_append, hmem n, List.mem_append]
          simp [hfds]
        rw [h.owner n i]
        simpa [hi] using hsame
    · rw [hother j hij, if_neg hij, List.append_nil]
      split_ifs with hfds
      · -- the number was the main thread's
        refine ⟨fun heq => absurd (by simpa using heq) hij, fun hex => ?_⟩
        have hchan := (h.owner n j).2 hex
        simp [hmain n hfds] at hchan
      · exact h.owner n j
  · have hj' : s.chans.length ≤ j := by simpa [FdSystem.advance] using hj
    rw [hpend, if_neg (by omega), List.append_nil]
    exact h.absent j hj'

/-- A step of one channel, as the system sees it. -/
theorem FdStep.advances {d d' : Channel} (h : FdStep d d') (hs : d.Sound) {acquired : List ℕ}
    (hnodup : acquired.Nodup) (hunused : d.Unused → acquired = []) :
    ∃ new, d'.calls = d.calls ++ new ∧
      (closedBy new ++ d'.fds).Perm (d.fds ++ installed d d') ∧ d'.Sound ∧
      (acquired ++ installed d d').Nodup ∧ (d'.Unused → acquired ++ installed d d' = []) := by
  rcases h with hin | ⟨⟨new, hcalls, hperm, -⟩, hsound, hback⟩
  · have hnone : d.fds = [] := hs.fds_of_unused hin.before
    have hall : installed d d' = d'.fds := by simp [installed, hnone]
    refine ⟨[], by simp [hin.calls], by simp [hnone, hall], hin.sound, ?_, ?_⟩
    · rw [hunused hin.before, hall]
      exact hin.nodup
    · intro hu
      exact absurd hu hin.after
  · have hnone : installed d d' = [] := by
      refine List.filter_eq_nil_iff.2 fun n hn => ?_
      simpa using hperm.subset (List.mem_append_right _ hn)
    rw [hnone, List.append_nil, List.append_nil]
    exact ⟨new, hcalls, hperm, hsound, hnodup, fun hu => hunused (hback hu)⟩

theorem Inv.lifeStep (h : Inv s) {e : LifeEvent} (hC : RemovesUndoubled s (.life i e))
    (hst : s.lifeStep R recvWindow i e = some t) : Inv t := by
  simp only [FdSystem.lifeStep, Option.bind_eq_bind, Option.bind_eq_some_iff,
    Option.ite_none_right_eq_some, Option.some.injEq] at hst
  obtain ⟨c, hi, -, life, hlife, hmain, rfl⟩ := hst
  obtain ⟨u, hu, rfl⟩ := ChannelLife.channelLife_step.1 hlife
  obtain ⟨wire, hwire⟩ := u.transmit_eq
  rw [hwire] at hmain ⊢
  have hinv := h.chan i c hi
  have hcases := ChannelLife.perform_cases hu
  have hp : ChannelLife.isWorker e = true ∨ c.life.chan.present = true := by
    cases hp : c.life.chan.present with
    | true => exact .inr rfl
    | false => exact .inl (ChannelLife.isWorker_of_removed hp (hinv.removed hp) hu)
  have hstep : FdStep c.life.chan u.chan := by
    refine ChannelLife.perform_fdStep hinv.sound hp ?_ hcases
    rintro rfl
    exact hC c hi
  obtain ⟨new, hcalls, hperm, hsound, hnodup, hunused⟩ :=
    FdStep.advances hstep hinv.sound hinv.nodup hinv.unused
  have hremoved : u.chan.present = false → u.main = .poll :=
    ChannelLife.perform_removed hinv.removed hp hcases
  refine h.advance hi rfl hmain ?_ hsound hremoved hnodup hunused
  dsimp only
  rw [hcalls, List.drop_left]
  exact hperm

theorem Inv.removeStep (h : Inv s) {p : FdChannel → Bool}
    (hC : ∀ c, s.chans[i]? = some c → ¬ c.life.chan.Doubled)
    (hst : s.removeStep i p = some t) : Inv t := by
  simp only [FdSystem.removeStep, Option.bind_eq_bind, Option.bind_eq_some_iff,
    Option.ite_none_right_eq_some, Option.some.injEq] at hst
  obtain ⟨c, hi, ⟨-, hp, -⟩, rfl⟩ := hst
  have hinv := h.chan i c hi
  have hconserves := hinv.sound.paired.removeChannel hp (hC c hi)
  have hunused : c.life.chan.removeChannel.Unused → c.life.chan.Unused := by
    rintro (hidle | hn)
    · exact .inl hidle
    · cases hn
  have hsound : c.life.chan.removeChannel.Sound :=
    ⟨hconserves.paired, fun hu => hinv.sound.unused (hunused hu), fun hn => by cases hn⟩
  obtain ⟨new, hcalls, hperm, -⟩ := hconserves
  refine h.advance hi rfl (by simp) ?_ hsound (fun _ => rfl) (by simpa using hinv.nodup)
    (fun hu => by simpa using hinv.unused (hunused hu))
  rw [List.append_nil]
  dsimp only [FdChannel.remove]
  rw [hcalls, List.drop_left]
  exact hperm

theorem pendingOf_cons {k : ℕ} {call : FdCall} {rest : List (ℕ × FdCall)}
    (hpend : s.pending = (k, call) :: rest) (j : ℕ) : s.pendingOf j =
      (if k = j then closedBy [call] else []) ++ closedBy ((rest.filter (·.1 = j)).map (·.2)) := by
  rw [pendingOf, hpend, List.filter_cons]
  by_cases hj : k = j
  · simp only [hj, decide_true, if_true, List.map_cons]
    exact closedBy_append [call] _
  · simp [hj]

/-- Shutting a descriptor down changes nothing here. -/
theorem Inv.shutdown (h : Inv s) {k : ℕ} {fd : ℤ} {how : How} {rest : List (ℕ × FdCall)}
    (hpend : s.pending = (k, .shutdown fd how) :: rest) : Inv { s with pending := rest } := by
  have hsame : ∀ j, pendingOf { s with pending := rest } j = s.pendingOf j := by
    intro j
    rw [pendingOf_cons hpend j]
    split_ifs <;> rfl
  refine ⟨h.owned, fun j d hd => ?_, fun n j => ?_, fun j hj => ?_⟩
  · have hinv := h.chan j d hd
    refine ⟨hinv.sound, hinv.removed, ?_, hinv.nodup, hinv.unused⟩
    rw [hsame]
    exact hinv.conserved
  · rw [hsame]
    exact h.owner n j
  · rw [hsame]
    exact h.absent j hj

/-- **Closing a descriptor for a channel** finds the channel as its owner. -/
theorem Inv.close (h : Inv s) {k fd : ℕ} {rest : List (ℕ × FdCall)}
    (hpend : s.pending = (k, .close fd) :: rest) : Inv { s with
      pending := rest
      table := s.table.release fd
      closes := s.closes ++ [⟨k, fd, s.table.owner fd⟩] } := by
  set t : FdSystem := { s with
    pending := rest
    table := s.table.release fd
    closes := s.closes ++ [⟨k, fd, s.table.owner fd⟩] } with ht
  have hself : s.pendingOf k = fd :: t.pendingOf k := by
    rw [pendingOf_cons hpend k, if_pos rfl]
    rfl
  have hother : ∀ j, k ≠ j → s.pendingOf j = t.pendingOf j := by
    intro j hj
    rw [pendingOf_cons hpend j, if_neg hj]
    rfl
  have hclosed : ∀ j, t.closesOf j = s.closesOf j ++ if k = j then [fd] else [] := by
    intro j
    rw [closesOf, ht, List.filter_append, List.map_append, closesOf]
    congr 1
    split_ifs with hj <;> simp [hj]
  obtain ⟨c, hc⟩ : ∃ c, s.chans[k]? = some c := by
    refine ⟨_, List.getElem?_eq_getElem ?_⟩
    by_contra hn
    rw [(h.absent k (by omega)).2] at hself
    cases hself
  have howner : s.table.owner fd = some (.channel k) := by
    refine (h.owner fd k).2 ⟨c, hc, ?_⟩
    rw [hself]
    exact List.mem_cons_self
  -- the channel has been given the number once
  have hgone : fd ∉ t.pendingOf k ++ c.life.chan.fds := by
    have hnodup := (h.chan k c hc).conserved.nodup_iff.2 (h.chan k c hc).nodup
    rw [List.append_assoc, hself, List.cons_append] at hnodup
    exact (List.nodup_cons.1 (List.nodup_append.1 hnodup).2.1).1
  refine ⟨fun d hd => ?_, fun j d hd => ?_, fun n j => ?_, fun j hj => ?_⟩
  · rcases List.mem_append.1 hd with hold | hnew
    · exact h.owned d hold
    · rw [List.mem_singleton.1 hnew]
      exact howner
  · have hinv := h.chan j d hd
    refine ⟨hinv.sound, hinv.removed, ?_, hinv.nodup, hinv.unused⟩
    rw [hclosed]
    by_cases hj : k = j
    · subst hj
      have hconserved := hinv.conserved
      rw [hself] at hconserved
      simpa using hconserved
    · rw [if_neg hj, List.append_nil, ← hother j hj]
      exact hinv.conserved
  · change (s.table.release fd).owner n = _ ↔ ∃ d, s.chans[j]? = some d ∧ _
    rw [FdTable.owner_release]
    by_cases hn : n = fd
    · subst hn
      rw [if_pos rfl]
      refine ⟨(fun heq => by cases heq), ?_⟩
      rintro ⟨d, hd, hmem⟩
      by_cases hj : k = j
      · subst hj
        obtain rfl : c = d := Option.some.inj (hc.symm.trans hd)
        exact absurd hmem hgone
      · rw [← hother j hj] at hmem
        have hj' := (h.owner n j).2 ⟨d, hd, hmem⟩
        rw [howner] at hj'
        exact absurd (by simpa using hj') hj
    · rw [if_neg hn, h.owner n j]
      by_cases hj : k = j
      · subst hj
        simp [hself, hn]
      · rw [hother j hj]
  · have hkj : k ≠ j := by
      rintro rfl
      exact absurd (List.getElem?_eq_some_iff.1 hc).1 (Nat.not_lt.2 hj)
    rw [hclosed, if_neg hkj, List.append_nil, ← hother j hkj]
    exact h.absent j hj

theorem Inv.callStep (h : Inv s) (hst : s.callStep = some t) : Inv t := by
  unfold FdSystem.callStep at hst
  cases hpend : s.pending with
  | nil => simp [hpend] at hst
  | cons call rest =>
    obtain ⟨k, call⟩ := call
    rw [hpend] at hst
    cases call with
    | shutdown fd how =>
      cases hst
      exact h.shutdown hpend
    | close fd =>
      cases hst
      exact h.close hpend

theorem getElem?_concat_iff {α : Type} {xs : List α} {x y : α} {j : ℕ} :
    (xs ++ [x])[j]? = some y ↔ xs[j]? = some y ∨ j = xs.length ∧ y = x := by
  rcases Nat.lt_trichotomy j xs.length with hj | rfl | hj
  · rw [List.getElem?_append_left hj]
    simp [Nat.ne_of_lt hj]
  · simp [eq_comm]
  · have hlen : (xs ++ [x]).length ≤ j := by
      rw [List.length_append, List.length_singleton]
      exact hj
    rw [List.getElem?_eq_none hlen, List.getElem?_eq_none (Nat.le_of_lt hj)]
    simp [Nat.ne_of_gt hj]

/-- A new channel, with descriptors that were the main thread's. -/
theorem Inv.append (h : Inv s) (hmain : ∀ n ∈ c.acquired, s.table.owner n = some .main)
    (hfds : c.life.chan.fds = c.acquired) (hsound : c.life.chan.Sound)
    (hpresent : c.life.chan.present = true) (hnodup : c.acquired.Nodup)
    (hunused : c.life.chan.Unused → c.acquired = []) :
    Inv { s with
      table := s.table.assignAll c.acquired (.channel s.chans.length), chans := s.chans ++ [c] } := by
  obtain ⟨hcloses, hpend⟩ := h.absent s.chans.length (Nat.le_refl _)
  refine ⟨h.owned, fun j d hd => ?_, fun n j => ?_, fun j hj => ?_⟩
  · rcases getElem?_concat_iff.1 hd with hold | ⟨rfl, rfl⟩
    · have hinv := h.chan j d hold
      exact ⟨hinv.1, hinv.2, hinv.3, hinv.4, hinv.5⟩
    · refine ⟨hsound, fun hn => absurd hpresent (by simp [hn]), ?_, hnodup, hunused⟩
      change (s.closesOf s.chans.length ++ s.pendingOf s.chans.length ++ _).Perm _
      rw [hcloses, hpend, hfds]
      exact List.Perm.refl _
  · have hused : ∀ n ∈ c.acquired, (s.table.owner n).isSome := fun n hn => by simp [hmain n hn]
    change (s.table.assignAll c.acquired (.channel s.chans.length)).owner n = _ ↔
      ∃ d, (s.chans ++ [c])[j]? = some d ∧ n ∈ s.pendingOf j ++ d.life.chan.fds
    rw [FdTable.owner_assignAll hused]
    split_ifs with hn
    · refine ⟨fun heq => ?_, ?_⟩
      · obtain rfl : s.chans.length = j := by simpa using heq
        exact ⟨c, getElem?_concat_iff.2 (.inr ⟨rfl, rfl⟩), by simp [hfds, hn]⟩
      · rintro ⟨d, hd, hmem⟩
        rcases getElem?_concat_iff.1 hd with hold | ⟨rfl, rfl⟩
        · have hchan := (h.owner n j).2 ⟨d, hold, hmem⟩
          simp [hmain n hn] at hchan
        · rfl
    · rw [h.owner n j]
      refine ⟨?_, ?_⟩
      · rintro ⟨d, hd, hmem⟩
        exact ⟨d, getElem?_concat_iff.2 (.inl hd), hmem⟩
      · rintro ⟨d, hd, hmem⟩
        rcases getElem?_concat_iff.1 hd with hold | ⟨rfl, rfl⟩
        · exact ⟨d, hold, hmem⟩
        · simp [hpend, hfds, hn] at hmem
  · have hj' : s.chans.length ≤ j := by
      simp only [List.length_append, List.length_singleton] at hj
      omega
    exact h.absent j hj'

/-- Descriptors that no channel owns are opened. -/
theorem Inv.alloc (h : Inv s) {o : FdOwner} (ho : ∀ i, o ≠ .channel i) :
    Inv { s with table := s.table.alloc o } := by
  refine h.of_table fun n i => ?_
  rw [FdTable.owner_alloc]
  split_ifs with hn
  · rw [hn, FdTable.owner_lowest]
    simp [ho i]
  · rfl

/-- And closed. -/
theorem Inv.release (h : Inv s) {fd : ℕ} {o : FdOwner} (hfd : s.table.owner fd = some o)
    (ho : ∀ i, o ≠ .channel i) : Inv { s with table := s.table.release fd } := by
  refine h.of_table fun n i => ?_
  rw [FdTable.owner_release]
  split_ifs with hn
  · rw [hn, hfd]
    simp [ho i]
  · rfl

/-- Or go from one thread to another. -/
theorem Inv.assign (h : Inv s) {fd : ℕ} {o o' : FdOwner} (hfd : s.table.owner fd = some o)
    (ho : ∀ i, o ≠ .channel i) (ho' : ∀ i, o' ≠ .channel i) :
    Inv { s with table := s.table.assign fd o' } := by
  refine h.of_table fun n i => ?_
  rw [FdTable.owner_assign hfd]
  split_ifs with hn
  · rw [hn, hfd]
    simp [ho i, ho' i]
  · rfl

/-- **One step** keeps the invariant. -/
theorem Inv.step (h : Inv s) {e : TableEvent} (hC : RemovesUndoubled s e)
    (hst : (fdSystem R recvWindow).step s e = some t) : Inv t := by
  cases e with
  | opened type transwindow transmaxpacket =>
    simp only [fdSystem, Option.ite_none_right_eq_some, Option.some.injEq] at hst
    obtain ⟨-, rfl⟩ := hst
    refine h.append (c := { life := .opened recvWindow type transwindow transmaxpacket }) (by simp)
      rfl ?_ rfl (by simp) (fun _ => rfl)
    refine ⟨⟨rfl, (fun hb => by cases hb), fun _ hn => ?_⟩, fun _ => ?_, fun hp => ?_⟩
    · exact absurd hn fdUninit_neg
    · exact ⟨Int.not_le.1 fdUninit_neg, Int.not_le.1 fdUninit_neg⟩
    · simpa [ChannelLife.opened, Channel.opened] using hp
  | forward fd =>
    simp only [fdSystem, Option.ite_none_right_eq_some, Option.some.injEq] at hst
    obtain ⟨⟨-, hmain⟩, rfl⟩ := hst
    have hsock : 0 ≤ (fd : ℤ) := Int.natCast_nonneg fd
    have hused : ¬ (ChannelLife.forwarded recvWindow fd).chan.Unused := by
      rintro (⟨ht, -⟩ | hp)
      · cases ht
      · cases hp
    have hpaired : (ChannelLife.forwarded recvWindow fd).chan.Paired :=
      ⟨rfl, fun _ => ⟨.inr hsock, .inr hsock, fun _ _ => rfl⟩, fun hb => by cases hb⟩
    refine h.append (c := {
      life := .forwarded recvWindow fd, awaitOpen := true, acquired := [fd] }) (by simpa using hmain)
      ?_ ⟨hpaired, fun hu => absurd hu hused, fun hp => by cases hp⟩ rfl (by simp)
      (fun hu => absurd hu hused)
    simp [fds, refs, ChannelLife.forwarded, fdNum_of_nonneg hsock]
  | openConfirmation i transwindow transmaxpacket =>
    simp only [fdSystem, Option.bind_eq_bind, Option.bind_eq_some_iff,
      Option.ite_none_right_eq_some, Option.some.injEq] at hst
    obtain ⟨c, hi, -, rfl⟩ := hst
    have hinv := h.chan i c hi
    have hsound : Sound { c.life.chan with
        transwindow := transwindow, transmaxpacket := transmaxpacket } :=
      ⟨⟨hinv.sound.1.1, hinv.sound.1.2, hinv.sound.1.3⟩, hinv.sound.2, hinv.sound.3⟩
    have hadvance : Inv (s.advance i { c with
        awaitOpen := false
        life := { c.life with chan := { c.life.chan with
          transwindow := transwindow, transmaxpacket := transmaxpacket } } } [] []) := by
      refine h.advance hi rfl (by simp) ?_ hsound hinv.removed (by simpa using hinv.nodup)
        (fun hu => (List.append_nil _).trans (hinv.unused hu))
      rw [List.append_nil]
      exact List.Perm.refl _
    simpa [FdSystem.advance, FdTable.assignAll] using hadvance
  | openFailure i => exact h.removeStep hC hst
  | life i e => exact h.lifeStep hC hst
  | chancleanup i => exact h.removeStep hC hst
  | call => exact h.callStep hst
  | mainOpen =>
    cases hst
    exact h.alloc (by simp)
  | mainClose fd =>
    simp only [fdSystem, Option.ite_none_right_eq_some, Option.some.injEq] at hst
    exact hst.2 ▸ h.release hst.1 (by simp)
  | workerOpen =>
    cases hst
    exact h.alloc (by simp)
  | workerClose fd =>
    simp only [fdSystem, Option.ite_none_right_eq_some, Option.some.injEq] at hst
    exact hst.2 ▸ h.release hst.1 (by simp)
  | handOver fd =>
    simp only [fdSystem, Option.ite_none_right_eq_some, Option.some.injEq] at hst
    exact hst.2 ▸ h.assign hst.1 (by simp) (by simp)
  | takeBack fd =>
    simp only [fdSystem, Option.ite_none_right_eq_some, Option.some.injEq] at hst
    exact hst.2 ▸ h.assign hst.1 (by simp) (by simp)

theorem Inv.start (used : List Bool) : Inv (start used) where
  owned := by simp [FdSystem.start]
  chan := by simp [FdSystem.start]
  owner n i := by
    have hnone : (FdSystem.start used).table.owner n ≠ some (.channel i) := by
      simp only [FdSystem.start, FdTable.owner, List.getElem?_map]
      cases used[n]? with
      | none => simp
      | some b => cases b <;> simp
    exact ⟨fun heq => absurd heq hnone, by simp [FdSystem.start]⟩
  absent := by simp [FdSystem.start, closesOf, pendingOf]

/-- The invariant gives the property. -/
theorem Inv.ownCloses (h : Inv s) : OwnCloses s := by
  refine ⟨h.owned, fun i c hi hp hpend => ?_⟩
  have hinv := h.chan i c hi
  have hnone : s.pendingOf i = [] := by
    have hfilter : s.pending.filter (·.1 = i) = [] :=
      List.filter_eq_nil_iff.2 fun call hcall => by simpa using hpend call hcall
    rw [pendingOf, hfilter]
    rfl
  have hfds : c.life.chan.fds = [] := by
    rw [fds, if_neg (by simp [hp])]
  have hconserved := hinv.conserved
  rw [hnone, hfds, List.append_nil, List.append_nil] at hconserved
  exact ⟨hconserved, hinv.nodup⟩

end FdSystem

/-- **The main thread closes what the channels own**, in every run in which no channel is removed
while both references to its socket are there. -/
theorem fdSystem_ownCloses {R : Restriction} {recvWindow : ℕ} {used : List Bool}
    {es : List TableEvent} {t : FdSystem}
    (hC : (fdSystem R recvWindow).Along RemovesUndoubled (.start used) es)
    (h : (fdSystem R recvWindow).exec (.start used) es = some t) : OwnCloses t := by
  have hinv : t.Inv := by
    refine LTS.exec_invariant (FdSystem.Inv.start used) ?_ hC h
    intro s e s' hs hCe hst
    exact hs.step hCe hst
  exact hinv.ownCloses

/-- Numbers 0 to 6 are in use, and a shell is started over sockets 7 and 8. -/
def shellStarts : List TableEvent :=
  [.opened .session 1000 1000, .mainOpen, .mainOpen, .life 0 (.recvRequest shellPayload willingEnv),
    .handOver 8, .life 0 .reply]

/-- The shell ends, and the main thread reads the end of its output. -/
def shellEnded : List TableEvent :=
  [.life 0 (.workerLeave 0), .life 0 .workerStore, .life 0 .workerStore, .life 0 .workerStore,
    .life 0 .workerStore, .life 0 .workerDone, .life 0 .workerClose, .workerClose 8,
    .life 0 (.readable .eof), .call, .life 0 .check, .life 0 .flush]

/-- The socket is closed, a worker opens a file, and the peer closes the channel. -/
def peerCloses : List TableEvent :=
  [.call, .call, .workerOpen, .call, .call, .call, .life 0 .recvClose, .life 0 .check,
    .life 0 .flush]

theorem fdSystem_ownCloses_peerCloses : ∃ t : FdSystem,
    (fdSystem unrestricted 24576).exec (.start (List.replicate 7 true))
      ((shellStarts ++ shellEnded) ++ TableEvent.life 0 .closeUp :: peerCloses ++
        [TableEvent.life 0 .closeUp]) = some t ∧
    t.closes = [⟨0, 7, some (.channel 0)⟩] ∧ OwnCloses t := by
  have hended : ((fdSystem unrestricted 24576).exec (.start (List.replicate 7 true))
      (shellStarts ++ shellEnded)).map
        (fun t => t.chans.map (fun c => c.life.chan.recvClose)) = some [false] := by
    decide
  have hclosed : ((fdSystem unrestricted 24576).exec (.start (List.replicate 7 true))
      ((shellStarts ++ shellEnded) ++ TableEvent.life 0 .closeUp :: peerCloses)).map
        (fun t => t.chans.map (fun c => c.life.chan.readfd)) = some [-1] := by
    decide
  have hrun : ((fdSystem unrestricted 24576).exec (.start (List.replicate 7 true))
      ((shellStarts ++ shellEnded) ++ TableEvent.life 0 .closeUp :: peerCloses ++
        [TableEvent.life 0 .closeUp])).map
        (·.closes) = some [⟨0, 7, some (.channel 0)⟩] := by
    decide
  obtain ⟨t, ht, hcloses⟩ := Option.map_eq_some_iff.1 hrun
  refine ⟨t, ht, hcloses, fdSystem_ownCloses (LTS.along_append (LTS.along_append ?_ ?_) ?_) ht⟩
  · refine LTS.along_of_forall ?_ _
    simp [shellStarts, shellEnded, RemovesUndoubled]
  · intro s hs
    refine ⟨fun c hc hr => ?_, fun s' _ => LTS.along_of_forall ?_ s'⟩
    · -- the peer has not closed the channel yet
      have hchans : s.chans.map (fun c => c.life.chan.recvClose) = [false] := by
        rw [hs] at hended
        exact Option.some.inj hended
      have hopen : (s.chans.map fun c => c.life.chan.recvClose)[0]? = some c.life.chan.recvClose := by
        rw [List.getElem?_map, hc]
        rfl
      rw [hchans, hr] at hopen
      cases hopen
    · simp [peerCloses, RemovesUndoubled]
  · intro s hs
    refine ⟨fun c hc _ _ _ hd => ?_, fun _ _ => trivial⟩
    -- the socket is no longer referred to
    have hchans : s.chans.map (fun c => c.life.chan.readfd) = [-1] := by
      rw [hs] at hclosed
      exact Option.some.inj hclosed
    have hread : (s.chans.map fun c => c.life.chan.readfd)[0]? = some c.life.chan.readfd := by
      rw [List.getElem?_map, hc]
      rfl
    rw [hchans] at hread
    have hneg : -1 = c.life.chan.readfd := by simpa using hread
    have hopen := hd.1
    omega

/-- The session ends while the shell runs.  `remove_channel` closes its socket, a worker opens a file
that gets the number, and `remove_channel` closes that. -/
theorem chancleanup_closes_worker_file :
    ¬ ∀ R recvWindow used es t,
      (fdSystem R recvWindow).exec (.start used) es = some t → OwnCloses t := by
  intro hall
  have hrun : ((fdSystem unrestricted 24576).exec (.start (List.replicate 7 true))
      (shellStarts ++ [TableEvent.chancleanup 0, .call, .workerOpen, .call])).map (·.closes) =
      some [⟨0, 7, some (.channel 0)⟩, ⟨0, 7, some .worker⟩] := by
    decide
  obtain ⟨t, ht, hcloses⟩ := Option.map_eq_some_iff.1 hrun
  have howned := (hall _ _ _ _ t ht).owned ⟨0, 7, some .worker⟩ (by simp [hcloses])
  cases howned

end Ps4Dropbear
