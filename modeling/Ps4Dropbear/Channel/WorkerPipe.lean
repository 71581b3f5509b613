import Ps4Dropbear.LTS.Duplex
import Ps4Dropbear.Shell.Thread

/-!
# A channel and its worker thread

On the PS4 a shell or `scp` channel is one end of a socket pair whose other end belongs to a
thread.  `setnonblocking` does nothing there, so both ends block.  The main thread writes
CHANNEL_DATA to the pair at once, in `common_recv_msg_channel_data`, and reads the worker's output
in `channelio`; while it writes it does not read.

Because `writev` returns only when everything is written, the circular buffer of the channel stays
empty and is not part of the state.

* `ShellWorker.act` : `ps4_shell_thread` as a worker.
* `workerPipe` : the main thread's work on one channel, with an arbitrary worker.
* `workerPipe_deadlock_iff` : which writes can deadlock.
* `carriageReturns_deadlock` : a block of carriage returns does.
-/

namespace Ps4Dropbear

/-! ### The shell as a worker -/

/-- `ps4_shell_thread` with what it still has to write.  The system that it runs commands on may
be different for every line. -/
structure ShellWorker where
  out : Bytes
  thread : ShellThread
  shell : ShellState
  /-- The number of lines dispatched so far. -/
  lines : ℕ
  /-- The loop has been left. -/
  leaving : Bool

namespace ShellWorker

/-- The thread when it starts: the greeting and the prompt are to be written. -/
def start (shell : ShellState) : ShellWorker :=
  ⟨ps4Banner ++ ps4Prompt shell, .initial, shell, 0, false⟩

/-- The thread has read a byte. -/
def onByte (kernels : ℕ → Kernel) (w : ShellWorker) (byte : UInt8) : ShellWorker :=
  match w.thread.onByte byte with
  | (t, .write out) => { w with thread := t, out := out }
  | (t, .prompt out) => { w with thread := t, out := out ++ ps4Prompt w.shell }
  | (t, .leave out) => { w with thread := t, out := out, leaving := true }
  | (t, .line command) =>
    let d := ShellThread.dispatch (kernels w.lines) w.shell command
    { w with
      thread := { t with status := d.status }
      shell := d.shell
      out := d.output
      lines := w.lines + 1 }

/-- The next action of the thread: it writes before it reads again. -/
def act (kernels : ℕ → Kernel) (w : ShellWorker) : Act ShellWorker UInt8 :=
  match w.out with
  | b :: out => .emit b { w with out := out }
  | [] =>
    if w.leaving then .halt
    else
      .read fun
        | none => { w with leaving := true }
        | some byte => w.onByte kernels byte

end ShellWorker

/-! ### The main thread -/

/-- The channel, as far as data goes, and the socket pair. -/
structure Pump (W : Type) where
  recvEof : Bool
  /-- `writefd` is open. -/
  writefd : Bool
  /-- `readfd` is open. -/
  readfd : Bool
  recvwindow : ℕ
  recvdonelen : ℕ
  transwindow : ℕ
  transmaxpacket : ℕ
  /-- The main thread is in `writev` with a block of this length. -/
  writing : Option ℕ
  pair : Duplex W UInt8

/-- What can happen on the channel. -/
inductive PumpEvent
  /-- CHANNEL_DATA. -/
  | channelData (data : Bytes)
  /-- The kernel copies a byte of the `writev` in progress. -/
  | copy
  /-- The worker runs. -/
  | worker
  /-- `writev` returns. -/
  | writeReturn
  /-- `writev` fails, the other end is closed. -/
  | writeError
  /-- `channelio` reads the output of the worker. -/
  | channelRead
  /-- CHANNEL_WINDOW_ADJUST. -/
  | windowAdjust (incr : ℕ)
  /-- CHANNEL_EOF: `check_close` closes our writing side. -/
  | channelEof
  /-- CHANNEL_CLOSE while the worker runs: `sesscheckclose` shuts the pair down. -/
  | channelClose

variable {W : Type} (act : W → Act W UInt8) (recvWindow ci co : ℕ)

namespace Pump

/-- `common_recv_msg_channel_data` up to the call of `writev`; `none` when the session ends. -/
def channelData (s : Pump W) (data : Bytes) : Option (Pump W) :=
  if s.recvEof then none
  else if !s.writefd then some s
  else if data.length > recvWindow ∨ data.length > s.recvwindow then none
  else
    some { s with
      recvwindow := s.recvwindow - data.length
      writing := some data.length
      pair := { s.pair with pending := data } }

/-- `writechannel` behind a `writev` that has written everything. -/
def writeReturn (s : Pump W) : Option (Pump W) :=
  match s.writing with
  | none => none
  | some written =>
    if s.pair.pending ≠ [] then none
    else
      let done := s.recvdonelen + written
      some (if done ≥ recvWindow / 3 then
        { s with recvwindow := s.recvwindow + done, recvdonelen := 0, writing := none }
        else { s with recvdonelen := done, writing := none })

/-- `writechannel` behind a `writev` that fails with `EPIPE`. -/
def writeError (s : Pump W) : Option (Pump W) :=
  match s.writing, act s.pair.worker with
  | some _, .halt =>
    some { s with writing := none, writefd := false, pair := { s.pair with pending := [] } }
  | _, _ => none

/-- `send_msg_channel_data`, on a descriptor with something to read. -/
def channelRead (s : Pump W) : Option (Pump W) :=
  if !s.readfd ∨ s.transwindow = 0 ∨ s.pair.toFeeder = [] then none
  else
    let len := min (min (min s.transwindow s.transmaxpacket) (transMaxPayloadLen - 9))
      s.pair.toFeeder.length
    some { s with
      transwindow := s.transwindow - len
      pair := { s.pair with toFeeder := s.pair.toFeeder.drop len } }

/-- The channel of a new worker. -/
def start (w : W) (transwindow transmaxpacket : ℕ) : Pump W where
  recvEof := false
  writefd := true
  readfd := true
  recvwindow := recvWindow
  recvdonelen := 0
  transwindow := transwindow
  transmaxpacket := transmaxpacket
  writing := none
  pair := ⟨[], [], [], w, false, false⟩

end Pump

/-- The main thread's work on a channel and the worker behind it.  In `writev` the main thread
does nothing else. -/
def workerPipe : LTS (Pump W) PumpEvent where
  step s
    | .copy => (s.pair.push ci).map fun d => { s with pair := d }
    | .worker => (s.pair.work act co).map fun d => { s with pair := d }
    | .writeReturn => s.writeReturn recvWindow
    | .writeError => s.writeError act
    | .channelData data => if s.writing.isSome then none else s.channelData recvWindow data
    | .channelRead => if s.writing.isSome then none else s.channelRead
    | .windowAdjust incr =>
      if s.writing.isSome then none
      else some { s with transwindow := min (s.transwindow + incr) (2 ^ 32 - 1) }
    | .channelEof =>
      if s.writing.isSome then none
      else some { s with
        recvEof := true, writefd := false, pair := { s.pair with eof := true } }
    | .channelClose =>
      if s.writing.isSome then none
      else some { s with
        recvEof := true, pair := { s.pair with eof := true, shut := true } }

/-- The main thread is blocked in `writev` on its full queue, and the worker in a write on its
own. -/
def Pump.Deadlocked (s : Pump W) : Prop := s.pair.Deadlocked act ci co

/-- **The condition**: the worker, left alone with the queued input and the new block, reads the
bytes that do not fit into the queue before its output exceeds the room in the other queue. -/
def BlockAbsorbed (s : Pump W) : PumpEvent → Prop
  | .channelData data =>
    s.writefd = true → Duplex.Absorbs act s.pair.worker (co - s.pair.toFeeder.length)
      (s.pair.toWorker.length + data.length - ci) (s.pair.toWorker ++ data)
  | _ => True

/-! ### Writes and deadlocks -/

variable {act recvWindow ci co} {s s' : Pump W}

/-- The invariant: a block is pending only in `writev`, and the pair is closed only after an EOF
of the client. -/
structure PumpInv (ci co : ℕ) (s : Pump W) : Prop where
  valid : s.pair.Valid ci co
  idle : s.writing = none → s.pair.pending = []
  closed : s.pair.eof = true ∨ s.pair.shut = true → s.recvEof = true

theorem PumpInv.start (w : W) (transwindow transmaxpacket : ℕ) :
    PumpInv ci co (Pump.start recvWindow w transwindow transmaxpacket) where
  valid := ⟨Nat.zero_le _, Nat.zero_le _, fun hp => absurd rfl hp⟩
  idle := fun _ => rfl
  closed := by rintro (h | h) <;> cases h

/-- A step that does not start a block leaves no block, or only moves the one that is there. -/
theorem PumpInv.of_idle (hI : PumpInv ci co s) (hw : s.writing = none)
    (htoWorker : s'.pair.toWorker = s.pair.toWorker)
    (htoFeeder : s'.pair.toFeeder.length ≤ s.pair.toFeeder.length)
    (hpending : s'.pair.pending = s.pair.pending)
    (hclosed : s'.pair.eof = true ∨ s'.pair.shut = true → s'.recvEof = true) :
    PumpInv ci co s' where
  valid :=
    { input := by rw [htoWorker]; exact hI.valid.input
      output := Nat.le_trans htoFeeder hI.valid.output
      opened := fun hp => absurd (hpending.trans (hI.idle hw)) hp }
  idle := fun _ => hpending.trans (hI.idle hw)
  closed := hclosed

/-- The CHANNEL_DATA step: the session goes on only before EOF, and within the window. -/
theorem channelData_step {data : Bytes}
    (h : (workerPipe act recvWindow ci co).step s (.channelData data) = some s') :
    s.writing = none ∧ s.recvEof = false ∧
      ((s.writefd = false ∧ s' = s) ∨ (s.writefd = true ∧ s' = { s with
        recvwindow := s.recvwindow - data.length
        writing := some data.length
        pair := { s.pair with pending := data } })) := by
  simp only [workerPipe, Pump.channelData] at h
  split_ifs at h with hw heof hfd hlen
  · cases h
    exact ⟨by simpa using hw, by simpa using heof, .inl ⟨by simpa using hfd, rfl⟩⟩
  · cases h
    exact ⟨by simpa using hw, by simpa using heof, .inr ⟨by simpa using hfd, rfl⟩⟩

theorem copy_step (h : (workerPipe act recvWindow ci co).step s .copy = some s') :
    ∃ d, s.pair.push ci = some d ∧ s' = { s with pair := d } := by
  simp only [workerPipe, Option.map_eq_some_iff] at h
  obtain ⟨d, hd, rfl⟩ := h
  exact ⟨d, hd, rfl⟩

theorem worker_step' (h : (workerPipe act recvWindow ci co).step s .worker = some s') :
    ∃ d, s.pair.work act co = some d ∧ s' = { s with pair := d } := by
  simp only [workerPipe, Option.map_eq_some_iff] at h
  obtain ⟨d, hd, rfl⟩ := h
  exact ⟨d, hd, rfl⟩

/-- The end of a `writev` leaves no block. -/
theorem writeEnd_step {l : PumpEvent} (hl : l = .writeReturn ∨ l = .writeError)
    (h : (workerPipe act recvWindow ci co).step s l = some s') :
    s'.pair = { s.pair with pending := [] } ∧ s'.recvEof = s.recvEof ∧
      (s.pair.pending = [] ∨ act s.pair.worker = .halt) := by
  rcases hl with rfl | rfl
  · simp only [workerPipe, Pump.writeReturn] at h
    cases hw : s.writing with
    | none => simp [hw] at h
    | some n =>
      simp only [hw] at h
      by_cases hp : s.pair.pending = []
      · rw [if_neg (by simp [hp])] at h
        have hpair : s.pair = { s.pair with pending := [] } := by rw [← hp]
        split_ifs at h <;> cases h <;> exact ⟨hpair, rfl, .inl hp⟩
      · rw [if_pos hp] at h
        cases h
  · simp only [workerPipe, Pump.writeError] at h
    split at h
    · next n hw ha =>
      cases h
      exact ⟨rfl, rfl, .inr ha⟩
    · cases h

/-- The steps of the main thread between two blocks. -/
theorem other_step {l : PumpEvent} (hd : ∀ data, l ≠ .channelData data) (hc : l ≠ .copy)
    (hw : l ≠ .worker) (hr : l ≠ .writeReturn) (he : l ≠ .writeError)
    (h : (workerPipe act recvWindow ci co).step s l = some s') :
    s.writing = none ∧ s'.pair.toWorker = s.pair.toWorker ∧
      s'.pair.toFeeder.length ≤ s.pair.toFeeder.length ∧ s'.pair.pending = s.pair.pending ∧
      ((s'.pair.eof = s.pair.eof ∧ s'.pair.shut = s.pair.shut ∧ s'.recvEof = s.recvEof) ∨
        s'.recvEof = true) := by
  cases l with
  | channelData data => exact absurd rfl (hd data)
  | copy => exact absurd rfl hc
  | worker => exact absurd rfl hw
  | writeReturn => exact absurd rfl hr
  | writeError => exact absurd rfl he
  | channelRead =>
    simp only [workerPipe, Pump.channelRead] at h
    split_ifs at h with hwriting
    cases h
    refine ⟨by simpa using hwriting, rfl, ?_, rfl, .inl ⟨rfl, rfl, rfl⟩⟩
    simp only [List.length_drop]
    omega
  | windowAdjust incr =>
    simp only [workerPipe] at h
    split_ifs at h with hwriting
    cases h
    exact ⟨by simpa using hwriting, rfl, Nat.le_refl _, rfl, .inl ⟨rfl, rfl, rfl⟩⟩
  | channelEof =>
    simp only [workerPipe] at h
    split_ifs at h with hwriting
    cases h
    exact ⟨by simpa using hwriting, rfl, Nat.le_refl _, rfl, .inr rfl⟩
  | channelClose =>
    simp only [workerPipe] at h
    split_ifs at h with hwriting
    cases h
    exact ⟨by simpa using hwriting, rfl, Nat.le_refl _, rfl, .inr rfl⟩

theorem PumpInv.step {l : PumpEvent} (hI : PumpInv ci co s)
    (h : (workerPipe act recvWindow ci co).step s l = some s') : PumpInv ci co s' := by
  have hopen : s.recvEof = false → s.pair.eof = false ∧ s.pair.shut = false := by
    intro hf
    constructor
    · by_contra hne
      exact absurd (hf.symm.trans (hI.closed (.inl (by simpa using hne)))) (by simp)
    · by_contra hne
      exact absurd (hf.symm.trans (hI.closed (.inr (by simpa using hne)))) (by simp)
  by_cases hdata : ∃ data, l = .channelData data
  · obtain ⟨data, rfl⟩ := hdata
    obtain ⟨hw, heof, ⟨-, rfl⟩ | ⟨-, rfl⟩⟩ := channelData_step h
    · exact hI
    · refine ⟨⟨hI.valid.input, hI.valid.output, fun _ => hopen heof⟩, ?_, hI.closed⟩
      intro hn
      cases hn
  by_cases hcopy : l = .copy
  · subst hcopy
    obtain ⟨d, hd, rfl⟩ := copy_step h
    obtain ⟨a, rest, hp, hroom, rfl⟩ := Duplex.push_eq_some hd
    refine ⟨hI.valid.push hd, ?_, hI.closed⟩
    intro hw
    exact absurd (hp.symm.trans (hI.idle hw)) (by simp)
  by_cases hworker : l = .worker
  · subst hworker
    obtain ⟨d, hd, rfl⟩ := worker_step' h
    obtain ⟨hpend, heof, hshut⟩ := Duplex.work_frame hd
    refine ⟨hI.valid.work hd, fun hw => hpend.trans (hI.idle hw), ?_⟩
    simp only [heof, hshut]
    exact hI.closed
  by_cases hend : l = .writeReturn ∨ l = .writeError
  · obtain ⟨hpair, heof, -⟩ := writeEnd_step hend h
    refine ⟨⟨?_, ?_, ?_⟩, fun _ => by rw [hpair], ?_⟩
    · rw [hpair]; exact hI.valid.input
    · rw [hpair]; exact hI.valid.output
    · rw [hpair]; exact fun hp => absurd rfl hp
    · rw [hpair, heof]; exact hI.closed
  · rw [not_or] at hend
    obtain ⟨hw, htw, htf, hp, hcl⟩ :=
      other_step (fun data hd => hdata ⟨data, hd⟩) hcopy hworker hend.1 hend.2 h
    refine hI.of_idle hw htw htf hp fun hc => ?_
    rcases hcl with ⟨he, hs, hr⟩ | hr
    · rw [he, hs] at hc
      rw [hr]
      exact hI.closed hc
    · exact hr

/-- A step keeps a write safe, or starts one, which is safe when its block is absorbed. -/
theorem safe_step_iff {l : PumpEvent} (hI : PumpInv ci co s)
    (h : (workerPipe act recvWindow ci co).step s l = some s') :
    s'.pair.Safe act ci co ↔ s.pair.Safe act ci co ∧ BlockAbsorbed act ci co s l := by
  by_cases hdata : ∃ data, l = .channelData data
  · obtain ⟨data, rfl⟩ := hdata
    obtain ⟨hw, heof, ⟨hfd, rfl⟩ | ⟨hfd, rfl⟩⟩ := channelData_step h
    · simp [BlockAbsorbed, hfd]
    · have hs : s.pair.Safe act ci co := Duplex.safe_of_idle (hI.idle hw)
      simp only [hs, true_and, BlockAbsorbed, hfd, forall_const]
      by_cases hnil : data = []
      · subst hnil
        have hz : s.pair.toWorker.length + ([] : Bytes).length - ci = 0 := by
          have := hI.valid.input
          simp only [List.length_nil]
          omega
        rw [hz]
        exact ⟨fun _ => .done _ _ _, fun _ => Duplex.safe_of_idle rfl⟩
      · exact ⟨fun hsafe => hsafe hnil, fun habs _ => habs⟩
  have hcond : BlockAbsorbed act ci co s l := by
    cases l with
    | channelData data => exact absurd ⟨data, rfl⟩ hdata
    | _ => trivial
  simp only [hcond, and_true]
  by_cases hcopy : l = .copy
  · subst hcopy
    obtain ⟨d, hd, rfl⟩ := copy_step h
    exact Duplex.safe_push_iff hd
  by_cases hworker : l = .worker
  · subst hworker
    obtain ⟨d, hd, rfl⟩ := worker_step' h
    exact Duplex.safe_work_iff hI.valid hd
  by_cases hend : l = .writeReturn ∨ l = .writeError
  · obtain ⟨hpair, -, hp | ha⟩ := writeEnd_step hend h
    · exact ⟨fun _ => Duplex.safe_of_idle hp, fun _ => Duplex.safe_of_idle (by rw [hpair])⟩
    · exact ⟨fun _ _ => .halt ha, fun _ => Duplex.safe_of_idle (by rw [hpair])⟩
  · rw [not_or] at hend
    obtain ⟨hw, -, -, hp, -⟩ :=
      other_step (fun data hd => hdata ⟨data, hd⟩) hcopy hworker hend.1 hend.2 h
    exact ⟨fun _ => Duplex.safe_of_idle (hI.idle hw),
      fun _ => Duplex.safe_of_idle (hp.trans (hI.idle hw))⟩

/-- The two threads during a write are part of the channel's behaviour. -/
theorem reachable_of_turns {t : Duplex W UInt8}
    (h : (Duplex.turns act ci co).Reachable s.pair t) :
    (workerPipe act recvWindow ci co).Reachable s { s with pair := t } := by
  obtain ⟨ls, hls⟩ := h
  induction ls generalizing s with
  | nil =>
    cases hls
    exact LTS.Reachable.refl s
  | cons l ls ih =>
    obtain ⟨d, hd, hrest⟩ := LTS.exec_cons_eq_some.1 hls
    have hstep : (workerPipe act recvWindow ci co).Reachable s { s with pair := d } := by
      cases l with
      | false =>
        have hd' : s.pair.push ci = some d := hd
        exact ⟨[.copy], by simp [workerPipe, hd']⟩
      | true =>
        have hd' : s.pair.work act co = some d := hd
        exact ⟨[.worker], by simp [workerPipe, hd']⟩
    exact hstep.trans (ih (s := { s with pair := d }) hrest)

/-- **Deadlocks between the main thread and a worker.**  In a run in which every block is absorbed
no state is deadlocked; and as soon as a block is not absorbed, a deadlock can be reached. -/
theorem workerPipe_deadlock_iff (hci : 0 < ci) {w : W} {transwindow transmaxpacket : ℕ}
    {ls : List PumpEvent} (h : (workerPipe act recvWindow ci co).exec
      (Pump.start recvWindow w transwindow transmaxpacket) ls = some s) :
    ((workerPipe act recvWindow ci co).Along (BlockAbsorbed act ci co)
        (Pump.start recvWindow w transwindow transmaxpacket) ls → ¬ s.Deadlocked act ci co) ∧
    (¬ (workerPipe act recvWindow ci co).Along (BlockAbsorbed act ci co)
        (Pump.start recvWindow w transwindow transmaxpacket) ls →
      ∃ t, (workerPipe act recvWindow ci co).Reachable s t ∧ t.Deadlocked act ci co) := by
  have hstart : PumpInv ci co (Pump.start recvWindow w transwindow transmaxpacket) :=
    .start w transwindow transmaxpacket
  have hiff := LTS.exec_iff_along (J := PumpInv ci co) (P := fun s => s.pair.Safe act ci co)
    (C := BlockAbsorbed act ci co) hstart (Duplex.safe_of_idle rfl)
    (fun s l s' hJ hst => hJ.step hst)
    (fun s l s' hJ hP hC hst => (safe_step_iff hJ hst).2 ⟨hP, hC⟩)
    (fun s l s' hJ hP hC hst hP' => hC ((safe_step_iff hJ hst).1 hP').2)
    (fun s l s' hJ hP hst hP' => hP ((safe_step_iff hJ hst).1 hP').1) h
  have hinv : PumpInv ci co s := LTS.exec_invariant' hstart (fun s l s' hJ hst => hJ.step hst) h
  refine ⟨fun hal => (hiff.2 hal).not_deadlocked, ?_⟩
  intro hal
  obtain ⟨t, hr, hdead⟩ := Duplex.exists_deadlock hci hinv.valid (hiff.not.2 hal)
  exact ⟨{ s with pair := t }, reachable_of_turns hr, hdead⟩

/-! ### Carriage returns -/

/-- An empty line is answered with a line feed and the prompt. -/
theorem ShellWorker.onByte_cr (kernels : ℕ → Kernel) {w : ShellWorker}
    (hcmd : w.thread.command = []) :
    (w.onByte kernels 13).thread.command = [] ∧ (w.onByte kernels 13).leaving = w.leaving ∧
      0 < (w.onByte kernels 13).out.length := by
  have hbyte : w.thread.onByte 13 = (⟨[], true, w.thread.status⟩, .line []) := by
    rw [show w.thread = ⟨[], w.thread.lastWasCr, w.thread.status⟩ by rw [← hcmd]]
    rfl
  have hhandles : ps4ShellHandles [] = false := by decide
  refine ⟨?_, ?_, ?_⟩
  · simp [ShellWorker.onByte, hbyte]
  · simp [ShellWorker.onByte, hbyte]
  · simp [ShellWorker.onByte, hbyte, ShellThread.dispatch, hhandles, ascii]

/-- Every carriage return after the first costs the worker a byte of room. -/
theorem ShellWorker.absorbs_cr {kernels : ℕ → Kernel} {w : ShellWorker} {room n : ℕ}
    {input : Bytes} (h : Duplex.Absorbs (ShellWorker.act kernels) w room n input)
    (hinput : ∀ b ∈ input, b = 13) (hcmd : w.thread.command = []) (hl : w.leaving = false) :
    n = 0 ∨ n - 1 + w.out.length ≤ room := by
  induction h with
  | done => exact .inl rfl
  | @halt w room n input ha =>
    unfold ShellWorker.act at ha
    split at ha
    · cases ha
    · rw [if_neg (by simp [hl])] at ha
      cases ha
  | @read w k room n b input ha ih ih' =>
    right
    unfold ShellWorker.act at ha
    split at ha
    · cases ha
    · next hout =>
      rw [if_neg (by simp [hl])] at ha
      cases ha
      rw [hinput b (by simp)] at ih'
      obtain ⟨hcmd', hl', hpos⟩ := onByte_cr kernels hcmd
      have hrec : n = 0 ∨ n - 1 + (w.onByte kernels 13).out.length ≤ room :=
        ih' (fun c hc => hinput c (List.mem_cons_of_mem b hc)) hcmd' (hl'.trans hl)
      rw [hout, List.length_nil]
      rcases hrec with hz | hle <;> omega
  | @emit w next b room n input ha ih ih' =>
    unfold ShellWorker.act at ha
    split at ha
    · next b' out hout =>
      cases ha
      rw [hout, List.length_cons]
      rcases ih' hinput hcmd hl with hz | hle
      · exact .inl hz
      · exact .inr (by simp only at hle; omega)
    · split_ifs at ha

/-- The buffer of each direction of a socket pair. -/
def socketBuffer : ℕ := 8192

/-- The default receive window, `DEFAULT_RECV_WINDOW`. -/
def defaultRecvWindow : ℕ := 24576

/-- A new shell channel, with the windows that a common client grants. -/
def newShellChannel : Pump ShellWorker :=
  Pump.start defaultRecvWindow (.start (ps4ShellInit (ascii "/data/dropbear"))) (2 ^ 21) 32768

/-- A shell channel on a quiet system. -/
def shellPipe : LTS (Pump ShellWorker) PumpEvent :=
  workerPipe (ShellWorker.act fun _ => quietKernel) defaultRecvWindow socketBuffer socketBuffer

/-- A line that the queue has room for. -/
theorem workerPipe_deadlock_iff_line :
    ∃ s, shellPipe.exec newShellChannel [.channelData (ascii "id\r")] = some s ∧
      shellPipe.Along (BlockAbsorbed (ShellWorker.act fun _ => quietKernel) socketBuffer
        socketBuffer) newShellChannel [.channelData (ascii "id\r")] ∧
      ¬ s.Deadlocked (ShellWorker.act fun _ => quietKernel) socketBuffer socketBuffer := by
  have hrun : (shellPipe.exec newShellChannel [.channelData (ascii "id\r")]).isSome = true := by
    decide
  obtain ⟨s, hs⟩ := Option.isSome_iff_exists.1 hrun
  have halong : shellPipe.Along (BlockAbsorbed (ShellWorker.act fun _ => quietKernel) socketBuffer
      socketBuffer) newShellChannel [.channelData (ascii "id\r")] :=
    ⟨fun _ => .done _ _ _, fun _ _ => trivial⟩
  exact ⟨s, hs, halong, (workerPipe_deadlock_iff (by decide) hs).1 halong⟩

/-- A client that sends 16386 carriage returns in one message can bring the main thread and the
shell into a deadlock. -/
theorem carriageReturns_deadlock :
    ¬ ∀ (kernels : ℕ → Kernel) (ci co : ℕ), 0 < ci → 0 < co → ∀ s,
      (workerPipe (ShellWorker.act kernels) defaultRecvWindow ci co).Reachable newShellChannel s →
      ¬ s.Deadlocked (ShellWorker.act kernels) ci co := by
  intro hall
  set data : Bytes := List.replicate 16386 13 with hdata
  have hlen : data.length = 16386 := List.length_replicate
  obtain ⟨s, hs⟩ : ∃ s, shellPipe.exec newShellChannel [.channelData data] = some s := by
    simp [shellPipe, workerPipe, Pump.channelData, newShellChannel, Pump.start, hlen,
      defaultRecvWindow]
  have hnot : ¬ shellPipe.Along (BlockAbsorbed (ShellWorker.act fun _ => quietKernel) socketBuffer
      socketBuffer) newShellChannel [.channelData data] := by
    rintro ⟨habs, -⟩
    have hb := ShellWorker.absorbs_cr (habs rfl) (fun b hb => List.eq_of_mem_replicate hb) rfl rfl
    simp only [newShellChannel, Pump.start, hlen, List.length_nil, socketBuffer] at hb
    omega
  obtain ⟨t, hr, hdead⟩ := (workerPipe_deadlock_iff (by decide) hs).2 hnot
  exact hall (fun _ => quietKernel) socketBuffer socketBuffer (by decide) (by decide) t
    (LTS.Reachable.trans ⟨_, hs⟩ hr) hdead

end Ps4Dropbear
