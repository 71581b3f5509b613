import Ps4Dropbear.Channel.Handoff
import Ps4Dropbear.Scp.Ending
import Ps4Dropbear.Shell.Worker

/-!
# Waiting for a worker

`cleanupchansess` shuts the socket of a worker down and waits for the thread.  The worker can be
anywhere by then, in a command or in the middle of a file, and what it does about a write that fails
is up to it; it has to come to an end by itself.

The threads of a shell and of `scp` end in the same way: they store an exit status and
`PS4_BACKEND_DONE`, take what is in `ps4_backend_fd`, and close their socket if it was there.

* `ThreadCall` : the calls of a thread, those of its program and those of its end.
* `workerThread` : a thread with its program.
* `finishes_workerThread` : it finishes after a shutdown if its program ends.
* `Handoff.total_threadEnd_handoff` : its end is that of the worker in `backendHandoff`.
* `Handoff.shutdown_of_joining` : a thread is waited for behind a shutdown, or behind its exchange.

**Main result** (`cancelledWorker_finishes`): a worker whose socket is shut down finishes, from
wherever it is.
-/

namespace Ps4Dropbear

/-- The calls of a worker thread. -/
inductive ThreadCall (L : Type)
  /-- A call of its program. -/
  | sys (l : L)
  /-- The stores to `exit`, with this status. -/
  | storeExit (status : ℤ)
  /-- The store of `PS4_BACKEND_DONE`. -/
  | storeDone
  | exchangeBackendFd
  | closeSocket

/-- What they return; the result of `close` is dropped. -/
@[reducible] def ThreadCall.Answer {L : Type} (RL : L → Type) : ThreadCall L → Type
  | sys l => RL l
  | exchangeBackendFd => ℤ
  | storeExit _ | storeDone | closeSocket => Unit

/-- The world of a worker thread: the world of its program, and what it stores. -/
structure WorkerWorld (W : Type) where
  sys : W
  exit : ExitInfo
  state : BackendState

section Threads

variable {B L : Type} {RL : L → Type} {W : Type}

/-- The answers to a thread.  The main thread may have taken the number out of `ps4_backend_fd`. -/
def ThreadCall.May (HL : (l : L) → W → RL l → W → Prop) :
    (c : ThreadCall L) → WorkerWorld W → c.Answer RL → WorkerWorld W → Prop
  | .sys l, w, r, w' => HL l w.sys r w'.sys ∧ w'.exit = w.exit ∧ w'.state = w.state
  | .storeExit status, w, _, w' => w' = { w with exit := ⟨0, status, -1, 0⟩ }
  | .storeDone, w, _, w' => w' = { w with state := .done }
  | .exchangeBackendFd, w, r, w' => -1 ≤ r ∧ w' = w
  | .closeSocket, w, _, w' => w' = w

/-- The interruptions that a thread sees are those of its program. -/
def ThreadCall.Interrupted (eintr : (l : L) → RL l → Prop) : (c : ThreadCall L) → c.Answer RL → Prop
  | .sys l, r => eintr l r
  | .storeExit _, _ | .storeDone, _ | .exchangeBackendFd, _ | .closeSocket, _ => False

/-- The calls of its program, as calls of the thread. -/
def threadCall : (c : IoCall B L) → SocketProg B (ThreadCall.Answer RL) (c.Answer RL)
  | .recv n => SocketProg.recv n
  | .send bs => SocketProg.send bs
  | .loc l => SocketProg.loc (ThreadCall.sys l)

/-- What a thread does behind its program. -/
def threadEnd (exitstatus : ℤ) : SocketProg B (ThreadCall.Answer RL) Unit := do
  SocketProg.loc (ThreadCall.storeExit exitstatus)
  SocketProg.loc ThreadCall.storeDone
  let fd ← SocketProg.loc ThreadCall.exchangeBackendFd
  if 0 ≤ fd then SocketProg.loc ThreadCall.closeSocket else return ()

/-- A thread with its program, and the exit status that it makes of the result. -/
def workerThread (program : SocketProg B RL ℤ) (exitstatus : ℤ → ℤ) :
    SocketProg B (ThreadCall.Answer RL) Unit :=
  (Prog.interpret threadCall program).bind fun status => threadEnd (exitstatus status)

end Threads

/-- `ps4_shell_thread`. -/
def ps4ShellThread (L : Libc) (errno : ℕ → Errno) (shell : ShellState) :
    SocketProg UInt8 (ThreadCall.Answer ShellCall.Answer) Unit :=
  workerThread (ThreadProg.shellLoop L errno shell) id

/-- `ps4_scp_thread`. -/
def ps4ScpThread (request : ScpRequest) :
    SocketProg UInt8 (ThreadCall.Answer FileCall.Answer) Unit :=
  workerThread (ScpProg.ps4ScpServe request) fun status => if status = 0 then 0 else 1

/-! ### A thread finishes if its program does -/

section Finishing

variable {B L : Type} {RL : L → Type} {W : Type}
variable {eintr : (l : L) → RL l → Prop} {HL : (l : L) → W → RL l → W → Prop}

/-- The answers to a thread on a socket that can be shut down. -/
abbrev ThreadOnLine (eintr : (l : L) → RL l → Prop) (HL : (l : L) → W → RL l → W → Prop) :
    (c : IoCall B (ThreadCall L)) → LineWorld (WorkerWorld W) B →
      c.Answer (ThreadCall.Answer RL) → LineWorld (WorkerWorld W) B → Prop :=
  SocketProg.OnLine (ThreadCall.Interrupted eintr) (ThreadCall.May HL)

/-- The answers to a thread with a budget. -/
abbrev ThreadBounded (eintr : (l : L) → RL l → Prop) (HL : (l : L) → W → RL l → W → Prop) :
    (c : IoCall B (ThreadCall L)) → Budget (WorkerWorld W) →
      c.Answer (ThreadCall.Answer RL) → Budget (WorkerWorld W) → Prop :=
  SocketProg.Bounded (ThreadCall.Interrupted eintr) (ThreadCall.May HL)

theorem ThreadCall.exists_may (hex : ∀ l w, ∃ r w', HL l w r w' ∧ ¬ eintr l r) (c : ThreadCall L)
    (w : WorkerWorld W) : ∃ r w', ThreadCall.May HL c w r w' ∧ ¬ c.Interrupted eintr r := by
  cases c with
  | sys l =>
    obtain ⟨r, o, hl, hr⟩ := hex l w.sys
    exact ⟨r, { w with sys := o }, ⟨hl, rfl, rfl⟩, hr⟩
  | exchangeBackendFd => exact ⟨-1, w, ⟨Int.le_refl _, rfl⟩, nofun⟩
  | storeExit | storeDone | closeSocket => exact ⟨(), _, rfl, nofun⟩

/-- The world of the program inside the thread. -/
def BehindThread (w : Budget W) (v : Budget (WorkerWorld W)) : Prop :=
  w = ⟨v.own.sys, v.elements, v.interrupts⟩

/-- The thread answers its program as the world does. -/
theorem total_threadCall (hex : ∀ l w, ∃ r w', HL l w r w' ∧ ¬ eintr l r) (c : IoCall B L)
    (w : Budget W) (v : Budget (WorkerWorld W)) (hw : BehindThread w v) :
    Prog.Total (ThreadBounded eintr HL)
      (fun r v' => ∃ w', SocketProg.Bounded eintr HL c w r w' ∧ BehindThread w' v')
      (threadCall c) v := by
  subst hw
  have hanswer (c : IoCall B (ThreadCall L)) (v : Budget (WorkerWorld W)) :
      ∃ r v', ThreadBounded eintr HL c v r v' :=
    SocketProg.exists_bounded (ThreadCall.exists_may hex) c v
  cases c with
  | recv n =>
    refine .call (hanswer (.recv n) v) fun r v' h => .ret ⟨_, ?_, rfl⟩
    rcases r with e | bs
    · obtain ⟨hown, hel, hspent⟩ := h
      exact ⟨congrArg WorkerWorld.sys hown, hel, hspent⟩
    · obtain ⟨hlen, rfl⟩ := h
      exact ⟨hlen, rfl⟩
  | send bs =>
    refine .call (hanswer (.send bs) v) fun r v' h => .ret ⟨_, ?_, rfl⟩
    rcases r with e | n
    · obtain ⟨hown, hel, hspent⟩ := h
      exact ⟨congrArg WorkerWorld.sys hown, hel, hspent⟩
    · obtain ⟨hn, rfl⟩ := h
      exact ⟨hn, rfl⟩
  | loc l =>
    refine .call (hanswer (.loc (.sys l)) v) fun r v' h => .ret ⟨_, ?_, rfl⟩
    obtain ⟨⟨hl, -⟩, hel, hspent⟩ := h
    exact ⟨hl, hel, hspent⟩

/-- One call behind the program. -/
theorem total_loc {c : ThreadCall L} {α : Type}
    {f : c.Answer RL → SocketProg B (ThreadCall.Answer RL) α}
    {Q : α → Budget (WorkerWorld W) → Prop} {v : Budget (WorkerWorld W)}
    (hex : ∀ l w, ∃ r w', HL l w r w' ∧ ¬ eintr l r)
    (hf : ∀ r v', ThreadCall.May HL c v.own r v'.own →
      Prog.Total (ThreadBounded eintr HL) Q (f r) v') :
    Prog.Total (ThreadBounded eintr HL) Q ((SocketProg.loc c).bind f) v :=
  .perform_bind (SocketProg.exists_bounded (ThreadCall.exists_may hex) _ v)
    fun r v' h => hf r v' h.1

theorem total_threadEnd (hex : ∀ l w, ∃ r w', HL l w r w' ∧ ¬ eintr l r) (exitstatus : ℤ)
    (v : Budget (WorkerWorld W)) :
    Prog.Total (ThreadBounded eintr HL) (fun _ v' => v'.own.state = .done)
      (threadEnd exitstatus : SocketProg B (ThreadCall.Answer RL) Unit) v := by
  unfold threadEnd
  refine total_loc hex fun _ v₁ _ => total_loc hex fun _ v₂ hdone => ?_
  refine total_loc hex fun fd v₃ hfd => ?_
  have hstate : v₃.own.state = .done := by rw [hfd.2, hdone]
  split
  · refine .call (SocketProg.exists_bounded (ThreadCall.exists_may hex) _ v₃) fun _ v₄ hclose => ?_
    have hsame : v₄.own = v₃.own := hclose.1
    exact .ret (by rw [hsame]; exact hstate)
  · exact .ret hstate

/-- **A thread after a shutdown**: it finishes if its program ends with every budget. -/
theorem finishes_workerThread (hex : ∀ l w, ∃ r w', HL l w r w' ∧ ¬ eintr l r)
    {program : SocketProg B RL ℤ}
    (h : Prog.Ends (SocketProg.Bounded eintr HL) SocketProg.Left program) (exitstatus : ℤ → ℤ)
    {q : SocketProg B (ThreadCall.Answer RL) Unit} {own own' : WorkerWorld W}
    (hrun : Prog.Reaches (ThreadOnLine eintr HL) (workerThread program exitstatus) ⟨own, .up⟩
      q ⟨own', .up⟩) (queued : List B) (k : ℕ) :
    Prog.Finishes (ThreadOnLine eintr HL) (fun _ w => w.own.state = .done) q
      ⟨own', .down queued k⟩ := by
  refine SocketProg.finishes_of_bounded (Q := fun _ o => o.state = .done)
    (ThreadCall.exists_may hex) (fun m k => ?_) hrun queued k
  have hstart : BehindThread ⟨own.sys, m, k⟩ (⟨own, m, k⟩ : Budget (WorkerWorld W)) := rfl
  refine (Prog.Total.interpret (total_threadCall hex) (h _) hstart).bind fun status v' _ => ?_
  exact total_threadEnd hex _ v'

end Finishing

/-! ### In front of `pthread_join` -/

/-- The numbers that the main thread holds behind their shutdown. -/
def HandoffMain.shut : HandoffMain → List ℤ
  | .shutdownBackend _ cancel => held cancel
  | .shutdownCancel backend cancel | .joining backend cancel => held backend ++ held cancel
  | _ => []

namespace Handoff

variable {R : Restriction} {s t : Handoff}

theorem nonneg_of_mem_held {fd fd' : ℤ} (h : fd' ∈ held fd) : 0 ≤ fd := by
  by_contra hneg
  simp [held, hneg] at h

/-- The socket has been shut down. -/
def IsShut (s : Handoff) : Prop := ⟨.shutdown, (s.sock : ℤ)⟩ ∈ s.calls

/-- A number that has come through `ps4_cancel_fd`, or that `cleanupchansess` holds behind its
shutdown, is that of a socket that has been shut down. -/
structure ShutFirst (s : Handoff) : Prop where
  cancel : 0 ≤ s.cs.cancelFd → s.IsShut ∨ ∃ fd, s.main = .cancelled fd
  main : ∀ fd ∈ s.main.shut, s.IsShut

theorem IsShut.append {calls : List SocketCall} (h : s.IsShut) (hsock : t.sock = s.sock)
    (hcalls : t.calls = s.calls ++ calls) : t.IsShut := by
  unfold IsShut
  rw [hsock, hcalls]
  exact List.mem_append_left _ h

/-- A step that leaves the numbers of the main thread alone. -/
theorem ShutFirst.of_same (h : ShutFirst s) {calls : List SocketCall} (hsock : t.sock = s.sock)
    (hcalls : t.calls = s.calls ++ calls) (hcancel : t.cs.cancelFd = s.cs.cancelFd)
    (hmain : t.main = s.main) : ShutFirst t := by
  constructor
  · intro hfd
    rw [hcancel] at hfd
    rw [hmain]
    exact (h.cancel hfd).imp_left fun hshut => hshut.append hsock hcalls
  · intro fd hfd
    rw [hmain] at hfd
    exact (h.main fd hfd).append hsock hcalls

/-- The calls of `shutdown` in `cleanupchansess`. -/
theorem Started.isShut_onFd (h : Started s) {fd : ℤ} (hfd : fd ∈ s.holders) (hnn : 0 ≤ fd)
    (hsock : t.sock = s.sock) (hcalls : t.calls = s.calls ++ SocketOp.shutdown.onFd fd) :
    t.IsShut := by
  obtain ⟨rfl, -⟩ := h.open_of_mem fd hfd
  unfold IsShut
  rw [hsock, hcalls, SocketOp.onFd, if_pos hnn]
  exact List.mem_append_right _ (List.mem_singleton_self _)

/-- No number is behind its shutdown. -/
theorem shut_of_nil (h : s.main.shut = []) : ∀ fd ∈ s.main.shut, s.IsShut := by
  intro fd hfd
  rw [h] at hfd
  exact absurd hfd List.not_mem_nil

theorem ShutFirst.mainStep (h : ShutFirst s) (hs : Started s) (hst : s.mainStep = some t) :
    ShutFirst t := by
  have hcancel : (∀ fd, s.main ≠ .cancelled fd) → 0 ≤ s.cs.cancelFd → s.IsShut := fun hm hfd =>
    (h.cancel hfd).resolve_right (not_exists.2 hm)
  unfold Handoff.mainStep at hst
  cases hm : s.main with
  | poll | returned => simp [hm] at hst
  | loaded state =>
    have hshut := hcancel (by simp [hm])
    simp only [hm] at hst
    split_ifs at hst <;> cases hst <;> exact ⟨fun hfd => .inl (hshut hfd), shut_of_nil rfl⟩
  | exchanged fd =>
    have hshut := hcancel (by simp [hm])
    simp only [hm] at hst
    split_ifs at hst <;> cases hst
    · exact ⟨fun _ => .inr ⟨fd, rfl⟩, shut_of_nil rfl⟩
    · exact ⟨fun hfd => .inl (hshut hfd), shut_of_nil rfl⟩
  | cancelled fd =>
    -- the call that the store of `ps4_cancel_fd` was for
    obtain ⟨heq, hfd⟩ := hs.cancelled fd hm
    have hmem : fd ∈ s.holders := by simp [holders, heq, held_of_nonneg hfd]
    simp only [hm] at hst
    cases hst
    refine ⟨fun _ => .inl (hs.isShut_onFd hmem hfd rfl ?_), shut_of_nil rfl⟩
    rw [SocketOp.onFd, if_pos hfd]
  | taken backend =>
    have hshut := hcancel (by simp [hm])
    simp only [hm] at hst
    cases hst
    exact ⟨by simp, fun fd hfd => hshut (nonneg_of_mem_held hfd)⟩
  | shutdownBackend backend cancel =>
    have hneg := hs.cancel (by simp [hm, HandoffMain.cleaning]) (by simp [hm])
    simp only [hm] at hst
    cases hst
    refine ⟨fun hfd => absurd hfd (Int.not_le.2 hneg), fun fd hfd => ?_⟩
    rcases List.mem_append.1 hfd with hbackend | hcancel
    · have hnn := nonneg_of_mem_held hbackend
      have hmem : backend ∈ s.holders := by
        simp [holders, HandoffMain.holds, hm, held_of_nonneg hnn]
      exact hs.isShut_onFd hmem hnn rfl rfl
    · have hshut : s.IsShut := h.main fd (by rw [hm]; exact hcancel)
      exact hshut.append rfl rfl
  | shutdownCancel backend cancel =>
    have hneg := hs.cancel (by simp [hm, HandoffMain.cleaning]) (by simp [hm])
    simp only [hm] at hst
    cases hst
    refine ⟨fun hfd => absurd hfd (Int.not_le.2 hneg), fun fd hfd => ?_⟩
    have hshut : s.IsShut := h.main fd (by rw [hm]; exact hfd)
    exact hshut.append rfl rfl
  | joining backend cancel =>
    have hneg := hs.cancel (by simp [hm, HandoffMain.cleaning]) (by simp [hm])
    simp only [hm] at hst
    split_ifs at hst
    cases hst
    exact ⟨fun hfd => absurd hfd (Int.not_le.2 hneg), shut_of_nil rfl⟩
  | closeBackend backend cancel | closeCancel cancel =>
    have hneg := hs.cancel (by simp [hm, HandoffMain.cleaning]) (by simp [hm])
    simp only [hm] at hst
    cases hst
    exact ⟨fun hfd => absurd hfd (Int.not_le.2 hneg), shut_of_nil rfl⟩

/-- **One step** keeps it. -/
theorem ShutFirst.step (h : ShutFirst s) (hs : Started s) {e : HandoffEvent}
    (hst : (backendHandoff R).step s e = some t) : ShutFirst t := by
  cases e with
  | request payload env =>
    simp only [backendHandoff, Option.ite_none_right_eq_some] at hst
    obtain ⟨ds, wantreply, ret, started, stores, hout, rfl⟩ := request_cases hst.2
    rw [if_neg (fun hn => hs.state hn.1)]
    have hcancel : ds.cancelFd = s.cs.cancelFd := by
      cases hout with
      | unstarted hun => exact hun.cancelFd
      | executed hex => exact absurd hex.idle hs.state
      | forked hfork => exact absurd hfork.idle hs.state
    exact h.of_same rfl (List.append_nil _).symm hcancel rfl
  | recvClose =>
    simp only [backendHandoff, Option.ite_none_right_eq_some, Option.some.injEq] at hst
    obtain ⟨-, rfl⟩ := hst
    exact h.of_same rfl (List.append_nil _).symm rfl rfl
  | check =>
    simp only [backendHandoff, Option.ite_none_right_eq_some, Option.some.injEq] at hst
    obtain ⟨hm, rfl⟩ := hst
    refine ⟨fun hfd => .inl ((h.cancel hfd).resolve_right ?_), shut_of_nil rfl⟩
    simp [hm]
  | cleanup =>
    simp only [backendHandoff, Option.ite_none_right_eq_some, Option.some.injEq] at hst
    obtain ⟨hm, rfl⟩ := hst
    have hthread : s.cs.threadStarted = true := hs.thread.resolve_right (by simp [hm])
    rw [Handoff.cleanup, if_pos hthread]
    refine ⟨fun hfd => .inl ((h.cancel hfd).resolve_right ?_), shut_of_nil rfl⟩
    simp [hm]
  | main => exact h.mainStep hs hst
  | workerRead | workerWrite =>
    simp only [backendHandoff, Option.ite_none_right_eq_some, Option.some.injEq] at hst
    obtain ⟨-, rfl⟩ := hst
    exact h.of_same rfl rfl rfl rfl
  | workerLeave status =>
    simp only [backendHandoff, Option.ite_none_right_eq_some, Option.some.injEq] at hst
    obtain ⟨-, rfl⟩ := hst
    exact h.of_same rfl (List.append_nil _).symm rfl rfl
  | worker =>
    simp only [backendHandoff, Handoff.workerStep] at hst
    cases hw : s.worker with
    | absent | loop | ended => simp [hw] at hst
    | left | done =>
      simp only [hw, Option.some.injEq] at hst
      subst hst
      exact h.of_same rfl (List.append_nil _).symm rfl rfl
    | exchanged fd =>
      simp only [hw, Option.some.injEq] at hst
      subst hst
      by_cases hfd : 0 ≤ fd
      · exact h.of_same rfl (if_pos hfd) rfl rfl
      · exact h.of_same rfl ((if_neg hfd).trans (List.append_nil _).symm) rfl rfl

/-- **In front of `pthread_join`** the socket has been shut down, or the worker has taken its number
and will do no more than close it. -/
theorem shutdown_of_joining {es : List HandoffEvent} (h : (backendHandoff R).exec {} es = some s)
    {backend cancel : ℤ} (hm : s.main = .joining backend cancel) :
    s.IsShut ∨ s.worker = .exchanged s.sock ∨ s.worker = .ended := by
  have hinv : s.Waiting ∨ s.Started ∧ s.ShutFirst := by
    refine LTS.exec_invariant' (I := fun s => s.Waiting ∨ s.Started ∧ s.ShutFirst)
      (.inl ⟨rfl, by decide, rfl, rfl, by decide, .inl rfl⟩) (fun s e s' hs hst => ?_) h
    rcases hs with hw | ⟨hs, hshut⟩
    · refine (hw.step hst).imp_right fun ⟨hs', hm', hcancel⟩ => ⟨hs', ?_, ?_⟩
      · exact fun hfd => absurd hfd (Int.not_le.2 hcancel)
      · rw [hm']
        exact nofun
    · exact .inr ⟨hs.step hst, hshut.step hs hst⟩
  rcases hinv with hw | ⟨hs, hshut⟩
  · rcases hw.main with hpoll | hpoll | ⟨st, hpoll, -⟩ <;> rw [hpoll] at hm <;> cases hm
  by_cases hheld : held backend ++ held cancel = []
  · -- so the number is with the worker, or the socket has been closed
    have htoken := hs.eq_singleton
    have hbackendFd := hs.backend (by simp [hm, HandoffMain.cleaning])
    have hcancelFd := hs.cancel (by simp [hm, HandoffMain.cleaning]) (by simp [hm])
    rw [holders, hm, HandoffMain.holds, hheld, held_of_neg hbackendFd, held_of_neg hcancelFd,
      List.nil_append, List.nil_append, List.nil_append] at htoken
    by_cases hclosed : s.closed = []
    · rw [hclosed, List.append_nil] at htoken
      cases hw : s.worker with
      | exchanged fd =>
        rw [hw, HandoffWorker.holds] at htoken
        have hfd := nonneg_of_mem_held (htoken ▸ List.mem_singleton_self (s.sock : ℤ))
        rw [held_of_nonneg hfd, List.singleton_inj] at htoken
        exact .inr (.inl (by rw [htoken]))
      | absent | loop | left | done | ended => simp [hw, HandoffWorker.holds] at htoken
    · exact .inr (.inr (hs.last hclosed).1)
  · obtain ⟨fd, hfd⟩ := List.exists_mem_of_ne_nil _ hheld
    exact .inl (hshut.main fd (by rw [hm]; exact hfd))

/-- The calls of a thread as steps of its worker. -/
def threadCalls {B L : Type} {RL : L → Type} (R : Restriction) :
    (c : IoCall B (ThreadCall L)) → Handoff → c.Answer (ThreadCall.Answer RL) → Handoff → Prop
  | .recv _, s, _, t => (backendHandoff R).step s .workerRead = some t
  | .send _, s, _, t => (backendHandoff R).step s .workerWrite = some t
  | .loc (.sys _), s, _, t => t = s
  | .loc (.storeExit status), s, _, t => (backendHandoff R).step s (.workerLeave status) = some t
  | .loc .storeDone, s, _, t => (backendHandoff R).step s .worker = some t
  | .loc .exchangeBackendFd, s, fd, t =>
    (backendHandoff R).step s .worker = some t ∧ fd = s.cs.backendFd
  | .loc .closeSocket, s, _, t => (backendHandoff R).step s .worker = some t

/-- Without a step of the main thread in between, the calls behind the program of a thread are the
steps of its worker, up to the end. -/
theorem total_threadEnd_handoff {B L : Type} {RL : L → Type} {s : Handoff} (hw : s.worker = .loop)
    (status : ℤ) :
    Prog.Total (threadCalls R)
      (fun _ t => t.worker = .ended ∨ ∃ fd, t.worker = .exchanged fd ∧ fd < 0)
      (threadEnd status : SocketProg B (ThreadCall.Answer RL) Unit) s := by
  unfold threadEnd
  refine .perform_bind ⟨(), _, if_pos hw⟩ fun _ s₁ h₁ => ?_
  obtain rfl : _ = s₁ := Option.some.inj ((if_pos hw).symm.trans h₁)
  refine .perform_bind ⟨(), _, rfl⟩ fun _ s₂ h₂ => ?_
  obtain rfl : _ = s₂ := Option.some.inj h₂
  refine .perform_bind ⟨_, _, rfl, rfl⟩ fun fd s₃ h₃ => ?_
  obtain ⟨h₃, rfl⟩ := h₃
  obtain rfl : _ = s₃ := Option.some.inj h₃
  split
  · refine .call ⟨(), _, rfl⟩ fun _ s₄ h₄ => .ret (.inl ?_)
    obtain rfl : _ = s₄ := Option.some.inj h₄
    rfl
  · next hfd => exact .ret (.inr ⟨_, rfl, Int.not_le.1 hfd⟩)

end Handoff

/-- **A worker that is waited for finishes.**  Take a shell or `scp` at any point of a run on a
socket in use, and shut the socket down there: whatever is still queued on it, and if calls are
interrupted only so often, the thread takes finitely many further steps, and it stops only by
returning, with `PS4_BACKEND_DONE` stored.  In front of `pthread_join` that has been done, or the
worker has stored `PS4_BACKEND_DONE` before. -/
theorem cancelledWorker_finishes :
    (∀ (L : Libc) (errno : ℕ → Errno) (shell : ShellState) (own own' : WorkerWorld ShellSystem)
      (q : SocketProg UInt8 (ThreadCall.Answer ShellCall.Answer) Unit),
      Prog.Reaches (ThreadOnLine ShellCall.Interrupted systemCalls) (ps4ShellThread L errno shell)
        ⟨own, .up⟩ q ⟨own', .up⟩ →
      ∀ (queued : Bytes) (k : ℕ),
        Prog.Finishes (ThreadOnLine ShellCall.Interrupted systemCalls)
          (fun _ w => w.own.state = .done) q ⟨own', .down queued k⟩) ∧
    (∀ (request : ScpRequest) (own own' : WorkerWorld Files)
      (q : SocketProg UInt8 (ThreadCall.Answer FileCall.Answer) Unit),
      Prog.Reaches (ThreadOnLine FileCall.Interrupted FileCall.May) (ps4ScpThread request)
        ⟨own, .up⟩ q ⟨own', .up⟩ →
      ∀ (queued : Bytes) (k : ℕ),
        Prog.Finishes (ThreadOnLine FileCall.Interrupted FileCall.May)
          (fun _ w => w.own.state = .done) q ⟨own', .down queued k⟩) ∧
    (∀ (R : Restriction) (es : List HandoffEvent) (s : Handoff) (backend cancel : ℤ),
      (backendHandoff R).exec {} es = some s → s.main = .joining backend cancel →
      s.IsShut ∨ s.worker = .exchanged s.sock ∨ s.worker = .ended) := by
  refine ⟨?_, ?_, ?_⟩
  · intro L errno shell own own' q hrun queued k
    exact finishes_workerThread exists_systemCalls (ThreadProg.ends_shellLoop errno shell) id hrun
      queued k
  · intro request own own' q hrun queued k
    exact finishes_workerThread FileCall.exists_may (ScpProg.ends_ps4ScpServe request) _ hrun
      queued k
  · intro R es s backend cancel h hm
    exact Handoff.shutdown_of_joining h hm

/-- `scp -t /d`. -/
def receiveRequest : ScpRequest := ⟨.receive, ascii "/d", false, false⟩

/-- A system without files. -/
def emptyDisk : WorkerWorld Files := ⟨⟨fun _ => none, 0o22, fun _ => 0⟩, {}, .running⟩

/-- A shell that is cancelled before it has written its banner, and `scp -t` behind its first call;
and the main thread of `cancelledShell` in front of `pthread_join`. -/
theorem cancelledWorker_finishes_start :
    Prog.Finishes (ThreadOnLine ShellCall.Interrupted systemCalls)
      (fun _ w => w.own.state = .done)
      (ps4ShellThread ⟨fun _ => [], true⟩ (fun _ => .zero) (ps4ShellInit (ascii "/")))
      ⟨⟨⟨oneFile, fun _ => none⟩, {}, .running⟩, .down (ascii "cat a\r") 2⟩ ∧
    (∃ k, ps4ScpThread receiveRequest = .call (.loc (.sys (.stat (ascii "/d")))) k ∧
      Prog.Finishes (ThreadOnLine FileCall.Interrupted FileCall.May)
        (fun _ w => w.own.state = .done) (k (.error .other))
        ⟨emptyDisk, .down (ascii "C0644 1 f\n") 2⟩) ∧
    ∃ s : Handoff, (backendHandoff unrestricted).exec {} (cancelledShell.take 14) = some s ∧
      (s.IsShut ∨ s.worker = .exchanged s.sock ∨ s.worker = .ended) := by
  have hrun : ((backendHandoff unrestricted).exec {} (cancelledShell.take 14)).map (·.main) =
      some (.joining (-1) 8) := by
    decide
  obtain ⟨s, hs, hmain⟩ := Option.map_eq_some_iff.1 hrun
  obtain ⟨hshell, hscp, hjoin⟩ := cancelledWorker_finishes
  have hstat : ThreadOnLine (B := UInt8) FileCall.Interrupted FileCall.May
      (.loc (.sys (.stat (ascii "/d")))) ⟨emptyDisk, .up⟩ (.error .other) ⟨emptyDisk, .up⟩ :=
    ⟨⟨.inl ⟨rfl, rfl⟩, rfl, rfl⟩, rfl⟩
  refine ⟨hshell _ _ _ _ _ _ (.refl _ _) _ _, ?_, s, hs, hjoin _ _ s _ _ hs hmain⟩
  refine ⟨_, rfl, ?_⟩
  exact hscp receiveRequest emptyDisk _ _ (.call hstat (.refl _ _)) _ _

end Ps4Dropbear
