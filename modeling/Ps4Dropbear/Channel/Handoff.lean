import Ps4Dropbear.Channel.SingleCommand

/-!
# Who closes the worker's end of the socket

The worker of a shell or of `scp` has a socket of its own, and two threads may close it: the worker
when it is done, and the main thread in `cleanupchansess`.  The number is handed around in
`ps4_backend_fd` and `ps4_cancel_fd`, which are read with atomic exchanges.

Here both threads run in atomic steps: each load, store and exchange of these fields is one step,
and so is each call on the socket.  Between any two steps of one thread come steps of the other.

* `Handoff`, `backendHandoff` : the two threads.
* `Handoff.Started.token` : of all the places that can hold the number, one does, until it is closed.
* `backendHandoff_sesscheckclose` : without a step of the worker in between, the steps of
  `sesscheckclose` are those of `Channel.sesscheckclose`.
* `backendHandoff_handedOff` : it is closed once, and nothing is called on it afterwards.
-/

namespace Ps4Dropbear

/-- The calls on a socket. -/
inductive SocketOp
  | read
  | write
  | shutdown
  | close
  deriving DecidableEq, Repr

/-- A call on the socket with this number. -/
structure SocketCall where
  op : SocketOp
  fd : ℤ
  deriving DecidableEq

/-- Where the main thread is, with the values that it has read. -/
inductive HandoffMain
  /-- In neither of the two functions. -/
  | poll
  /-- In `sesscheckclose`, behind the load of `ps4_backend_state`. -/
  | loaded (state : BackendState)
  /-- Behind its exchange of `ps4_backend_fd`. -/
  | exchanged (fd : ℤ)
  /-- Behind its store to `ps4_cancel_fd`. -/
  | cancelled (fd : ℤ)
  /-- In `cleanupchansess`, behind the exchange of `ps4_backend_fd`. -/
  | taken (backend : ℤ)
  /-- Behind the exchange of `ps4_cancel_fd`. -/
  | shutdownBackend (backend cancel : ℤ)
  | shutdownCancel (backend cancel : ℤ)
  /-- In front of `pthread_join`. -/
  | joining (backend cancel : ℤ)
  | closeBackend (backend cancel : ℤ)
  | closeCancel (cancel : ℤ)
  /-- `cleanupchansess` has returned. -/
  | returned
  deriving DecidableEq

/-- Where the worker thread is. -/
inductive HandoffWorker
  | absent
  | loop
  /-- The exit status has been stored. -/
  | left
  /-- `PS4_BACKEND_DONE` has been stored. -/
  | done
  /-- `ps4_backend_fd` has been exchanged, and had this value. -/
  | exchanged (fd : ℤ)
  | ended
  deriving DecidableEq

/-- A session channel with its two threads. -/
structure Handoff where
  cs : ChanSess := newchansess
  recvClose : Bool := false
  main : HandoffMain := .poll
  worker : HandoffWorker := .absent
  /-- `sockets[1]`, the `fd` of the worker's context. -/
  sock : ℕ := 0
  /-- The calls made so far by the two threads. -/
  calls : List SocketCall := []

/-- What can happen. -/
inductive HandoffEvent
  /-- CHANNEL_REQUEST. -/
  | request (payload : Buffer) (env : LaunchEnv)
  /-- CHANNEL_CLOSE. -/
  | recvClose
  /-- `check_close` calls `sesscheckclose`. -/
  | check
  /-- `remove_channel` calls `cleanupchansess`. -/
  | cleanup
  /-- The next step of the main thread in one of the two functions. -/
  | main
  /-- The worker's `read` and `write`. -/
  | workerRead
  | workerWrite
  /-- The worker leaves its loop, and stores its exit status. -/
  | workerLeave (status : ℤ)
  /-- The next step of the worker behind that. -/
  | worker

/-- A call that is made unless the number is negative. -/
def SocketOp.onFd (op : SocketOp) (fd : ℤ) : List SocketCall := if 0 ≤ fd then [⟨op, fd⟩] else []

namespace Handoff

/-- `chansessionrequest`.  A worker that it starts has the second socket of the pair. -/
def request (R : Restriction) (env : LaunchEnv) (s : Handoff) (payload : Buffer) :
    Option Handoff :=
  (chansessionrequest R env s.cs payload).toOption.map fun cs =>
    if s.cs.backendState = .idle ∧ cs.backendState = .running then
      { s with cs := cs, worker := .loop, sock := (env.socketpair.map Prod.snd).getD 0 }
    else { s with cs := cs }

/-- The entry of `cleanupchansess`. -/
def cleanup (s : Handoff) : Handoff :=
  if s.cs.threadStarted then
    { s with main := .taken s.cs.backendFd, cs := { s.cs with backendFd := -1 } }
  else { s with main := .returned }

/-- A step of the main thread in `sesscheckclose` or `cleanupchansess`. -/
def mainStep (s : Handoff) : Option Handoff :=
  match s.main with
  | .poll | .returned => none
  | .loaded state =>
    if state = .running ∧ s.recvClose then
      some { s with main := .exchanged s.cs.backendFd, cs := { s.cs with backendFd := -1 } }
    else some { s with main := .poll }
  | .exchanged fd =>
    if 0 ≤ fd then some { s with main := .cancelled fd, cs := { s.cs with cancelFd := fd } }
    else some { s with main := .poll }
  | .cancelled fd => some { s with main := .poll, calls := s.calls ++ [⟨.shutdown, fd⟩] }
  | .taken backend =>
    some { s with
      main := .shutdownBackend backend s.cs.cancelFd, cs := { s.cs with cancelFd := -1 } }
  | .shutdownBackend backend cancel => some { s with
      main := .shutdownCancel backend cancel
      calls := s.calls ++ SocketOp.shutdown.onFd backend }
  | .shutdownCancel backend cancel => some { s with
      main := .joining backend cancel
      calls := s.calls ++ SocketOp.shutdown.onFd cancel }
  | .joining backend cancel =>
    if s.worker = .ended then some { s with main := .closeBackend backend cancel } else none
  | .closeBackend backend cancel => some { s with
      main := .closeCancel cancel
      calls := s.calls ++ SocketOp.close.onFd backend }
  | .closeCancel cancel => some { s with
      main := .returned, cs := { s.cs with threadStarted := false }
      calls := s.calls ++ SocketOp.close.onFd cancel }

/-- A step of the worker behind its loop. -/
def workerStep (s : Handoff) : Option Handoff :=
  match s.worker with
  | .absent | .loop | .ended => none
  | .left => some { s with worker := .done, cs := { s.cs with backendState := .done } }
  | .done =>
    some { s with worker := .exchanged s.cs.backendFd, cs := { s.cs with backendFd := -1 } }
  | .exchanged fd => some { s with
      worker := .ended
      calls := if 0 ≤ fd then s.calls ++ [⟨.close, s.sock⟩] else s.calls }

end Handoff

/-- The two threads of a session channel, under the restriction `R`. -/
def backendHandoff (R : Restriction) : LTS Handoff HandoffEvent where
  step s
    | .request payload env => if s.main = .poll then s.request R env payload else none
    | .recvClose => if s.main = .poll then some { s with recvClose := true } else none
    | .check => if s.main = .poll then some { s with main := .loaded s.cs.backendState } else none
    | .cleanup => if s.main = .poll then some s.cleanup else none
    | .main => s.mainStep
    | .workerRead =>
      if s.worker = .loop then some { s with calls := s.calls ++ [⟨.read, s.sock⟩] } else none
    | .workerWrite =>
      if s.worker = .loop then some { s with calls := s.calls ++ [⟨.write, s.sock⟩] } else none
    | .workerLeave status =>
      if s.worker = .loop then
        some { s with worker := .left, cs := { s.cs with exit := ⟨0, status, -1, 0⟩ } }
      else none
    | .worker => s.workerStep

/-- **The property**: nothing is called on the socket once it is closed, and it has been closed once
when `cleanupchansess` returns. -/
structure HandedOff (s : Handoff) : Prop where
  silent : ∀ pre post : List SocketCall, s.calls = pre ++ ⟨.close, (s.sock : ℤ)⟩ :: post →
    ∀ call ∈ post, call.fd ≠ (s.sock : ℤ)
  once : s.main = .returned → s.calls.count ⟨.close, s.sock⟩ = 1

/-- The steps of `sesscheckclose`, one behind the other; `ps4_backend_fd` is a number or `-1`. -/
theorem backendHandoff_sesscheckclose (R : Restriction) {s : Handoff} {c : Channel}
    (hm : s.main = .poll) (hcs : c.chansess = s.cs) (hrecv : c.recvClose = s.recvClose)
    (hback : -1 ≤ s.cs.backendFd) :
    ∃ n calls, (backendHandoff R).exec s (.check :: List.replicate n .main) =
      some { s with cs := c.sesscheckclose.2.chansess, calls := calls } := by
  obtain ⟨cs, recvClose, main, worker, sock, calls⟩ := s
  obtain rfl : main = .poll := hm
  obtain rfl : c.chansess = cs := hcs
  obtain rfl : c.recvClose = recvClose := hrecv
  simp only [Channel.sesscheckclose, Channel.cancelBackend]
  by_cases hrun : c.chansess.backendState = .running ∧ c.recvClose = true
  · by_cases hfd : 0 ≤ c.chansess.backendFd
    · -- the exchange, the store and the shutdown
      refine ⟨3, calls ++ [⟨.shutdown, c.chansess.backendFd⟩], ?_⟩
      simp [backendHandoff, Handoff.mainStep, hrun, hfd, List.replicate]
    · have hneg : c.chansess.backendFd = -1 := by
        have hback' : -1 ≤ c.chansess.backendFd := hback
        omega
      have hsame : { c.chansess with backendFd := -1 } = c.chansess := by rw [← hneg]
      refine ⟨2, calls, ?_⟩
      simp only [backendHandoff, Handoff.mainStep, hrun, hneg, List.replicate, LTS.exec_cons,
        LTS.exec_nil, Option.bind_some, if_true, and_self]
      exact congrArg some (by rw [if_neg (by omega), ← hrun.1, hsame])
  · refine ⟨1, calls, ?_⟩
    rw [if_neg (fun h => hrun ⟨h.1, h.2.1⟩)]
    simp [backendHandoff, Handoff.mainStep, hrun, List.replicate]

/-! ### The invariant -/

/-- The number that a place holds. -/
def held (fd : ℤ) : List ℤ := if 0 ≤ fd then [fd] else []

/-- The values that the main thread is responsible for. -/
def HandoffMain.holds : HandoffMain → List ℤ
  | .exchanged fd | .taken fd | .closeCancel fd => held fd
  | .shutdownBackend backend cancel | .shutdownCancel backend cancel | .joining backend cancel
  | .closeBackend backend cancel => held backend ++ held cancel
  | _ => []

/-- The value that the worker is responsible for. -/
def HandoffWorker.holds : HandoffWorker → List ℤ
  | .exchanged fd => held fd
  | _ => []

/-- `ps4_backend_fd` has been given up in `cleanupchansess`. -/
def HandoffMain.cleaning : HandoffMain → Bool
  | .poll | .loaded _ | .exchanged _ | .cancelled _ => false
  | _ => true

/-- The worker has been waited for. -/
def HandoffMain.joined : HandoffMain → Bool
  | .closeBackend _ _ | .closeCancel _ | .returned => true
  | _ => false

namespace Handoff

/-- All places that hold the number. -/
def holders (s : Handoff) : List ℤ :=
  held s.cs.backendFd ++ held s.cs.cancelFd ++ s.main.holds ++ s.worker.holds

/-- The numbers that have been closed. -/
def closed (s : Handoff) : List ℤ := (s.calls.filter (·.op = .close)).map (·.fd)

/-- The part of the invariant for a channel with a worker. -/
structure Started (s : Handoff) : Prop where
  worker : s.worker ≠ .absent
  state : s.cs.backendState ≠ .idle
  thread : s.cs.threadStarted = true ∨ s.main = .returned
  /-- One place holds the number, until it is closed. -/
  token : (s.holders ++ s.closed).Perm [(s.sock : ℤ)]
  cancelled : ∀ fd, s.main = .cancelled fd → s.cs.cancelFd = fd ∧ 0 ≤ fd
  backend : s.main.cleaning = true → s.cs.backendFd < 0
  cancel : s.main.cleaning = true → (∀ b, s.main ≠ .taken b) → s.cs.cancelFd < 0
  joined : s.main.joined = true → s.worker = .ended
  /-- Closing is the last call. -/
  last : s.closed ≠ [] → s.worker = .ended ∧ ∃ pre, s.calls = pre ++ [⟨.close, s.sock⟩]

/-- The part for a channel without one. -/
structure Waiting (s : Handoff) : Prop where
  worker : s.worker = .absent
  state : s.cs.backendState ≠ .running
  thread : s.cs.threadStarted = false
  calls : s.calls = []
  cancelFd : s.cs.cancelFd < 0
  main : s.main = .poll ∨ s.main = .returned ∨ ∃ st, s.main = .loaded st ∧ st ≠ .running

variable {R : Restriction} {s t : Handoff}

@[simp] theorem held_neg_one : held (-1) = [] := rfl

theorem held_of_neg {fd : ℤ} (h : fd < 0) : held fd = [] := by
  rw [held, if_neg (by omega)]

theorem held_of_nonneg {fd : ℤ} (h : 0 ≤ fd) : held fd = [fd] := by
  rw [held, if_pos h]

theorem Started.eq_singleton (h : Started s) : s.holders ++ s.closed = [(s.sock : ℤ)] :=
  List.perm_singleton.1 h.token

/-- A place that holds a number holds that of the socket, which is open. -/
theorem Started.open_of_mem (h : Started s) (fd : ℤ) (hfd : fd ∈ s.holders) :
    fd = s.sock ∧ s.closed = [] := by
  have heq := h.eq_singleton
  have hsock : fd ∈ s.holders ++ s.closed := List.mem_append_left _ hfd
  rw [heq, List.mem_singleton] at hsock
  refine ⟨hsock, ?_⟩
  obtain ⟨x, xs, hx⟩ : ∃ x xs, s.holders = x :: xs :=
    List.exists_cons_of_ne_nil (List.ne_nil_of_mem hfd)
  rw [hx, List.cons_append, List.cons.injEq, List.append_eq_nil_iff] at heq
  exact heq.2.2

theorem Started.closed_eq (h : Started s) (hw : s.worker ≠ .ended) : s.closed = [] := by
  by_contra hc
  exact hw (h.last hc).1

/-- Calls other than `close`, while the socket is open. -/
theorem closed_append (op : SocketOp) (hop : op ≠ .close) (s : Handoff) (fd : ℤ) :
    closed { s with calls := s.calls ++ [⟨op, fd⟩] } = s.closed := by
  simp [closed, hop]

/-! ### One step -/

theorem Started.workerStep (h : Started s) (hst : s.workerStep = some t) : Started t := by
  unfold Handoff.workerStep at hst
  cases hw : s.worker with
  | absent | loop | ended => simp [hw] at hst
  | left =>
    rw [hw] at hst
    cases hst
    have hopen := h.closed_eq (by simp [hw])
    refine ⟨by simp, by simp, h.thread, ?_, h.cancelled, h.backend, h.cancel, ?_, ?_⟩
    · simpa [holders, HandoffWorker.holds, hw, closed] using h.token
    · intro hj
      simp [h.joined hj] at hw
    · intro hc
      exact absurd hopen hc
  | done =>
    rw [hw] at hst
    cases hst
    have hopen := h.closed_eq (by simp [hw])
    refine ⟨by simp, h.state, h.thread, ?_, h.cancelled, fun _ => by simp, h.cancel, ?_, ?_⟩
    · refine (List.perm_iff_count.2 fun a => ?_).trans h.token
      simp [holders, HandoffWorker.holds, hw, closed]
      omega
    · intro hj
      simp [h.joined hj] at hw
    · intro hc
      exact absurd hopen hc
  | exchanged fd =>
    rw [hw] at hst
    cases hst
    have hopen := h.closed_eq (by simp [hw])
    by_cases hfd : 0 ≤ fd
    · obtain ⟨rfl, -⟩ := h.open_of_mem fd (by
        simp [holders, hw, HandoffWorker.holds, held_of_nonneg hfd])
      rw [if_pos hfd]
      refine ⟨by simp, h.state, h.thread, ?_, h.cancelled, h.backend, h.cancel, fun _ => rfl, ?_⟩
      · refine (List.perm_iff_count.2 fun a => ?_).trans h.token
        simp [holders, HandoffWorker.holds, hw, closed, held_of_nonneg hfd, List.count_cons]
      · intro _
        exact ⟨rfl, s.calls, rfl⟩
    · rw [if_neg hfd]
      refine ⟨by simp, h.state, h.thread, ?_, h.cancelled, h.backend, h.cancel, fun _ => rfl, ?_⟩
      · simpa [holders, HandoffWorker.holds, hw, held_of_neg (Int.not_le.1 hfd), closed]
          using h.token
      · intro hc
        exact absurd hopen hc

/-- A shutdown of a number that some place holds. -/
theorem Started.shutdown (h : Started s) (fd : ℤ) (hfd : 0 ≤ fd → fd ∈ s.holders) :
    closed { s with calls := s.calls ++ SocketOp.shutdown.onFd fd } = s.closed ∧
      (s.closed ≠ [] → s.worker = .ended ∧
        ∃ pre, s.calls ++ SocketOp.shutdown.onFd fd = pre ++ [⟨.close, (s.sock : ℤ)⟩]) := by
  unfold SocketOp.onFd
  by_cases hneg : 0 ≤ fd
  · rw [if_pos hneg]
    exact ⟨closed_append .shutdown (by simp) s fd,
      fun hc => absurd (h.open_of_mem fd (hfd hneg)).2 hc⟩
  · rw [if_neg hneg, List.append_nil]
    exact ⟨rfl, h.last⟩

/-- Closing a number that some place holds, behind `pthread_join`. -/
theorem Started.close (h : Started s) (hj : s.main.joined = true) (fd : ℤ)
    (hfd : 0 ≤ fd → fd ∈ s.holders) :
    closed { s with calls := s.calls ++ SocketOp.close.onFd fd } = s.closed ++ held fd ∧
      (s.closed ++ held fd ≠ [] → s.worker = .ended ∧
        ∃ pre, s.calls ++ SocketOp.close.onFd fd = pre ++ [⟨.close, (s.sock : ℤ)⟩]) := by
  unfold SocketOp.onFd
  by_cases hneg : 0 ≤ fd
  · obtain ⟨rfl, -⟩ := h.open_of_mem fd (hfd hneg)
    rw [if_pos hneg, held_of_nonneg hneg]
    exact ⟨by simp [closed], fun _ => ⟨h.joined hj, s.calls, rfl⟩⟩
  · rw [if_neg hneg, held_of_neg (Int.not_le.1 hneg), List.append_nil, List.append_nil]
    exact ⟨rfl, h.last⟩

/-- A step of the main thread in `sesscheckclose`. -/
theorem Started.checkStep (h : Started s) (hclean : s.main.cleaning = false)
    (hst : s.mainStep = some t) : Started t := by
  have hthread : s.cs.threadStarted = true := by
    refine h.thread.resolve_right fun hr => ?_
    simp [hr, HandoffMain.cleaning] at hclean
  unfold Handoff.mainStep at hst
  cases hm : s.main with
  | poll => simp [hm] at hst
  | loaded state =>
    simp only [hm] at hst
    split_ifs at hst
    · cases hst
      refine ⟨h.worker, h.state, .inl hthread, ?_, by simp, by simp, by simp [HandoffMain.cleaning],
        by simp [HandoffMain.joined], h.last⟩
      refine (List.perm_iff_count.2 fun a => ?_).trans h.token
      simp only [holders, HandoffMain.holds, hm, closed, held_neg_one, List.count_append]
      simp only [List.count_nil]
      omega
    · cases hst
      refine ⟨h.worker, h.state, .inl hthread, ?_, by simp, by simp [HandoffMain.cleaning],
        by simp [HandoffMain.cleaning], by simp [HandoffMain.joined], h.last⟩
      simpa [holders, HandoffMain.holds, hm, closed] using h.token
  | exchanged fd =>
    simp only [hm] at hst
    split_ifs at hst with hfd
    · cases hst
      -- `ps4_cancel_fd` is overwritten, and held nothing
      have hcancel : held s.cs.cancelFd = [] := by
        have hlen := h.token.length_eq
        simp only [holders, HandoffMain.holds, hm, held_of_nonneg hfd, List.length_append,
          List.length_singleton] at hlen
        exact List.eq_nil_of_length_eq_zero (by omega)
      refine ⟨h.worker, h.state, .inl hthread, ?_, ?_, by simp [HandoffMain.cleaning],
        by simp [HandoffMain.cleaning], by simp [HandoffMain.joined], h.last⟩
      · simpa [holders, HandoffMain.holds, hm, closed, hcancel] using h.token
      · rintro _ ⟨⟩
        exact ⟨rfl, hfd⟩
    · cases hst
      refine ⟨h.worker, h.state, .inl hthread, ?_, by simp, by simp [HandoffMain.cleaning],
        by simp [HandoffMain.cleaning], by simp [HandoffMain.joined], h.last⟩
      simpa [holders, HandoffMain.holds, hm, closed, held_of_neg (Int.not_le.1 hfd)] using h.token
  | cancelled fd =>
    simp only [hm] at hst
    cases hst
    obtain ⟨hcancel, hfd⟩ := h.cancelled fd hm
    have hopen : s.closed = [] := by
      refine (h.open_of_mem fd ?_).2
      simp [holders, hcancel, held_of_nonneg hfd]
    have hclosed := closed_append .shutdown (by simp) s fd
    refine ⟨h.worker, h.state, .inl hthread, ?_, by simp, by simp [HandoffMain.cleaning],
      by simp [HandoffMain.cleaning], by simp [HandoffMain.joined], fun hc => absurd hopen ?_⟩
    · simpa [holders, HandoffMain.holds, hm, closed] using h.token
    · exact hclosed ▸ hc
  | _ => simp [hm, HandoffMain.cleaning] at hclean

/-- A step of the main thread in `cleanupchansess`. -/
theorem Started.cleanupStep (h : Started s) (hclean : s.main.cleaning = true)
    (hst : s.mainStep = some t) : Started t := by
  have hbackend := h.backend hclean
  unfold Handoff.mainStep at hst
  cases hm : s.main with
  | returned => simp [hm] at hst
  | taken backend =>
    have hthread : s.cs.threadStarted = true := h.thread.resolve_right (by simp [hm])
    simp only [hm] at hst
    cases hst
    refine ⟨h.worker, h.state, .inl hthread, ?_, by simp, fun _ => hbackend, by simp,
      by simp [HandoffMain.joined], h.last⟩
    refine (List.perm_iff_count.2 fun a => ?_).trans h.token
    simp only [holders, HandoffMain.holds, hm, closed, held_neg_one, List.count_append]
    simp only [List.count_nil]
    omega
  | shutdownBackend backend cancel =>
    have hthread : s.cs.threadStarted = true := h.thread.resolve_right (by simp [hm])
    have hcancel := h.cancel hclean (by simp [hm])
    simp only [hm] at hst
    cases hst
    obtain ⟨hclosed, hlast⟩ := h.shutdown backend fun hfd => by
      simp [holders, HandoffMain.holds, hm, held_of_nonneg hfd]
    refine ⟨h.worker, h.state, .inl hthread, ?_, by simp, fun _ => hbackend, fun _ _ => hcancel,
      by simp [HandoffMain.joined], fun hc => hlast (hclosed ▸ hc)⟩
    change (holders _ ++ closed { s with calls := _ }).Perm _
    rw [hclosed]
    simpa [holders, HandoffMain.holds, hm] using h.token
  | shutdownCancel backend cancel =>
    have hthread : s.cs.threadStarted = true := h.thread.resolve_right (by simp [hm])
    have hcancel := h.cancel hclean (by simp [hm])
    simp only [hm] at hst
    cases hst
    obtain ⟨hclosed, hlast⟩ := h.shutdown cancel fun hfd => by
      simp [holders, HandoffMain.holds, hm, held_of_nonneg hfd]
    refine ⟨h.worker, h.state, .inl hthread, ?_, by simp, fun _ => hbackend, fun _ _ => hcancel,
      by simp [HandoffMain.joined], fun hc => hlast (hclosed ▸ hc)⟩
    change (holders _ ++ closed { s with calls := _ }).Perm _
    rw [hclosed]
    simpa [holders, HandoffMain.holds, hm] using h.token
  | joining backend cancel =>
    have hthread : s.cs.threadStarted = true := h.thread.resolve_right (by simp [hm])
    have hcancel := h.cancel hclean (by simp [hm])
    simp only [hm] at hst
    split_ifs at hst with hended
    cases hst
    refine ⟨h.worker, h.state, .inl hthread, ?_, by simp, fun _ => hbackend, fun _ _ => hcancel,
      fun _ => hended, h.last⟩
    simpa [holders, HandoffMain.holds, hm, closed] using h.token
  | closeBackend backend cancel =>
    have hthread : s.cs.threadStarted = true := h.thread.resolve_right (by simp [hm])
    have hcancel := h.cancel hclean (by simp [hm])
    simp only [hm] at hst
    cases hst
    have hj : s.main.joined = true := by simp [hm, HandoffMain.joined]
    obtain ⟨hclosed, hlast⟩ := h.close hj backend fun hfd => by
      simp [holders, HandoffMain.holds, hm, held_of_nonneg hfd]
    refine ⟨h.worker, h.state, .inl hthread, ?_, by simp, fun _ => hbackend, fun _ _ => hcancel,
      fun _ => h.joined hj, fun hc => hlast (hclosed ▸ hc)⟩
    change (holders _ ++ closed { s with calls := _ }).Perm _
    rw [hclosed]
    refine (List.perm_iff_count.2 fun a => ?_).trans h.token
    simp only [holders, HandoffMain.holds, hm, List.count_append]
    omega
  | closeCancel cancel =>
    have hcancel := h.cancel hclean (by simp [hm])
    simp only [hm] at hst
    cases hst
    have hj : s.main.joined = true := by simp [hm, HandoffMain.joined]
    obtain ⟨hclosed, hlast⟩ := h.close hj cancel fun hfd => by
      simp [holders, HandoffMain.holds, hm, held_of_nonneg hfd]
    refine ⟨h.worker, h.state, .inr rfl, ?_, by simp, fun _ => hbackend, fun _ _ => hcancel,
      fun _ => h.joined hj, fun hc => hlast (hclosed ▸ hc)⟩
    change (holders _ ++ closed { s with calls := _ }).Perm _
    rw [hclosed]
    refine (List.perm_iff_count.2 fun a => ?_).trans h.token
    simp only [holders, HandoffMain.holds, hm, List.count_append]
    simp only [List.count_nil]
    omega
  | _ => simp [hm, HandoffMain.cleaning] at hclean

theorem Started.mainStep (h : Started s) (hst : s.mainStep = some t) : Started t := by
  cases hclean : s.main.cleaning with
  | false => exact h.checkStep hclean hst
  | true => exact h.cleanupStep hclean hst

theorem request_cases {env : LaunchEnv} {payload : Buffer}
    (hst : s.request R env payload = some t) :
    ∃ ds wantreply ret started stores, Outcome env s.cs ds started stores ∧
      t = if s.cs.backendState = .idle ∧ (ds.answer wantreply ret).backendState = .running then
        { s with
          cs := ds.answer wantreply ret, worker := .loop
          sock := (env.socketpair.map Prod.snd).getD 0 }
        else { s with cs := ds.answer wantreply ret } := by
  obtain ⟨cs', hcs, rfl⟩ := Option.map_eq_some_iff.1 hst
  have hok : chansessionrequest R env s.cs payload = .ok cs' := by
    cases hreq : chansessionrequest R env s.cs payload with
    | error e => simp [hreq, Except.toOption] at hcs
    | ok r =>
      rw [hreq] at hcs
      cases hcs
      rfl
  obtain ⟨ds, wantreply, ret, started, stores, hout, rfl⟩ := chansessionrequest_outcome hok
  exact ⟨ds, wantreply, ret, started, stores, hout, rfl⟩

/-- A request finds the command running or done, and leaves the socket alone. -/
theorem Started.request (h : Started s) (hm : s.main = .poll) {env : LaunchEnv} {payload : Buffer}
    (hst : s.request R env payload = some t) : Started t := by
  obtain ⟨ds, wantreply, ret, started, stores, hout, rfl⟩ := request_cases hst
  rw [if_neg (fun hn => h.state hn.1)]
  cases hout with
  | unstarted hun =>
    have hbackend : ds.backendFd = s.cs.backendFd :=
      hun.backendFd.resolve_right fun hn => h.state hn.1
    have hthread : ds.threadStarted = s.cs.threadStarted :=
      hun.threadStarted.resolve_right fun hn => h.state hn.1
    refine ⟨h.worker, ?_, ?_, ?_, by simp [hm], by simp [hm, HandoffMain.cleaning],
      by simp [hm, HandoffMain.cleaning], by simp [hm, HandoffMain.joined], h.last⟩
    · have hstate : ds.backendState ≠ .idle := hun.state ▸ h.state
      simp only [ChanSess.answer]
      split_ifs
      · simp
      · exact hstate
    · exact .inl (hthread.trans (h.thread.resolve_right (by simp [hm])))
    · simpa [holders, closed, ChanSess.answer, hbackend, hun.cancelFd] using h.token
  | executed hex => exact absurd hex.idle h.state
  | forked hfork => exact absurd hfork.idle h.state

/-- A request may start the worker. -/
theorem Waiting.request (h : Waiting s) (hm : s.main = .poll) {env : LaunchEnv} {payload : Buffer}
    (hst : s.request R env payload = some t) :
    Waiting t ∨ Started t ∧ t.main = .poll ∧ t.cs.cancelFd < 0 := by
  obtain ⟨ds, wantreply, ret, started, stores, hout, rfl⟩ := request_cases hst
  cases hout with
  | unstarted hun =>
    have hstate : (ds.answer wantreply ret).backendState ≠ .running := by
      simp only [ChanSess.answer]
      split_ifs
      · simp
      · exact hun.state ▸ h.state
    have hthread : ds.threadStarted = false := by
      rcases hun.threadStarted with heq | ⟨-, hfalse⟩
      · exact heq.trans h.thread
      · exact hfalse
    rw [if_neg (fun hn => hstate hn.2)]
    exact .inl ⟨h.worker, hstate, hthread, h.calls, hun.cancelFd ▸ h.cancelFd, h.main⟩
  | executed hex =>
    have hstate : (ds.answer wantreply ret).backendState ≠ .running := by
      simp only [ChanSess.answer]
      split_ifs
      · simp
      · simp [hex.state]
    rw [if_neg (fun hn => hstate hn.2)]
    exact .inl ⟨h.worker, hstate, hex.threadStarted.trans h.thread, h.calls,
      hex.cancelFd ▸ h.cancelFd, h.main⟩
  | forked hfork =>
    have hstate : (ds.answer wantreply ret).backendState = .running := by
      simp [ChanSess.answer, hfork.state]
    rw [if_pos ⟨hfork.idle, hstate⟩]
    have hcancel : ds.cancelFd < 0 := hfork.cancelFd ▸ h.cancelFd
    refine .inr ⟨⟨by simp, by simp [hstate], .inl hfork.threadStarted, ?_, by simp [hm],
      by simp [hm, HandoffMain.cleaning], by simp [hm, HandoffMain.cleaning],
      by simp [hm, HandoffMain.joined], by simp [closed, h.calls]⟩, hm, hcancel⟩
    simp [holders, closed, h.calls, hm, HandoffMain.holds, HandoffWorker.holds, ChanSess.answer,
      held_of_neg hcancel, held_of_nonneg hfork.backendFd, hfork.sockets, Int.toNat_of_nonneg,
      hfork.backendFd, -Int.ofNat_toNat]

/-- A call of the worker in its loop. -/
theorem Started.workerCall (h : Started s) (hw : s.worker = .loop) {op : SocketOp}
    (hop : op ≠ .close) : Started { s with calls := s.calls ++ [⟨op, s.sock⟩] } := by
  have hclosed := closed_append op hop s s.sock
  have hopen := h.closed_eq (by simp [hw])
  refine ⟨h.worker, h.state, h.thread, ?_, h.cancelled, h.backend, h.cancel, h.joined,
    fun hc => absurd hopen (hclosed ▸ hc)⟩
  rw [hclosed]
  exact h.token

/-- **One step** keeps the invariant. -/
theorem Started.step (h : Started s) {e : HandoffEvent}
    (hst : (backendHandoff R).step s e = some t) : Started t := by
  cases e with
  | request payload env =>
    simp only [backendHandoff, Option.ite_none_right_eq_some] at hst
    exact h.request hst.1 hst.2
  | recvClose =>
    simp only [backendHandoff, Option.ite_none_right_eq_some, Option.some.injEq] at hst
    obtain ⟨-, rfl⟩ := hst
    exact ⟨h.1, h.2, h.3, h.4, h.5, h.6, h.7, h.8, h.9⟩
  | check =>
    simp only [backendHandoff, Option.ite_none_right_eq_some, Option.some.injEq] at hst
    obtain ⟨hm, rfl⟩ := hst
    refine ⟨h.worker, h.state, .inl (h.thread.resolve_right (by simp [hm])), ?_, by simp,
      by simp [HandoffMain.cleaning], by simp [HandoffMain.cleaning],
      by simp [HandoffMain.joined], h.last⟩
    simpa [holders, HandoffMain.holds, hm, closed] using h.token
  | cleanup =>
    simp only [backendHandoff, Option.ite_none_right_eq_some, Option.some.injEq] at hst
    obtain ⟨hm, rfl⟩ := hst
    have hthread : s.cs.threadStarted = true := h.thread.resolve_right (by simp [hm])
    rw [Handoff.cleanup, if_pos hthread]
    refine ⟨h.worker, h.state, .inl hthread, ?_, by simp, by simp, by simp,
      by simp [HandoffMain.joined], h.last⟩
    refine (List.perm_iff_count.2 fun a => ?_).trans h.token
    simp only [holders, HandoffMain.holds, hm, closed, held_neg_one, List.count_append]
    simp only [List.count_nil]
    omega
  | main => exact h.mainStep hst
  | workerRead =>
    simp only [backendHandoff, Option.ite_none_right_eq_some, Option.some.injEq] at hst
    exact hst.2 ▸ h.workerCall hst.1 (by simp)
  | workerWrite =>
    simp only [backendHandoff, Option.ite_none_right_eq_some, Option.some.injEq] at hst
    exact hst.2 ▸ h.workerCall hst.1 (by simp)
  | workerLeave status =>
    simp only [backendHandoff, Option.ite_none_right_eq_some, Option.some.injEq] at hst
    obtain ⟨hw, rfl⟩ := hst
    have hopen := h.closed_eq (by simp [hw])
    refine ⟨by simp, h.state, h.thread, ?_, h.cancelled, h.backend, h.cancel, fun hj => ?_,
      fun hc => absurd hopen hc⟩
    · simpa [holders, HandoffWorker.holds, hw, closed] using h.token
    · simp [h.joined hj] at hw
  | worker => exact h.workerStep hst

/-- Without a worker the two functions do nothing. -/
theorem Waiting.step (h : Waiting s) {e : HandoffEvent}
    (hst : (backendHandoff R).step s e = some t) :
    Waiting t ∨ Started t ∧ t.main = .poll ∧ t.cs.cancelFd < 0 := by
  cases e with
  | request payload env =>
    simp only [backendHandoff, Option.ite_none_right_eq_some] at hst
    exact h.request hst.1 hst.2
  | recvClose =>
    simp only [backendHandoff, Option.ite_none_right_eq_some, Option.some.injEq] at hst
    obtain ⟨-, rfl⟩ := hst
    exact .inl ⟨h.1, h.2, h.3, h.4, h.5, h.6⟩
  | check =>
    simp only [backendHandoff, Option.ite_none_right_eq_some, Option.some.injEq] at hst
    obtain ⟨-, rfl⟩ := hst
    exact .inl ⟨h.1, h.2, h.3, h.4, h.5, .inr (.inr ⟨_, rfl, h.state⟩)⟩
  | cleanup =>
    simp only [backendHandoff, Option.ite_none_right_eq_some, Option.some.injEq] at hst
    obtain ⟨-, rfl⟩ := hst
    rw [Handoff.cleanup, if_neg (by simp [h.thread])]
    exact .inl ⟨h.1, h.2, h.3, h.4, h.5, .inr (.inl rfl)⟩
  | main =>
    simp only [backendHandoff, Handoff.mainStep] at hst
    rcases h.main with hm | hm | ⟨st, hm, hrun⟩
    · simp [hm] at hst
    · simp [hm] at hst
    · simp only [hm, hrun, false_and, if_false, Option.some.injEq] at hst
      exact .inl (hst ▸ ⟨h.1, h.2, h.3, h.4, h.5, .inl rfl⟩)
  | workerRead | workerWrite | workerLeave status => simp [backendHandoff, h.worker] at hst
  | worker => simp [backendHandoff, Handoff.workerStep, h.worker] at hst

/-- Behind `cleanupchansess` no place holds the number. -/
theorem Started.closed_of_returned (h : Started s) (hm : s.main = .returned) :
    s.closed = [(s.sock : ℤ)] := by
  have heq := h.eq_singleton
  have hbackend := h.backend (by simp [hm, HandoffMain.cleaning])
  have hcancel := h.cancel (by simp [hm, HandoffMain.cleaning]) (by simp [hm])
  have hended := h.joined (by simp [hm, HandoffMain.joined])
  simpa [holders, held_of_neg hbackend, held_of_neg hcancel, hm, HandoffMain.holds, hended,
    HandoffWorker.holds] using heq

/-- The invariant gives the property. -/
theorem Started.handedOff (h : Started s) : HandedOff s := by
  constructor
  · intro pre post hcalls call hcall
    -- closing is the last call, so a call behind it would be a second one
    have hclosed : (s.sock : ℤ) ∈ s.closed := by simp [closed, hcalls]
    obtain ⟨-, pre', hlast⟩ := h.last (List.ne_nil_of_mem hclosed)
    obtain ⟨init, last, rfl⟩ := (List.eq_nil_or_concat post).resolve_left
      (List.ne_nil_of_mem hcall)
    rw [List.concat_eq_append] at hcalls
    have hsame := hlast.symm.trans hcalls
    rw [← List.cons_append, ← List.append_assoc] at hsame
    obtain ⟨-, hx⟩ := List.append_inj' hsame rfl
    rw [List.singleton_inj] at hx
    have hlen := h.token.length_eq
    simp [closed, hcalls, ← hx] at hlen
    omega
  · intro hm
    have hclosed := h.closed_of_returned hm
    obtain ⟨call, hfilter, hfd⟩ := List.map_eq_singleton_iff.1 hclosed
    have hop : call.op = .close := by
      have hmem : call ∈ s.calls.filter (·.op = .close) := by simp [hfilter]
      simpa using (List.mem_filter.1 hmem).2
    obtain ⟨op, fd⟩ := call
    obtain rfl : op = .close := hop
    obtain rfl : fd = s.sock := hfd
    rw [← List.count_filter (p := fun call : SocketCall => decide (call.op = .close)) (by simp),
      hfilter, List.count_singleton_self]

/-- **Every run** keeps the invariant. -/
theorem waiting_or_started {es : List HandoffEvent} (h : (backendHandoff R).exec {} es = some t) :
    t.Waiting ∨ t.Started := by
  refine LTS.exec_invariant' (I := fun s => s.Waiting ∨ s.Started)
    (.inl ⟨rfl, by decide, rfl, rfl, by decide, .inl rfl⟩) (fun s e s' hs hst => ?_) h
  rcases hs with hw | hs
  · exact (hw.step hst).imp_right And.left
  · exact .inr (hs.step hst)

end Handoff

/-- **The socket is handed off**: in every run in which a worker has been started, its end of the
socket is closed once by the time `cleanupchansess` returns, and neither thread calls anything on it
once it is closed. -/
theorem backendHandoff_handedOff {R : Restriction} {es : List HandoffEvent} {t : Handoff}
    (h : (backendHandoff R).exec {} es = some t) (hstarted : t.worker ≠ .absent) :
    HandedOff t := by
  rcases Handoff.waiting_or_started h with hw | hs
  · exact absurd hw.worker hstarted
  · exact hs.handedOff

/-- The peer closes a shell.  The main thread takes the socket away from the worker and cleans up,
and the worker ends in between. -/
def cancelledShell : List HandoffEvent :=
  [.request shellPayload willingEnv, .workerRead, .recvClose, .check, .main, .workerLeave 0, .main,
    .worker, .main, .cleanup, .main, .worker, .main, .main, .worker, .main, .main, .main]

theorem backendHandoff_handedOff_cancelledShell : ∃ t : Handoff,
    (backendHandoff unrestricted).exec {} cancelledShell = some t ∧
    t.calls = [⟨.read, 8⟩, ⟨.shutdown, 8⟩, ⟨.shutdown, 8⟩, ⟨.close, 8⟩] ∧
    t.main = .returned ∧ HandedOff t := by
  have hrun : ((backendHandoff unrestricted).exec {} cancelledShell).map
      (fun t => (t.calls, t.main, t.worker)) =
      some ([⟨.read, 8⟩, ⟨.shutdown, 8⟩, ⟨.shutdown, 8⟩, ⟨.close, 8⟩], .returned, .ended) := by
    decide
  obtain ⟨t, ht, hfields⟩ := Option.map_eq_some_iff.1 hrun
  simp only [Prod.mk.injEq] at hfields
  obtain ⟨hcalls, hmain, hworker⟩ := hfields
  exact ⟨t, ht, hcalls, hmain, backendHandoff_handedOff ht (by simp [hworker])⟩

end Ps4Dropbear
