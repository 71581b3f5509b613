import Ps4Dropbear.Channel.CommonChannel

/-!
# What a request can do to a channel

The handler of a session request either leaves the command of the channel alone, or starts one:
`ps4_builtin_command` runs it to its end and leaves a pipe behind, `ps4_shell_start` and
`ps4_scp_start` leave a socket and a worker thread.

* `requestStores` : what a request stores in `ps4_backend_state`, in order.
* `dispatchRequest_outcome` : the three things that a request can do.
-/

namespace Ps4Dropbear

/-- The stores to `ps4_backend_state`. -/
inductive BackendStore
  /-- `PS4_BACKEND_RUNNING`, before `pthread_create`. -/
  | running
  /-- `PS4_BACKEND_IDLE`, after `pthread_create` has failed. -/
  | threadFailed
  /-- `PS4_BACKEND_EXEC_READY`. -/
  | execReady
  /-- `PS4_BACKEND_DONE`, by the worker or by the compare-exchange behind a request. -/
  | done
  deriving DecidableEq, Repr

/-- The value stored. -/
def BackendStore.value : BackendStore → BackendState
  | .running => .running
  | .threadFailed => .idle
  | .execReady => .execReady
  | .done => .done

section

variable (R : Restriction) (env : LaunchEnv)

/-! ### Stores of a request -/

/-- The stores of `ps4_shell_start` and of `ps4_scp_start`. -/
def startStores : List BackendStore :=
  if env.socketpair.isNone || !env.malloc then []
  else if env.pthreadCreate then [.running]
  else [.running, .threadFailed]

/-- The stores of `launch`. -/
def launchStores (cs : ChanSess) (iscmd issubsys : Bool) : List BackendStore :=
  if issubsys then []
  else if iscmd && isScp cs.cmdline then
    if (ps4ScpParseCommand cs.cmdline cs.shell.cwd).isSome then startStores env else []
  else if iscmd then if (ps4BuiltinCommand env cs).1 then [.execReady] else []
  else startStores env

/-- The stores of `sessioncommand`. -/
def commandStores (cs : ChanSess) (buf : Buffer) (iscmd issubsys : Bool) : List BackendStore :=
  if cs.backendState ≠ .idle then []
  else if iscmd then
    match readCommand cs buf issubsys with
    | .ok (some cmd) => launchStores env (applyForcedCommand R { cs with cmd := some cmd }) true
        issubsys
    | _ => []
  else launchStores env (applyForcedCommand R cs) false issubsys

/-- The stores of the handler of a request. -/
def requestStores (cs : ChanSess) (type : Bytes) (buf : Buffer) : List BackendStore :=
  if strEq type (ascii "window-change") then []
  else if strEq type (ascii "shell") then commandStores R env cs buf false false
  else if strEq type (ascii "pty-req") then []
  else if strEq type (ascii "exec") then commandStores R env cs buf true false
  else if strEq type (ascii "subsystem") then commandStores R env cs buf true true
  else []

end

/-- The request asks for a command: `shell`, `exec`, which `scp` is one of, or `subsystem`. -/
def isCommandRequest (type : Bytes) : Bool :=
  strEq type (ascii "shell") || strEq type (ascii "exec") || strEq type (ascii "subsystem")

/-! ### Outcomes -/

variable {R : Restriction} {env : LaunchEnv} {cs cs' : ChanSess}

/-- No command has been started.  An `exec` that fails on `/dev/null` leaves `writefd` closed, and a
failed `pthread_create` takes `ps4_backend_fd` back. -/
structure Unstarted (cs cs' : ChanSess) : Prop where
  state : cs'.backendState = cs.backendState
  exit : cs'.exit = cs.exit
  readfd : cs'.readfd = cs.readfd
  writefd : cs'.writefd = cs.writefd ∨ cs.backendState = .idle ∧ cs'.writefd = fdClosed
  errfd : cs'.errfd = cs.errfd
  bidirFd : cs'.bidirFd = cs.bidirFd
  backendFd : cs'.backendFd = cs.backendFd ∨ cs.backendState = .idle ∧ cs'.backendFd = -1
  cancelFd : cs'.cancelFd = cs.cancelFd
  threadStarted : cs'.threadStarted = cs.threadStarted ∨
    cs.backendState = .idle ∧ cs'.threadStarted = false

/-- `/dev/null` is opened under a number that the pipe does not have. -/
def LaunchEnv.fresh (env : LaunchEnv) : Bool :=
  env.pipe.all fun p => env.devNull != some p.1

/-- `ps4_builtin_command` has run the command. -/
structure Executed (env : LaunchEnv) (cs cs' : ChanSess) : Prop where
  idle : cs.backendState = .idle
  state : cs'.backendState = .execReady
  exit : cs'.exit = ⟨0, (ps4FormatCommand env.kernel cs.shell cs'.cmdline 4096).status, -1, 0⟩
  readfd : 0 ≤ cs'.readfd
  writefd : 0 ≤ cs'.writefd
  apart : env.fresh = true → cs'.readfd ≠ cs'.writefd
  errfd : cs'.errfd = fdClosed
  bidirFd : cs'.bidirFd = false
  backendFd : cs'.backendFd = cs.backendFd
  cancelFd : cs'.cancelFd = cs.cancelFd
  threadStarted : cs'.threadStarted = cs.threadStarted

/-- A worker has been started, with the second socket of the pair. -/
structure Forked (env : LaunchEnv) (cs cs' : ChanSess) : Prop where
  idle : cs.backendState = .idle
  state : cs'.backendState = .running
  exit : cs'.exit = cs.exit
  readfd : 0 ≤ cs'.readfd
  writefd : cs'.writefd = cs'.readfd
  errfd : cs'.errfd = fdClosed
  bidirFd : cs'.bidirFd = true
  backendFd : 0 ≤ cs'.backendFd
  cancelFd : cs'.cancelFd = cs.cancelFd
  threadStarted : cs'.threadStarted = true
  sockets : env.socketpair = some (cs'.readfd.toNat, cs'.backendFd.toNat)

/-- What a request can do, with its result and its stores. -/
inductive Outcome (env : LaunchEnv) (cs cs' : ChanSess) : Bool → List BackendStore → Prop
  | unstarted {stores : List BackendStore} (h : Unstarted cs cs')
      (hs : stores = [] ∨ cs.backendState = .idle ∧ env.pthreadCreate = false ∧
        stores = [.running, .threadFailed]) :
      Outcome env cs cs' false stores
  | executed (h : Executed env cs cs') : Outcome env cs cs' true [.execReady]
  | forked (h : Forked env cs cs') : Outcome env cs cs' true [.running]

theorem Unstarted.refl (cs : ChanSess) : Unstarted cs cs :=
  ⟨rfl, rfl, rfl, .inl rfl, rfl, rfl, .inl rfl, rfl, .inl rfl⟩

/-- The fields that `sessioncommand` sets before it launches, and frees after a failure, do not
matter. -/
theorem Outcome.of_fields {ds ds' : ChanSess} {ret : Bool} {stores : List BackendStore}
    (h : Outcome env ds ds' ret stores) (hs : ds = { cs with
      cmd := ds.cmd, originalCommand := ds.originalCommand, log := ds.log })
    (hs' : cs' = ds' ∨ ret = false ∧ cs' = { ds' with cmd := none }) :
    Outcome env cs cs' ret stores := by
  cases h with
  | unstarted h hst =>
    have hfields : ∀ cs', cs' = ds' ∨ cs' = { ds' with cmd := none } → Unstarted cs cs' := by
      rintro cs' (rfl | rfl) <;> rw [hs] at h <;>
        exact ⟨h.1, h.2, h.3, h.4, h.5, h.6, h.7, h.8, h.9⟩
    rw [hs] at hst
    exact .unstarted (hfields cs' (hs'.imp_right And.right)) hst
  | executed h =>
    obtain rfl : cs' = ds' := by simpa using hs'
    rw [hs] at h
    exact .executed ⟨h.1, h.2, h.3, h.4, h.5, h.6, h.7, h.8, h.9, h.10, h.11⟩
  | forked h =>
    obtain rfl : cs' = ds' := by simpa using hs'
    rw [hs] at h
    exact .forked ⟨h.1, h.2, h.3, h.4, h.5, h.6, h.7, h.8, h.9, h.10, h.11⟩

theorem startWorker_outcome (env : LaunchEnv) (hidle : cs.backendState = .idle) (w : Worker)
    (prio : ChannelPrio) :
    Outcome env cs (startWorker env cs w prio).2 (startWorker env cs w prio).1
      (startStores env) := by
  unfold startWorker startStores
  cases hsockets : env.socketpair with
  | none => exact .unstarted (.refl cs) (.inl rfl)
  | some p =>
    cases env.malloc with
    | false => exact .unstarted (.refl cs) (.inl rfl)
    | true =>
      cases hcreate : env.pthreadCreate with
      | false =>
        exact .unstarted ⟨hidle.symm, rfl, rfl, .inl rfl, rfl, rfl, .inr ⟨hidle, rfl⟩, rfl,
          .inr ⟨hidle, rfl⟩⟩ (.inr ⟨hidle, hcreate, rfl⟩)
      | true =>
        exact .forked ⟨hidle, rfl, rfl, Int.natCast_nonneg _, rfl, rfl, rfl, Int.natCast_nonneg _,
          rfl, rfl, hsockets⟩

theorem ps4ShellStart_outcome (env : LaunchEnv) (hidle : cs.backendState = .idle) :
    Outcome env cs (ps4ShellStart env cs).2 (ps4ShellStart env cs).1 (startStores env) := by
  have h := startWorker_outcome env hidle (.shell .initial) .lowdelay
  unfold ps4ShellStart
  generalize startWorker env cs (.shell .initial) .lowdelay = r at h
  generalize startStores env = stores at h
  obtain ⟨ret, ds⟩ := r
  cases h with
  | unstarted h hs => exact .unstarted h hs
  | executed h => exact .executed ⟨h.1, h.2, h.3, h.4, h.5, h.6, h.7, h.8, h.9, h.10, h.11⟩
  | forked h => exact .forked ⟨h.1, h.2, h.3, h.4, h.5, h.6, h.7, h.8, h.9, h.10, h.11⟩

theorem ps4ScpStart_outcome (env : LaunchEnv) (hidle : cs.backendState = .idle) :
    Outcome env cs (ps4ScpStart env cs).2 (ps4ScpStart env cs).1
      (if (ps4ScpParseCommand cs.cmdline cs.shell.cwd).isSome then startStores env else []) := by
  unfold ps4ScpStart
  have hlog : ChanSess.cmdline { cs with log := cs.log ++ [.scpParseCommand cs.cmdline] } =
      cs.cmdline := rfl
  simp only [hlog]
  cases ps4ScpParseCommand cs.cmdline cs.shell.cwd with
  | none => exact .unstarted ⟨rfl, rfl, rfl, .inl rfl, rfl, rfl, .inl rfl, rfl, .inl rfl⟩ (.inl rfl)
  | some request =>
    have hlogged : ChanSess.backendState
        { cs with log := cs.log ++ [.scpParseCommand cs.cmdline] } = .idle := hidle
    exact (startWorker_outcome env hlogged (.scp request) .normal).of_fields rfl (.inl rfl)

theorem ps4BuiltinCommand_outcome (env : LaunchEnv) (hidle : cs.backendState = .idle) :
    Outcome env cs (ps4BuiltinCommand env cs).2 (ps4BuiltinCommand env cs).1
      (if (ps4BuiltinCommand env cs).1 then [.execReady] else []) := by
  have hfail : ∀ shell log, Unstarted cs { cs with shell := shell, log := log } := fun _ _ =>
    ⟨rfl, rfl, rfl, .inl rfl, rfl, rfl, .inl rfl, rfl, .inl rfl⟩
  unfold ps4BuiltinCommand
  set r := ps4FormatCommand env.kernel cs.shell cs.cmdline 4096 with hr
  by_cases hst : r.status < 0
  · simp only [hst, if_true]
    exact .unstarted (hfail _ _) (.inl rfl)
  · simp only [hst, if_false]
    cases hpipe : env.pipe with
    | none => exact .unstarted (hfail _ _) (.inl rfl)
    | some p =>
      by_cases hw : r.output.length > 0 ∧ env.writePipe = false
      · simp only [hw, and_self, if_true]
        exact .unstarted (hfail _ _) (.inl rfl)
      · simp only [hw, if_false]
        cases hnull : env.devNull with
        | none =>
          exact .unstarted ⟨rfl, rfl, rfl, .inr ⟨hidle, rfl⟩, rfl, rfl, .inl rfl, rfl, .inl rfl⟩
            (.inl rfl)
        | some fd =>
          have hapart : env.fresh = true → (p.1 : ℤ) ≠ fd := by
            intro hfresh heq
            simp only [LaunchEnv.fresh, hpipe, hnull, Option.all_some, bne_iff_ne, ne_eq,
              Option.some.injEq] at hfresh
            omega
          exact .executed ⟨hidle, rfl, rfl, Int.natCast_nonneg _, Int.natCast_nonneg _, hapart, rfl,
            rfl, rfl, rfl, rfl⟩

theorem launch_outcome (env : LaunchEnv) (hidle : cs.backendState = .idle) (iscmd issubsys : Bool) :
    Outcome env cs (launch env cs iscmd issubsys).2 (launch env cs iscmd issubsys).1
      (launchStores env cs iscmd issubsys) := by
  have hfree : ∀ (ret : Bool) (ds : ChanSess),
      (if ret then ds else { ds with cmd := none }) = ds ∨
        ret = false ∧ (if ret then ds else { ds with cmd := none }) = { ds with cmd := none } := by
    intro ret ds
    cases ret
    · exact .inr ⟨rfl, rfl⟩
    · exact .inl rfl
  unfold launch launchStores
  cases issubsys with
  | true => exact (Outcome.unstarted (.refl cs) (.inl rfl)).of_fields rfl (hfree false cs)
  | false =>
    cases iscmd with
    | false => exact (ps4ShellStart_outcome env hidle).of_fields rfl (hfree _ _)
    | true =>
      cases isScp cs.cmdline with
      | true => exact (ps4ScpStart_outcome env hidle).of_fields rfl (hfree _ _)
      | false => exact (ps4BuiltinCommand_outcome env hidle).of_fields rfl (hfree _ _)

theorem applyForcedCommand_eq (R : Restriction) (cs : ChanSess) :
    applyForcedCommand R cs = { cs with
      cmd := (applyForcedCommand R cs).cmd
      originalCommand := (applyForcedCommand R cs).originalCommand
      log := (applyForcedCommand R cs).log } := by
  unfold applyForcedCommand svrPubkeySetForcedCommand
  cases R.forcedCommand with
  | some forced => rfl
  | none => cases R.pubkeyOptions.bind (·.forcedCommand) <;> rfl

theorem sessioncommand_outcome {buf : Buffer} {iscmd issubsys ret : Bool}
    (h : sessioncommand R env cs buf iscmd issubsys = .ok (ret, cs')) :
    Outcome env cs cs' ret (commandStores R env cs buf iscmd issubsys) := by
  unfold sessioncommand at h
  unfold commandStores
  by_cases hidle : cs.backendState = .idle
  · rw [if_neg (by simp [hidle])] at h ⊢
    cases iscmd with
    | false =>
      simp only [Bool.false_eq_true, if_false, pure_eq_ok] at h ⊢
      have hfields := applyForcedCommand_eq R cs
      have hout := launch_outcome env
        (show (applyForcedCommand R cs).backendState = .idle by rw [hfields]; exact hidle) false
        issubsys
      rw [h] at hout
      exact hout.of_fields hfields (.inl rfl)
    | true =>
      simp only [if_true, bind_eq_ok] at h ⊢
      obtain ⟨c, hc, h⟩ := h
      rw [hc]
      cases c with
      | none =>
        simp only [pure_eq_ok, Prod.mk.injEq] at h
        obtain ⟨rfl, rfl⟩ := h
        exact .unstarted ⟨rfl, rfl, rfl, .inl rfl, rfl, rfl, .inl rfl, rfl, .inl rfl⟩ (.inl rfl)
      | some cmd =>
        simp only [pure_eq_ok] at h
        have hfields := applyForcedCommand_eq R { cs with cmd := some cmd }
        have hout := launch_outcome env
          (show (applyForcedCommand R { cs with cmd := some cmd }).backendState = .idle by
            rw [hfields]; exact hidle) true issubsys
        rw [h] at hout
        exact hout.of_fields hfields (.inl rfl)
  · rw [if_pos hidle] at h ⊢
    simp only [pure_eq_ok, Prod.mk.injEq] at h
    obtain ⟨rfl, rfl⟩ := h
    exact .unstarted (.refl cs) (.inl rfl)

/-! ### Other requests -/

theorem sessionwinchange_unstarted {buf : Buffer} {ret : Bool}
    (h : sessionwinchange cs buf = .ok (ret, cs')) : Unstarted cs cs' := by
  simp only [sessionwinchange, bind_eq_ok, Prod.exists, pure_eq_ok, Prod.mk.injEq] at h
  obtain ⟨_, _, -, _, _, -, _, _, -, _, _, -, -, rfl⟩ := h
  exact ⟨rfl, rfl, rfl, .inl rfl, rfl, rfl, .inl rfl, rfl, .inl rfl⟩

theorem sessionpty_unstarted {buf : Buffer} {ret : Bool}
    (h : sessionpty R cs buf = .ok (ret, cs')) : Unstarted cs cs' := by
  unfold sessionpty at h
  split_ifs at h
  · simp only [pure_eq_ok, Prod.mk.injEq] at h
    exact h.2 ▸ .refl cs
  · simp only [pure_eq_ok, Prod.mk.injEq] at h
    exact h.2 ▸ .refl cs
  · simp only [bind_eq_ok, Prod.exists] at h
    obtain ⟨term, buf₁, -, h⟩ := h
    split_ifs at h
    · simp only [pure_eq_ok, Prod.mk.injEq] at h
      exact h.2 ▸ .refl cs
    · simp only [bind_eq_ok, Prod.exists, pure_eq_ok, Prod.mk.injEq] at h
      obtain ⟨_, _, -, _, _, -, _, _, -, _, _, -, _, _, -, -, rfl⟩ := h
      exact ⟨rfl, rfl, rfl, .inl rfl, rfl, rfl, .inl rfl, rfl, .inl rfl⟩

theorem svrAgentreq_unstarted (R : Restriction) (env : LaunchEnv) (cs : ChanSess) :
    Unstarted cs (svrAgentreq R env cs).2 := by
  unfold svrAgentreq
  split_ifs
  · exact .refl cs
  · exact .refl cs
  · exact ⟨rfl, rfl, rfl, .inl rfl, rfl, rfl, .inl rfl, rfl, .inl rfl⟩

/-- Two names of requests that differ are not both the type. -/
theorem strEq_ne {type a b : Bytes} (h : strEq type a = true) (hab : strEq a b = false) :
    strEq type b = false := by
  simp only [strEq, beq_iff_eq, beq_eq_false_iff_ne] at *
  rw [h]
  exact hab

/-- **What a request can do.** -/
theorem dispatchRequest_outcome {type : Bytes} {buf : Buffer} {ret : Bool}
    (h : dispatchRequest R env cs type buf = .ok (ret, cs')) :
    Outcome env cs cs' (ret && isCommandRequest type) (requestStores R env cs type buf) := by
  unfold dispatchRequest at h
  unfold requestStores
  by_cases hw : strEq type (ascii "window-change") = true
  · rw [if_pos hw] at h ⊢
    have hcommand : isCommandRequest type = false := by
      rw [isCommandRequest, strEq_ne hw (by decide), strEq_ne hw (by decide),
        strEq_ne hw (by decide)]
      rfl
    rw [hcommand, Bool.and_false]
    exact .unstarted (sessionwinchange_unstarted h) (.inl rfl)
  rw [if_neg hw] at h ⊢
  by_cases hs : strEq type (ascii "shell") = true
  · rw [if_pos hs] at h ⊢
    rw [isCommandRequest, hs, Bool.true_or, Bool.true_or, Bool.and_true]
    exact sessioncommand_outcome h
  rw [if_neg hs] at h ⊢
  by_cases hp : strEq type (ascii "pty-req") = true
  · rw [if_pos hp] at h ⊢
    have hcommand : isCommandRequest type = false := by
      rw [isCommandRequest, strEq_ne hp (by decide), strEq_ne hp (by decide),
        strEq_ne hp (by decide)]
      rfl
    rw [hcommand, Bool.and_false]
    exact .unstarted (sessionpty_unstarted h) (.inl rfl)
  rw [if_neg hp] at h ⊢
  by_cases he : strEq type (ascii "exec") = true
  · rw [if_pos he] at h ⊢
    rw [isCommandRequest, he, Bool.or_true, Bool.true_or, Bool.and_true]
    exact sessioncommand_outcome h
  rw [if_neg he] at h ⊢
  by_cases hy : strEq type (ascii "subsystem") = true
  · rw [if_pos hy] at h ⊢
    rw [isCommandRequest, hy, Bool.or_true, Bool.and_true]
    exact sessioncommand_outcome h
  rw [if_neg hy] at h ⊢
  have hcommand : isCommandRequest type = false := by
    simp only [isCommandRequest, hs, he, hy, Bool.or_self]
  rw [hcommand, Bool.and_false]
  by_cases ha : strEq type (ascii "auth-agent-req@openssh.com") = true
  · rw [if_pos ha, pure_eq_ok] at h
    have hagent := svrAgentreq_unstarted R env cs
    rw [h] at hagent
    exact .unstarted hagent (.inl rfl)
  · rw [if_neg ha, pure_eq_ok, Prod.mk.injEq] at h
    exact h.2 ▸ .unstarted (.refl cs) (.inl rfl)

/-- A request handled to its end. -/
theorem chansessionrequest_outcome {payload : Buffer}
    (h : chansessionrequest R env cs payload = .ok cs') :
    ∃ ds wantreply ret started stores,
      Outcome env cs ds started stores ∧ cs' = ds.answer wantreply ret := by
  simp only [chansessionrequest, bind_eq_ok, Prod.exists] at h
  obtain ⟨type, buf, -, wantreply, buf', -, h⟩ := h
  split_ifs at h
  · simp only [pure_bind, pure_eq_ok] at h
    exact ⟨cs, wantreply, false, _, _, .unstarted (.refl cs) (.inl rfl), h.symm⟩
  · simp only [bind_eq_ok, Prod.exists, pure_eq_ok] at h
    obtain ⟨ret, ds, hdisp, rfl⟩ := h
    exact ⟨ds, wantreply, ret, _, _, dispatchRequest_outcome hdisp, rfl⟩

end Ps4Dropbear
