import Ps4Dropbear.Channel.Chansession

/-!
# Forced commands

With `-c` or a `command=` option the forced command replaces the one of the client in
`chansess->cmd`.  The launcher for `exec` and `scp` reads that field; the launcher for `shell`
does not, and its thread takes further commands from the client.

* `forcedCommand_iff` : the runs of a channel in which only the forced command is executed are
  those in which no `shell` request finds the backend idle and the system able to start a thread.
-/

namespace Ps4Dropbear

variable {R : Restriction} {env : LaunchEnv} {fc : Bytes} {cs cs' : ChanSess}

/-- The forced command in effect. -/
def Restriction.forced (R : Restriction) : Option Bytes :=
  R.forcedCommand.or (R.pubkeyOptions.bind (·.forcedCommand))

/-- The launch executes the forced command and nothing else. -/
def Launch.OnlyForced (fc : Bytes) : Launch → Prop
  | .shellThread => False
  | .formatCommand cmd => cmd = cstr fc
  | .shellExecute cmd => cmd = skipBlanks (cstr fc)
  | .scpParseCommand cmd => cmd = cstr fc

/-- **The policy**: nothing but the forced command has been executed. -/
def OnlyForced (fc : Bytes) (cs : ChanSess) : Prop := ∀ e ∈ cs.log, e.OnlyForced fc

/-- The payload is a request of type `shell`. -/
def IsShellRequest (payload : Buffer) : Prop :=
  ∃ type buf wantreply buf', bufGetstring payload = .ok (type, buf) ∧
    bufGetbool buf = .ok (wantreply, buf') ∧ type.length ≤ maxNameLen ∧
    strEq type (ascii "shell") = true

/-- The event is a `shell` request on an idle backend, while the system has a socket pair, memory
and a thread for it. -/
def StartsShell (cs : ChanSess) : ChanEvent → Prop
  | .request payload env => cs.backendState = .idle ∧ IsShellRequest payload ∧ env.threadStarts
  | _ => False

/-! ### What a request launches -/

/-- What happens to the log between two states of a channel: only the forced command is added,
and the start of the shell thread exactly when `starts`. -/
structure Launches (fc : Bytes) (starts : Prop) (cs cs' : ChanSess) (es : List Launch) :
    Prop where
  log : cs'.log = cs.log ++ es
  forced : ∀ e ∈ es, e = .shellThread ∨ e.OnlyForced fc
  thread : .shellThread ∈ es ↔ starts
  worker : ∀ t, cs'.worker = .shell t → cs.worker = .shell t ∨ .shellThread ∈ es

namespace Launches

/-- Nothing is launched. -/
theorem none {p : Prop} (hp : ¬ p) (hlog : cs'.log = cs.log) (hworker : cs'.worker = cs.worker) :
    Launches fc p cs cs' [] where
  log := by simp [hlog]
  forced := by simp
  thread := by simp [hp]
  worker := fun t ht => .inl (hworker ▸ ht)

theorem congr {p q : Prop} {es : List Launch} (h : Launches fc p cs cs' es) (hpq : p ↔ q) :
    Launches fc q cs cs' es :=
  ⟨h.log, h.forced, h.thread.trans hpq, h.worker⟩

/-- Fields other than the log and the worker do not matter. -/
theorem of_eq {p : Prop} {es : List Launch} {ds ds' : ChanSess} (h : Launches fc p cs cs' es)
    (hlog : ds.log = cs.log) (hworker : ds.worker = cs.worker) (hlog' : ds'.log = cs'.log)
    (hworker' : ds'.worker = cs'.worker) : Launches fc p ds ds' es :=
  ⟨by rw [hlog', h.log, hlog], h.forced, h.thread, by rw [hworker', hworker]; exact h.worker⟩

end Launches

theorem cmdline_of_forced (hcmd : cs.cmd = some (cstr fc)) : cs.cmdline = cstr fc := by
  simp [ChanSess.cmdline, hcmd, cstr_cstr]

theorem startWorker_fields (env : LaunchEnv) (cs : ChanSess) (w : Worker) (prio : ChannelPrio) :
    (startWorker env cs w prio).1 = env.threadStarts ∧
      (startWorker env cs w prio).2.log = cs.log ∧
      (startWorker env cs w prio).2.worker = if env.threadStarts then w else cs.worker := by
  unfold startWorker LaunchEnv.threadStarts
  cases env.socketpair with
  | none => simp
  | some p => cases env.malloc <;> cases env.pthreadCreate <;> simp

theorem ps4ShellStart_launches (fc : Bytes) (env : LaunchEnv) (cs : ChanSess) :
    ∃ es, Launches fc (env.threadStarts = true) cs (ps4ShellStart env cs).2 es := by
  obtain ⟨hret, hlog, hworker⟩ :=
    startWorker_fields env cs (.shell .initial) .lowdelay
  by_cases hstart : env.threadStarts = true
  · refine ⟨[.shellThread], ⟨?_, ?_, ?_, ?_⟩⟩
    · simp [ps4ShellStart, hret, hstart, hlog]
    · simp
    · simp [hstart]
    · intro t _
      exact .inr (by simp)
  · refine ⟨[], .none hstart ?_ ?_⟩
    · simp [ps4ShellStart, hret, hstart, hlog]
    · simp [ps4ShellStart, hret, hstart, hworker]

theorem ps4ScpStart_launches (env : LaunchEnv) (hcmd : cs.cmd = some (cstr fc)) :
    ∃ es, Launches fc False cs (ps4ScpStart env cs).2 es := by
  refine ⟨[.scpParseCommand (cstr fc)], ⟨?_, ?_, ?_, ?_⟩⟩
  · simp only [ps4ScpStart]
    split
    · simp [cmdline_of_forced hcmd]
    · simp [startWorker_fields, cmdline_of_forced hcmd]
  · simp [Launch.OnlyForced]
  · simp
  · intro t ht
    simp only [ps4ScpStart] at ht
    split at ht
    · exact .inl ht
    · rw [(startWorker_fields _ _ _ _).2.2] at ht
      split_ifs at ht
      exact .inl ht

theorem ps4BuiltinCommand_launches (env : LaunchEnv) (hcmd : cs.cmd = some (cstr fc)) :
    ∃ es, Launches fc False cs (ps4BuiltinCommand env cs).2 es := by
  set r := ps4FormatCommand env.kernel cs.shell (cstr fc) 4096 with hr
  have hcl : cs.cmdline = cstr fc := cmdline_of_forced hcmd
  have hfields : (ps4BuiltinCommand env cs).2.log =
        cs.log ++ Launch.formatCommand (cstr fc) :: r.executed.toList.map .shellExecute ∧
      (ps4BuiltinCommand env cs).2.worker = cs.worker := by
    simp only [ps4BuiltinCommand, hcl, ← hr]
    by_cases hst : r.status < 0
    · simp only [hst, if_true, and_self]
    · rw [if_neg hst]
      cases env.pipe with
      | none => exact ⟨rfl, rfl⟩
      | some p =>
        by_cases hw : r.output.length > 0 ∧ env.writePipe = false
        · simp only [hw, and_self, if_true]
        · simp only [hw, if_false]
          cases env.devNull <;> exact ⟨rfl, rfl⟩
  refine ⟨_, ⟨hfields.1, ?_, ?_, ?_⟩⟩
  · intro e he
    simp only [List.mem_cons, List.mem_map, Option.mem_toList] at he
    rcases he with rfl | ⟨c, hc, rfl⟩
    · exact .inr rfl
    · exact .inr (ps4FormatCommand_executed hc)
  · simp
  · intro t ht
    rw [hfields.2] at ht
    exact .inl ht

theorem launch_launches (env : LaunchEnv) (hcmd : cs.cmd = some (cstr fc)) (iscmd issubsys : Bool) :
    ∃ es, Launches fc (iscmd = false ∧ issubsys = false ∧ env.threadStarts = true) cs
      (launch env cs iscmd issubsys).2 es := by
  have hfree : ∀ (ret : Bool) (ds : ChanSess),
      (if ret then ds else { ds with cmd := none }).log = ds.log ∧
        (if ret then ds else { ds with cmd := none }).worker = ds.worker := by
    intro ret ds
    cases ret <;> exact ⟨rfl, rfl⟩
  cases issubsys with
  | true =>
    exact ⟨[], .none (by simp) rfl rfl⟩
  | false =>
    cases iscmd with
    | false =>
      obtain ⟨es, h⟩ := ps4ShellStart_launches fc env cs
      exact ⟨es, (h.congr (by simp)).of_eq rfl rfl (hfree _ _).1 (hfree _ _).2⟩
    | true =>
      by_cases hscp : isScp cs.cmdline = true
      · obtain ⟨es, h⟩ := ps4ScpStart_launches env hcmd
        refine ⟨es, (h.congr (by simp)).of_eq rfl rfl ?_ ?_⟩
        · simp [launch, hscp, hfree]
        · simp [launch, hscp, hfree]
      · obtain ⟨es, h⟩ := ps4BuiltinCommand_launches env hcmd
        refine ⟨es, (h.congr (by simp)).of_eq rfl rfl ?_ ?_⟩
        · simp [launch, hscp, hfree]
        · simp [launch, hscp, hfree]

/-- With a forced command in effect, `chansess->cmd` is that command behind `sessioncommand`'s
first half. -/
theorem applyForcedCommand_fields (hR : R.forced = some fc) (cs : ChanSess) :
    (applyForcedCommand R cs).cmd = some (cstr fc) ∧
      (applyForcedCommand R cs).log = cs.log ∧ (applyForcedCommand R cs).worker = cs.worker := by
  unfold Restriction.forced at hR
  unfold applyForcedCommand svrPubkeySetForcedCommand
  cases hg : R.forcedCommand with
  | some c =>
    simp only [hg, Option.some_or, Option.some.injEq] at hR
    subst hR
    exact ⟨rfl, rfl, rfl⟩
  | none =>
    rw [hg, Option.none_or] at hR
    rw [hR]
    exact ⟨rfl, rfl, rfl⟩

theorem sessioncommand_launches (hR : R.forced = some fc) {buf : Buffer}
    {iscmd issubsys ret : Bool}
    (h : sessioncommand R env cs buf iscmd issubsys = .ok (ret, cs')) :
    ∃ es, Launches fc
      (cs.backendState = .idle ∧ iscmd = false ∧ issubsys = false ∧ env.threadStarts = true)
      cs cs' es := by
  have hlaunch : ∀ (ds : ChanSess), ds.log = cs.log → ds.worker = cs.worker →
      ∃ es, Launches fc (iscmd = false ∧ issubsys = false ∧ env.threadStarts = true) cs
        (launch env (applyForcedCommand R ds) iscmd issubsys).2 es := by
    intro ds hlog hworker
    obtain ⟨hcmd, hl, hw⟩ := applyForcedCommand_fields hR ds
    obtain ⟨es, hes⟩ := launch_launches env hcmd iscmd issubsys
    exact ⟨es, hes.of_eq (hlog.symm.trans hl.symm) (hworker.symm.trans hw.symm) rfl rfl⟩
  unfold sessioncommand at h
  by_cases hidle : cs.backendState = .idle
  · rw [if_neg (by simp [hidle])] at h
    cases iscmd with
    | false =>
      simp only [Bool.false_eq_true, if_false, pure_eq_ok] at h
      obtain ⟨es, hes⟩ := hlaunch cs rfl rfl
      rw [h] at hes
      exact ⟨es, hes.congr (by simp [hidle])⟩
    | true =>
      simp only [if_true, bind_eq_ok] at h
      obtain ⟨c, -, h⟩ := h
      cases c with
      | none =>
        simp only [pure_eq_ok, Prod.mk.injEq] at h
        obtain ⟨-, rfl⟩ := h
        exact ⟨[], .none (by simp) rfl rfl⟩
      | some cmd =>
        simp only [pure_eq_ok] at h
        obtain ⟨es, hes⟩ := hlaunch { cs with cmd := some cmd } rfl rfl
        rw [h] at hes
        exact ⟨es, hes.congr (by simp)⟩
  · rw [if_pos hidle, pure_eq_ok, Prod.mk.injEq] at h
    obtain ⟨-, rfl⟩ := h
    exact ⟨[], .none (by simp [hidle]) rfl rfl⟩

theorem sessionpty_fields {buf : Buffer} {ret : Bool} (h : sessionpty R cs buf = .ok (ret, cs')) :
    cs'.log = cs.log ∧ cs'.worker = cs.worker ∧ cs'.cmd = cs.cmd := by
  unfold sessionpty at h
  split_ifs at h
  · simp only [pure_eq_ok, Prod.mk.injEq] at h
    obtain ⟨-, rfl⟩ := h
    exact ⟨rfl, rfl, rfl⟩
  · simp only [pure_eq_ok, Prod.mk.injEq] at h
    obtain ⟨-, rfl⟩ := h
    exact ⟨rfl, rfl, rfl⟩
  · simp only [bind_eq_ok, Prod.exists] at h
    obtain ⟨term, buf₁, -, h⟩ := h
    split_ifs at h
    · simp only [pure_eq_ok, Prod.mk.injEq] at h
      obtain ⟨-, rfl⟩ := h
      exact ⟨rfl, rfl, rfl⟩
    · simp only [bind_eq_ok, Prod.exists, pure_eq_ok, Prod.mk.injEq] at h
      obtain ⟨_, _, -, _, _, -, _, _, -, _, _, -, _, _, -, -, rfl⟩ := h
      exact ⟨rfl, rfl, rfl⟩

theorem svrAgentreq_fields (R : Restriction) (env : LaunchEnv) (cs : ChanSess) :
    (svrAgentreq R env cs).2.log = cs.log ∧ (svrAgentreq R env cs).2.worker = cs.worker ∧
      (svrAgentreq R env cs).2.cmd = cs.cmd := by
  unfold svrAgentreq
  split_ifs <;> exact ⟨rfl, rfl, rfl⟩

theorem dispatchRequest_launches (hR : R.forced = some fc) {type : Bytes} {buf : Buffer}
    {ret : Bool} (h : dispatchRequest R env cs type buf = .ok (ret, cs')) :
    ∃ es, Launches fc (cs.backendState = .idle ∧ strEq type (ascii "shell") = true ∧
      env.threadStarts = true) cs cs' es := by
  unfold dispatchRequest at h
  by_cases hw : strEq type (ascii "window-change") = true
  · rw [if_pos hw] at h
    simp only [sessionwinchange, bind_eq_ok, Prod.exists, pure_eq_ok, Prod.mk.injEq] at h
    obtain ⟨_, _, -, _, _, -, _, _, -, _, _, -, -, rfl⟩ := h
    have hne : ¬ strEq type (ascii "shell") = true := by
      simp only [strEq, beq_iff_eq] at hw ⊢
      rw [hw]
      decide
    exact ⟨[], .none (by simp [hne]) rfl rfl⟩
  rw [if_neg hw] at h
  by_cases hs : strEq type (ascii "shell") = true
  · rw [if_pos hs] at h
    obtain ⟨es, hes⟩ := sessioncommand_launches hR h
    exact ⟨es, hes.congr (by simp [hs])⟩
  rw [if_neg hs] at h
  by_cases hp : strEq type (ascii "pty-req") = true
  · rw [if_pos hp] at h
    have hfields := sessionpty_fields h
    exact ⟨[], .none (by simp [hs]) hfields.1 hfields.2.1⟩
  rw [if_neg hp] at h
  have hcommand : ∀ issubsys, sessioncommand R env cs buf true issubsys = .ok (ret, cs') →
      ∃ es, Launches fc (cs.backendState = .idle ∧ strEq type (ascii "shell") = true ∧
        env.threadStarts = true) cs cs' es := by
    intro issubsys h
    obtain ⟨es, hes⟩ := sessioncommand_launches hR h
    exact ⟨es, hes.congr (by simp [hs])⟩
  by_cases he : strEq type (ascii "exec") = true
  · rw [if_pos he] at h
    exact hcommand false h
  rw [if_neg he] at h
  by_cases hy : strEq type (ascii "subsystem") = true
  · rw [if_pos hy] at h
    exact hcommand true h
  rw [if_neg hy] at h
  by_cases ha : strEq type (ascii "auth-agent-req@openssh.com") = true
  · rw [if_pos ha, pure_eq_ok] at h
    have hfields := svrAgentreq_fields R env cs
    rw [h] at hfields
    exact ⟨[], .none (by simp [hs]) hfields.1 hfields.2.1⟩
  · rw [if_neg ha, pure_eq_ok, Prod.mk.injEq] at h
    obtain ⟨-, rfl⟩ := h
    exact ⟨[], .none (by simp [hs]) rfl rfl⟩

/-- **What a request launches**: the forced command, or the shell thread, and the latter exactly
for a `shell` request that can be served. -/
theorem chansessionrequest_launches (hR : R.forced = some fc) {payload : Buffer}
    (h : chansessionrequest R env cs payload = .ok cs') :
    ∃ es, Launches fc (StartsShell cs (.request payload env)) cs cs' es := by
  simp only [chansessionrequest, bind_eq_ok, Prod.exists] at h
  obtain ⟨type, buf, htype, wantreply, buf', hbool, h⟩ := h
  have hshell : IsShellRequest payload ↔
      type.length ≤ maxNameLen ∧ strEq type (ascii "shell") = true := by
    constructor
    · rintro ⟨type', c, w, c', htype', -, hlen, heq⟩
      rw [htype] at htype'
      cases htype'
      exact ⟨hlen, heq⟩
    · rintro ⟨hlen, heq⟩
      exact ⟨type, buf, wantreply, buf', htype, hbool, hlen, heq⟩
  by_cases hlen : type.length > maxNameLen
  · rw [if_pos hlen] at h
    cases h
    refine ⟨[], .none ?_ rfl rfl⟩
    rintro ⟨-, hreq, -⟩
    exact absurd (hshell.1 hreq).1 (by omega)
  · simp only [hlen, if_false, bind_eq_ok, Prod.exists, pure_eq_ok] at h
    obtain ⟨ret, ds, hds, rfl⟩ := h
    obtain ⟨es, hes⟩ := dispatchRequest_launches hR hds
    refine ⟨es, (hes.congr ?_).of_eq rfl rfl rfl rfl⟩
    simp only [StartsShell, hshell]
    constructor
    · rintro ⟨hidle, heq, hstart⟩
      exact ⟨hidle, ⟨by omega, heq⟩, hstart⟩
    · rintro ⟨hidle, ⟨-, heq⟩, hstart⟩
      exact ⟨hidle, heq, hstart⟩

/-! ### Runs of a channel -/

/-- A shell thread runs only behind its start in the log. -/
def ThreadLogged (cs : ChanSess) : Prop := ∀ t, cs.worker = .shell t → .shellThread ∈ cs.log

theorem OnlyForced.worker_ne (hP : OnlyForced fc cs) (hJ : ThreadLogged cs) (t : ShellThread) :
    cs.worker ≠ .shell t := fun ht => hP _ (hJ t ht)

/-- A round of the shell thread adds to the log. -/
theorem shellByte_log (cs : ChanSess) (K : Kernel) (t : ShellThread) (byte : UInt8) :
    ∃ es, (cs.shellByte K t byte).log = cs.log ++ es := by
  unfold ChanSess.shellByte
  split
  · exact ⟨_, by simp only [ChanSess.runLine, List.append_assoc]; rfl⟩
  · exact ⟨[], by simp [ChanSess.finish]⟩
  · exact ⟨[], by simp⟩
  · exact ⟨[], by simp⟩

/-- The steps of a channel other than requests, with what they need. -/
theorem worker_step {l : ChanEvent} (h : (sessionChannel R).step cs l = some cs')
    (hl : ∀ payload env, l ≠ .request payload env) :
    (∃ es, cs'.log = cs.log ++ es) ∧
      ((∃ t, cs.worker = .shell t) ∨ cs'.log = cs.log ∧ cs'.worker = .finished) := by
  cases l with
  | request payload env => exact absurd rfl (hl payload env)
  | shellByte byte K =>
    simp only [sessionChannel] at h
    split at h
    · next t ht =>
      cases h
      exact ⟨shellByte_log cs K t byte, .inl ⟨t, ht⟩⟩
    · cases h
  | shellEof =>
    simp only [sessionChannel] at h
    split at h
    · next t ht =>
      cases h
      exact ⟨⟨[], by simp [ChanSess.finish]⟩, .inl ⟨t, ht⟩⟩
    · cases h
  | scpDone ok =>
    simp only [sessionChannel] at h
    split at h
    · cases h
      exact ⟨⟨[], by simp [ChanSess.finish]⟩, .inr ⟨rfl, rfl⟩⟩
    · cases h

/-- A request step is a call of the handler. -/
theorem request_step {payload : Buffer}
    (h : (sessionChannel R).step cs (.request payload env) = some cs') :
    chansessionrequest R env cs payload = .ok cs' := by
  simp only [sessionChannel] at h
  cases hr : chansessionrequest R env cs payload with
  | error e => simp [hr, Except.toOption] at h
  | ok ds =>
    simp only [hr, Except.toOption, Option.some.injEq] at h
    rw [h]

/-- What every step does to the log. -/
theorem sessionChannel_launches (hR : R.forced = some fc) {l : ChanEvent} (hJ : ThreadLogged cs)
    (h : (sessionChannel R).step cs l = some cs') :
    ThreadLogged cs' ∧ (∃ es, cs'.log = cs.log ++ es) ∧
      (OnlyForced fc cs → (OnlyForced fc cs' ↔ ¬ StartsShell cs l)) := by
  by_cases hl : ∃ payload env, l = .request payload env
  · obtain ⟨payload, env, rfl⟩ := hl
    obtain ⟨es, hes⟩ := chansessionrequest_launches hR (request_step h)
    refine ⟨fun t ht => ?_, ⟨es, hes.log⟩, fun hP => ⟨fun hP' hstart => ?_, fun hstart => ?_⟩⟩
    · rw [hes.log, List.mem_append]
      exact (hes.worker t ht).imp (hJ t) id
    · exact hP' .shellThread (by rw [hes.log]; exact List.mem_append_right _ (hes.thread.2 hstart))
    · intro e he
      rw [hes.log, List.mem_append] at he
      rcases he with he | he
      · exact hP e he
      · rcases hes.forced e he with rfl | hf
        · exact absurd (hes.thread.1 he) hstart
        · exact hf
  · have hnot : ∀ payload env, l ≠ .request payload env :=
      fun payload env hreq => hl ⟨payload, env, hreq⟩
    have hno : ¬ StartsShell cs l := by
      cases l with
      | request payload env => exact absurd rfl (hnot payload env)
      | shellByte byte K => exact not_false
      | shellEof => exact not_false
      | scpDone ok => exact not_false
    obtain ⟨⟨es, hes⟩, ⟨t, ht⟩ | ⟨hlog, hw⟩⟩ := worker_step h hnot
    · refine ⟨?_, ⟨es, hes⟩, fun hP => absurd ht (hP.worker_ne hJ t)⟩
      intro _ _
      rw [hes]
      exact List.mem_append_left _ (hJ t ht)
    · refine ⟨fun t ht => absurd (hw.symm.trans ht) (by simp), ⟨es, hes⟩, ?_⟩
      intro hP
      exact ⟨fun _ => hno, fun _ e he => hP e (hlog ▸ he)⟩

/-- **Forced commands.**  With a forced command in effect, nothing else is executed on a channel
exactly in the runs in which no `shell` request finds the backend idle and a thread for it. -/
theorem forcedCommand_iff (hR : R.forced = some fc) {ls : List ChanEvent}
    (h : (sessionChannel R).exec newchansess ls = some cs) :
    OnlyForced fc cs ↔
      (sessionChannel R).Along (fun cs l => ¬ StartsShell cs l) newchansess ls := by
  refine LTS.exec_iff_along (J := ThreadLogged) ?_ ?_ ?_ ?_ ?_ ?_ h
  · intro t ht
    cases ht
  · intro e he
    simp [newchansess] at he
  · intro s l s' hJ hst
    exact (sessionChannel_launches hR hJ hst).1
  · intro s l s' hJ hP hC hst
    exact ((sessionChannel_launches hR hJ hst).2.2 hP).2 hC
  · intro s l s' hJ hP hC hst hP'
    exact hC (((sessionChannel_launches hR hJ hst).2.2 hP).1 hP')
  · intro s l s' hJ hP hst hP'
    obtain ⟨es, hes⟩ := (sessionChannel_launches hR hJ hst).2.1
    exact hP fun e he => hP' e (by rw [hes]; exact List.mem_append_left _ he)

/-! ### A key that may only run `id` -/

/-- A system in which every call succeeds and the shell prints nothing. -/
def willingEnv : LaunchEnv where
  kernel := quietKernel
  pipe := some (7, 8)
  writePipe := true
  devNull := some 9
  socketpair := some (7, 8)
  malloc := true
  pthreadCreate := true
  agentListener := true

/-- The option `command="id"`. -/
def onlyId : Restriction := ⟨none, some { forcedCommand := some (ascii "id") }⟩

/-- The payload of a request without a reply. -/
def requestPayload (type fields : Bytes) (h : (sshString type ++ 0 :: fields).length ≤ bufMaxSize) :
    Buffer := Buffer.ofBytes (sshString type ++ 0 :: fields) h

/-- A `shell` request. -/
def shellPayload : Buffer := requestPayload (ascii "shell") [] (by decide)

/-- `exec` with the command `whoami`. -/
def execWhoami : List ChanEvent :=
  [.request (requestPayload (ascii "exec") (sshString (ascii "whoami")) (by decide))
    willingEnv]

/-- `shell`, and then the line `whoami`. -/
def shellWhoami : List ChanEvent :=
  .request shellPayload willingEnv ::
    (ascii "whoami\r").map fun b => .shellByte b willingEnv.kernel

theorem forcedCommand_iff_execWhoami :
    ∃ cs, (sessionChannel onlyId).exec newchansess execWhoami = some cs ∧
      (OnlyForced (ascii "id") cs ↔ (sessionChannel onlyId).Along (fun cs l => ¬ StartsShell cs l)
        newchansess execWhoami) := by
  have hrun : ((sessionChannel onlyId).exec newchansess execWhoami).isSome = true := by
    decide
  obtain ⟨cs, hcs⟩ := Option.isSome_iff_exists.1 hrun
  exact ⟨cs, hcs, forcedCommand_iff rfl hcs⟩

/-- The shell thread is started, and `whoami` is executed in the place of `id`. -/
theorem shellWhoami_not_onlyForced :
    ¬ ∀ (R : Restriction) (fc : Bytes), R.forced = some fc → ∀ ls cs,
      (sessionChannel R).exec newchansess ls = some cs → OnlyForced fc cs := by
  intro hall
  have hlog : ((sessionChannel onlyId).exec newchansess shellWhoami).map (·.log) =
      some [.shellThread, .formatCommand (ascii "whoami")] := by
    decide +kernel
  obtain ⟨cs, hcs, hl⟩ := Option.map_eq_some_iff.1 hlog
  have hbad := hall onlyId (ascii "id") rfl _ cs hcs
  exact hbad .shellThread (by simp [hl])

end Ps4Dropbear
