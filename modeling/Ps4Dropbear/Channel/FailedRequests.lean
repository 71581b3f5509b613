import Ps4Dropbear.Channel.Capture
import Ps4Dropbear.Channel.ForcedCommand
import Ps4Dropbear.Channel.Requests
import Ps4Dropbear.Shell.Resolve

/-!
# Failed requests

A client may try one command and then, after a failure, another one on the same channel.  The three
launchers acquire what they need in different orders, and a failure has to undo what came before it.

* `CommandHost` : the system that a command line of a request runs on.
* `LeftAsItWas` : what a failed request should leave as it was.
* `FailedCommand` : a request for a command has failed.
* `Spoils` : `ps4_builtin_command` does not undo something.

`ps4_shell_start` and `ps4_scp_start` store the state and the descriptor before the last call that
can fail, and take both back.  `ps4_builtin_command` stores the result of `open` in `writefd` before
it looks at it, so a channel whose `writefd` was never opened has a closed one then; and it runs the
command first, so a `cd` stays in effect when the pipe or `/dev/null` is missing afterwards.

**Main result** (`failedRequest_iff`): these two are the only ways in which a failed request changes
an idle channel.
-/

namespace Ps4Dropbear

/-! ### The system under a command -/

/-- The system that a command line runs on: how it answers each call, from the world that it is in
when the request comes. -/
structure CommandHost where
  World : Type
  answer : (c : ShellCall) → World → c.Answer × World
  world : World
  libc : Libc
  errno : Errno

namespace CommandHost

variable (S : CommandHost)

/-- The answers as a relation. -/
def Answers (c : ShellCall) (w : S.World) (a : c.Answer) (w' : S.World) : Prop :=
  S.answer c w = (a, w')

/-- `ps4_format_command` ends on the line with this result. -/
def Runs (state : ShellState) (line : Bytes) (r : CommandResult) : Prop :=
  ∃ w', Prog.Eval S.Answers (formatCommand S.libc S.errno state line 4096) S.world r w'

/-- The line ends, and the kernel does on it what the calls do. -/
structure Hosts (K : Kernel) (state : ShellState) (line : Bytes) : Prop where
  ends : ∃ r, S.Runs state line r
  agrees : K.Agrees S.Answers S.world S.libc S.errno state line

/-- The line is a `cd` to a directory that exists and is not the one that the shell is in. -/
def GoesElsewhere (state : ShellState) (line : Bytes) : Prop :=
  ∃ name first st, IsCd state.home line name ∧ ShellProg.resolveArg state name = some first ∧
    (S.answer (.stat first) S.world).1 = .ok st ∧ st.isDir ∧ first ≠ state.cwd

end CommandHost

/-! ### What should hold, and what does not -/

/-- What a failed request should leave as it was: the descriptors of the channel, the state and the
descriptors of the backend, the command and the directory of the shell. -/
structure LeftAsItWas (cs cs' : ChanSess) : Prop where
  readfd : cs'.readfd = cs.readfd
  writefd : cs'.writefd = cs.writefd
  errfd : cs'.errfd = cs.errfd
  bidirFd : cs'.bidirFd = cs.bidirFd
  backendState : cs'.backendState = cs.backendState
  backendFd : cs'.backendFd = cs.backendFd
  cancelFd : cs'.cancelFd = cs.cancelFd
  threadStarted : cs'.threadStarted = cs.threadStarted
  cmd : cs'.cmd = cs.cmd
  cwd : cs'.shell.cwd = cs.shell.cwd

section

variable (R : Restriction) (S : CommandHost) (env : LaunchEnv)

/-- The channel with the command that the launcher gets. -/
def prepared (cs : ChanSess) (cmd : Bytes) : ChanSess :=
  applyForcedCommand R { cs with cmd := some cmd }

/-- The command line that an `exec` request hands to `ps4_builtin_command`. -/
def builtinLine (cs : ChanSess) (payload : Buffer) : Option Bytes := do
  let (type, buf) ← (bufGetstring payload).toOption
  let (_, buf) ← (bufGetbool buf).toOption
  let cmd ← (readCommand cs buf false).toOption.join
  let line := (prepared R cs cmd).cmdline
  if strEq type (ascii "exec") ∧ type.length ≤ maxNameLen ∧ isScp line = false then some line
  else none

/-- The payload is a request for a command, it fails, and the channel is `cs'` then.  Its command
line, if it has one, is run on the host, whatever the kernel of `env` is. -/
def FailedCommand (cs : ChanSess) (payload : Buffer) (cs' : ChanSess) : Prop :=
  ∃ K, (∀ line, builtinLine R cs payload = some line → S.Hosts K cs.shell line) ∧
    ∃ type buf wantreply buf' ds, bufGetstring payload = .ok (type, buf) ∧
      bufGetbool buf = .ok (wantreply, buf') ∧ isCommandRequest type = true ∧
      type.length ≤ maxNameLen ∧
      dispatchRequest R { env with kernel := K } cs type buf' = .ok (false, ds) ∧
      cs' = ds.answer wantreply false

/-- The pipe is there and takes the output. -/
def LaunchEnv.Takes (output : Bytes) : Prop :=
  env.pipe.isSome = true ∧ ¬ (output.length > 0 ∧ env.writePipe = false)

/-- Where `ps4_builtin_command` does not undo what it has done.  Either the line succeeds, its
output has been written to the pipe, and `/dev/null` cannot be opened, which is stored in a `writefd`
that was not closed; or the line goes to another directory, and then there is no pipe or no
`/dev/null`. -/
def Spoils (cs : ChanSess) (line : Bytes) : Prop :=
  (env.devNull = none ∧ cs.writefd ≠ -1 ∧
      ∃ r, S.Runs cs.shell line r ∧ 0 ≤ r.status ∧ env.Takes r.output) ∨
    (env.pipe = none ∨ env.devNull = none) ∧ S.GoesElsewhere cs.shell line

end

/-! ### A command line on a host -/

namespace CommandHost

variable {S : CommandHost} {state : ShellState} {line : Bytes} {r : CommandResult} {K : Kernel}

/-- A line has one result. -/
theorem Runs.unique {r' : CommandResult} (h : S.Runs state line r) (h' : S.Runs state line r') :
    r = r' := by
  obtain ⟨v, hrun⟩ := h
  obtain ⟨v', hrun'⟩ := h'
  refine (hrun.deterministic (fun c w a a' u u' ha ha' => ?_) hrun').1
  exact Prod.mk.inj (ha.symm.trans ha')

/-- Every line that ends has a kernel that does what the calls do. -/
theorem Runs.exists_hosts (h : S.Runs state line r) : ∃ K, S.Hosts K state line := by
  classical
  let Executed (r : CommandResult) : Prop := ∃ w', Prog.Eval S.Answers
    (executeWith (ps4CaptureShellOutput 4096) S.libc S.errno state (skipBlanks (cstr line)))
    S.world r w'
  refine ⟨⟨(S.answer .swVersion S.world).1, fun _ _ _ =>
    if he : ∃ r, Executed r then ⟨he.choose.status, [he.choose.output], he.choose.shell⟩
    else ⟨0, [], state⟩⟩, ⟨r, h⟩, ?_, ?_⟩
  · intro v w' hv
    exact (congrArg Prod.fst hv).symm
  · intro r' w' hr'
    have he : ∃ r, Executed r := ⟨r', w', hr'⟩
    obtain ⟨w'', hchosen⟩ := he.choose_spec
    have hsame : he.choose = r' :=
      (hchosen.deterministic (fun c w a a' u u' ha ha' => Prod.mk.inj (ha.symm.trans ha')) hr').1
    dsimp only
    rw [dif_pos he, hsame]

/-- What the kernel returns is the result of the line. -/
theorem Hosts.exists_runs (h : S.Hosts K state line) (hline : cstr line = line) :
    ∃ r, S.Runs state line r ∧ (ps4FormatCommand K state line 4096).status = r.status ∧
      (ps4FormatCommand K state line 4096).output = r.output ∧
      (ps4FormatCommand K state line 4096).shell = r.shell := by
  obtain ⟨r, w', hrun⟩ := h.ends
  obtain ⟨hstatus, houtput, hshell⟩ := eval_formatCommand h.agrees.version h.agrees.execute hrun
  rw [hline] at hstatus houtput hshell
  exact ⟨r, ⟨w', hrun⟩, hstatus.symm, houtput.symm, hshell.symm⟩

/-- The line of a `cd` begins with `cd`. -/
theorem exists_args_of_isCd {home name : Bytes} (h : IsCd home line name) :
    ∃ args, splitCommandErrno line = .ok (ascii "cd" :: args) ∧ args.length ≤ 1 ∧
      args.headD home = name := by
  rcases h with hsplit | ⟨hsplit, rfl⟩
  · rw [← toOption_splitCommandErrno] at hsplit
    exact ⟨[name], toOption_eq_some.1 hsplit, le_rfl, rfl⟩
  · rw [← toOption_splitCommandErrno] at hsplit
    exact ⟨[], toOption_eq_some.1 hsplit, Nat.zero_le _, rfl⟩

/-- A path that resolves is not cut off. -/
theorem take_of_resolveArg {name first : Bytes}
    (h : ShellProg.resolveArg state name = some first) :
    first.take (ps4ShellPathMax - 1) = first := by
  have hshort := (ps4ShellResolve_combined h).2
  exact List.take_of_length_le (by unfold ps4ShellPathMax at hshort ⊢; omega)

/-- A `cd` to another directory succeeds and prints nothing. -/
theorem GoesElsewhere.runs (h : S.GoesElsewhere state line) :
    ∃ r, S.Runs state line r ∧ r.status = 0 ∧ r.output = [] ∧ r.shell.cwd ≠ state.cwd := by
  obtain ⟨name, first, st, hcd, hres, hstat, hdir, hne⟩ := h
  obtain ⟨args, hargs, hlen, rfl⟩ := exists_args_of_isCd hcd
  have hhandles : ps4ShellHandles line = true := by
    rw [ps4ShellHandles, ← toOption_splitCommandErrno, hargs]
    change ps4ShellCommands.contains (ascii "cd") = true
    decide
  have hrun : S.Runs state line ⟨0, [], { state with cwd := first }⟩ := by
    refine ⟨(S.answer (.stat first) S.world).2, ?_⟩
    rw [formatCommand_of_handles hhandles, eval_executeWith, ShellProg.ps4ShellExecute, hargs]
    dsimp only
    rw [if_pos ⟨rfl, hlen⟩, ShellProg.changeDirectory, hres]
    refine WriterProg.eval_loc_bind.2 ⟨.ok st, _, Prod.ext hstat rfl, ?_⟩
    dsimp only
    rw [if_pos hdir, take_of_resolveArg hres]
    exact .ret _ _
  exact ⟨_, hrun, rfl, rfl, hne⟩

/-- A program of the shell that keeps the state. -/
theorem shell_of_eval_keep {H : (c : ShellCall) → S.World → c.Answer → S.World → Prop}
    {p : ShellProg ℤ} {v v' : S.World × Bytes} {x : ℤ × ShellState}
    (h : Prog.Eval (WriterProg.Writes (ps4CaptureShellOutput 4096) H)
      (p.bind fun status => .ret (status, state)) v x v') : x.2 = state := by
  obtain ⟨status, v₁, -, hret⟩ := Prog.eval_bind.1 h
  rw [(Prog.eval_ret.1 hret).1]

/-- Only a `cd` to another directory takes the shell there. -/
theorem Runs.goesElsewhere (h : S.Runs state line r) (hmoved : r.shell.cwd ≠ state.cwd) :
    S.GoesElsewhere state line := by
  obtain ⟨w', hrun⟩ := h
  have hstays (hshell : r.shell = state) : False := hmoved (congrArg ShellState.cwd hshell)
  rcases formatCommand_cases line with ⟨status, text, -, -, heq⟩ | ⟨text, -, heq⟩ | heq
  · rw [heq, eval_printed] at hrun
    exact (hstays (congrArg CommandResult.shell hrun.1)).elim
  · rw [heq, Prog.eval_perform_bind] at hrun
    obtain ⟨version, w₁, -, hrun⟩ := hrun
    exact (hstays (congrArg CommandResult.shell (eval_printed.1 hrun).1)).elim
  rw [heq, eval_executeWith, ShellProg.ps4ShellExecute] at hrun
  have hsplit := (toOption_splitCommandErrno (skipBlanks (cstr line))).trans
    (splitCommand_skipBlanks line)
  split at hrun
  · exact (hstays (shell_of_eval_keep hrun)).elim
  · exact (hstays (congrArg Prod.snd (Prog.eval_ret.1 hrun).1)).elim
  next cmd args hargs =>
  by_cases hcd : cmd = ascii "cd" ∧ args.length ≤ 1
  · obtain ⟨rfl, hlen⟩ := hcd
    rw [hargs, toOption_ok] at hsplit
    have hiscd : IsCd state.home line (args.headD state.home) := by
      rcases args with _ | ⟨arg, _ | ⟨arg', args⟩⟩
      · exact .inr ⟨hsplit.symm, rfl⟩
      · exact .inl hsplit.symm
      · simp at hlen
    rw [if_pos ⟨rfl, hlen⟩, ShellProg.changeDirectory] at hrun
    split at hrun
    · exact (hstays (shell_of_eval_keep hrun)).elim
    next first hres =>
    obtain ⟨answer, w₁, hstat, hrun⟩ := WriterProg.eval_loc_bind.1 hrun
    cases answer with
    | error e => exact (hstays (shell_of_eval_keep hrun)).elim
    | ok st =>
      dsimp only at hrun
      split at hrun
      · next hdir =>
        have hshell := congrArg Prod.snd (Prog.eval_ret.1 hrun).1
        refine ⟨_, first, st, hiscd, hres, congrArg Prod.fst hstat, hdir, fun hsame => hmoved ?_⟩
        rw [show r.shell = _ from hshell, take_of_resolveArg hres]
        exact hsame
      · exact (hstays (shell_of_eval_keep hrun)).elim
  · rw [if_neg hcd] at hrun
    exact (hstays (shell_of_eval_keep hrun)).elim

end CommandHost

variable {R : Restriction} {S : CommandHost} {env : LaunchEnv} {cs cs' : ChanSess}

/-! ### Idle channels -/

/-- Nothing has been started on the channel. -/
structure NothingStarted (cs : ChanSess) : Prop where
  state : cs.backendState = .idle
  backendFd : cs.backendFd = -1
  threadStarted : cs.threadStarted = false

/-- Nothing is left of a command that could not be started, either. -/
structure Idle (cs : ChanSess) : Prop extends NothingStarted cs where
  cmd : cs.cmd = none

/-! ### The launchers -/

/-- A failed start of a worker has taken back what it had stored. -/
theorem startWorker_failed (hcs : NothingStarted cs) {w : Worker} {prio : ChannelPrio}
    (h : (startWorker env cs w prio).1 = false) : (startWorker env cs w prio).2 = cs := by
  have hback : { cs with threadStarted := false, backendState := .idle, backendFd := -1 } = cs := by
    rw [← hcs.state, ← hcs.backendFd, ← hcs.threadStarted]
  unfold startWorker at h ⊢
  cases hsockets : env.socketpair with
  | none => rfl
  | some p =>
    rw [hsockets] at h
    dsimp only at h ⊢
    by_cases hmalloc : env.malloc = false
    · rw [if_pos hmalloc]
    by_cases hcreate : env.pthreadCreate = false
    · rw [if_neg hmalloc, if_pos hcreate]
      exact hback
    · rw [if_neg hmalloc, if_neg hcreate] at h
      cases h

theorem ps4ShellStart_failed (hcs : NothingStarted cs) (h : (ps4ShellStart env cs).1 = false) :
    (ps4ShellStart env cs).2 = cs := by
  have hfail : (startWorker env cs (.shell .initial) .lowdelay).1 = false := h
  unfold ps4ShellStart
  dsimp only
  rw [hfail]
  exact startWorker_failed hcs hfail

theorem ps4ScpStart_failed (hcs : NothingStarted cs) (h : (ps4ScpStart env cs).1 = false) :
    ∃ log, (ps4ScpStart env cs).2 = { cs with log := log } := by
  unfold ps4ScpStart at h ⊢
  dsimp only at h ⊢
  split at h
  · exact ⟨_, rfl⟩
  · exact ⟨_, startWorker_failed (by exact ⟨hcs.state, hcs.backendFd, hcs.threadStarted⟩) h⟩

/-- How `ps4_builtin_command` ends: it fails before it opens `/dev/null`, or it cannot open it, or
it succeeds. -/
theorem ps4BuiltinCommand_cases (env : LaunchEnv) (cs : ChanSess) :
    let r := ps4FormatCommand env.kernel cs.shell cs.cmdline 4096
    ((r.status < 0 ∨ ¬ env.Takes r.output) ∧
      ∃ log, ps4BuiltinCommand env cs = (false, { cs with shell := r.shell, log := log })) ∨
    (0 ≤ r.status ∧ env.Takes r.output ∧ env.devNull = none ∧
      ∃ log, ps4BuiltinCommand env cs =
        (false, { cs with shell := r.shell, log := log, writefd := -1 })) ∨
    (0 ≤ r.status ∧ env.Takes r.output ∧ env.devNull ≠ none ∧
      (ps4BuiltinCommand env cs).1 = true) := by
  unfold ps4BuiltinCommand LaunchEnv.Takes
  generalize ps4FormatCommand env.kernel cs.shell cs.cmdline 4096 = r
  dsimp only
  by_cases hstatus : r.status < 0
  · rw [if_pos hstatus]
    exact .inl ⟨.inl hstatus, _, rfl⟩
  rw [if_neg hstatus]
  obtain ⟨kernel, pipe, writePipe, devNull, socketpair, malloc, pthreadCreate, agent⟩ := env
  rcases pipe with _ | ⟨readEnd, writeEnd⟩
  · exact .inl ⟨.inr fun h => absurd h.1 Bool.false_ne_true, _, rfl⟩
  dsimp only
  by_cases hw : r.output.length > 0 ∧ writePipe = false
  · rw [if_pos hw]
    exact .inl ⟨.inr fun h => h.2 hw, _, rfl⟩
  rw [if_neg hw]
  cases devNull with
  | none => exact .inr (.inl ⟨Int.not_lt.1 hstatus, ⟨rfl, hw⟩, rfl, _, rfl⟩)
  | some fd => exact .inr (.inr ⟨Int.not_lt.1 hstatus, ⟨rfl, hw⟩, nofun, rfl⟩)

/-- Without a pipe nothing is taken, and with one there is always room for nothing. -/
theorem takes_nil : env.Takes [] ↔ env.pipe ≠ none := by
  rw [LaunchEnv.Takes, Option.isSome_iff_ne_none]
  exact and_iff_left fun h => absurd h.1 (Nat.lt_irrefl 0)

/-- On a host `ps4_builtin_command` fails where it spoils something. -/
theorem ps4BuiltinCommand_of_spoils (hK : S.Hosts env.kernel cs.shell cs.cmdline)
    (h : Spoils S env cs cs.cmdline) : (ps4BuiltinCommand env cs).1 = false := by
  obtain ⟨r, hrun, -, hroutput, -⟩ := hK.exists_runs (cstr_cstr _)
  rcases ps4BuiltinCommand_cases env cs with ⟨-, log, heq⟩ | ⟨-, -, -, log, heq⟩ |
    ⟨-, htakes, hnull, -⟩
  · rw [heq]
  · rw [heq]
  · rcases h with ⟨hnone, -⟩ | ⟨hpipe | hnone, helse⟩
    · exact absurd hnone hnull
    · obtain ⟨r', hrun', -, houtput, -⟩ := helse.runs
      rw [hroutput, hrun.unique hrun', houtput, takes_nil] at htakes
      exact absurd hpipe htakes
    · exact absurd hnone hnull

/-- A failed `ps4_builtin_command` leaves the channel as it was exactly where it spoils nothing. -/
theorem ps4BuiltinCommand_leaves (hK : S.Hosts env.kernel cs.shell cs.cmdline)
    (h : (ps4BuiltinCommand env cs).1 = false) :
    (ps4BuiltinCommand env cs).2.writefd = cs.writefd ∧
      (ps4BuiltinCommand env cs).2.shell.cwd = cs.shell.cwd ↔ ¬ Spoils S env cs cs.cmdline := by
  obtain ⟨r, hrun, hrstatus, hroutput, hrshell⟩ := hK.exists_runs (cstr_cstr _)
  have hcases := ps4BuiltinCommand_cases env cs
  dsimp only at hcases
  rw [hrstatus, hroutput, hrshell] at hcases
  -- the shell has moved exactly where the line is a `cd` that went elsewhere
  have hmoved : r.shell.cwd ≠ cs.shell.cwd ↔ S.GoesElsewhere cs.shell cs.cmdline := by
    refine ⟨hrun.goesElsewhere, fun helse => ?_⟩
    obtain ⟨r', hrun', -, -, hne⟩ := helse.runs
    rwa [hrun.unique hrun']
  rcases hcases with ⟨hfail, log, heq⟩ | ⟨hstatus, htakes, hnull, log, heq⟩ | ⟨-, -, -, htrue⟩
  · rw [heq]
    dsimp only
    constructor
    · rintro ⟨-, hcwd⟩ (⟨-, -, r', hrun', hstatus, htakes⟩ | ⟨-, helse⟩)
      · rw [← hrun.unique hrun'] at hstatus htakes
        rcases hfail with hneg | hnot
        · exact absurd hstatus (Int.not_le.2 hneg)
        · exact hnot htakes
      · exact hmoved.2 helse hcwd
    · intro hno
      refine ⟨rfl, Classical.not_not.1 fun hne => hno (.inr ⟨.inl ?_, hmoved.1 hne⟩)⟩
      -- a `cd` that went elsewhere has failed only for want of a pipe
      obtain ⟨r', hrun', hzero, houtput, -⟩ := (hmoved.1 hne).runs
      rw [hrun.unique hrun', hzero, houtput, takes_nil] at hfail
      exact Classical.not_not.1 (hfail.resolve_left (lt_irrefl 0))
  · rw [heq]
    dsimp only
    constructor
    · rintro ⟨hwrite, hcwd⟩ (⟨-, hne, -⟩ | ⟨-, helse⟩)
      · exact hne hwrite.symm
      · exact hmoved.2 helse hcwd
    · intro hno
      refine ⟨?_, Classical.not_not.1 fun hne => hno (.inr ⟨.inr hnull, hmoved.1 hne⟩)⟩
      exact (Classical.not_not.1 fun hne => hno (.inl ⟨hnull, hne, r, hrun, hstatus, htakes⟩)).symm
  · rw [htrue] at h
    cases h

/-- Everything else is as it was. -/
theorem ps4BuiltinCommand_frame (h : (ps4BuiltinCommand env cs).1 = false) :
    ∃ shell log writefd, (ps4BuiltinCommand env cs).2 =
      { cs with shell := shell, log := log, writefd := writefd } := by
  rcases ps4BuiltinCommand_cases env cs with ⟨-, log, heq⟩ | ⟨-, -, -, log, heq⟩ | ⟨-, -, -, htrue⟩
  · exact ⟨_, log, cs.writefd, congrArg Prod.snd heq⟩
  · exact ⟨_, log, -1, congrArg Prod.snd heq⟩
  · rw [htrue] at h
    cases h

/-! ### The requests -/

/-- `sessioncommand` sets only these fields before it launches anything. -/
def Prepares (cs cs₁ : ChanSess) : Prop :=
  ∃ cmd original log, cs₁ = { cs with cmd := cmd, originalCommand := original, log := log }

theorem prepares_applyForcedCommand (R : Restriction) (cs : ChanSess) (cmd : Option Bytes) :
    Prepares cs (applyForcedCommand R { cs with cmd := cmd }) :=
  ⟨_, _, _, applyForcedCommand_eq R _⟩

/-- With the command freed these fields do not matter. -/
theorem Prepares.leftAsItWas {cs₁ : ChanSess} (h : Prepares cs cs₁) (hcs : Idle cs)
    (log : List Launch) : LeftAsItWas cs { cs₁ with cmd := none, log := log } := by
  obtain ⟨c, o, l, rfl⟩ := h
  exact ⟨rfl, rfl, rfl, rfl, rfl, rfl, rfl, rfl, hcs.cmd.symm, rfl⟩

theorem Prepares.nothingStarted {cs₁ : ChanSess} (h : Prepares cs cs₁) (hcs : Idle cs) :
    NothingStarted cs₁ := by
  obtain ⟨c, o, l, rfl⟩ := h
  exact ⟨hcs.state, hcs.backendFd, hcs.threadStarted⟩

/-- A launcher that fails has left the channel as it was, or it was `ps4_builtin_command`. -/
theorem launch_failed (hcs : Idle cs) {cs₁ : ChanSess} (hcs₁ : Prepares cs cs₁)
    {iscmd issubsys : Bool} {ds : ChanSess} (h : launch env cs₁ iscmd issubsys = (false, ds)) :
    LeftAsItWas cs ds ∨ iscmd = true ∧ issubsys = false ∧ isScp cs₁.cmdline = false ∧
      (ps4BuiltinCommand env cs₁).1 = false ∧
      ds = { (ps4BuiltinCommand env cs₁).2 with cmd := none } := by
  have hquiet := hcs₁.nothingStarted hcs
  have hfreed : ∀ r : Bool × ChanSess, (r.1, if r.1 then r.2 else { r.2 with cmd := none }) =
      (false, ds) → r.1 = false ∧ ds = { r.2 with cmd := none } := by
    rintro ⟨ret, ds'⟩ heq
    cases ret
    · cases heq
      exact ⟨rfl, rfl⟩
    · cases heq
  unfold launch at h
  cases issubsys with
  | true =>
    cases h
    exact .inl (hcs₁.leftAsItWas hcs cs₁.log)
  | false =>
    cases iscmd with
    | false =>
      obtain ⟨hret, hds⟩ := hfreed (ps4ShellStart env cs₁) h
      rw [hds, ps4ShellStart_failed hquiet hret]
      exact .inl (hcs₁.leftAsItWas hcs cs₁.log)
    | true =>
      rw [Bool.true_and] at h
      cases hscp : isScp cs₁.cmdline with
      | true =>
        rw [hscp] at h
        obtain ⟨hret, hds⟩ := hfreed (ps4ScpStart env cs₁) h
        obtain ⟨log, hlog⟩ := ps4ScpStart_failed hquiet hret
        rw [hds, hlog]
        exact .inl (hcs₁.leftAsItWas hcs log)
      | false =>
        rw [hscp] at h
        obtain ⟨hret, hds⟩ := hfreed (ps4BuiltinCommand env cs₁) h
        exact .inr ⟨rfl, rfl, rfl, hret, hds⟩

/-- A failed `sessioncommand` has left the channel as it was, or has been in
`ps4_builtin_command`. -/
theorem sessioncommand_failed (hcs : Idle cs) {buf : Buffer} {iscmd issubsys : Bool}
    {ds : ChanSess} (h : sessioncommand R env cs buf iscmd issubsys = .ok (false, ds)) :
    LeftAsItWas cs ds ∨ iscmd = true ∧ issubsys = false ∧ ∃ cmd,
      readCommand cs buf false = .ok (some cmd) ∧ isScp (prepared R cs cmd).cmdline = false ∧
      (ps4BuiltinCommand env (prepared R cs cmd)).1 = false ∧
      ds = { (ps4BuiltinCommand env (prepared R cs cmd)).2 with cmd := none } := by
  unfold sessioncommand at h
  rw [if_neg (fun hne => hne hcs.state)] at h
  cases iscmd with
  | false =>
    rw [if_neg (by decide), pure_eq_ok] at h
    rcases launch_failed hcs (prepares_applyForcedCommand R cs cs.cmd) h with hleft | ⟨hfalse, -⟩
    · exact .inl hleft
    · cases hfalse
  | true =>
    rw [if_pos rfl] at h
    obtain ⟨c, hc, h⟩ := bind_eq_ok.1 h
    cases c with
    | none =>
      rw [pure_eq_ok] at h
      cases h
      exact .inl (Prepares.leftAsItWas ⟨cs.cmd, cs.originalCommand, cs.log, rfl⟩ hcs cs.log)
    | some cmd =>
      dsimp only at h
      rw [pure_eq_ok] at h
      rcases launch_failed hcs (prepares_applyForcedCommand R cs (some cmd)) h with
        hleft | ⟨-, rfl, hscp, hfail, hds⟩
      · exact .inl hleft
      · exact .inr ⟨rfl, rfl, cmd, hc, hscp, hfail, hds⟩

/-- A request for a command goes to `sessioncommand`. -/
theorem dispatchRequest_command {type : Bytes} (h : isCommandRequest type = true) (buf : Buffer) :
    dispatchRequest R env cs type buf =
      sessioncommand R env cs buf (!strEq type (ascii "shell")) (strEq type (ascii "subsystem")) := by
  unfold dispatchRequest
  simp only [isCommandRequest, Bool.or_eq_true] at h
  rcases h with (hs | he) | hy
  · rw [if_neg (by rw [strEq_ne hs (by decide)]; decide), if_pos hs, hs,
      strEq_ne hs (by decide)]
    rfl
  · rw [if_neg (by rw [strEq_ne he (by decide)]; decide),
      if_neg (by rw [strEq_ne he (by decide)]; decide),
      if_neg (by rw [strEq_ne he (by decide)]; decide), if_pos he,
      strEq_ne he (by decide), strEq_ne he (by decide)]
    rfl
  · rw [if_neg (by rw [strEq_ne hy (by decide)]; decide),
      if_neg (by rw [strEq_ne hy (by decide)]; decide),
      if_neg (by rw [strEq_ne hy (by decide)]; decide),
      if_neg (by rw [strEq_ne hy (by decide)]; decide), if_pos hy,
      strEq_ne hy (by decide), hy]
    rfl

/-- The reply changes nothing that matters here. -/
theorem LeftAsItWas.answer_iff {ds : ChanSess} {wantreply : Bool} :
    LeftAsItWas cs (ds.answer wantreply false) ↔ LeftAsItWas cs ds :=
  ⟨fun h => ⟨h.readfd, h.writefd, h.errfd, h.bidirFd, h.backendState, h.backendFd, h.cancelFd,
    h.threadStarted, h.cmd, h.cwd⟩,
   fun h => ⟨h.readfd, h.writefd, h.errfd, h.bidirFd, h.backendState, h.backendFd, h.cancelFd,
    h.threadStarted, h.cmd, h.cwd⟩⟩

/-- The launcher sees the shell and the descriptors of the channel. -/
theorem spoils_prepared {cmd line : Bytes} :
    Spoils S env (prepared R cs cmd) line ↔ Spoils S env cs line := by
  obtain ⟨c, o, l, heq⟩ := prepares_applyForcedCommand R cs (some cmd)
  rw [prepared, heq]
  rfl

theorem shell_prepared (R : Restriction) (cs : ChanSess) (cmd : Bytes) :
    (prepared R cs cmd).shell = cs.shell := by
  obtain ⟨c, o, l, heq⟩ := prepares_applyForcedCommand R cs (some cmd)
  rw [prepared, heq]

/-- A failed `exec` behind `ps4_builtin_command`. -/
theorem leftAsItWas_builtin (hcs : Idle cs) {cmd : Bytes}
    (hK : S.Hosts env.kernel cs.shell (prepared R cs cmd).cmdline)
    (h : (ps4BuiltinCommand env (prepared R cs cmd)).1 = false) :
    LeftAsItWas cs { (ps4BuiltinCommand env (prepared R cs cmd)).2 with cmd := none } ↔
      ¬ Spoils S env cs (prepared R cs cmd).cmdline := by
  have hspoils : Spoils S env (prepared R cs cmd) (prepared R cs cmd).cmdline ↔
      Spoils S env cs (prepared R cs cmd).cmdline := spoils_prepared
  rw [← shell_prepared R cs cmd] at hK
  rw [← hspoils, ← ps4BuiltinCommand_leaves hK h]
  obtain ⟨shell, log, writefd, heq⟩ := ps4BuiltinCommand_frame h
  rw [heq]
  obtain ⟨c, o, l, hprep⟩ := prepares_applyForcedCommand R cs (some cmd)
  rw [prepared, hprep]
  constructor
  · intro hleft
    exact ⟨hleft.writefd, hleft.cwd⟩
  · rintro ⟨hwrite, hcwd⟩
    exact ⟨rfl, hwrite, rfl, rfl, rfl, rfl, rfl, rfl, hcs.cmd.symm, hcwd⟩

/-! ### Idle channels stay clean -/

/-- A request that starts nothing keeps the command as it was, or frees it. -/
theorem dispatchRequest_cmd {type : Bytes} {buf : Buffer} {ret : Bool} {ds : ChanSess}
    (h : dispatchRequest R env cs type buf = .ok (ret, ds)) :
    (ret && isCommandRequest type) = true ∨ ds.cmd = none ∨ ds.cmd = cs.cmd := by
  cases hcommand : isCommandRequest type with
  | true =>
    rw [dispatchRequest_command hcommand] at h
    cases ret with
    | true => exact .inl rfl
    | false =>
      refine .inr ?_
      unfold sessioncommand at h
      split at h
      · rw [pure_eq_ok] at h
        cases h
        exact .inr rfl
      have hfreed {cs₁ : ChanSess} {iscmd issubsys : Bool}
          (h : launch env cs₁ iscmd issubsys = (false, ds)) : ds.cmd = none := by
        unfold launch at h
        obtain ⟨hret, hds⟩ := Prod.mk.inj h
        rw [hret] at hds
        rw [← hds]
        rfl
      split at h
      · obtain ⟨c, -, h⟩ := bind_eq_ok.1 h
        cases c with
        | none =>
          rw [pure_eq_ok] at h
          cases h
          exact .inl rfl
        | some cmd =>
          dsimp only at h
          rw [pure_eq_ok] at h
          exact .inl (hfreed h)
      · rw [pure_eq_ok] at h
        exact .inl (hfreed h)
  | false =>
    refine .inr (.inr ?_)
    simp only [isCommandRequest, Bool.or_eq_false_iff] at hcommand
    obtain ⟨⟨hs, he⟩, hy⟩ := hcommand
    unfold dispatchRequest at h
    rw [hs, he, hy] at h
    simp only [Bool.false_eq_true, if_false] at h
    split at h
    · simp only [sessionwinchange, bind_eq_ok, Prod.exists, pure_eq_ok, Prod.mk.injEq] at h
      obtain ⟨_, _, -, _, _, -, _, _, -, _, _, -, -, rfl⟩ := h
      rfl
    split at h
    · exact (sessionpty_fields h).2.2
    split at h
    · rw [pure_eq_ok] at h
      have hfields := (svrAgentreq_fields R env cs).2.2
      rw [h] at hfields
      exact hfields
    · rw [pure_eq_ok] at h
      cases h
      rfl

/-- A channel that is idle after a request was idle before it, and nothing is left behind. -/
theorem idle_of_request (hcs : cs.backendState = .idle → Idle cs) {payload : Buffer}
    (h : chansessionrequest R env cs payload = .ok cs') (hidle : cs'.backendState = .idle) :
    Idle cs' := by
  simp only [chansessionrequest, bind_eq_ok, Prod.exists] at h
  obtain ⟨type, buf, -, wantreply, buf', -, h⟩ := h
  have hstate {ds : ChanSess} {ret : Bool}
      (h : (ds.answer wantreply ret).backendState = .idle) : ds.backendState = .idle := by
    simp only [ChanSess.answer] at h
    split at h
    · cases h
    · exact h
  split at h
  · simp only [pure_bind, pure_eq_ok] at h
    subst h
    have hold := hcs (hstate hidle)
    exact ⟨⟨hidle, hold.backendFd, hold.threadStarted⟩, hold.cmd⟩
  · simp only [bind_eq_ok, Prod.exists, pure_eq_ok] at h
    obtain ⟨ret, ds, hds, rfl⟩ := h
    have hds' := hstate hidle
    have hcmd := dispatchRequest_cmd hds
    have hout := dispatchRequest_outcome hds
    generalize (ret && isCommandRequest type) = started at hcmd hout
    generalize requestStores R env cs type buf' = stores at hout
    cases hout with
    | unstarted hsame _ =>
      have hold := hcs (hsame.state.symm.trans hds')
      refine ⟨⟨hidle, ?_, ?_⟩, ?_⟩
      · exact hsame.backendFd.elim (·.trans hold.backendFd) (·.2)
      · exact hsame.threadStarted.elim (·.trans hold.threadStarted) (·.2)
      · rcases hcmd with hfalse | hnone | hkept
        · cases hfalse
        · exact hnone
        · exact hkept.trans hold.cmd
    | executed hexec =>
      rw [hexec.state] at hds'
      cases hds'
    | forked hfork =>
      rw [hfork.state] at hds'
      cases hds'

theorem idle_shellByte (hcs : cs.backendState = .idle → Idle cs) {K : Kernel} {t : ShellThread}
    {byte : UInt8} (hidle : (cs.shellByte K t byte).backendState = .idle) :
    Idle (cs.shellByte K t byte) := by
  unfold ChanSess.shellByte at hidle ⊢
  generalize t.onByte byte = r at hidle ⊢
  obtain ⟨t', reaction⟩ := r
  cases reaction with
  | write out =>
    have hold := hcs hidle
    exact ⟨⟨hidle, hold.backendFd, hold.threadStarted⟩, hold.cmd⟩
  | prompt out =>
    have hold := hcs hidle
    exact ⟨⟨hidle, hold.backendFd, hold.threadStarted⟩, hold.cmd⟩
  | line c =>
    have hold := hcs hidle
    exact ⟨⟨hidle, hold.backendFd, hold.threadStarted⟩, hold.cmd⟩
  | leave out => cases hidle

/-- Every channel in state `IDLE` is clean. -/
theorem idle_of_reachable (hreach : (sessionChannel R).Reachable newchansess cs)
    (hidle : cs.backendState = .idle) : Idle cs := by
  refine hreach.invariant (I := fun cs => cs.backendState = .idle → Idle cs)
    (fun _ => ⟨⟨rfl, rfl, rfl⟩, rfl⟩) ?_ hidle
  intro s l s' hI hst hidle
  cases l with
  | request payload env => exact idle_of_request hI (request_step hst) hidle
  | shellByte byte K =>
    simp only [sessionChannel] at hst
    split at hst
    · next t ht =>
      cases hst
      exact idle_shellByte hI hidle
    · cases hst
  | shellEof =>
    simp only [sessionChannel] at hst
    split at hst
    · cases hst
      cases hidle
    · cases hst
  | scpDone ok =>
    simp only [sessionChannel] at hst
    split at hst
    · cases hst
      cases hidle
    · cases hst

/-! ### Every failed request -/

theorem builtinLine_eq_some {payload : Buffer} {line : Bytes} :
    builtinLine R cs payload = some line ↔ ∃ type buf wantreply buf' cmd,
      bufGetstring payload = .ok (type, buf) ∧ bufGetbool buf = .ok (wantreply, buf') ∧
      readCommand cs buf' false = .ok (some cmd) ∧ strEq type (ascii "exec") = true ∧
      type.length ≤ maxNameLen ∧ isScp (prepared R cs cmd).cmdline = false ∧
      line = (prepared R cs cmd).cmdline := by
  unfold builtinLine
  simp only [Option.bind_eq_bind, Option.bind_eq_some_iff, Prod.exists, Option.join_eq_some_iff,
    toOption_eq_some, Option.ite_none_right_eq_some, Option.some.injEq]
  constructor
  · rintro ⟨type, buf, htype, w, buf', hbool, cmd, hcmd, ⟨hexec, hlen, hscp⟩, hline⟩
    exact ⟨type, buf, w, buf', cmd, htype, hbool, hcmd, hexec, hlen, hscp, hline.symm⟩
  · rintro ⟨type, buf, w, buf', cmd, htype, hbool, hcmd, hexec, hlen, hscp, hline⟩
    exact ⟨type, buf, htype, w, buf', hbool, cmd, hcmd, ⟨hexec, hlen, hscp⟩, hline.symm⟩

/-- An `exec` that fails in `ps4_builtin_command`. -/
theorem sessioncommand_builtin (hidle : cs.backendState = .idle) {buf : Buffer} {cmd : Bytes}
    (hcmd : readCommand cs buf false = .ok (some cmd))
    (hscp : isScp (prepared R cs cmd).cmdline = false)
    (hfail : (ps4BuiltinCommand env (prepared R cs cmd)).1 = false) :
    sessioncommand R env cs buf true false =
      .ok (false, { (ps4BuiltinCommand env (prepared R cs cmd)).2 with cmd := none }) := by
  unfold sessioncommand
  rw [if_neg fun hne => hne hidle, if_pos rfl, hcmd]
  change Except.ok (launch env (prepared R cs cmd) true false) = _
  unfold launch
  rw [if_neg (by decide), hscp, Bool.and_false, if_neg (by decide), if_pos rfl]
  dsimp only
  rw [hfail]
  rfl

/-- A line that spoils something ends. -/
theorem Spoils.exists_runs {line : Bytes} (h : Spoils S env cs line) :
    ∃ r, S.Runs cs.shell line r := by
  rcases h with ⟨-, -, r, hrun, -⟩ | ⟨-, helse⟩
  · exact ⟨r, hrun⟩
  · obtain ⟨r, hrun, -⟩ := helse.runs
    exact ⟨r, hrun⟩

/-- Where `ps4_builtin_command` spoils something the request fails and leaves it behind. -/
theorem exists_failed_of_spoils (hcs : Idle cs) {payload : Buffer} {line : Bytes}
    (hline : builtinLine R cs payload = some line) (hspoils : Spoils S env cs line) :
    ∃ cs', FailedCommand R S env cs payload cs' ∧ ¬ LeftAsItWas cs cs' := by
  obtain ⟨r, hruns⟩ := hspoils.exists_runs
  obtain ⟨K, hK⟩ := hruns.exists_hosts
  have hhosts : ∀ l, builtinLine R cs payload = some l → S.Hosts K cs.shell l := by
    intro l hl
    rw [hline] at hl
    cases hl
    exact hK
  obtain ⟨type, buf, w, buf', cmd, htype, hbool, hcmd, hexec, hlen, hscp, rfl⟩ :=
    builtinLine_eq_some.1 hline
  -- the kernel is no part of what spoils
  have hspoils' : Spoils S { env with kernel := K } cs (prepared R cs cmd).cmdline := hspoils
  have hfail : (ps4BuiltinCommand { env with kernel := K } (prepared R cs cmd)).1 = false := by
    refine ps4BuiltinCommand_of_spoils ?_ (spoils_prepared.2 hspoils')
    rw [shell_prepared]
    exact hK
  have hcommand : isCommandRequest type = true := by
    rw [isCommandRequest, hexec, Bool.or_true, Bool.true_or]
  have hflags : sessioncommand R { env with kernel := K } cs buf' (!strEq type (ascii "shell"))
      (strEq type (ascii "subsystem")) =
        sessioncommand R { env with kernel := K } cs buf' true false := by
    rw [strEq_ne hexec (by decide), strEq_ne hexec (by decide)]
    rfl
  have hrun := (dispatchRequest_command hcommand buf').trans
    (hflags.trans (sessioncommand_builtin hcs.state hcmd hscp hfail))
  refine ⟨_, ⟨K, hhosts, type, buf, w, buf', _, htype, hbool, hcommand, hlen, hrun, rfl⟩,
    fun hleft => ?_⟩
  exact (leftAsItWas_builtin hcs hK hfail).1 (LeftAsItWas.answer_iff.1 hleft) hspoils'

/-- **A failed request**, on any channel in state `IDLE` that can be reached: for every request for a
command, every system that its command line runs on and every outcome of the other calls, the
channel is as it was whenever the request fails, exactly when `ps4_builtin_command` spoils
nothing. -/
theorem failedRequest_iff (hreach : (sessionChannel R).Reachable newchansess cs)
    (hidle : cs.backendState = .idle) (S : CommandHost) (env : LaunchEnv) (payload : Buffer) :
    (∀ cs', FailedCommand R S env cs payload cs' → LeftAsItWas cs cs') ↔
      ∀ line, builtinLine R cs payload = some line → ¬ Spoils S env cs line := by
  have hcs := idle_of_reachable hreach hidle
  constructor
  · intro h line hline hspoils
    obtain ⟨cs', hfailed, hspoilt⟩ := exists_failed_of_spoils hcs hline hspoils
    exact hspoilt (h cs' hfailed)
  · rintro h cs' ⟨K, hhosts, type, buf, w, buf', ds, htype, hbool, hcommand, hlen, hrun, rfl⟩
    rw [dispatchRequest_command hcommand] at hrun
    refine LeftAsItWas.answer_iff.2 ?_
    rcases sessioncommand_failed hcs hrun with hleft | ⟨hshell, hsub, cmd, hcmd, hscp, hfail, rfl⟩
    · exact hleft
    · have hexec : strEq type (ascii "exec") = true := by
        rw [isCommandRequest, hsub, Bool.or_false] at hcommand
        rw [Bool.not_eq_true'] at hshell
        rwa [hshell, Bool.false_or] at hcommand
      have hline : builtinLine R cs payload = some (prepared R cs cmd).cmdline :=
        builtinLine_eq_some.2 ⟨type, buf, w, buf', cmd, htype, hbool, hcmd, hexec, hlen, hscp, rfl⟩
      exact (leftAsItWas_builtin hcs (hhosts _ hline) hfail).2 (h _ hline)

/-! ### Three requests -/

/-- `exec` with a command, and without a reply. -/
def execPayload (command : Bytes)
    (h : (sshString (ascii "exec") ++ 0 :: sshString command).length ≤ bufMaxSize) : Buffer :=
  requestPayload (ascii "exec") (sshString command) h

/-- A system with one directory, `/data/alpha`. -/
def alphaHost : CommandHost where
  World := Unit
  answer c w := match c with
    | .stat path =>
      if path = ascii "/data/alpha" then (.ok ⟨0o040755, 0, 0⟩, ()) else (.error (.other 2), ())
    | c => emptySystem c w
  world := ()
  libc := ⟨fun _ => ascii "No such file or directory", true⟩
  errno := .zero

/-- `whoami` prints one line and stays where it is. -/
theorem runs_whoami (S : CommandHost) (state : ShellState) :
    S.Runs state (ascii "whoami") ⟨0, ascii "root\n", state⟩ := by
  refine ⟨S.world, ?_⟩
  have hskip : skipBlanks (cstr (ascii "whoami")) = ascii "whoami" := by decide
  unfold formatCommand
  rw [hskip, if_neg (by decide), if_pos rfl, eval_printed]
  exact ⟨rfl, rfl⟩

theorem resolveArg_alpha (state : ShellState) :
    ShellProg.resolveArg state (ascii "/data/alpha") = some (ascii "/data/alpha") := by
  refine ps4ShellResolve_normal (isNormalPath_iff.2 ⟨[ascii "data", ascii "alpha"], ?_, ?_⟩) ?_ ?_
  · decide
  · decide
  · decide
  · decide

/-- `whoami`, when there is no pipe. -/
theorem failedRequest_iff_whoami :
    let R : Restriction := ⟨none, none⟩
    let env : LaunchEnv := { willingEnv with pipe := none }
    ∀ cs', FailedCommand R alphaHost env newchansess (execPayload (ascii "whoami") (by decide)) cs' →
      LeftAsItWas newchansess cs' := by
  intro R env
  refine (failedRequest_iff (.refl newchansess) rfl alphaHost env _).2 fun line hline => ?_
  have hwhoami : builtinLine R newchansess (execPayload (ascii "whoami") (by decide)) =
      some (ascii "whoami") := by decide
  rw [hwhoami] at hline
  cases hline
  rintro (⟨hnull, -⟩ | ⟨-, helse⟩)
  · cases hnull
  · obtain ⟨r, hrun, -, -, hmoved⟩ := helse.runs
    rw [hrun.unique (runs_whoami _ _)] at hmoved
    exact hmoved rfl

/-- On a new channel `whoami` without a `/dev/null` leaves `writefd` closed, and a `cd` without a
pipe leaves the shell in the other directory. -/
theorem failedRequest_spoils :
    let R : Restriction := ⟨none, none⟩
    (∃ cs', FailedCommand R alphaHost { willingEnv with devNull := none } newchansess
        (execPayload (ascii "whoami") (by decide)) cs' ∧ ¬ LeftAsItWas newchansess cs') ∧
      ∃ cs', FailedCommand R alphaHost { willingEnv with pipe := none } newchansess
        (execPayload (ascii "cd /data/alpha") (by decide)) cs' ∧
          ¬ LeftAsItWas newchansess cs' := by
  intro R
  have hidle : Idle newchansess := ⟨⟨rfl, rfl, rfl⟩, rfl⟩
  constructor
  · have hline : builtinLine R newchansess (execPayload (ascii "whoami") (by decide)) =
        some (ascii "whoami") := by decide
    refine exists_failed_of_spoils hidle hline (.inl ⟨rfl, by decide, _, runs_whoami _ _, le_rfl,
      rfl, ?_⟩)
    exact fun h => absurd h.2 (by decide)
  · have hline : builtinLine R newchansess
        (execPayload (ascii "cd /data/alpha") (by decide)) =
          some (ascii "cd /data/alpha") := by decide
    refine exists_failed_of_spoils hidle hline (.inr ⟨.inl rfl, ascii "/data/alpha",
      ascii "/data/alpha", ⟨0o040755, 0, 0⟩, .inl ?_, resolveArg_alpha _, rfl, rfl, ?_⟩)
    · decide +kernel
    · decide

end Ps4Dropbear
