import Ps4Dropbear.Auth.PubkeyOptions
import Ps4Dropbear.LTS.Basic
import Ps4Dropbear.Shell.Thread

/-!
# Session channels

`svr-chansession.c` as it is built for the PS4: the requests of a session channel and the three
launchers behind them (`ps4_builtin_command`, `ps4_shell_start`, `ps4_scp_start`).  Process
creation is refused there, so a `subsystem` request always ends in a failed spawn.

`ChanSess` holds the fields of `struct ChanSess` and those of `struct Channel` that the launchers
set, the worker thread, and two records of what has happened: the replies that were sent and the
strings that were handed to a launcher.

* `sessioncommand`, `chansessionrequest` : the request handlers.
* `sessionChannel` : a channel as a transition system over requests and worker steps.
-/

namespace Ps4Dropbear

/-- `MAX_TERM_LEN`. -/
def maxTermLen : ℕ := 200

/-- `MAX_CMD_LEN`. -/
def maxCmdLen : ℕ := 9000

/-- `SFTPSERVER_PATH`; it does not start with `~/`, so `expand_homedir_path` copies it. -/
def sftpserverPath : Bytes := ascii "/usr/libexec/sftp-server"

/-- `enum ps4_command_state`. -/
inductive BackendState
  | idle
  | running
  | execReady
  | done
  deriving DecidableEq, Repr

/-- `struct exitinfo`; `exitpid` is `-1` before the end. -/
structure ExitInfo where
  exitpid : ℤ := -1
  exitstatus : ℤ := 0
  exitsignal : ℤ := 0
  exitcore : ℤ := 0
  deriving DecidableEq

/-- The priorities that the launchers give to a channel. -/
inductive ChannelPrio
  | lowdelay
  | normal
  deriving DecidableEq, Repr

/-- What is started or handed a command line. -/
inductive Launch
  /-- `ps4_shell_thread` is started. -/
  | shellThread
  /-- `ps4_format_command` is called. -/
  | formatCommand (cmd : Bytes)
  /-- `ps4_shell_execute` is called. -/
  | shellExecute (cmd : Bytes)
  /-- `ps4_scp_parse_command` is called. -/
  | scpParseCommand (cmd : Bytes)
  deriving DecidableEq

/-- The worker thread of a channel. -/
inductive Worker
  | absent
  | shell (t : ShellThread)
  | scp (request : ScpRequest)
  | finished
  deriving DecidableEq

/-- `struct ChanSess`, with the descriptors and the priority of its `struct Channel`. -/
structure ChanSess where
  cmd : Option Bytes := none
  originalCommand : Option Bytes := none
  term : Option Bytes := none
  exit : ExitInfo := {}
  backendState : BackendState := .idle
  threadStarted : Bool := false
  backendFd : ℤ := -1
  cancelFd : ℤ := -1
  ptyRequested : Bool := false
  termCols : ℕ := 0
  termRows : ℕ := 0
  termWidth : ℕ := 0
  termHeight : ℕ := 0
  shell : ShellState := ps4ShellInit (ascii "/data/dropbear")
  /-- `agentlistener` is not `NULL`. -/
  agentlistener : Bool := false
  /-- `FD_UNINIT` is `-2`. -/
  writefd : ℤ := -2
  readfd : ℤ := -2
  /-- `FD_CLOSED` is `-1`. -/
  errfd : ℤ := -1
  bidirFd : Bool := false
  prio : ChannelPrio := .lowdelay
  worker : Worker := .absent
  /-- The replies sent so far. -/
  replies : List Bool := []
  /-- The launches so far. -/
  log : List Launch := []
  deriving DecidableEq

/-- `newchansess`, on a channel that `newchannel` has just made. -/
def newchansess : ChanSess := {}

/-- What restricts the commands of a session: `svr_opts.forced_command`, from `-c`, and the
options of the accepted key. -/
structure Restriction where
  forcedCommand : Option Bytes
  pubkeyOptions : Option PubKeyOptions

/-- The outcomes of the system calls that a request makes. -/
structure LaunchEnv where
  kernel : Kernel
  /-- `pipe`. -/
  pipe : Option (ℕ × ℕ)
  /-- `ps4_write_pipe_all` to the new pipe. -/
  writePipe : Bool
  /-- `open("/dev/null", O_WRONLY)`. -/
  devNull : Option ℕ
  /-- `socketpair`. -/
  socketpair : Option (ℕ × ℕ)
  /-- `malloc` for the context of a thread. -/
  malloc : Bool
  /-- `pthread_create`. -/
  pthreadCreate : Bool
  /-- `socket`, `bindagent`, `listen` and `new_listener` of `svr_agentreq`. -/
  agentListener : Bool

variable (R : Restriction) (env : LaunchEnv)

/-! ### Launchers -/

/-- `chansess->cmd` as a C string. -/
def ChanSess.cmdline (cs : ChanSess) : Bytes := cstr (cs.cmd.getD [])

/-- `ps4_builtin_command`. -/
def ps4BuiltinCommand (cs : ChanSess) : Bool × ChanSess :=
  let r := ps4FormatCommand env.kernel cs.shell cs.cmdline 4096
  let cs := { cs with
    shell := r.shell
    log := cs.log ++ .formatCommand cs.cmdline :: r.executed.toList.map .shellExecute }
  if r.status < 0 then (false, cs)
  else
    match env.pipe with
    | none => (false, cs)
    | some (readEnd, _) =>
      if r.output.length > 0 ∧ env.writePipe = false then (false, cs)
      else
        match env.devNull with
        | none => (false, { cs with writefd := -1 })
        | some fd =>
          (true, { cs with
            writefd := fd, readfd := readEnd, errfd := -1, bidirFd := false, prio := .normal
            exit := ⟨0, r.status, -1, 0⟩, backendState := .execReady })

/-- The common part of `ps4_shell_start` and `ps4_scp_start`: the socket pair, the context and
the thread. -/
def startWorker (cs : ChanSess) (worker : Worker) (prio : ChannelPrio) : Bool × ChanSess :=
  match env.socketpair with
  | none => (false, cs)
  | some (ours, theirs) =>
    if env.malloc = false then (false, cs)
    else if env.pthreadCreate = false then
      -- the state and the descriptor were stored before the call, and are taken back
      (false, { cs with threadStarted := false, backendState := .idle, backendFd := -1 })
    else
      (true, { cs with
        threadStarted := true, backendState := .running, backendFd := theirs
        writefd := ours, readfd := ours, errfd := -1, bidirFd := true, prio := prio
        worker := worker })

/-- All three calls of `startWorker` succeed. -/
def LaunchEnv.threadStarts : Bool := env.socketpair.isSome && env.malloc && env.pthreadCreate

/-- `ps4_shell_start`. -/
def ps4ShellStart (cs : ChanSess) : Bool × ChanSess :=
  let (ret, cs) := startWorker env cs (.shell .initial) .lowdelay
  (ret, if ret then { cs with log := cs.log ++ [.shellThread] } else cs)

/-- `ps4_scp_start`. -/
def ps4ScpStart (cs : ChanSess) : Bool × ChanSess :=
  let cs := { cs with log := cs.log ++ [.scpParseCommand cs.cmdline] }
  match ps4ScpParseCommand cs.cmdline cs.shell.cwd with
  | none => (false, cs)
  | some request => startWorker env cs (.scp request) .normal

/-! ### Requests -/

/-- The command of an `exec` or `subsystem` request; `none` is a refused one. -/
def readCommand (cs : ChanSess) (buf : Buffer) (issubsys : Bool) : Except Exit (Option Bytes) := do
  let (cmd, cmdlen) ← match cs.cmd with
    | some cmd => pure (cmd, 0)
    | none => do
      let (cmd, _) ← bufGetstring buf
      pure (cmd, cmd.length)
  if cmdlen > maxCmdLen then return none
  else if issubsys then
    return if cmdlen = 4 ∧ cmd = ascii "sftp" then some sftpserverPath else none
  else return some cmd

/-- `svr_pubkey_set_forced_command`. -/
def svrPubkeySetForcedCommand (cs : ChanSess) : ChanSess :=
  match R.pubkeyOptions.bind (·.forcedCommand) with
  | none => cs
  | some forced =>
    { cs with originalCommand := some (cs.cmd.getD []), cmd := some (cstr forced) }

/-- The global command is taken into account first, then the one of the key. -/
def applyForcedCommand (cs : ChanSess) : ChanSess :=
  match R.forcedCommand with
  | some forced =>
    { cs with originalCommand := some (cs.cmd.getD []), cmd := some (cstr forced) }
  | none => svrPubkeySetForcedCommand R cs

/-- The command line asks for `scp`. -/
def isScp (cmd : Bytes) : Bool := cmd.take 3 == ascii "scp" && (cmd.drop 3).head?.all (· == 32)

/-- The last part of `sessioncommand`: the launcher, and the command freed after a failure.
`noptycommand` fails in `spawn_command`, and `ptycommand` because no pty is ever allocated. -/
def launch (cs : ChanSess) (iscmd issubsys : Bool) : Bool × ChanSess :=
  let (ret, cs) :=
    if issubsys then (false, cs)
    else if iscmd && isScp cs.cmdline then ps4ScpStart env cs
    else if iscmd then ps4BuiltinCommand env cs
    else ps4ShellStart env cs
  (ret, if ret then cs else { cs with cmd := none })

/-- `sessioncommand`. -/
def sessioncommand (cs : ChanSess) (buf : Buffer) (iscmd issubsys : Bool) :
    Except Exit (Bool × ChanSess) :=
  if cs.backendState ≠ .idle then return (false, cs)
  else if iscmd then do
    match ← readCommand cs buf issubsys with
    | none => return (false, { cs with cmd := none })
    | some cmd => return launch env (applyForcedCommand R { cs with cmd := some cmd }) true issubsys
  else return launch env (applyForcedCommand R cs) false issubsys

/-- `sessionwinchange`. -/
def sessionwinchange (cs : ChanSess) (buf : Buffer) : Except Exit (Bool × ChanSess) := do
  let (cols, buf) ← bufGetint buf
  let (rows, buf) ← bufGetint buf
  let (width, buf) ← bufGetint buf
  let (height, _) ← bufGetint buf
  return (true, { cs with
    termCols := cols, termRows := rows, termWidth := width, termHeight := height })

/-- `sessionpty`. -/
def sessionpty (cs : ChanSess) (buf : Buffer) : Except Exit (Bool × ChanSess) :=
  if R.pubkeyOptions.any (·.noPtyFlag) then return (false, cs)
  else if cs.term.isSome then return (false, cs)
  else do
    let (term, buf) ← bufGetstring buf
    if term.length > maxTermLen then return (false, cs)
    else
      let (cols, buf) ← bufGetint buf
      let (rows, buf) ← bufGetint buf
      let (width, buf) ← bufGetint buf
      let (height, buf) ← bufGetint buf
      let _ ← bufGetstring buf
      return (true, { cs with
        term := some term, ptyRequested := true
        termCols := cols, termRows := rows, termWidth := width, termHeight := height })

/-- `svr_agentreq`. -/
def svrAgentreq (cs : ChanSess) : Bool × ChanSess :=
  if R.pubkeyOptions.any (·.noAgentForwardingFlag) then (false, cs)
  else if cs.agentlistener then (false, cs)
  else (env.agentListener, { cs with agentlistener := env.agentListener })

/-- The request handler for a type of at most `MAX_NAME_LEN` bytes.  A `signal` request fails like
an unknown one. -/
def dispatchRequest (cs : ChanSess) (type : Bytes) (buf : Buffer) :
    Except Exit (Bool × ChanSess) :=
  if strEq type (ascii "window-change") then sessionwinchange cs buf
  else if strEq type (ascii "shell") then sessioncommand R env cs buf false false
  else if strEq type (ascii "pty-req") then sessionpty R cs buf
  else if strEq type (ascii "exec") then sessioncommand R env cs buf true false
  else if strEq type (ascii "subsystem") then sessioncommand R env cs buf true true
  else if strEq type (ascii "auth-agent-req@openssh.com") then return svrAgentreq R env cs
  else return (false, cs)

/-- The end of `chansessionrequest`: the reply, and `EXEC_READY` becomes `DONE`. -/
def ChanSess.answer (cs : ChanSess) (wantreply ret : Bool) : ChanSess :=
  { cs with
    replies := if wantreply then cs.replies ++ [ret] else cs.replies
    backendState :=
      if ret && cs.backendState == .execReady then .done else cs.backendState }

/-- `chansessionrequest`. -/
def chansessionrequest (cs : ChanSess) (payload : Buffer) : Except Exit ChanSess := do
  let (type, buf) ← bufGetstring payload
  let (wantreply, buf) ← bufGetbool buf
  let (ret, cs) ←
    if type.length > maxNameLen then pure (false, cs) else dispatchRequest R env cs type buf
  return cs.answer wantreply ret

/-! ### Worker threads -/

/-- The end of a worker: the exit status, `DONE`, and the descriptor. -/
def ChanSess.finish (cs : ChanSess) (status : ℤ) : ChanSess :=
  { cs with
    exit := ⟨0, status, -1, 0⟩, backendState := .done, backendFd := -1, worker := .finished }

/-- The thread works on a finished line. -/
def ChanSess.runLine (cs : ChanSess) (K : Kernel) (t : ShellThread) (line : Bytes) : ChanSess :=
  let d := ShellThread.dispatch K cs.shell line
  { cs with
    shell := d.shell
    worker := .shell { t with status := d.status }
    log := cs.log ++ (if d.handled then [] else [.formatCommand line]) ++
      d.executed.toList.map .shellExecute }

/-- `ps4_shell_thread` has read a byte. -/
def ChanSess.shellByte (cs : ChanSess) (K : Kernel) (t : ShellThread) (byte : UInt8) : ChanSess :=
  match t.onByte byte with
  | (t', .line command) => cs.runLine K t' command
  | (t', .leave _) => cs.finish t'.status
  | (t', .write _) => { cs with worker := .shell t' }
  | (t', .prompt _) => { cs with worker := .shell t' }

/-- What can happen on a channel. -/
inductive ChanEvent
  /-- `CHANNEL_REQUEST` with this payload behind the channel number. -/
  | request (payload : Buffer) (env : LaunchEnv)
  /-- The shell thread reads a byte that the client has sent. -/
  | shellByte (byte : UInt8) (kernel : Kernel)
  /-- The shell thread reads the end of its input. -/
  | shellEof
  /-- `ps4_scp_serve` returns. -/
  | scpDone (ok : Bool)

/-- A session channel. -/
def sessionChannel : LTS ChanSess ChanEvent where
  step cs
    | .request payload env => (chansessionrequest R env cs payload).toOption
    | .shellByte byte K =>
      match cs.worker with
      | .shell t => some (cs.shellByte K t byte)
      | _ => none
    | .shellEof =>
      match cs.worker with
      | .shell t => some (cs.finish t.status)
      | _ => none
    | .scpDone ok =>
      match cs.worker with
      | .scp _ => some (cs.finish (if ok then 0 else 1))
      | _ => none

end Ps4Dropbear
