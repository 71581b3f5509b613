import Mathlib.Data.Int.Notation
import Ps4Dropbear.Shell.Command

/-!
# Built-in commands and the interactive shell

`ps4_format_command` runs one command line in the process of the server and captures its output;
`ps4_shell_thread` edits lines that arrive byte by byte and dispatches them.

What a file command prints and returns is decided by the file system, so `ps4_shell_execute` is a
field of `Kernel`; that the command line was handed to it is recorded in the result.

* `ps4FormatCommand` : the built-ins, and everything else through `ps4_shell_execute`.
* `ShellThread.onByte` : what the thread does with one byte.
* `ShellThread.dispatch` : what it does with a finished line.
-/

namespace Ps4Dropbear

/-- `struct ps4_shell_state`. -/
structure ShellState where
  cwd : Bytes
  home : Bytes
  deriving DecidableEq

/-- `ps4_shell_init`. -/
def ps4ShellInit (home : Bytes) : ShellState :=
  let home := if home = [] then ascii "/" else home
  ⟨home.take (ps4ShellPathMax - 1), home.take (ps4ShellPathMax - 1)⟩

/-- What `ps4_shell_execute` leaves behind: its status, what it gave to the writer, call by call,
and the new state. -/
structure ShellResult where
  status : ℤ
  writes : List Bytes
  shell : ShellState

/-- The system under the shell. -/
structure Kernel where
  /-- `sceKernelGetSystemSwVersion`. -/
  version : Bytes
  /-- `ps4_shell_execute`, for a writer that takes at most the given number of bytes, or for the
  terminal, which takes all. -/
  shellExecute : ShellState → Bytes → Option ℕ → ShellResult

/-- A system on which commands succeed and print nothing. -/
def quietKernel : Kernel := ⟨ascii "11.00", fun shell _ _ => ⟨0, [], shell⟩⟩

/-- What `ps4_format_command` returns. -/
structure FormatResult where
  status : ℤ
  output : Bytes
  shell : ShellState
  /-- The command line that was handed to `ps4_shell_execute`. -/
  executed : Option Bytes

/-- The command line behind its leading blanks. -/
def skipBlanks (cmd : Bytes) : Bytes := cmd.dropWhile isBlank

/-- The line printed by `help`. -/
def helpText : Bytes :=
  ascii ("Built-ins: pwd cd ls [-la] cat head tail stat hexdump grep find touch " ++
    "mkdir rmdir rm cp mv chmod id whoami uname echo true false help exit\n")

/-- A command that only prints, through `snprintf`. -/
def formatted (shell : ShellState) (size : ℕ) (status : ℤ) (text : Bytes) : FormatResult :=
  ⟨status, text.take (size - 1), shell, none⟩

/-- `ps4_format_command`. -/
def ps4FormatCommand (K : Kernel) (shell : ShellState) (cmd : Bytes) (size : ℕ) : FormatResult :=
  let cmd := skipBlanks cmd
  if cmd = ascii "id" then
    formatted shell size 0 (ascii "uid=0(root) gid=0(root) groups=0(root)\n")
  else if cmd = ascii "whoami" then
    formatted shell size 0 (ascii "root\n")
  else if cmd = ascii "uname -a" then
    formatted shell size 0 (ascii "OrbisOS " ++ K.version ++ ascii " x86_64\n")
  else if cmd = ascii "uname" then
    formatted shell size 0 (ascii "OrbisOS\n")
  else if cmd.take 4 = ascii "echo" ∧ (cmd.drop 4).head?.all (· = 32) then
    formatted shell size 0 ((cmd.drop 4).dropWhile (· = 32) ++ ascii "\n")
  else if cmd = ascii "true" then
    formatted shell size 0 []
  else if cmd = ascii "false" then
    formatted shell size 1 []
  else if cmd = ascii "help" then
    formatted shell size 0 helpText
  else if cmd = [] then
    formatted shell size 0 []
  else
    let r := K.shellExecute shell cmd (some (size - 1))
    ⟨r.status, r.writes.flatten.take (size - 1), r.shell, some cmd⟩

/-- Whatever is handed to `ps4_shell_execute` is the command line itself. -/
theorem ps4FormatCommand_executed {K : Kernel} {shell : ShellState} {cmd : Bytes} {size : ℕ}
    {c : Bytes} (h : (ps4FormatCommand K shell cmd size).executed = some c) :
    c = skipBlanks cmd := by
  unfold ps4FormatCommand at h
  -- every branch but the last returns `none` here
  simp only [formatted, apply_ite FormatResult.executed] at h
  grind

/-! ### The interactive shell -/

/-- `ps4_write_terminal_output`: a newline that does not follow a carriage return of the same
call gets one. -/
def terminalOutput : UInt8 → Bytes → Bytes
  | _, [] => []
  | before, c :: rest =>
    (if c = 10 ∧ before ≠ 13 then [13, 10] else [c]) ++ terminalOutput c rest

/-- `ps4_write_prompt`. -/
def ps4Prompt (shell : ShellState) : Bytes :=
  (ascii "ps4:" ++ shell.cwd ++ ascii "# ").take (ps4ShellPathMax + 7)

/-- The greeting of `ps4_shell_thread`. -/
def ps4Banner : Bytes :=
  ascii "Dropbear SSH for PS4 by RuxaXa\r\nType 'help' for commands.\r\n"

/-- The local variables of `ps4_shell_thread`. -/
structure ShellThread where
  /-- The first `command_len` bytes of `command`. -/
  command : Bytes
  lastWasCr : Bool
  status : ℤ
  deriving DecidableEq

/-- The variables before the first byte. -/
def ShellThread.initial : ShellThread := ⟨[], false, 0⟩

/-- What the thread does with a byte, besides changing its variables. -/
inductive ShellReaction
  /-- It writes these bytes. -/
  | write (out : Bytes)
  /-- It writes these bytes and then the prompt. -/
  | prompt (out : Bytes)
  /-- It has a whole line. -/
  | line (command : Bytes)
  /-- It writes these bytes and leaves its loop. -/
  | leave (out : Bytes)
  deriving DecidableEq

namespace ShellThread

/-- The bytes of `command` that a line can hold, one less than its size. -/
def commandMax : ℕ := 511

/-- One round of the read loop. -/
def onByte (t : ShellThread) (byte : UInt8) : ShellThread × ShellReaction :=
  if byte = 13 ∨ byte = 10 then
    if byte = 10 ∧ t.lastWasCr then
      ({ t with lastWasCr := false }, .write [])
    else
      let t := { t with lastWasCr := byte = 13 }
      if cstr t.command = ascii "exit" ∨ cstr t.command = ascii "logout" then
        (t, .leave (ascii "\r\n" ++ ascii "logout\r\n"))
      else
        ({ t with command := [] }, .line (cstr t.command))
  else if byte = 127 ∨ byte = 8 then
    if t.command.length > 0 then
      ({ t with lastWasCr := false, command := t.command.dropLast }, .write [8, 32, 8])
    else
      ({ t with lastWasCr := false }, .write [])
  else if byte = 4 ∧ t.command.length = 0 then
    (t, .leave (ascii "logout\r\n"))
  else if byte = 3 then
    ({ command := [], lastWasCr := false, status := 130 }, .prompt (ascii "^C\r\n"))
  else if byte ≥ 32 ∧ t.command.length < commandMax then
    ({ t with lastWasCr := false, command := t.command ++ [byte] }, .write [byte])
  else
    (t, .write [])

/-- What a finished line leads to: the new status and shell state, everything that is written
(the line feed, the output and the prompt), and the functions that saw the line. -/
structure Dispatch where
  status : ℤ
  shell : ShellState
  output : Bytes
  /-- The line went to `ps4_shell_execute` directly. -/
  handled : Bool
  /-- What `ps4_shell_execute` was given. -/
  executed : Option Bytes

/-- The branch of the loop for a finished line.  A failed command counts as status `1`. -/
def dispatch (K : Kernel) (shell : ShellState) (command : Bytes) : Dispatch :=
  if ps4ShellHandles command then
    let r := K.shellExecute shell command none
    { status := if r.status < 0 then 1 else r.status
      shell := r.shell
      output := ascii "\r\n" ++ r.writes.flatMap (terminalOutput 0) ++ ps4Prompt r.shell
      handled := true
      executed := some command }
  else
    let r := ps4FormatCommand K shell command 4096
    { status := if r.status < 0 then 1 else r.status
      shell := r.shell
      output := ascii "\r\n" ++ (if r.status < 0 then [] else terminalOutput 0 r.output) ++
        ps4Prompt r.shell
      handled := false
      executed := r.executed }

end ShellThread

end Ps4Dropbear
