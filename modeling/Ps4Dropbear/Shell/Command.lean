import Ps4Dropbear.Buffer.Basic

/-!
# Command lines

The parts of `ps4-shell.c` and `ps4-scp.c` that look at a command line before anything is
executed: splitting into arguments, path resolution, the list of commands that the shell handles
itself, and the grammar of `scp`.  A command line is a C string, so its bytes stop at the first
NUL.

* `splitCommand` : the arguments of a command line, with quotes and backslashes.
* `ps4ShellResolve` : an absolute, normalised path.
* `ps4ShellHandles` : the shell has a command of this name.
* `ps4ScpParseCommand` : the request behind an `scp` command line.
-/

namespace Ps4Dropbear

/-- `PS4_SHELL_PATH_MAX`. -/
def ps4ShellPathMax : ℕ := 1024

/-- `PS4_SHELL_MAX_ARGS`. -/
def ps4ShellMaxArgs : ℕ := 16

/-- The size of the argument storage. -/
def argStorage : ℕ := 2048

/-- One argument from its first byte on: its bytes, the room left in the storage and the rest of
the line.  The quote that is open (`0` for none) is part of the state; `none` is an error of
`split_command`. -/
def scanArg : UInt8 → ℕ → Bytes → Option (Bytes × ℕ × Bytes)
  | quote, remaining, [] => if quote ≠ 0 then none else some ([], remaining, [])
  | quote, remaining, ch :: rest =>
    if quote = 0 ∧ isBlank ch then
      some ([], remaining, rest)
    else if ch = 92 ∧ quote ≠ 39 then
      -- a backslash outside single quotes takes the next byte as it is
      match rest with
      | [] => none
      | ch' :: rest' =>
        if remaining < 2 then none
        else (scanArg quote (remaining - 1) rest').map fun r => (ch' :: r.1, r.2)
    else if (ch = 39 ∨ ch = 34) ∧ quote = 0 then
      scanArg ch remaining rest
    else if (ch = 39 ∨ ch = 34) ∧ quote = ch then
      scanArg 0 remaining rest
    else if remaining < 2 then none
    else (scanArg quote (remaining - 1) rest).map fun r => (ch :: r.1, r.2)

/-- The outer loop of `split_command`, with the arguments found so far.  Every round consumes a
byte, so the length of the line bounds the rounds. -/
def splitLoop : ℕ → List Bytes → ℕ → Bytes → Option (List Bytes)
  | 0, argv, _, _ => some argv
  | fuel + 1, argv, remaining, line =>
    match line.dropWhile isBlank with
    | [] => some argv
    | ch :: rest =>
      if argv.length = ps4ShellMaxArgs ∨ remaining < 2 then none
      else
        match scanArg 0 remaining (ch :: rest) with
        | none => none
        | some (arg, left, line') => splitLoop fuel (argv ++ [arg]) (left - 1) line'

/-- `split_command`, the same text in both files. -/
def splitCommand (command : Bytes) : Option (List Bytes) :=
  splitLoop (cstr command).length [] argStorage (cstr command)

/-- The names in `ps4_shell_handles`. -/
def ps4ShellCommands : List Bytes :=
  ["pwd", "cd", "ls", "cat", "head", "tail", "stat", "touch", "mkdir", "rmdir", "rm", "cp", "mv",
    "chmod", "grep", "hexdump", "find"].map ascii

/-- `ps4_shell_handles`. -/
def ps4ShellHandles (command : Bytes) : Bool :=
  match splitCommand command with
  | none => false
  | some [] => false
  | some (name :: _) => ps4ShellCommands.contains name

/-! ### Paths -/

/-- The resolved path without its last component; the root stays. -/
def parentPath (resolved : Bytes) : Bytes :=
  let r := resolved.reverse.dropWhile (· ≠ 47)
  (if r.length > 1 then r.tail else r).reverse

/-- One component of the combined path. -/
def resolveComponent (resolvedSize : ℕ) (resolved component : Bytes) : Option Bytes :=
  if component = ascii "." then some resolved
  else if component = ascii ".." then some (parentPath resolved)
  else if resolved.length > 1 ∧ resolved.length + 1 ≥ resolvedSize then none
  else
    let out := if resolved.length > 1 then resolved ++ ascii "/" else resolved
    if out.length + component.length ≥ resolvedSize then none else some (out ++ component)

/-- `ps4_shell_resolve`; `none` is `ENAMETOOLONG`. -/
def ps4ShellResolve (cwd path : Bytes) (resolvedSize : ℕ) : Option Bytes :=
  let path := if path = [] then cwd else path
  let combined := if path.head? = some 47 then path else cwd ++ ascii "/" ++ path
  if combined.length ≥ 2 * ps4ShellPathMax ∨ resolvedSize < 2 then none
  else ((combined.splitOn 47).filter (· ≠ [])).foldlM (resolveComponent resolvedSize) (ascii "/")

/-! ### The `scp` command line -/

/-- `enum ps4_scp_mode`. -/
inductive ScpMode
  | receive
  | send
  deriving DecidableEq, Repr

/-- `struct ps4_scp_request`. -/
structure ScpRequest where
  mode : ScpMode
  path : Bytes
  preserve : Bool
  targetShouldBeDirectory : Bool
  deriving DecidableEq, Repr

/-- The flags seen so far by `ps4_scp_parse_command`. -/
structure ScpFlags where
  mode : Option ScpMode
  preserve : Bool
  targetShouldBeDirectory : Bool

/-- One letter of an option. -/
def scpLetter (f : ScpFlags) (c : UInt8) : Option ScpFlags :=
  if c = 116 then if f.mode = none then some { f with mode := some .receive } else none
  else if c = 102 then if f.mode = none then some { f with mode := some .send } else none
  else if c = 112 then some { f with preserve := true }
  else if c = 100 then some { f with targetShouldBeDirectory := true }
  else if c = 118 ∨ c = 113 ∨ c = 84 then some f
  else none

/-- The arguments between the name and the path; `--` has to be the last of them. -/
def scpOptions : ScpFlags → List Bytes → Option ScpFlags
  | f, [] => some f
  | f, option :: options =>
    if option = ascii "--" then
      if options = [] then some f else none
    else
      match option with
      | 45 :: c :: letters =>
        match (c :: letters).foldlM scpLetter f with
        | none => none
        | some f' => scpOptions f' options
      | _ => none

/-- `ps4_scp_parse_command`; `none` is `-1`. -/
def ps4ScpParseCommand (command cwd : Bytes) : Option ScpRequest :=
  match splitCommand command with
  | none => none
  | some argv =>
    if argv.length < 3 ∨ argv.head? ≠ some (ascii "scp") then none
    else
      match scpOptions ⟨none, false, false⟩ argv.tail.dropLast with
      | none => none
      | some f =>
        match f.mode, ps4ShellResolve cwd (argv.getLastD []) ps4ShellPathMax with
        | some mode, some path => some ⟨mode, path, f.preserve, f.targetShouldBeDirectory⟩
        | _, _ => none

end Ps4Dropbear
