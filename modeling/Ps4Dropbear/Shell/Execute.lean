import Mathlib.Data.List.Infix
import Ps4Dropbear.Prog.Writer
import Ps4Dropbear.Shell.Thread
import Ps4Dropbear.Text.Numbers

/-!
# The commands of the shell

`ps4_shell_execute` and the commands behind it, as programs on the file system with a writer for
their output.  Nothing is said here about what the file system answers: a call fails with a value
of `errno` or returns what the function of the C library returns, and a read returns at most as
many bytes as it was asked for.

`errno` is not part of the system: a call that fails sets it and one that succeeds leaves it as it
was.  The value from before the command only matters to `rm`, `cp` and `chmod`, which can report
an error without a call that failed.

* `splitCommandErrno` : `split_command`, with the value that it leaves in `errno`.
* `ShellProg.commandLs`, `ShellProg.commandCat`, … : one program for each function of the source.
* `ShellProg.ps4ShellExecute` : the command line and the commands that have no function of their
  own.
-/

namespace Ps4Dropbear

/-- The values of `errno` that the shell sets or looks for. -/
inductive Errno
  | zero
  | e2big
  | efbig
  | eintr
  | einval
  | enametoolong
  | enotdir
  | eoverflow
  | eperm
  | erange
  | other (n : ℕ)
  deriving DecidableEq, Repr

/-- The parts of `struct stat` that the shell reads. -/
structure StatBuf where
  mode : ℕ
  size : ℤ
  mtime : ℤ
  deriving DecidableEq, Repr

/-- `S_ISDIR`. -/
def StatBuf.isDir (st : StatBuf) : Bool := st.mode &&& 0o170000 = 0o040000

/-- `S_ISREG`. -/
def StatBuf.isReg (st : StatBuf) : Bool := st.mode &&& 0o170000 = 0o100000

/-- How the shell opens files: `O_RDONLY`, `O_WRONLY | O_CREAT`, and the latter with `O_TRUNC`. -/
inductive OpenFlags
  | rdonly
  | create
  | truncate
  deriving DecidableEq, Repr

/-- The calls of the shell; descriptors and directory streams are numbers.  `alloc` is `malloc`
and `realloc`, and `swVersion` is `sceKernelGetSystemSwVersion`. -/
inductive ShellCall
  | stat (path : Bytes)
  | fstat (fd : ℕ)
  | openFile (path : Bytes) (flags : OpenFlags) (mode : ℕ)
  | read (fd len : ℕ)
  | write (fd : ℕ) (data : Bytes)
  | close (fd : ℕ)
  | opendir (path : Bytes)
  | readdir (dir : ℕ)
  | closedir (dir : ℕ)
  | mkdir (path : Bytes) (mode : ℕ)
  | rmdir (path : Bytes)
  | unlink (path : Bytes)
  | rename (old new : Bytes)
  | chmod (path : Bytes) (mode : ℕ)
  | alloc (size : ℕ)
  | swVersion

/-- What a call returns. -/
@[reducible] def ShellCall.Answer : ShellCall → Type
  | stat _ | fstat _ => Except Errno StatBuf
  | openFile _ _ _ | opendir _ => Except Errno ℕ
  | read _ len => Except Errno { data : Bytes // data.length ≤ len }
  | write _ _ => Except Errno ℕ
  | close _ | mkdir _ _ | rmdir _ | unlink _ | rename _ _ | chmod _ _ => Except Errno Unit
  | readdir _ => Option Bytes
  | closedir _ => Unit
  | alloc _ => Bool
  | swVersion => Bytes

/-- What the shell uses of the C library: the texts of the errors, and whether a conversion without
a digit sets `errno`. -/
structure Libc where
  strerror : Errno → Bytes
  einvalWithoutDigit : Bool

/-! ### The command line -/

/-- `scanArg`, with the value of `errno` of an error. -/
def scanArgErrno : UInt8 → ℕ → Bytes → Except Errno (Bytes × ℕ × Bytes)
  | quote, remaining, [] => if quote ≠ 0 then .error .einval else .ok ([], remaining, [])
  | quote, remaining, ch :: rest =>
    if quote = 0 ∧ isBlank ch then
      .ok ([], remaining, rest)
    else if ch = 92 ∧ quote ≠ 39 then
      match rest with
      | [] => .error .einval
      | ch' :: rest' =>
        if remaining < 2 then .error .e2big
        else (scanArgErrno quote (remaining - 1) rest').map fun r => (ch' :: r.1, r.2)
    else if (ch = 39 ∨ ch = 34) ∧ quote = 0 then
      scanArgErrno ch remaining rest
    else if (ch = 39 ∨ ch = 34) ∧ quote = ch then
      scanArgErrno 0 remaining rest
    else if remaining < 2 then .error .e2big
    else (scanArgErrno quote (remaining - 1) rest).map fun r => (ch :: r.1, r.2)

/-- `splitLoop`, with the value of `errno` of an error. -/
def splitLoopErrno : ℕ → List Bytes → ℕ → Bytes → Except Errno (List Bytes)
  | 0, argv, _, _ => .ok argv
  | fuel + 1, argv, remaining, line =>
    match line.dropWhile isBlank with
    | [] => .ok argv
    | ch :: rest =>
      if argv.length = ps4ShellMaxArgs ∨ remaining < 2 then .error .e2big
      else
        match scanArgErrno 0 remaining (ch :: rest) with
        | .error e => .error e
        | .ok (arg, left, line') => splitLoopErrno fuel (argv ++ [arg]) (left - 1) line'

/-- `split_command`, with the value of `errno` of an error. -/
def splitCommandErrno (command : Bytes) : Except Errno (List Bytes) :=
  splitLoopErrno (cstr command).length [] argStorage (cstr command)

theorem toOption_map {ε α β : Type} (f : α → β) (x : Except ε α) :
    (x.map f).toOption = x.toOption.map f := by
  cases x <;> rfl

@[simp] theorem toOption_ok {ε α : Type} (a : α) : (.ok a : Except ε α).toOption = some a := rfl

@[simp] theorem toOption_error {ε α : Type} (e : ε) : (.error e : Except ε α).toOption = none :=
  rfl

theorem toOption_scanArgErrno (quote : UInt8) (remaining : ℕ) (line : Bytes) :
    (scanArgErrno quote remaining line).toOption = scanArg quote remaining line := by
  -- both functions branch on the same conditions
  fun_induction scanArgErrno quote remaining line with
  | case1 quote remaining hq => rw [scanArg, if_pos hq, toOption_error]
  | case2 quote remaining hq => rw [scanArg, if_neg hq, toOption_ok]
  | case3 quote remaining ch rest hblank =>
    unfold scanArg
    rw [if_pos hblank, toOption_ok]
  | case4 quote remaining ch hblank hback =>
    unfold scanArg
    rw [if_neg hblank, if_pos hback, toOption_error]
  | case5 quote remaining ch hblank hback ch' rest' hroom =>
    unfold scanArg
    rw [if_neg hblank, if_pos hback, toOption_error]
    exact (if_pos hroom).symm
  | case6 quote remaining ch hblank hback ch' rest' hroom ih =>
    unfold scanArg
    rw [if_neg hblank, if_pos hback, toOption_map, ih]
    exact (if_neg hroom).symm
  | case7 quote remaining ch rest hblank hback hopen ih =>
    unfold scanArg
    rw [if_neg hblank, if_neg hback, if_pos hopen, ih]
  | case8 quote remaining ch rest hblank hback hopen hclose ih =>
    unfold scanArg
    rw [if_neg hblank, if_neg hback, if_neg hopen, if_pos hclose, ih]
  | case9 quote remaining ch rest hblank hback hopen hclose hroom =>
    unfold scanArg
    rw [if_neg hblank, if_neg hback, if_neg hopen, if_neg hclose, if_pos hroom, toOption_error]
  | case10 quote remaining ch rest hblank hback hopen hclose hroom ih =>
    unfold scanArg
    rw [if_neg hblank, if_neg hback, if_neg hopen, if_neg hclose, if_neg hroom, toOption_map, ih]

theorem toOption_splitLoopErrno (fuel : ℕ) (argv : List Bytes) (remaining : ℕ) (line : Bytes) :
    (splitLoopErrno fuel argv remaining line).toOption = splitLoop fuel argv remaining line := by
  fun_induction splitLoopErrno fuel argv remaining line with
  | case1 argv remaining line => rfl
  | case2 fuel argv remaining line hline =>
    rw [splitLoop, hline, toOption_ok]
  | case3 fuel argv remaining line ch rest hline hfull =>
    rw [splitLoop, hline, toOption_error]
    exact (if_pos hfull).symm
  | case4 fuel argv remaining line ch rest hline hfull e hscan =>
    have hnone := toOption_scanArgErrno 0 remaining (ch :: rest)
    rw [hscan, toOption_error] at hnone
    rw [splitLoop, hline, toOption_error]
    dsimp only
    rw [if_neg hfull, ← hnone]
  | case5 fuel argv remaining line ch rest hline hfull arg left line' hscan ih =>
    have hsome := toOption_scanArgErrno 0 remaining (ch :: rest)
    rw [hscan, toOption_ok] at hsome
    rw [splitLoop, hline, ih]
    dsimp only
    rw [if_neg hfull, ← hsome]

/-- Both versions of `split_command` find the same arguments. -/
theorem toOption_splitCommandErrno (command : Bytes) :
    (splitCommandErrno command).toOption = splitCommand command :=
  toOption_splitLoopErrno _ _ _ _

/-- Programs of the shell. -/
abbrev ShellProg (α : Type) : Type 1 := WriterProg UInt8 ShellCall.Answer α

namespace ShellProg

/-- A call to the system. -/
def sys (c : ShellCall) : ShellProg c.Answer := WriterProg.loc c

/-- `write_all`. -/
def writeAll (data : Bytes) : ShellProg ℤ :=
  if data = [] then pure 0
  else do
    if ← WriterProg.emit data then return 0
    return -1

/-- `write_fmt`, for a text that is already formatted. -/
def writeFmt (text : Bytes) : ShellProg ℤ := writeAll (text.take 2047)

/-- `shell_error`. -/
def shellError (L : Libc) (command path : Bytes) (error : Errno) : ShellProg ℤ := do
  let text := command ++ ascii ": " ++ path ++ ascii ": " ++ L.strerror error ++ ascii "\n"
  if (← writeFmt text) ≠ 0 then return -1
  return 1

/-- `resolve_arg`; `none` is `ENAMETOOLONG`. -/
def resolveArg (state : ShellState) (arg : Bytes) : Option Bytes :=
  ps4ShellResolve state.cwd arg ps4ShellPathMax

/-- The path of an entry of the directory `path`; `none` when it does not fit. -/
def entryPath (path name : Bytes) : Option Bytes :=
  let full := path ++ (if path = ascii "/" then [] else ascii "/") ++ name
  if full.length ≥ ps4ShellPathMax then none else some full

/-- The slash behind the name of a directory. -/
def slashIf (isDirectory : Bool) : Bytes := if isDirectory then ascii "/" else []

variable (L : Libc)

/-! ### `ls` -/

/-- The options of `ls`. -/
structure LsOptions where
  target : Bytes
  showHidden : Bool
  longFormat : Bool

/-- The first loop of `command_ls`; an error is the option that is not supported. -/
def lsOptions : LsOptions → List Bytes → Except Bytes LsOptions
  | o, [] => .ok o
  | o, arg :: args =>
    if arg.head? ≠ some 45 then lsOptions { o with target := arg } args
    else
      let letters := arg.tail
      let o := { o with
        showHidden := o.showHidden || letters.contains 97
        longFormat := o.longFormat || letters.contains 108 }
      if letters.all fun c => c = 97 ∨ c = 108 then lsOptions o args else .error arg

/-- The body of the loop over the directory, with the names so far and the size of `entries`; the
result says whether there was enough memory. -/
def lsReadBody (showHidden : Bool) (directory : ℕ) :
    List Bytes × ℕ → ShellProg ((List Bytes × ℕ) ⊕ (List Bytes × Bool))
  | (entries, capacity) => do
    match ← sys (.readdir directory) with
    | none => pure (.inr (entries, true))
    | some name =>
      if showHidden = false ∧ name.head? = some 46 then pure (.inl (entries, capacity))
      else
        let full := entries.length = capacity
        let capacity := if full then if capacity = 0 then 32 else capacity * 2 else capacity
        let grown ← if full then sys (.alloc (capacity * 8)) else pure true
        if grown = false then pure (.inr (entries, false))
        else if ← sys (.alloc (name.length + 1)) then pure (.inl (entries ++ [name], capacity))
        else pure (.inr (entries, false))

/-- `entry_compare`, as an order: `strcmp` compares unsigned bytes. -/
def entryLe : Bytes → Bytes → Bool
  | [], _ => true
  | _ :: _, [] => false
  | a :: as, b :: bs => if a = b then entryLe as bs else a < b

/-- The loop over the sorted names. -/
def lsPrint (path : Bytes) (longFormat : Bool) : List Bytes → ShellProg ℤ
  | [] => pure 0
  | name :: names => do
    match entryPath path name with
    | none => pure (-1)
    | some full =>
      let isDirectory ← match ← sys (.stat full) with
        | .ok st => pure st.isDir
        | .error _ => pure false
      let again ← if longFormat then sys (.stat full) else pure (.error .zero)
      let line := match again with
        | .ok st =>
          (if isDirectory then ascii "d" else ascii "-") ++ printOctal4 (st.mode &&& 0o7777) ++
            ascii " " ++ padLeft 10 32 (printInt st.size) ++ ascii " " ++ name ++
            slashIf isDirectory ++ ascii "\n"
        | .error _ => name ++ slashIf isDirectory ++ ascii "\n"
      if (← writeFmt line) ≠ 0 then pure (-1) else lsPrint path longFormat names

/-- `command_ls`. -/
def commandLs (state : ShellState) (args : List Bytes) : ShellProg ℤ := do
  match lsOptions ⟨ascii ".", false, false⟩ args with
  | .error arg =>
    if (← writeFmt (ascii "ls: unsupported option: " ++ arg ++ ascii "\n")) = 0 then return 1
    return -1
  | .ok o =>
    match resolveArg state o.target with
    | none => shellError L (ascii "ls") o.target .enametoolong
    | some path =>
      match ← sys (.opendir path) with
      | .error e => shellError L (ascii "ls") o.target e
      | .ok directory =>
        let (entries, enough) ← Prog.iterate (lsReadBody o.showHidden directory) ([], 0)
        let result ←
          if enough then lsPrint path o.longFormat (entries.mergeSort entryLe) else pure (-1)
        let _ ← sys (.closedir directory)
        return result

/-! ### Commands that read a file -/

/-- `close`, and a result. -/
def closing {σ : Type} (fd : ℕ) (status : ShellProg ℤ) : ShellProg (σ ⊕ ℤ) := do
  let _ ← sys (.close fd)
  return .inr (← status)

/-- `close`, which leaves `errno` as it is unless it fails. -/
def closeErrno (fd : ℕ) (errno : Errno) : ShellProg Errno := do
  match ← sys (.close fd) with
  | .ok _ => return errno
  | .error e => return e

/-- The body of the loop of `command_cat`. -/
def catBody (name : Bytes) (fd : ℕ) (_ : Unit) : ShellProg (Unit ⊕ ℤ) := do
  match ← sys (.read fd 16384) with
  | .error e => closing fd (shellError L (ascii "cat") name e)
  | .ok data =>
    if data.1 = [] then closing fd (pure 0)
    else if (← writeAll data.1) ≠ 0 then closing fd (pure (-1))
    else return .inl ()

/-- Resolve the name of a file, open it for reading and go on with the descriptor. -/
def openArg (command : Bytes) (state : ShellState) (name : Bytes) (k : ℕ → ShellProg ℤ) :
    ShellProg ℤ :=
  match resolveArg state name with
  | none => shellError L command name .enametoolong
  | some path => do
    match ← sys (.openFile path .rdonly 0) with
    | .error e => shellError L command name e
    | .ok fd => k fd

/-- `command_cat`. -/
def commandCat (state : ShellState) (name : Bytes) : ShellProg ℤ :=
  openArg L (ascii "cat") state name fun fd => Prog.iterate (catBody L name fd) ()

/-- The inner loop of `command_head`: how much of a chunk is printed, and the lines left after
it. -/
def headCut : ℕ → Bytes → ℕ × ℕ
  | lines, [] => (0, lines)
  | lines, c :: rest =>
    if c = 10 then
      if lines - 1 = 0 then (1, 0)
      else ((headCut (lines - 1) rest).1 + 1, (headCut (lines - 1) rest).2)
    else ((headCut lines rest).1 + 1, (headCut lines rest).2)

/-- The body of the loop of `command_head`, with the lines left. -/
def headBody (fd : ℕ) (lines : ℕ) : ShellProg (ℕ ⊕ ℤ) :=
  if lines = 0 then closing fd (pure 0)
  else do
    match ← sys (.read fd 4096) with
    | .error _ => closing fd (pure 0)
    | .ok data =>
      if data.1 = [] then closing fd (pure 0)
      else if (← writeAll (data.1.take (headCut lines data.1).1)) ≠ 0 then closing fd (pure (-1))
      else return .inl (headCut lines data.1).2

/-- `command_head`. -/
def commandHead (state : ShellState) (name : Bytes) (lines : ℕ) : ShellProg ℤ :=
  openArg L (ascii "head") state name fun fd => Prog.iterate (headBody fd) lines

/-- The loop of `command_tail`, from the index `i` down: `start` and the lines left. -/
def tailScan (data : Bytes) : ℕ → ℤ → ℕ × ℤ
  | 0, lines => (0, lines)
  | i + 1, lines =>
    if data[i]? = some 10 ∧ i + 1 ≠ data.length then
      if lines - 1 = 0 then (i + 1, 0) else tailScan data i (lines - 1)
    else tailScan data i lines

/-- Where the last lines start. -/
def tailStart (data : Bytes) (lines : ℤ) : ℕ :=
  let (start, left) := tailScan data data.length lines
  if left > 0 then 0 else start

/-- `command_tail`. -/
def commandTail (state : ShellState) (name : Bytes) (lines : ℕ) : ShellProg ℤ :=
  openArg L (ascii "tail") state name fun fd => do
    match ← sys (.fstat fd) with
    | .error e =>
      let _ ← sys (.close fd)
      shellError L (ascii "tail") name e
    | .ok st =>
      if st.size < 0 ∨ st.size > 16 * 1024 * 1024 then
        let _ ← sys (.close fd)
        shellError L (ascii "tail") name .efbig
      else if ← sys (.alloc (st.size.toNat + 1)) then
        match ← sys (.read fd st.size.toNat) with
        | .error e => shellError L (ascii "tail") name (← closeErrno fd e)
        | .ok data =>
          let _ ← sys (.close fd)
          if (← writeAll (data.1.drop (tailStart data.1 lines))) ≠ 0 then return -1
          return 0
      else
        let _ ← sys (.close fd)
        return -1

/-- `parse_line_count`. -/
def parseLineCount : List Bytes → Option (ℕ × Bytes)
  | [_, name] => some (10, name)
  | [_, n, value, name] =>
    if n = ascii "-n" ∧ (strtol10 value).2 = [] ∧ 0 ≤ (strtol10 value).1 ∧
        (strtol10 value).1 ≤ 100000 then
      some ((strtol10 value).1.toNat, name)
    else none
  | _ => none

/-- `strstr(line, needle) != NULL`; the line is a C string to `strstr`. -/
def lineMatches (line needle : Bytes) : Bool := needle <:+: cstr line

/-- The body of the loop of `command_grep`, with the line so far and whether one matched. -/
def grepBody (needle name : Bytes) (fd : ℕ) : Bytes × Bool → ShellProg ((Bytes × Bool) ⊕ ℤ)
  | (line, matched) => do
    match ← sys (.read fd 1) with
    | .error e => closing fd (shellError L (ascii "grep") name e)
    | .ok ⟨[], _⟩ =>
      if line ≠ [] ∧ lineMatches line needle then
        if (← writeAll line) ≠ 0 then closing fd (pure (-1))
        else if (← writeAll (ascii "\n")) ≠ 0 then closing fd (pure (-1))
        else closing fd (pure 0)
      else closing fd (pure (if matched then 0 else 1))
    | .ok ⟨byte :: _, _⟩ =>
      if line.length = 65535 then closing fd (shellError L (ascii "grep") name .eoverflow)
      else
        let line := line ++ [byte]
        if byte = 10 then
          if lineMatches line needle then
            if (← writeAll line) ≠ 0 then closing fd (pure (-1)) else return .inl ([], true)
          else return .inl ([], matched)
        else return .inl (line, matched)

/-- `command_grep`. -/
def commandGrep (state : ShellState) (needle name : Bytes) : ShellProg ℤ := do
  if ← sys (.alloc 65536) then
    openArg L (ascii "grep") state name fun fd =>
      Prog.iterate (grepBody L needle name fd) ([], false)
  else return -1

/-- The bytes of a line of `command_hexdump`. -/
def hexBytes : Bytes → ShellProg ℤ
  | [] => pure 0
  | c :: rest => do
    let text := padLeft 2 48 (printHex c.toNat) ++ (if rest = [] then [] else ascii " ")
    if (← writeFmt text) ≠ 0 then pure (-1) else hexBytes rest

/-- The body of the loop of `command_hexdump`, with the offset. -/
def hexdumpBody (name : Bytes) (limit fd : ℕ) (offset : ℕ) : ShellProg (ℕ ⊕ ℤ) :=
  if offset < limit then do
    match ← sys (.read fd (min (limit - offset) 16)) with
    | .error .eintr => return .inl offset
    | .error e => closing fd (shellError L (ascii "hexdump") name e)
    | .ok data =>
      if data.1 = [] then closing fd (pure 0)
      else if (← writeFmt (padLeft 8 48 (printHex offset) ++ ascii "  ")) ≠ 0 then
        closing fd (pure (-1))
      else if (← hexBytes data.1) ≠ 0 then closing fd (pure (-1))
      else if (← writeAll (ascii "\n")) ≠ 0 then closing fd (pure (-1))
      else return .inl (offset + data.1.length)
  else closing fd (pure 0)

/-- `command_hexdump`. -/
def commandHexdump (state : ShellState) (name : Bytes) (limit : ℕ) : ShellProg ℤ :=
  openArg L (ascii "hexdump") state name fun fd =>
    Prog.iterate (hexdumpBody L name limit fd) 0

/-- The arguments of `hexdump`: the name and the limit, `ULLONG_MAX` if there is none. -/
def hexdumpArgs : List Bytes → Option (Bytes × ℕ)
  | [_, name] => some (name, 2 ^ 64 - 1)
  | [_, n, value, name] =>
    if n = ascii "-n" then
      match strtoulBase 10 value with
      | none => if value = [] then some (name, 0) else none
      | some r => if r.rest = [] then some (name, r.value) else none
    else none
  | _ => none

/-! ### `find` -/

/-- The body of the loop over a directory in `command_find_path`. -/
def findBody (visit : Bytes → ShellProg ℤ) (path : Bytes) (directory : ℕ) (_ : Unit) :
    ShellProg (Unit ⊕ ℤ) := do
  match ← sys (.readdir directory) with
  | none =>
    let _ ← sys (.closedir directory)
    return .inr 0
  | some name =>
    if name = ascii "." ∨ name = ascii ".." then return .inl ()
    else
      match entryPath path name with
      | none =>
        let _ ← sys (.closedir directory)
        return .inr (-1)
      | some child =>
        let result ← visit child
        if result ≠ 0 then
          let _ ← sys (.closedir directory)
          return .inr result
        else return .inl ()

/-- `command_find_path`, with the levels that are left below the depth of 32. -/
def commandFindPath (levels : ℕ) (path : Bytes) : ShellProg ℤ := do
  match ← sys (.stat path) with
  | .error e => shellError L (ascii "find") path e
  | .ok st =>
    if (← writeFmt (path ++ slashIf st.isDir ++ ascii "\n")) ≠ 0 then return -1
    if st.isDir = false then return 0
    match levels with
    | 0 => return 0
    | levels + 1 =>
      match ← sys (.opendir path) with
      | .error e => shellError L (ascii "find") path e
      | .ok directory => Prog.iterate (findBody (commandFindPath levels) path directory) ()

/-! ### Commands that change the file system -/

/-- The body of the inner loop of `copy_file`, with the bytes left and `errno`; the result is the
new `errno`, on the left after a failure. -/
def copyWriteBody (input output : ℕ) :
    Bytes × Errno → ShellProg ((Bytes × Errno) ⊕ Except Errno Errno)
  | (rest, errno) =>
    if rest = [] then pure (.inr (.ok errno))
    else do
      match ← sys (.write output rest) with
      | .error .eintr => return .inl (rest, .eintr)
      | .error e => return .inr (.error (← closeErrno output (← closeErrno input e)))
      | .ok 0 => return .inr (.error (← closeErrno output (← closeErrno input errno)))
      | .ok written => return .inl (rest.drop written, errno)

/-- The end of `copy_file`, with the error of the last read if there is one. -/
def copyEnd (input output : ℕ) (got : Except Errno Unit) : ShellProg (Except Errno Unit) := do
  match ← sys (.close input) with
  | .error e => return .error e
  | .ok _ =>
    match ← sys (.close output) with
    | .error e => return .error e
    | .ok _ => return got

/-- The body of the loop of `copy_file`, with `errno`. -/
def copyBody (input output : ℕ) (errno : Errno) : ShellProg (Errno ⊕ Except Errno Unit) := do
  match ← sys (.read input 16384) with
  | .error e => return .inr (← copyEnd input output (.error e))
  | .ok data =>
    if data.1 = [] then return .inr (← copyEnd input output (.ok ()))
    else
      match ← Prog.iterate (copyWriteBody input output) (data.1, errno) with
      | .ok errno => return .inl errno
      | .error e => return .inr (.error e)

/-- `copy_file`; an error is the value of `errno`. -/
def copyFile (errno : Errno) (source destination : Bytes) : ShellProg (Except Errno Unit) := do
  match ← sys (.openFile source .rdonly 0) with
  | .error _ => return .error .einval
  | .ok input =>
    match ← sys (.fstat input) with
    | .error _ =>
      let _ ← sys (.close input)
      return .error .einval
    | .ok st =>
      if st.isReg = false then
        let _ ← sys (.close input)
        return .error .einval
      else
        match ← sys (.openFile destination .truncate (st.mode &&& 0o777)) with
        | .error e => return .error (← closeErrno input e)
        | .ok output => Prog.iterate (copyBody input output) errno

/-- The end of a command that reports the error of its last call. -/
def orError (command name : Bytes) : Except Errno Unit → ShellProg ℤ
  | .ok _ => pure 0
  | .error e => shellError L command name e

/-- `touch`. -/
def touch (state : ShellState) (name : Bytes) : ShellProg ℤ :=
  match resolveArg state name with
  | none => shellError L (ascii "touch") name .enametoolong
  | some first => do
    match ← sys (.openFile first .create 0o644) with
    | .error e => shellError L (ascii "touch") name e
    | .ok fd => orError L (ascii "touch") name (← sys (.close fd))

/-- `mkdir` and `rmdir`, which differ in their call. -/
def makeOrRemove (command : Bytes) (act : Bytes → ShellProg (Except Errno Unit))
    (state : ShellState) (name : Bytes) : ShellProg ℤ :=
  match resolveArg state name with
  | none => shellError L command name .enametoolong
  | some first => do orError L command name (← act first)

/-- `rm`.  The root is never handed to `unlink`; the error is then whatever `errno` was. -/
def remove (errno : Errno) (state : ShellState) (name : Bytes) : ShellProg ℤ :=
  match resolveArg state name with
  | none => shellError L (ascii "rm") name .enametoolong
  | some first =>
    if first = ascii "/" then
      shellError L (ascii "rm") name (if errno = .zero then .eperm else errno)
    else do
      match ← sys (.unlink first) with
      | .ok _ => return 0
      | .error e => shellError L (ascii "rm") name (if e = .zero then .eperm else e)

/-- `cp` and `mv`. -/
def copyOrMove (errno : Errno) (state : ShellState) (command source target : Bytes) :
    ShellProg ℤ :=
  match resolveArg state source, resolveArg state target with
  | some first, some second =>
    if command = ascii "cp" then do
      orError L command source (← copyFile errno first second)
    else do
      orError L command source (← sys (.rename first second))
  | _, _ => shellError L command source .enametoolong

/-- `chmod`.  A mode that is not a number in octal is reported with whatever `errno` is after the
conversion. -/
def changeMode (errno : Errno) (state : ShellState) (mode name : Bytes) : ShellProg ℤ :=
  let report (errno : Errno) :=
    shellError L (ascii "chmod") name (if errno = .zero then .einval else errno)
  let (value, rest, errno) : ℕ × Bytes × Errno := match strtoulBase 8 mode with
    | none => (0, mode, if L.einvalWithoutDigit then .einval else errno)
    | some r => (r.value, r.rest, if r.range then .erange else errno)
  if rest = [] ∧ value ≤ 0o7777 then
    match resolveArg state name with
    | none => report .enametoolong
    | some first => do
      match ← sys (.chmod first value) with
      | .ok _ => return 0
      | .error e => report e
  else report errno

/-! ### The whole shell -/

/-- The text of `stat`. -/
def statText (first : Bytes) (st : StatBuf) : Bytes :=
  let type := if st.isDir then "directory" else if st.isReg then "file" else "other"
  ascii "path: " ++ first ++ ascii "\ntype: " ++ ascii type ++
    ascii "\nmode: " ++ printOctal4 (st.mode &&& 0o7777) ++
    ascii "\nsize: " ++ printInt st.size ++
    ascii "\nmtime: " ++ printInt st.mtime ++ ascii "\n"

/-- `stat`. -/
def commandStat (state : ShellState) (name : Bytes) : ShellProg ℤ :=
  match resolveArg state name with
  | none => shellError L (ascii "stat") name .enametoolong
  | some first => do
    match ← sys (.stat first) with
    | .error e => shellError L (ascii "stat") name e
    | .ok st =>
      if (← writeFmt (statText first st)) = 0 then return 0
      return -1

/-- The end of `ps4_shell_execute`. -/
def invalid (name : Bytes) : ShellProg ℤ := do
  if (← writeFmt (name ++ ascii ": command not found or invalid arguments\n")) ≠ 0 then return -1
  return 127

/-- The commands that read the state and do not write to it: all but `cd`. -/
def command (errno : Errno) (state : ShellState) (argv : List Bytes) : ShellProg ℤ :=
  let name := argv.headD []
  let first := argv.getD 1 []
  let second := argv.getD 2 []
  if name = ascii "pwd" ∧ argv.length = 1 then do
    if (← writeFmt (state.cwd ++ ascii "\n")) = 0 then return 0
    return -1
  else if name = ascii "ls" then commandLs L state argv.tail
  else if name = ascii "cat" ∧ argv.length = 2 then commandCat L state first
  else if name = ascii "head" ∧ (parseLineCount argv).isSome then
    (parseLineCount argv).elim (invalid name) fun a => commandHead L state a.2 a.1
  else if name = ascii "tail" ∧ (parseLineCount argv).isSome then
    (parseLineCount argv).elim (invalid name) fun a => commandTail L state a.2 a.1
  else if name = ascii "mkdir" ∧ argv.length = 2 then
    makeOrRemove L (ascii "mkdir") (fun path => sys (.mkdir path 0o755)) state first
  else if name = ascii "rmdir" ∧ argv.length = 2 then
    makeOrRemove L (ascii "rmdir") (fun path => sys (.rmdir path)) state first
  else if name = ascii "touch" ∧ argv.length = 2 then touch L state first
  else if name = ascii "rm" ∧ argv.length = 2 then remove L errno state first
  else if (name = ascii "cp" ∨ name = ascii "mv") ∧ argv.length = 3 then
    copyOrMove L errno state name first second
  else if name = ascii "chmod" ∧ argv.length = 3 then changeMode L errno state first second
  else if name = ascii "grep" ∧ argv.length = 3 then commandGrep L state first second
  else if name = ascii "hexdump" then
    (hexdumpArgs argv).elim (invalid name) fun a => commandHexdump L state a.1 a.2
  else if name = ascii "find" ∧ argv.length ≤ 2 then
    let target := if argv.length = 2 then first else ascii "."
    match resolveArg state target with
    | none => shellError L (ascii "find") target .enametoolong
    | some path => commandFindPath L 32 path
  else if name = ascii "stat" ∧ argv.length = 2 then commandStat L state first
  else invalid name

/-- A branch of `command` for other names. -/
theorem if_other_name {α : Type 1} {names p : Prop} [Decidable (names ∧ p)] {x y : α}
    (h : ¬ names) : (if names ∧ p then x else y) = y :=
  if_neg fun hc => h hc.1

/-- `cd`, to the directory named or to the home directory. -/
def changeDirectory (state : ShellState) (name : Bytes) : ShellProg (ℤ × ShellState) :=
  match resolveArg state name with
  | none => do return (← shellError L (ascii "cd") name .enametoolong, state)
  | some first => do
    match ← sys (.stat first) with
    | .error e => return (← shellError L (ascii "cd") name e, state)
    | .ok st =>
      if st.isDir then return (0, { state with cwd := first.take (ps4ShellPathMax - 1) })
      else return (← shellError L (ascii "cd") name .enotdir, state)

/-- `ps4_shell_execute`, with the value of `errno` from before.  The name of a command is compared
with one text after the other, so it does not matter that `cd` is looked at first. -/
def ps4ShellExecute (errno : Errno) (state : ShellState) (line : Bytes) :
    ShellProg (ℤ × ShellState) :=
  match splitCommandErrno line with
  | .error e => do return (← shellError L (ascii "shell") (cstr line) e, state)
  | .ok [] => return (0, state)
  | .ok (name :: args) =>
    if name = ascii "cd" ∧ args.length ≤ 1 then changeDirectory L state (args.headD state.home)
    else do return (← command L errno state (name :: args), state)

end ShellProg

end Ps4Dropbear
