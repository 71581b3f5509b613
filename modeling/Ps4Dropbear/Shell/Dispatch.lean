import Mathlib.Data.List.DropRight
import Mathlib.Data.List.TakeWhile
import Ps4Dropbear.Shell.Execute

/-!
# The two ways to run a command line

A command line from an `exec` request goes to `ps4_format_command`, which knows some commands by
their raw text and hands everything else to `ps4_shell_execute` with a writer that collects at most
4095 bytes.  In the interactive shell a line whose first word is a command of `ps4_shell_handles`
goes to `ps4_shell_execute` directly, with the terminal as its writer, and only the rest goes to
`ps4_format_command`.

* `ps4CaptureShellOutput` : the writer that collects.
* `formatCommand` : `ps4_format_command` on a system; `ps4FormatCommand` is the same function with
  the system left open, and `eval_formatCommand` says so.
* `interactive` : the branch of `ps4_shell_thread` for a finished line.

**Main result** (`interactive_agrees`): the two ways give the same status, the same output, the same
state and the same effects on the system, as long as the output is not too long for the first.
-/

namespace Ps4Dropbear

/-- Programs on the system, without a writer. -/
abbrev SystemProg (α : Type) : Type 1 := Prog ShellCall ShellCall.Answer α

/-- What a command line leaves behind, besides its effects on the system: the status returned, the
output before the translation of its newlines, and the state of the shell. -/
structure CommandResult where
  status : ℤ
  output : Bytes
  shell : ShellState
  deriving DecidableEq

/-- `ps4_capture_shell_output`, with a buffer of this size: whether it took the data, and the
output so far. -/
def ps4CaptureShellOutput (size : ℕ) (output data : Bytes) : Bool × Bytes :=
  let available := size - output.length
  if data.length ≥ available then
    (false, if available > 1 then output ++ data.take (available - 1) else output)
  else (true, output ++ data)

/-- A command line run by `ps4_shell_execute` with a writer. -/
def executeWith (put : Bytes → Bytes → Bool × Bytes) (L : Libc) (errno : Errno)
    (state : ShellState) (line : Bytes) : SystemProg CommandResult :=
  (WriterProg.withWriter put (ShellProg.ps4ShellExecute L errno state line) []).bind fun r =>
    .ret ⟨r.1.1, r.2, r.1.2⟩

/-- A command that only prints, through `snprintf`. -/
def printed (state : ShellState) (size : ℕ) (status : ℤ) (text : Bytes) :
    SystemProg CommandResult :=
  pure ⟨status, text.take (size - 1), state⟩

/-- `ps4_format_command`. -/
def formatCommand (L : Libc) (errno : Errno) (state : ShellState) (line : Bytes) (size : ℕ) :
    SystemProg CommandResult :=
  let cmd := skipBlanks (cstr line)
  if cmd = ascii "id" then
    printed state size 0 (ascii "uid=0(root) gid=0(root) groups=0(root)\n")
  else if cmd = ascii "whoami" then
    printed state size 0 (ascii "root\n")
  else if cmd = ascii "uname -a" ∨ cmd = ascii "uname" then do
    let version ← Prog.perform ShellCall.swVersion
    if cmd = ascii "uname -a" then
      printed state size 0 (ascii "OrbisOS " ++ version ++ ascii " x86_64\n")
    else printed state size 0 (ascii "OrbisOS\n")
  else if cmd.take 4 = ascii "echo" ∧ (cmd.drop 4).head?.all (· = 32) then
    printed state size 0 ((cmd.drop 4).dropWhile (· = 32) ++ ascii "\n")
  else if cmd = ascii "true" then
    printed state size 0 []
  else if cmd = ascii "false" then
    printed state size 1 []
  else if cmd = ascii "help" then
    printed state size 0 helpText
  else if cmd = [] then
    printed state size 0 []
  else
    executeWith (ps4CaptureShellOutput size) L errno state cmd

/-- The value of `errno` after `ps4_shell_handles`, which splits the line and drops the result. -/
def errnoAfterHandles (errno : Errno) (line : Bytes) : Errno :=
  match splitCommandErrno line with
  | .error e => e
  | .ok _ => errno

/-- The branch of `ps4_shell_thread` for a finished line, with the size of its `output`.  The
terminal takes all that is written. -/
def interactive (L : Libc) (errno : Errno) (state : ShellState) (line : Bytes) :
    SystemProg CommandResult :=
  if ps4ShellHandles line then executeWith WriterProg.keepAll L errno state line
  else formatCommand L (errnoAfterHandles errno line) state line 4096

/-! ### Command lines -/

theorem cstr_skipBlanks (line : Bytes) :
    cstr (skipBlanks (cstr line)) = skipBlanks (cstr line) := by
  refine cstr_eq_self fun hzero => not_mem_cstr line ?_
  exact (List.dropWhile_sublist _).subset hzero

/-- An argument takes at least one byte of the line. -/
theorem length_scanArg {quote : UInt8} {remaining : ℕ} {line : Bytes} {r : Bytes × ℕ × Bytes}
    (h : scanArg quote remaining line = some r) : r.2.2.length ≤ line.length - 1 := by
  fun_induction scanArg quote remaining line generalizing r with
  | case1 => cases h
  | case2 => cases h; simp
  | case3 => cases h; simp
  | case4 => cases h
  | case5 => cases h
  | case6 quote remaining ch hblank hback ch' rest' hroom ih =>
    obtain ⟨r', hr', rfl⟩ := Option.map_eq_some_iff.1 h
    have hlen := ih hr'
    simp only [List.length_cons]
    omega
  | case7 quote remaining ch rest hblank hback hopen ih =>
    have hlen := ih h
    simp only [List.length_cons]
    omega
  | case8 quote remaining ch rest hblank hback hopen hclose ih =>
    have hlen := ih h
    simp only [List.length_cons]
    omega
  | case9 => cases h
  | case10 quote remaining ch rest hblank hback hopen hclose hroom ih =>
    obtain ⟨r', hr', rfl⟩ := Option.map_eq_some_iff.1 h
    have hlen := ih hr'
    simp only [List.length_cons]
    omega

/-- More rounds than bytes make no difference. -/
theorem splitLoop_succ {fuel : ℕ} {argv : List Bytes} {remaining : ℕ} {line : Bytes}
    (h : line.length ≤ fuel) :
    splitLoop (fuel + 1) argv remaining line = splitLoop fuel argv remaining line := by
  induction fuel generalizing argv remaining line with
  | zero =>
    have hnil : line = [] := List.eq_nil_of_length_eq_zero (Nat.le_zero.1 h)
    subst hnil
    rfl
  | succ fuel ih =>
    rw [splitLoop]
    conv_rhs => rw [splitLoop]
    cases hline : line.dropWhile isBlank with
    | nil => rfl
    | cons ch rest =>
      have hrest : rest.length + 1 ≤ line.length := by
        have hsuffix := List.dropWhile_suffix (l := line) isBlank
        rw [hline] at hsuffix
        exact hsuffix.length_le
      dsimp only
      by_cases hfull : argv.length = ps4ShellMaxArgs ∨ remaining < 2
      · rw [if_pos hfull, if_pos hfull]
      rw [if_neg hfull, if_neg hfull]
      cases hscan : scanArg 0 remaining (ch :: rest) with
      | none => rfl
      | some r =>
        obtain ⟨arg, left, line'⟩ := r
        have hlen : line'.length ≤ rest.length := length_scanArg hscan
        exact ih (Nat.le_of_succ_le_succ ((Nat.succ_le_succ hlen).trans (hrest.trans h)))

theorem splitLoop_add {fuel : ℕ} (k : ℕ) {argv : List Bytes} {remaining : ℕ} {line : Bytes}
    (h : line.length ≤ fuel) :
    splitLoop (fuel + k) argv remaining line = splitLoop fuel argv remaining line := by
  induction k with
  | zero => rfl
  | succ k ih => rw [← Nat.add_assoc, splitLoop_succ (by omega), ih]

/-- Leading blanks make no difference to `split_command`. -/
theorem splitCommand_skipBlanks (line : Bytes) :
    splitCommand (skipBlanks (cstr line)) = splitCommand line := by
  unfold splitCommand
  rw [cstr_skipBlanks]
  generalize cstr line = text
  cases text with
  | nil => rfl
  | cons ch rest =>
    have hsuffix := (List.dropWhile_suffix (l := ch :: rest) isBlank).length_le
    obtain ⟨k, hk⟩ := Nat.exists_eq_add_of_le hsuffix
    -- one round of the loop skips the blanks, whether they are still there or not
    have hround : splitLoop (ch :: rest).length [] argStorage (skipBlanks (ch :: rest)) =
        splitLoop (ch :: rest).length [] argStorage (ch :: rest) := by
      rw [List.length_cons, splitLoop, splitLoop, skipBlanks, List.dropWhile_idempotent]
    rw [← hround, hk]
    exact (splitLoop_add k le_rfl).symm

/-- The arguments found so far stay the first ones. -/
theorem prefix_splitLoop {fuel : ℕ} {argv result : List Bytes} {remaining : ℕ} {line : Bytes}
    (h : splitLoop fuel argv remaining line = some result) : argv <+: result := by
  fun_induction splitLoop fuel argv remaining line with
  | case1 argv => cases h; exact List.prefix_rfl
  | case2 => cases h; exact List.prefix_rfl
  | case3 => cases h
  | case4 => cases h
  | case5 fuel argv remaining line ch rest hline hfull arg left line' hscan ih =>
    exact (List.prefix_append _ _).trans (ih h)

/-- A blank outside of quotes ends an argument. -/
theorem scanArg_space (remaining : ℕ) (rest : Bytes) :
    scanArg 0 remaining (32 :: rest) = some ([], remaining, rest) := by
  unfold scanArg
  rw [if_pos ⟨rfl, by decide⟩]

/-- The raw comparison with `echo` finds the first word. -/
theorem head_splitCommand_echo {cmd : Bytes} (hcmd : cstr cmd = cmd)
    (h : cmd.take 4 = ascii "echo" ∧ (cmd.drop 4).head?.all (· = 32)) {argv : List Bytes}
    (hargv : splitCommand cmd = some argv) : argv.head? = some (ascii "echo") := by
  obtain ⟨hword, hnext⟩ := h
  have hsplit : cmd = ascii "echo" ++ cmd.drop 4 := by
    rw [← hword, List.take_append_drop]
  generalize cmd.drop 4 = rest at hsplit hnext
  subst hsplit
  -- the fifth byte, if there is one, is a blank and ends the word
  have hscan : ∃ line', scanArg 0 argStorage (ascii "echo" ++ rest) =
      some (ascii "echo", argStorage - 4, line') := by
    cases rest with
    | nil => exact ⟨[], by decide +kernel⟩
    | cons ch rest =>
      have hch : ch = 32 := by simpa using hnext
      subst hch
      exact ⟨rest, by simp [ascii, scanArg, scanArg_space, isBlank, argStorage]⟩
  obtain ⟨line', hscan⟩ := hscan
  rw [splitCommand, hcmd] at hargv
  have hlen : (ascii "echo" ++ rest).length = (3 + rest.length) + 1 := by
    simp [ascii]
    omega
  rw [hlen, splitLoop] at hargv
  have hround : splitLoop (3 + rest.length) [ascii "echo"] (argStorage - 4 - 1) line' =
      some argv := by
    have hdrop : (ascii "echo" ++ rest).dropWhile isBlank = 101 :: (ascii "cho" ++ rest) := rfl
    have hroom : ¬ (([] : List Bytes).length = ps4ShellMaxArgs ∨ argStorage < 2) := by decide
    have hword : 101 :: (ascii "cho" ++ rest) = ascii "echo" ++ rest := rfl
    rw [hdrop] at hargv
    dsimp only at hargv
    rw [if_neg hroom, hword, hscan] at hargv
    exact hargv
  obtain ⟨more, rfl⟩ := prefix_splitLoop hround
  rfl

/-- A line that `ps4_shell_handles` knows is none of the texts that `ps4_format_command` knows. -/
theorem not_raw_of_handles {line : Bytes} (h : ps4ShellHandles line) :
    skipBlanks (cstr line) ∉ [ascii "id", ascii "whoami", ascii "uname -a", ascii "uname",
      ascii "true", ascii "false", ascii "help", []] ∧
    ¬ ((skipBlanks (cstr line)).take 4 = ascii "echo" ∧
      ((skipBlanks (cstr line)).drop 4).head?.all (· = 32)) := by
  rw [ps4ShellHandles, ← splitCommand_skipBlanks] at h
  constructor
  · -- each of these texts splits into words that are no command
    intro hmem
    have hraw : ∀ text ∈ [ascii "id", ascii "whoami", ascii "uname -a", ascii "uname",
        ascii "true", ascii "false", ascii "help", []], ps4ShellHandles text = false := by
      decide +kernel
    exact absurd h (by simpa [ps4ShellHandles] using hraw _ hmem)
  · intro hecho
    cases hargv : splitCommand (skipBlanks (cstr line)) with
    | none => simp [hargv] at h
    | some argv =>
      have hhead := head_splitCommand_echo (cstr_skipBlanks line) hecho hargv
      obtain ⟨args, rfl⟩ := List.head?_eq_some_iff.1 hhead
      rw [hargv] at h
      have hno : ps4ShellCommands.contains (ascii "echo") = false := by decide +kernel
      exact absurd (hno.symm.trans h) Bool.false_ne_true

/-! ### Both ways -/

theorem exists_argv_of_handles {line : Bytes} (h : ps4ShellHandles line) :
    ∃ argv, splitCommandErrno line = .ok argv := by
  cases hsplit : splitCommandErrno line with
  | ok argv => exact ⟨argv, rfl⟩
  | error e =>
    have hnone := toOption_splitCommandErrno line
    rw [hsplit, toOption_error] at hnone
    simp [ps4ShellHandles, ← hnone] at h

/-- All that `ps4_shell_execute` reads of a line that splits is its arguments. -/
theorem ps4ShellExecute_congr {L : Libc} {errno : Errno} {state : ShellState} {line line' : Bytes}
    {argv : List Bytes} (h : splitCommandErrno line = .ok argv)
    (h' : splitCommandErrno line' = .ok argv) :
    ShellProg.ps4ShellExecute L errno state line' =
      ShellProg.ps4ShellExecute L errno state line := by
  unfold ShellProg.ps4ShellExecute
  rw [h, h']
  cases argv <;> rfl

/-- A line that is handled goes to `ps4_shell_execute` in both ways. -/
theorem formatCommand_of_handles {L : Libc} {errno : Errno} {state : ShellState} {line : Bytes}
    {size : ℕ} (h : ps4ShellHandles line) :
    formatCommand L errno state line size =
      executeWith (ps4CaptureShellOutput size) L errno state line := by
  obtain ⟨hraw, hecho⟩ := not_raw_of_handles h
  simp only [List.mem_cons, List.not_mem_nil, or_false, not_or] at hraw
  obtain ⟨hid, hwho, hunamea, huname, htrue, hfalse, hhelp, hempty⟩ := hraw
  unfold formatCommand
  dsimp only
  rw [if_neg hid, if_neg hwho, if_neg (not_or.2 ⟨hunamea, huname⟩), if_neg hecho, if_neg htrue,
    if_neg hfalse, if_neg hhelp, if_neg hempty]
  obtain ⟨argv, hargv⟩ := exists_argv_of_handles h
  unfold executeWith
  rw [ps4ShellExecute_congr hargv]
  rw [← toOption_eq_some, toOption_splitCommandErrno] at hargv ⊢
  rw [splitCommand_skipBlanks, hargv]

/-- A line that does not split leaves no use for `errno`. -/
theorem formatCommand_errnoAfterHandles (L : Libc) (errno : Errno) (state : ShellState)
    (line : Bytes) (size : ℕ) :
    formatCommand L (errnoAfterHandles errno line) state line size =
      formatCommand L errno state line size := by
  unfold errnoAfterHandles
  split
  · next e he =>
    have hnone : (splitCommandErrno (skipBlanks (cstr line))).toOption = none := by
      rw [toOption_splitCommandErrno, splitCommand_skipBlanks, ← toOption_splitCommandErrno, he,
        toOption_error]
    have hexec : executeWith (ps4CaptureShellOutput size) L e state (skipBlanks (cstr line)) =
        executeWith (ps4CaptureShellOutput size) L errno state (skipBlanks (cstr line)) := by
      unfold executeWith ShellProg.ps4ShellExecute
      cases hsplit : splitCommandErrno (skipBlanks (cstr line)) with
      | error e' => rfl
      | ok argv =>
        rw [hsplit] at hnone
        cases hnone
    unfold formatCommand
    dsimp only
    rw [hexec]
  · rfl

/-- A run of `ps4_shell_execute` with a writer, taken apart. -/
theorem eval_executeWith {put : Bytes → Bytes → Bool × Bytes} {L : Libc} {errno : Errno}
    {state : ShellState} {line : Bytes} {W : Type}
    {H : (c : ShellCall) → W → c.Answer → W → Prop} {w w' : W} {r : CommandResult} :
    Prog.Eval H (executeWith put L errno state line) w r w' ↔
      Prog.Eval (WriterProg.Writes put H) (ShellProg.ps4ShellExecute L errno state line) (w, [])
        (r.status, r.shell) (w', r.output) := by
  rw [executeWith, Prog.eval_bind, ← WriterProg.eval_withWriter]
  constructor
  · rintro ⟨⟨⟨status, shell⟩, out⟩, w₁, hrun, hret⟩
    obtain ⟨rfl, rfl⟩ := Prog.eval_ret.1 hret
    exact hrun
  · intro hrun
    exact ⟨_, w', hrun, .ret _ _⟩

theorem length_ps4CaptureShellOutput {size : ℕ} {output : Bytes} (data : Bytes)
    (h : output.length ≤ size - 1) :
    (ps4CaptureShellOutput size output data).2.length ≤ size - 1 := by
  unfold ps4CaptureShellOutput
  dsimp only
  split
  · split
    · simp only [List.length_append, List.length_take]
      omega
    · exact h
  · simp only [List.length_append]
    omega

/-- Every run of the program from here has this result. -/
def Formats {W : Type} (H : (c : ShellCall) → W → c.Answer → W → Prop) (w : W)
    (p : SystemProg CommandResult) (x : FormatResult) : Prop :=
  ∀ r w', Prog.Eval H p w r w' → r.status = x.status ∧ r.output = x.output ∧ r.shell = x.shell

namespace Formats

variable {W : Type} {H : (c : ShellCall) → W → c.Answer → W → Prop} {w : W} {state : ShellState}
variable {size : ℕ}

theorem ite {c : Prop} [Decidable c] {p q : SystemProg CommandResult} {x y : FormatResult}
    (hp : c → Formats H w p x) (hq : ¬ c → Formats H w q y) :
    Formats H w (if c then p else q) (if c then x else y) := by
  split
  · next hc => exact hp hc
  · next hc => exact hq hc

theorem printed (status : ℤ) (text : Bytes) :
    Formats H w (printed state size status text) (formatted state size status text) := by
  intro r w' h
  obtain ⟨rfl, -⟩ := Prog.eval_ret.1 h
  exact ⟨rfl, rfl, rfl⟩

end Formats

/-- `ps4FormatCommand` is this function with the system left open: on a kernel whose version and
whose `ps4_shell_execute` are those of the system, it gives the same result. -/
theorem eval_formatCommand {L : Libc} {errno : Errno} {state : ShellState} {line : Bytes}
    {size : ℕ} {W : Type} {H : (c : ShellCall) → W → c.Answer → W → Prop} {w w' : W}
    {r : CommandResult} {K : Kernel} (hversion : ∀ v v', H .swVersion w v v' → v = K.version)
    (hexec : ∀ r v', Prog.Eval H
      (executeWith (ps4CaptureShellOutput size) L errno state (skipBlanks (cstr line))) w r v' →
      K.shellExecute state (skipBlanks (cstr line)) (some (size - 1)) =
        ⟨r.status, [r.output], r.shell⟩)
    (hrun : Prog.Eval H (formatCommand L errno state line size) w r w') :
    r.status = (ps4FormatCommand K state (cstr line) size).status ∧
      r.output = (ps4FormatCommand K state (cstr line) size).output ∧
      r.shell = (ps4FormatCommand K state (cstr line) size).shell := by
  suffices h : Formats H w (formatCommand L errno state line size)
      (ps4FormatCommand K state (cstr line) size) from h r w' hrun
  clear hrun
  unfold formatCommand ps4FormatCommand
  dsimp only
  generalize skipBlanks (cstr line) = cmd at *
  -- the two texts that begin with `uname` are one branch of the program
  have huname (x y z : FormatResult) :
      (if cmd = ascii "uname -a" then x else if cmd = ascii "uname" then y else z) =
        if cmd = ascii "uname -a" ∨ cmd = ascii "uname" then
          if cmd = ascii "uname -a" then x else y
        else z := by
    by_cases ha : cmd = ascii "uname -a"
    · rw [if_pos ha, if_pos (.inl ha), if_pos ha]
    · simp only [ha, if_false, false_or]
  rw [huname]
  refine .ite (fun _ => .printed _ _) fun _ => .ite (fun _ => .printed _ _) fun _ => .ite ?_ ?_
  · rintro - r w' hrun
    obtain ⟨version, w₁, hv, hrun⟩ := Prog.eval_perform_bind.1 hrun
    rw [hversion version w₁ hv] at hrun
    exact Formats.ite (fun _ => .printed _ _) (fun _ => .printed _ _) r w' hrun
  refine fun _ => .ite (fun _ => .printed _ _) fun _ => .ite (fun _ => .printed _ _) fun _ =>
    .ite (fun _ => .printed _ _) fun _ => .ite (fun _ => .printed _ _) fun _ =>
    .ite (fun _ => .printed _ _) fun _ => ?_
  intro r w' hrun
  -- what was collected is not cut off again
  have hlen : r.output.length ≤ size - 1 :=
    WriterProg.eval_writes_invariant (I := fun out => List.length out ≤ size - 1)
      (fun out bs => length_ps4CaptureShellOutput bs) (eval_executeWith.1 hrun) (Nat.zero_le _)
  rw [hexec r w' hrun]
  refine ⟨rfl, ?_, rfl⟩
  simp [List.take_of_length_le hlen]

/-- The collecting writer takes what fits. -/
theorem ps4CaptureShellOutput_of_fits (output data : Bytes) (h : (output ++ data).length ≤ 4095) :
    ps4CaptureShellOutput 4096 output data = (true, output ++ data) := by
  rw [List.length_append] at h
  rw [ps4CaptureShellOutput, if_neg (by omega)]

/-- **The two ways agree.**  Take any system, that is any way to answer the calls, and any command
line.  A run of the interactive branch with at most 4095 bytes of output is a run of the `exec`
branch: it returns the same status, output and state, and leaves the same system.  And a run of the
`exec` branch is a run of the interactive branch, unless the command can write more than 4095 bytes
there. -/
theorem interactive_agrees (L : Libc) {W : Type} (H : (c : ShellCall) → W → c.Answer → W → Prop)
    (errno : Errno) (state : ShellState) (line : Bytes) (w w' : W) (r : CommandResult) :
    (Prog.Eval H (interactive L errno state line) w r w' → r.output.length ≤ 4095 →
      Prog.Eval H (formatCommand L errno state line 4096) w r w') ∧
    (Prog.Eval H (formatCommand L errno state line 4096) w r w' →
      Prog.Eval H (interactive L errno state line) w r w' ∨
        ps4ShellHandles line ∧
          WriterProg.Exceeds H 4095 (ShellProg.ps4ShellExecute L errno state line) w []) := by
  unfold interactive
  by_cases h : ps4ShellHandles line
  · rw [if_pos h, formatCommand_of_handles h, eval_executeWith, eval_executeWith]
    constructor
    · intro hrun hlen
      exact WriterProg.eval_of_keepAll ps4CaptureShellOutput_of_fits hrun hlen
    · intro hrun
      rcases WriterProg.eval_keepAll_or_exceeds ps4CaptureShellOutput_of_fits hrun with hrun | hmore
      · exact .inl hrun
      · exact .inr ⟨h, hmore⟩
  · rw [if_neg h, formatCommand_errnoAfterHandles]
    exact ⟨fun hrun _ => hrun, .inl⟩

/-- A system on which nothing exists and no memory is left. -/
def emptySystem : (c : ShellCall) → Unit → c.Answer × Unit
  | .stat _, _ | .fstat _, _ => (.error (.other 2), ())
  | .openFile _ _ _, _ | .opendir _, _ => (.error (.other 2), ())
  | .read _ _, _ => (.error (.other 9), ())
  | .write _ _, _ => (.error (.other 9), ())
  | .close _, _ | .mkdir _ _, _ | .rmdir _, _ | .unlink _, _ | .rename _ _, _ | .chmod _ _, _ =>
    (.error (.other 2), ())
  | .readdir _, _ => (none, ())
  | .closedir _, _ => ((), ())
  | .alloc _, _ => (false, ())
  | .swVersion, _ => (ascii "11.00", ())

/-- A line that the interactive shell handles although its raw text is no command: a quoted `cat`
of a file that does not exist. -/
theorem interactive_agrees_quoted :
    let H (c : ShellCall) (w : Unit) (a : c.Answer) (w' : Unit) := emptySystem c w = (a, w')
    let L : Libc := ⟨fun _ => ascii "No such file or directory", true⟩
    let state := ps4ShellInit (ascii "/data")
    let r : CommandResult := ⟨1, ascii "cat: x: No such file or directory\n", state⟩
    ps4ShellHandles (ascii "  \"cat\" x") ∧
      Prog.Eval H (interactive L .zero state (ascii "  \"cat\" x")) () r () ∧
      Prog.Eval H (formatCommand L .zero state (ascii "  \"cat\" x") 4096) () r () := by
  intro H L state r
  have hrun : Prog.Eval H (interactive L .zero state (ascii "  \"cat\" x")) () r () := by
    refine Prog.eval_of_run (h := emptySystem) (n := 2) (fun c w => rfl) ?_
    decide +kernel
  refine ⟨by decide +kernel, hrun, ?_⟩
  exact (interactive_agrees L H .zero state (ascii "  \"cat\" x") () () r).1 hrun (by decide +kernel)

end Ps4Dropbear
