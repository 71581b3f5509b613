import Ps4Dropbear.Channel.Chansession
import Ps4Dropbear.Shell.Dispatch
import Ps4Dropbear.Shell.Refusal

/-!
# Captured output

`ps4_builtin_command` collects the output of a command in a buffer of 4096 bytes.  There are two
ways into it: `ps4_shell_execute` writes through `ps4_capture_shell_output`, which refuses what does
not fit, and the commands that `ps4_format_command` knows are printed by `snprintf`, whose length is
cut down to what the buffer holds.

* `NeverTruncated` : no output of the command line is lost without a failed request.
* `LongEcho` : the line is an `echo` of at least 4095 bytes.

**Main result** (`neverTruncated_iff`): the first fails exactly for the second.  `snprintf` is told
nothing, so a long `echo` loses its end and succeeds.
-/

namespace Ps4Dropbear

/-- `sceKernelGetSystemSwVersion` fills a field of 28 bytes with a C string. -/
def ShortVersion {W : Type} (H : (c : ShellCall) → W → c.Answer → W → Prop) : Prop :=
  ∀ w version w', H .swVersion w version w' → version.length < 28

/-- The kernel answers as this system does in this world, as far as the command line asks. -/
structure Kernel.Agrees (K : Kernel) {W : Type} (H : (c : ShellCall) → W → c.Answer → W → Prop)
    (w : W) (L : Libc) (errno : Errno) (state : ShellState) (line : Bytes) : Prop where
  version : ∀ v w', H .swVersion w v w' → v = K.version
  execute : ∀ r w', Prog.Eval H
    (executeWith (ps4CaptureShellOutput 4096) L errno state (skipBlanks (cstr line))) w r w' →
      K.shellExecute state (skipBlanks (cstr line)) (some 4095) = ⟨r.status, [r.output], r.shell⟩

/-- No output is lost without a failure.  On every system, and for every run of the command line
with the buffer of the server: if its status is not negative, it is also a run with every larger
buffer; and if some larger buffer would always receive more than 4095 bytes, the request for the
command fails. -/
def NeverTruncated (L : Libc) (errno : Errno) (state : ShellState) (line : Bytes) : Prop :=
  ∀ (W : Type) (H : (c : ShellCall) → W → c.Answer → W → Prop), ShortVersion H →
    ∀ (w w' : W) (r : CommandResult),
      Prog.Eval H (formatCommand L errno state line 4096) w r w' →
      (0 ≤ r.status → ∀ size ≥ 4096, Prog.Eval H (formatCommand L errno state line size) w r w') ∧
      ((∃ size ≥ 4096, ∀ r' w'', Prog.Eval H (formatCommand L errno state line size) w r' w'' →
          4095 < r'.output.length) →
        ∀ (env : LaunchEnv) (cs : ChanSess), cs.shell = state → cs.cmdline = cstr line →
          env.kernel.Agrees H w L errno state line → (ps4BuiltinCommand env cs).1 = false)

/-- The text that `echo` prints, if the command line is an `echo`. -/
def echoText (line : Bytes) : Option Bytes :=
  let cmd := skipBlanks (cstr line)
  if cmd.take 4 = ascii "echo" ∧ (cmd.drop 4).head?.all (· = 32) then
    some ((cmd.drop 4).dropWhile (· = 32))
  else none

/-- The line is an `echo` of at least 4095 bytes. -/
def LongEcho (line : Bytes) : Prop := ∃ text, echoText line = some text ∧ 4095 ≤ text.length

/-! ### The branches -/

/-- What `ps4_format_command` does with a line does not depend on the size of the buffer: it prints
a text, it prints one with the version in it, or it executes the line. -/
theorem formatCommand_cases (line : Bytes) :
    (∃ status text, 0 ≤ status ∧ (text.length ≤ 4095 ∨ echoText line = some text.dropLast) ∧
      ∀ L errno state size,
        formatCommand L errno state line size = printed state size status text) ∨
    (∃ text : Bytes → Bytes, (∀ version, version.length < 28 → (text version).length ≤ 4095) ∧
      ∀ L errno state size, formatCommand L errno state line size =
        (Prog.perform ShellCall.swVersion).bind fun version =>
          printed state size 0 (text version)) ∨
    ∀ L errno state size, formatCommand L errno state line size =
      executeWith (ps4CaptureShellOutput size) L errno state (skipBlanks (cstr line)) := by
  unfold formatCommand echoText
  generalize skipBlanks (cstr line) = cmd
  dsimp only
  by_cases hid : cmd = ascii "id"
  · exact .inl ⟨0, _, le_rfl, .inl (by decide), fun _ _ _ _ => if_pos hid⟩
  simp only [if_neg hid]
  by_cases hwho : cmd = ascii "whoami"
  · exact .inl ⟨0, _, le_rfl, .inl (by decide), fun _ _ _ _ => if_pos hwho⟩
  simp only [if_neg hwho]
  by_cases huname : cmd = ascii "uname -a" ∨ cmd = ascii "uname"
  · refine .inr (.inl ⟨fun version => if cmd = ascii "uname -a" then
      ascii "OrbisOS " ++ version ++ ascii " x86_64\n" else ascii "OrbisOS\n", ?_, ?_⟩)
    · intro version hversion
      dsimp only
      split
      · simp [ascii]
        omega
      · decide
    · intro L errno state size
      rw [if_pos huname]
      refine congrArg _ (funext fun version => ?_)
      split <;> rfl
  simp only [if_neg huname]
  by_cases hecho : cmd.take 4 = ascii "echo" ∧ (cmd.drop 4).head?.all (· = 32)
  · refine .inl ⟨0, _, le_rfl, .inr ?_, fun _ _ _ _ => if_pos hecho⟩
    rw [if_pos hecho]
    exact congrArg some List.dropLast_concat.symm
  simp only [if_neg hecho]
  by_cases htrue : cmd = ascii "true"
  · exact .inl ⟨0, _, le_rfl, .inl (by decide), fun _ _ _ _ => if_pos htrue⟩
  simp only [if_neg htrue]
  by_cases hfalse : cmd = ascii "false"
  · exact .inl ⟨1, _, by decide, .inl (by decide), fun _ _ _ _ => if_pos hfalse⟩
  simp only [if_neg hfalse]
  by_cases hhelp : cmd = ascii "help"
  · exact .inl ⟨0, _, le_rfl, .inl (by decide +kernel), fun _ _ _ _ => if_pos hhelp⟩
  simp only [if_neg hhelp]
  by_cases hempty : cmd = []
  · exact .inl ⟨0, _, le_rfl, .inl (by decide), fun _ _ _ _ => if_pos hempty⟩
  simp only [if_neg hempty]
  exact .inr (.inr fun _ _ _ _ => trivial)

variable {L : Libc} {errno : Errno} {state : ShellState} {line : Bytes} {W : Type}
variable {H : (c : ShellCall) → W → c.Answer → W → Prop} {w w' : W} {r : CommandResult}

theorem eval_printed {size : ℕ} {status : ℤ} {text : Bytes} :
    Prog.Eval H (printed state size status text) w r w' ↔
      r = ⟨status, text.take (size - 1), state⟩ ∧ w' = w := Prog.eval_ret

/-- The collecting writer says that it took something only when it did. -/
theorem ps4CaptureShellOutput_of_true {size : ℕ} (out bs : Bytes)
    (h : (ps4CaptureShellOutput size out bs).1 = true) :
    ps4CaptureShellOutput size out bs = (true, out ++ bs) := by
  unfold ps4CaptureShellOutput at h ⊢
  dsimp only at h ⊢
  split at h
  · cases h
  · next hfits => rw [if_neg hfits]

/-- What is collected fits into the buffer. -/
theorem length_formatCommand (h : Prog.Eval H (formatCommand L errno state line 4096) w r w') :
    r.output.length ≤ 4095 := by
  rcases formatCommand_cases line with
    ⟨status, text, -, -, heq⟩ | ⟨text, -, heq⟩ | heq
  · rw [heq, eval_printed] at h
    rw [h.1]
    exact List.length_take_le _ _
  · rw [heq, Prog.eval_perform_bind] at h
    obtain ⟨version, w₁, -, h⟩ := h
    rw [(eval_printed.1 h).1]
    exact List.length_take_le _ _
  · rw [heq, eval_executeWith] at h
    exact WriterProg.eval_writes_invariant (I := fun out => List.length out ≤ 4096 - 1)
      (fun out bs => length_ps4CaptureShellOutput bs) h (Nat.zero_le _)

/-- A larger buffer makes no difference to a text that fits. -/
theorem eval_printed_of_fits {status : ℤ} {text : Bytes} (htext : text.length ≤ 4095)
    (h : Prog.Eval H (printed state 4096 status text) w r w') {size : ℕ} (hsize : 4096 ≤ size) :
    Prog.Eval H (printed state size status text) w r w' := by
  rw [eval_printed] at h ⊢
  rwa [List.take_of_length_le (htext.trans (Nat.le_sub_one_of_lt hsize)),
    ← List.take_of_length_le (i := 4096 - 1) htext]

/-- Without a failure a larger buffer makes no difference, except to a long `echo`. -/
theorem formatCommand_complete (hversion : ShortVersion H) (hecho : ¬ LongEcho line)
    (h : Prog.Eval H (formatCommand L errno state line 4096) w r w') (hstatus : 0 ≤ r.status)
    {size : ℕ} (hsize : 4096 ≤ size) :
    Prog.Eval H (formatCommand L errno state line size) w r w' := by
  rcases formatCommand_cases line with ⟨status, text, -, hfits, heq⟩ | ⟨text, hfits, heq⟩ | heq
  · rw [heq] at h ⊢
    refine eval_printed_of_fits ?_ h hsize
    rcases hfits with hfits | htext
    · exact hfits
    · have hshort : text.dropLast.length < 4095 := not_le.1 fun hlong => hecho ⟨_, htext, hlong⟩
      rw [List.length_dropLast] at hshort
      omega
  · rw [heq, Prog.eval_perform_bind] at h ⊢
    obtain ⟨version, w₁, hv, h⟩ := h
    exact ⟨version, w₁, hv, eval_printed_of_fits (hfits version (hversion w version w₁ hv)) h hsize⟩
  · rw [heq, eval_executeWith] at h ⊢
    have hlen : r.output.length ≤ 4095 :=
      WriterProg.eval_writes_invariant (I := fun out => List.length out ≤ 4096 - 1)
        (fun out bs => length_ps4CaptureShellOutput bs) h (Nat.zero_le _)
    -- nothing was refused, so the writer that takes everything gives the same run
    have hkeep := ShellProg.reports_ps4ShellExecute.eval ps4CaptureShellOutput_of_true h
      (by dsimp only; omega)
    refine WriterProg.eval_of_keepAll (n := size - 1) (fun out bs hfits => ?_) hkeep (by
      dsimp only; omega)
    rw [ps4CaptureShellOutput, if_neg (by rw [List.length_append] at hfits; omega)]

/-- A negative status is a failed request. -/
theorem ps4BuiltinCommand_of_neg {env : LaunchEnv} {cs : ChanSess} (hshell : cs.shell = state)
    (hcmd : cs.cmdline = cstr line) (hK : env.kernel.Agrees H w L errno state line)
    (h : Prog.Eval H (formatCommand L errno state line 4096) w r w') (hneg : r.status < 0) :
    (ps4BuiltinCommand env cs).1 = false := by
  have hstatus := (eval_formatCommand hK.version hK.execute h).1
  unfold ps4BuiltinCommand
  rw [hshell, hcmd]
  dsimp only
  rw [if_pos (hstatus ▸ hneg)]

/-- `echo` prints its text and a newline. -/
theorem formatCommand_of_echo {text : Bytes} (h : echoText line = some text) {size : ℕ} :
    formatCommand L errno state line size = printed state size 0 (text ++ ascii "\n") := by
  unfold echoText at h
  unfold formatCommand
  dsimp only at h ⊢
  generalize skipBlanks (cstr line) = cmd at h ⊢
  obtain ⟨hecho, htext⟩ := Option.ite_none_right_eq_some.1 h
  cases htext
  -- none of the texts that are looked for first begins like this
  have hne {known : Bytes} (hknown : known.take 4 ≠ ascii "echo") : cmd ≠ known := by
    rintro rfl
    exact hknown hecho.1
  rw [if_neg (hne (by decide)), if_neg (hne (by decide)),
    if_neg (not_or.2 ⟨hne (by decide), hne (by decide)⟩), if_pos hecho]

/-- The end of a long `echo` is lost, and the request succeeds. -/
theorem not_neverTruncated (hlong : LongEcho line) : ¬ NeverTruncated L errno state line := by
  intro h
  obtain ⟨text, htext, hlength⟩ := hlong
  -- no call is made, so any system will do
  have hsmall : Prog.Eval (fun _ _ _ _ => False) (formatCommand L errno state line 4096) ()
      ⟨0, (text ++ ascii "\n").take (4096 - 1), state⟩ () := by
    rw [formatCommand_of_echo htext, eval_printed]
    exact ⟨rfl, rfl⟩
  obtain ⟨hsame, -⟩ := h Unit _ nofun () () _ hsmall
  have hlarge := hsame le_rfl (text.length + 2) (by omega)
  rw [formatCommand_of_echo htext, eval_printed] at hlarge
  have houtput := congrArg (fun r => r.output.length) hlarge.1
  simp [ascii] at houtput
  omega

/-- **Truncated output.**  For every line, shell state and system: output that does not fit the
buffer is a failed request, and nothing is lost without one, exactly when the line is no long
`echo`. -/
theorem neverTruncated_iff (L : Libc) (errno : Errno) (state : ShellState) (line : Bytes) :
    NeverTruncated L errno state line ↔ ¬ LongEcho line := by
  constructor
  · rintro h hlong
    exact not_neverTruncated hlong h
  · intro hecho W H hversion w w' r hrun
    have hcomplete : 0 ≤ r.status → ∀ size ≥ 4096,
        Prog.Eval H (formatCommand L errno state line size) w r w' :=
      fun hstatus size hsize => formatCommand_complete hversion hecho hrun hstatus hsize
    refine ⟨hcomplete, ?_⟩
    rintro ⟨size, hsize, hlong⟩ env cs hshell hcmd hK
    refine ps4BuiltinCommand_of_neg hshell hcmd hK hrun (not_le.1 fun hstatus => ?_)
    exact absurd (hlong r w' (hcomplete hstatus size hsize)) (length_formatCommand hrun).not_gt

theorem echoText_echo {c : UInt8} {text : Bytes} (hc : c ≠ 32) (hzero : 0 ∉ c :: text) :
    echoText (ascii "echo " ++ c :: text) = some (c :: text) := by
  have hcstr : cstr (ascii "echo " ++ c :: text) = ascii "echo " ++ c :: text := by
    refine cstr_eq_self fun hmem => ?_
    rcases List.mem_append.1 hmem with h | h
    · exact absurd h (by decide)
    · exact hzero h
  have hskip : skipBlanks (ascii "echo " ++ c :: text) = ascii "echo" ++ 32 :: c :: text := rfl
  have hdrop : (32 :: c :: text).dropWhile (· = 32) = c :: text := by
    simp [hc]
  unfold echoText
  rw [hcstr, hskip]
  dsimp only
  rw [if_pos ⟨rfl, rfl⟩]
  exact congrArg some hdrop

/-- An `echo` of 4095 bytes loses its newline. -/
theorem echo_truncated :
    let line := ascii "echo " ++ List.replicate 4095 97
    line.length ≤ maxCmdLen ∧
      ¬ NeverTruncated ⟨fun _ => [], true⟩ .zero (ps4ShellInit (ascii "/data/dropbear")) line := by
  intro line
  refine ⟨?_, not_neverTruncated ⟨97 :: List.replicate 4094 97, ?_, ?_⟩⟩
  · rw [List.length_append, List.length_replicate]
    decide
  · refine echoText_echo (by decide) fun hmem => ?_
    rw [← List.replicate_succ] at hmem
    exact absurd (List.eq_of_mem_replicate hmem) (by decide)
  · rw [List.length_cons, List.length_replicate]

end Ps4Dropbear
