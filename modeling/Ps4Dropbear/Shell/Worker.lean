import Ps4Dropbear.Shell.Dispatch
import Ps4Dropbear.Shell.Ending
import Ps4Dropbear.Shell.Terminal

/-!
# The shell thread as a program

`ps4_shell_thread` with its reads and writes on the socket of the channel, and with the calls that
its commands make.  What it does with a byte is `ShellThread.onByte`; here are the loop around it,
the writes, which may fail and whose results are mostly dropped, and the commands behind a finished
line, with the terminal as their writer.

`errno` at a finished line is whatever the calls before it have left there, so it is a parameter for
each line.

* `ThreadProg.ps4WriteAll`, `ThreadProg.ps4WriteTerminal` : the writes.
* `ThreadProg.terminal` : the terminal as a writer.
* `ThreadProg.shellLoop` : the thread up to the end of its loop.

**Main result** (`ThreadProg.ends_shellLoop`): the loop comes to an end once nothing more arrives.
-/

namespace Ps4Dropbear

/-- Programs of the shell thread. -/
abbrev ThreadProg (α : Type) : Type 1 := SocketProg UInt8 ShellCall.Answer α

/-- The variables of the thread, and how many lines have been run. -/
structure ShellVars where
  thread : ShellThread
  shell : ShellState
  lines : ℕ

namespace ThreadProg

/-- The body of the loop of `ps4_write_all`, with the bytes left. -/
def ps4WriteAllBody (data : Bytes) : ThreadProg (Bytes ⊕ ℤ) :=
  if data = [] then pure (.inr 0)
  else do
    match ← SocketProg.send data with
    | .error .eintr => pure (.inl data)
    | .error _ => pure (.inr (-1))
    | .ok written => if written = 0 then pure (.inr (-1)) else pure (.inl (data.drop written))

/-- `ps4_write_all`. -/
def ps4WriteAll (data : Bytes) : ThreadProg ℤ := Prog.iterate ps4WriteAllBody data

/-- One write after the other, up to the first that fails. -/
def writePieces : List Bytes → ThreadProg ℤ
  | [] => pure 0
  | piece :: pieces => do
    if (← ps4WriteAll piece) ≠ 0 then pure (-1) else writePieces pieces

/-- `ps4_write_terminal_output`, with the writes of `ps4WriteTerminalOutput`. -/
def ps4WriteTerminal (data : Bytes) : ThreadProg ℤ := writePieces (ps4WriteTerminalOutput data)

/-- `ps4_terminal_shell_output` as the writer, and the calls of the commands as they are. -/
def terminal : (c : WriterCall UInt8 ShellCall) → ThreadProg (c.Answer ShellCall.Answer)
  | .emit data => (ps4WriteTerminal data).bind fun status => .ret (status = 0)
  | .loc c => SocketProg.loc c

/-- `ps4_write_prompt`. -/
def ps4WritePrompt (shell : ShellState) : ThreadProg Unit := do
  let _ ← ps4WriteAll (ps4Prompt shell)
  return ()

/-- A finished line, without the line feed and the prompt around it. -/
def runLine (L : Libc) (errno : ℕ → Errno) (s : ShellVars) (command : Bytes) :
    ThreadProg ShellVars :=
  if ps4ShellHandles command then do
    let (status, shell) ←
      Prog.interpret terminal (ShellProg.ps4ShellExecute L (errno s.lines) s.shell command)
    return ⟨{ s.thread with status := if status < 0 then 1 else status }, shell, s.lines + 1⟩
  else do
    let r ← Prog.interpret (fun c => SocketProg.loc c)
      (formatCommand L (errno s.lines) s.shell command 4096)
    let _ ← ps4WriteTerminal (if r.status < 0 then [] else r.output)
    return ⟨{ s.thread with status := if r.status < 0 then 1 else r.status }, r.shell, s.lines + 1⟩

/-- One round of the loop; the result is the status behind the loop.  The line feed of a finished
line is a write of its own, also in front of `logout`. -/
def shellRound (L : Libc) (errno : ℕ → Errno) (s : ShellVars) : ThreadProg (ShellVars ⊕ ℤ) := do
  match ← SocketProg.recv 1 with
  | .ok [byte] =>
    match s.thread.onByte byte with
    | (thread, .write out) =>
      let _ ← ps4WriteAll out
      return .inl { s with thread := thread }
    | (thread, .prompt out) =>
      let _ ← ps4WriteAll out
      ps4WritePrompt s.shell
      return .inl { s with thread := thread }
    | (thread, .line command) =>
      let _ ← ps4WriteAll (ascii "\r\n")
      let s ← runLine L errno { s with thread := thread } command
      ps4WritePrompt s.shell
      return .inl s
    | (thread, .leave _) =>
      let _ ← ps4WriteAll (if byte = 4 then [] else ascii "\r\n")
      let _ ← ps4WriteAll (ascii "logout\r\n")
      return .inr thread.status
  | _ => return .inr s.thread.status

/-- `ps4_shell_thread` up to the end of its loop, with the status behind it. -/
def shellLoop (L : Libc) (errno : ℕ → Errno) (shell : ShellState) : ThreadProg ℤ := do
  let _ ← ps4WriteAll ps4Banner
  ps4WritePrompt shell
  Prog.iterate (shellRound L errno) ⟨.initial, shell, 0⟩

/-! ### The loop comes to an end -/

variable {L : Libc} {errno : Errno} {state : ShellState} {α : Type}

/-- The answers with a budget. -/
abbrev Runs : (c : IoCall UInt8 ShellCall) → Budget ShellSystem → c.Answer ShellCall.Answer →
    Budget ShellSystem → Prop :=
  SocketProg.Bounded ShellCall.Interrupted systemCalls

/-- The program ends, in every world. -/
abbrev Ends (p : ThreadProg α) : Prop := Prog.Ends Runs SocketProg.Left p

/-- Nothing has been read and nothing has happened to the system. -/
def Wrote (w w' : Budget ShellSystem) : Prop :=
  w'.own = w.own ∧ w'.elements = w.elements ∧ w'.interrupts ≤ w.interrupts

instance : IsPreorder (Budget ShellSystem) Wrote where
  refl _ := ⟨rfl, rfl, Nat.le_refl _⟩
  trans _ _ _ h h' := ⟨h'.1.trans h.1, h'.2.1.trans h.2.1, h'.2.2.trans h.2.2⟩

/-- It ends, and has only written. -/
abbrev Writes (p : ThreadProg α) : Prop := Prog.Ends Runs Wrote p

theorem Writes.ends {p : ThreadProg α} (h : Writes p) : Ends p :=
  h.mono fun _ _ hw => ⟨Nat.le_of_eq hw.2.1, hw.2.2⟩

theorem writes_ps4WriteAll (data : Bytes) : Writes (ps4WriteAll data) := by
  refine .iterate (fun rest w => rest.length + w.interrupts) ?_
  intro rest w
  unfold ps4WriteAllBody
  split
  · exact .ret ⟨refl w, nofun⟩
  next hrest =>
  refine .perform_bind (SocketProg.exists_bounded exists_systemCalls _ w) ?_
  rintro (e | written) w' h
  · obtain ⟨hown, hel, hspent⟩ := h
    have hw : Wrote w w' := ⟨hown, hel, hspent.le⟩
    split
    · next heq =>
      cases heq
      refine .ret ⟨hw, ?_⟩
      rintro _ ⟨⟩
      exact Nat.add_lt_add_left (hspent.lt rfl) _
    · exact .ret ⟨hw, nofun⟩
    · next heq => cases heq
  · obtain ⟨-, rfl⟩ := h
    dsimp only
    split
    · exact .ret ⟨refl w', nofun⟩
    · next hwritten =>
      refine .ret ⟨refl w', ?_⟩
      rintro _ ⟨⟩
      have hpos := List.length_pos_iff.2 hrest
      rw [List.length_drop]
      omega

theorem writes_ps4WriteTerminal (data : Bytes) : Writes (ps4WriteTerminal data) := by
  unfold ps4WriteTerminal
  induction ps4WriteTerminalOutput data with
  | nil => exact .ret 0
  | cons piece pieces ih => exact (writes_ps4WriteAll piece).bind fun r => .ite (.ret (-1)) ih

theorem ends_ps4WritePrompt (shell : ShellState) : Ends (ps4WritePrompt shell) :=
  (writes_ps4WriteAll _).ends.bind fun _ => .ret ()

/-- The world of a command inside the thread, which reads nothing from the socket. -/
def Inside (elements : ℕ) (w : ShellSystem × ℕ) (v : Budget ShellSystem) : Prop :=
  v = ⟨w.1, elements, w.2⟩

theorem inside_of_eq {m : ℕ} {v : Budget ShellSystem} (h : v.elements = m) :
    Inside m (v.own, v.interrupts) v := by
  subst h
  rfl

/-- The terminal answers a command as `shellRuns` allows. -/
theorem total_terminal {m : ℕ} (c : WriterCall UInt8 ShellCall) (w : ShellSystem × ℕ)
    (v : Budget ShellSystem) (hv : Inside m w v) :
    Prog.Total Runs (fun r v' => ∃ w', shellRuns c w r w' ∧ Inside m w' v') (terminal c) v := by
  subst hv
  cases c with
  | emit data =>
    refine (writes_ps4WriteTerminal data _).bind fun status v' hw => ?_
    obtain ⟨hown, hel, hint⟩ := hw
    exact .ret ⟨(v'.own, v'.interrupts), ⟨hown, hint⟩, inside_of_eq hel⟩
  | loc c =>
    refine .call (SocketProg.exists_bounded exists_systemCalls _ _) fun r v' hc => ?_
    obtain ⟨hcall, hel, hint⟩ := hc
    exact .ret ⟨(v'.own, v'.interrupts), ⟨hcall, hint⟩, inside_of_eq hel⟩

/-- A command with the terminal as its writer. -/
theorem ends_interpret_terminal {p : ShellProg α} (h : ShellProg.Ends p) :
    Ends (Prog.interpret terminal p) := by
  intro v
  have hstart : Inside v.elements (v.own, v.interrupts) v := rfl
  refine (Prog.Total.interpret total_terminal (h (v.own, v.interrupts)) hstart).mono ?_
  rintro a v' ⟨w', hfewer, rfl⟩
  exact ⟨Nat.le_refl _, hfewer⟩

/-- The system under a command whose writer is a function. -/
def systemRuns (c : ShellCall) (w : ShellSystem × ℕ) (r : c.Answer) (w' : ShellSystem × ℕ) : Prop :=
  shellRuns (.loc c) w r w'

theorem ends_formatCommand (line : Bytes) (size : ℕ) :
    Prog.Ends systemRuns ShellProg.Fewer (formatCommand L errno state line size) := by
  have hprinted (status : ℤ) (text : Bytes) :
      Prog.Ends systemRuns ShellProg.Fewer (printed state size status text) := .ret _
  have hexecute (cmd : Bytes) : Prog.Ends systemRuns ShellProg.Fewer
      (executeWith (ps4CaptureShellOutput size) L errno state cmd) := by
    intro w
    have hends : ShellProg.Ends (ShellProg.ps4ShellExecute L errno state cmd) :=
      ShellProg.ends_ps4ShellExecute cmd
    have hwriter : Prog.Total systemRuns (fun _ w' => ShellProg.Fewer w w')
        (WriterProg.withWriter (ps4CaptureShellOutput size)
          (ShellProg.ps4ShellExecute L errno state cmd) []) w :=
      WriterProg.total_withWriter (fun _ v _ => ⟨rfl, Nat.le_refl v.2⟩) (fun _ _ _ _ => Iff.rfl)
        (hends w) []
    exact hwriter.bind fun r w' hw => .ret hw
  unfold formatCommand
  refine .ite (hprinted _ _) (.ite (hprinted _ _) (.ite ?_ (.ite (hprinted _ _) (.ite (hprinted _ _)
    (.ite (hprinted _ _) (.ite (hprinted _ _) (.ite (hprinted _ _) (hexecute _))))))))
  exact .perform_bind (fun w => ShellProg.exists_shellRuns ShellCall.swVersion w)
    (fun _ _ _ h => h.2.le) fun version => .ite (hprinted _ _) (hprinted _ _)

theorem ends_interpret_loc {p : SystemProg α} (h : Prog.Ends systemRuns ShellProg.Fewer p) :
    Ends (Prog.interpret (fun c => SocketProg.loc c) p) := by
  intro v
  have hstart : Inside v.elements (v.own, v.interrupts) v := rfl
  refine (Prog.Total.interpret (fun c => total_terminal (.loc c)) (h (v.own, v.interrupts))
    hstart).mono ?_
  rintro a v' ⟨w', hfewer, rfl⟩
  exact ⟨Nat.le_refl _, hfewer⟩

theorem ends_runLine (errno : ℕ → Errno) (s : ShellVars) (command : Bytes) :
    Ends (runLine L errno s command) := by
  refine .ite ?_ ?_
  · exact (ends_interpret_terminal (ShellProg.ends_ps4ShellExecute command)).bind fun _ => .ret _
  · exact (ends_interpret_loc (ends_formatCommand command 4096)).bind fun r =>
      (writes_ps4WriteTerminal _).ends.bind fun _ => .ret _

/-- **The loop comes to an end**: each round takes a byte. -/
theorem ends_shellLoop (errno : ℕ → Errno) (shell : ShellState) :
    Ends (shellLoop L errno shell) := by
  refine (writes_ps4WriteAll _).ends.bind fun _ => (ends_ps4WritePrompt shell).bind fun _ => ?_
  refine .iterate (fun _ w => w.elements) fun s w => ?_
  unfold shellRound
  refine .perform_bind (SocketProg.exists_bounded exists_systemCalls _ w) fun r w' hread => ?_
  have hleft := SocketProg.left_of_bounded hread
  split
  · next byte =>
    obtain ⟨-, hw⟩ := hread
    -- the byte is out of the budget
    have hlt : ∀ w'', SocketProg.Left w' w'' → w''.elements < w.elements := by
      intro w'' h
      rw [hw]
      exact Nat.lt_succ_of_le h.1
    have hround {p : ThreadProg (ShellVars ⊕ ℤ)} (hp : Ends p) : Prog.Total Runs
        (fun x w'' => SocketProg.Left w w'' ∧ ∀ s', x = .inl s' → w''.elements < w.elements) p w' :=
      (hp w').mono fun _ _ h => ⟨trans_of SocketProg.Left hleft h, fun _ _ => hlt _ h⟩
    split
    · exact hround ((writes_ps4WriteAll _).ends.bind fun _ => .ret _)
    · exact hround ((writes_ps4WriteAll _).ends.bind fun _ =>
        (ends_ps4WritePrompt _).bind fun _ => .ret _)
    · exact hround ((writes_ps4WriteAll _).ends.bind fun _ => (ends_runLine errno _ _).bind fun _ =>
        (ends_ps4WritePrompt _).bind fun _ => .ret _)
    · exact hround ((writes_ps4WriteAll _).ends.bind fun _ =>
        (writes_ps4WriteAll _).ends.bind fun _ => .ret _)
  · exact .ret ⟨hleft, nofun⟩

end ThreadProg

end Ps4Dropbear
