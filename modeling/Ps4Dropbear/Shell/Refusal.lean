import Ps4Dropbear.Prog.Refusal
import Ps4Dropbear.Shell.Execute

/-!
# Output that is not taken

Every command of the shell hands its output to a writer and looks at the answer.  Once the writer
has refused something the command stops, closes what it has open and returns `-1`.

* `ShellProg.Propagates` : a command does so; `ShellProg.Leaves` says the same of the body of a
  loop.
* `silent_copyFile`, … : what does not write to the output has nothing to report.

**Main result** (`reports_ps4ShellExecute`): every command line does so.
-/

namespace Ps4Dropbear

namespace ShellProg

variable {L : Libc} {errno : Errno} {state : ShellState} {α σ : Type} {P : α → Prop}

/-- A status of `-1` says that the writer has refused something. -/
abbrev Propagates (p : ShellProg ℤ) : Prop := WriterProg.ReportsRefusal (· = -1) p

/-- The same of the body of a loop, which is left then. -/
abbrev Leaves (p : ShellProg (σ ⊕ ℤ)) : Prop :=
  WriterProg.ReportsRefusal (Sum.elim (fun _ => False) (· = -1)) p

theorem reports_writeAll {data : Bytes} {f : ℤ → ShellProg α}
    (htook : WriterProg.ReportsRefusal P (f 0)) (hrefused : Prog.Returns P (f (-1))) :
    WriterProg.ReportsRefusal P ((writeAll data).bind f) := by
  unfold writeAll
  split
  · exact htook
  · change WriterProg.ReportsRefusal P ((WriterProg.emit data).bind fun ok =>
      (if ok = true then pure 0 else pure (-1) : ShellProg ℤ).bind f)
    exact .emit_bind htook hrefused

theorem propagates_shellError {command path : Bytes} {error : Errno} :
    Propagates (shellError L command path error) :=
  reports_writeAll (.ret 1) (.ret rfl)

theorem leaves_closing {fd : ℕ} {status : ShellProg ℤ} (h : Propagates status) :
    Leaves (closing (σ := σ) fd status) := by
  refine .loc_bind fun _ => .bind h (fun _ => .ret _) ?_
  rintro _ rfl
  exact .ret rfl

theorem returns_closing {fd : ℕ} : Prog.Returns (Sum.elim (fun _ => False) (· = -1))
    (closing (σ := σ) fd (pure (-1))) :=
  .perform_bind fun _ => .ret rfl

theorem silent_sys (c : ShellCall) :
    WriterProg.ReportsRefusal (fun _ => False) (sys c : ShellProg c.Answer) :=
  .loc_bind fun r => .ret r

theorem silent_closeErrno {fd : ℕ} {e : Errno} :
    WriterProg.ReportsRefusal (fun _ => False) (closeErrno fd e) := by
  refine .loc_bind fun r => ?_
  cases r <;> exact .ret _

theorem propagates_openArg {command name : Bytes} {k : ℕ → ShellProg ℤ}
    (hk : ∀ fd, Propagates (k fd)) : Propagates (openArg L command state name k) := by
  unfold openArg
  split
  · exact propagates_shellError
  · refine .loc_bind fun r => ?_
    cases r with
    | error e => exact propagates_shellError
    | ok fd => exact hk fd

theorem propagates_ite {c : Prop} [Decidable c] {p q : ShellProg ℤ} (hp : Propagates p)
    (hq : Propagates q) : Propagates (if c then p else q) := by
  split
  · exact hp
  · exact hq

theorem propagates_invalid {name : Bytes} : Propagates (invalid name) :=
  reports_writeAll (.ret 127) (.ret rfl)

/-- A command whose arguments were read first. -/
theorem propagates_elim {τ : Type} {name : Bytes} {k : τ → ShellProg ℤ} {args : Option τ}
    (hk : ∀ a, Propagates (k a)) : Propagates (args.elim (invalid name) k) := by
  cases args with
  | none => exact propagates_invalid
  | some a => exact hk a

theorem propagates_orError {command name : Bytes} {r : Except Errno Unit} :
    Propagates (orError L command name r) := by
  cases r with
  | ok _ => exact .ret 0
  | error e => exact propagates_shellError

/-! ### Commands that print a directory or a file -/

theorem propagates_lsPrint {path : Bytes} {longFormat : Bool} {names : List Bytes} :
    Propagates (lsPrint path longFormat names) := by
  induction names with
  | nil => exact .ret 0
  | cons name names ih =>
    unfold lsPrint
    split
    · exact .ret (-1)
    · refine .loc_bind fun r => ?_
      -- whatever is known about the entry, its line is written at the end
      cases r <;> cases longFormat
      · exact reports_writeAll ih (.ret rfl)
      · exact .loc_bind fun again => reports_writeAll ih (.ret rfl)
      · exact reports_writeAll ih (.ret rfl)
      · exact .loc_bind fun again => reports_writeAll ih (.ret rfl)

theorem silent_lsReadBody {showHidden : Bool} {directory : ℕ} (s : List Bytes × ℕ) :
    WriterProg.ReportsRefusal (Sum.elim (fun _ => False) fun _ => False)
      (lsReadBody showHidden directory s) := by
  refine .loc_bind fun entry => ?_
  cases entry with
  | none => exact .ret _
  | some name =>
    dsimp only
    split
    · exact .ret _
    -- the entry is kept if there is memory for it
    have hkeep (capacity : ℕ) : WriterProg.ReportsRefusal (Sum.elim (fun _ => False) fun _ => False)
        ((sys (.alloc (name.length + 1))).bind fun enough =>
          if enough = true then pure (.inl (s.1 ++ [name], capacity))
          else pure (.inr (s.1, false)) : ShellProg ((List Bytes × ℕ) ⊕ (List Bytes × Bool))) := by
      refine .loc_bind fun enough => ?_
      split <;> exact .ret _
    split
    · refine .loc_bind fun grown => ?_
      split
      · exact .ret _
      · exact hkeep _
    · exact hkeep _

theorem propagates_commandLs {args : List Bytes} : Propagates (commandLs L state args) := by
  unfold commandLs
  split
  · exact reports_writeAll (.ret 1) (.ret rfl)
  · split
    · exact propagates_shellError
    · refine .loc_bind fun r => ?_
      cases r with
      | error e => exact propagates_shellError
      | ok directory =>
        refine .silent_bind (.iterate silent_lsReadBody) ?_
        rintro ⟨entries, enough⟩
        cases enough with
        | false => exact .loc_bind fun _ => .ret (-1)
        | true =>
          refine propagates_lsPrint.bind (fun result => .loc_bind fun _ => .ret result) ?_
          rintro _ rfl
          exact .perform_bind fun _ => .ret rfl

theorem propagates_commandCat {name : Bytes} : Propagates (commandCat L state name) := by
  refine propagates_openArg fun fd => .iterate fun _ => .loc_bind fun r => ?_
  cases r with
  | error e => exact leaves_closing propagates_shellError
  | ok data =>
    dsimp only
    split
    · exact leaves_closing (.ret 0)
    · exact reports_writeAll (.ret _) returns_closing

theorem propagates_commandHead {name : Bytes} {lines : ℕ} :
    Propagates (commandHead L state name lines) := by
  refine propagates_openArg fun fd => .iterate fun left => ?_
  unfold headBody
  split
  · exact leaves_closing (.ret 0)
  · refine .loc_bind fun r => ?_
    cases r with
    | error e => exact leaves_closing (.ret 0)
    | ok data =>
      dsimp only
      split
      · exact leaves_closing (.ret 0)
      · exact reports_writeAll (.ret _) returns_closing

theorem propagates_commandTail {name : Bytes} {lines : ℕ} :
    Propagates (commandTail L state name lines) := by
  refine propagates_openArg fun fd => .loc_bind fun r => ?_
  cases r with
  | error e => exact .loc_bind fun _ => propagates_shellError
  | ok st =>
    dsimp only
    split
    · exact .loc_bind fun _ => propagates_shellError
    · refine .loc_bind fun enough => ?_
      split
      · refine .loc_bind fun r => ?_
        cases r with
        | error e =>
          exact silent_closeErrno.silent_bind fun _ => propagates_shellError
        | ok data => exact .loc_bind fun _ => reports_writeAll (.ret 0) (.ret rfl)
      · exact .loc_bind fun _ => .ret (-1)

theorem propagates_commandGrep {needle name : Bytes} :
    Propagates (commandGrep L state needle name) := by
  refine .loc_bind fun enough => ?_
  split
  · refine propagates_openArg fun fd => .iterate fun s => .loc_bind fun r => ?_
    rcases r with e | ⟨_ | ⟨byte, _⟩, _⟩
    · exact leaves_closing propagates_shellError
    · dsimp only
      split
      · refine reports_writeAll ?_ returns_closing
        exact reports_writeAll (leaves_closing (.ret 0)) returns_closing
      · exact leaves_closing (.ret _)
    · dsimp only
      split
      · exact leaves_closing propagates_shellError
      split
      · split
        · exact reports_writeAll (.ret _) returns_closing
        · exact .ret _
      · exact .ret _
  · exact .ret (-1)

theorem propagates_hexBytes {data : Bytes} : Propagates (hexBytes data) := by
  induction data with
  | nil => exact .ret 0
  | cons c rest ih => exact reports_writeAll ih (.ret rfl)

theorem propagates_commandHexdump {name : Bytes} {limit : ℕ} :
    Propagates (commandHexdump L state name limit) := by
  refine propagates_openArg fun fd => .iterate fun offset => ?_
  unfold hexdumpBody
  split
  · refine .loc_bind fun r => ?_
    split
    · exact .ret _
    · exact leaves_closing propagates_shellError
    · split
      · exact leaves_closing (.ret 0)
      · refine reports_writeAll ?_ returns_closing
        refine propagates_hexBytes.bind (fun status => ?_) ?_
        · split
          · exact leaves_closing (.ret (-1))
          · exact reports_writeAll (.ret _) returns_closing
        · rintro _ rfl
          exact returns_closing
  · exact leaves_closing (.ret 0)

theorem propagates_commandStat {name : Bytes} : Propagates (commandStat L state name) := by
  unfold commandStat
  split
  · exact propagates_shellError
  · refine .loc_bind fun r => ?_
    cases r with
    | error e => exact propagates_shellError
    | ok st => exact reports_writeAll (.ret 0) (.ret rfl)

/-- The body of the loop of `find`, with what it does to a child. -/
theorem leaves_findBody {visit : Bytes → ShellProg ℤ} (hvisit : ∀ child, Propagates (visit child))
    {path : Bytes} {directory : ℕ} (u : Unit) : Leaves (findBody visit path directory u) := by
  refine .loc_bind fun entry => ?_
  cases entry with
  | none => exact .loc_bind fun _ => .ret _
  | some name =>
    dsimp only
    split
    · exact .ret _
    split
    · exact .loc_bind fun _ => .ret _
    · refine .bind (hvisit _) ?_ ?_
      · intro result
        split
        · exact .loc_bind fun _ => .ret _
        · exact .ret _
      · rintro _ rfl
        exact .perform_bind fun _ => .ret rfl

theorem propagates_commandFindPath {levels : ℕ} {path : Bytes} :
    Propagates (commandFindPath L levels path) := by
  induction levels generalizing path with
  | zero =>
    unfold commandFindPath
    refine .loc_bind fun r => ?_
    cases r with
    | error e => exact propagates_shellError
    | ok st =>
      refine reports_writeAll ?_ (.ret rfl)
      rw [if_neg (by decide)]
      split <;> exact .ret _
  | succ levels ih =>
    unfold commandFindPath
    refine .loc_bind fun r => ?_
    cases r with
    | error e => exact propagates_shellError
    | ok st =>
      refine reports_writeAll ?_ (.ret rfl)
      rw [if_neg (by decide)]
      split
      · exact .ret 0
      · refine .loc_bind fun r => ?_
        cases r with
        | error e => exact propagates_shellError
        | ok directory => exact .iterate fun u => leaves_findBody (fun _ => ih) u

/-! ### Commands that change the file system -/

theorem propagates_touch {name : Bytes} : Propagates (touch L state name) := by
  unfold touch
  split
  · exact propagates_shellError
  · refine .loc_bind fun r => ?_
    cases r with
    | error e => exact propagates_shellError
    | ok fd => exact .loc_bind fun _ => propagates_orError

theorem propagates_makeOrRemove {command name : Bytes}
    {act : Bytes → ShellProg (Except Errno Unit)}
    (hact : ∀ path, WriterProg.ReportsRefusal (fun _ => False) (act path)) :
    Propagates (makeOrRemove L command act state name) := by
  unfold makeOrRemove
  split
  · exact propagates_shellError
  · exact (hact _).silent_bind fun _ => propagates_orError

theorem propagates_remove {name : Bytes} : Propagates (remove L errno state name) := by
  unfold remove
  split
  · exact propagates_shellError
  split
  · exact propagates_shellError
  · refine .loc_bind fun r => ?_
    cases r with
    | error e => exact propagates_shellError
    | ok _ => exact .ret 0

theorem propagates_changeMode {mode name : Bytes} :
    Propagates (changeMode L errno state mode name) := by
  unfold changeMode
  dsimp only
  -- the mode is a number, or there is no number
  split <;> refine propagates_ite ?_ propagates_shellError
  all_goals
    split
    · exact propagates_shellError
    · refine .loc_bind fun r => ?_
      cases r with
      | error e => exact propagates_shellError
      | ok _ => exact .ret 0

/-- Nothing is written to the output in a round of `copy_file`. -/
theorem silent_copyBody {input output : ℕ} :
    WriterProg.ReportsRefusal (Sum.elim (fun _ => False) fun _ => False)
      (copyBody input output errno) := by
  have hend (got : Except Errno Unit) :
      WriterProg.ReportsRefusal (fun _ => False) (copyEnd input output got) := by
    refine .loc_bind fun r => ?_
    cases r with
    | error e => exact .ret _
    | ok _ =>
      refine .loc_bind fun r => ?_
      cases r <;> exact .ret _
  refine .loc_bind fun r => ?_
  cases r with
  | error e => exact (hend _).silent_bind fun _ => .ret _
  | ok data =>
    dsimp only
    split
    · exact (hend _).silent_bind fun _ => .ret _
    · refine .silent_bind (.iterate ?_) fun r => ?_
      · rintro ⟨rest, errno⟩
        unfold copyWriteBody
        dsimp only
        split
        · exact .ret _
        · refine .loc_bind fun r => ?_
          split
          · exact .ret _
          · exact silent_closeErrno.silent_bind fun _ =>
              silent_closeErrno.silent_bind fun _ => .ret _
          · exact silent_closeErrno.silent_bind fun _ =>
              silent_closeErrno.silent_bind fun _ => .ret _
          · exact .ret _
      · cases r <;> exact .ret _

/-- `copy_file` writes to a file, which is not the output. -/
theorem silent_copyFile {source destination : Bytes} :
    WriterProg.ReportsRefusal (fun _ => False) (copyFile errno source destination) := by
  refine .loc_bind fun r => ?_
  cases r with
  | error e => exact .ret _
  | ok input =>
    refine .loc_bind fun r => ?_
    cases r with
    | error e => exact .loc_bind fun _ => .ret _
    | ok st =>
      dsimp only
      split
      · exact .loc_bind fun _ => .ret _
      · refine .loc_bind fun r => ?_
        cases r with
        | error e => exact silent_closeErrno.silent_bind fun _ => .ret _
        | ok output => exact .iterate fun errno => silent_copyBody

theorem propagates_copyOrMove {command source target : Bytes} :
    Propagates (copyOrMove L errno state command source target) := by
  unfold copyOrMove
  split
  · split
    · exact silent_copyFile.silent_bind fun _ => propagates_orError
    · exact .loc_bind fun _ => propagates_orError
  · exact propagates_shellError

/-! ### Every command -/

theorem propagates_command {argv : List Bytes} : Propagates (command L errno state argv) := by
  unfold command
  refine propagates_ite (reports_writeAll (.ret 0) (.ret rfl)) ?_
  refine propagates_ite propagates_commandLs ?_
  refine propagates_ite propagates_commandCat ?_
  refine propagates_ite (propagates_elim fun _ => propagates_commandHead) ?_
  refine propagates_ite (propagates_elim fun _ => propagates_commandTail) ?_
  refine propagates_ite (propagates_makeOrRemove fun path => silent_sys (.mkdir path 0o755)) ?_
  refine propagates_ite (propagates_makeOrRemove fun path => silent_sys (.rmdir path)) ?_
  refine propagates_ite propagates_touch ?_
  refine propagates_ite propagates_remove ?_
  refine propagates_ite propagates_copyOrMove ?_
  refine propagates_ite propagates_changeMode ?_
  refine propagates_ite propagates_commandGrep ?_
  refine propagates_ite (propagates_elim fun _ => propagates_commandHexdump) ?_
  refine propagates_ite ?_ (propagates_ite propagates_commandStat propagates_invalid)
  dsimp only
  split
  · exact propagates_shellError
  · exact propagates_commandFindPath

/-- `cd` reports what it cannot print like the others. -/
theorem reports_changeDirectory {name : Bytes} :
    WriterProg.ReportsRefusal (·.1 = -1) (changeDirectory L state name) := by
  have herror (e : Errno) : WriterProg.ReportsRefusal (·.1 = -1)
      ((shellError L (ascii "cd") name e).bind fun status => .ret (status, state)) := by
    refine propagates_shellError.bind (fun _ => .ret _) ?_
    rintro _ rfl
    exact .ret rfl
  unfold changeDirectory
  split
  · exact herror _
  · refine .loc_bind fun r => ?_
    cases r with
    | error e => exact herror e
    | ok st =>
      dsimp only
      split
      · exact .ret _
      · exact herror _

/-- **Every command line** that prints something a writer does not take returns `-1`. -/
theorem reports_ps4ShellExecute {line : Bytes} :
    WriterProg.ReportsRefusal (·.1 = -1) (ps4ShellExecute L errno state line) := by
  have hkeep {p : ShellProg ℤ} (hp : Propagates p) : WriterProg.ReportsRefusal (·.1 = -1)
      (p.bind fun status => .ret (status, state)) := by
    refine hp.bind (fun _ => .ret _) ?_
    rintro _ rfl
    exact .ret rfl
  unfold ps4ShellExecute
  split
  · exact hkeep propagates_shellError
  · exact .ret _
  · split
    · exact reports_changeDirectory
    · exact hkeep propagates_command

end ShellProg

end Ps4Dropbear
