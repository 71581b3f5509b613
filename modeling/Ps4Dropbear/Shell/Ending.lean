import Ps4Dropbear.Prog.Interpret
import Ps4Dropbear.Shell.System

/-!
# Commands come to an end

A command of the shell can be in a loop over a file or a directory, and some of these loops go on
after an interruption.  Each of them uses something up: what is left to read of the file, the names
that are left in the directory stream, or interruptions.  `cp` could go on forever if it read what
it writes, but its destination has been emptied by then, so it would find nothing to read.

* `shellRuns` : the system with a limited number of interruptions, and a writer that takes or refuses
  what it likes.
* `ShellProg.ends_commandCat`, `ShellProg.ends_copyFile`, … : one lemma for each function of the
  source.

**Main result** (`ShellProg.ends_ps4ShellExecute`): a command line is executed in finitely many
steps.
-/

namespace Ps4Dropbear

/-- The system and how often its calls will still be interrupted.  Handing something to the writer
may use up interruptions and does nothing to the system. -/
def shellRuns : (c : WriterCall UInt8 ShellCall) → ShellSystem × ℕ → c.Answer ShellCall.Answer →
    ShellSystem × ℕ → Prop
  | .emit _, w, _, w' => w'.1 = w.1 ∧ w'.2 ≤ w.2
  | .loc c, w, r, w' => systemCalls c w.1 r w'.1 ∧ Spent (c.Interrupted r) w.2 w'.2

namespace ShellProg

/-- No interruption is gained. -/
def Fewer (w w' : ShellSystem × ℕ) : Prop := w'.2 ≤ w.2

/-- Besides, nothing has happened to the system. -/
def Kept (w w' : ShellSystem × ℕ) : Prop := w'.1 = w.1 ∧ w'.2 ≤ w.2

instance : IsPreorder (ShellSystem × ℕ) Fewer where
  refl _ := Nat.le_refl _
  trans _ _ _ h h' := Nat.le_trans h' h

instance : IsPreorder (ShellSystem × ℕ) Kept where
  refl _ := ⟨rfl, Nat.le_refl _⟩
  trans _ _ _ h h' := ⟨h'.1.trans h.1, h'.2.trans h.2⟩

variable {L : Libc} {errno : Errno} {state : ShellState} {α σ : Type} {w : ShellSystem × ℕ}
variable {fd len : ℕ}

/-- The program ends, in every world. -/
abbrev Ends (p : ShellProg α) : Prop := Prog.Ends shellRuns Fewer p

/-- It ends, and has done nothing to the system. -/
abbrev Quiet (p : ShellProg α) : Prop := Prog.Ends shellRuns Kept p

theorem Quiet.ends {p : ShellProg α} (h : Quiet p) : Ends p := h.mono fun _ _ => And.right

theorem quiet_writeAll (data : Bytes) : Quiet (writeAll data) := by
  refine .ite (.ret 0) (.perform_bind (fun w => ⟨true, w, rfl, Nat.le_refl _⟩) (fun _ _ _ => id) ?_)
  exact fun r => .ite (.ret 0) (.ret (-1))

theorem quiet_writeFmt (text : Bytes) : Quiet (writeFmt text) := quiet_writeAll _

theorem quiet_shellError (command path : Bytes) (error : Errno) :
    Quiet (shellError L command path error) :=
  (quiet_writeFmt _).bind fun _ => .ite (.ret (-1)) (.ret 1)

theorem ends_shellError (command path : Bytes) (error : Errno) :
    Ends (shellError L command path error) :=
  (quiet_shellError command path error).ends

theorem exists_shellRuns (c : ShellCall) (w : ShellSystem × ℕ) :
    ∃ r w', shellRuns (.loc c) w r w' := by
  obtain ⟨r, v, hc, hr⟩ := exists_systemCalls c w.1
  exact ⟨r, (v, w.2), hc, .of_not _ hr⟩

theorem ends_sys_bind {c : ShellCall} {f : c.Answer → ShellProg α} (hf : ∀ r, Ends (f r)) :
    Ends ((sys c).bind f) :=
  .perform_bind (exists_shellRuns c) (fun _ _ _ h => h.2.le) hf

/-- A call of which the answer is looked at. -/
theorem total_sys {c : ShellCall} {f : c.Answer → ShellProg α} {Q : α → ShellSystem × ℕ → Prop}
    (hf : ∀ r w', shellRuns (.loc c) w r w' → Prog.Total shellRuns Q (f r) w') :
    Prog.Total shellRuns Q ((sys c).bind f) w :=
  .perform_bind (exists_shellRuns c w) hf

theorem ends_invalid (name : Bytes) : Ends (invalid name) :=
  (quiet_writeFmt _).ends.bind fun _ => .ite (.ret (-1)) (.ret 127)

/-- A command whose arguments were read first. -/
theorem ends_elim {τ : Type} {name : Bytes} {k : τ → ShellProg ℤ} {args : Option τ}
    (hk : ∀ a, Ends (k a)) : Ends (args.elim (invalid name) k) := by
  cases args with
  | none => exact ends_invalid name
  | some a => exact hk a

theorem ends_orError (command name : Bytes) (r : Except Errno Unit) :
    Ends (orError L command name r) := by
  cases r with
  | ok _ => exact .ret 0
  | error e => exact ends_shellError _ _ _

theorem ends_closeErrno (fd : ℕ) (e : Errno) : Ends (closeErrno fd e) := by
  refine ends_sys_bind fun r => ?_
  cases r <;> exact .ret _

theorem ends_openArg {command name : Bytes} {k : ℕ → ShellProg ℤ} (hk : ∀ fd, Ends (k fd)) :
    Ends (openArg L command state name k) := by
  unfold openArg
  split
  · exact ends_shellError _ _ _
  · refine ends_sys_bind fun r => ?_
    cases r with
    | error e => exact ends_shellError _ _ _
    | ok fd => exact hk fd

/-! ### Commands that read a file -/

/-- How many bytes are left to read. -/
def left (fd : ℕ) (w : ShellSystem × ℕ) : ℕ := (w.1.disk.unread fd).length

theorem left_of_kept {w w' : ShellSystem × ℕ} (h : Kept w w') : left fd w' = left fd w := by
  unfold left
  rw [h.1]

theorem eq_of_read_error {v v' : ShellSystem} {e : Errno}
    (h : systemCalls (.read fd len) v (.error e) v') : v' = v := by
  obtain ⟨⟨-, hdisk⟩ | ⟨_, _, _, _, _, _, hr, -⟩, hstreams⟩ := h
  · obtain ⟨disk, streams⟩ := v'
    cases hdisk
    cases hstreams
    rfl
  · cases hr

/-- A read returns some of what is left, or fails and does nothing. -/
theorem total_read {f : Except Errno { data : Bytes // data.length ≤ len } → ShellProg α}
    {Q : α → ShellSystem × ℕ → Prop}
    (herror : ∀ e w', w'.1 = w.1 → Spent (e = .eintr) w.2 w'.2 →
      Prog.Total shellRuns Q (f (.error e)) w')
    (hok : ∀ data w', left fd w = data.1.length + left fd w' → w'.2 = w.2 →
      Prog.Total shellRuns Q (f (.ok data)) w') :
    Prog.Total shellRuns Q ((sys (.read fd len)).bind f) w := by
  refine total_sys ?_
  rintro (e | data) ⟨v, n⟩ ⟨hc, hspent⟩
  · refine herror e (v, n) (eq_of_read_error hc) ?_
    simpa only [ShellCall.Interrupted, Except.error.injEq] using hspent
  · refine hok data (v, n) ?_ ?_
    · unfold left
      rw [unread_read hc, List.length_append]
    · rcases hspent with ⟨hintr, -⟩ | ⟨-, hsame⟩
      · cases hintr
      · exact hsame

/-- The end of a loop over a file. -/
theorem ends_closing {w' : ShellSystem × ℕ} {status : ShellProg ℤ} (hstatus : Ends status)
    (hw : Fewer w w') {P : σ → ShellSystem × ℕ → Prop} :
    Prog.Total shellRuns (fun x w'' => Fewer w w'' ∧ ∀ s, x = .inl s → P s w'') (closing fd status)
      w' := by
  refine total_sys fun r w₁ h₁ => (hstatus w₁).bind fun a w₂ h₂ => .ret ⟨?_, nofun⟩
  exact trans_of Fewer hw (trans_of Fewer h₁.2.le h₂)

/-- The measure of the loops over a file. -/
def toRead (fd : ℕ) (w : ShellSystem × ℕ) : ℕ := left fd w + w.2

/-- The end of a round that has read something and printed. -/
theorem ends_round {w' w'' : ShellSystem × ℕ} {n : ℕ} (hn : n ≠ 0)
    (hleft : left fd w = n + left fd w') (hsame : w'.2 = w.2) (hkept : Kept w' w'') (s : σ) :
    Prog.Total shellRuns (fun x v => Fewer w v ∧ ∀ s, x = .inl s → toRead fd v < toRead fd w)
      (pure (.inl s) : ShellProg (σ ⊕ ℤ)) w'' := by
  have hle : w''.2 ≤ w.2 := hkept.2.trans (Nat.le_of_eq hsame)
  refine .ret ⟨hle, fun _ _ => ?_⟩
  unfold toRead
  rw [left_of_kept hkept]
  omega

theorem ends_commandCat (name : Bytes) : Ends (commandCat L state name) := by
  refine ends_openArg fun fd => .iterate (fun _ w => toRead fd w) fun _ w => total_read ?_ ?_
  · exact fun e w' _ hspent => ends_closing (ends_shellError _ _ _) hspent.le
  · intro data w' hleft hsame
    have hw : Fewer w w' := Nat.le_of_eq hsame
    dsimp only
    split
    · exact ends_closing (.ret 0) hw
    · next hdata =>
      refine (quiet_writeAll data.1).total_bind fun r w₂ hkept => ?_
      split
      · exact ends_closing (.ret (-1)) (trans_of Fewer hw hkept.2)
      · exact ends_round (mt List.length_eq_zero_iff.1 hdata) hleft hsame hkept _

theorem ends_commandHead (name : Bytes) (lines : ℕ) : Ends (commandHead L state name lines) := by
  refine ends_openArg fun fd => .iterate (fun _ w => toRead fd w) fun lines w => ?_
  unfold headBody
  split
  · exact ends_closing (.ret 0) (refl w)
  refine total_read ?_ ?_
  · exact fun e w' _ hspent => ends_closing (.ret 0) hspent.le
  · intro data w' hleft hsame
    have hw : Fewer w w' := Nat.le_of_eq hsame
    dsimp only
    split
    · exact ends_closing (.ret 0) hw
    · next hdata =>
      refine (quiet_writeAll _).total_bind fun r w₂ hkept => ?_
      split
      · exact ends_closing (.ret (-1)) (trans_of Fewer hw hkept.2)
      · exact ends_round (mt List.length_eq_zero_iff.1 hdata) hleft hsame hkept _

theorem ends_commandTail (name : Bytes) (lines : ℕ) : Ends (commandTail L state name lines) := by
  refine ends_openArg fun fd => ends_sys_bind fun r => ?_
  cases r with
  | error e => exact ends_sys_bind fun _ => ends_shellError _ _ _
  | ok st =>
    refine .ite (ends_sys_bind fun _ => ends_shellError _ _ _) ?_
    refine ends_sys_bind fun enough => .ite ?_ (ends_sys_bind fun _ => .ret (-1))
    refine ends_sys_bind fun r => ?_
    cases r with
    | error e => exact (ends_closeErrno fd e).bind fun e => ends_shellError _ _ _
    | ok data =>
      refine ends_sys_bind fun _ => (quiet_writeAll _).ends.bind fun r => ?_
      exact .ite (.ret (-1)) (.ret 0)

theorem ends_commandGrep (needle name : Bytes) : Ends (commandGrep L state needle name) := by
  refine ends_sys_bind fun enough => .ite ?_ (.ret (-1))
  refine ends_openArg fun fd => .iterate (fun _ w => toRead fd w) ?_
  rintro ⟨line, matched⟩ w
  refine total_read ?_ ?_
  · exact fun e w' _ hspent => ends_closing (ends_shellError _ _ _) hspent.le
  · rintro ⟨_ | ⟨byte, bytes⟩, hlen⟩ w' hleft hsame
    · have hw : Fewer w w' := Nat.le_of_eq hsame
      dsimp only
      split
      · refine (quiet_writeAll line).total_bind fun r w₂ hkept => ?_
        have hw₂ := trans_of Fewer hw hkept.2
        split
        · exact ends_closing (.ret (-1)) hw₂
        · refine (quiet_writeAll _).total_bind fun r w₃ hkept' => ?_
          have hw₃ := trans_of Fewer hw₂ hkept'.2
          split
          · exact ends_closing (.ret (-1)) hw₃
          · exact ends_closing (.ret 0) hw₃
      · exact ends_closing (.ret _) hw
    · have hw : Fewer w w' := Nat.le_of_eq hsame
      have hone : (byte :: bytes).length ≠ 0 := Nat.succ_ne_zero _
      dsimp only
      split
      · exact ends_closing (ends_shellError _ _ _) hw
      split
      · split
        · refine (quiet_writeAll _).total_bind fun r w₂ hkept => ?_
          split
          · exact ends_closing (.ret (-1)) (trans_of Fewer hw hkept.2)
          · exact ends_round hone hleft hsame hkept _
        · exact ends_round hone hleft hsame (refl w') _
      · exact ends_round hone hleft hsame (refl w') _

theorem quiet_hexBytes (data : Bytes) : Quiet (hexBytes data) := by
  induction data with
  | nil => exact .ret 0
  | cons c rest ih => exact (quiet_writeFmt _).bind fun r => .ite (.ret (-1)) ih

theorem ends_commandHexdump (name : Bytes) (limit : ℕ) :
    Ends (commandHexdump L state name limit) := by
  refine ends_openArg fun fd => .iterate (fun _ w => toRead fd w) fun offset w => ?_
  unfold hexdumpBody
  split
  · refine total_read ?_ ?_
    · intro e w' hsame hspent
      split
      · next heq =>
        cases heq
        refine .ret ⟨hspent.le, fun _ _ => ?_⟩
        have hlt := hspent.lt rfl
        unfold toRead left
        rw [hsame]
        omega
      · exact ends_closing (ends_shellError _ _ _) hspent.le
      · next heq => cases heq
    · intro data w' hleft hsame
      have hw : Fewer w w' := Nat.le_of_eq hsame
      dsimp only
      split
      · exact ends_closing (.ret 0) hw
      next hdata =>
      refine (quiet_writeFmt _).total_bind fun r w₂ hkept => ?_
      have hw₂ := trans_of Fewer hw hkept.2
      split
      · exact ends_closing (.ret (-1)) hw₂
      refine (quiet_hexBytes data.1).total_bind fun r w₃ hkept₃ => ?_
      have hw₃ := trans_of Fewer hw₂ hkept₃.2
      split
      · exact ends_closing (.ret (-1)) hw₃
      refine (quiet_writeAll _).total_bind fun r w₄ hkept₄ => ?_
      have hw₄ := trans_of Fewer hw₃ hkept₄.2
      split
      · exact ends_closing (.ret (-1)) hw₄
      · have hrow := trans_of Kept hkept (trans_of Kept hkept₃ hkept₄)
        exact ends_round (mt List.length_eq_zero_iff.1 hdata) hleft hsame hrow _
  · exact ends_closing (.ret 0) (refl w)

/-! ### Commands that read a directory -/

/-- How many names are left in the directory stream. -/
def namesLeft (d : ℕ) (w : ShellSystem × ℕ) : ℕ := ((w.1.streams d).getD []).length

/-- The directory streams that are open still are, at the same place. -/
def Keeps (w w' : ShellSystem × ℕ) : Prop :=
  w'.2 ≤ w.2 ∧ ∀ d names, w.1.streams d = some names → w'.1.streams d = some names

/-- All but one of them. -/
def KeepsOthers (d : ℕ) (w w' : ShellSystem × ℕ) : Prop :=
  w'.2 ≤ w.2 ∧ ∀ d' names, d' ≠ d → w.1.streams d' = some names → w'.1.streams d' = some names

instance : IsPreorder (ShellSystem × ℕ) Keeps where
  refl _ := ⟨Nat.le_refl _, fun _ _ => id⟩
  trans _ _ _ h h' := ⟨h'.1.trans h.1, fun d names hd => h'.2 d names (h.2 d names hd)⟩

instance (d : ℕ) : IsPreorder (ShellSystem × ℕ) (KeepsOthers d) where
  refl _ := ⟨Nat.le_refl _, fun _ _ _ => id⟩
  trans _ _ _ h h' :=
    ⟨h'.1.trans h.1, fun d' names hne hd => h'.2 d' names hne (h.2 d' names hne hd)⟩

theorem Kept.keeps {w w' : ShellSystem × ℕ} (h : Kept w w') : Keeps w w' := by
  refine ⟨h.2, fun d names hd => ?_⟩
  rw [h.1]
  exact hd

theorem Keeps.others {w w' : ShellSystem × ℕ} (h : Keeps w w') (d : ℕ) : KeepsOthers d w w' :=
  ⟨h.1, fun d' names _ => h.2 d' names⟩

/-- `readdir` takes a name out of its stream and leaves the others alone. -/
theorem total_readdir {d : ℕ} {f : Option Bytes → ShellProg α} {Q : α → ShellSystem × ℕ → Prop}
    (hnone : ∀ w', KeepsOthers d w w' → Prog.Total shellRuns Q (f none) w')
    (hsome : ∀ name rest w', w.1.streams d = some (name :: rest) → w'.1.streams d = some rest →
      KeepsOthers d w w' → Prog.Total shellRuns Q (f (some name)) w') :
    Prog.Total shellRuns Q ((sys (.readdir d)).bind f) w := by
  refine total_sys ?_
  rintro r ⟨v, n⟩ ⟨⟨rfl, rfl⟩, hspent⟩
  have hothers : KeepsOthers d w ({ w.1 with
      streams := Function.update w.1.streams d ((w.1.streams d).map List.tail) }, n) := by
    refine ⟨hspent.le, fun d' names hne hd => ?_⟩
    dsimp only
    rw [Function.update_of_ne hne, hd]
  rcases hd : w.1.streams d with _ | _ | ⟨name, rest⟩
  · exact hnone _ (by rwa [hd] at hothers)
  · exact hnone _ (by rwa [hd] at hothers)
  · rw [hd] at hothers
    refine hsome name rest _ hd ?_ hothers
    exact Function.update_self _ _ _

theorem quiet_alloc (size : ℕ) : Quiet (sys (.alloc size)) :=
  fun w => .call (exists_shellRuns _ w) fun _ _ h => .ret ⟨h.1, h.2.le⟩

theorem ends_lsRead (showHidden : Bool) (d : ℕ) :
    Ends (Prog.iterate (lsReadBody showHidden d) ([], 0)) := by
  refine .iterate (fun _ w => namesLeft d w) ?_
  rintro ⟨entries, capacity⟩ w
  refine total_readdir (fun w' hothers => .ret ⟨hothers.1, nofun⟩) ?_
  intro name rest w' hd hd' hothers
  have hround {p : ShellProg ((List Bytes × ℕ) ⊕ (List Bytes × Bool))} (hp : Quiet p) :
      Prog.Total shellRuns (fun x w'' => Fewer w w'' ∧
        ∀ s, x = .inl s → namesLeft d w'' < namesLeft d w) p w' := by
    refine (hp w').mono fun x w'' hkept => ⟨hkept.2.trans hothers.1, fun _ _ => ?_⟩
    unfold namesLeft
    rw [hkept.1, hd, hd']
    exact Nat.lt_succ_self _
  refine hround ?_
  have hstrdup (capacity : ℕ) : Quiet ((sys (.alloc (name.length + 1))).bind fun enough =>
      if enough = true then pure (.inl (entries ++ [name], capacity))
      else pure (.inr (entries, false)) : ShellProg ((List Bytes × ℕ) ⊕ (List Bytes × Bool))) :=
    (quiet_alloc _).bind fun enough => .ite (.ret _) (.ret _)
  dsimp only
  split
  · exact .ret _
  split
  · exact (quiet_alloc _).bind fun grown => .ite (.ret _) (hstrdup _)
  · exact hstrdup _

theorem ends_lsPrint (path : Bytes) (longFormat : Bool) (names : List Bytes) :
    Ends (lsPrint path longFormat names) := by
  induction names with
  | nil => exact .ret 0
  | cons name names ih =>
    unfold lsPrint
    split
    · exact .ret (-1)
    · refine ends_sys_bind fun r => ?_
      have hline (line : Bytes) : Ends ((writeFmt line).bind fun r =>
          if r ≠ 0 then pure (-1) else lsPrint path longFormat names) :=
        (quiet_writeFmt _).ends.bind fun r => .ite (.ret (-1)) ih
      cases r <;> cases longFormat
      · exact hline _
      · exact ends_sys_bind fun again => hline _
      · exact hline _
      · exact ends_sys_bind fun again => hline _

theorem ends_commandLs (args : List Bytes) : Ends (commandLs L state args) := by
  unfold commandLs
  split
  · exact (quiet_writeFmt _).ends.bind fun r => .ite (.ret 1) (.ret (-1))
  · split
    · exact ends_shellError _ _ _
    · refine ends_sys_bind fun r => ?_
      cases r with
      | error e => exact ends_shellError _ _ _
      | ok directory =>
        refine (ends_lsRead _ _).bind ?_
        rintro ⟨entries, enough⟩
        cases enough with
        | false => exact ends_sys_bind fun _ => .ret (-1)
        | true => exact (ends_lsPrint _ _ _).bind fun result => ends_sys_bind fun _ => .ret result

/-- What `find` does to the streams that are open. -/
abbrev Visit (p : ShellProg ℤ) : Prop := Prog.Ends shellRuns Keeps p

theorem visit_of_quiet {p : ShellProg α} (h : Quiet p) : Prog.Ends shellRuns Keeps p :=
  h.mono fun _ _ => Kept.keeps

/-- The loop over a directory, with its stream. -/
theorem ends_findLoop {visit : Bytes → ShellProg ℤ} (hvisit : ∀ child, Visit (visit child))
    (path : Bytes) (d : ℕ) :
    Prog.Ends shellRuns (KeepsOthers d) (Prog.iterate (findBody visit path d) ()) := by
  refine .iterate (fun _ w => namesLeft d w) fun _ w => ?_
  -- the loop is left through `closedir`
  have hleave {w' : ShellSystem × ℕ} (hw : KeepsOthers d w w') (status : ℤ) :
      Prog.Total shellRuns (fun x w'' => KeepsOthers d w w'' ∧
        ∀ s, x = .inl s → namesLeft d w'' < namesLeft d w)
        ((sys (.closedir d)).bind fun _ => .ret (.inr status) : ShellProg (Unit ⊕ ℤ)) w' := by
    refine total_sys ?_
    rintro r ⟨v, n⟩ ⟨rfl, hspent⟩
    refine .ret ⟨trans_of (KeepsOthers d) hw ⟨hspent.le, fun d' names hne hd => ?_⟩, nofun⟩
    dsimp only
    rw [Function.update_of_ne hne, hd]
  refine total_readdir (fun w' hothers => hleave hothers 0) ?_
  intro name rest w' hd hd' hothers
  have hlt {w'' : ShellSystem × ℕ} (hkeeps : Keeps w' w'') : namesLeft d w'' < namesLeft d w := by
    unfold namesLeft
    rw [hkeeps.2 d rest hd', hd]
    exact Nat.lt_succ_self _
  dsimp only
  split
  · exact .ret ⟨hothers, fun _ _ => hlt (refl w')⟩
  split
  · exact hleave hothers (-1)
  · refine (hvisit _).total_bind fun result w'' hkeeps => ?_
    have hw := trans_of (KeepsOthers d) hothers (hkeeps.others d)
    split
    · exact hleave hw result
    · exact .ret ⟨hw, fun _ _ => hlt hkeeps⟩

/-- `opendir` opens a stream that was not open, or fails. -/
theorem total_opendir {path : Bytes} {f : Except Errno ℕ → ShellProg α}
    {Q : α → ShellSystem × ℕ → Prop}
    (herror : ∀ e w', Keeps w w' → Prog.Total shellRuns Q (f (.error e)) w')
    (hok : ∀ d w', w.1.streams d = none → Keeps w w' → Prog.Total shellRuns Q (f (.ok d)) w') :
    Prog.Total shellRuns Q ((sys (.opendir path)).bind f) w := by
  refine total_sys ?_
  rintro r ⟨v, n⟩ ⟨⟨⟨e, rfl⟩, rfl⟩ | ⟨i, entries, names, d, -, -, -, -, hd, rfl, rfl⟩, hspent⟩
  · exact herror e _ ⟨hspent.le, fun _ _ => id⟩
  · refine hok d _ hd ⟨hspent.le, fun d' names hd' => ?_⟩
    have hne : d' ≠ d := by
      rintro rfl
      rw [hd] at hd'
      cases hd'
    dsimp only
    rw [Function.update_of_ne hne, hd']

theorem visit_commandFindPath (levels : ℕ) (path : Bytes) :
    Visit (commandFindPath L levels path) := by
  have hstat (path : Bytes) {f : Except Errno StatBuf → ShellProg ℤ} (hf : ∀ r, Visit (f r)) :
      Visit ((sys (.stat path)).bind f) := by
    refine .perform_bind (exists_shellRuns _) (fun w r w' h => ?_) hf
    exact Kept.keeps ⟨h.1.1, h.2.le⟩
  induction levels generalizing path with
  | zero =>
    unfold commandFindPath
    refine hstat path fun r => ?_
    cases r with
    | error e => exact visit_of_quiet (quiet_shellError _ _ _)
    | ok st =>
      refine (visit_of_quiet (quiet_writeFmt _)).bind fun r => .ite (.ret (-1)) ?_
      exact .ite (.ret 0) (.ret 0)
  | succ levels ih =>
    unfold commandFindPath
    refine hstat path fun r => ?_
    cases r with
    | error e => exact visit_of_quiet (quiet_shellError _ _ _)
    | ok st =>
      refine (visit_of_quiet (quiet_writeFmt _)).bind fun r => .ite (.ret (-1)) (.ite (.ret 0) ?_)
      refine fun w => total_opendir (fun e w' hkeeps => ?_) fun d w' hd hkeeps => ?_
      · exact (visit_of_quiet (quiet_shellError _ _ _) w').mono fun _ _ => trans_of Keeps hkeeps
      · -- the stream of this directory was not open before, so the others are all there were
        refine (ends_findLoop (fun child => ih child) path d w').mono fun status w'' hothers => ?_
        refine ⟨hothers.1.trans hkeeps.1, fun d' names hd' => ?_⟩
        have hne : d' ≠ d := by
          rintro rfl
          rw [hd] at hd'
          cases hd'
        exact hothers.2 d' names hne (hkeeps.2 d' names hd')

/-! ### Commands that change the file system -/

/-- The inner loop of `copy_file` leaves its source as it is. -/
theorem total_copyWrite {input output : ℕ} (hapart : TwoFiles input output w.1) (data : Bytes)
    (errno : Errno) : Prog.Total shellRuns
      (fun r w' => Fewer w w' ∧
        ∀ e, r = .ok e → TwoFiles input output w'.1 ∧ left input w' = left input w)
      (Prog.iterate (copyWriteBody input output) (data, errno)) w := by
  refine .iterate
    (fun _ w' => Fewer w w' ∧ TwoFiles input output w'.1 ∧ left input w' = left input w)
    (fun s w' => s.1.length + w'.2) ⟨refl w, hapart, rfl⟩ ?_
  rintro ⟨rest, errno⟩ w₁ ⟨hw, hapart₁, hleft⟩
  unfold copyWriteBody
  dsimp only
  split
  · exact .ret ⟨hw, fun _ _ => ⟨hapart₁, hleft⟩⟩
  next hrest =>
  refine total_sys fun r w₂ h => ?_
  have hw₂ := trans_of Fewer hw h.2.le
  obtain ⟨hapart₂, hunread⟩ := twoFiles_write h.1 hapart₁
  have hleft₂ : left input w₂ = left input w := (congrArg List.length hunread).trans hleft
  -- after a failure both descriptors are closed, and the loop is left
  have hfail (e : Errno) : Prog.Total shellRuns (fun x w' => Sum.elim
      (fun s' => (Fewer w w' ∧ TwoFiles input output w'.1 ∧ left input w' = left input w) ∧
        s'.1.length + w'.2 < rest.length + w₁.2)
      (fun b => Fewer w w' ∧
        ∀ e, b = .ok e → TwoFiles input output w'.1 ∧ left input w' = left input w)
      x) ((closeErrno input e).bind fun e => (closeErrno output e).bind fun e =>
        .ret (.inr (.error e)) : ShellProg ((Bytes × Errno) ⊕ Except Errno Errno)) w₂ := by
    refine (ends_closeErrno input e).total_bind fun e w₃ h₃ => ?_
    refine (ends_closeErrno output e).total_bind fun e w₄ h₄ => .ret ⟨?_, nofun⟩
    exact trans_of Fewer hw₂ (trans_of Fewer h₃ h₄)
  split
  · refine .ret ⟨⟨hw₂, hapart₂, hleft₂⟩, ?_⟩
    exact Nat.add_lt_add_left (h.2.lt rfl) _
  · exact hfail _
  · exact hfail _
  · next written hwritten =>
    refine .ret ⟨⟨hw₂, hapart₂, hleft₂⟩, ?_⟩
    have hne : written ≠ 0 := by
      rintro rfl
      exact hwritten rfl
    have hpos := List.length_pos_iff.2 hrest
    have hle := h.2.le
    rw [List.length_drop]
    omega

theorem ends_copyEnd (input output : ℕ) (got : Except Errno Unit) :
    Ends (copyEnd input output got) := by
  refine ends_sys_bind fun r => ?_
  cases r with
  | error e => exact .ret _
  | ok _ =>
    refine ends_sys_bind fun r => ?_
    cases r <;> exact .ret _

/-- The loops of `copy_file`, when the destination is not the source or there is nothing left to
read of the source. -/
theorem total_copyLoop {input output : ℕ} (hcopy : TwoFiles input output w.1 ∨ left input w = 0)
    (errno : Errno) :
    Prog.Total shellRuns (fun _ w' => Fewer w w') (Prog.iterate (copyBody input output) errno)
      w := by
  refine .iterate (fun _ w' => Fewer w w' ∧ (TwoFiles input output w'.1 ∨ left input w' = 0))
    (fun _ w' => left input w') ⟨refl w, hcopy⟩ ?_
  rintro errno w₁ ⟨hw, hcopy₁⟩
  have hend {w₂ : ShellSystem × ℕ} (hw₂ : Fewer w w₂) (got : Except Errno Unit) :
      Prog.Total shellRuns (fun x w' => Sum.elim
        (fun _ => (Fewer w w' ∧ (TwoFiles input output w'.1 ∨ left input w' = 0)) ∧
          left input w' < left input w₁) (fun _ => Fewer w w') x)
        ((copyEnd input output got).bind fun r => .ret (.inr r) :
          ShellProg (Errno ⊕ Except Errno Unit)) w₂ :=
    (ends_copyEnd input output got).total_bind fun r w₃ h₃ => .ret (trans_of Fewer hw₂ h₃)
  refine total_sys ?_
  rintro (e | data) w₂ h
  · exact hend (trans_of Fewer hw h.2.le) _
  have hw₂ := trans_of Fewer hw h.2.le
  dsimp only
  split
  · exact hend hw₂ _
  next hdata =>
  have hpos := List.length_pos_iff.2 hdata
  have hread : left input w₁ = data.1.length + left input w₂ := by
    unfold left
    rw [unread_read h.1, List.length_append]
  have hapart₁ : TwoFiles input output w₁.1 := hcopy₁.resolve_right (by omega)
  refine (total_copyWrite (twoFiles_read h.1 hapart₁) data.1 errno).bind ?_
  rintro (e | errno') w₃ ⟨hw₃, hkeep⟩
  · exact .ret (trans_of Fewer hw₂ hw₃)
  · obtain ⟨hapart₃, hleft⟩ := hkeep errno' rfl
    refine .ret ⟨⟨trans_of Fewer hw₂ hw₃, .inl hapart₃⟩, ?_⟩
    rw [hleft, hread]
    omega

theorem ends_copyFile (errno : Errno) (source destination : Bytes) :
    Ends (copyFile errno source destination) := by
  refine fun w => total_sys ?_
  rintro (e | input) w₁ h₁
  · exact .ret h₁.2.le
  obtain ⟨i, hinput⟩ := open_rdonly h₁.1
  refine total_sys ?_
  rintro (e | st) w₂ h₂
  · refine total_sys fun r w₃ h₃ => .ret ?_
    exact trans_of Fewer h₁.2.le (trans_of Fewer h₂.2.le h₃.2.le)
  have hw₂ := trans_of Fewer h₁.2.le h₂.2.le
  dsimp only
  split
  · exact total_sys fun r w₃ h₃ => .ret (trans_of Fewer hw₂ h₃.2.le)
  have hinput₂ : w₂.1.disk.fds.owner input = some ⟨i, 0, false⟩ := by
    rw [h₂.1.1.1]
    exact hinput
  refine total_sys ?_
  rintro (e | output) w₃ h₃
  · refine (ends_closeErrno input e).total_bind fun e w₄ h₄ => .ret ?_
    exact trans_of Fewer hw₂ (trans_of Fewer h₃.2.le h₄)
  · have hcopy : TwoFiles input output w₃.1 ∨ left input w₃ = 0 :=
      (open_truncate h₃.1 hinput₂).imp_right List.length_eq_zero_iff.2
    refine (total_copyLoop hcopy errno).mono fun _ w₄ h₄ => ?_
    exact trans_of Fewer hw₂ (trans_of Fewer h₃.2.le h₄)

theorem ends_copyOrMove (command source target : Bytes) :
    Ends (copyOrMove L errno state command source target) := by
  unfold copyOrMove
  split
  · refine .ite ?_ (ends_sys_bind fun r => ends_orError _ _ _)
    exact (ends_copyFile _ _ _).bind fun r => ends_orError _ _ _
  · exact ends_shellError _ _ _

theorem ends_touch (name : Bytes) : Ends (touch L state name) := by
  unfold touch
  split
  · exact ends_shellError _ _ _
  · refine ends_sys_bind fun r => ?_
    cases r with
    | error e => exact ends_shellError _ _ _
    | ok fd => exact ends_sys_bind fun _ => ends_orError _ _ _

theorem ends_makeOrRemove {command name : Bytes} {act : Bytes → ShellProg (Except Errno Unit)}
    (hact : ∀ path, Ends (act path)) : Ends (makeOrRemove L command act state name) := by
  unfold makeOrRemove
  split
  · exact ends_shellError _ _ _
  · exact (hact _).bind fun _ => ends_orError _ _ _

theorem ends_sys (c : ShellCall) : Ends (sys c) :=
  fun w => .call (exists_shellRuns c w) fun _ _ h => .ret h.2.le

theorem ends_remove (name : Bytes) : Ends (remove L errno state name) := by
  unfold remove
  split
  · exact ends_shellError _ _ _
  · refine .ite (ends_shellError _ _ _) (ends_sys_bind fun r => ?_)
    cases r with
    | error e => exact ends_shellError _ _ _
    | ok _ => exact .ret 0

theorem ends_changeMode (mode name : Bytes) : Ends (changeMode L errno state mode name) := by
  unfold changeMode
  dsimp only
  -- the mode is a number, or there is no number
  split <;> refine .ite ?_ (ends_shellError _ _ _)
  all_goals
    split
    · exact ends_shellError _ _ _
    · refine ends_sys_bind fun r => ?_
      cases r with
      | error e => exact ends_shellError _ _ _
      | ok _ => exact .ret 0

theorem ends_commandStat (name : Bytes) : Ends (commandStat L state name) := by
  unfold commandStat
  split
  · exact ends_shellError _ _ _
  · refine ends_sys_bind fun r => ?_
    cases r with
    | error e => exact ends_shellError _ _ _
    | ok st => exact (quiet_writeFmt _).ends.bind fun r => .ite (.ret 0) (.ret (-1))

/-! ### Every command -/

theorem ends_command (argv : List Bytes) : Ends (command L errno state argv) := by
  unfold command
  refine .ite ((quiet_writeFmt _).ends.bind fun r => .ite (.ret 0) (.ret (-1))) ?_
  refine .ite (ends_commandLs _) ?_
  refine .ite (ends_commandCat _) ?_
  refine .ite (ends_elim fun _ => ends_commandHead _ _) ?_
  refine .ite (ends_elim fun _ => ends_commandTail _ _) ?_
  refine .ite (ends_makeOrRemove fun path => ends_sys (.mkdir path 0o755)) ?_
  refine .ite (ends_makeOrRemove fun path => ends_sys (.rmdir path)) ?_
  refine .ite (ends_touch _) ?_
  refine .ite (ends_remove _) ?_
  refine .ite (ends_copyOrMove _ _ _) ?_
  refine .ite (ends_changeMode _ _) ?_
  refine .ite (ends_commandGrep _ _) ?_
  refine .ite (ends_elim fun _ => ends_commandHexdump _ _) ?_
  refine .ite ?_ (.ite (ends_commandStat _) (ends_invalid _))
  dsimp only
  split
  · exact ends_shellError _ _ _
  · exact (visit_commandFindPath _ _).mono fun _ _ => And.left

theorem ends_changeDirectory (name : Bytes) : Ends (changeDirectory L state name) := by
  have herror (e : Errno) : Ends ((shellError L (ascii "cd") name e).bind fun status =>
      .ret (status, state)) := (ends_shellError _ _ _).bind fun _ => .ret _
  unfold changeDirectory
  split
  · exact herror _
  · refine ends_sys_bind fun r => ?_
    cases r with
    | error e => exact herror e
    | ok st => exact .ite (.ret _) (herror _)

/-- **Executing a command line** takes finitely many steps, whatever the system and the writer
answer. -/
theorem ends_ps4ShellExecute (line : Bytes) : Ends (ps4ShellExecute L errno state line) := by
  unfold ps4ShellExecute
  split
  · exact (ends_shellError _ _ _).bind fun _ => .ret _
  · exact .ret _
  · exact .ite (ends_changeDirectory _) ((ends_command _).bind fun _ => .ret _)

end ShellProg

end Ps4Dropbear
