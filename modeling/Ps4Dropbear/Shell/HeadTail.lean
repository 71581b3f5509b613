import Ps4Dropbear.Prog.Total
import Ps4Dropbear.Shell.Session
import Ps4Dropbear.Text.Lines

/-!
# `head` and `tail`

`command_head` counts newlines from the front, across as many reads as it takes.  `command_tail`
reads the file at once and counts newlines from the back.

* `servesFile` : a system with one file, which it returns in pieces of any size.
* `headCut_append` : the count that `head` carries from one piece to the next.
* `lastLines_eq_drop` : where `tail` starts.

**Main results**: `head` prints the first lines (`head_prints`), and `tail` the last ones, unless it
is asked for none of a file that is not empty (`tail_prints_iff`).
-/

namespace Ps4Dropbear

/-- A system with a file of this content under the path.  The world is how much of it has been
read; a read returns some of the rest, all that was asked for when `whole` is set, and nothing only
at the end of the file. -/
def servesFile (whole : Bool) (path content : Bytes) : (c : ShellCall) → ℕ → c.Answer → ℕ → Prop
  | .openFile p .rdonly _, _, r, w' => p = path ∧ (∃ fd, r = .ok fd) ∧ w' = 0
  | .fstat _, w, r, w' => (∃ st, r = .ok st ∧ st.size = content.length) ∧ w' = w
  | .alloc _, w, r, w' => r = true ∧ w' = w
  | .read _ len, w, r, w' => ∃ data, r = .ok data ∧ data.1 <+: content.drop w ∧
      (data.1 = [] → len = 0 ∨ content.drop w = []) ∧
      (whole → data.1 = (content.drop w).take len) ∧ w' = w + data.1.length
  | .close _, w, _, w' => w' = w
  | _, _, _, _ => False

section Serves

variable {whole : Bool} {path content : Bytes} {w : ℕ}

/-- A read has an answer. -/
theorem exists_read (fd len : ℕ) : ∃ r w', servesFile whole path content (.read fd len) w r w' := by
  refine ⟨.ok ⟨(content.drop w).take len, List.length_take_le _ _⟩, _, _, rfl, List.take_prefix _ _,
    ?_, fun _ => rfl, rfl⟩
  intro h
  exact List.take_eq_nil_iff.1 h

end Serves

namespace ShellProg

variable {L : Libc} {errno : Errno} {state : ShellState} {α W : Type}
variable {H : (c : ShellCall) → W → c.Answer → W → Prop} {w : W} {out : Bytes}

/-- `write_all` to a writer that takes everything. -/
theorem total_writeAll {data : Bytes} {f : ℤ → ShellProg α} {Q : α → W × Bytes → Prop}
    (hf : Prog.Total (WriterProg.Writes WriterProg.keepAll H) Q (f 0) (w, out ++ data)) :
    Prog.Total (WriterProg.Writes WriterProg.keepAll H) Q ((writeAll data).bind f) (w, out) := by
  unfold writeAll
  split
  · next hempty =>
    rw [hempty, List.append_nil] at hf
    exact hf
  · change Prog.Total _ _ ((WriterProg.emit data).bind fun ok =>
      (if ok = true then pure 0 else pure (-1) : ShellProg ℤ).bind f) _
    exact WriterProg.total_emit hf

/-- `write_fmt` of a text that fits, to a writer that takes everything. -/
theorem total_writeFmt {text : Bytes} {f : ℤ → ShellProg α} {Q : α → W × Bytes → Prop}
    (hlen : text.length ≤ 2047)
    (hf : Prog.Total (WriterProg.Writes WriterProg.keepAll H) Q (f 0) (w, out ++ text)) :
    Prog.Total (WriterProg.Writes WriterProg.keepAll H) Q ((writeFmt text).bind f) (w, out) := by
  unfold writeFmt
  rw [List.take_of_length_le hlen]
  exact total_writeAll hf

/-- The program behind `openArg`, when the file can be opened. -/
theorem total_openArg {whole : Bool} {command name path content : Bytes} {k : ℕ → ShellProg ℤ}
    {w : ℕ} {Q : ℤ → ℕ × Bytes → Prop} (hpath : resolveArg state name = some path)
    (hk : ∀ fd, Prog.Total (WriterProg.Writes WriterProg.keepAll (servesFile whole path content)) Q
      (k fd) (0, out)) :
    Prog.Total (WriterProg.Writes WriterProg.keepAll (servesFile whole path content)) Q
      (openArg L command state name k) (w, out) := by
  unfold openArg
  rw [hpath]
  refine WriterProg.total_loc ⟨.ok 0, 0, rfl, ⟨0, rfl⟩, rfl⟩ ?_
  rintro r w' ⟨-, ⟨fd, rfl⟩, rfl⟩
  exact hk fd

/-- `close` at the end of a loop. -/
theorem total_closing {whole : Bool} {path content : Bytes} {w fd : ℕ} {σ : Type} {status : ℤ}
    {Q : σ ⊕ ℤ → ℕ × Bytes → Prop} (hQ : Q (.inr status) (w, out)) :
    Prog.Total (WriterProg.Writes WriterProg.keepAll (servesFile whole path content)) Q
      (closing fd (pure status)) (w, out) := by
  unfold closing
  refine WriterProg.total_loc ⟨.ok (), w, rfl⟩ ?_
  rintro r w' rfl
  exact .ret hQ

/-! ### `head` -/

/-- **From one piece to the next**: what is printed of a piece, and the lines left after it. -/
theorem headCut_append (n : ℕ) (chunk rest : Bytes) :
    chunk.take (headCut (n + 1) chunk).1 ++ firstLines 10 (headCut (n + 1) chunk).2 rest =
      firstLines 10 (n + 1) (chunk ++ rest) := by
  induction chunk generalizing n with
  | nil => rfl
  | cons c chunk ih =>
    rw [List.cons_append, firstLines_cons]
    by_cases hc : c = 10
    · cases n with
      | zero => simp [headCut, hc]
      | succ n =>
        have hnext := ih n
        simp only [headCut, hc, if_true, Nat.add_sub_cancel, Nat.add_one_ne_zero, if_false,
          List.take_succ_cons, List.cons_append]
        rw [hnext]
    · have hnext := ih n
      simp only [headCut, hc, if_false, List.take_succ_cons, List.cons_append]
      rw [hnext]

/-- The loop of `command_head`, on what is left of the file. -/
theorem total_headLoop {path content : Bytes} {fd n w : ℕ} (hw : w ≤ content.length) :
    Prog.Total (WriterProg.Writes WriterProg.keepAll (servesFile false path content))
      (fun status v => status = 0 ∧ v.2 = out ++ firstLines 10 n (content.drop w))
      (Prog.iterate (headBody fd) n) (w, out) := by
  -- what has been printed and what is still to be printed are together what should be printed
  refine Prog.Total.iterate (fun lines v => v.1 ≤ content.length ∧
    v.2 ++ firstLines 10 lines (content.drop v.1) = out ++ firstLines 10 n (content.drop w))
    (fun _ v => content.length - v.1) ⟨hw, rfl⟩ ?_
  rintro lines ⟨w₁, out₁⟩ ⟨hw₁, hinv⟩
  unfold headBody
  split
  · next hzero =>
    refine total_closing ⟨rfl, ?_⟩
    rw [hzero, firstLines_zero, List.append_nil] at hinv
    exact hinv
  · next hlines =>
    obtain ⟨n', rfl⟩ := Nat.exists_eq_succ_of_ne_zero hlines
    refine WriterProg.total_loc (exists_read fd 4096) ?_
    rintro r w₂ ⟨data, rfl, ⟨rest, hrest⟩, hend, -, rfl⟩
    dsimp only
    split
    · next hempty =>
      refine total_closing ⟨rfl, ?_⟩
      have hnil : content.drop w₁ = [] := (hend hempty).resolve_left (by decide)
      rw [hnil, firstLines_nil, List.append_nil] at hinv
      exact hinv
    · next hdata =>
      refine total_writeAll ?_
      rw [if_neg (by decide)]
      have hlen : w₁ + data.1.length + rest.length = content.length := by
        have := congrArg List.length hrest
        rw [List.length_append, List.length_drop] at this
        omega
      have hdrop : content.drop (w₁ + data.1.length) = rest := by
        rw [← List.drop_drop, ← hrest, List.drop_left]
      have hpos := List.length_pos_of_ne_nil hdata
      refine .ret ⟨⟨by dsimp only; omega, ?_⟩, by dsimp only; omega⟩
      dsimp only
      rw [hdrop, List.append_assoc, headCut_append, hrest]
      exact hinv

theorem total_commandHead {name path content : Bytes} {n w : ℕ}
    (hpath : resolveArg state name = some path) :
    Prog.Total (WriterProg.Writes WriterProg.keepAll (servesFile false path content))
      (fun status v => status = 0 ∧ v.2 = out ++ firstLines 10 n content)
      (commandHead L state name n) (w, out) :=
  total_openArg hpath fun _ => total_headLoop (Nat.zero_le _)

/-! ### `tail` -/

/-- **Where the last lines start.**  `s` has been looked at, and `p` is in front of it. -/
theorem tailScan_append (p s : Bytes) (hs : s ≠ []) (n : ℕ) :
    (p ++ s).drop (if (tailScan (p ++ s) p.length (n + 1)).2 > 0 then 0
      else (tailScan (p ++ s) p.length (n + 1)).1) =
      lastLines 10 (n + (linesOf 10 s).length) (p ++ s) := by
  induction p using List.reverseRecOn generalizing s n with
  | nil =>
    have hpos : (n : ℤ) + 1 > 0 := by omega
    rw [List.nil_append, lastLines_of_le (Nat.le_add_left _ _)]
    simp [tailScan, hpos]
  | append_singleton q x ih =>
    have hnext : (q ++ [x]) ++ s = q ++ x :: s := by simp
    have hlast : q.length + 1 ≠ (q ++ x :: s).length := by
      have := List.length_pos_of_ne_nil hs
      rw [List.length_append, List.length_cons]
      omega
    have hget : (q ++ x :: s)[q.length]? = some x := by simp
    have hlines := length_linesOf_cons (a := 10) (x := x) hs
    have hrest (m : ℕ) := ih (x :: s) (List.cons_ne_nil _ _) m
    rw [hnext, List.length_append, List.length_singleton]
    by_cases hx : x = 10
    · subst hx
      rw [if_pos rfl] at hlines
      cases n with
      | zero =>
        -- this newline is the last one to be counted
        have hscan : tailScan (q ++ 10 :: s) (q.length + 1) ((0 : ℕ) + 1) = (q.length + 1, 0) := by
          rw [tailScan, if_pos ⟨hget, hlast⟩, if_pos (by simp)]
        rw [hscan, lastLines_append (by simp)]
        simp [List.drop_append]
      | succ n =>
        have hscan : tailScan (q ++ 10 :: s) (q.length + 1) ((n + 1 : ℕ) + 1) =
            tailScan (q ++ 10 :: s) q.length (n + 1) := by
          have hleft : ((n + 1 : ℕ) : ℤ) + 1 - 1 = n + 1 := by omega
          have hmore : ¬ ((n : ℤ) + 1 = 0) := by omega
          rw [tailScan, if_pos ⟨hget, hlast⟩, hleft, if_neg hmore]
        rw [hscan, hrest n, hlines]
        congr 1
        omega
    · rw [if_neg hx] at hlines
      have hscan : tailScan (q ++ x :: s) (q.length + 1) (n + 1) =
          tailScan (q ++ x :: s) q.length (n + 1) := by
        rw [tailScan, hget, if_neg (by simp [hx])]
      rw [hscan, hrest n, hlines]
      rfl

/-- `tail` of at least one line starts where the last lines do. -/
theorem lastLines_eq_drop (data : Bytes) (n : ℕ) :
    data.drop (tailStart data (n + 1 : ℕ)) = lastLines 10 (n + 1) data := by
  rcases List.eq_nil_or_concat data with rfl | ⟨p, x, rfl⟩
  · simp [lastLines, linesOf]
  · rw [List.concat_eq_append]
    have hscan := tailScan_append p [x] (List.cons_ne_nil _ _) n
    have hfirst : tailScan (p ++ [x]) (p ++ [x]).length (n + 1 : ℕ) =
        tailScan (p ++ [x]) p.length (n + 1) := by
      rw [List.length_append, List.length_singleton, tailScan]
      simp
    have hone : (linesOf 10 [x]).length = 1 := by
      by_cases hx : x = 10 <;> simp [linesOf, hx]
    rw [hone] at hscan
    unfold tailStart
    rw [hfirst]
    exact hscan

/-- The count never comes to `0` again when it starts there. -/
theorem tailScan_of_nonpos (data : Bytes) (i : ℕ) {lines : ℤ} (h : lines ≤ 0) :
    (tailScan data i lines).1 = 0 ∧ (tailScan data i lines).2 ≤ 0 := by
  induction i generalizing lines with
  | zero => exact ⟨rfl, h⟩
  | succ i ih =>
    unfold tailScan
    split
    · rw [if_neg (by omega)]
      exact ih (by omega)
    · exact ih h

theorem tailStart_zero (data : Bytes) : tailStart data 0 = 0 := by
  obtain ⟨hstart, hleft⟩ := tailScan_of_nonpos data data.length (le_refl 0)
  unfold tailStart
  dsimp only
  rw [hstart, ite_self]

/-- What `command_tail` prints. -/
theorem total_commandTail {name path content : Bytes} {n w : ℕ}
    (hpath : resolveArg state name = some path) (hsize : content.length ≤ 16 * 1024 * 1024) :
    Prog.Total (WriterProg.Writes WriterProg.keepAll (servesFile true path content))
      (fun status v => status = 0 ∧ v.2 = out ++ content.drop (tailStart content n))
      (commandTail L state name n) (w, out) := by
  unfold commandTail
  refine total_openArg hpath fun fd => ?_
  refine WriterProg.total_loc ⟨.ok ⟨0, content.length, 0⟩, 0, ⟨_, rfl, rfl⟩, rfl⟩ ?_
  rintro r w₁ ⟨⟨st, rfl, hst⟩, rfl⟩
  dsimp only
  rw [if_neg (by omega)]
  refine WriterProg.total_loc ⟨true, 0, rfl, rfl⟩ ?_
  rintro r w₁ ⟨rfl, rfl⟩
  rw [if_pos rfl]
  refine WriterProg.total_loc (exists_read fd _) ?_
  rintro r w₁ ⟨data, rfl, -, -, hwhole, rfl⟩
  have hdata : data.1 = content := by
    rw [hwhole rfl, hst, List.drop_zero, Int.toNat_natCast, List.take_length]
  refine WriterProg.total_loc ⟨.ok (), _, rfl⟩ ?_
  rintro r w₂ rfl
  rw [hdata]
  refine total_writeAll ?_
  rw [if_neg (by decide)]
  exact .ret ⟨rfl, rfl⟩

/-! ### The command lines -/

/-- A line that splits and is no `cd` runs a command and leaves the state alone. -/
theorem ps4ShellExecute_of_split {line name : Bytes} {args : List Bytes}
    (hsplit : splitCommand line = some (name :: args)) (hcd : name ≠ ascii "cd") :
    ps4ShellExecute L errno state line =
      (command L errno state (name :: args)).bind fun status => .ret (status, state) := by
  have hargs : splitCommandErrno line = .ok (name :: args) := by
    rw [← toOption_eq_some, toOption_splitCommandErrno]
    exact hsplit
  unfold ps4ShellExecute
  rw [hargs]
  dsimp only
  rw [if_neg fun h => hcd h.1]
  rfl

theorem command_head {args : List Bytes} {n : ℕ} {name : Bytes}
    (h : parseLineCount (ascii "head" :: args) = some (n, name)) :
    command L errno state (ascii "head" :: args) = commandHead L state name n := by
  unfold command
  dsimp only [List.headD_cons]
  rw [if_other_name (by decide), if_neg (by decide),
    if_other_name (by decide), if_pos ⟨rfl, by rw [h]; rfl⟩, h]
  rfl

theorem command_tail {args : List Bytes} {n : ℕ} {name : Bytes}
    (h : parseLineCount (ascii "tail" :: args) = some (n, name)) :
    command L errno state (ascii "tail" :: args) = commandTail L state name n := by
  unfold command
  dsimp only [List.headD_cons]
  rw [if_other_name (by decide), if_neg (by decide),
    if_other_name (by decide), if_other_name (by decide),
    if_pos ⟨rfl, by rw [h]; rfl⟩, h]
  rfl

/-- The system has a file under the path that the name resolves to, and the line is run with a
writer that takes everything: it returns `status`, leaves the state alone and writes `text`. -/
def Answers (L : Libc) (errno : Errno) (state : ShellState) (line : Bytes) (whole : Bool)
    (path content : Bytes) (status : ℤ) (text : Bytes) : Prop :=
  ∀ w out, Prog.Total (WriterProg.Writes WriterProg.keepAll (servesFile whole path content))
    (fun r v => r = (status, state) ∧ v.2 = out ++ text) (ps4ShellExecute L errno state line) (w, out)

theorem answers_of_command {line name path content text : Bytes} {whole : Bool} {status : ℤ}
    {args : List Bytes} (hsplit : splitCommand line = some (name :: args)) (hcd : name ≠ ascii "cd")
    (h : ∀ w out, Prog.Total (WriterProg.Writes WriterProg.keepAll (servesFile whole path content))
      (fun r v => r = status ∧ v.2 = out ++ text) (command L errno state (name :: args))
      (w, out)) :
    Answers L errno state line whole path content status text := by
  intro w out
  rw [ps4ShellExecute_of_split hsplit hcd]
  refine (h w out).bind ?_
  rintro r v ⟨rfl, hv⟩
  exact .ret ⟨rfl, hv⟩

/-- The system has a file under the path that the name resolves to, and the line is run with a
writer that takes everything: it returns `0`, leaves the state alone and writes `text`. -/
def Prints (L : Libc) (errno : Errno) (state : ShellState) (line : Bytes) (whole : Bool)
    (path content text : Bytes) : Prop :=
  ∀ w out, Prog.Total (WriterProg.Writes WriterProg.keepAll (servesFile whole path content))
    (fun r v => r = (0, state) ∧ v.2 = out ++ text) (ps4ShellExecute L errno state line) (w, out)

theorem prints_of_command {line name path content text : Bytes} {whole : Bool} {args : List Bytes}
    (hsplit : splitCommand line = some (name :: args)) (hcd : name ≠ ascii "cd")
    (h : ∀ w out, Prog.Total (WriterProg.Writes WriterProg.keepAll (servesFile whole path content))
      (fun status v => status = 0 ∧ v.2 = out ++ text) (command L errno state (name :: args))
      (w, out)) :
    Prints L errno state line whole path content text :=
  answers_of_command hsplit hcd h

/-- What a line prints is determined. -/
theorem Prints.unique {line path content text text' : Bytes} {whole : Bool}
    (h : Prints L errno state line whole path content text)
    (h' : Prints L errno state line whole path content text') : text = text' := by
  obtain ⟨r, v, hrun, -, hv⟩ := (h 0 []).exists_eval
  obtain ⟨-, hv'⟩ := (h' 0 []).of_eval hrun
  rw [hv, List.nil_append, List.nil_append] at hv'
  exact hv'

theorem prints_tail {line name path content : Bytes} {args : List Bytes} {n : ℕ}
    (hsplit : splitCommand line = some (ascii "tail" :: args))
    (hcount : parseLineCount (ascii "tail" :: args) = some (n, name))
    (hpath : resolveArg state name = some path) (hsize : content.length ≤ 16 * 1024 * 1024) :
    Prints L errno state line true path content (content.drop (tailStart content n)) := by
  refine prints_of_command hsplit (by decide) fun w out => ?_
  rw [command_tail hcount]
  exact total_commandTail hpath hsize

end ShellProg

open ShellProg (parseLineCount resolveArg Prints)

variable (L : Libc) (errno : Errno) (state : ShellState)

/-- **`head` prints the first lines.**  The file may be returned in pieces of any size. -/
theorem head_prints {line name path content : Bytes} {args : List Bytes} {n : ℕ}
    (hsplit : splitCommand line = some (ascii "head" :: args))
    (hcount : parseLineCount (ascii "head" :: args) = some (n, name))
    (hpath : resolveArg state name = some path) :
    Prints L errno state line false path content (firstLines 10 n content) := by
  refine ShellProg.prints_of_command hsplit (by decide) fun w out => ?_
  rw [ShellProg.command_head hcount]
  exact ShellProg.total_commandHead hpath

example : parseLineCount (ascii "head" :: [ascii "-n", ascii "2", ascii "f"]) =
    some (2, ascii "f") := by decide +kernel

/-- The file `f` in the working directory `/data`. -/
theorem resolveArg_f :
    resolveArg ⟨ascii "/data", ascii "/data"⟩ (ascii "f") = some (ascii "/data/f") := by
  decide +kernel

/-- The first two lines of a file whose last line has no end. -/
theorem head_prints_two : Prints plainLibc .zero ⟨ascii "/data", ascii "/data"⟩
    (ascii "head -n 2 f") false (ascii "/data/f") (ascii "one\ntwo\nthree")
    (ascii "one\ntwo\n") := by
  have hfirst : firstLines 10 2 (ascii "one\ntwo\nthree") = ascii "one\ntwo\n" := by
    decide
  have hsplit : splitCommand (ascii "head -n 2 f") =
      some (ascii "head" :: [ascii "-n", ascii "2", ascii "f"]) := by decide +kernel
  have hcount : parseLineCount (ascii "head" :: [ascii "-n", ascii "2", ascii "f"]) =
      some (2, ascii "f") := by decide +kernel
  rw [← hfirst]
  exact head_prints plainLibc .zero ⟨ascii "/data", ascii "/data"⟩ hsplit hcount
    resolveArg_f

/-- **`tail` prints the last lines** of a file that is read at once, exactly when it is asked for at
least one or there are none. -/
theorem tail_prints_iff {line name path content : Bytes} {args : List Bytes} {n : ℕ}
    (hsplit : splitCommand line = some (ascii "tail" :: args))
    (hcount : parseLineCount (ascii "tail" :: args) = some (n, name))
    (hpath : resolveArg state name = some path) (hsize : content.length ≤ 16 * 1024 * 1024) :
    Prints L errno state line true path content (lastLines 10 n content) ↔
      0 < n ∨ content = [] := by
  have hprints : Prints L errno state line true path content
      (content.drop (ShellProg.tailStart content n)) :=
    ShellProg.prints_tail hsplit hcount hpath hsize
  have htext : Prints L errno state line true path content (lastLines 10 n content) ↔
      content.drop (ShellProg.tailStart content n) = lastLines 10 n content := by
    constructor
    · intro h
      exact hprints.unique h
    · intro h
      rw [← h]
      exact hprints
  rw [htext]
  cases n with
  | zero =>
    -- nothing is counted, so everything is printed
    have hnone : lastLines 10 0 content = [] := by simp [lastLines]
    rw [Nat.cast_zero, ShellProg.tailStart_zero, List.drop_zero, hnone]
    simp
  | succ n =>
    rw [ShellProg.lastLines_eq_drop]
    simp

example : ShellProg.tailStart (ascii "one\ntwo\nthree\n") 2 = 4 := by decide +kernel

/-- The last two lines of a file. -/
theorem tail_prints_two : Prints plainLibc .zero ⟨ascii "/data", ascii "/data"⟩
    (ascii "tail -n 2 f") true (ascii "/data/f") (ascii "one\ntwo\nthree\n")
    (ascii "two\nthree\n") := by
  have hlast : lastLines 10 2 (ascii "one\ntwo\nthree\n") = ascii "two\nthree\n" := by
    decide
  have hsplit : splitCommand (ascii "tail -n 2 f") =
      some (ascii "tail" :: [ascii "-n", ascii "2", ascii "f"]) := by decide +kernel
  have hcount : parseLineCount (ascii "tail" :: [ascii "-n", ascii "2", ascii "f"]) =
      some (2, ascii "f") := by decide +kernel
  rw [← hlast]
  exact (tail_prints_iff plainLibc .zero ⟨ascii "/data", ascii "/data"⟩ hsplit hcount
    resolveArg_f (by decide +kernel)).2 (.inl (by decide))

/-- The last `0` lines of a file are all of it. -/
theorem tail_zero_prints_all : ¬ Prints plainLibc .zero ⟨ascii "/data", ascii "/data"⟩
    (ascii "tail -n 0 f") true (ascii "/data/f") (ascii "one\n")
    (lastLines 10 0 (ascii "one\n")) := by
  have hsplit : splitCommand (ascii "tail -n 0 f") =
      some (ascii "tail" :: [ascii "-n", ascii "0", ascii "f"]) := by decide +kernel
  have hcount : parseLineCount (ascii "tail" :: [ascii "-n", ascii "0", ascii "f"]) =
      some (0, ascii "f") := by decide +kernel
  have hall : Prints plainLibc .zero ⟨ascii "/data", ascii "/data"⟩ (ascii "tail -n 0 f") true
      (ascii "/data/f") (ascii "one\n")
      ((ascii "one\n").drop (ShellProg.tailStart (ascii "one\n") 0)) :=
    ShellProg.prints_tail hsplit hcount resolveArg_f (by decide +kernel)
  intro h
  exact absurd (hall.unique h) (by decide)

end Ps4Dropbear
