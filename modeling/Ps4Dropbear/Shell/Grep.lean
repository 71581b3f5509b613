import Ps4Dropbear.Shell.HeadTail

/-!
# `grep`

`command_grep` reads a file byte by byte and collects a line in a buffer of 65536 bytes.  A line is
looked at when its newline has been stored, as the C string that the buffer then holds, and what is
left at the end of the file is a line too.

* `grepLines` : what is printed of a list of lines, and the result.
* `total_grepLoop` : the loop, with the line in the buffer and the rest of the file together.

**Main result**: `grep` prints the lines with the needle in front of their first null byte, up to
the first line that does not fit (`grep_prints`).
-/

namespace Ps4Dropbear

namespace ShellProg

/-- A line with a newline at its end. -/
def ended (line : Bytes) : Bytes := if line.getLast? = some 10 then line else line ++ [10]

/-- The lines that match, each with a newline. -/
def matching (needle : Bytes) (lines : List Bytes) : Bytes :=
  ((lines.filter fun line => lineMatches line needle).map ended).flatten

/-- The text of an error. -/
def errorText (L : Libc) (command path : Bytes) (error : Errno) : Bytes :=
  (command ++ ascii ": " ++ path ++ ascii ": " ++ L.strerror error ++ ascii "\n").take 2047

/-- What `command_grep` prints of the lines that are left, and its result. -/
def grepLines (L : Libc) (needle name : Bytes) : Bool → List Bytes → Bytes × ℤ
  | matched, [] => ([], if matched then 0 else 1)
  | matched, line :: lines =>
    if 65535 < line.length then (errorText L (ascii "grep") name .eoverflow, 1)
    else
      let rest := grepLines L needle name (matched || lineMatches line needle) lines
      ((if lineMatches line needle then ended line else []) ++ rest.1, rest.2)

section Lines

variable {L : Libc} {needle name : Bytes} {matched : Bool} {lines : List Bytes}

/-- All lines fit. -/
theorem grepLines_of_fit (h : ∀ line ∈ lines, line.length ≤ 65535) :
    grepLines L needle name matched lines = (matching needle lines,
      if matched || lines.any (lineMatches · needle) then 0 else 1) := by
  induction lines generalizing matched with
  | nil => simp [grepLines, matching]
  | cons line lines ih =>
    obtain ⟨hline, hlines⟩ := List.forall_mem_cons.1 h
    rw [grepLines, if_neg (Nat.not_lt.2 hline), ih hlines]
    by_cases hm : lineMatches line needle <;> simp [matching, hm]

/-- A line that does not fit ends the output. -/
theorem grepLines_of_long {long : Bytes} {post : List Bytes}
    (h : ∀ line ∈ lines, line.length ≤ 65535) (hlong : 65535 < long.length) :
    grepLines L needle name matched (lines ++ long :: post) =
      (matching needle lines ++ errorText L (ascii "grep") name .eoverflow, 1) := by
  induction lines generalizing matched with
  | nil => rw [List.nil_append, grepLines, if_pos hlong]; rfl
  | cons line lines ih =>
    obtain ⟨hline, hlines⟩ := List.forall_mem_cons.1 h
    rw [List.cons_append, grepLines, if_neg (Nat.not_lt.2 hline), ih hlines]
    by_cases hm : lineMatches line needle <;> simp [matching, hm]

end Lines

variable {L : Libc} {errno : Errno} {state : ShellState} {path content name needle out : Bytes}

/-- `shell_error` to a writer that takes everything. -/
theorem total_shellError {W : Type} {H : (c : ShellCall) → W → c.Answer → W → Prop} {w : W}
    {command path : Bytes} {error : Errno} {Q : ℤ → W × Bytes → Prop}
    (hQ : Q 1 (w, out ++ errorText L command path error)) :
    Prog.Total (WriterProg.Writes WriterProg.keepAll H) Q (shellError L command path error)
      (w, out) := by
  refine total_writeAll ?_
  rw [if_neg (by decide)]
  exact .ret hQ

/-- `close` in front of an error. -/
theorem total_closing_error {whole : Bool} {w fd : ℕ} {σ : Type} {error : Errno}
    {command path' : Bytes} {Q : σ ⊕ ℤ → ℕ × Bytes → Prop}
    (hQ : Q (.inr 1) (w, out ++ errorText L command path' error)) :
    Prog.Total (WriterProg.Writes WriterProg.keepAll (servesFile whole path content)) Q
      (closing fd (shellError L command path' error)) (w, out) := by
  unfold closing
  refine WriterProg.total_loc ⟨.ok (), w, rfl⟩ ?_
  rintro r w' rfl
  refine (total_shellError (Q := fun status v => status = 1 ∧
    v = (w', out ++ errorText L command path' error)) ⟨rfl, rfl⟩).bind ?_
  rintro status v ⟨rfl, rfl⟩
  exact .ret hQ

/-- The loop of `command_grep`, with a part of a line in the buffer. -/
theorem total_grepLoop {fd w : ℕ} (hw : w ≤ content.length) :
    Prog.Total (WriterProg.Writes WriterProg.keepAll (servesFile false path content))
      (fun status v => status = (grepLines L needle name false (linesOf 10 (content.drop w))).2 ∧
        v.2 = out ++ (grepLines L needle name false (linesOf 10 (content.drop w))).1)
      (Prog.iterate (grepBody L needle name fd) ([], false)) (w, out) := by
  -- the lines that are left are those of the buffer and the rest of the file together
  refine Prog.Total.iterate (fun s v => v.1 ≤ content.length ∧ 10 ∉ s.1 ∧ s.1.length ≤ 65535 ∧
    (grepLines L needle name s.2 (linesOf 10 (s.1 ++ content.drop v.1))).2 =
      (grepLines L needle name false (linesOf 10 (content.drop w))).2 ∧
    v.2 ++ (grepLines L needle name s.2 (linesOf 10 (s.1 ++ content.drop v.1))).1 =
      out ++ (grepLines L needle name false (linesOf 10 (content.drop w))).1)
    (fun _ v => content.length - v.1) ⟨hw, by simp, by simp, rfl, rfl⟩ ?_
  generalize grepLines L needle name false (linesOf 10 (content.drop w)) = spec
  rintro ⟨line, matched⟩ ⟨w₁, out₁⟩ ⟨hw₁, hline, hlen, hstatus, htext⟩
  dsimp only at hw₁ hline hlen hstatus htext
  unfold grepBody
  refine WriterProg.total_loc (exists_read fd 1) ?_
  rintro r w₂ ⟨⟨data, hdata⟩, rfl, ⟨rest, hrest⟩, hend, -, rfl⟩
  dsimp only at hrest hend ⊢
  cases data with
  | nil =>
    have hnil : content.drop w₁ = [] := (hend rfl).resolve_left (by decide)
    rw [hnil, List.append_nil] at hstatus htext
    dsimp only
    split
    · next hmatch =>
      have hlast : ended line = line ++ [10] :=
        if_neg fun h => hline (List.mem_of_getLast? h)
      rw [linesOf_of_not_mem hmatch.1 hline, grepLines, if_neg (Nat.not_lt.2 hlen)]
        at hstatus htext
      simp only [hmatch.2, Bool.or_true, grepLines, if_true, hlast, List.append_nil]
        at hstatus htext
      refine total_writeAll ?_
      rw [if_neg (by decide)]
      refine total_writeAll ?_
      rw [if_neg (by decide)]
      refine total_closing ⟨hstatus, ?_⟩
      rw [← htext, List.append_assoc]
      rfl
    · next hmatch =>
      refine total_closing ?_
      dsimp only [Sum.elim_inr]
      by_cases hempty : line = []
      · subst hempty
        rw [show linesOf (10 : UInt8) [] = [] from rfl, grepLines] at hstatus htext
        rw [List.append_nil] at htext
        exact ⟨hstatus, htext⟩
      · have hno : lineMatches line needle = false :=
          Bool.eq_false_iff.2 fun h => hmatch ⟨hempty, h⟩
        rw [linesOf_of_not_mem hempty hline, grepLines, if_neg (Nat.not_lt.2 hlen)]
          at hstatus htext
        simp only [hno, Bool.or_false, grepLines, Bool.false_eq_true, if_false, List.append_nil]
          at hstatus htext
        exact ⟨hstatus, htext⟩
  | cons byte data =>
    obtain rfl : data = [] := List.eq_nil_of_length_eq_zero (by simpa using hdata)
    have hpos : w₁ < content.length := by
      have hl := congrArg List.length hrest
      rw [List.length_append, List.length_drop, List.length_cons] at hl
      omega
    have hdrop : content.drop (w₁ + [byte].length) = rest := by
      rw [← List.drop_drop, ← hrest, List.drop_left]
    rw [← hrest, List.singleton_append] at hstatus htext
    dsimp only
    split
    · next hfull =>
      -- the line in the buffer is full, and the file goes on with another byte of it
      obtain ⟨y, ys, hlines⟩ := exists_linesOf_append hline byte rest
      have hlong : 65535 < (line ++ byte :: y).length := by
        rw [List.length_append, List.length_cons, hfull]
        omega
      rw [hlines, grepLines, if_pos hlong] at hstatus htext
      exact total_closing_error ⟨hstatus, htext⟩
    · next hroom =>
      have hroom : line.length + 1 ≤ 65535 := by omega
      split
      · next hnewline =>
        subst hnewline
        have hlast : ended (line ++ [10]) = line ++ [10] := if_pos (by simp)
        have hfit : ¬ 65535 < (line ++ [10]).length := by
          rw [List.length_append, List.length_singleton]
          omega
        rw [linesOf_append_end hline, grepLines, if_neg hfit, hlast] at hstatus htext
        split
        · next hmatch =>
          rw [hmatch, Bool.or_true, if_pos rfl] at htext
          rw [hmatch, Bool.or_true] at hstatus
          refine total_writeAll ?_
          rw [if_neg (by decide)]
          refine .ret ⟨⟨by dsimp only [List.length_singleton]; omega, by simp, by simp, ?_, ?_⟩, ?_⟩
          · rw [hdrop]
            exact hstatus
          · rw [hdrop, ← htext, List.append_assoc]
            rfl
          · dsimp only [List.length_singleton]
            omega
        · next hmatch =>
          rw [Bool.eq_false_iff.2 hmatch, Bool.or_false, if_neg (by decide)] at htext
          rw [Bool.eq_false_iff.2 hmatch, Bool.or_false] at hstatus
          refine .ret ⟨⟨by dsimp only [List.length_singleton]; omega, by simp, by simp, ?_, ?_⟩, ?_⟩
          · rw [hdrop]
            exact hstatus
          · rw [hdrop, ← htext]
            rfl
          · dsimp only [List.length_singleton]
            omega
      · next hbyte =>
        have happend : line ++ [byte] ++ rest = line ++ byte :: rest := by simp
        refine .ret ⟨⟨by dsimp only [List.length_singleton]; omega, ?_, by simpa using hroom,
          ?_, ?_⟩, ?_⟩
        · rw [List.mem_append, List.mem_singleton, not_or]
          exact ⟨hline, Ne.symm hbyte⟩
        · rw [hdrop, happend]
          exact hstatus
        · rw [hdrop, happend]
          exact htext
        · dsimp only [List.length_singleton]
          omega

theorem total_commandGrep {w : ℕ} (hpath : resolveArg state name = some path) :
    Prog.Total (WriterProg.Writes WriterProg.keepAll (servesFile false path content))
      (fun status v => status = (grepLines L needle name false (linesOf 10 content)).2 ∧
        v.2 = out ++ (grepLines L needle name false (linesOf 10 content)).1)
      (commandGrep L state needle name) (w, out) := by
  unfold commandGrep
  refine WriterProg.total_loc ⟨true, w, rfl, rfl⟩ ?_
  rintro r w' ⟨rfl, rfl⟩
  rw [if_pos rfl]
  exact total_openArg hpath fun _ => total_grepLoop (Nat.zero_le _)

theorem command_grep :
    command L errno state [ascii "grep", needle, name] = commandGrep L state needle name := rfl

end ShellProg

open ShellProg (lineMatches matching errorText resolveArg Answers)

/-- **`grep` prints the matching lines.**  If all lines fit, it prints those in which the needle is
found, and its result says whether there are any.  Otherwise it prints those in front of the first
line that does not fit, and reports `EOVERFLOW`. -/
theorem grep_prints (L : Libc) (errno : Errno) (state : ShellState)
    {line needle name path content : Bytes}
    (hsplit : splitCommand line = some [ascii "grep", needle, name])
    (hpath : resolveArg state name = some path) :
    ((∀ l ∈ linesOf 10 content, l.length ≤ 65535) →
      Answers L errno state line false path content
        (if (linesOf 10 content).any (lineMatches · needle) then 0 else 1)
        (matching needle (linesOf 10 content))) ∧
    ∀ (pre : List Bytes) (long : Bytes) post, linesOf 10 content = pre ++ long :: post →
      (∀ l ∈ pre, l.length ≤ 65535) → 65535 < long.length →
      Answers L errno state line false path content 1
        (matching needle pre ++ errorText L (ascii "grep") name .eoverflow) := by
  have hgrep : Answers L errno state line false path content
      (ShellProg.grepLines L needle name false (linesOf 10 content)).2
      (ShellProg.grepLines L needle name false (linesOf 10 content)).1 := by
    refine ShellProg.answers_of_command hsplit (by decide) fun w out => ?_
    rw [ShellProg.command_grep]
    exact ShellProg.total_commandGrep hpath
  constructor
  · intro hfit
    rw [ShellProg.grepLines_of_fit hfit] at hgrep
    simpa using hgrep
  · intro pre long post hlines hpre hlong
    rw [hlines, ShellProg.grepLines_of_long hpre hlong] at hgrep
    exact hgrep

/-- Two lines of three, the last of which has no end. -/
theorem grep_prints_two : Answers plainLibc .zero ⟨ascii "/data", ascii "/data"⟩
    (ascii "grep o f") false (ascii "/data/f") (ascii "one\nsix\ntwo") 0
    (ascii "one\ntwo\n") := by
  have hsplit : splitCommand (ascii "grep o f") =
      some [ascii "grep", ascii "o", ascii "f"] := by decide +kernel
  have hshort : ∀ l ∈ linesOf 10 (ascii "one\nsix\ntwo"), l.length ≤ 4 := by decide
  have htext : matching (ascii "o") (linesOf 10 (ascii "one\nsix\ntwo")) =
      ascii "one\ntwo\n" := by decide
  have hany : (linesOf 10 (ascii "one\nsix\ntwo")).any (lineMatches · (ascii "o")) = true := by
    decide
  have h := (grep_prints plainLibc .zero ⟨ascii "/data", ascii "/data"⟩ hsplit resolveArg_f).1
    fun l hl => (hshort l hl).trans (by omega)
  rw [htext, hany] at h
  exact h

end Ps4Dropbear
