import Ps4Dropbear.Shell.Thread

/-!
# Newlines on the terminal

`ps4_write_terminal_output` puts a carriage return before a newline that has none.  It looks back
one byte, but not behind the data of its own call.

* `ps4WriteTerminalOutput` : the loop, with its writes.
* `flatten_ps4WriteTerminalOutput` : what the writes send is `terminalOutput`.
* `crlfTranslation` : the translation of a whole text.
* `CutsPair` : a cut falls between a carriage return and a newline.

**Main result** (`terminal_pieces_iff`): the pieces of a text give the translation of the whole
exactly when no cut falls between a carriage return and a newline.
-/

namespace Ps4Dropbear

/-- The bytes from `start` on, as a write of their own. -/
def segment (run : Bytes) : List Bytes := if run = [] then [] else [run]

/-- The loop of `ps4_write_terminal_output`, with the bytes from `start` to `index`, the byte before
`index` if there is one, and the bytes from `index` on. -/
def terminalLoop : Bytes → Option UInt8 → Bytes → List Bytes
  | run, _, [] => segment run
  | run, before, c :: rest =>
    if c ≠ 10 ∨ before = some 13 then terminalLoop (run ++ [c]) (some c) rest
    else segment run ++ [13, 10] :: terminalLoop [] (some c) rest

/-- `ps4_write_terminal_output` and `ps4_terminal_shell_output`: the writes to a terminal that takes
them all. -/
def ps4WriteTerminalOutput (data : Bytes) : List Bytes := terminalLoop [] none data

/-- The translation of a text: a newline gets a carriage return, unless there is one directly before
it. -/
def crlfTranslation (text : Bytes) : Bytes :=
  (text.zip (0 :: text)).flatMap fun p => if p.1 = 10 ∧ p.2 ≠ 13 then [13, 10] else [p.1]

/-- A cut between the pieces falls between a carriage return and a newline; `before` is the byte
before the first piece. -/
def CutsPair (before : UInt8) (pieces : List Bytes) : Prop :=
  ∃ pre post, pieces = pre ++ post ∧ pre.flatten.getLastD before = 13 ∧
    post.flatten.head? = some 10

section Loop

variable {before : UInt8} {x y : Bytes}

@[simp] theorem flatten_segment (run : Bytes) : (segment run).flatten = run := by
  unfold segment
  split
  · next h => simp [h]
  · simp

theorem flatten_terminalLoop (run data : Bytes) (before : Option UInt8) :
    (terminalLoop run before data).flatten = run ++ terminalOutput (before.getD 0) data := by
  induction data generalizing run before with
  | nil => simp [terminalLoop, terminalOutput]
  | cons c rest ih =>
    unfold terminalLoop terminalOutput
    by_cases hkeep : c ≠ 10 ∨ before = some 13
    · have hplain : ¬ (c = 10 ∧ before.getD 0 ≠ 13) := by
        rintro ⟨hc, hb⟩
        rcases hkeep with hne | rfl
        · exact hne hc
        · exact hb rfl
      rw [if_pos hkeep, if_neg hplain, ih]
      simp
    · obtain ⟨hc, hb⟩ := not_or.1 hkeep
      have hadd : c = 10 ∧ before.getD 0 ≠ 13 := by
        refine ⟨not_not.1 hc, ?_⟩
        cases before with
        | none => decide
        | some b => simpa using hb
      rw [if_neg hkeep, if_pos hadd, List.flatten_append, List.flatten_cons, ih]
      simp

/-- **What is sent** to the terminal in one call. -/
theorem flatten_ps4WriteTerminalOutput (data : Bytes) :
    (ps4WriteTerminalOutput data).flatten = terminalOutput 0 data := by
  rw [ps4WriteTerminalOutput, flatten_terminalLoop]
  rfl

/-- One call translates its own data. -/
theorem terminalOutput_eq (before : UInt8) (text : Bytes) :
    terminalOutput before text = (text.zip (before :: text)).flatMap fun p =>
      if p.1 = 10 ∧ p.2 ≠ 13 then [13, 10] else [p.1] := by
  induction text generalizing before with
  | nil => rfl
  | cons c rest ih => rw [terminalOutput, ih c, List.zip_cons_cons, List.flatMap_cons]

/-- The second part of a text is translated with the last byte of the first in mind. -/
theorem terminalOutput_append (before : UInt8) (x y : Bytes) :
    terminalOutput before (x ++ y) =
      terminalOutput before x ++ terminalOutput (x.getLastD before) y := by
  induction x generalizing before with
  | nil => rfl
  | cons c x ih =>
    have hlast : (c :: x).getLastD before = x.getLastD c := by
      cases x <;> rfl
    rw [List.cons_append, terminalOutput, terminalOutput, ih c, hlast, List.append_assoc]

/-- The byte before only matters to a newline after a carriage return. -/
theorem terminalOutput_zero (h : ¬ (before = 13 ∧ y.head? = some 10)) :
    terminalOutput 0 y = terminalOutput before y := by
  cases y with
  | nil => rfl
  | cons c rest =>
    have hsame : (c = 10 ∧ (0 : UInt8) ≠ 13) ↔ (c = 10 ∧ before ≠ 13) := by
      constructor
      · rintro ⟨rfl, -⟩
        exact ⟨rfl, fun hb => h ⟨hb, rfl⟩⟩
      · rintro ⟨rfl, -⟩
        exact ⟨rfl, by decide⟩
    simp only [terminalOutput, hsame]

theorem terminalOutput_zero_cons (rest : Bytes) :
    terminalOutput 0 (10 :: rest) = 13 :: terminalOutput 13 (10 :: rest) := by
  simp [terminalOutput]

/-- A call that does not know the byte before never sends less. -/
theorem length_terminalOutput_le (before : UInt8) (y : Bytes) :
    (terminalOutput before y).length ≤ (terminalOutput 0 y).length := by
  by_cases h : before = 13 ∧ y.head? = some 10
  · obtain ⟨rfl, hy⟩ := h
    obtain ⟨rest, rfl⟩ := List.head?_eq_some_iff.1 hy
    rw [terminalOutput_zero_cons, List.length_cons]
    exact Nat.le_succ _
  · exact Nat.le_of_eq (congrArg List.length (terminalOutput_zero h).symm)

/-- And it sends the same unless the two bytes are a pair. -/
theorem terminalOutput_zero_iff :
    terminalOutput 0 y = terminalOutput before y ↔ ¬ (before = 13 ∧ y.head? = some 10) := by
  refine ⟨?_, terminalOutput_zero⟩
  rintro h ⟨rfl, hy⟩
  obtain ⟨rest, rfl⟩ := List.head?_eq_some_iff.1 hy
  rw [terminalOutput_zero_cons] at h
  have := congrArg List.length h
  simp at this

end Loop

section Pieces

variable {before : UInt8} {c : Bytes} {pieces : List Bytes}

theorem length_pieces_le (before : UInt8) (pieces : List Bytes) :
    (terminalOutput before pieces.flatten).length ≤
      (pieces.flatMap (terminalOutput 0)).length := by
  induction pieces generalizing before with
  | nil => exact Nat.le_refl _
  | cons c pieces ih =>
    rw [List.flatten_cons, terminalOutput_append, List.flatMap_cons, List.length_append,
      List.length_append]
    exact Nat.add_le_add (length_terminalOutput_le before c) (ih _)

/-- The last byte of two parts. -/
theorem getLastD_append (c l : Bytes) (before : UInt8) :
    (c ++ l).getLastD before = l.getLastD (c.getLastD before) := by
  rcases List.eq_nil_or_concat l with rfl | ⟨init, b, rfl⟩
  · simp
  · simp [List.getLastD_eq_getLast?]

/-- The first piece, and the cuts behind it. -/
theorem cutsPair_cons : CutsPair before (c :: pieces) ↔
    (before = 13 ∧ c.head? = some 10) ∨ CutsPair (c.getLastD before) pieces := by
  constructor
  · rintro ⟨pre, post, hcut, hpre, hpost⟩
    cases pre with
    | nil =>
      obtain rfl : post = c :: pieces := hcut.symm
      cases c with
      | nil => exact .inr ⟨[], pieces, rfl, hpre, hpost⟩
      | cons b c => exact .inl ⟨hpre, hpost⟩
    | cons d pre =>
      rw [List.cons_append, List.cons.injEq] at hcut
      obtain ⟨rfl, hcut⟩ := hcut
      refine .inr ⟨pre, post, hcut, ?_, hpost⟩
      rw [← hpre, List.flatten_cons, getLastD_append]
  · rintro (⟨rfl, hc⟩ | ⟨pre, post, rfl, hpre, hpost⟩)
    · obtain ⟨rest, rfl⟩ := List.head?_eq_some_iff.1 hc
      exact ⟨[], _, rfl, rfl, rfl⟩
    · refine ⟨c :: pre, post, rfl, ?_, hpost⟩
      rw [← hpre, List.flatten_cons, getLastD_append]

/-- Piece by piece, behind the byte `before`. -/
theorem flatMap_terminalOutput_iff (before : UInt8) (pieces : List Bytes) :
    pieces.flatMap (terminalOutput 0) = terminalOutput before pieces.flatten ↔
      ¬ CutsPair before pieces := by
  induction pieces generalizing before with
  | nil =>
    refine iff_of_true rfl ?_
    rintro ⟨pre, post, hcut, -, hpost⟩
    obtain ⟨-, rfl⟩ := List.append_eq_nil_iff.1 hcut.symm
    cases hpost
  | cons c pieces ih =>
    rw [cutsPair_cons, not_or, ← ih, ← terminalOutput_zero_iff, List.flatten_cons,
      terminalOutput_append, List.flatMap_cons]
    constructor
    · intro h
      -- both parts are at most as long as the other side's, so the lengths agree
      have hlen := congrArg List.length h
      rw [List.length_append, List.length_append] at hlen
      have hfirst := length_terminalOutput_le before c
      have hrest := length_pieces_le (c.getLastD before) pieces
      exact List.append_inj h (by omega)
    · rintro ⟨hfirst, hrest⟩
      rw [hfirst, hrest]

end Pieces

/-- **Pieces of a text on the terminal.**  However a text is cut into the data of calls, the
terminal is sent the translation of the whole text if and only if no cut falls between a carriage
return and a newline. -/
theorem terminal_pieces_iff (pieces : List Bytes) :
    (pieces.flatMap ps4WriteTerminalOutput).flatten = crlfTranslation pieces.flatten ↔
      ¬ ∃ pre post, pieces = pre ++ post ∧ pre.flatten.getLast? = some 13 ∧
        post.flatten.head? = some 10 := by
  have hsent : (pieces.flatMap ps4WriteTerminalOutput).flatten =
      pieces.flatMap (terminalOutput 0) := by
    rw [← List.flatMap_id', List.flatMap_assoc]
    simp only [List.flatMap_id', flatten_ps4WriteTerminalOutput]
  have hlast (l : Bytes) : l.getLast? = some 13 ↔ l.getLastD 0 = 13 := by
    rw [List.getLastD_eq_getLast?]
    cases l.getLast? <;> simp
  rw [hsent, crlfTranslation, ← terminalOutput_eq, flatMap_terminalOutput_iff, CutsPair]
  simp only [hlast]

/-- `grep` prints a last line without an end, here one that a carriage return ends, and its newline
in two calls. -/
theorem terminal_cut_pair :
    ¬ (([ascii "a\r", ascii "\n"].flatMap ps4WriteTerminalOutput).flatten =
      crlfTranslation [ascii "a\r", ascii "\n"].flatten) := by
  decide

end Ps4Dropbear
