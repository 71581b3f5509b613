import Ps4Dropbear.Buffer.Cells
import Ps4Dropbear.Shell.Dispatch
import Ps4Dropbear.Text.Paths
import Ps4Dropbear.Text.Words

/-!
# Splitting a command line in its storage

`split_command` copies the arguments of a line into an array of bytes, one behind the other with a
NUL behind each, and remembers where they start.  There are two copies of it, which report an error
with `errno` and without; `splitInto` is both of them, with the arrays in memory and a store outside
of them as an error.

* `shellSplitCommand`, `scpSplitCommand` : the two copies.
* `SplitMem.args` : the arguments, read back from the memory.
* `StorageFits` : there is room for the arguments.
* `SplitFails` : the lines that are refused.

**Main result** (`split_command_inverts_quoting`): both copies stay inside their arrays, accept the
same lines with the words of the line, refuse exactly the lines that end inside quotes or behind a
backslash, that have more than 16 words or that do not fit, and undo quoting.
-/

namespace Ps4Dropbear

/-- How splitting can fail: by an error of the function, or by a store outside of the arrays. -/
inductive SplitError (ε : Type)
  | failed (e : ε)
  | outOfBounds
  deriving DecidableEq, Repr

/-- `struct ps4_shell_args` and `struct scp_args`; a pointer is an index into the storage. -/
structure SplitMem where
  storage : Bytes
  argv : List ℕ
  argc : ℕ
  deriving DecidableEq, Repr

/-- The arrays have the sizes of the declarations. -/
def SplitMem.Sized (mem : SplitMem) : Prop :=
  mem.storage.length = argStorage ∧ mem.argv.length = ps4ShellMaxArgs

/-- An array of bytes and an array of pointers, of these sizes. -/
abbrev SplitBuffer : Type := { mem : SplitMem // mem.Sized }

/-- The arguments, as C strings in the storage. -/
def SplitMem.args (mem : SplitMem) : List Bytes :=
  (mem.argv.take mem.argc).map fun start => cstr (mem.storage.drop start)

section Split

variable {ε : Type} (einval e2big : ε)

/-- The inner loop of `split_command` and the check behind it, on the open quote (`0` for none), the
storage, `out`, `remaining` and the rest of the line. -/
def scanInto : UInt8 → Bytes → ℕ → ℕ → Bytes →
    Except (SplitError ε) (Bytes × ℕ × ℕ × Bytes)
  | quote, storage, out, remaining, [] =>
    if quote ≠ 0 then .error (.failed einval) else .ok (storage, out, remaining, [])
  | quote, storage, out, remaining, ch :: rest =>
    if quote = 0 ∧ isBlank ch then .ok (storage, out, remaining, rest)
    else if ch = 92 ∧ quote ≠ 39 then
      match rest with
      | [] => .error (.failed einval)
      | ch' :: rest' =>
        if remaining < 2 then .error (.failed e2big)
        else
          match Cells.store storage out ch' with
          | none => .error .outOfBounds
          | some storage => scanInto quote storage (out + 1) (remaining - 1) rest'
    else if (ch = 39 ∨ ch = 34) ∧ quote = 0 then scanInto ch storage out remaining rest
    else if (ch = 39 ∨ ch = 34) ∧ quote = ch then scanInto 0 storage out remaining rest
    else if remaining < 2 then .error (.failed e2big)
    else
      match Cells.store storage out ch with
      | none => .error .outOfBounds
      | some storage => scanInto quote storage (out + 1) (remaining - 1) rest

/-- The outer loop of `split_command`.  Every round consumes a byte, so the length of the line
bounds the rounds. -/
def splitIntoLoop (maxArgs : ℕ) : ℕ → SplitMem → ℕ → ℕ → Bytes → Except (SplitError ε) SplitMem
  | 0, mem, _, _, _ => .ok mem
  | fuel + 1, mem, out, remaining, line =>
    match line.dropWhile isBlank with
    | [] => .ok mem
    | ch :: rest =>
      if mem.argc = maxArgs ∨ remaining < 2 then .error (.failed e2big)
      else
        match Cells.store mem.argv mem.argc out with
        | none => .error .outOfBounds
        | some argv =>
          match scanInto einval e2big 0 mem.storage out remaining (ch :: rest) with
          | .error e => .error e
          | .ok (storage, out, remaining, line) =>
            -- the NUL behind the argument
            match Cells.store storage out 0 with
            | none => .error .outOfBounds
            | some storage =>
              splitIntoLoop maxArgs fuel ⟨storage, argv, mem.argc + 1⟩ (out + 1) (remaining - 1)
                line

/-- `split_command`, with the errors that a copy of it reports. -/
def splitInto (maxArgs : ℕ) (command : Bytes) (mem : SplitMem) : Except (SplitError ε) SplitMem :=
  splitIntoLoop einval e2big maxArgs (cstr command).length { mem with argc := 0 } 0
    mem.storage.length (cstr command)

end Split

/-- `split_command` of `ps4-shell.c`. -/
def shellSplitCommand (command : Bytes) (mem : SplitMem) : Except (SplitError Errno) SplitMem :=
  splitInto .einval .e2big ps4ShellMaxArgs command mem

/-- `split_command` of `ps4-scp.c`, which leaves `errno` alone. -/
def scpSplitCommand (command : Bytes) (mem : SplitMem) : Except (SplitError Unit) SplitMem :=
  splitInto () () 16 command mem

/-- Each word finds room for itself and a NUL, and at least two bytes. -/
def StorageFits : ℕ → List Bytes → Prop
  | _, [] => True
  | remaining, word :: words =>
    max 2 (word.length + 1) ≤ remaining ∧ StorageFits (remaining - (word.length + 1)) words

/-- The lines that are refused: inside quotes at the end, behind a backslash at the end, with too
many words, or with words that do not fit. -/
def SplitFails (line : Bytes) : Prop :=
  (lex line).quote ≠ none ∨ (lex line).escaped = true ∨ ps4ShellMaxArgs < (lex line).all.length ∨
    ¬ StorageFits argStorage (lex line).all

/-! ### The words of the line -/

section Words

open LexState

/-- `scanArg` without an end of the storage. -/
def readWord : UInt8 → Bytes → Option (Bytes × Bytes)
  | quote, [] => if quote ≠ 0 then none else some ([], [])
  | quote, ch :: rest =>
    if quote = 0 ∧ isBlank ch then some ([], rest)
    else if ch = 92 ∧ quote ≠ 39 then
      match rest with
      | [] => none
      | ch' :: rest' => (readWord quote rest').map fun r => (ch' :: r.1, r.2)
    else if (ch = 39 ∨ ch = 34) ∧ quote = 0 then readWord ch rest
    else if (ch = 39 ∨ ch = 34) ∧ quote = ch then readWord 0 rest
    else (readWord quote rest).map fun r => (ch :: r.1, r.2)

/-- A word fits into what is left of the storage. -/
def fitWord (remaining : ℕ) (r : Bytes × Bytes) : Option (Bytes × ℕ × Bytes) :=
  if r.1.length < remaining then some (r.1, remaining - r.1.length, r.2) else none

theorem fitWord_cons {remaining : ℕ} (hroom : ¬ remaining < 2) (ch : UInt8)
    (word : Option (Bytes × Bytes)) :
    ((word.bind (fitWord (remaining - 1))).map fun r => (ch :: r.1, r.2)) =
      (word.map fun r => (ch :: r.1, r.2)).bind (fitWord remaining) := by
  rcases word with _ | ⟨word, rest⟩
  · rfl
  · simp only [Option.bind_some, Option.map_some, fitWord, List.length_cons]
    by_cases hfit : word.length < remaining - 1
    · rw [if_pos hfit, if_pos (by omega), Option.map_some, Nat.sub_sub, Nat.add_comm]
    · rw [if_neg hfit, if_neg (by omega), Option.map_none]

theorem fitWord_cons_full {remaining : ℕ} (hroom : remaining < 2) (ch : UInt8)
    (word : Option (Bytes × Bytes)) :
    (word.map fun r => (ch :: r.1, r.2)).bind (fitWord remaining) = none := by
  rcases word with _ | ⟨word, rest⟩
  · rfl
  · simp only [Option.bind_some, Option.map_some, fitWord, List.length_cons]
    rw [if_neg (by omega)]

/-- With an end of the storage, a word has to fit before it. -/
theorem scanArg_eq {quote : UInt8} {remaining : ℕ} {line : Bytes} (hroom : 0 < remaining) :
    scanArg quote remaining line = (readWord quote line).bind (fitWord remaining) := by
  fun_induction scanArg quote remaining line with
  | case1 quote remaining hq => rw [readWord, if_pos hq, Option.bind_none]
  | case2 quote remaining hq =>
    rw [readWord, if_neg hq, Option.bind_some]
    exact (if_pos hroom).symm
  | case3 quote remaining ch rest hblank =>
    unfold readWord
    rw [if_pos hblank, Option.bind_some]
    exact (if_pos hroom).symm
  | case4 quote remaining ch hblank hback =>
    unfold readWord
    rw [if_neg hblank, if_pos hback, Option.bind_none]
  | case5 quote remaining ch hblank hback ch' rest' hfull =>
    unfold readWord
    rw [if_neg hblank, if_pos hback, fitWord_cons_full hfull]
  | case6 quote remaining ch hblank hback ch' rest' hfull ih =>
    unfold readWord
    rw [if_neg hblank, if_pos hback, ih (by omega), fitWord_cons hfull]
  | case7 quote remaining ch rest hblank hback hopen ih =>
    unfold readWord
    rw [if_neg hblank, if_neg hback, if_pos hopen, ih hroom]
  | case8 quote remaining ch rest hblank hback hopen hclose ih =>
    unfold readWord
    rw [if_neg hblank, if_neg hback, if_neg hopen, if_pos hclose, ih hroom]
  | case9 quote remaining ch rest hblank hback hopen hclose hfull =>
    unfold readWord
    rw [if_neg hblank, if_neg hback, if_neg hopen, if_neg hclose, fitWord_cons_full hfull]
  | case10 quote remaining ch rest hblank hback hopen hclose hfull ih =>
    unfold readWord
    rw [if_neg hblank, if_neg hback, if_neg hopen, if_neg hclose, ih (by omega),
      fitWord_cons hfull]

/-- The quote of the code, with `0` for none. -/
def quoteOf (quote : UInt8) : Option UInt8 := if quote = 0 then none else some quote

/-- What is left of a state when the line ends. -/
def ending (s : LexState) : Option UInt8 × Bool × List Bytes := (s.quote, s.escaped, s.all)

/-- The values of `quote`. -/
def IsQuote (quote : UInt8) : Prop := quote = 0 ∨ quote = 39 ∨ quote = 34

section Step

variable {quote ch ch' : UInt8} {cur : Bytes} {words : List Bytes}

theorem step_escapes (hquote : IsQuote quote) (hback : ch = 92 ∧ quote ≠ 39) :
    step ⟨quoteOf quote, false, some cur, words⟩ ch =
      ⟨quoteOf quote, true, some cur, words⟩ := by
  obtain ⟨rfl, hne⟩ := hback
  rcases hquote with rfl | rfl | rfl
  · simp [step, quoteOf, isBlank, inWord]
  · exact absurd rfl hne
  · simp [step, quoteOf]

theorem step_escaped : step ⟨quoteOf quote, true, some cur, words⟩ ch =
    ⟨quoteOf quote, false, some (cur ++ [ch]), words⟩ := by
  simp [step, put]

theorem step_opens (hopen : ch = 39 ∨ ch = 34) :
    step ⟨quoteOf 0, false, some cur, words⟩ ch = ⟨quoteOf ch, false, some cur, words⟩ := by
  rcases hopen with rfl | rfl <;> simp [step, quoteOf, isBlank, inWord]

theorem step_closes (hclose : ch = 39 ∨ ch = 34) :
    step ⟨quoteOf ch, false, some cur, words⟩ ch = ⟨quoteOf 0, false, some cur, words⟩ := by
  rcases hclose with rfl | rfl <;> simp [step, quoteOf]

theorem step_puts (hquote : IsQuote quote) (hblank : ¬ (quote = 0 ∧ isBlank ch))
    (hback : ¬ (ch = 92 ∧ quote ≠ 39)) (hopen : ¬ ((ch = 39 ∨ ch = 34) ∧ quote = 0))
    (hclose : ¬ ((ch = 39 ∨ ch = 34) ∧ quote = ch)) :
    step ⟨quoteOf quote, false, some cur, words⟩ ch =
      ⟨quoteOf quote, false, some (cur ++ [ch]), words⟩ := by
  rcases hquote with rfl | rfl | rfl
  · have hplain : isBlank ch = false := by simpa using hblank
    have hne : ch ≠ 92 := fun h => hback ⟨h, by decide⟩
    have hmark : ¬ (ch = 39 ∨ ch = 34) := fun h => hopen ⟨h, rfl⟩
    simp [step, quoteOf, hplain, hne, hmark, put]
  · have hne : ch ≠ 39 := fun h => hclose ⟨.inl h, h.symm⟩
    simp [step, quoteOf, hne, put]
  · have hne : ch ≠ 34 := fun h => hclose ⟨.inr h, h.symm⟩
    have hslash : ch ≠ 92 := fun h => hback ⟨h, by decide⟩
    simp [step, quoteOf, hne, hslash, put]

end Step

/-- The state in which a line ends, next to its first word: a word without an end does not close the
line, and what is behind a word is read between words. -/
def EndsAfter (s : LexState) (cur : Bytes) (words : List Bytes) : Option (Bytes × Bytes) → Prop
  | none => ¬ s.Closed
  | some (word, rest) => ending s = ending (rest.foldl step (between (words ++ [cur ++ word])))

theorem EndsAfter.cons {s : LexState} {cur : Bytes} {words : List Bytes} {ch : UInt8}
    {word : Option (Bytes × Bytes)} (h : EndsAfter s (cur ++ [ch]) words word) :
    EndsAfter s cur words (word.map fun r => (ch :: r.1, r.2)) := by
  rcases word with _ | ⟨word, rest⟩
  · exact h
  · have hend : ending s = ending (rest.foldl step (between (words ++ [cur ++ [ch] ++ word]))) := h
    rw [List.append_assoc, List.singleton_append] at hend
    exact hend

/-- **One word** of the line. -/
theorem endsAfter_readWord {quote : UInt8} (hquote : IsQuote quote) (line cur : Bytes)
    (words : List Bytes) :
    EndsAfter (line.foldl step ⟨quoteOf quote, false, some cur, words⟩) cur words
      (readWord quote line) := by
  fun_induction readWord quote line generalizing cur with
  | case1 quote hq => simp [EndsAfter, Closed, quoteOf, hq]
  | case2 quote hq =>
    have hzero : quote = 0 := not_not.1 hq
    subst hzero
    simp [EndsAfter, ending, quoteOf, between, all]
  | case3 quote ch rest hblank =>
    obtain ⟨rfl, hch⟩ := hblank
    rw [List.foldl_cons, show quoteOf 0 = none from rfl, step_blank hch]
    simp [EndsAfter]
  | case4 quote ch hblank hback =>
    rw [List.foldl_cons, step_escapes hquote hback]
    exact fun hclosed => Bool.noConfusion hclosed.2
  | case5 quote ch hblank hback ch' rest' ih =>
    rw [List.foldl_cons, List.foldl_cons, step_escapes hquote hback, step_escaped]
    exact (ih hquote (cur ++ [ch'])).cons
  | case6 quote ch rest hblank hback hopen ih =>
    obtain ⟨hmark, rfl⟩ := hopen
    rw [List.foldl_cons, step_opens hmark]
    exact ih (.inr hmark) cur
  | case7 quote ch rest hblank hback hopen hclose ih =>
    obtain ⟨hmark, rfl⟩ := hclose
    rw [List.foldl_cons, step_closes hmark]
    exact ih (.inl rfl) cur
  | case8 quote ch rest hblank hback hopen hclose ih =>
    rw [List.foldl_cons, step_puts hquote hblank hback hopen hclose]
    exact (ih hquote (cur ++ [ch])).cons

/-! ### The whole line -/

/-- A word that starts with a byte that is no blank. -/
theorem foldl_step_start {ch : UInt8} {rest : Bytes} {words : List Bytes} (hch : ¬ isBlank ch) :
    (ch :: rest).foldl step (between words) =
      (ch :: rest).foldl step ⟨quoteOf 0, false, some [], words⟩ := by
  simp [between, step, quoteOf, hch, inWord, put]

theorem foldl_step_skip (line : Bytes) (words : List Bytes) :
    (line.dropWhile isBlank).foldl step (between words) = line.foldl step (between words) := by
  rw [← List.takeWhile_append_dropWhile (p := isBlank) (l := line), List.foldl_append,
    foldl_step_blanks fun ch => List.mem_takeWhile_imp, List.takeWhile_append_dropWhile]

/-- Words that have been read stay. -/
theorem prefix_all (line : Bytes) (s : LexState) : s.words <+: (line.foldl step s).all := by
  induction line generalizing s with
  | nil => exact List.prefix_append _ _
  | cons ch line ih =>
    have hstep : s.words <+: (step s ch).words := by
      unfold step
      split
      · exact List.prefix_refl _
      · split
        · split_ifs
          · exact List.prefix_append _ _
          · exact List.prefix_refl _
          · exact List.prefix_refl _
          · exact List.prefix_refl _
        · split_ifs <;> exact List.prefix_refl _
    exact hstep.trans (ih (step s ch))

/-- The first of the words that are still to come. -/
theorem drop_all {words all : List Bytes} {word : Bytes} (h : words ++ [word] <+: all) :
    all.drop words.length = word :: all.drop (words.length + 1) := by
  obtain ⟨more, rfl⟩ := h
  simp

theorem closed_iff_of_ending {s s' : LexState} (h : ending s = ending s') :
    (s.Closed ↔ s'.Closed) ∧ s.all = s'.all := by
  obtain ⟨hquote, hrest⟩ := Prod.mk.inj h
  obtain ⟨hescaped, hall⟩ := Prod.mk.inj hrest
  exact ⟨by rw [Closed, Closed, hquote, hescaped], hall⟩

/-- What is known of a line whose words are `args`, behind the first words. -/
def HasWords (s : LexState) (words : List Bytes) (remaining : ℕ) (args : List Bytes) : Prop :=
  s.Closed ∧ s.all = args ∧ args.length ≤ ps4ShellMaxArgs ∧
    StorageFits remaining (args.drop words.length)

/-- A line of blanks has no more words. -/
theorem hasWords_between {words args : List Bytes} {remaining : ℕ}
    (hwords : words.length ≤ ps4ShellMaxArgs) :
    some words = some args ↔ HasWords (between words) words remaining args := by
  have hall : (between words).all = words := List.append_nil words
  rw [HasWords, hall, Option.some.injEq]
  constructor
  · rintro rfl
    rw [List.drop_length]
    exact ⟨⟨rfl, rfl⟩, rfl, hwords, trivial⟩
  · exact fun h => h.2.1

/-- A line with one more word. -/
theorem hasWords_word {s s' : LexState} {words args : List Bytes} {word : Bytes} {remaining : ℕ}
    (hend : ending s = ending s') (hprefixed : words ++ [word] <+: s'.all) :
    HasWords s words remaining args ↔
      max 2 (word.length + 1) ≤ remaining ∧ words.length < ps4ShellMaxArgs ∧
        HasWords s' (words ++ [word]) (remaining - (word.length + 1)) args := by
  obtain ⟨hclosed, hall⟩ := closed_iff_of_ending hend
  rw [HasWords, HasWords, hclosed, hall, List.length_append, List.length_singleton]
  constructor
  · rintro ⟨h, rfl, hlen, hfits⟩
    have hlt := hprefixed.length_le
    rw [List.length_append, List.length_singleton] at hlt
    rw [drop_all hprefixed] at hfits
    exact ⟨hfits.1, by omega, h, rfl, hlen, hfits.2⟩
  · rintro ⟨hmax, -, h, rfl, hlen, hfits⟩
    rw [drop_all hprefixed]
    exact ⟨h, rfl, hlen, hmax, hfits⟩

/-- A line that starts a word. -/
theorem hasWords_start {ch : UInt8} {rest : Bytes} {words args : List Bytes} {remaining : ℕ}
    (hch : isBlank ch = false) :
    HasWords ((ch :: rest).foldl step (between words)) words remaining args ↔
      ∃ word line, readWord 0 (ch :: rest) = some (word, line) ∧
        max 2 (word.length + 1) ≤ remaining ∧ words.length < ps4ShellMaxArgs ∧
        HasWords (line.foldl step (between (words ++ [word]))) (words ++ [word])
          (remaining - (word.length + 1)) args := by
  have hends : EndsAfter ((ch :: rest).foldl step (between words)) [] words
      (readWord 0 (ch :: rest)) := by
    rw [foldl_step_start (ne_true_of_eq_false hch)]
    exact endsAfter_readWord (.inl rfl) _ _ _
  generalize readWord 0 (ch :: rest) = read at hends ⊢
  rcases read with _ | ⟨word, line⟩
  · constructor
    · exact fun h => absurd h.1 hends
    · rintro ⟨word, line, hread, -⟩
      cases hread
  · rw [hasWords_word hends (prefix_all line (between (words ++ [word])))]
    constructor
    · exact fun h => ⟨word, line, rfl, h⟩
    · rintro ⟨word', line', hread, h⟩
      cases hread
      exact h

/-- **The loop finds the words of the line**, if there is room for them. -/
theorem splitLoop_iff {fuel : ℕ} {words args : List Bytes} {remaining : ℕ} {line : Bytes}
    (hfuel : line.length ≤ fuel) (hwords : words.length ≤ ps4ShellMaxArgs) :
    splitLoop fuel words remaining line = some args ↔
      HasWords (line.foldl step (between words)) words remaining args := by
  induction fuel generalizing words remaining line with
  | zero =>
    rw [List.length_eq_zero_iff.1 (Nat.le_zero.1 hfuel)]
    exact hasWords_between hwords
  | succ fuel ih =>
    have hskip := (List.dropWhile_suffix (l := line) isBlank).length_le
    rw [splitLoop, ← foldl_step_skip line]
    rcases dropWhile_stops isBlank line with hline | ⟨ch, rest, hline, hch⟩
    · rw [hline]
      exact hasWords_between hwords
    rw [hline] at hskip ⊢
    rw [hasWords_start hch]
    dsimp only
    by_cases hfull : words.length = ps4ShellMaxArgs ∨ remaining < 2
    · rw [if_pos hfull]
      constructor
      · intro h
        cases h
      · rintro ⟨word, line', -, hmax, hlt, -⟩
        omega
    have hscan := @scanArg_eq 0 remaining (ch :: rest) (by omega)
    rw [if_neg hfull, hscan]
    rcases hread : readWord 0 (ch :: rest) with _ | ⟨word, line'⟩
    · constructor
      · intro h
        cases h
      · rintro ⟨word, line', h, -⟩
        cases h
    rw [hread, Option.bind_some, fitWord] at hscan
    rw [Option.bind_some, fitWord]
    by_cases hfit : word.length < remaining
    · rw [if_pos hfit] at hscan ⊢
      have hlen : line'.length ≤ rest.length := length_scanArg hscan
      have hfuel' : line'.length ≤ fuel := by
        rw [List.length_cons] at hskip
        omega
      have hwords' : (words ++ [word]).length ≤ ps4ShellMaxArgs := by
        rw [List.length_append, List.length_singleton]
        omega
      dsimp only
      rw [ih hfuel' hwords', Nat.sub_sub]
      constructor
      · exact fun h => ⟨word, line', rfl, by omega, by omega, h⟩
      · rintro ⟨word', line'', h, -, -, hmore⟩
        cases h
        exact hmore
    · rw [if_neg hfit]
      constructor
      · intro h
        cases h
      · rintro ⟨word', line'', h, hmax, -⟩
        cases h
        omega

end Words

/-! ### The memory -/

section Memory

variable {ε : Type} {einval e2big : ε} {front storage : Bytes}

/-- The inner loop in a storage of this size, behind `front`, next to what it should read. -/
def ScansTo (size : ℕ) (front : Bytes)
    (result : Except (SplitError ε) (Bytes × ℕ × ℕ × Bytes)) : Option (Bytes × ℕ × Bytes) → Prop
  | none => ∃ e, result = .error (.failed e)
  | some (arg, left, rest) => ∃ storage,
      result = .ok (storage, (front ++ arg).length, left, rest) ∧ storage.length = size ∧
        front ++ arg <+: storage ∧ (front ++ arg).length + left = size ∧ 0 < left

theorem ScansTo.cons {size : ℕ} {ch : UInt8} {arg : Option (Bytes × ℕ × Bytes)}
    {result : Except (SplitError ε) (Bytes × ℕ × ℕ × Bytes)}
    (h : ScansTo size (front ++ [ch]) result arg) :
    ScansTo size front result (arg.map fun r => (ch :: r.1, r.2)) := by
  rcases arg with _ | ⟨arg, left, rest⟩
  · exact h
  · obtain ⟨storage, hres, hlen, hfront, hsize⟩ := h
    rw [List.append_assoc, List.singleton_append] at hres hfront hsize
    exact ⟨storage, hres, hlen, hfront, hsize⟩

/-- **One argument** in the storage. -/
theorem scansTo_scanInto {quote : UInt8} {remaining : ℕ} {line : Bytes} (hfront : front <+: storage)
    (hsize : front.length + remaining = storage.length) (hroom : 0 < remaining) :
    ScansTo storage.length front (scanInto einval e2big quote storage front.length remaining line)
      (scanArg quote remaining line) := by
  -- a byte that is stored belongs to the front of the next round
  have hstore {remaining : ℕ} {front storage : Bytes} (hroom : ¬ remaining < 2)
      (hfront : front <+: storage) (hsize : front.length + remaining = storage.length)
      (ch : UInt8) : ∃ cells, Cells.store storage front.length ch = some cells ∧
        cells.length = storage.length ∧ front ++ [ch] <+: cells ∧
        (front ++ [ch]).length + (remaining - 1) = cells.length := by
    obtain ⟨cells, hcells, hlen, hnext⟩ := Cells.store_front (a := ch) hfront (by omega)
    refine ⟨cells, hcells, hlen, hnext, ?_⟩
    rw [List.length_append, List.length_singleton, hlen]
    omega
  fun_induction scanArg quote remaining line generalizing front storage with
  | case1 quote remaining hq => exact ⟨einval, by rw [scanInto, if_pos hq]⟩
  | case2 quote remaining hq =>
    rw [scanInto, if_neg hq]
    exact ⟨storage, by simp, rfl, by simpa using hfront, by simpa using hsize, hroom⟩
  | case3 quote remaining ch rest hblank =>
    unfold scanInto
    rw [if_pos hblank]
    exact ⟨storage, by simp, rfl, by simpa using hfront, by simpa using hsize, hroom⟩
  | case4 quote remaining ch hblank hback =>
    unfold scanInto
    rw [if_neg hblank, if_pos hback]
    exact ⟨einval, rfl⟩
  | case5 quote remaining ch hblank hback ch' rest' hfull =>
    unfold scanInto
    rw [if_neg hblank, if_pos hback]
    exact ⟨e2big, if_pos hfull⟩
  | case6 quote remaining ch hblank hback ch' rest' hfull ih =>
    obtain ⟨cells, hcells, hlen, hnext, hleft⟩ := hstore hfull hfront hsize ch'
    have hrest := ih hnext hleft (by omega)
    rw [hlen, List.length_append, List.length_singleton] at hrest
    unfold scanInto
    rw [if_neg hblank, if_pos hback]
    dsimp only
    rw [if_neg hfull, hcells]
    exact hrest.cons
  | case7 quote remaining ch rest hblank hback hopen ih =>
    unfold scanInto
    rw [if_neg hblank, if_neg hback, if_pos hopen]
    exact ih hfront hsize hroom
  | case8 quote remaining ch rest hblank hback hopen hclose ih =>
    unfold scanInto
    rw [if_neg hblank, if_neg hback, if_neg hopen, if_pos hclose]
    exact ih hfront hsize hroom
  | case9 quote remaining ch rest hblank hback hopen hclose hfull =>
    unfold scanInto
    rw [if_neg hblank, if_neg hback, if_neg hopen, if_neg hclose, if_pos hfull]
    exact ⟨e2big, rfl⟩
  | case10 quote remaining ch rest hblank hback hopen hclose hfull ih =>
    obtain ⟨cells, hcells, hlen, hnext, hleft⟩ := hstore hfull hfront hsize ch
    have hrest := ih hnext hleft (by omega)
    rw [hlen, List.length_append, List.length_singleton] at hrest
    unfold scanInto
    rw [if_neg hblank, if_neg hback, if_neg hopen, if_neg hclose, if_neg hfull, hcells]
    exact hrest.cons

/-- The arguments as they stand in the storage. -/
def packed (args : List Bytes) : Bytes := args.flatMap (· ++ [0])

/-- Where they start, behind the first `start` bytes. -/
def startsFrom : ℕ → List Bytes → List ℕ
  | _, [] => []
  | start, arg :: args => start :: startsFrom (start + arg.length + 1) args

theorem length_startsFrom (start : ℕ) (args : List Bytes) :
    (startsFrom start args).length = args.length := by
  induction args generalizing start with
  | nil => rfl
  | cons arg args ih => rw [startsFrom, List.length_cons, ih, List.length_cons]

theorem startsFrom_append (start : ℕ) (args : List Bytes) (arg : Bytes) :
    startsFrom start (args ++ [arg]) = startsFrom start args ++ [start + (packed args).length] := by
  induction args generalizing start with
  | nil => rfl
  | cons a args ih =>
    rw [List.cons_append, startsFrom, ih, startsFrom, List.cons_append, packed, packed,
      List.flatMap_cons, List.length_append, List.length_append, List.length_singleton,
      Nat.add_assoc start, Nat.add_assoc start]

/-- The memory holds these arguments. -/
structure SplitMem.Holds (mem : SplitMem) (args : List Bytes) : Prop where
  storage : packed args <+: mem.storage
  argv : startsFrom 0 args <+: mem.argv
  argc : mem.argc = args.length

theorem map_startsFrom {args : List Bytes} (hargs : ∀ arg ∈ args, 0 ∉ arg) (before rest : Bytes) :
    (startsFrom before.length args).map
      (fun start => cstr ((before ++ packed args ++ rest).drop start)) = args := by
  induction args generalizing before with
  | nil => rfl
  | cons arg args ih =>
    obtain ⟨harg, hargs⟩ := List.forall_mem_cons.1 hargs
    have hnext := ih hargs (before ++ (arg ++ [0]))
    have hwhole : before ++ packed (arg :: args) ++ rest =
        before ++ (arg ++ [0]) ++ packed args ++ rest := by simp [packed]
    have hfirst : cstr ((before ++ packed (arg :: args) ++ rest).drop before.length) = arg := by
      refine cstr_of_isPrefixed ⟨packed args ++ rest, ?_⟩ harg
      simp [packed]
    rw [startsFrom, List.map_cons, hfirst, hwhole]
    have hstart : (before ++ (arg ++ [0])).length = before.length + arg.length + 1 := by
      simp [Nat.add_assoc]
    rw [hstart] at hnext
    rw [hnext]

/-- And they can be read back. -/
theorem SplitMem.Holds.args_eq {mem : SplitMem} {args : List Bytes} (h : mem.Holds args)
    (hargs : ∀ arg ∈ args, 0 ∉ arg) : mem.args = args := by
  obtain ⟨rest, hrest⟩ := h.storage
  have hargv : mem.argv.take mem.argc = startsFrom 0 args := by
    obtain ⟨more, hmore⟩ := h.argv
    rw [← hmore, h.argc, ← length_startsFrom 0 args, List.take_left]
  have hmap := map_startsFrom hargs [] rest
  rw [List.length_nil, List.nil_append, hrest] at hmap
  rw [SplitMem.args, hargv, hmap]

theorem packed_append (args : List Bytes) (arg : Bytes) :
    packed (args ++ [arg]) = packed args ++ arg ++ [0] := by
  simp [packed]

/-- The outer loop in a memory of these sizes, next to the arguments it should find. -/
def SplitsTo (mem : SplitMem) (result : Except (SplitError ε) SplitMem) :
    Option (List Bytes) → Prop
  | none => ∃ e, result = .error (.failed e)
  | some args => ∃ mem', result = .ok mem' ∧ mem'.Holds args ∧
      mem'.storage.length = mem.storage.length ∧ mem'.argv.length = mem.argv.length

theorem SplitsTo.of_sizes {mem mem₁ : SplitMem} {result : Except (SplitError ε) SplitMem}
    {spec : Option (List Bytes)} (h : SplitsTo mem₁ result spec)
    (hstorage : mem₁.storage.length = mem.storage.length)
    (hargv : mem₁.argv.length = mem.argv.length) : SplitsTo mem result spec := by
  cases spec with
  | none => exact h
  | some args =>
    obtain ⟨mem', hres, hholds, hstorage', hargv'⟩ := h
    exact ⟨mem', hres, hholds, hstorage'.trans hstorage, hargv'.trans hargv⟩

theorem SplitsTo.sized {mem : SplitBuffer} {result : Except (SplitError ε) SplitMem}
    {args : List Bytes} (h : SplitsTo mem.1 result (some args)) :
    ∃ mem', result = .ok mem' ∧ mem'.Holds args ∧ mem'.Sized := by
  obtain ⟨mem', hres, hholds, hstorage, hargv⟩ := h
  exact ⟨mem', hres, hholds, hstorage.trans mem.2.1, hargv.trans mem.2.2⟩

/-- **All the arguments** in the memory. -/
theorem splitsTo_loop {fuel : ℕ} {mem : SplitMem} {args : List Bytes} {remaining : ℕ} {line : Bytes}
    (hmem : mem.Holds args) (hargv : mem.argv.length = ps4ShellMaxArgs)
    (hsize : (packed args).length + remaining = mem.storage.length)
    (hlen : args.length ≤ ps4ShellMaxArgs) :
    SplitsTo mem
      (splitIntoLoop einval e2big ps4ShellMaxArgs fuel mem (packed args).length remaining line)
      (splitLoop fuel args remaining line) := by
  induction fuel generalizing mem args remaining line with
  | zero => exact ⟨mem, rfl, hmem, rfl, rfl⟩
  | succ fuel ih =>
    rw [splitIntoLoop, splitLoop]
    rcases line.dropWhile isBlank with _ | ⟨ch, rest⟩
    · exact ⟨mem, rfl, hmem, rfl, rfl⟩
    dsimp only
    rw [hmem.argc]
    by_cases hfull : args.length = ps4ShellMaxArgs ∨ remaining < 2
    · rw [if_pos hfull, if_pos hfull]
      exact ⟨e2big, rfl⟩
    rw [if_neg hfull, if_neg hfull]
    -- the start of the argument
    obtain ⟨argv, hstart, hargvlen, hstarts⟩ :=
      Cells.store_front (a := (packed args).length) hmem.argv (by
        rw [length_startsFrom, hargv]
        omega)
    rw [length_startsFrom] at hstart
    rw [hstart]
    have hscan : ScansTo mem.storage.length (packed args)
        (scanInto einval e2big 0 mem.storage (packed args).length remaining (ch :: rest))
        (scanArg 0 remaining (ch :: rest)) :=
      scansTo_scanInto hmem.storage hsize (by omega)
    dsimp only
    generalize scanInto einval e2big 0 mem.storage (packed args).length remaining (ch :: rest) =
      result at hscan ⊢
    generalize scanArg 0 remaining (ch :: rest) = read at hscan ⊢
    rcases read with _ | ⟨arg, left, line'⟩
    · obtain ⟨e, rfl⟩ := hscan
      exact ⟨e, rfl⟩
    obtain ⟨storage, rfl, hstorage, hfront, hleft, hpos⟩ := hscan
    -- the NUL behind it
    obtain ⟨cells, hnul, hcells, hpacked⟩ :=
      Cells.store_front (a := (0 : UInt8)) hfront (by omega)
    dsimp only
    rw [hnul]
    rw [← packed_append] at hpacked
    have hlength : (packed (args ++ [arg])).length = (packed args ++ arg).length + 1 := by
      rw [packed_append, List.length_append, List.length_singleton]
    have hholds : SplitMem.Holds ⟨cells, argv, args.length + 1⟩ (args ++ [arg]) := by
      refine ⟨hpacked, ?_, by simp⟩
      rw [startsFrom_append, Nat.zero_add]
      exact hstarts
    have hroom : (packed (args ++ [arg])).length + (left - 1) = cells.length := by
      rw [hlength]
      omega
    have hmore : (args ++ [arg]).length ≤ ps4ShellMaxArgs := by
      rw [List.length_append, List.length_singleton]
      omega
    have hnext := @ih _ _ _ line' hholds (hargvlen.trans hargv) hroom hmore
    rw [hlength] at hnext
    exact hnext.of_sizes (hcells.trans hstorage) hargvlen

/-- **The memory holds what `splitCommand` finds.** -/
theorem splitsTo_splitInto {mem : SplitMem} (hmem : mem.Sized) (command : Bytes) :
    SplitsTo mem (splitInto einval e2big ps4ShellMaxArgs command mem) (splitCommand command) := by
  have hempty : SplitMem.Holds { mem with argc := 0 } [] :=
    ⟨List.nil_prefix, List.nil_prefix, rfl⟩
  have hsize : (packed []).length + argStorage = mem.storage.length := by
    rw [hmem.1]
    exact Nat.zero_add _
  unfold splitInto
  rw [hmem.1]
  exact (splitsTo_loop hempty hmem.2 hsize (Nat.zero_le _)).of_sizes rfl rfl

end Memory

/-- The lines that are refused are those that have no arguments. -/
theorem splitCommand_iff {command : Bytes} {args : List Bytes} :
    splitCommand command = some args ↔
      ¬ SplitFails (cstr command) ∧ (lex (cstr command)).all = args := by
  rw [splitCommand, splitLoop_iff le_rfl (Nat.zero_le _), ← lex, HasWords, List.length_nil,
    List.drop_zero, LexState.Closed, SplitFails]
  constructor
  · rintro ⟨⟨hquote, hescaped⟩, rfl, hlen, hfits⟩
    refine ⟨?_, rfl⟩
    rintro (h | h | h | h)
    · exact h hquote
    · exact absurd (hescaped.symm.trans h) (by decide)
    · omega
    · exact h hfits
  · rintro ⟨hfails, rfl⟩
    simp only [not_or, not_not] at hfails
    obtain ⟨hquote, hescaped, hlen, hfits⟩ := hfails
    exact ⟨⟨hquote, Bool.eq_false_of_not_eq_true hescaped⟩, rfl, Nat.le_of_not_lt hlen, hfits⟩

/-- **Splitting inverts quoting**, in both copies and inside of their arrays. -/
theorem split_command_inverts_quoting (command : Bytes) (mem : SplitBuffer) :
    (¬ SplitFails (cstr command) →
      ∃ shell scp : SplitBuffer,
        shellSplitCommand command mem.1 = .ok shell.1 ∧ scpSplitCommand command mem.1 = .ok scp.1 ∧
        shell.1.args = (lex (cstr command)).all ∧ scp.1.args = (lex (cstr command)).all) ∧
    (SplitFails (cstr command) →
      (∃ e, shellSplitCommand command mem.1 = .error (.failed e)) ∧
        scpSplitCommand command mem.1 = .error (.failed ())) ∧
    (∀ args, QuotedLine args command → (∀ arg ∈ args, 0 ∉ arg) →
      args.length ≤ ps4ShellMaxArgs → StorageFits argStorage args →
        ¬ SplitFails (cstr command) ∧ (lex (cstr command)).all = args) := by
  have hshell : SplitsTo mem.1 (shellSplitCommand command mem.1) (splitCommand command) :=
    splitsTo_splitInto mem.2 command
  have hscp : SplitsTo mem.1 (scpSplitCommand command mem.1) (splitCommand command) :=
    splitsTo_splitInto mem.2 command
  refine ⟨fun hfine => ?_, fun hfails => ?_, fun args hquoted hnul hlen hfits => ?_⟩
  · rw [splitCommand_iff.2 ⟨hfine, rfl⟩] at hshell hscp
    have hargs := not_mem_lex (not_mem_cstr command)
    obtain ⟨shell, hres, hholds, hsizes⟩ := hshell.sized
    obtain ⟨scp, hres', hholds', hsizes'⟩ := hscp.sized
    exact ⟨⟨shell, hsizes⟩, ⟨scp, hsizes'⟩, hres, hres', hholds.args_eq hargs,
      hholds'.args_eq hargs⟩
  · have hnone : splitCommand command = none := by
      rw [Option.eq_none_iff_forall_not_mem]
      exact fun args hargs => (splitCommand_iff.1 hargs).1 hfails
    rw [hnone] at hshell hscp
    obtain ⟨e, hfailed⟩ := hscp
    exact ⟨hshell, hfailed⟩
  · obtain ⟨hclosed, hall⟩ := lex_of_quotedLine hquoted
    rw [cstr_eq_self (not_mem_quotedLine hquoted hnul)]
    refine ⟨?_, hall⟩
    rw [SplitFails, hall]
    rintro (h | h | h | h)
    · exact h hclosed.1
    · exact absurd (hclosed.2.symm.trans h) (by decide)
    · omega
    · exact h hfits

end Ps4Dropbear
