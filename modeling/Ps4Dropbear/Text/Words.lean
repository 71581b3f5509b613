import Ps4Dropbear.Buffer.Basic

/-!
# Words with quotes

A line is cut into words at its blanks.  Single quotes keep everything between them as it is; double
quotes keep blanks and single quotes; a backslash outside single quotes keeps the byte behind it.

`lex` reads a line a byte at a time.  What it leaves says whether the line ends inside quotes or
behind a backslash, and otherwise what the words are.

* `LexState.step`, `lex` : the words of a line.
* `quoteWord` : a word in single quotes.
* `QuotedLine` : words in single quotes, with blanks between them.

**Main result** (`lex_of_quotedLine`): the words of such a line are the words that were quoted.
-/

namespace Ps4Dropbear

/-- Where a reader of words is: the quotes it is inside of, whether the last byte was a backslash,
the word it is in, and the words before it. -/
structure LexState where
  quote : Option UInt8
  escaped : Bool
  current : Option Bytes
  words : List Bytes
  deriving DecidableEq, Repr

namespace LexState

/-- Between two words. -/
def between (words : List Bytes) : LexState := ⟨none, false, none, words⟩

/-- Inside a word, which may be empty. -/
def inWord (s : LexState) : LexState := { s with current := some (s.current.getD []) }

/-- A byte of a word. -/
def put (s : LexState) (ch : UInt8) : LexState :=
  { s with current := some (s.current.getD [] ++ [ch]) }

/-- The words so far. -/
def all (s : LexState) : List Bytes := s.words ++ s.current.toList

/-- One byte. -/
def step (s : LexState) (ch : UInt8) : LexState :=
  if s.escaped then { s.put ch with escaped := false }
  else
    match s.quote with
    | none =>
      if isBlank ch then { s with current := none, words := s.all }
      else if ch = 92 then { s.inWord with escaped := true }
      else if ch = 39 ∨ ch = 34 then { s.inWord with quote := some ch }
      else s.put ch
    | some q =>
      if ch = q then { s with quote := none }
      else if ch = 92 ∧ q ≠ 39 then { s with escaped := true }
      else s.put ch

/-- The line may end here. -/
def Closed (s : LexState) : Prop := s.quote = none ∧ s.escaped = false

end LexState

/-- Read a line. -/
def lex (line : Bytes) : LexState := line.foldl LexState.step (LexState.between [])

/-- A word in single quotes: a single quote of its own is written outside of them, behind a
backslash. -/
def quoteWord (word : Bytes) : Bytes :=
  39 :: word.flatMap (fun ch => if ch = 39 then [39, 92, 39, 39] else [ch]) ++ [39]

/-- Words in single quotes, with any blanks between them. -/
inductive QuotedLine : List Bytes → Bytes → Prop
  | nil : QuotedLine [] []
  | last (word : Bytes) : QuotedLine [word] (quoteWord word)
  | cons {word : Bytes} {words : List Bytes} {blanks line : Bytes} (hne : words ≠ [])
      (hblanks : blanks ≠ [] ∧ ∀ ch ∈ blanks, isBlank ch) (h : QuotedLine words line) :
      QuotedLine (word :: words) (quoteWord word ++ blanks ++ line)

open LexState

section Lex

variable {words : List Bytes} {word blanks line : Bytes}

/-- The bytes between single quotes. -/
theorem foldl_step_quoted (word cur : Bytes) :
    (word.flatMap fun ch => if ch = 39 then [39, 92, 39, 39] else [ch]).foldl step
      ⟨some 39, false, some cur, words⟩ = ⟨some 39, false, some (cur ++ word), words⟩ := by
  induction word generalizing cur with
  | nil => simp
  | cons ch word ih =>
    have hhead : (if ch = 39 then [39, 92, 39, 39] else [ch] : Bytes).foldl step
        ⟨some 39, false, some cur, words⟩ = ⟨some 39, false, some (cur ++ [ch]), words⟩ := by
      split
      · next hch =>
        subst hch
        simp [step, isBlank, put, inWord]
      · next hch => simp [step, hch, put]
    rw [List.flatMap_cons, List.foldl_append, hhead, ih, List.append_assoc, List.singleton_append]

/-- A word in single quotes is one word. -/
theorem foldl_step_quoteWord (word : Bytes) :
    (quoteWord word).foldl step (between words) = ⟨none, false, some word, words⟩ := by
  have hopen : step (between words) 39 = ⟨some 39, false, some [], words⟩ := by
    simp [step, between, isBlank, inWord]
  rw [quoteWord, List.cons_append, List.foldl_cons, hopen, List.foldl_append, foldl_step_quoted]
  simp [step]

theorem step_blank {ch : UInt8} {current : Option Bytes} (hch : isBlank ch) :
    step ⟨none, false, current, words⟩ ch = between (words ++ current.toList) := by
  simp [step, hch, all, between]

/-- Blanks outside of a word make no difference. -/
theorem foldl_step_blanks (hblanks : ∀ ch ∈ blanks, isBlank ch) :
    blanks.foldl step (between words) = between words := by
  induction blanks with
  | nil => rfl
  | cons ch blanks ih =>
    obtain ⟨hch, hblanks⟩ := List.forall_mem_cons.1 hblanks
    rw [List.foldl_cons, between, step_blank hch, Option.toList_none, List.append_nil]
    exact ih hblanks

/-- Blanks end a word. -/
theorem foldl_step_end (hblanks : blanks ≠ [] ∧ ∀ ch ∈ blanks, isBlank ch) :
    blanks.foldl step ⟨none, false, some word, words⟩ = between (words ++ [word]) := by
  obtain ⟨ch, blanks, rfl⟩ := List.exists_cons_of_ne_nil hblanks.1
  obtain ⟨hch, hrest⟩ := List.forall_mem_cons.1 hblanks.2
  rw [List.foldl_cons, step_blank hch, Option.toList_some, foldl_step_blanks hrest]

theorem lex_quotedLine_from (h : QuotedLine words line) (before : List Bytes) :
    Closed (line.foldl step (between before)) ∧
      (line.foldl step (between before)).all = before ++ words := by
  induction h generalizing before with
  | nil => exact ⟨⟨rfl, rfl⟩, rfl⟩
  | last word =>
    rw [foldl_step_quoteWord]
    exact ⟨⟨rfl, rfl⟩, rfl⟩
  | @cons word words blanks line hne hblanks h ih =>
    rw [List.foldl_append, List.foldl_append, foldl_step_quoteWord, foldl_step_end hblanks]
    obtain ⟨hclosed, hall⟩ := ih (before ++ [word])
    refine ⟨hclosed, ?_⟩
    rw [hall, List.append_assoc, List.singleton_append]

/-- **Reading inverts quoting.** -/
theorem lex_of_quotedLine (h : QuotedLine words line) :
    (lex line).Closed ∧ (lex line).all = words :=
  lex_quotedLine_from h []

/-- A line of words without a NUL has none. -/
theorem not_mem_quotedLine (h : QuotedLine words line) (hwords : ∀ word ∈ words, 0 ∉ word) :
    0 ∉ line := by
  have hquote {word : Bytes} (hword : 0 ∉ word) : 0 ∉ quoteWord word := by
    intro h0
    rcases List.mem_append.1 h0 with h0 | h0
    · rcases List.mem_cons.1 h0 with h0 | h0
      · exact absurd h0 (by decide)
      · obtain ⟨ch, hch, h0⟩ := List.mem_flatMap.1 h0
        split at h0
        · exact absurd h0 (by decide)
        · rw [List.mem_singleton] at h0
          exact hword (h0 ▸ hch)
    · exact absurd h0 (by decide)
  induction h with
  | nil => exact List.not_mem_nil
  | last word => exact hquote (hwords word List.mem_cons_self)
  | @cons word words blanks line hne hblanks h ih =>
    obtain ⟨hword, hwords⟩ := List.forall_mem_cons.1 hwords
    simp only [List.mem_append, not_or]
    refine ⟨⟨hquote hword, fun h0 => ?_⟩, ih hwords⟩
    exact absurd (hblanks.2 0 h0) (by decide)

/-- The bytes of the words are bytes of the line. -/
theorem mem_of_mem_all {b : UInt8} (line : Bytes) (s : LexState) :
    ∀ word ∈ (line.foldl step s).all, b ∈ word → b ∈ line ∨ ∃ word ∈ s.all, b ∈ word := by
  induction line generalizing s with
  | nil => exact fun word hword hb => .inr ⟨word, hword, hb⟩
  | cons ch line ih =>
    intro word hword hb
    rcases ih (step s ch) word hword hb with hb | ⟨word', hword', hb'⟩
    · exact .inl (List.mem_cons_of_mem ch hb)
    -- one byte ends a word, begins an empty one or is added to one
    have hput : word' ∈ s.words ++ [s.current.getD [] ++ [ch]] →
        b ∈ ch :: line ∨ ∃ word ∈ s.all, b ∈ word := by
      intro h
      rcases List.mem_append.1 h with h | h
      · exact .inr ⟨word', List.mem_append_left _ h, hb'⟩
      · rw [List.mem_singleton.1 h] at hb'
        rcases List.mem_append.1 hb' with hb' | hb'
        · rcases hcur : s.current with _ | cur
          · simp [hcur] at hb'
          · exact .inr ⟨cur, by simp [all, hcur], by simpa [hcur] using hb'⟩
        · exact .inl (List.mem_singleton.1 hb' ▸ List.mem_cons_self)
    have hkeep : word' ∈ s.words ++ [s.current.getD []] →
        b ∈ ch :: line ∨ ∃ word ∈ s.all, b ∈ word := by
      intro h
      rcases List.mem_append.1 h with h | h
      · exact .inr ⟨word', List.mem_append_left _ h, hb'⟩
      · rw [List.mem_singleton.1 h] at hb'
        rcases hcur : s.current with _ | cur
        · simp [hcur] at hb'
        · exact .inr ⟨cur, by simp [all, hcur], by simpa [hcur] using hb'⟩
    have hsame : word' ∈ s.all → b ∈ ch :: line ∨ ∃ word ∈ s.all, b ∈ word :=
      fun h => .inr ⟨word', h, hb'⟩
    unfold step at hword'
    split at hword'
    · exact hput hword'
    · split at hword'
      · split_ifs at hword'
        · exact hsame (by simpa [all] using hword')
        · exact hkeep hword'
        · exact hkeep hword'
        · exact hput hword'
      · split_ifs at hword'
        · exact hsame hword'
        · exact hsame hword'
        · exact hput hword'

theorem not_mem_lex (hline : 0 ∉ line) : ∀ word ∈ (lex line).all, 0 ∉ word := by
  intro word hword h0
  rcases mem_of_mem_all line (between []) word hword h0 with h | ⟨word', hword', -⟩
  · exact hline h
  · exact absurd hword' List.not_mem_nil

end Lex

end Ps4Dropbear
