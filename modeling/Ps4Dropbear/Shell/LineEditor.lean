import Ps4Dropbear.Shell.Thread
import Ps4Dropbear.Text.LineEditor

/-!
# The line discipline of the interactive shell

`ps4_shell_thread` edits a line with three variables, one byte at a time.  `ShellRun` is the thread
over the bytes that have arrived, with everything it has done about them.

* `ShellThread.OnByte` : what the thread does with a byte, in nine cases.
* `ShellRun.dispatched`, `ShellRun.echoes` : the lines it has dispatched, and what it has echoed
  since its last prompt.

**Main result** (`shell_line_discipline`): the lines are those of the line editor for the same
bytes, none has a NUL or more than 511 bytes, and whenever the thread waits for a byte the echo on
the screen is the line that it holds.
-/

namespace Ps4Dropbear

/-- The lines that the shell is left by. -/
def leavesShell (line : Bytes) : Bool := line = ascii "exit" ∨ line = ascii "logout"

namespace ShellThread

/-- **What a byte does.**  One case for each branch of the loop; a byte that is no branch is ignored
and the variables stay. -/
inductive OnByte (t : ShellThread) : UInt8 → ShellThread × ShellReaction → Prop
  | secondHalf (h : t.lastWasCr = true) : OnByte t 10 ({ t with lastWasCr := false }, .write [])
  | exit {b : UInt8} (hb : b = 13 ∨ b = 10 ∧ t.lastWasCr = false)
      (h : leavesShell (cstr t.command) = true) :
      OnByte t b ({ t with lastWasCr := b = 13 }, .leave (ascii "\r\n" ++ ascii "logout\r\n"))
  | line {b : UInt8} (hb : b = 13 ∨ b = 10 ∧ t.lastWasCr = false)
      (h : leavesShell (cstr t.command) = false) :
      OnByte t b ({ t with lastWasCr := b = 13, command := [] }, .line (cstr t.command))
  | erase {b : UInt8} (hb : b = 127 ∨ b = 8) (h : t.command ≠ []) :
      OnByte t b ({ t with lastWasCr := false, command := t.command.dropLast }, .write [8, 32, 8])
  | eraseNone {b : UInt8} (hb : b = 127 ∨ b = 8) (h : t.command = []) :
      OnByte t b ({ t with lastWasCr := false }, .write [])
  | endOfFile (h : t.command = []) : OnByte t 4 (t, .leave (ascii "logout\r\n"))
  | interrupt : OnByte t 3
      ({ command := [], lastWasCr := false, status := 130 }, .prompt (ascii "^C\r\n"))
  | char {b : UInt8} (h32 : 32 ≤ b) (h127 : b ≠ 127) (h : t.command.length < commandMax) :
      OnByte t b ({ t with lastWasCr := false, command := t.command ++ [b] }, .write [b])
  | ignored {b : UInt8} (h : isKey b = false ∨ t.command ≠ [] ∧
      (b = 4 ∨ 32 ≤ b ∧ b ≠ 127 ∧ ¬ t.command.length < commandMax)) :
      OnByte t b (t, .write [])

theorem onByte_cases (t : ShellThread) (b : UInt8) : OnByte t b (t.onByte b) := by
  unfold onByte
  by_cases hend : b = 13 ∨ b = 10
  · rw [if_pos hend]
    by_cases hhalf : b = 10 ∧ t.lastWasCr
    · rw [if_pos hhalf]
      obtain ⟨rfl, hcr⟩ := hhalf
      exact .secondHalf hcr
    · rw [if_neg hhalf]
      have hb : b = 13 ∨ b = 10 ∧ t.lastWasCr = false := by
        rcases hend with h | h
        · exact .inl h
        · exact .inr ⟨h, eq_false_of_ne_true fun hcr => hhalf ⟨h, hcr⟩⟩
      by_cases hleaves : cstr t.command = ascii "exit" ∨ cstr t.command = ascii "logout"
      · dsimp only
        rw [if_pos hleaves]
        exact .exit hb (decide_eq_true hleaves)
      · dsimp only
        rw [if_neg hleaves]
        exact .line hb (decide_eq_false hleaves)
  rw [if_neg hend]
  obtain ⟨h13, h10⟩ := not_or.1 hend
  by_cases herase : b = 127 ∨ b = 8
  · rw [if_pos herase]
    by_cases hempty : t.command = []
    · rw [if_neg (by simp [hempty])]
      exact .eraseNone herase hempty
    · rw [if_pos (List.length_pos_of_ne_nil hempty)]
      exact .erase herase hempty
  rw [if_neg herase]
  obtain ⟨h127, h8⟩ := not_or.1 herase
  by_cases heof : b = 4 ∧ t.command.length = 0
  · rw [if_pos heof]
    obtain ⟨rfl, hempty⟩ := heof
    exact .endOfFile (List.length_eq_zero_iff.1 hempty)
  rw [if_neg heof]
  by_cases hint : b = 3
  · rw [if_pos hint, hint]
    exact .interrupt
  rw [if_neg hint]
  by_cases hchar : b ≥ 32 ∧ t.command.length < commandMax
  · rw [if_pos hchar]
    exact .char hchar.1 h127 hchar.2
  rw [if_neg hchar]
  refine .ignored ?_
  by_cases h4 : b = 4
  · exact .inr ⟨fun hempty => heof ⟨h4, by rw [hempty]; rfl⟩, .inl h4⟩
  · by_cases h32 : 32 ≤ b
    · have hfull : ¬ t.command.length < commandMax := fun h => hchar ⟨h32, h⟩
      refine .inr ⟨?_, .inr ⟨h32, h127, hfull⟩⟩
      intro hempty
      rw [hempty] at hfull
      exact hfull (by decide)
    · exact .inl (by simp [isKey, h32, h13, h10, h8, hint, h4])

end ShellThread

/-- The thread over some bytes: its variables, what it has done, and whether it is in its loop. -/
structure ShellRun where
  thread : ShellThread
  reactions : List ShellReaction
  running : Bool

namespace ShellRun

/-- Before the first byte. -/
def initial : ShellRun := ⟨ShellThread.initial, [], true⟩

/-- The reaction ends the loop. -/
def leaves : ShellReaction → Bool
  | .leave _ => true
  | _ => false

/-- One more byte. -/
def feed (r : ShellRun) (b : UInt8) : ShellRun :=
  if r.running then
    ⟨(r.thread.onByte b).1, r.reactions ++ [(r.thread.onByte b).2], !leaves (r.thread.onByte b).2⟩
  else r

/-- The thread over an input. -/
def fed (input : Bytes) : ShellRun := input.foldl feed initial

/-- The line that a reaction dispatches. -/
def lineOf : ShellReaction → Option Bytes
  | .line command => some command
  | _ => none

/-- The lines that have been dispatched. -/
def dispatched (r : ShellRun) : List Bytes := r.reactions.filterMap lineOf

/-- A reaction after some echoes; a prompt is a new beginning, and a line ends with one. -/
def echo (echoes : List Bytes) : ShellReaction → List Bytes
  | .write out | .leave out => echoes ++ [out]
  | .prompt _ | .line _ => []

/-- What has been echoed since the last prompt. -/
def echoes (r : ShellRun) : List Bytes := r.reactions.foldl echo []

/-! ### Invariants -/

/-- The bytes of a line that is being edited. -/
def IsLine (command : Bytes) : Prop :=
  (∀ c ∈ command, 32 ≤ c) ∧ command.length ≤ ShellThread.commandMax

/-- What holds while the thread is in its loop: the line is a line, it is empty right behind a
carriage return, and the echo on the screen is the line. -/
structure Waiting (r : ShellRun) : Prop where
  isLine : IsLine r.thread.command
  afterCr : r.thread.lastWasCr = true → r.thread.command = []
  isEcho : ∀ e ∈ r.echoes, IsEcho e
  spelled : spelled [] r.echoes.flatten = r.thread.command

section Step

variable {r : ShellRun} {b : UInt8}

theorem not_mem_of_isLine {command : Bytes} (h : IsLine command) : 0 ∉ command :=
  fun hzero => absurd (h.1 0 hzero) (by decide)

theorem cstr_of_isLine {command : Bytes} (h : IsLine command) : cstr command = command :=
  cstr_eq_self (not_mem_of_isLine h)

/-- An echo added to those before it. -/
theorem spelled_snoc {echoes : List Bytes} {e : Bytes} (h : ∀ e ∈ echoes, IsEcho e) :
    spelled [] (echoes ++ [e]).flatten = spelled (spelled [] echoes.flatten) e := by
  rw [List.flatten_append, List.flatten_singleton, spelled_append h]

theorem echoes_snoc (t : ShellThread) (reaction : ShellReaction) (running : Bool) :
    echoes ⟨t, r.reactions ++ [reaction], running⟩ = echo r.echoes reaction := by
  rw [echoes, List.foldl_append]
  rfl

/-- The thread echoes something and changes its line with it. -/
theorem Waiting.write (h : r.Waiting) {t : ShellThread} {e : Bytes} {running : Bool}
    (hline : IsLine t.command) (hcr : t.lastWasCr = true → t.command = []) (he : IsEcho e)
    (hspelled : Ps4Dropbear.spelled r.thread.command e = t.command) :
    Waiting ⟨t, r.reactions ++ [ShellReaction.write e], running⟩ := by
  have hechoes : echoes ⟨t, r.reactions ++ [ShellReaction.write e], running⟩ = r.echoes ++ [e] :=
    echoes_snoc t (.write e) running
  refine ⟨hline, hcr, ?_, ?_⟩
  · rw [hechoes]
    intro e' he'
    rcases List.mem_append.1 he' with he' | he'
    · exact h.isEcho e' he'
    · rw [List.mem_singleton.1 he']
      exact he
  · rw [hechoes, spelled_snoc h.isEcho, h.spelled, hspelled]

/-- The thread writes a prompt and begins a line. -/
theorem waiting_prompt {t : ShellThread} {reaction : ShellReaction} {running : Bool}
    (hline : t.command = []) (hprompt : ∀ echoes, echo echoes reaction = []) :
    Waiting ⟨t, r.reactions ++ [reaction], running⟩ := by
  have hechoes : echoes ⟨t, r.reactions ++ [reaction], running⟩ = [] := by
    rw [echoes_snoc, hprompt]
  refine ⟨?_, fun _ => hline, ?_, ?_⟩
  · rw [hline]
    exact ⟨nofun, Nat.zero_le _⟩
  · rw [hechoes]
    exact nofun
  · rw [hechoes, hline]
    rfl

/-- **The step lemma**: the invariant holds after a byte that does not end the loop. -/
theorem Waiting.feed (h : r.Waiting) (hrunning : (r.feed b).running = true) :
    (r.feed b).Waiting := by
  by_cases hr : r.running
  · have hfeed : r.feed b = ⟨(r.thread.onByte b).1, r.reactions ++ [(r.thread.onByte b).2],
        !leaves (r.thread.onByte b).2⟩ := if_pos hr
    have hcases := r.thread.onByte_cases b
    rw [hfeed] at hrunning ⊢
    generalize r.thread.onByte b = result at hcases hrunning ⊢
    cases hcases with
    | secondHalf hcr =>
      exact h.write h.isLine (fun hfalse => Bool.noConfusion hfalse) .nothing rfl
    | exit | endOfFile => cases hrunning
    | line => exact waiting_prompt rfl fun _ => rfl
    | interrupt => exact waiting_prompt rfl fun _ => rfl
    | erase =>
      refine h.write ⟨?_, ?_⟩ (fun hfalse => Bool.noConfusion hfalse) .erase rfl
      · exact fun c hc => h.isLine.1 c (List.dropLast_subset _ hc)
      · exact le_trans (List.length_dropLast ▸ Nat.sub_le _ _) h.isLine.2
    | eraseNone hb hempty =>
      exact h.write h.isLine (fun _ => hempty) .nothing rfl
    | char h32 h127 hroom =>
      have h8 : b ≠ 8 := by
        rintro rfl
        exact absurd h32 (by decide)
      refine h.write ⟨?_, ?_⟩ (fun hfalse => Bool.noConfusion hfalse) (.char h8) ?_
      · intro c hc
        rcases List.mem_append.1 hc with hc | hc
        · exact h.isLine.1 c hc
        · rw [List.mem_singleton.1 hc]
          exact h32
      · rw [List.length_append, List.length_singleton]
        exact hroom
      · rw [spelled_cons _ h8, Ps4Dropbear.spelled]
    | ignored => exact h.write h.isLine h.afterCr .nothing rfl
  · have hsame : r.feed b = r := if_neg hr
    rw [hsame]
    exact h

theorem running_of_feed (h : (r.feed b).running = true) : r.running = true := by
  by_contra hr
  have hsame : r.feed b = r := if_neg hr
  exact hr (hsame ▸ h)

/-- The invariant holds whenever the thread waits for a byte. -/
theorem waiting_fed {input : Bytes} (h : (fed input).running = true) : (fed input).Waiting := by
  induction input using List.reverseRecOn with
  | nil => exact ⟨⟨nofun, Nat.zero_le _⟩, fun _ => rfl, nofun, rfl⟩
  | append_singleton input b ih =>
    have hfed : fed (input ++ [b]) = (fed input).feed b := by
      rw [fed, List.foldl_append]
      rfl
    rw [hfed] at h ⊢
    exact (ih (running_of_feed h)).feed h

/-! ### The lines -/

/-- The lines of the line editor for what is still to come. -/
def linesFrom (t : ShellThread) (input : Bytes) : List Bytes :=
  editLines ShellThread.commandMax leavesShell t.command
    (keysFrom t.lastWasCr (input.filter isKey))

theorem dispatched_snoc (t : ShellThread) (reaction : ShellReaction) (running : Bool) :
    dispatched ⟨t, r.reactions ++ [reaction], running⟩ =
      r.dispatched ++ (lineOf reaction).toList := by
  rw [dispatched, List.filterMap_append]
  rcases reaction <;> rfl

/-- A key that is no newline behind a carriage return. -/
theorem linesFrom_key {t : ShellThread} (hkey : isKey b = true) (hcr : b ≠ 10 ∨ t.lastWasCr = false)
    (input : Bytes) : linesFrom t (b :: input) =
      editLines ShellThread.commandMax leavesShell t.command (keys (b :: input.filter isKey)) := by
  rw [linesFrom, List.filter_cons_of_pos hkey, keysFrom_cons hcr]

/-- A byte that ends a line. -/
theorem linesFrom_enter {t : ShellThread} (hb : b = 13 ∨ b = 10 ∧ t.lastWasCr = false)
    (input : Bytes) : linesFrom t (b :: input) =
      editLines ShellThread.commandMax leavesShell t.command
        (.enter :: keysFrom (b = 13) (input.filter isKey)) := by
  rcases hb with rfl | ⟨rfl, hcr⟩
  · rw [linesFrom_key (by decide) (.inl (by decide)), keys_cr]
    rfl
  · rw [linesFrom_key (by decide) (.inr hcr), keys_cons (by decide)]
    rfl

/-- **One byte**, in the thread and in the line editor. -/
theorem linesFrom_cons {t : ShellThread} (hline : IsLine t.command)
    (hempty : t.lastWasCr = true → t.command = []) (b : UInt8) (input : Bytes) :
    linesFrom t (b :: input) = (lineOf (t.onByte b).2).toList ++
      if leaves (t.onByte b).2 then [] else linesFrom (t.onByte b).1 input := by
  have hcases := t.onByte_cases b
  generalize t.onByte b = result at hcases ⊢
  cases hcases with
  | secondHalf hcr =>
    rw [linesFrom, List.filter_cons_of_pos (by decide), hcr]
    rfl
  | exit hb hleaves =>
    rw [cstr_of_isLine hline] at hleaves
    rw [linesFrom_enter hb, editLines, if_pos hleaves]
    rfl
  | line hb hleaves =>
    rw [cstr_of_isLine hline] at hleaves
    rw [linesFrom_enter hb, editLines, if_neg (by rw [hleaves]; decide), cstr_of_isLine hline]
    rfl
  | erase hb hne =>
    rcases hb with rfl | rfl
    · rw [linesFrom_key (by decide) (.inl (by decide)), keys_cons (by decide)]
      rfl
    · rw [linesFrom_key (by decide) (.inl (by decide)), keys_cons (by decide)]
      rfl
  | eraseNone hb hnil =>
    have hlast : t.command.dropLast = t.command := by rw [hnil]; rfl
    rcases hb with rfl | rfl
    · rw [linesFrom_key (by decide) (.inl (by decide)), keys_cons (by decide),
        show keyOf 127 = .erase from rfl, editLines, hlast]
      rfl
    · rw [linesFrom_key (by decide) (.inl (by decide)), keys_cons (by decide),
        show keyOf 8 = .erase from rfl, editLines, hlast]
      rfl
  | endOfFile hnil =>
    rw [linesFrom_key (by decide) (.inl (by decide)), keys_cons (by decide),
      show keyOf 4 = .endOfFile from rfl, editLines, if_pos hnil]
    rfl
  | interrupt =>
    rw [linesFrom_key (by decide) (.inl (by decide)), keys_cons (by decide)]
    rfl
  | char h32 h127 hroom =>
    have hlow {c : UInt8} (hc : ¬ 32 ≤ c) : b ≠ c := by
      rintro rfl
      exact hc h32
    rw [linesFrom_key (by simp [isKey, h32]) (.inl (hlow (by decide))),
      keys_cons (hlow (by decide)), keyOf_char h32 h127, editLines, if_pos hroom]
    rfl
  | ignored h =>
    rcases h with hkey | ⟨hne, h⟩
    · rw [linesFrom, List.filter_cons_of_neg (by rw [hkey]; decide)]
      rfl
    -- the line is not empty, so the byte before was no carriage return
    have hcr : t.lastWasCr = false := eq_false_of_ne_true fun hcr => hne (hempty hcr)
    rcases h with rfl | ⟨h32, h127, hfull⟩
    · rw [linesFrom_key (by decide) (.inr hcr), keys_cons (by decide),
        show keyOf 4 = .endOfFile from rfl, editLines, if_neg hne]
      rw [linesFrom, hcr]
      rfl
    · have h13 : b ≠ 13 := by
        rintro rfl
        exact absurd h32 (by decide)
      rw [linesFrom_key (by simp [isKey, h32]) (.inr hcr), keys_cons h13, keyOf_char h32 h127,
        editLines, if_neg hfull]
      rw [linesFrom, hcr]
      rfl

/-- The lines of the line editor follow those that have been dispatched. -/
theorem dispatched_foldl (h : r.running = true → r.Waiting) (input : Bytes) :
    (input.foldl feed r).dispatched =
      r.dispatched ++ if r.running then linesFrom r.thread input else [] := by
  induction input generalizing r with
  | nil =>
    have hnil : linesFrom r.thread [] = [] := by
      rw [linesFrom, List.filter_nil]
      cases r.thread.lastWasCr <;> rfl
    rw [hnil, ite_self, List.append_nil]
    rfl
  | cons b input ih =>
    rw [List.foldl_cons, ih fun hrunning => (h (running_of_feed hrunning)).feed hrunning]
    by_cases hr : r.running
    · have hwaiting := h hr
      have hfeed : r.feed b = ⟨(r.thread.onByte b).1, r.reactions ++ [(r.thread.onByte b).2],
          !leaves (r.thread.onByte b).2⟩ := if_pos hr
      rw [hfeed, dispatched_snoc, if_pos hr, linesFrom_cons hwaiting.isLine hwaiting.afterCr,
        List.append_assoc]
      cases leaves (r.thread.onByte b).2 <;> rfl
    · have hsame : r.feed b = r := if_neg hr
      rw [hsame, if_neg hr, if_neg hr]

/-- A line that is dispatched is one that was edited. -/
theorem isLine_of_mem_dispatched (h : r.running = true → r.Waiting)
    (hlines : ∀ c ∈ r.dispatched, IsLine c) : ∀ c ∈ (r.feed b).dispatched, IsLine c := by
  by_cases hr : r.running
  · have hline := (h hr).isLine
    have hfeed : r.feed b = ⟨(r.thread.onByte b).1, r.reactions ++ [(r.thread.onByte b).2],
        !leaves (r.thread.onByte b).2⟩ := if_pos hr
    have hcases := r.thread.onByte_cases b
    rw [hfeed, dispatched_snoc]
    generalize r.thread.onByte b = result at hcases ⊢
    intro c hc
    rcases List.mem_append.1 hc with hc | hc
    · exact hlines c hc
    · cases hcases with
      | line =>
        rw [List.mem_singleton.1 hc, cstr_of_isLine hline]
        exact hline
      | _ => exact absurd hc List.not_mem_nil
  · have hsame : r.feed b = r := if_neg hr
    rw [hsame]
    exact hlines

theorem isLine_fed (input : Bytes) : ∀ c ∈ (fed input).dispatched, IsLine c := by
  induction input using List.reverseRecOn with
  | nil => exact nofun
  | append_singleton input b ih =>
    have hfed : fed (input ++ [b]) = (fed input).feed b := by
      rw [fed, List.foldl_append]
      rfl
    rw [hfed]
    exact isLine_of_mem_dispatched waiting_fed ih

end Step

end ShellRun

open ShellRun

/-- **The line discipline.**  Every prefix of the input is a moment at which the thread has read that
much; it is in its loop then, waiting for the next byte, or it has left it. -/
theorem shell_line_discipline (input : Bytes) :
    (fed input).dispatched = editLines 511 leavesShell [] (keys (input.filter isKey)) ∧
    (∀ command ∈ (fed input).dispatched, 0 ∉ command ∧ command.length ≤ 511) ∧
    ∀ seen, seen <+: input → (fed seen).running = true →
      spelled [] (fed seen).echoes.flatten = (fed seen).thread.command := by
  refine ⟨?_, fun command hcommand => ?_, fun seen _ hrunning => (waiting_fed hrunning).spelled⟩
  · exact dispatched_foldl (r := initial) (fun h => @waiting_fed [] h) input
  · have hline := isLine_fed input command hcommand
    exact ⟨not_mem_of_isLine hline, hline.2⟩

end Ps4Dropbear
