import Ps4Dropbear.Shell.HeadTail
import Ps4Dropbear.Text.Strtol

/-!
# Numbers on the command line

`chmod`, `head -n`, `tail -n` and `hexdump -n` each convert an argument with a function of the C
library and look at `*endptr` and at the value.  A text without a digit has `*endptr` at its start,
so the empty text is taken for `0`; blanks and a sign are skipped before the digits; and `hexdump`
does not look at `errno`.

* `NumericCommand` : the four commands, with their base and their largest value.
* `NumericCommand.Validates` : a command acts on a number within its range, and on nothing else.
* `NumericCommand.Slips` : the texts that are taken for a number and are none.

**Main result**: a command validates its argument exactly when the argument does not slip through
(`validates_iff`).
-/

namespace Ps4Dropbear

namespace ShellProg

/-- What `chmod` does when the mode is accepted. -/
def setMode (L : Libc) (state : ShellState) (name : Bytes) (value : ℕ) : ShellProg ℤ :=
  let report (errno : Errno) :=
    shellError L (ascii "chmod") name (if errno = .zero then .einval else errno)
  match resolveArg state name with
  | none => report .enametoolong
  | some first => do
    match ← sys (.chmod first value) with
    | .ok _ => return 0
    | .error e => report e

/-- The program only writes to its writer, and it does not succeed. -/
def Rejects (p : ShellProg ℤ) : Prop :=
  Prog.Safe (fun _ => True) (fun h => ∀ x ∈ h, ∃ bs, x.1 = .emit bs) (fun status _ => status ≠ 0)
    p []

end ShellProg

open ShellProg (Rejects command if_other_name)

/-- The commands that have a number among their arguments. -/
inductive NumericCommand
  | chmod
  | head
  | tail
  | hexdump
  deriving DecidableEq, Repr

namespace NumericCommand

/-- The base of the number. -/
def base : NumericCommand → ℕ
  | chmod => 8
  | _ => 10

/-- The largest number that the command takes. -/
def max : NumericCommand → ℕ
  | chmod => 0o7777
  | head | tail => 100000
  | hexdump => 2 ^ 64 - 1

/-- The arguments of the command, its name included. -/
def argv : NumericCommand → Bytes → Bytes → List Bytes
  | chmod, value, name => [ascii "chmod", value, name]
  | head, value, name => [ascii "head", ascii "-n", value, name]
  | tail, value, name => [ascii "tail", ascii "-n", value, name]
  | hexdump, value, name => [ascii "hexdump", ascii "-n", value, name]

/-- What the command does with a number that it accepts. -/
def act (L : Libc) (state : ShellState) (name : Bytes) : NumericCommand → ℕ → ShellProg ℤ
  | chmod, v => ShellProg.setMode L state name v
  | head, v => ShellProg.commandHead L state name v
  | tail, v => ShellProg.commandTail L state name v
  | hexdump, v => ShellProg.commandHexdump L state name v

/-- The text is a number that the command takes: at least one digit, and nothing but digits. -/
def IsNumber (c : NumericCommand) (value : Bytes) (v : ℕ) : Prop :=
  value ≠ [] ∧ (∀ b ∈ value, isBaseDigit c.base b) ∧ v = digitsValue c.base value ∧ v ≤ c.max

/-- The command acts on a number with its value, and rejects every other text. -/
def Validates (c : NumericCommand) (value : Bytes) : Prop :=
  ∀ L errno state name,
    (∀ v, c.IsNumber value v → command L errno state (c.argv value name) = c.act L state name v) ∧
    ((¬ ∃ v, c.IsNumber value v) → Rejects (command L errno state (c.argv value name)))

/-- The range check of the command lets this number through, with a minus or without. -/
def Lets : NumericCommand → Bool → ℕ → Prop
  | chmod, true, v => v = 0 ∨ v < 2 ^ 64 ∧ 2 ^ 64 - v ≤ 0o7777
  | chmod, false, v => v ≤ 0o7777
  | head, true, v | tail, true, v => v = 0
  | head, false, v | tail, false, v => v ≤ 100000
  | hexdump, _, _ => True

/-- The texts that are accepted and are no number in the range: the empty text, a number behind
blanks or a sign that passes the range check, and for `hexdump` a number that does not fit. -/
def Slips (c : NumericCommand) (value : Bytes) : Prop :=
  value = [] ∨
  (∃ negative ds, Written c.base value negative ds ∧ value ≠ ds ∧
    c.Lets negative (digitsValue c.base ds)) ∨
  (c = hexdump ∧ (∀ b ∈ value, isBaseDigit 10 b) ∧ 2 ^ 64 ≤ digitsValue 10 value)

/-! ### What the commands read -/

/-- The number that the code goes on with, if it accepts the text. -/
def reads : NumericCommand → Bytes → Option ℕ
  | chmod, value =>
    match strtoulBase 8 value with
    | none => if value = [] then some 0 else none
    | some r => if r.rest = [] ∧ r.value ≤ 0o7777 then some r.value else none
  | head, value | tail, value =>
    if (strtol10 value).2 = [] ∧ 0 ≤ (strtol10 value).1 ∧ (strtol10 value).1 ≤ 100000 then
      some (strtol10 value).1.toNat
    else none
  | hexdump, value =>
    match strtoulBase 10 value with
    | none => if value = [] then some 0 else none
    | some r => if r.rest = [] then some r.value else none

section Reads

variable {c : NumericCommand} {value : Bytes} {v : ℕ}

/-- The value of a number behind blanks and a sign, if the range check lets it through. -/
def taken : NumericCommand → Bool → ℕ → Option ℕ
  | chmod, negative, v =>
    if strtoulValue negative v ≤ 0o7777 then some (strtoulValue negative v) else none
  | head, negative, v | tail, negative, v =>
    if 0 ≤ strtolValue negative v ∧ strtolValue negative v ≤ 100000 then
      some (strtolValue negative v).toNat
    else none
  | hexdump, negative, v => some (strtoulValue negative v)

theorem isSome_taken (c : NumericCommand) (negative : Bool) (v : ℕ) :
    (c.taken negative v).isSome ↔ c.Lets negative v := by
  cases c <;> cases negative <;>
    simp only [taken, Lets, strtoulValue, strtolValue, Option.isSome_ite, Option.isSome_some,
      Bool.false_eq_true, if_true, if_false]
  all_goals (try split) <;> omega

/-- A number without a sign is taken with its value. -/
theorem taken_of_le (h : v ≤ c.max) : c.taken false v = some v := by
  cases c <;> simp only [max] at h <;>
    simp only [taken, strtoulValue, strtolValue, Bool.false_eq_true, if_false]
  case chmod => rw [if_neg (show ¬ 2 ^ 64 ≤ v by omega), if_pos h]
  case hexdump => rw [if_neg (by omega)]
  case head | tail =>
    rw [if_pos (by omega)]
    congr 1
    omega

/-- A text that `strtoul` reads to its end, the empty one included. -/
theorem strtoulBase_cases {base : ℕ} (P : ℕ → Prop) [DecidablePred P] :
    (match strtoulBase base value with
      | none => if value = [] then some 0 else none
      | some r => if r.rest = [] ∧ P r.value then some r.value else none) = some v ↔
    value = [] ∧ v = 0 ∨ ∃ negative ds, Written base value negative ds ∧
      P (strtoulValue negative (digitsValue base ds)) ∧
      strtoulValue negative (digitsValue base ds) = v := by
  have hend {negative : Bool} {ds : Bytes} (h : Written base value negative ds) :=
    strtoulBase_end.2 ⟨negative, ds, h, rfl, rfl⟩
  rcases hread : strtoulBase base value with _ | ⟨x, rest, range⟩
  · dsimp only
    constructor
    · intro h
      obtain ⟨hempty, hv⟩ := Option.ite_none_right_eq_some.1 h
      exact .inl ⟨hempty, (Option.some.inj hv).symm⟩
    · rintro (⟨rfl, rfl⟩ | ⟨negative, ds, hw, -⟩)
      · rfl
      · rw [hend hw] at hread
        cases hread
  · dsimp only
    constructor
    · intro h
      obtain ⟨⟨rfl, hP⟩, hv⟩ := Option.ite_none_right_eq_some.1 h
      obtain ⟨negative, ds, hw, rfl, -⟩ := strtoulBase_end.1 hread
      exact .inr ⟨negative, ds, hw, hP, Option.some.inj hv⟩
    · rintro (⟨rfl, rfl⟩ | ⟨negative, ds, hw, hP, rfl⟩)
      · cases hread
      · rw [hend hw] at hread
        cases hread
        rw [if_pos ⟨rfl, hP⟩]

/-- The same for `strtol` and the range of `parse_line_count`. -/
theorem strtol10_cases :
    (if (strtol10 value).2 = [] ∧ 0 ≤ (strtol10 value).1 ∧ (strtol10 value).1 ≤ 100000 then
      some (strtol10 value).1.toNat else none) = some v ↔
    value = [] ∧ v = 0 ∨ ∃ negative ds, Written 10 value negative ds ∧
      (0 ≤ strtolValue negative (digitsValue 10 ds) ∧
        strtolValue negative (digitsValue 10 ds) ≤ 100000) ∧
      (strtolValue negative (digitsValue 10 ds)).toNat = v := by
  rcases hread : strtol10 value with ⟨x, rest⟩
  dsimp only
  constructor
  · intro h
    obtain ⟨⟨rfl, hrange⟩, hv⟩ := Option.ite_none_right_eq_some.1 h
    rcases strtol10_end.1 hread with ⟨hempty, rfl⟩ | ⟨negative, ds, hw, rfl⟩
    · exact .inl ⟨hempty, (Option.some.inj hv).symm⟩
    · exact .inr ⟨negative, ds, hw, hrange, Option.some.inj hv⟩
  · rintro (⟨rfl, rfl⟩ | ⟨negative, ds, hw, hrange, rfl⟩)
    · cases hread
      rfl
    · rw [strtol10_end.2 (.inr ⟨negative, ds, hw, rfl⟩)] at hread
      cases hread
      rw [if_pos ⟨rfl, hrange⟩]

/-- **What the commands read**, in terms of the text. -/
theorem reads_eq_some : c.reads value = some v ↔
    value = [] ∧ v = 0 ∨ ∃ negative ds, Written c.base value negative ds ∧
      c.taken negative (digitsValue c.base ds) = some v := by
  cases c with
  | chmod =>
    refine (strtoulBase_cases (· ≤ 0o7777)).trans ?_
    simp only [base]
    simp only [taken, Option.ite_none_right_eq_some, Option.some.injEq]
  | head | tail =>
    refine strtol10_cases.trans ?_
    simp only [base]
    simp only [taken, Option.ite_none_right_eq_some, Option.some.injEq]
  | hexdump =>
    have h := @strtoulBase_cases value v 10 (fun _ => True) _
    simpa only [taken, Option.some.injEq, base, and_true, true_and, reads] using h

theorem lets_false (h : c.Lets false v) : v ≤ c.max ∨ c = hexdump ∧ 2 ^ 64 ≤ v := by
  cases c with
  | chmod | head | tail => exact .inl h
  | hexdump =>
    simp only [max, true_and]
    omega

/-- A number in the range is read with its value. -/
theorem IsNumber.reads (h : c.IsNumber value v) : c.reads value = some v := by
  obtain ⟨hne, hdigits, rfl, hle⟩ := h
  exact reads_eq_some.2 (.inr ⟨false, value, written_digits hne hdigits, taken_of_le hle⟩)

/-- The texts that slip through are those that are read and are no number in the range. -/
theorem slips_iff : c.Slips value ↔ (c.reads value).isSome ∧ ¬ ∃ v, c.IsNumber value v := by
  constructor
  · rintro (rfl | ⟨negative, ds, hw, hne, hlets⟩ | ⟨rfl, hdigits, hbig⟩)
    · rw [reads_eq_some.2 (.inl ⟨rfl, rfl⟩)]
      exact ⟨rfl, fun ⟨v, h⟩ => h.1 rfl⟩
    · obtain ⟨v, hv⟩ := Option.isSome_iff_exists.1 ((isSome_taken _ _ _).2 hlets)
      rw [reads_eq_some.2 (.inr ⟨negative, ds, hw, hv⟩)]
      exact ⟨rfl, fun ⟨v, h⟩ => hne (hw.eq_of_digits h.2.1).2.symm⟩
    · refine ⟨?_, ?_⟩
      · have hne : value ≠ [] := by
          rintro rfl
          exact absurd hbig (by decide)
        have hw : Written (base hexdump) value false value := written_digits hne hdigits
        rw [reads_eq_some.2 (.inr ⟨false, value, hw, rfl⟩)]
        rfl
      · rintro ⟨v, -, -, rfl, hle⟩
        have hle : digitsValue 10 value ≤ 2 ^ 64 - 1 := hle
        omega
  · rintro ⟨hreads, hnot⟩
    obtain ⟨v, hv⟩ := Option.isSome_iff_exists.1 hreads
    rcases reads_eq_some.1 hv with ⟨rfl, -⟩ | ⟨negative, ds, hw, htaken⟩
    · exact .inl rfl
    · have hlets := (isSome_taken _ _ _).1 (by rw [htaken]; rfl)
      by_cases hds : value = ds
      · -- the text is digits alone, so the number is out of the range
        subst hds
        have ⟨_, _, _, _, _, hne, hdigits⟩ := hw
        obtain ⟨rfl, -⟩ := hw.eq_of_digits hdigits
        rcases lets_false hlets with hle | ⟨rfl, hbig⟩
        · exact absurd ⟨_, hne, hdigits, rfl, hle⟩ hnot
        · exact .inr (.inr ⟨rfl, hdigits, hbig⟩)
      · exact .inr (.inl ⟨negative, ds, hw, hds, hlets⟩)

end Reads

/-! ### What the commands do -/

section Commands

variable {c : NumericCommand} {L : Libc} {errno : Errno} {state : ShellState}
variable {value name : Bytes} {v : ℕ}

/-- The programs that only report an error. -/
theorem rejects_writeFmt (text : Bytes) {status : ℤ} (hstatus : status ≠ 0) :
    Rejects (do
      if (← ShellProg.writeFmt text) ≠ 0 then return -1
      return status) := by
  have hend (a : ℤ) (h : List ((c : WriterCall UInt8 ShellCall) × c.Answer ShellCall.Answer))
      (hI : ∀ x ∈ h, ∃ bs, x.1 = .emit bs) :
      Prog.Safe (fun _ => True) (fun h => ∀ x ∈ h, ∃ bs, x.1 = .emit bs)
        (fun status _ => status ≠ 0) (if a ≠ 0 then .ret (-1) else .ret status) h := by
    split
    · exact .ret hI (by decide)
    · exact .ret hI hstatus
  unfold Rejects ShellProg.writeFmt ShellProg.writeAll
  split
  · exact hend 0 [] nofun
  · refine .call nofun fun ok _ => ?_
    have hemit : ∀ x ∈ [(⟨.emit (text.take 2047), ok⟩ :
        (c : WriterCall UInt8 ShellCall) × c.Answer ShellCall.Answer)], ∃ bs, x.1 = .emit bs := by
      intro x hx
      rw [List.mem_singleton] at hx
      exact ⟨_, congrArg Sigma.fst hx⟩
    cases ok with
    | true => exact hend 0 _ hemit
    | false => exact hend (-1) _ hemit

theorem rejects_shellError (command path : Bytes) (error : Errno) :
    Rejects (ShellProg.shellError L command path error) :=
  rejects_writeFmt _ (by decide)

theorem rejects_invalid (name : Bytes) : Rejects (ShellProg.invalid name) :=
  rejects_writeFmt _ (by decide)

/-- A program that starts with a call to the system does not reject. -/
theorem not_rejects_of_sys {call : ShellCall} (r : call.Answer) {k : call.Answer → ShellProg ℤ} :
    ¬ Rejects ((ShellProg.sys call).bind k) := by
  intro h
  have hstep : Prog.Steps ((ShellProg.sys call).bind k) [⟨.loc call, r⟩] (k r) := .call (.refl _)
  obtain ⟨hemit, -⟩ := h _ _ hstep fun _ _ => trivial
  obtain ⟨bs, hbs⟩ := hemit _ List.mem_cons_self
  cases hbs

theorem command_chmod (mode name : Bytes) :
    command L errno state [ascii "chmod", mode, name] =
      ShellProg.changeMode L errno state mode name := by
  unfold command
  dsimp only [List.headD_cons]
  rw [if_other_name (by decide), if_neg (by decide), if_other_name (by decide),
    if_other_name (by decide), if_other_name (by decide), if_other_name (by decide),
    if_other_name (by decide), if_other_name (by decide), if_other_name (by decide),
    if_other_name (by decide), if_pos ⟨rfl, rfl⟩]
  rfl

theorem command_hexdump (args : List Bytes) :
    command L errno state (ascii "hexdump" :: args) =
      (ShellProg.hexdumpArgs (ascii "hexdump" :: args)).elim (ShellProg.invalid (ascii "hexdump"))
        fun a => ShellProg.commandHexdump L state a.1 a.2 := by
  unfold command
  dsimp only [List.headD_cons]
  rw [if_other_name (by decide), if_neg (by decide), if_other_name (by decide),
    if_other_name (by decide), if_other_name (by decide), if_other_name (by decide),
    if_other_name (by decide), if_other_name (by decide), if_other_name (by decide),
    if_other_name (by decide), if_other_name (by decide), if_other_name (by decide), if_pos rfl]

/-- `head` and `tail` without a count are no commands. -/
theorem command_of_no_count {args : List Bytes} {program : Bytes}
    (hprogram : program = ascii "head" ∨ program = ascii "tail")
    (h : ShellProg.parseLineCount (program :: args) = none) :
    command L errno state (program :: args) = ShellProg.invalid program := by
  have hcount : ¬ (ShellProg.parseLineCount (program :: args)).isSome := by simp [h]
  have hne {text : Bytes} (htext : text ≠ ascii "head" ∧ text ≠ ascii "tail") :
      program ≠ text := by
    rintro rfl
    exact hprogram.elim htext.1 htext.2
  unfold command
  dsimp only [List.headD_cons]
  rw [if_other_name (hne (by decide)), if_neg (hne (by decide)),
    if_other_name (hne (by decide)), if_neg fun hc => hcount hc.2,
    if_neg fun hc => hcount hc.2, if_other_name (hne (by decide)),
    if_other_name (hne (by decide)), if_other_name (hne (by decide)),
    if_other_name (hne (by decide)), if_neg fun hc => hc.1.elim (hne (by decide)) (hne (by decide)),
    if_other_name (hne (by decide)), if_other_name (hne (by decide)),
    if_neg (hne (by decide)), if_other_name (hne (by decide)),
    if_other_name (hne (by decide))]

theorem changeMode_of_reads (h : chmod.reads value = some v) :
    ShellProg.changeMode L errno state value name = ShellProg.setMode L state name v := by
  unfold ShellProg.changeMode
  rw [reads] at h
  generalize strtoulBase 8 value = read at h ⊢
  rcases read with _ | r
  · obtain ⟨hempty, hv⟩ := Option.ite_none_right_eq_some.1 h
    cases hv
    exact if_pos ⟨hempty, Nat.zero_le _⟩
  · obtain ⟨hend, hv⟩ := Option.ite_none_right_eq_some.1 h
    cases hv
    exact if_pos hend

theorem rejects_changeMode (h : chmod.reads value = none) :
    Rejects (ShellProg.changeMode L errno state value name) := by
  unfold ShellProg.changeMode
  rw [reads] at h
  generalize strtoulBase 8 value = read at h ⊢
  rcases read with _ | r
  · have hne : value ≠ [] := fun hempty => Option.some_ne_none _ ((if_pos hempty).symm.trans h)
    dsimp only
    rw [if_neg fun hc => hne hc.1]
    exact rejects_shellError _ _ _
  · have hne : ¬ (r.rest = [] ∧ r.value ≤ 0o7777) := fun hend =>
      Option.some_ne_none _ ((if_pos hend).symm.trans h)
    dsimp only
    rw [if_neg hne]
    exact rejects_shellError _ _ _

/-- `head` and `tail` with a count. -/
theorem parseLineCount_count (program value name : Bytes) :
    ShellProg.parseLineCount [program, ascii "-n", value, name] =
      (head.reads value).map fun v => (v, name) := by
  simp only [ShellProg.parseLineCount, reads, true_and]
  split <;> rfl

theorem hexdumpArgs_count (program value name : Bytes) :
    ShellProg.hexdumpArgs [program, ascii "-n", value, name] =
      (hexdump.reads value).map fun v => (name, v) := by
  simp only [ShellProg.hexdumpArgs, reads, if_true]
  rcases strtoulBase 10 value with _ | r
  · dsimp only
    split <;> rfl
  · dsimp only
    split <;> rfl

/-- **An accepted text**: the command acts on the number it has read. -/
theorem command_of_reads (h : c.reads value = some v) :
    command L errno state (c.argv value name) = c.act L state name v := by
  cases c with
  | chmod => exact (command_chmod value name).trans (changeMode_of_reads h)
  | head =>
    refine ShellProg.command_head ?_
    rw [parseLineCount_count, h]
    rfl
  | tail =>
    refine ShellProg.command_tail ?_
    rw [parseLineCount_count, show head.reads value = some v from h]
    rfl
  | hexdump =>
    refine (command_hexdump _).trans ?_
    rw [hexdumpArgs_count, h]
    rfl

/-- **A text that is not accepted** is rejected. -/
theorem rejects_of_reads (h : c.reads value = none) :
    Rejects (command L errno state (c.argv value name)) := by
  cases c with
  | chmod =>
    rw [argv, command_chmod]
    exact rejects_changeMode h
  | head =>
    rw [argv, command_of_no_count (.inl rfl) (by rw [parseLineCount_count, h]; rfl)]
    exact rejects_invalid _
  | tail =>
    have hcount : head.reads value = none := h
    rw [argv, command_of_no_count (.inr rfl) (by rw [parseLineCount_count, hcount]; rfl)]
    exact rejects_invalid _
  | hexdump =>
    rw [argv, command_hexdump, hexdumpArgs_count, h]
    exact rejects_invalid _

/-- Acting on a number is not rejecting it: the file is opened, or its mode is changed. -/
theorem not_rejects_act {path : Bytes} (hname : ShellProg.resolveArg state name = some path) :
    ¬ Rejects (c.act L state name v) := by
  have hopen (program : Bytes) (k : ℕ → ShellProg ℤ) :
      ¬ Rejects (ShellProg.openArg L program state name k) := by
    unfold ShellProg.openArg
    rw [hname]
    exact not_rejects_of_sys (Except.ok 0)
  cases c with
  | chmod =>
    unfold act ShellProg.setMode
    rw [hname]
    exact not_rejects_of_sys (Except.ok ())
  | head | tail | hexdump => exact hopen _ _

end Commands

end NumericCommand

open NumericCommand

/-- **Exactly the texts that do not slip through are validated.** -/
theorem validates_iff (c : NumericCommand) (value : Bytes) :
    c.Validates value ↔ ¬ c.Slips value := by
  rw [slips_iff]
  constructor
  · rintro hvalid ⟨hreads, hnot⟩
    obtain ⟨v, hv⟩ := Option.isSome_iff_exists.1 hreads
    -- a name that can be resolved
    have hname : ShellProg.resolveArg ⟨ascii "/", ascii "/"⟩ (ascii "f") = some (ascii "/f") := by
      decide +kernel
    have hreject := (hvalid plainLibc .zero ⟨ascii "/", ascii "/"⟩ (ascii "f")).2 hnot
    rw [command_of_reads hv] at hreject
    exact not_rejects_act hname hreject
  · intro hslips L errno state name
    refine ⟨fun v hv => command_of_reads hv.reads, fun hnot => rejects_of_reads ?_⟩
    rw [← Option.not_isSome_iff_eq_none]
    exact fun hreads => hslips ⟨hreads, hnot⟩

example : chmod.reads (ascii "0644") = some 0o644 := by decide +kernel

/-- `chmod '' f` sets the mode of the file to `0`. -/
theorem chmod_empty_slips :
    splitCommand (ascii "chmod '' f") = some (chmod.argv [] (ascii "f")) ∧
      ¬ chmod.Validates [] := by
  refine ⟨by decide +kernel, fun hvalid => ?_⟩
  have hname : ShellProg.resolveArg ⟨ascii "/", ascii "/"⟩ (ascii "f") = some (ascii "/f") := by
    decide +kernel
  have hnot : ¬ ∃ v, chmod.IsNumber [] v := fun ⟨v, h⟩ => h.1 rfl
  have hreject := (hvalid plainLibc .zero ⟨ascii "/", ascii "/"⟩ (ascii "f")).2 hnot
  rw [command_of_reads (show chmod.reads [] = some 0 by decide +kernel)] at hreject
  exact not_rejects_act hname hreject

end Ps4Dropbear
