import Mathlib.Data.List.Basic
import Mathlib.Tactic.Common

/-!
# Calls and readiness reports

The system calls that a thread makes on descriptors `D`, as a log with the newest call first.  A
`select` reports descriptors as ready for a direction; a report is used up by the first call in
that direction.

* `readReported d log`, `writeReported d log` : the last `select` that looked at `d` has reported
  it, and nothing has been read from (written to) `d` since.
* `gated log` : every call of the log was reported.
-/

namespace Ps4Dropbear

/-- A call on descriptors. -/
inductive Call (D : Type*)
  /-- A `select` over both directions, with the descriptors that it reports. -/
  | select (readfds writefds : List D)
  /-- A `select` on one descriptor for reading. -/
  | selectRead (d : D) (ready : Bool)
  | read (d : D)
  | write (d : D)

namespace Call

variable {D : Type*} [DecidableEq D]

/-- `d` has been reported as ready for reading, and not been read since. -/
def readReported (d : D) : List (Call D) → Bool
  | [] => false
  | .select r _ :: _ => decide (d ∈ r)
  | .selectRead d' ready :: log => if d = d' then ready else readReported d log
  | .read d' :: log => !decide (d = d') && readReported d log
  | .write _ :: log => readReported d log

/-- `d` has been reported as ready for writing, and not been written since. -/
def writeReported (d : D) : List (Call D) → Bool
  | [] => false
  | .select _ w :: _ => decide (d ∈ w)
  | .selectRead _ _ :: log => writeReported d log
  | .read _ :: log => writeReported d log
  | .write d' :: log => !decide (d = d') && writeReported d log

/-- Every call of the log is on a descriptor that was reported for it. -/
def gated : List (Call D) → Bool
  | [] => true
  | .select _ _ :: log => gated log
  | .selectRead _ _ :: log => gated log
  | .read d :: log => readReported d log && gated log
  | .write d :: log => writeReported d log && gated log

variable {d d' : D} {r w : List D} {ready : Bool} {log : List (Call D)}

@[simp] theorem readReported_select :
    readReported d (.select r w :: log) = true ↔ d ∈ r :=
  decide_eq_true_iff

@[simp] theorem writeReported_select :
    writeReported d (.select r w :: log) = true ↔ d ∈ w :=
  decide_eq_true_iff

@[simp] theorem readReported_selectRead_self :
    readReported d (.selectRead d ready :: log) = ready :=
  if_pos rfl

@[simp] theorem readReported_selectRead_of_ne (h : d ≠ d') :
    readReported d (.selectRead d' ready :: log) = readReported d log :=
  if_neg h

@[simp] theorem readReported_read_of_ne (h : d ≠ d') :
    readReported d (.read d' :: log) = readReported d log := by
  change (!decide (d = d') && readReported d log) = readReported d log
  rw [decide_eq_false h]
  rfl

@[simp] theorem readReported_read_self : readReported d (.read d :: log) = false := by
  change (!decide (d = d) && readReported d log) = false
  rw [decide_eq_true rfl]
  rfl

@[simp] theorem writeReported_write_of_ne (h : d ≠ d') :
    writeReported d (.write d' :: log) = writeReported d log := by
  change (!decide (d = d') && writeReported d log) = writeReported d log
  rw [decide_eq_false h]
  rfl

@[simp] theorem writeReported_write_self : writeReported d (.write d :: log) = false := by
  change (!decide (d = d) && writeReported d log) = false
  rw [decide_eq_true rfl]
  rfl

@[simp] theorem gated_read :
    gated (.read d :: log) = true ↔ readReported d log = true ∧ gated log = true :=
  Bool.and_eq_true_iff

@[simp] theorem gated_write :
    gated (.write d :: log) = true ↔ writeReported d log = true ∧ gated log = true :=
  Bool.and_eq_true_iff

/-- `log'` is `log` with calls behind it that use up reports and make none. -/
structure Later (log log' : List (Call D)) : Prop where
  writeReported : ∀ d, writeReported d log' = true → writeReported d log = true
  gated : gated log' = true → gated log = true

namespace Later

variable {log' log'' : List (Call D)}

theorem refl (log : List (Call D)) : Later log log := ⟨fun _ h => h, id⟩

theorem trans (h : Later log log') (h' : Later log' log'') : Later log log'' :=
  ⟨fun d hd => h.writeReported d (h'.writeReported d hd), fun hg => h.gated (h'.gated hg)⟩

theorem read (log : List (Call D)) (d : D) : Later log (.read d :: log) :=
  ⟨fun _ h => h, fun hg => (gated_read.1 hg).2⟩

theorem write (log : List (Call D)) (d : D) : Later log (.write d :: log) := by
  refine ⟨?_, fun hg => (gated_write.1 hg).2⟩
  intro d' h
  simp only [Call.writeReported, Bool.and_eq_true] at h
  exact h.2

/-- A call without a report is never made good. -/
theorem not_gated (h : Later log log') (hg : Call.gated log = false) : Call.gated log' = false := by
  by_contra hne
  simp [h.gated (by simpa using hne)] at hg

end Later

end Call

end Ps4Dropbear
