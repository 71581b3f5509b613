import Ps4Dropbear.Buffer.Basic
import Ps4Dropbear.Prog.Socket

/-!
# Files

The file system calls of a program.  A file system says what each path names.  The calls that
matter here (`unlink`, `open` with `O_CREAT | O_EXCL`, `rename`) act on the last component of a
path and never follow it when it is a symbolic link, so a link is an entry like any other
(`other`).  A descriptor is known by the path it was opened on.

Two environments answer the calls.  In `FileCall.Works` a call fails only when the state of the
file system makes it fail, but reads and writes may be short.  In `FileCall.May` opening, reading,
writing, closing and renaming may also fail for no visible reason, and then change nothing.
-/

namespace Ps4Dropbear

/-- `NAME_MAX`: the longest component that a file system stores. -/
def nameMax : ℕ := 255

/-- What a path names. -/
inductive FileEntry
  | file (content : Bytes) (mode : ℕ)
  | dir
  | other
  deriving DecidableEq, Repr

/-- The parts of `struct stat` that are looked at: `S_ISREG`, `S_ISDIR`, the permission bits and
the size. -/
structure Stat where
  isReg : Bool
  isDir : Bool
  mode : ℕ
  size : ℕ
  deriving DecidableEq, Repr

/-- The component of a path after its last slash. -/
def baseName (path : Bytes) : Bytes := (path.reverse.takeWhile (· ≠ 47)).reverse

/-- The directory that a path's last component is in. -/
def dirName (path : Bytes) : Bytes :=
  let before := ((path.reverse.dropWhile (· ≠ 47)).drop 1).reverse
  if before = [] then ascii "/" else before

/-- A file system, the file mode creation mask, and the read position of the file open on each
path. -/
structure Files where
  entry : Bytes → Option FileEntry
  umask : ℕ
  offset : Bytes → ℕ

namespace Files

/-- What a path names; the empty path names nothing. -/
def lookup (w : Files) (path : Bytes) : Option FileEntry :=
  if path = [] then none else w.entry path

/-- Another entry under the path. -/
def set (w : Files) (path : Bytes) (e : Option FileEntry) : Files :=
  { w with entry := Function.update w.entry path e }

/-- The new path is one that an entry can be made under. -/
def Placeable (w : Files) (path : Bytes) : Prop :=
  path ≠ [] ∧ (baseName path).length ≤ nameMax ∧ w.lookup (dirName path) = some .dir

instance (w : Files) (path : Bytes) : Decidable (w.Placeable path) :=
  inferInstanceAs (Decidable (_ ∧ _ ∧ _))

/-- `stat`. -/
def stat (w : Files) (path : Bytes) : Option Stat :=
  (w.lookup path).map fun
    | .file content mode => ⟨true, false, mode, content.length⟩
    | .dir => ⟨false, true, 0, 0⟩
    | .other => ⟨false, false, 0, 0⟩

/-- `unlink`: directories stay. -/
def unlink (w : Files) (path : Bytes) : Option Files :=
  if w.lookup path = none ∨ w.lookup path = some .dir then none else some (w.set path none)

/-- `open` with `O_WRONLY | O_CREAT | O_EXCL`. -/
def creat (w : Files) (path : Bytes) (mode : ℕ) : Option Files :=
  if w.lookup path = none ∧ w.Placeable path then
    some (w.set path (some (.file [] (mode &&& (0o777 ^^^ (w.umask &&& 0o777))))))
  else none

/-- `open` with `O_RDONLY`, of a regular file. -/
def openRead (w : Files) (path : Bytes) : Option Files :=
  match w.lookup path with
  | some (.file _ _) => some { w with offset := Function.update w.offset path 0 }
  | _ => none

/-- What is left to read of the file open on the path. -/
def unread (w : Files) (path : Bytes) : Bytes :=
  match w.lookup path with
  | some (.file content _) => content.drop (w.offset path)
  | _ => []

/-- The position after `n` more bytes. -/
def advance (w : Files) (path : Bytes) (n : ℕ) : Files :=
  { w with offset := Function.update w.offset path (w.offset path + n) }

/-- The file open on the path with more bytes at its end. -/
def append (w : Files) (path : Bytes) (bs : Bytes) : Files :=
  match w.lookup path with
  | some (.file content mode) => w.set path (some (.file (content ++ bs) mode))
  | _ => w

/-- `rename` of a file; the new path is replaced unless it is a directory. -/
def rename (w : Files) (old new : Bytes) : Option Files :=
  match w.lookup old with
  | some (.file content mode) =>
    if old = new then some w
    else if w.lookup new = some .dir ∨ ¬ w.Placeable new then none
    else some ((w.set old none).set new (some (.file content mode)))
  | _ => none

section Lemmas

variable {w : Files} {p q : Bytes} {e e' : Option FileEntry}

theorem lookup_set_self (hp : p ≠ []) : (w.set p e).lookup p = e := by
  simp [lookup, set, hp]

theorem lookup_set_of_ne (hq : q ≠ p) : (w.set p e).lookup q = w.lookup q := by
  simp [lookup, set, Function.update_of_ne hq]

@[simp] theorem set_set : (w.set p e).set p e' = w.set p e' := by
  simp [set]

@[simp] theorem set_umask : (w.set p e).umask = w.umask := rfl

theorem append_set {content bs : Bytes} {mode : ℕ} (hp : p ≠ []) :
    (w.set p (some (.file content mode))).append p bs =
      w.set p (some (.file (content ++ bs) mode)) := by
  simp only [append, lookup_set_self hp, set_set]

theorem unlink_eq_some {w' : Files} (h : w.unlink p = some w') : w' = w.set p none := by
  unfold unlink at h
  split at h
  · cases h
  · exact (Option.some.inj h).symm

theorem unlink_set_file {content : Bytes} {mode : ℕ} (hp : p ≠ []) :
    (w.set p (some (.file content mode))).unlink p = some (w.set p none) := by
  simp [unlink, lookup_set_self hp]

theorem creat_eq_some {w' : Files} {mode : ℕ} (h : w.creat p mode = some w') :
    w.lookup p = none ∧ w.Placeable p ∧
      w' = w.set p (some (.file [] (mode &&& (0o777 ^^^ (w.umask &&& 0o777))))) := by
  unfold creat at h
  split at h
  · next hc => exact ⟨hc.1, hc.2, (Option.some.inj h).symm⟩
  · cases h

theorem creat_eq (hp : w.lookup p = none) (hplace : w.Placeable p) (mode : ℕ) :
    w.creat p mode = some (w.set p (some (.file [] (mode &&& (0o777 ^^^ (w.umask &&& 0o777)))))) :=
  if_pos ⟨hp, hplace⟩

theorem rename_eq {content : Bytes} {mode : ℕ} (hp : w.lookup p = none) (hp₀ : p ≠ []) (hne : p ≠ q)
    (hq : w.lookup q ≠ some .dir) (hplace : w.Placeable q) :
    (w.set p (some (.file content mode))).rename p q =
      some ((w.set p none).set q (some (.file content mode))) := by
  -- the directory of the new path is not the path that is renamed, which named nothing before
  have hdir : dirName q ≠ p := by
    intro h
    have hd := hplace.2.2
    rw [h, hp] at hd
    cases hd
  have hplace' : (w.set p (some (.file content mode))).Placeable q :=
    ⟨hplace.1, hplace.2.1, by rw [lookup_set_of_ne hdir]; exact hplace.2.2⟩
  simp only [rename, lookup_set_self hp₀, if_neg hne, lookup_set_of_ne hne.symm, hq, hplace',
    not_true_eq_false, or_self, if_false, set_set]

theorem rename_set_file {w' : Files} {content : Bytes} {mode : ℕ} (hp : p ≠ []) (hne : p ≠ q)
    (h : (w.set p (some (.file content mode))).rename p q = some w') :
    q ≠ [] ∧ w' = (w.set p none).set q (some (.file content mode)) := by
  simp only [rename, lookup_set_self hp, if_neg hne] at h
  split at h
  · cases h
  · next hc =>
    refine ⟨?_, by rw [← Option.some.inj h, set_set]⟩
    have hplace := not_not.1 (not_or.1 hc).2
    exact hplace.1

end Lemmas

end Files

/-- File system calls. -/
inductive FileCall
  | stat (path : Bytes)
  | unlink (path : Bytes)
  | creat (path : Bytes) (mode : ℕ)
  | openRead (path : Bytes)
  | read (path : Bytes) (n : ℕ)
  | write (path : Bytes) (bs : Bytes)
  | close (path : Bytes)
  | rename (old new : Bytes)

namespace FileCall

/-- What a call returns. -/
@[reducible] def Answer : FileCall → Type
  | stat _ => Except IoError Stat
  | read _ _ => Except IoError Bytes
  | write _ _ => Except IoError ℕ
  | unlink _ | creat _ _ | openRead _ | close _ | rename _ _ => Except IoError Unit

/-- A call that either takes place or fails and changes nothing. -/
def Settles (w : Files) (done : Option Files) (r : Except IoError Unit) (w' : Files) : Prop :=
  match done with
  | some w₁ => r = .ok () ∧ w' = w₁
  | none => r = .error .other ∧ w' = w

/-- Calls fail only when they have to; reads and writes may be short. -/
def Works : (c : FileCall) → Files → c.Answer → Files → Prop
  | stat path, w, r, w' => w' = w ∧ r = (w.stat path).elim (.error .other) .ok
  | unlink path, w, r, w' => Settles w (w.unlink path) r w'
  | creat path mode, w, r, w' => Settles w (w.creat path mode) r w'
  | openRead path, w, r, w' => Settles w (w.openRead path) r w'
  | read path n, w, r, w' => ∃ bs rest, w.unread path = bs ++ rest ∧ bs.length ≤ n ∧
      (bs = [] → rest = [] ∨ n = 0) ∧ r = .ok bs ∧ w' = w.advance path bs.length
  | write path bs, w, r, w' => ∃ n ≤ bs.length, (n = 0 → bs = []) ∧ r = .ok n ∧
      w' = w.append path (bs.take n)
  | close _, w, r, w' => r = .ok () ∧ w' = w
  | rename old new, w, r, w' => Settles w (w.rename old new) r w'

/-- The answer says that the call has failed. -/
def Failed : (c : FileCall) → c.Answer → Prop
  | stat _, r => ∃ e, r = .error e
  | unlink _, r => ∃ e, r = .error e
  | creat _ _, r => ∃ e, r = .error e
  | openRead _, r => ∃ e, r = .error e
  | read _ _, r => ∃ e, r = .error e
  | write _ _, r => (∃ e, r = .error e) ∨ r = .ok 0
  | close _, r => ∃ e, r = .error e
  | rename _ _, r => ∃ e, r = .error e

/-- `stat` and `unlink` are as reliable as the state of the file system; every other call may
fail at any time. -/
def Fallible : FileCall → Prop
  | stat _ | unlink _ => False
  | _ => True

/-- Calls may fail at any time, and then change nothing. -/
def May (c : FileCall) (w : Files) (r : c.Answer) (w' : Files) : Prop :=
  c.Works w r w' ∨ (c.Fallible ∧ c.Failed r ∧ w' = w)

/-- The answers when nothing fails that need not, and reads and writes are as long as they can
be. -/
def answer : (c : FileCall) → Files → c.Answer × Files
  | stat path, w => ((w.stat path).elim (.error .other) .ok, w)
  | unlink path, w => settle w (w.unlink path)
  | creat path mode, w => settle w (w.creat path mode)
  | openRead path, w => settle w (w.openRead path)
  | read path n, w =>
    (.ok ((w.unread path).take n), w.advance path ((w.unread path).take n).length)
  | write path bs, w => (.ok bs.length, w.append path bs)
  | close _, w => (.ok (), w)
  | rename old new, w => settle w (w.rename old new)
where
  settle (w : Files) (done : Option Files) : Except IoError Unit × Files :=
    match done with
    | some w₁ => (.ok (), w₁)
    | none => (.error .other, w)

theorem settles_settle (w : Files) (done : Option Files) :
    Settles w done (answer.settle w done).1 (answer.settle w done).2 := by
  cases done with
  | none => exact ⟨rfl, rfl⟩
  | some w₁ => exact ⟨rfl, rfl⟩

theorem works_answer (c : FileCall) (w : Files) : c.Works w (c.answer w).1 (c.answer w).2 := by
  cases c with
  | stat path => exact ⟨rfl, rfl⟩
  | unlink path => exact settles_settle w _
  | creat path mode => exact settles_settle w _
  | openRead path => exact settles_settle w _
  | read path n =>
    refine ⟨(w.unread path).take n, (w.unread path).drop n, (List.take_append_drop n _).symm,
      List.length_take_le _ _, ?_, rfl, rfl⟩
    intro h
    obtain hn | hnil := List.take_eq_nil_iff.1 h
    · exact .inr hn
    · exact .inl (by rw [hnil, List.drop_nil])
  | write path bs =>
    exact ⟨bs.length, Nat.le_refl _, List.eq_nil_of_length_eq_zero, rfl, by
      rw [List.take_length]; rfl⟩
  | close path => exact ⟨rfl, rfl⟩
  | rename old new => exact settles_settle w _

end FileCall

end Ps4Dropbear
