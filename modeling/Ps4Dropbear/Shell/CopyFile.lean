import Ps4Dropbear.Files.FdTable
import Ps4Dropbear.Files.Inodes
import Ps4Dropbear.Shell.Resolve

/-!
# `cp`

`copy_file` opens its source, opens its destination with `O_TRUNC` and then copies in two nested
loops.  A disk has directories and regular files, and a file can have more than one name; a call
may fail, a read may return less than it was asked for and a write may take less than it was given.

* `diskCalls` : how a disk answers the calls of `copy_file`.
* `CopiedTo` : the second path has the content of the first, and every other file is as it was.
* `SameFile` : two arguments of `cp` name one file, in any spelling, and there is something in it.

## Main results

* `ShellProg.eval_copyFile` : what a run that succeeds has done to the disk.
* `cp_copies_iff` : `cp` copies, exactly when its arguments are not the same file.  The destination
  is emptied before the first read, so a file that is copied onto itself is lost.
-/

namespace Ps4Dropbear

/-! ### Disks -/

/-- An open file: its number, the offset, and whether it can be written to. -/
structure OpenFile where
  ino : ℕ
  offset : ℕ
  writable : Bool

/-- A file system with the files that the process has open and its file mode creation mask. -/
structure Disk where
  graph : FileGraph Bytes UInt8
  fds : FdTable OpenFile
  umask : ℕ

/-- The node that an absolute path names. -/
def Disk.lookup (w : Disk) (path : Bytes) : Option ℕ :=
  if path.head? = some 47 then w.graph.walk w.graph.root (pathComponents path) else none

/-- `st_mode`. -/
def modeOf : FileNode Bytes UInt8 → ℕ
  | .file _ mode => 0o100000 ||| (mode &&& 0o7777)
  | .dir _ => 0o040755

/-- What a file contains after a write at the offset; a gap before it is filled with zeros. -/
def writtenAt (content : Bytes) (offset : ℕ) (data : Bytes) : Bytes :=
  overwrite (content ++ List.replicate (offset - content.length) 0) offset data

/-- How a disk answers the calls of `copy_file`.  Every call may fail, and changes nothing then.  A
read returns some of what is left, and nothing only at the end of the file; a write takes some of
the data. -/
def diskCalls : (c : ShellCall) → Disk → c.Answer → Disk → Prop
  | .openFile path .rdonly _, w, r, w' => (∃ e, r = .error e) ∧ w' = w ∨
    ∃ i, w.lookup path = some i ∧ (w.graph.node i).isSome ∧ r = .ok w.fds.lowest ∧
      w' = { w with fds := w.fds.alloc ⟨i, 0, false⟩ }
  | .openFile path .truncate mode, w, r, w' => (∃ e, r = .error e) ∧ w' = w ∨
    ∃ g j, path.head? = some 47 ∧
      w.graph.openTruncate (pathComponents path) (mode &&& (0o777 ^^^ (w.umask &&& 0o777))) =
        some (g, j) ∧
      r = .ok w.fds.lowest ∧ w' = { w with graph := g, fds := w.fds.alloc ⟨j, 0, true⟩ }
  | .fstat fd, w, r, w' => w' = w ∧ ((∃ e, r = .error e) ∨
    ∃ f n st, w.fds.owner fd = some f ∧ w.graph.node f.ino = some n ∧ r = .ok st ∧
      st.mode = modeOf n ∧ ∀ content mode, n = .file content mode → st.size = content.length)
  | .read fd len, w, r, w' => (∃ e, r = .error e) ∧ w' = w ∨
    ∃ f content mode data, w.fds.owner fd = some f ∧
      w.graph.node f.ino = some (.file content mode) ∧ r = .ok data ∧
      data.1 <+: content.drop f.offset ∧ (data.1 = [] → len = 0 ∨ content.drop f.offset = []) ∧
      w' = { w with fds := w.fds.assign fd { f with offset := f.offset + data.1.length } }
  | .write fd data, w, r, w' => (∃ e, r = .error e) ∧ w' = w ∨
    ∃ f content mode n, w.fds.owner fd = some f ∧ f.writable ∧
      w.graph.node f.ino = some (.file content mode) ∧ n ≤ data.length ∧ r = .ok n ∧
      w' = { w with
        graph := w.graph.setContent f.ino (writtenAt content f.offset (data.take n))
        fds := w.fds.assign fd { f with offset := f.offset + n } }
  | .close fd, w, _, w' => w' = { w with fds := w.fds.release fd }
  | _, _, _, _ => False

/-! ### What `cp` is for -/

/-- The second path names a file with what the file under the first path contained, that file is as
it was, and so is every other one. -/
structure CopiedTo (w w' : Disk) (first second : Bytes) (i : ℕ) (content : Bytes) : Prop where
  source : w.lookup first = some i
  unchanged : w'.lookup first = some i ∧
    ∃ mode, w.graph.node i = some (.file content mode) ∧ w'.graph.node i = some (.file content mode)
  copied : ∃ j mode, w'.lookup second = some j ∧ w'.graph.node j = some (.file content mode)
  others : ∀ path k, w.lookup path = some k → w.lookup second ≠ some k → w'.lookup path = some k ∧
    ∀ c m, w.graph.node k = some (.file c m) → w'.graph.node k = some (.file c m)
  nothingElse : ∀ path k, w'.lookup path = some k →
    w.lookup path = some k ∨ w'.lookup second = some k

/-- `cp source target` has copied. -/
def Copies (state : ShellState) (source target : Bytes) (w w' : Disk) : Prop :=
  ∃ first second i content, ShellProg.resolveArg state source = some first ∧
    ShellProg.resolveArg state target = some second ∧ CopiedTo w w' first second i content

/-- The two arguments name the same file, by the same or by different names, and there is something
in it. -/
def SameFile (state : ShellState) (source target : Bytes) (w : Disk) : Prop :=
  ∃ first second i content mode, ShellProg.resolveArg state source = some first ∧
    ShellProg.resolveArg state target = some second ∧ w.lookup first = some i ∧
    w.lookup second = some i ∧ w.graph.node i = some (.file content mode) ∧ content ≠ []

theorem writtenAt_end (content data : Bytes) :
    writtenAt content content.length data = content ++ data := by
  simp [writtenAt, overwrite]

theorem isReg_of_file {st : StatBuf} (content : Bytes) (mode : ℕ)
    (h : st.mode = modeOf (.file content mode)) : st.isReg = true := by
  have hbits : 0o7777 &&& 0o170000 = 0 := by decide
  rw [StatBuf.isReg, h, modeOf, Nat.and_or_distrib_right, Nat.and_assoc, hbits, Nat.and_zero]
  decide

namespace ShellProg

variable {σ : Type} {put : σ → Bytes → Bool × σ} {w w' : Disk} {s s' : σ} {fd input output i j : ℕ}
variable {content : Bytes} {mode mode' : ℕ}

/-- `copy_file` has reached the end of its source, and both descriptors are closed. -/
theorem eval_copyEnd {got : Except Errno Unit} {v : Disk × σ}
    (h : Prog.Eval (WriterProg.Writes put diskCalls) (copyEnd input output got) (w, s) (.ok ()) v) :
    got = .ok () ∧ v.1.graph = w.graph := by
  obtain ⟨r, w₁, rfl, h⟩ := WriterProg.eval_loc_bind.1 h
  cases r with
  | error e => cases (Prog.eval_ret.1 h).1
  | ok _ =>
    obtain ⟨r, w₂, rfl, h⟩ := WriterProg.eval_loc_bind.1 h
    cases r with
    | error e => cases (Prog.eval_ret.1 h).1
    | ok _ =>
      obtain ⟨rfl, rfl⟩ := Prog.eval_ret.1 h
      exact ⟨rfl, rfl⟩

/-- When both descriptors can be closed, nothing else happens. -/
theorem eval_copyEnd_ok {got : Except Errno Unit} :
    Prog.Eval (WriterProg.Writes put diskCalls) (copyEnd input output got) (w, s) got
      ({ w with fds := (w.fds.release input).release output }, s) := by
  refine WriterProg.eval_loc_bind.2 ⟨(.ok () : Except Errno Unit), _, rfl, ?_⟩
  exact WriterProg.eval_loc_bind.2 ⟨(.ok () : Except Errno Unit), _, rfl, .ret _ _⟩

/-- A round of the inner loop that goes on has written some of the data. -/
theorem eval_copyWriteRound {rest : Bytes} {e : Errno} {x : (Bytes × Errno) ⊕ Except Errno Errno}
    {v : Disk × σ} (hrest : rest ≠ []) (hne : input ≠ output)
    (hout : w.fds.owner output = some ⟨j, content.length, true⟩)
    (hnode : w.graph.node j = some (.file content mode))
    (h : Prog.Eval (WriterProg.Writes put diskCalls) (copyWriteBody input output (rest, e)) (w, s)
      x v) :
    (∃ e', x = .inr (.error e')) ∨
      ∃ n e', x = .inl (rest.drop n, e') ∧
        v.1.graph = w.graph.setContent j (content ++ rest.take n) ∧
        v.1.fds.owner output = some ⟨j, (content ++ rest.take n).length, true⟩ ∧
        v.1.fds.owner input = w.fds.owner input := by
  have hfail {e : Errno} {w : Disk} (h : Prog.Eval (WriterProg.Writes put diskCalls)
      ((closeErrno input e).bind fun e => (closeErrno output e).bind fun e => .ret (.inr (.error e)))
      (w, s) x v) : ∃ e', x = .inr (.error e') := by
    obtain ⟨e₁, v₁, -, h⟩ := Prog.eval_bind.1 h
    obtain ⟨e₂, v₂, -, h⟩ := Prog.eval_bind.1 h
    exact ⟨e₂, (Prog.eval_ret.1 h).1⟩
  unfold copyWriteBody at h
  dsimp only at h
  rw [if_neg hrest] at h
  obtain ⟨r, w₁, hwrite, hnext⟩ := WriterProg.eval_loc_bind.1 h
  rcases hwrite with ⟨⟨e', rfl⟩, rfl⟩ | ⟨f, old, m, n, hf, -, hold, hn, rfl, rfl⟩
  · split at hnext
    · obtain ⟨rfl, rfl⟩ := Prog.eval_ret.1 hnext
      refine .inr ⟨0, .eintr, rfl, ?_, ?_, rfl⟩
      · rw [List.take_zero, List.append_nil, FileGraph.setContent_self hnode]
      · rw [List.take_zero, List.append_nil]
        exact hout
    · exact .inl (hfail hnext)
    · next heq => cases heq
    · next heq => cases heq
  · split at hnext
    · next heq => cases heq
    · next heq => cases heq
    · exact .inl (hfail hnext)
    · next heq =>
      cases heq
      obtain ⟨rfl, rfl⟩ := Prog.eval_ret.1 hnext
      rw [hout] at hf
      cases hf
      rw [hnode] at hold
      cases hold
      refine .inr ⟨n, e, rfl, ?_, ?_, ?_⟩
      · dsimp only
        rw [writtenAt_end]
      · dsimp only
        rw [FdTable.owner_assign hout, if_pos rfl, List.length_append, List.length_take_of_le hn]
      · dsimp only
        rw [FdTable.owner_assign hout, if_neg hne]

/-- The inner loop writes all of its data behind what is there. -/
theorem eval_copyWrite {data : Bytes} {errno errno' : Errno} {v : Disk × σ} (hne : input ≠ output)
    (hout : w.fds.owner output = some ⟨j, content.length, true⟩)
    (hnode : w.graph.node j = some (.file content mode))
    (h : Prog.Eval (WriterProg.Writes put diskCalls)
      (Prog.iterate (copyWriteBody input output) (data, errno)) (w, s) (.ok errno') v) :
    v.1.graph = w.graph.setContent j (content ++ data) ∧
      v.1.fds.owner output = some ⟨j, (content ++ data).length, true⟩ ∧
      v.1.fds.owner input = w.fds.owner input := by
  -- what has been written is behind the old content, and the offset is at its end
  let I : Bytes × Errno → Disk × σ → Prop := fun t v => ∃ done, data = done ++ t.1 ∧
    v.1.graph = w.graph.setContent j (content ++ done) ∧
    v.1.fds.owner output = some ⟨j, (content ++ done).length, true⟩ ∧
    v.1.fds.owner input = w.fds.owner input
  have hstart : I (data, errno) (w, s) :=
    ⟨[], rfl, by simp [FileGraph.setContent_self hnode], by simpa using hout, rfl⟩
  have hstep : ∀ t t' v v', I t v → Prog.Eval (WriterProg.Writes put diskCalls)
      (copyWriteBody input output t) v (.inl t') v' → I t' v' := by
    rintro ⟨rest, e⟩ t' ⟨w₁, s₁⟩ v₂ ⟨done, hdata, hgraph, hoff, hin⟩ hround
    dsimp only at hdata hgraph hoff hin
    have hnode₁ : w₁.graph.node j = some (.file (content ++ done) mode) := by
      rw [hgraph, FileGraph.node_setContent_self hnode]
    by_cases hrest : rest = []
    · rw [copyWriteBody, if_pos hrest] at hround
      cases (Prog.eval_ret.1 hround).1
    rcases eval_copyWriteRound hrest hne hoff hnode₁ hround with ⟨e', heq⟩ |
      ⟨n, e', heq, hgraph₂, hoff₂, hin₂⟩
    · cases heq
    · cases heq
      refine ⟨done ++ rest.take n, ?_, ?_, ?_, hin₂.trans hin⟩
      · rw [List.append_assoc, List.take_append_drop]
        exact hdata
      · rw [hgraph₂, hgraph, FileGraph.setContent_setContent, List.append_assoc]
      · rw [hoff₂, List.append_assoc]
  obtain ⟨⟨rest, e⟩, ⟨w₁, s₁⟩, b, v₂, ⟨done, hdata, hgraph, hoff, hin⟩, hlast, hret⟩ :=
    Prog.eval_loop_invariant I h hstart hstep
  obtain ⟨rfl, rfl⟩ := Prog.eval_ret.1 hret
  dsimp only at hdata hgraph hoff hin
  by_cases hrest : rest = []
  · rw [copyWriteBody, if_pos hrest] at hlast
    obtain ⟨-, rfl⟩ := Prog.eval_ret.1 hlast
    rw [hrest, List.append_nil] at hdata
    rw [hdata]
    exact ⟨hgraph, hoff, hin⟩
  · have hnode₁ : w₁.graph.node j = some (.file (content ++ done) mode) := by
      rw [hgraph, FileGraph.node_setContent_self hnode]
    rcases eval_copyWriteRound hrest hne hoff hnode₁ hlast with ⟨e', heq⟩ | ⟨n, e', heq, -⟩
    · cases heq
    · cases heq

/-- A round of the outer loop: it fails, or the source is at its end, or a piece of the source has
been written. -/
theorem eval_copyRound {done rest : Bytes} {e : Errno} {x : Errno ⊕ Except Errno Unit}
    {v : Disk × σ} (hne : input ≠ output)
    (hin : w.fds.owner input = some ⟨i, done.length, false⟩)
    (hout : w.fds.owner output = some ⟨j, done.length, true⟩)
    (hi : w.graph.node i = some (.file (done ++ rest) mode))
    (hj : w.graph.node j = some (.file done mode'))
    (h : Prog.Eval (WriterProg.Writes put diskCalls) (copyBody input output e) (w, s) x v) :
    (∃ e', x = .inr (.error e')) ∨ (x = .inr (.ok ()) ∧ rest = [] ∧ v.1.graph = w.graph) ∨
      ∃ data rest' e', x = .inl e' ∧ rest = data ++ rest' ∧
        v.1.graph = w.graph.setContent j (done ++ data) ∧
        v.1.fds.owner input = some ⟨i, (done ++ data).length, false⟩ ∧
        v.1.fds.owner output = some ⟨j, (done ++ data).length, true⟩ := by
  have hend {got : Except Errno Unit} {w : Disk} (h : Prog.Eval (WriterProg.Writes put diskCalls)
      ((copyEnd input output got).bind fun r => .ret (.inr r)) (w, s) x v) :
      (∃ e', x = .inr (.error e')) ∨ x = .inr (.ok ()) ∧ got = .ok () ∧ v.1.graph = w.graph := by
    obtain ⟨r, v₁, hr, hret⟩ := Prog.eval_bind.1 h
    obtain ⟨rfl, rfl⟩ := Prog.eval_ret.1 hret
    rcases r with e' | ⟨⟩
    · exact .inl ⟨e', rfl⟩
    · exact .inr ⟨rfl, eval_copyEnd hr⟩
  obtain ⟨r, w₁, hread, hnext⟩ := WriterProg.eval_loc_bind.1 h
  rcases hread with ⟨⟨e', rfl⟩, rfl⟩ | ⟨f, old, m, data, hf, hold, rfl, hprefixed, hempty, rfl⟩
  · rcases hend hnext with herror | ⟨-, hgot, -⟩
    · exact .inl herror
    · cases hgot
  rw [hin] at hf
  cases hf
  rw [hi] at hold
  cases hold
  rw [List.drop_left] at hprefixed hempty
  dsimp only at hnext
  by_cases hdata : data.1 = []
  · rw [if_pos hdata] at hnext
    rcases hend hnext with herror | ⟨hx, -, hgraph⟩
    · exact .inl herror
    · exact .inr (.inl ⟨hx, (hempty hdata).resolve_left (by decide), hgraph⟩)
  · rw [if_neg hdata] at hnext
    obtain ⟨r, v₁, hwrite, hnext⟩ := Prog.eval_bind.1 hnext
    rcases r with e' | e'
    · exact .inl ⟨e', (Prog.eval_ret.1 hnext).1⟩
    obtain ⟨rfl, rfl⟩ := Prog.eval_ret.1 hnext
    obtain ⟨rest', rfl⟩ := hprefixed
    have hout₁ := FdTable.owner_assign hin (⟨i, done.length + data.1.length, false⟩ : OpenFile)
    have hkept := (hout₁ output).trans ((if_neg hne.symm).trans hout)
    obtain ⟨hgraph, hoff, hin₁⟩ := eval_copyWrite hne (by exact hkept) (by exact hj) hwrite
    refine .inr (.inr ⟨data.1, rest', e', rfl, rfl, hgraph, ?_, hoff⟩)
    rw [hin₁, hout₁, if_pos rfl, List.length_append]

/-- **The loops of `copy_file`** copy what is in the source after the destination was opened, for
every pattern of short reads and short writes. -/
theorem eval_copyLoop {e : Errno} {v : Disk × σ} (hne : input ≠ output)
    (hin : w.fds.owner input = some ⟨i, 0, false⟩) (hout : w.fds.owner output = some ⟨j, 0, true⟩)
    (hi : w.graph.node i = some (.file content mode))
    (hj : w.graph.node j = some (.file [] mode'))
    (h : Prog.Eval (WriterProg.Writes put diskCalls) (Prog.iterate (copyBody input output) e) (w, s)
      (.ok ()) v) : v.1.graph = w.graph.setContent j content := by
  -- a file that is copied onto itself is empty by now
  have hsource {done rest : Bytes} (hsplit : content = done ++ rest) :
      (w.graph.setContent j done).node i = some (.file (done ++ rest) mode) := by
    by_cases hij : i = j
    · subst hij
      rw [hi] at hj
      cases hj
      obtain ⟨rfl, rfl⟩ := List.append_eq_nil_iff.1 hsplit.symm
      rw [FileGraph.setContent_self hi, hi]
      rfl
    · rw [FileGraph.node_setContent_of_ne hij, hi, hsplit]
  let I : Errno → Disk × σ → Prop := fun _ v => ∃ done rest, content = done ++ rest ∧
    v.1.graph = w.graph.setContent j done ∧
    v.1.fds.owner input = some ⟨i, done.length, false⟩ ∧
    v.1.fds.owner output = some ⟨j, done.length, true⟩
  have hstart : I e (w, s) := ⟨[], content, rfl, (FileGraph.setContent_self hj).symm, hin, hout⟩
  have hround : ∀ e x v v', I e v → Prog.Eval (WriterProg.Writes put diskCalls)
      (copyBody input output e) v x v' →
      (∃ e', x = .inr (.error e')) ∨
        (x = .inr (.ok ()) ∧ v'.1.graph = w.graph.setContent j content) ∨
        ∃ e', x = .inl e' ∧ I e' v' := by
    rintro e x ⟨w₁, s₁⟩ v' ⟨done, rest, hsplit, hgraph, hin₁, hout₁⟩ hbody
    dsimp only at hgraph hin₁ hout₁
    have hi₁ : w₁.graph.node i = some (.file (done ++ rest) mode) := by rw [hgraph, hsource hsplit]
    have hj₁ : w₁.graph.node j = some (.file done mode') := by
      rw [hgraph, FileGraph.node_setContent_self hj]
    rcases eval_copyRound hne hin₁ hout₁ hi₁ hj₁ hbody with herror | ⟨hx, hrest, hsame⟩ |
      ⟨data, rest', e', hx, hrest, hgraph₂, hin₂, hout₂⟩
    · exact .inl herror
    · rw [hrest, List.append_nil] at hsplit
      exact .inr (.inl ⟨hx, by rw [hsame, hgraph, hsplit]⟩)
    · refine .inr (.inr ⟨e', hx, done ++ data, rest', ?_, ?_, hin₂, hout₂⟩)
      · rw [List.append_assoc, ← hrest, hsplit]
      · rw [hgraph₂, hgraph, FileGraph.setContent_setContent]
  have hstep : ∀ e e' v v', I e v → Prog.Eval (WriterProg.Writes put diskCalls)
      (copyBody input output e) v (.inl e') v' → I e' v' := by
    intro e e' v v' hI hb
    rcases hround e _ v v' hI hb with ⟨_, hx⟩ | ⟨hx, -⟩ | ⟨_, hx, hI'⟩
    · cases hx
    · cases hx
    · cases hx
      exact hI'
  obtain ⟨e₁, v₁, b, v₂, hI, hlast, hret⟩ := Prog.eval_loop_invariant I h hstart hstep
  obtain ⟨rfl, rfl⟩ := Prog.eval_ret.1 hret
  rcases hround e₁ _ v₁ v hI hlast with ⟨_, hx⟩ | ⟨-, hgraph⟩ | ⟨_, hx, -⟩
  · cases hx
  · exact hgraph
  · cases hx

/-- What `copy_file` has done when it returns 0: it has opened the destination, and what was in the
source then is in it. -/
theorem eval_copyFile {errno : Errno} {source destination : Bytes} {v : Disk × σ}
    (h : Prog.Eval (WriterProg.Writes put diskCalls) (copyFile errno source destination) (w, s)
      (.ok ()) v) :
    ∃ i content mode g j, w.lookup source = some i ∧
      w.graph.node i = some (.file content mode) ∧ destination.head? = some 47 ∧
      FileGraph.Truncated w.graph (pathComponents destination) g j ∧
      v.1.graph = g.setContent j (if i = j then [] else content) := by
  obtain ⟨r, w₁, hopen, h₁⟩ := WriterProg.eval_loc_bind.1 h
  rcases hopen with ⟨⟨e, rfl⟩, -⟩ | ⟨i, hi, -, rfl, rfl⟩
  · cases (Prog.eval_ret.1 h₁).1
  obtain ⟨r, w₂, ⟨rfl, hstat⟩, h₂⟩ := WriterProg.eval_loc_bind.1 h₁
  have hin := FdTable.owner_alloc w.fds (⟨i, 0, false⟩ : OpenFile) w.fds.lowest
  rw [if_pos rfl] at hin
  rcases hstat with ⟨e, rfl⟩ | ⟨f, n, st, hf, hn, rfl, hmode, -⟩
  · obtain ⟨r, w₃, -, h₃⟩ := WriterProg.eval_loc_bind.1 h₂
    cases (Prog.eval_ret.1 h₃).1
  dsimp only at hf hn h₂
  rw [hin] at hf
  cases hf
  by_cases hreg : st.isReg = false
  · rw [if_pos hreg] at h₂
    obtain ⟨r, w₃, -, h₃⟩ := WriterProg.eval_loc_bind.1 h₂
    cases (Prog.eval_ret.1 h₃).1
  rw [if_neg hreg] at h₂
  obtain ⟨content, mode, rfl⟩ : ∃ content mode, n = .file content mode := by
    cases n with
    | file content mode => exact ⟨content, mode, rfl⟩
    | dir entries =>
      rw [StatBuf.isReg, hmode, modeOf] at hreg
      exact absurd (by decide) hreg
  obtain ⟨r, w₃, hopen, h₃⟩ := WriterProg.eval_loc_bind.1 h₂
  rcases hopen with ⟨⟨e, rfl⟩, rfl⟩ | ⟨g, j, hroot, htrunc, rfl, rfl⟩
  · obtain ⟨e', v₁, -, hret⟩ := Prog.eval_bind.1 h₃
    cases (Prog.eval_ret.1 hret).1
  have htrunc := FileGraph.truncated_openTruncate htrunc
  refine ⟨i, content, mode, g, j, hi, hn, hroot, htrunc, ?_⟩
  obtain ⟨mode', hj⟩ := htrunc.node
  -- the second descriptor is another one
  have hfree := FdTable.owner_lowest (w.fds.alloc (⟨i, 0, false⟩ : OpenFile))
  have hne : w.fds.lowest ≠ (w.fds.alloc (⟨i, 0, false⟩ : OpenFile)).lowest := by
    intro heq
    rw [← heq, hin] at hfree
    cases hfree
  have howner := FdTable.owner_alloc (w.fds.alloc (⟨i, 0, false⟩ : OpenFile)) ⟨j, 0, true⟩
  have hin₂ := (howner w.fds.lowest).trans ((if_neg hne).trans hin)
  have hout₂ := (howner _).trans (if_pos rfl)
  have hi₂ : ∃ mode', g.node i = some (.file (if i = j then [] else content) mode') := by
    by_cases hij : i = j
    · rw [if_pos hij, hij]
      exact ⟨mode', hj⟩
    · rw [if_neg hij]
      exact ⟨mode, htrunc.other i content mode hij hn⟩
  obtain ⟨mode'', hi₂⟩ := hi₂
  exact eval_copyLoop hne (by exact hin₂) (by exact hout₂) (by exact hi₂) (by exact hj) h₃

theorem eval_shellError_ne {L : Libc} {command name : Bytes} {e : Errno} {W : Type}
    {H : (c : WriterCall UInt8 ShellCall) → W → c.Answer ShellCall.Answer → W → Prop} {v v' : W}
    {status : ℤ} (h : Prog.Eval H (shellError L command name e) v status v') : status ≠ 0 := by
  obtain ⟨a, v₁, -, h⟩ := Prog.eval_bind.1 h
  split at h
  · rw [(Prog.eval_ret.1 h).1]
    decide
  · rw [(Prog.eval_ret.1 h).1]
    decide

/-- A command that ends with `orError` returns 0 only if nothing went wrong. -/
theorem eval_orError {L : Libc} {command name : Bytes} {r : Except Errno Unit} {W : Type}
    {H : (c : WriterCall UInt8 ShellCall) → W → c.Answer ShellCall.Answer → W → Prop} {v v' : W}
    (h : Prog.Eval H (orError L command name r) v 0 v') : r = .ok () ∧ v' = v := by
  cases r with
  | ok _ => exact ⟨rfl, (Prog.eval_ret.1 h).2⟩
  | error e => exact absurd rfl (eval_shellError_ne h)

theorem command_cp (L : Libc) (errno : Errno) (state : ShellState) (source target : Bytes) :
    command L errno state [ascii "cp", source, target] =
      copyOrMove L errno state (ascii "cp") source target := rfl

end ShellProg

/-- After `cp` a path leads where it led after the destination was opened. -/
theorem lookup_of_graph {w : Disk} {g : FileGraph Bytes UInt8} {j : ℕ} {content : Bytes}
    (h : w.graph = g.setContent j content) (path : Bytes) :
    w.lookup path = if path.head? = some 47 then g.walk g.root (pathComponents path) else none := by
  rw [Disk.lookup, h, FileGraph.walk_setContent]
  rfl

theorem lookup_eq_some {w : Disk} {path : Bytes} {i : ℕ} :
    w.lookup path = some i ↔
      path.head? = some 47 ∧ w.graph.walk w.graph.root (pathComponents path) = some i := by
  rw [Disk.lookup, Option.ite_none_right_eq_some]

section Copied

variable {w w' : Disk} {g : FileGraph Bytes UInt8} {first second : Bytes} {i j : ℕ}
variable {content : Bytes} {mode : ℕ}

/-- A destination that is another file, or an empty one, has the content then. -/
theorem copiedTo_of_graph (hi : w.lookup first = some i)
    (hnode : w.graph.node i = some (.file content mode)) (hroot : second.head? = some 47)
    (h : FileGraph.Truncated w.graph (pathComponents second) g j)
    (hgraph : w'.graph = g.setContent j (if i = j then [] else content))
    (hne : i = j → content = []) : CopiedTo w w' first second i content := by
  have hgraph : w'.graph = g.setContent j content := by
    rw [hgraph]
    split
    · next hij => rw [hne hij]
    · rfl
  have hlookup := lookup_of_graph hgraph
  obtain ⟨mode', hj⟩ := h.node
  have hsecond : w'.lookup second = some j := by rw [hlookup, if_pos hroot, h.walk]
  have hold {path : Bytes} {k : ℕ} (hk : w.lookup path = some k) : w'.lookup path = some k := by
    obtain ⟨hhead, hwalk⟩ := lookup_eq_some.1 hk
    rw [hlookup, if_pos hhead]
    exact h.walk_old _ k hwalk
  refine ⟨hi, ⟨hold hi, mode, hnode, ?_⟩, ⟨j, mode', hsecond, ?_⟩, ?_, ?_⟩
  · by_cases hij : i = j
    · rw [hgraph, hij, hne hij]
      rw [hij, hne hij] at hnode
      exact FileGraph.node_setContent_self (h.kept _ _ hnode)
    · rw [hgraph, FileGraph.node_setContent_of_ne hij]
      exact h.other i content mode hij hnode
  · rw [hgraph, FileGraph.node_setContent_self hj]
  · intro path k hk hother
    refine ⟨hold hk, fun c m hc => ?_⟩
    have hkj : k ≠ j := by
      rintro rfl
      exact hother (lookup_eq_some.2 ⟨hroot, h.known _ hc⟩)
    rw [hgraph, FileGraph.node_setContent_of_ne hkj]
    exact h.other k c m hkj hc
  · intro path k hk
    rw [hlookup, Option.ite_none_right_eq_some] at hk
    obtain ⟨hhead, hwalk⟩ := hk
    rcases h.walk_new _ k hwalk with hk | rfl
    · exact .inl (lookup_eq_some.2 ⟨hhead, hk⟩)
    · exact .inr hsecond

/-- A file that was copied onto itself has lost what was in it. -/
theorem not_copiedTo_of_graph (hnode : w.graph.node i = some (.file content mode))
    (hcontent : content ≠ []) (hgraph : w'.graph = w.graph.setContent i []) :
    ¬ CopiedTo w w' first second i content := by
  rintro ⟨-, ⟨-, mode', -, hkept⟩, -⟩
  rw [hgraph, FileGraph.node_setContent_self hnode] at hkept
  cases hkept
  exact hcontent rfl

end Copied

/-- A file that is opened for reading and then emptied through the second name: what is left of
`cp` does nothing, and succeeds. -/
theorem eval_cp_sameFile {σ : Type} {put : σ → Bytes → Bool × σ} {L : Libc} {errno : Errno}
    {state : ShellState} {source target first second : Bytes} {w : Disk} {s : σ} {i : ℕ}
    {content : Bytes} {mode : ℕ} (hfirst : ShellProg.resolveArg state source = some first)
    (hsecond : ShellProg.resolveArg state target = some second) (hi : w.lookup first = some i)
    (hi' : w.lookup second = some i) (hnode : w.graph.node i = some (.file content mode)) :
    ∃ w', Prog.Eval (WriterProg.Writes put diskCalls)
        (ShellProg.command L errno state [ascii "cp", source, target]) (w, s) 0 (w', s) ∧
      w'.graph = w.graph.setContent i [] := by
  obtain ⟨hroot, hwalk⟩ := lookup_eq_some.1 hi'
  let st : StatBuf := ⟨modeOf (.file content mode), content.length, 0⟩
  have hreg : st.isReg = true := isReg_of_file content mode rfl
  have htrunc (m : ℕ) : w.graph.openTruncate (pathComponents second) m =
      some (w.graph.setContent i [], i) := by
    rw [FileGraph.openTruncate, hwalk]
    dsimp only
    rw [hnode]
    rfl
  have hempty : (w.graph.setContent i []).node i = some (.file [] mode) :=
    FileGraph.node_setContent_self hnode
  -- the descriptors, in the order in which they are opened
  let fds₁ := w.fds.alloc (⟨i, 0, false⟩ : OpenFile)
  let fds₂ := fds₁.alloc (⟨i, 0, true⟩ : OpenFile)
  have hin₁ : fds₁.owner w.fds.lowest = some ⟨i, 0, false⟩ :=
    (FdTable.owner_alloc w.fds _ _).trans (if_pos rfl)
  have hne : w.fds.lowest ≠ fds₁.lowest := by
    intro heq
    have hfree := FdTable.owner_lowest fds₁
    rw [← heq, hin₁] at hfree
    cases hfree
  have hin₂ : fds₂.owner w.fds.lowest = some ⟨i, 0, false⟩ :=
    (FdTable.owner_alloc fds₁ _ _).trans ((if_neg hne).trans hin₁)
  let w' : Disk := ⟨w.graph.setContent i [],
    ((fds₂.assign w.fds.lowest ⟨i, 0, false⟩).release w.fds.lowest).release fds₁.lowest, w.umask⟩
  have hcopy : Prog.Eval (WriterProg.Writes put diskCalls) (ShellProg.copyFile errno first second)
      (w, s) (.ok ()) (w', s) := by
    refine WriterProg.eval_loc_bind.2 ⟨.ok w.fds.lowest, _,
      .inr ⟨i, hi, by rw [hnode]; rfl, rfl, rfl⟩, ?_⟩
    refine WriterProg.eval_loc_bind.2 ⟨.ok st, _,
      ⟨rfl, .inr ⟨_, _, st, hin₁, hnode, rfl, rfl, ?_⟩⟩, ?_⟩
    · intro c m hc
      cases hc
      rfl
    dsimp only
    rw [if_neg (by rw [hreg]; decide)]
    refine WriterProg.eval_loc_bind.2 ⟨.ok fds₁.lowest, _,
      .inr ⟨_, i, hroot, htrunc _, rfl, rfl⟩, ?_⟩
    refine .stop ?_ (.ret _ _)
    refine WriterProg.eval_loc_bind.2 ⟨.ok ⟨[], Nat.zero_le _⟩, _,
      .inr ⟨_, [], mode, _, hin₂, hempty, rfl, List.nil_prefix, fun _ => .inr rfl, rfl⟩, ?_⟩
    dsimp only
    rw [if_pos rfl]
    exact Prog.eval_bind.2 ⟨.ok (), _, ShellProg.eval_copyEnd_ok, .ret _ _⟩
  refine ⟨w', ?_, rfl⟩
  rw [ShellProg.command_cp, ShellProg.copyOrMove, hfirst, hsecond]
  dsimp only
  rw [if_pos rfl]
  exact Prog.eval_bind.2 ⟨_, _, hcopy, .ret _ _⟩

/-- A file that is copied onto itself is lost, in a run that returns 0. -/
theorem sameFile_lost {σ : Type} (put : σ → Bytes → Bool × σ) (s : σ) (L : Libc) (errno : Errno)
    {state : ShellState} {source target : Bytes} {w : Disk}
    (h : SameFile state source target w) :
    ∃ w', Prog.Eval (WriterProg.Writes put diskCalls)
        (ShellProg.command L errno state [ascii "cp", source, target]) (w, s) 0 (w', s) ∧
      ¬ Copies state source target w w' := by
  obtain ⟨first, second, i, content, mode, hfirst, hsecond, hi, hi', hnode, hcontent⟩ := h
  obtain ⟨w', hrun, hgraph⟩ := eval_cp_sameFile hfirst hsecond hi hi' hnode
  refine ⟨w', hrun, ?_⟩
  rintro ⟨first', second', k, content', hfirst', hsecond', hcopied⟩
  rw [hfirst] at hfirst'
  cases hfirst'
  have hk := hcopied.source
  rw [hi] at hk
  cases hk
  obtain ⟨-, mode', hold, -⟩ := hcopied.unchanged
  rw [hnode] at hold
  cases hold
  exact not_copiedTo_of_graph hnode hcontent hgraph hcopied

/-- **`cp` copies**, for every disk, every pair of arguments and all short reads and writes: whenever
it returns 0 the destination holds what the source held and every other file is as it was, exactly
when the arguments do not name the same file with something in it. -/
theorem cp_copies_iff {σ : Type} (put : σ → Bytes → Bool × σ) (out : σ) (L : Libc) (errno : Errno)
    (state : ShellState) (source target : Bytes) (w : Disk) :
    (∀ w' out', Prog.Eval (WriterProg.Writes put diskCalls)
        (ShellProg.command L errno state [ascii "cp", source, target]) (w, out) 0 (w', out') →
      Copies state source target w w') ↔ ¬ SameFile state source target w := by
  constructor
  · intro h hsame
    obtain ⟨w', hrun, hlost⟩ := sameFile_lost put out L errno hsame
    exact hlost (h w' out hrun)
  · intro hother w' out' hrun
    rw [ShellProg.command_cp] at hrun
    unfold ShellProg.copyOrMove at hrun
    split at hrun
    · next first second hfirst hsecond =>
      rw [if_pos rfl] at hrun
      obtain ⟨r, v₁, hcopy, hend⟩ := Prog.eval_bind.1 hrun
      obtain ⟨rfl, rfl⟩ := ShellProg.eval_orError hend
      obtain ⟨i, content, mode, g, j, hi, hnode, hroot, htrunc, hgraph⟩ :=
        ShellProg.eval_copyFile hcopy
      refine ⟨first, second, i, content, hfirst, hsecond,
        copiedTo_of_graph hi hnode hroot htrunc hgraph ?_⟩
      rintro rfl
      by_contra hcontent
      exact hother ⟨first, second, i, content, mode, hfirst, hsecond, hi,
        lookup_eq_some.2 ⟨hroot, htrunc.known _ hnode⟩, hnode, hcontent⟩
    · exact absurd rfl (ShellProg.eval_shellError_ne hrun)

/-- A disk with one file, `/a`, that contains one byte. -/
def oneFile : Disk where
  graph :=
    { node := fun i =>
        if i = 0 then some (.dir fun name => if name = ascii "a" then some 1 else none)
        else if i = 1 then some (.file (ascii "x") 0o644)
        else none
      root := 0
      fresh := 2
      free := fun i hi => by rw [if_neg (by omega), if_neg (by omega)]
      closed := fun i n name j hn hj => by
        split at hn
        · cases hn
          obtain ⟨-, hone⟩ := Option.ite_none_right_eq_some.1 hj
          cases hone
          decide
        split at hn
        · cases hn
          cases hj
        · cases hn }
  fds := ⟨[]⟩
  umask := 0o22

/-- `cp a ./a` empties the file and returns 0. -/
theorem cp_loses_itself :
    ∃ w', Prog.Eval (WriterProg.Writes WriterProg.keepAll diskCalls)
        (ShellProg.command ⟨fun _ => [], true⟩ .zero (ps4ShellInit (ascii "/"))
          [ascii "cp", ascii "a", ascii "./a"]) (oneFile, []) 0 (w', []) ∧
      ¬ Copies (ps4ShellInit (ascii "/")) (ascii "a") (ascii "./a") oneFile w' := by
  exact sameFile_lost _ _ _ _ ⟨ascii "/a", ascii "/a", 1, ascii "x", 0o644, by decide,
    by decide, by decide, by decide, rfl, by decide⟩

end Ps4Dropbear
