import Ps4Dropbear.Prog.Hangup
import Ps4Dropbear.Shell.CopyFile
import Ps4Dropbear.Shell.Find

/-!
# A system under the shell

How a file system of regular files and directories answers the calls of a worker, as far as it
matters to how long a command takes: what is left to read of an open file, and of an open directory.
Every call may fail.  `mkdir`, `rmdir`, `unlink`, `rename` and `chmod` may do to names and modes
what they like, but they leave alone what the files contain, and so does `open` without `O_TRUNC`.

* `ShellSystem` : a disk with the directory streams that are open.
* `systemCalls` : how it answers.
* `Disk.unread` : what is left to read of an open file.
-/

namespace Ps4Dropbear

/-- The call has been interrupted. -/
def ShellCall.Interrupted : (c : ShellCall) → c.Answer → Prop
  | .stat _, r => r = .error .eintr
  | .fstat _, r => r = .error .eintr
  | .openFile _ _ _, r => r = .error .eintr
  | .read _ _, r => r = .error .eintr
  | .write _ _, r => r = .error .eintr
  | .close _, r => r = .error .eintr
  | .opendir _, r => r = .error .eintr
  | .mkdir _ _, r => r = .error .eintr
  | .rmdir _, r => r = .error .eintr
  | .unlink _, r => r = .error .eintr
  | .rename _ _, r => r = .error .eintr
  | .chmod _ _, r => r = .error .eintr
  | .readdir _, _ | .closedir _, _ | .alloc _, _ | .swVersion, _ => False

/-- A disk, and for each directory stream that is open the names that `readdir` has not returned
yet. -/
structure ShellSystem where
  disk : Disk
  streams : DirStreams

/-- The regular files of the first graph contain in the second what they did. -/
def SameFiles (g g' : FileGraph Bytes UInt8) : Prop :=
  ∀ i content mode, g.node i = some (.file content mode) →
    ∃ mode', g'.node i = some (.file content mode')

/-- A call that fails and does nothing, or succeeds and changes the names and modes of files. -/
def Renames (w : ShellSystem) (r : Except Errno Unit) (w' : ShellSystem) : Prop :=
  (∃ e, r = .error e) ∧ w' = w ∨ ∃ g, SameFiles w.disk.graph g ∧ r = .ok () ∧
    w' = { w with disk := { w.disk with graph := g } }

/-- How the system answers. -/
def systemCalls : (c : ShellCall) → ShellSystem → c.Answer → ShellSystem → Prop
  | .stat path, w, r, w' => w' = w ∧ ((∃ e, r = .error e) ∨ ∃ i n st, w.disk.lookup path = some i ∧
      w.disk.graph.node i = some n ∧ r = .ok st ∧ st.mode = modeOf n)
  | .openFile _ .create _, w, r, w' => (∃ e, r = .error e) ∧ w' = w ∨
    ∃ g j, SameFiles w.disk.graph g ∧ (g.node j).isSome ∧ r = .ok w.disk.fds.lowest ∧
      w' = { w with disk := { w.disk with graph := g, fds := w.disk.fds.alloc ⟨j, 0, true⟩ } }
  | .openFile path flags mode, w, r, w' =>
    diskCalls (.openFile path flags mode) w.disk r w'.disk ∧ w'.streams = w.streams
  | .fstat fd, w, r, w' => diskCalls (.fstat fd) w.disk r w'.disk ∧ w'.streams = w.streams
  | .read fd len, w, r, w' => diskCalls (.read fd len) w.disk r w'.disk ∧ w'.streams = w.streams
  | .write fd data, w, r, w' => diskCalls (.write fd data) w.disk r w'.disk ∧ w'.streams = w.streams
  | .close fd, w, r, w' => diskCalls (.close fd) w.disk r w'.disk ∧ w'.streams = w.streams
  | .opendir path, w, r, w' => (∃ e, r = .error e) ∧ w' = w ∨
    ∃ i entries names d, w.disk.lookup path = some i ∧
      w.disk.graph.node i = some (.dir entries) ∧
      (∀ name, name ∈ names.filter PathTree.isEntry ↔ (entries name).isSome) ∧ names.Nodup ∧
      w.streams d = none ∧ r = .ok d ∧
      w' = { w with streams := Function.update w.streams d (some names) }
  | .readdir d, w, r, w' => r = (w.streams d).bind List.head? ∧
      w' = { w with streams := Function.update w.streams d ((w.streams d).map List.tail) }
  | .closedir d, w, _, w' => w' = { w with streams := Function.update w.streams d none }
  | .mkdir _ _, w, r, w' => Renames w r w'
  | .rmdir _, w, r, w' => Renames w r w'
  | .unlink _, w, r, w' => Renames w r w'
  | .rename _ _, w, r, w' => Renames w r w'
  | .chmod _ _, w, r, w' => Renames w r w'
  | .alloc _, w, _, w' => w' = w
  | .swVersion, w, _, w' => w' = w

/-- Every call has an answer, and it need not be an interruption. -/
theorem exists_systemCalls (c : ShellCall) (w : ShellSystem) :
    ∃ r w', systemCalls c w r w' ∧ ¬ c.Interrupted r := by
  have hrenames : Renames w (.error (.other 5)) w := .inl ⟨⟨_, rfl⟩, rfl⟩
  cases c with
  | stat => exact ⟨.error (.other 5), w, ⟨rfl, .inl ⟨_, rfl⟩⟩, nofun⟩
  | fstat => exact ⟨.error (.other 5), w, ⟨⟨rfl, .inl ⟨_, rfl⟩⟩, rfl⟩, nofun⟩
  | openFile path flags mode =>
    refine ⟨.error (.other 5), w, ?_, nofun⟩
    cases flags with
    | create => exact .inl ⟨⟨_, rfl⟩, rfl⟩
    | rdonly | truncate => exact ⟨.inl ⟨⟨_, rfl⟩, rfl⟩, rfl⟩
  | read | write => exact ⟨.error (.other 5), w, ⟨.inl ⟨⟨_, rfl⟩, rfl⟩, rfl⟩, nofun⟩
  | close fd =>
    exact ⟨.ok (), { w with disk := { w.disk with fds := w.disk.fds.release fd } }, ⟨rfl, rfl⟩,
      nofun⟩
  | opendir => exact ⟨.error (.other 5), w, .inl ⟨⟨_, rfl⟩, rfl⟩, nofun⟩
  | readdir => exact ⟨_, _, ⟨rfl, rfl⟩, nofun⟩
  | closedir => exact ⟨(), _, rfl, nofun⟩
  | mkdir | rmdir | unlink | rename | chmod => exact ⟨.error (.other 5), w, hrenames, nofun⟩
  | alloc => exact ⟨false, w, rfl, nofun⟩
  | swVersion => exact ⟨[], w, rfl, nofun⟩

/-! ### What is left to read -/

/-- What is left to read of the file open on the descriptor. -/
def Disk.unread (w : Disk) (fd : ℕ) : Bytes :=
  match (w.fds.owner fd).bind fun f => (w.graph.node f.ino).map fun n => (f.offset, n) with
  | some (offset, .file content _) => content.drop offset
  | _ => []

theorem Disk.unread_eq {w : Disk} {fd mode : ℕ} {f : OpenFile} {content : Bytes}
    (hf : w.fds.owner fd = some f) (hn : w.graph.node f.ino = some (.file content mode)) :
    w.unread fd = content.drop f.offset := by
  simp [unread, hf, hn]

variable {w w' : ShellSystem} {fd fd' len : ℕ}

/-- A read takes what it returns from what is left, and nothing only when there is nothing left. -/
theorem unread_read {data : { data : Bytes // data.length ≤ len }}
    (h : systemCalls (.read fd len) w (.ok data) w') :
    w.disk.unread fd = data.1 ++ w'.disk.unread fd := by
  obtain ⟨⟨⟨e, he⟩, -⟩ | ⟨f, content, mode, data', hf, hn, hdata, ⟨rest, hrest⟩, -, hdisk⟩, -⟩ := h
  · cases he
  cases hdata
  have hf' : w'.disk.fds.owner fd = some { f with offset := f.offset + data.1.length } := by
    rw [hdisk]
    dsimp only
    rw [FdTable.owner_assign hf, if_pos rfl]
  have hn' : w'.disk.graph.node f.ino = some (.file content mode) := by
    rw [hdisk]
    exact hn
  rw [Disk.unread_eq hf hn, Disk.unread_eq hf' hn', ← List.drop_drop, ← hrest, List.drop_left]

/-! ### A file that is read and one that is written -/

/-- The two descriptors are of different files. -/
def TwoFiles (input output : ℕ) (w : ShellSystem) : Prop :=
  input ≠ output ∧ ∃ f g, w.disk.fds.owner input = some f ∧ w.disk.fds.owner output = some g ∧
    f.ino ≠ g.ino

variable {input output : ℕ}

theorem twoFiles_read {data : { data : Bytes // data.length ≤ len }}
    (h : systemCalls (.read input len) w (.ok data) w') (hapart : TwoFiles input output w) :
    TwoFiles input output w' := by
  obtain ⟨hne, f, g, hf, hg, hino⟩ := hapart
  obtain ⟨⟨⟨e, he⟩, -⟩ | ⟨f', content, mode, data', hf', -, -, -, -, hdisk⟩, -⟩ := h
  · cases he
  rw [hf] at hf'
  cases hf'
  refine ⟨hne, { f with offset := f.offset + data'.1.length }, g, ?_, ?_, hino⟩
  · rw [hdisk]
    exact (FdTable.owner_assign hf _ input).trans (if_pos rfl)
  · rw [hdisk]
    exact (FdTable.owner_assign hf _ output).trans ((if_neg hne.symm).trans hg)

/-- A write to the one leaves the other as it is. -/
theorem twoFiles_write {data : Bytes} {r : Except Errno ℕ}
    (h : systemCalls (.write output data) w r w') (hapart : TwoFiles input output w) :
    TwoFiles input output w' ∧ w'.disk.unread input = w.disk.unread input := by
  obtain ⟨hne, f, g, hf, hg, hino⟩ := hapart
  obtain ⟨⟨-, hdisk⟩ | ⟨g', content, mode, n, hg', -, hn, -, -, hdisk⟩, -⟩ := h
  · unfold TwoFiles
    rw [hdisk]
    exact ⟨⟨hne, f, g, hf, hg, hino⟩, rfl⟩
  rw [hg] at hg'
  cases hg'
  have hf' : w'.disk.fds.owner input = some f := by
    rw [hdisk]
    exact (FdTable.owner_assign hg _ input).trans ((if_neg hne).trans hf)
  have hnode : w'.disk.graph.node f.ino = w.disk.graph.node f.ino := by
    rw [hdisk]
    exact FileGraph.node_setContent_of_ne hino
  refine ⟨⟨hne, f, { g with offset := g.offset + n }, hf', ?_, hino⟩, ?_⟩
  · rw [hdisk]
    exact (FdTable.owner_assign hg _ output).trans (if_pos rfl)
  · simp only [Disk.unread, hf, hf', Option.bind_some, hnode]

/-- Opening a file to read it. -/
theorem open_rdonly {path : Bytes} {mode : ℕ}
    (h : systemCalls (.openFile path .rdonly mode) w (.ok fd) w') :
    ∃ i, w'.disk.fds.owner fd = some ⟨i, 0, false⟩ := by
  obtain ⟨⟨⟨e, he⟩, -⟩ | ⟨i, -, -, hfd, hdisk⟩, -⟩ := h
  · cases he
  cases hfd
  refine ⟨i, ?_⟩
  rw [hdisk]
  exact (FdTable.owner_alloc _ _ _).trans (if_pos rfl)

/-- Opening a file with `O_TRUNC` while another one is open: if it is the same file, nothing is left
to read of it. -/
theorem open_truncate {path : Bytes} {mode i : ℕ}
    (h : systemCalls (.openFile path .truncate mode) w (.ok fd) w')
    (hf : w.disk.fds.owner fd' = some ⟨i, 0, false⟩) :
    TwoFiles fd' fd w' ∨ w'.disk.unread fd' = [] := by
  obtain ⟨⟨⟨e, he⟩, -⟩ | ⟨g, j, -, hopen, hfd, hdisk⟩, -⟩ := h
  · cases he
  cases hfd
  have hne : fd' ≠ w.disk.fds.lowest := by
    rintro rfl
    rw [FdTable.owner_lowest] at hf
    cases hf
  have hf' : w'.disk.fds.owner fd' = some ⟨i, 0, false⟩ := by
    rw [hdisk]
    exact (FdTable.owner_alloc _ _ _).trans ((if_neg hne).trans hf)
  by_cases hij : i = j
  · obtain ⟨mode', hnode⟩ := (FileGraph.truncated_openTruncate hopen).node
    right
    have hempty : w'.disk.graph.node i = some (.file [] mode') := by
      rw [hdisk, hij]
      exact hnode
    rw [Disk.unread_eq hf' hempty]
    rfl
  · refine .inl ⟨hne, _, ⟨j, 0, true⟩, hf', ?_, hij⟩
    rw [hdisk]
    exact (FdTable.owner_alloc _ _ _).trans (if_pos rfl)

end Ps4Dropbear
