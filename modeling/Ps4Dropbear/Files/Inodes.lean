import Mathlib.Data.List.Basic
import Mathlib.Logic.Function.Basic

/-!
# File systems as graphs

The nodes of a file system are numbered.  A node is a regular file or a directory, and a directory
leads from names to nodes, so that one file can have many names.  Names are of any type `N`, and
what files contain is of any type `B`.

* `FileGraph.walk` : the node that a list of names leads to.
* `FileGraph.setContent`, `FileGraph.create` : another content of a file, and a new file.
* `FileGraph.openTruncate` : a file that is opened to be written from its start, and made if it is
  not there.

**Main result** (`FileGraph.truncated_openTruncate`): opening a file so empties it under all of its
names, and changes no other file.
-/

/-- A regular file with its mode, or a directory. -/
inductive FileNode (N B : Type)
  | file (content : List B) (mode : ℕ)
  | dir (entries : N → Option ℕ)

namespace FileNode

variable {N B : Type}

/-- The number under a name. -/
def entry : FileNode N B → N → Option ℕ
  | file _ _, _ => none
  | dir entries, name => entries name

/-- The node is a regular file. -/
def isFile : FileNode N B → Bool
  | file _ _ => true
  | dir _ => false

/-- A file with this content; a directory stays as it is. -/
def withContent (content : List B) : FileNode N B → FileNode N B
  | file _ mode => file content mode
  | dir entries => dir entries

/-- A directory with this entry; a file stays as it is. -/
def withEntry [DecidableEq N] (name : N) (i : ℕ) : FileNode N B → FileNode N B
  | file content mode => file content mode
  | dir entries => dir (Function.update entries name (some i))

@[simp] theorem entry_withContent (content : List B) (n : FileNode N B) :
    (n.withContent content).entry = n.entry := by
  cases n <;> rfl

theorem entry_withEntry [DecidableEq N] (name name' : N) (i : ℕ) (n : FileNode N B)
    (hn : n.isFile = false) :
    (n.withEntry name i).entry name' = if name' = name then some i else n.entry name' := by
  cases n with
  | file => cases hn
  | dir entries => exact Function.update_apply _ _ _ _

end FileNode

/-- The nodes by their numbers; from `fresh` on no number is used. -/
@[ext] structure FileGraph (N B : Type) where
  node : ℕ → Option (FileNode N B)
  root : ℕ
  fresh : ℕ
  free : ∀ i, fresh ≤ i → node i = none
  closed : ∀ i n name j, node i = some n → n.entry name = some j → j < fresh

namespace FileGraph

variable {N B : Type} {g : FileGraph N B} {i j parent : ℕ} {name : N} {names : List N}
variable {content content' : List B} {mode : ℕ} {n : FileNode N B}

/-- The node under a name in a directory. -/
def child (g : FileGraph N B) (i : ℕ) (name : N) : Option ℕ := (g.node i).bind (·.entry name)

/-- The node that the names lead to. -/
def walk (g : FileGraph N B) (i : ℕ) (names : List N) : Option ℕ := names.foldlM g.child i

/-- The file has another content. -/
def setContent (g : FileGraph N B) (i : ℕ) (content : List B) : FileGraph N B where
  node j := if j = i then (g.node j).map (·.withContent content) else g.node j
  root := g.root
  fresh := g.fresh
  free j hj := by simp [g.free j hj]
  closed j n name k hj hk := by
    split at hj
    · obtain ⟨old, hold, rfl⟩ := Option.map_eq_some_iff.1 hj
      rw [FileNode.entry_withContent] at hk
      exact g.closed j old name k hold hk
    · exact g.closed j n name k hj hk

/-- The directory has a new, empty file under the name. -/
def create [DecidableEq N] (g : FileGraph N B) (parent : ℕ) (name : N) (mode : ℕ) :
    FileGraph N B where
  node j :=
    if j = g.fresh then some (.file [] mode)
    else if j = parent then (g.node j).map (·.withEntry name g.fresh)
    else g.node j
  root := g.root
  fresh := g.fresh + 1
  free j hj := by
    rw [if_neg (Nat.ne_of_gt hj), g.free j (Nat.le_of_succ_le hj)]
    exact ite_self _
  closed j n name' k hj hk := by
    split at hj
    · cases hj
      cases hk
    split at hj
    · obtain ⟨old, hold, rfl⟩ := Option.map_eq_some_iff.1 hj
      cases old with
      | file => cases hk
      | dir entries =>
        rw [FileNode.entry_withEntry _ _ _ _ rfl] at hk
        split at hk
        · cases hk
          exact Nat.lt_succ_self _
        · exact Nat.lt_succ_of_lt (g.closed j _ name' k hold hk)
    · exact Nat.lt_succ_of_lt (g.closed j n name' k hj hk)

/-! ### Another content -/

theorem node_setContent_self (h : g.node i = some (.file content mode)) :
    (g.setContent i content').node i = some (.file content' mode) := by
  simp [setContent, h, FileNode.withContent]

theorem node_setContent_of_ne (h : j ≠ i) : (g.setContent i content).node j = g.node j := if_neg h

@[simp] theorem setContent_setContent :
    (g.setContent i content).setContent i content' = g.setContent i content' := by
  ext1
  · funext j
    simp only [setContent]
    split
    · rw [Option.map_map]
      congr 1
      funext n
      cases n <;> rfl
    · rfl
  · rfl
  · rfl

theorem setContent_self (h : g.node i = some (.file content mode)) : g.setContent i content = g := by
  ext1
  · funext j
    simp only [setContent]
    split
    · next hj => rw [hj, h, Option.map_some, FileNode.withContent]
    · rfl
  · rfl
  · rfl

@[simp] theorem child_setContent : (g.setContent i content).child = g.child := by
  funext j name
  simp only [child, setContent]
  split
  · rw [Option.bind_map]
    exact Option.bind_congr fun n _ => congrFun (FileNode.entry_withContent content n) name
  · rfl

/-- Names lead where they did. -/
@[simp] theorem walk_setContent : (g.setContent i content).walk = g.walk := by
  funext j names
  rw [walk, walk, child_setContent]

/-! ### A new file -/

theorem walk_cons {names : List N} :
    g.walk i (name :: names) = (g.child i name).bind fun j => g.walk j names := List.foldlM_cons

theorem walk_concat :
    g.walk i (names ++ [name]) = (g.walk i names).bind fun j => g.child j name := by
  rw [walk, walk, List.foldlM_append]
  change ((names.foldlM g.child i).bind fun j => (g.child j name).bind some) = _
  simp only [Option.bind_fun_some]

theorem exists_file (h : (g.node i).any (·.isFile)) :
    ∃ content mode, g.node i = some (.file content mode) := by
  rcases hn : g.node i with _ | ⟨content, mode⟩ | entries
  · simp [hn] at h
  · exact ⟨content, mode, rfl⟩
  · simp [hn, FileNode.isFile] at h

theorem exists_dir (h : (g.node i).any fun n => !n.isFile) :
    ∃ n, g.node i = some n ∧ n.isFile = false := by
  cases hn : g.node i with
  | none => simp [hn] at h
  | some n => exact ⟨n, rfl, by simpa [hn] using h⟩

theorem ne_fresh_of_node (h : g.node i = some n) : i ≠ g.fresh := by
  rintro rfl
  rw [g.free _ (Nat.le_refl _)] at h
  cases h

variable [DecidableEq N]

theorem node_create_of_file (h : g.node i = some (.file content mode)) {mode' : ℕ} :
    (g.create parent name mode').node i = some (.file content mode) := by
  simp only [create, if_neg (ne_fresh_of_node h), h]
  split <;> rfl

/-- Where a name leads to in a directory. -/
theorem child_create (hn : g.node parent = some n) (hdir : n.isFile = false) {name' : N} :
    (g.create parent name mode).child i name' =
      if i = parent ∧ name' = name then some g.fresh else g.child i name' := by
  have hparent := ne_fresh_of_node hn
  simp only [child, create]
  by_cases hfresh : i = g.fresh
  · rw [if_pos hfresh, if_neg fun h => hparent (h.1.symm.trans hfresh), hfresh,
      g.free _ (Nat.le_refl _)]
    rfl
  rw [if_neg hfresh]
  by_cases hi : i = parent
  · rw [if_pos hi, hi, hn, Option.map_some, Option.bind_some, FileNode.entry_withEntry _ _ _ _ hdir]
    simp
  · rw [if_neg hi, if_neg fun h => hi h.1]

/-- Names that led somewhere lead there still. -/
theorem walk_create (hn : g.node parent = some n) (hdir : n.isFile = false)
    (hnone : g.child parent name = none) (h : g.walk i names = some j) :
    (g.create parent name mode).walk i names = some j := by
  induction names generalizing i with
  | nil => exact h
  | cons name' names ih =>
    rw [walk_cons] at h ⊢
    obtain ⟨k, hk, hrest⟩ := Option.bind_eq_some_iff.1 h
    have hold : ¬ (i = parent ∧ name' = name) := by
      rintro ⟨rfl, rfl⟩
      rw [hnone] at hk
      cases hk
    rw [child_create hn hdir, if_neg hold, hk]
    exact ih hrest

/-- Names lead where they did, or to the new file. -/
theorem walk_create_cases (hn : g.node parent = some n) (hdir : n.isFile = false)
    (h : (g.create parent name mode).walk i names = some j) :
    g.walk i names = some j ∨ j = g.fresh := by
  induction names generalizing i with
  | nil => exact .inl h
  | cons name' names ih =>
    rw [walk_cons] at h ⊢
    obtain ⟨k, hk, hrest⟩ := Option.bind_eq_some_iff.1 h
    rw [child_create hn hdir] at hk
    split at hk
    · -- the new file has no names below it
      cases hk
      cases names with
      | nil =>
        cases hrest
        exact .inr rfl
      | cons name'' names =>
        have hfile : (g.create parent name mode).child g.fresh name'' = none := by
          simp [child, create, FileNode.entry]
        rw [walk_cons, hfile] at hrest
        cases hrest
    · rw [hk]
      exact ih hrest

/-- The name of the new file leads to it. -/
theorem walk_create_new (hn : g.node parent = some n) (hdir : n.isFile = false)
    (hnone : g.child parent name = none) (h : g.walk i names = some parent) :
    (g.create parent name mode).walk i (names ++ [name]) = some g.fresh := by
  rw [walk_concat, walk_create hn hdir hnone h]
  change (g.create parent name mode).child parent name = _
  rw [child_create hn hdir, if_pos ⟨rfl, rfl⟩]

/-! ### Opening a file to write to it -/

/-- `open` with `O_CREAT` and `O_TRUNC`: the graph then, and the number of the file. -/
def openTruncate (g : FileGraph N B) (names : List N) (mode : ℕ) : Option (FileGraph N B × ℕ) :=
  match g.walk g.root names with
  | some i => if (g.node i).any (·.isFile) then some (g.setContent i [], i) else none
  | none => do
    let name ← names.getLast?
    let parent ← g.walk g.root names.dropLast
    if (g.node parent).any fun n => !n.isFile then some (g.create parent name mode, g.fresh)
    else none

/-- The file `j` is under these names and is empty, and that is all that is new. -/
structure Truncated (g : FileGraph N B) (names : List N) (g' : FileGraph N B) (j : ℕ) : Prop where
  walk : g'.walk g'.root names = some j
  node : ∃ mode, g'.node j = some (.file [] mode)
  walk_old : ∀ p i, g.walk g.root p = some i → g'.walk g'.root p = some i
  walk_new : ∀ p i, g'.walk g'.root p = some i → g.walk g.root p = some i ∨ i = j
  other : ∀ i content mode, i ≠ j → g.node i = some (.file content mode) →
    g'.node i = some (.file content mode)
  known : ∀ n, g.node j = some n → g.walk g.root names = some j
  kept : ∀ content mode, g.node j = some (.file content mode) → g'.node j = some (.file [] mode)

/-- **Opening a file to write to it**, whether it is there or not. -/
theorem truncated_openTruncate {g' : FileGraph N B} (h : g.openTruncate names mode = some (g', j)) :
    Truncated g names g' j := by
  unfold openTruncate at h
  split at h
  · next i hwalk =>
    obtain ⟨hfile, heq⟩ := Option.ite_none_right_eq_some.1 h
    cases heq
    obtain ⟨content, mode', hn⟩ := exists_file hfile
    refine ⟨?_, ⟨mode', node_setContent_self hn⟩, ?_, ?_, ?_, fun _ _ => hwalk,
      fun _ _ hold => node_setContent_self hold⟩
    · rw [walk_setContent]
      exact hwalk
    · rw [walk_setContent]
      exact fun _ _ => id
    · rw [walk_setContent]
      exact fun _ _ => .inl
    · intro k content' mode'' hk hnode
      rw [node_setContent_of_ne hk, hnode]
  · next hwalk =>
    obtain ⟨name, hlast, h⟩ := Option.bind_eq_some_iff.1 h
    obtain ⟨parent, hparent, h⟩ := Option.bind_eq_some_iff.1 h
    obtain ⟨hdir, heq⟩ := Option.ite_none_right_eq_some.1 h
    cases heq
    obtain ⟨n, hn, hdir⟩ := exists_dir hdir
    have hnames : names = names.dropLast ++ [name] := (List.dropLast_append_getLast? name hlast).symm
    have hnone : g.child parent name = none := by
      rw [hnames, walk_concat, hparent] at hwalk
      exact hwalk
    refine ⟨?_, ⟨mode, if_pos rfl⟩, ?_, ?_, ?_, ?_, ?_⟩
    · rw [hnames]
      exact walk_create_new hn hdir hnone hparent
    · exact fun _ _ => walk_create hn hdir hnone
    · exact fun _ _ => walk_create_cases hn hdir
    · exact fun _ _ _ _ hold => node_create_of_file hold
    · exact fun _ hfresh => absurd rfl (ne_fresh_of_node hfresh)
    · exact fun _ _ hfresh => absurd rfl (ne_fresh_of_node hfresh)

end FileGraph
