import Mathlib.Data.Set.Finite.Basic
import Ps4Dropbear.Files.Tree
import Ps4Dropbear.Shell.HeadTail
import Ps4Dropbear.Shell.Resolve

/-!
# `find`

`command_find_path` prints a path and visits the entries of a directory in the order in which
`readdir` returns them, down to a depth of 32.  The system has one tree, which does not change, and
directory streams that can be opened while others are.

* `PathTree` : a tree whose names can be in a path.
* `servesTree` : the system with its directory streams.
* `ShellProg.total_findLoop` : the loop over a directory lists what is below its entries.

**Main result**: `find` prints each path down to the depth of 32 once, a directory in front of what
is in it (`find_lists`).
-/

namespace Ps4Dropbear

/-- A tree whose names can be in a path. -/
structure PathTree extends DirTree Bytes where
  isPathName : ∀ p n, isDir (p ++ [n]) ≠ none → IsPathName n

namespace PathTree

variable {t : PathTree} {p q : List Bytes}

theorem forall_isPathName (h : t.isDir p ≠ none) : ∀ n ∈ p, IsPathName n := by
  induction p using List.reverseRecOn with
  | nil => simp
  | append_singleton p n ih =>
    intro m hm
    rcases List.mem_append.1 hm with hm | hm
    · exact ih (t.isDir_of_append h) m hm
    · rw [List.mem_singleton.1 hm]
      exact t.isPathName p n h

/-- Different nodes have different paths. -/
theorem eq_of_renderPath (hp : t.isDir p ≠ none) (hq : t.isDir q ≠ none)
    (h : renderPath p = renderPath q) : p = q := by
  rw [← pathNames_renderPath (forall_isPathName hp), h,
    pathNames_renderPath (forall_isPathName hq)]

/-- An entry of a directory, and not the directory itself or the one above it. -/
def isEntry (name : Bytes) : Bool := ¬ (name = ascii "." ∨ name = ascii "..")

/-- What `readdir` returns of a directory: its entries in any order, with `.` and `..` between
them. -/
def Reads (t : PathTree) (p names : List Bytes) : Prop :=
  (names.filter isEntry).Perm (t.entries p)

theorem reads_entries (p : List Bytes) : t.Reads p (t.entries p) := by
  have hall : ∀ n ∈ t.entries p, isEntry n = true := by
    intro n hn
    obtain ⟨-, -, hdot, hdots⟩ := t.isPathName p n ((t.mem_entries p n).1 hn)
    exact decide_eq_true (not_or.2 ⟨hdot, hdots⟩)
  rw [Reads, List.filter_eq_self.2 hall]

/-- The line of `find` for a node. -/
def findLine (t : PathTree) (p : List Bytes) : Bytes :=
  renderPath p ++ ShellProg.slashIf (t.isDir p = some true) ++ ascii "\n"

end PathTree

/-- The directory streams that are open, with the names that `readdir` has not returned yet. -/
abbrev DirStreams := ℕ → Option (List Bytes)

/-- A system with this tree. -/
def servesTree (t : PathTree) : (c : ShellCall) → DirStreams → c.Answer → DirStreams → Prop
  | .stat path, w, r, w' =>
    (∃ p st, path = renderPath p ∧ t.isDir p = some st.isDir ∧ r = .ok st) ∧ w' = w
  | .opendir path, w, r, w' => ∃ p d names, path = renderPath p ∧ t.isDir p = some true ∧
      t.Reads p names ∧ w d = none ∧ r = .ok d ∧ w' = Function.update w d (some names)
  | .readdir d, w, r, w' => ∃ names, w d = some names ∧ r = names.head? ∧
      w' = Function.update w d (some names.tail)
  | .closedir d, w, _, w' => w' = Function.update w d none
  | _, _, _, _ => False

namespace ShellProg

variable {L : Libc} {errno : Errno} {state : ShellState} {t : PathTree} {p : List Bytes}
variable {w : DirStreams} {out : Bytes} {d depth : ℕ}

theorem exists_stat (b : Bool) : ∃ st : StatBuf, st.isDir = b := by
  cases b with
  | true => exact ⟨⟨0o040000, 0, 0⟩, by decide⟩
  | false => exact ⟨⟨0o100000, 0, 0⟩, by decide⟩

theorem finite_update (hw : {d | w d ≠ none}.Finite) (d : ℕ) (names : Option (List Bytes)) :
    {d' | Function.update w d names d' ≠ none}.Finite := by
  refine (hw.insert d).subset ?_
  intro d' hd'
  by_cases heq : d' = d
  · exact .inl heq
  · exact .inr fun hnone => hd' ((Function.update_of_ne heq _ _).trans hnone)

/-- The path of an entry. -/
theorem entryPath_renderPath {name : Bytes} (hp : ∀ n ∈ p, IsPathName n)
    (hlen : (renderPath (p ++ [name])).length < ps4ShellPathMax) :
    entryPath (renderPath p) name = some (renderPath (p ++ [name])) := by
  have hfull : renderPath p ++ (if renderPath p = ascii "/" then [] else ascii "/") ++ name =
      renderPath (p ++ [name]) := by
    cases p with
    | nil =>
      have hroot : renderPath [] = ascii "/" := rfl
      rw [if_pos hroot]
      simp [renderPath, ascii]
    | cons n p =>
      have hne : renderPath (n :: p) ≠ ascii "/" := by
        intro heq
        have hnames := pathNames_renderPath hp
        rw [heq] at hnames
        cases hnames
      rw [if_neg hne]
      simp [renderPath, ascii]
  unfold entryPath
  dsimp only
  rw [hfull, if_neg (Nat.not_le.2 hlen)]

/-- What has been printed of a directory. -/
def Visits (t : PathTree) (S : Set (List Bytes)) (w : DirStreams) (out : Bytes) (status : ℤ)
    (v : DirStreams × Bytes) : Prop :=
  status = 0 ∧ v.1 = w ∧ ∃ ps, DirTree.Listing S ps ∧ v.2 = out ++ ps.flatMap t.findLine

/-- The loop over a directory, with the names that `readdir` will return. -/
theorem total_findLoop {visit : Bytes → ShellProg ℤ} {names : List Bytes}
    (hlen : ∀ q, t.isDir q ≠ none → (renderPath q).length < ps4ShellPathMax)
    (hp : t.isDir p = some true) (hnames : t.Reads p names) (hd : w d = none)
    (hw : {d | w d ≠ none}.Finite)
    (hvisit : ∀ n w out, t.isDir (p ++ [n]) ≠ none → {d | w d ≠ none}.Finite →
      Prog.Total (WriterProg.Writes WriterProg.keepAll (servesTree t))
        (Visits t (t.below depth (p ++ [n])) w out) (visit (renderPath (p ++ [n]))) (w, out)) :
    Prog.Total (WriterProg.Writes WriterProg.keepAll (servesTree t))
      (Visits t (t.belowEntries depth p (names.filter PathTree.isEntry)) w out)
      (Prog.iterate (findBody visit (renderPath p) d) ())
      (Function.update w d (some names), out) := by
  -- some of the names have been visited, and the stream has the others
  refine Prog.Total.iterate (fun _ v => ∃ done rest ps, names = done ++ rest ∧
      v.1 = Function.update w d (some rest) ∧
      DirTree.Listing (t.belowEntries depth p (done.filter PathTree.isEntry)) ps ∧
      v.2 = out ++ ps.flatMap t.findLine)
    (fun _ v => ((v.1 d).getD []).length) ?_ ?_
  · refine ⟨[], names, [], rfl, rfl, ?_, by simp⟩
    have hnone : t.belowEntries depth p ([].filter PathTree.isEntry) = ∅ := by
      simp [DirTree.belowEntries]
    rw [hnone]
    exact .nil
  rintro _ ⟨w₁, out₁⟩ ⟨done, rest, ps, rfl, hw₁, hps, hout⟩
  dsimp only at hw₁ hout
  subst hw₁ hout
  unfold findBody
  refine WriterProg.total_loc ⟨_, _, rest, Function.update_self .., rfl, rfl⟩ ?_
  rintro r w₂ ⟨rest', hrest', rfl, rfl⟩
  rw [Function.update_self, Option.some_inj] at hrest'
  subst hrest'
  rw [Function.update_idem]
  cases rest with
  | nil =>
    refine WriterProg.total_loc ⟨(), _, rfl⟩ ?_
    rintro - w₃ rfl
    have hclosed : Function.update (Function.update w d (some [])) d none = w := by
      rw [Function.update_idem, ← hd, Function.update_eq_self]
    rw [List.append_nil]
    exact .ret ⟨rfl, hclosed, ps, hps, rfl⟩
  | cons n rest =>
    dsimp only [List.head?_cons, List.tail_cons]
    by_cases hdot : n = ascii "." ∨ n = ascii ".."
    · rw [if_pos hdot]
      refine .ret ⟨⟨done ++ [n], rest, ps, by simp, rfl, ?_, rfl⟩, ?_⟩
      · have hskip : PathTree.isEntry n = false := decide_eq_false (not_not.2 hdot)
        rw [List.filter_append, List.filter_singleton, hskip, cond_false, List.append_nil]
        exact hps
      · simp
    · rw [if_neg hdot]
      have hentry : PathTree.isEntry n = true := decide_eq_true hdot
      have hmem : n ∈ t.entries p := by
        refine hnames.subset (List.mem_filter.2 ⟨?_, hentry⟩)
        simp
      have hnode := (t.mem_entries p n).1 hmem
      have hnew : n ∉ done.filter PathTree.isEntry := by
        have hnodup := hnames.nodup_iff.2 (t.nodup p)
        rw [List.filter_append, List.filter_cons_of_pos hentry] at hnodup
        exact fun hdone => (List.nodup_append.1 hnodup).2.2 n hdone n List.mem_cons_self rfl
      have hnamesp : ∀ n ∈ p, IsPathName n :=
        PathTree.forall_isPathName (by rw [hp]; exact Option.some_ne_none true)
      rw [entryPath_renderPath hnamesp (hlen _ hnode)]
      refine (hvisit n _ _ hnode (finite_update hw d _)).bind ?_
      rintro status ⟨w₃, out₃⟩ ⟨rfl, hw₃, ps', hps', hout₃⟩
      dsimp only at hw₃ hout₃
      subst hw₃ hout₃
      rw [if_neg (by simp)]
      refine .ret ⟨⟨done ++ [n], rest, ps ++ ps', by simp, rfl, ?_, by simp⟩, ?_⟩
      · rw [List.filter_append, List.filter_singleton, hentry, cond_true]
        exact DirTree.listing_entries hps hnew hps'
      · simp

theorem total_stat {f : Except Errno StatBuf → ShellProg ℤ} {Q : ℤ → DirStreams × Bytes → Prop}
    (hp : t.isDir p ≠ none)
    (hf : ∀ st : StatBuf, t.isDir p = some st.isDir →
      Prog.Total (WriterProg.Writes WriterProg.keepAll (servesTree t)) Q (f (.ok st)) (w, out)) :
    Prog.Total (WriterProg.Writes WriterProg.keepAll (servesTree t)) Q
      ((sys (.stat (renderPath p))).bind f) (w, out) := by
  obtain ⟨b, hb⟩ := Option.ne_none_iff_exists'.1 hp
  obtain ⟨st, hst⟩ := exists_stat b
  refine WriterProg.total_loc ⟨.ok st, w, ⟨p, st, rfl, hst ▸ hb, rfl⟩, rfl⟩ ?_
  rintro r w₁ ⟨⟨q, st, hq, hdir, rfl⟩, rfl⟩
  obtain rfl := PathTree.eq_of_renderPath hp (by simp [hdir]) hq
  exact hf st hdir

/-- The line of a node, and the rest of the visit. -/
theorem total_findLine {k : ShellProg ℤ} {Q : ℤ → DirStreams × Bytes → Prop} {b : Bool}
    (hlen : (renderPath p).length < ps4ShellPathMax) (hp : t.isDir p = some b)
    (hk : Prog.Total (WriterProg.Writes WriterProg.keepAll (servesTree t)) Q k
      (w, out ++ t.findLine p)) :
    Prog.Total (WriterProg.Writes WriterProg.keepAll (servesTree t)) Q
      ((writeFmt (renderPath p ++ slashIf b ++ ascii "\n")).bind fun status =>
        if status ≠ 0 then pure (-1) else k) (w, out) := by
  have hline : renderPath p ++ slashIf b ++ ascii "\n" = t.findLine p := by
    simp [PathTree.findLine, hp]
  refine total_writeFmt ?_ ?_
  · have hslash : (slashIf b).length ≤ 1 := by cases b <;> decide
    have hend : (ascii "\n").length = 1 := rfl
    have hmax : ps4ShellPathMax = 1024 := rfl
    rw [List.length_append, List.length_append, hend]
    omega
  · rw [if_neg (by simp), hline]
    exact hk

/-- `command_find_path`. -/
theorem total_commandFindPath
    (hlen : ∀ q, t.isDir q ≠ none → (renderPath q).length < ps4ShellPathMax) {levels : ℕ}
    (hp : t.isDir p ≠ none) (hw : {d | w d ≠ none}.Finite) :
    Prog.Total (WriterProg.Writes WriterProg.keepAll (servesTree t))
      (Visits t (t.below (p.length + levels) p) w out) (commandFindPath L levels (renderPath p))
      (w, out) := by
  -- a directory has one level more below it than its entries
  induction levels generalizing p w out with
  | zero =>
    have hleaf := DirTree.below_of_leaf hp (Nat.le_add_right _ 0) (.inr (le_refl _))
    rw [hleaf]
    unfold commandFindPath
    refine total_stat hp fun st hdir => ?_
    refine total_findLine (hlen p hp) hdir ?_
    have hdone : Visits t {p} w out 0 (w, out ++ t.findLine p) :=
      ⟨rfl, rfl, [p], .singleton p, by simp⟩
    split
    · exact .ret hdone
    · exact .ret hdone
  | succ levels ih =>
    unfold commandFindPath
    refine total_stat hp fun st hdir => ?_
    refine total_findLine (hlen p hp) hdir ?_
    split
    · next hfile =>
      rw [hfile] at hdir
      have hleaf := DirTree.below_of_leaf hp (Nat.le_add_right _ (levels + 1)) (.inl hdir)
      rw [hleaf]
      exact .ret ⟨rfl, rfl, [p], .singleton p, by simp⟩
    · next hisDir =>
      rw [Bool.not_eq_false] at hisDir
      rw [hisDir] at hdir
      obtain ⟨d, hd⟩ := hw.exists_notMem
      refine WriterProg.total_loc
        ⟨.ok d, _, p, d, t.entries p, rfl, hdir, PathTree.reads_entries p, not_not.1 hd, rfl, rfl⟩ ?_
      rintro r w₂ ⟨q, d, names, hq, hqdir, hnames, hd, rfl, rfl⟩
      obtain rfl := PathTree.eq_of_renderPath hp (by simp [hqdir]) hq
      have hvisit : ∀ n w out, t.isDir (p ++ [n]) ≠ none → {d | w d ≠ none}.Finite →
          Prog.Total (WriterProg.Writes WriterProg.keepAll (servesTree t))
            (Visits t (t.below (p.length + (levels + 1)) (p ++ [n])) w out)
            (commandFindPath L levels (renderPath (p ++ [n]))) (w, out) := by
        intro n w out hn hw
        have hchild := @ih (p ++ [n]) w out hn hw
        rw [List.length_append, List.length_singleton, Nat.add_assoc, Nat.add_comm 1] at hchild
        exact hchild
      refine (total_findLoop hlen hdir hnames hd hw hvisit).mono ?_
      rintro status ⟨w₃, out₃⟩ ⟨rfl, hw₃, ps, hps, hout⟩
      refine ⟨rfl, hw₃, p :: ps, ?_, ?_⟩
      · exact DirTree.listing_dir hdir (by omega) (fun n => hnames.mem_iff) hps
      · rw [hout]
        simp

/-! ### The command line -/

theorem command_find {args : List Bytes} (hargs : args.length ≤ 1) :
    command L errno state (ascii "find" :: args) =
      match resolveArg state (args.headD (ascii ".")) with
      | none => shellError L (ascii "find") (args.headD (ascii ".")) .enametoolong
      | some path => commandFindPath L 32 path := by
  obtain rfl | ⟨name, rfl⟩ : args = [] ∨ ∃ name, args = [name] := by
    rw [← List.length_eq_zero_iff, ← List.length_eq_one_iff]
    omega
  · rfl
  · rfl

end ShellProg

open ShellProg (resolveArg ps4ShellExecute)

/-- **`find` lists the tree.**  The names of the starting point are `start`, or those of the current
directory without an argument.  `find` returns `0`, closes every directory it opens, and prints the
nodes of a list: those down to 32 levels below the starting point, each once and in front of what is
in it. -/
theorem find_lists (L : Libc) (errno : Errno) (state : ShellState) (t : PathTree)
    {line out : Bytes} {args : List Bytes} {start : List Bytes} {w : DirStreams}
    (hsplit : splitCommand line = some (ascii "find" :: args)) (hargs : args.length ≤ 1)
    (hpath : resolveArg state (args.headD (ascii ".")) = some (renderPath start))
    (hstart : t.isDir start ≠ none)
    (hlen : ∀ p, t.isDir p ≠ none → (renderPath p).length < 1024)
    (hw : {d | w d ≠ none}.Finite) :
    Prog.Total (WriterProg.Writes WriterProg.keepAll (servesTree t))
      (fun r v => r = (0, state) ∧ v.1 = w ∧ ∃ ps : List (List Bytes),
        v.2 = out ++ ps.flatMap t.findLine ∧ (ps.map renderPath).Nodup ∧
        (∀ p, p ∈ ps ↔ t.isDir p ≠ none ∧ start <+: p ∧ p.length ≤ start.length + 32) ∧
        ps.Pairwise fun q p => ¬ p <+: q)
      (ps4ShellExecute L errno state line) (w, out) := by
  rw [ShellProg.ps4ShellExecute_of_split hsplit (by decide), ShellProg.command_find hargs, hpath]
  refine (ShellProg.total_commandFindPath hlen hstart hw).bind ?_
  rintro status ⟨w', out'⟩ ⟨rfl, hw', ps, hps, hout⟩
  refine .ret ⟨rfl, hw', ps, hout, ?_, hps.mem_iff, hps.pairwise⟩
  refine hps.nodup.map_on ?_
  intro p hp q hq heq
  exact PathTree.eq_of_renderPath ((hps.mem_iff p).1 hp).1 ((hps.mem_iff q).1 hq).1 heq

/-- The root with a file `f` in it. -/
def rootWithFile : PathTree where
  isDir p := if p = [] then some true else if p = [ascii "f"] then some false else none
  entries p := if p = [] then [ascii "f"] else []
  nodup p := by
    split <;> simp
  mem_entries p n := by
    rcases p with _ | ⟨m, p⟩ <;> simp
  parent p n := by
    rcases p with _ | ⟨m, p⟩ <;> simp
  isPathName p n := by
    rcases p with _ | ⟨m, p⟩
    · simp only [List.nil_append, List.cons_ne_nil, if_false, List.cons.injEq, and_true,
        ite_eq_right_iff, reduceCtorEq, imp_false, not_not, ne_eq]
      rintro rfl
      decide
    · simp

/-- `find` in the root. -/
theorem find_lists_root :
    Prog.Total (WriterProg.Writes WriterProg.keepAll (servesTree rootWithFile))
      (fun r v => r = (0, ⟨ascii "/", ascii "/"⟩) ∧ v.1 = (fun _ => none) ∧
        ∃ ps : List (List Bytes), v.2 = [] ++ ps.flatMap rootWithFile.findLine ∧
          (ps.map renderPath).Nodup ∧
          (∀ p, p ∈ ps ↔ rootWithFile.isDir p ≠ none ∧ [] <+: p ∧ p.length ≤ 0 + 32) ∧
          ps.Pairwise fun q p => ¬ p <+: q)
      (ps4ShellExecute plainLibc .zero ⟨ascii "/", ascii "/"⟩ (ascii "find"))
      (fun _ => none, []) := by
  have hsplit : splitCommand (ascii "find") = some (ascii "find" :: []) := by decide +kernel
  have hpath : resolveArg ⟨ascii "/", ascii "/"⟩ (([] : List Bytes).headD (ascii ".")) =
      some (renderPath []) := by decide +kernel
  have hlen : ∀ p, rootWithFile.isDir p ≠ none → (renderPath p).length < 1024 := by
    intro p hp
    by_cases hroot : p = []
    · rw [hroot]
      decide
    · obtain rfl : p = [ascii "f"] := by
        by_contra hne
        exact hp ((if_neg hroot).trans (if_neg hne))
      decide
  exact find_lists plainLibc .zero ⟨ascii "/", ascii "/"⟩ rootWithFile hsplit (by decide) hpath
    (by simp [rootWithFile]) hlen (by simp)

end Ps4Dropbear
