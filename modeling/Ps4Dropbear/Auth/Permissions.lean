import Ps4Dropbear.Auth.Userauth
import Ps4Dropbear.Files.Basic

/-!
# The permissions of `authorized_keys`

`checkpubkeyperms`, `checkfileperm` and `authorized_keys_filepath` (`svr-authpubkey.c`), and
`expand_homedir_path_home` (`dbutil.c`).

`checkpubkeyperms` walks up from the file.  It cuts the path at its last slash before each check,
also before the first one, so the walk starts at the directory and never looks at the file.  It
ends at the text of the home directory, at the root, or when there is no slash left.

The walk is one over the text of the path.  Where the file really is, behind `..`, symbolic links
and the working directory, other directories can be above it: with `~/../shared` the file is not in
the home directory, and the walk ends there all the same.

* `FileTree` : a file system with its names, `FileTree.resolve` : the place that a path leads to.
* `IsCut`, `IsExamined` : the names that the path is cut to, and those up to the home directory.
* `mem_walked` : the walk examines these.
* `IsAbove`, `PathTrusted` : the directories above a place, and what success should say of them.
* `checkpubkeyperms_covers_iff` : **when success means that the path can be trusted**.
-/

namespace Ps4Dropbear

/-- What `stat` reports of owner and mode. -/
structure FileOwner where
  stUid : ℕ
  stMode : ℕ
  deriving DecidableEq, Repr

/-- What a name stands for. -/
inductive PathNode
  | file (st : FileOwner)
  | dir (st : FileOwner)
  /-- A symbolic link. -/
  | link (target : Bytes)
  deriving DecidableEq, Repr

/-- A place in the file system: the names on the way from the root, without links. -/
abbrev RealPath := List Bytes

/-- A file system, and what the kernel starts a lookup from. -/
structure FileTree where
  node : RealPath → Option PathNode
  /-- The working directory. -/
  cwd : RealPath
  /-- The number of links that a lookup follows, `MAXSYMLINKS`. -/
  maxLinks : ℕ

namespace FileTree

variable (fs : FileTree)

/-- Where the lookup of a path starts that is met in a directory. -/
def start (dir : RealPath) (path : Bytes) : RealPath := if path.head? = some 47 then [] else dir

/-- The lookup of the names of a path, from a directory; `follow` goes on at a link. -/
def followNames (follow : RealPath → List Bytes → Option RealPath) :
    RealPath → List Bytes → Option RealPath
  | place, [] => some place
  | place, name :: names =>
    match fs.node place with
    | some (.dir _) =>
      if name = [] ∨ name = ascii "." then followNames follow place names
      else if name = ascii ".." then followNames follow place.dropLast names
      else
        match fs.node (place ++ [name]) with
        | none => none
        | some (.link target) => follow (start place target) (target.splitOn 47 ++ names)
        | some _ => followNames follow (place ++ [name]) names
    | _ => none

/-- The lookup, through at most this many links. -/
def followLinks : ℕ → RealPath → List Bytes → Option RealPath
  | 0 => fs.followNames fun _ _ => none
  | n + 1 => fs.followNames (followLinks n)

/-- The place that a path leads to; the empty path leads nowhere. -/
def resolve (path : Bytes) : Option RealPath :=
  if path = [] then none
  else fs.followLinks fs.maxLinks (start fs.cwd path) (path.splitOn 47)

/-- Owner and mode of what is at a place. -/
def owner (place : RealPath) : Option FileOwner :=
  match fs.node place with
  | some (.file st) => some st
  | some (.dir st) => some st
  | _ => none

/-- `stat`. -/
def stat (path : Bytes) : Option FileOwner := (fs.resolve path).bind fs.owner

end FileTree

/-- `S_IWGRP`. -/
def sIwgrp : ℕ := 0o020

/-- `S_IWOTH`. -/
def sIwoth : ℕ := 0o002

/-- `expand_homedir_path_home`. -/
def expandHomedirPathHome (inpath homedir : Bytes) : Bytes :=
  if ascii "~/" <+: inpath then homedir ++ ascii "/" ++ inpath.drop 2 else inpath

/-- `authorized_keys_filepath`. -/
def authorizedKeysFilepath (authorizedKeysDir pwDir : Bytes) : Bytes :=
  expandHomedirPathHome authorizedKeysDir pwDir ++ ascii "/" ++ ascii "authorized_keys"

/-- `ses.authstate.perm_warn`, and the messages of `checkfileperm`. -/
structure PermLog where
  permWarn : Bool := false
  log : List Bytes := []
  deriving DecidableEq, Repr

/-- `checkfileperm`; the result says whether it is `DROPBEAR_SUCCESS`. -/
def checkfileperm (fs : FileTree) (pw : Passwd) (filename : Bytes) (s : PermLog) :
    Bool × PermLog :=
  match fs.stat filename with
  | none => (false, s)
  | some filestat =>
    if (filestat.stUid ≠ pw.pwUid ∧ filestat.stUid ≠ 0) ∨
        filestat.stMode &&& (sIwgrp ||| sIwoth) ≠ 0 then
      (false, if s.permWarn then s else ⟨true, s.log ++ [filename ++
        ascii " must be owned by user or root, and not writable by group or others"]⟩)
    else (true, s)

/-- The loop of `checkpubkeyperms`, for at most `n` rounds. -/
def checkpubkeypermsLoop (fs : FileTree) (pw : Passwd) : ℕ → Bytes → Bool → PermLog →
    Bool × PermLog
  | 0, _, ret, s => (ret, s)
  | n + 1, path, ret, s =>
    -- `strrchr` finds no slash
    if 47 ∉ path then (ret, s)
    else
      -- the slash is overwritten or, at the start of the path, the byte behind it
      let path := dirName path
      let (ok, s) := checkfileperm fs pw path s
      let ret := ret && ok
      if path = pw.pwDir ∨ path = ascii "/" then (ret, s)
      else checkpubkeypermsLoop fs pw n path ret s

/-- `checkpubkeyperms`.  Each round but the last shortens the path. -/
def checkpubkeyperms (fs : FileTree) (pw : Passwd) (authorizedKeysDir : Bytes) (s : PermLog) :
    Bool × PermLog :=
  let path := authorizedKeysFilepath authorizedKeysDir pw.pwDir
  checkpubkeypermsLoop fs pw path.length path true s

/-! ### The names that a path is cut to -/

/-- The path is cut to the name `d`: it goes on with a slash behind `d`, or `d` is the root and the
path starts there. -/
def IsCut (path d : Bytes) : Prop :=
  (d ≠ [] ∧ d ++ [47] <+: path) ∨ (d = [47] ∧ path.head? = some 47)

/-- The path is cut to the name and, if it is cut to the one of the home directory, not behind
that. -/
def IsExamined (home path d : Bytes) : Prop :=
  IsCut path d ∧ (IsCut path home → home.length ≤ d.length)

variable {home path d : Bytes}

theorem append_slash_prefix_iff {pre rest : Bytes} (hrest : 47 ∉ rest) :
    d ++ [47] <+: pre ++ 47 :: rest ↔ d = pre ∨ d ++ [47] <+: pre := by
  constructor
  · rintro ⟨t, ht⟩
    obtain ⟨a, hpre, -⟩ | ⟨c, hd, hc⟩ := List.append_eq_append_iff.1 ht
    · exact .inr ⟨a, hpre.symm⟩
    · cases c with
      | nil => exact .inr ⟨[], by rw [hd, List.append_nil, List.append_nil]⟩
      | cons b c =>
        obtain ⟨rfl, hrest'⟩ := List.cons.inj hc
        -- a second slash would have to be in `rest`
        rcases List.eq_nil_or_concat c with rfl | ⟨c', b, rfl⟩
        · exact .inl (List.append_inj_left' hd rfl)
        · have hb : (d ++ [47]).getLast? = (pre ++ 47 :: (c' ++ [b])).getLast? := by
            rw [hd, List.concat_eq_append]
          rw [← List.cons_append, ← List.append_assoc, List.getLast?_concat,
            List.getLast?_concat] at hb
          obtain rfl := Option.some.inj hb
          exact absurd (by rw [hrest', List.concat_eq_append]; simp) hrest
  · rintro (rfl | h)
    · exact ⟨rest, by simp⟩
    · exact h.trans (List.prefix_append _ _)

theorem dirName_append {pre rest : Bytes} (hrest : 47 ∉ rest) :
    dirName (pre ++ 47 :: rest) = if pre = [] then [47] else pre := by
  have hdrop : ((pre ++ 47 :: rest).reverse.dropWhile (· ≠ 47)).drop 1 = pre.reverse := by
    rw [List.reverse_append, List.reverse_cons, List.append_assoc, List.dropWhile_append_of_pos]
    · simp
    · intro b hb
      have hne : b ≠ 47 := by
        rintro rfl
        exact hrest (List.mem_reverse.1 hb)
      simpa using hne
  simp only [dirName, hdrop, List.reverse_reverse]
  rfl

/-- A path with a slash in it, cut at the last one. -/
theorem exists_last_slash (h : 47 ∈ path) :
    ∃ pre rest, path = pre ++ 47 :: rest ∧ 47 ∉ rest := by
  obtain ⟨as, bs, hp, has⟩ := List.eq_append_cons_of_mem (List.mem_reverse.2 h)
  refine ⟨bs.reverse, as.reverse, ?_, by simpa using has⟩
  rw [← List.reverse_reverse path, hp]
  simp

theorem IsCut.mem_slash (h : IsCut path d) : 47 ∈ path := by
  obtain ⟨-, h⟩ | ⟨-, h⟩ := h
  · exact h.subset (by simp)
  · exact List.mem_of_head? h

theorem IsCut.isPrefix (h : IsCut path d) : d <+: path := by
  obtain ⟨-, h⟩ | ⟨rfl, h⟩ := h
  · exact (List.prefix_append _ _).trans h
  · obtain ⟨t, rfl⟩ := List.head?_eq_some_iff.1 h
    exact List.prefix_append [47] t

theorem IsCut.ne_nil (h : IsCut path d) : d ≠ [] := by
  obtain ⟨h, -⟩ | ⟨rfl, -⟩ := h
  · exact h
  · exact List.cons_ne_nil _ _

/-- The root is cut to itself. -/
theorem isCut_root : IsCut [47] d ↔ d = [47] := by
  constructor
  · rintro (⟨hd, h⟩ | ⟨h, -⟩)
    · have hlen := h.length_le
      have hpos := List.length_pos_iff.2 hd
      rw [List.length_append, List.length_singleton] at hlen
      omega
    · exact h
  · rintro rfl
    exact .inr ⟨rfl, rfl⟩

/-- A path is cut to the directory it is in and to what that is cut to. -/
theorem isCut_iff (h : 47 ∈ path) :
    IsCut path d ↔ d = dirName path ∨ IsCut (dirName path) d := by
  obtain ⟨pre, rest, rfl, hrest⟩ := exists_last_slash h
  rw [dirName_append hrest, IsCut, append_slash_prefix_iff hrest]
  cases pre with
  | nil =>
    rw [if_pos rfl, isCut_root, or_self]
    constructor
    · rintro (⟨hd, hnil | hslash⟩ | ⟨h, -⟩)
      · exact absurd hnil hd
      · cases (List.append_eq_nil_iff.1 (List.prefix_nil.1 hslash)).2
      · exact h
    · exact fun h => .inr ⟨h, rfl⟩
  | cons b t =>
    rw [if_neg (List.cons_ne_nil b t)]
    constructor
    · rintro (⟨hd, rfl | hup⟩ | hroot)
      · exact .inl rfl
      · exact .inr (.inl ⟨hd, hup⟩)
      · exact .inr (.inr hroot)
    · rintro (rfl | ⟨hd, hup⟩ | hroot)
      · exact .inl ⟨List.cons_ne_nil b t, .inl rfl⟩
      · exact .inl ⟨hd, .inr hup⟩
      · exact .inr hroot

/-- The names up to the home directory: the one the path is in and, if that is not the home
directory, the others. -/
theorem isExamined_iff (h : 47 ∈ path) :
    IsExamined home path d ↔
      d = dirName path ∨ (dirName path ≠ home ∧ IsExamined home (dirName path) d) := by
  rw [IsExamined, IsExamined, isCut_iff h, isCut_iff h]
  constructor
  · rintro ⟨rfl | hd, hhome⟩
    · exact .inl rfl
    · by_cases hq : dirName path = home
      · have hlen := hhome (.inl hq.symm)
        rw [← hq] at hlen
        exact .inl (hd.isPrefix.eq_of_length_le hlen)
      · exact .inr ⟨hq, hd, fun hup => hhome (.inr hup)⟩
  · rintro (rfl | ⟨hq, hd, hhome⟩)
    · refine ⟨.inl rfl, ?_⟩
      rintro (rfl | hup)
      · exact Nat.le_refl _
      · exact hup.isPrefix.length_le
    · refine ⟨.inr hd, ?_⟩
      rintro (rfl | hup)
      · exact absurd rfl hq
      · exact hhome hup

/-! ### The walk -/

/-- The names that the loop examines. -/
def walked (home : Bytes) : ℕ → Bytes → List Bytes
  | 0, _ => []
  | n + 1, path =>
    if 47 ∉ path then []
    else dirName path ::
      if dirName path = home ∨ dirName path = ascii "/" then [] else walked home n (dirName path)

theorem length_dirName_lt (h : 47 ∈ path) (hroot : dirName path ≠ [47]) :
    (dirName path).length < path.length := by
  obtain ⟨pre, rest, rfl, hrest⟩ := exists_last_slash h
  rw [dirName_append hrest] at hroot ⊢
  split_ifs at hroot ⊢ with hpre
  · exact absurd rfl hroot
  · simp

/-- The walk examines the names that the path is cut to, up to the home directory. -/
theorem mem_walked {n : ℕ} (hn : path.length ≤ n) :
    d ∈ walked home n path ↔ IsExamined home path d := by
  induction n generalizing path with
  | zero =>
    obtain rfl := List.eq_nil_of_length_eq_zero (Nat.le_zero.1 hn)
    exact ⟨nofun, fun h => absurd h.1.mem_slash nofun⟩
  | succ n ih =>
    by_cases h : 47 ∈ path
    · rw [walked, if_neg (not_not.2 h), List.mem_cons, isExamined_iff h]
      by_cases hhome : dirName path = home
      · rw [if_pos (.inl hhome)]
        exact or_congr_right ⟨nofun, fun hc => absurd hhome hc.1⟩
      · by_cases hroot : dirName path = ascii "/"
        · rw [if_pos (.inr hroot)]
          -- the root is checked already
          refine ⟨fun hd => .inl (hd.resolve_right nofun), ?_⟩
          rintro (hd | ⟨-, hd, -⟩)
          · exact .inl hd
          · rw [hroot] at hd ⊢
            exact .inl (isCut_root.1 hd)
        · have hlen := length_dirName_lt h hroot
          rw [if_neg (not_or.2 ⟨hhome, hroot⟩), ih (by omega)]
          exact or_congr_right ⟨fun hc => ⟨hhome, hc⟩, And.right⟩
    · rw [walked, if_pos h]
      exact ⟨nofun, fun hc => absurd hc.1.mem_slash h⟩

/-- It belongs to the user or to root, and neither the group nor others may write to it. -/
def FileOwner.Safe (st : FileOwner) (uid : ℕ) : Prop :=
  (st.stUid = uid ∨ st.stUid = 0) ∧ st.stMode &&& sIwgrp = 0 ∧ st.stMode &&& sIwoth = 0

/-- What is at the place can be trusted. -/
def TrustedAt (fs : FileTree) (uid : ℕ) (place : RealPath) : Prop :=
  ∃ st, fs.owner place = some st ∧ st.Safe uid

/-- The path leads to something that can be trusted. -/
def Trusted (fs : FileTree) (uid : ℕ) (path : Bytes) : Prop :=
  ∃ place, fs.resolve path = some place ∧ TrustedAt fs uid place

theorem trusted_iff {fs : FileTree} {uid : ℕ} :
    Trusted fs uid path ↔ ∃ st, fs.stat path = some st ∧ st.Safe uid := by
  simp only [Trusted, TrustedAt, FileTree.stat, Option.bind_eq_some_iff]
  constructor
  · rintro ⟨place, hplace, st, hst, hsafe⟩
    exact ⟨st, ⟨place, hplace, hst⟩, hsafe⟩
  · rintro ⟨st, ⟨place, hplace, hst⟩, hsafe⟩
    exact ⟨place, hplace, st, hst, hsafe⟩

theorem checkfileperm_iff (fs : FileTree) (pw : Passwd) (s : PermLog) :
    (checkfileperm fs pw path s).1 = true ↔ Trusted fs pw.pwUid path := by
  rw [trusted_iff]
  unfold checkfileperm FileOwner.Safe
  cases fs.stat path with
  | none => simp
  | some st =>
    have hmode : st.stMode &&& (sIwgrp ||| sIwoth) = 0 ↔
        st.stMode &&& sIwgrp = 0 ∧ st.stMode &&& sIwoth = 0 := by
      rw [Nat.and_or_distrib_left, Nat.or_eq_zero_iff]
    simp only [Option.some.injEq, exists_eq_left', ← hmode]
    split_ifs with hbad
    · simp only [false_iff]
      rintro ⟨howner, hbits⟩
      obtain ⟨h₁, h₂⟩ | h := hbad
      · exact howner.elim h₁ h₂
      · exact h hbits
    · obtain ⟨howner, hbits⟩ := not_or.1 hbad
      simp only [true_iff]
      refine ⟨?_, not_not.1 hbits⟩
      by_cases huid : st.stUid = pw.pwUid
      · exact .inl huid
      · exact .inr (not_not.1 fun h => howner ⟨huid, h⟩)

/-- The loop succeeds when it has so far and every name it examines passes. -/
theorem checkpubkeypermsLoop_iff (fs : FileTree) (pw : Passwd) (n : ℕ) (ret : Bool)
    (s : PermLog) :
    (checkpubkeypermsLoop fs pw n path ret s).1 = true ↔
      ret = true ∧ ∀ d ∈ walked pw.pwDir n path, Trusted fs pw.pwUid d := by
  induction n generalizing path ret s with
  | zero => simp [checkpubkeypermsLoop, walked]
  | succ n ih =>
    rw [checkpubkeypermsLoop, walked]
    by_cases hslash : 47 ∉ path
    · rw [if_pos hslash, if_pos hslash]
      simp
    · rw [if_neg hslash, if_neg hslash, List.forall_mem_cons, ← checkfileperm_iff fs pw s]
      dsimp only
      by_cases hstop : dirName path = pw.pwDir ∨ dirName path = ascii "/"
      · rw [if_pos hstop, if_pos hstop, Bool.and_eq_true]
        simp
      · rw [if_neg hstop, if_neg hstop, ih, Bool.and_eq_true, and_assoc]

theorem checkpubkeyperms_iff (fs : FileTree) (pw : Passwd) (dir : Bytes) (s : PermLog) :
    (checkpubkeyperms fs pw dir s).1 = true ↔
      ∀ d, IsExamined pw.pwDir (authorizedKeysFilepath dir pw.pwDir) d → Trusted fs pw.pwUid d := by
  rw [checkpubkeyperms, checkpubkeypermsLoop_iff]
  simp only [mem_walked (Nat.le_refl _), true_and]

/-! ### Where the file is -/

/-- The directory is above the place and, if the home directory is as well, not above that. -/
def IsAbove (home : Option RealPath) (place dir : RealPath) : Prop :=
  (dir <+: place ∧ dir ≠ place) ∧ ∀ h, home = some h → h <+: place → h <+: dir

/-- The path leads to a file that can be trusted, and so can every directory above it, up to the
home directory or else the root. -/
def PathTrusted (fs : FileTree) (pw : Passwd) (path : Bytes) : Prop :=
  ∃ place, fs.resolve path = some place ∧ TrustedAt fs pw.pwUid place ∧
    ∀ dir, IsAbove (fs.resolve pw.pwDir) place dir → TrustedAt fs pw.pwUid dir

/-- A name that is examined leads to the place. -/
def IsSeen (fs : FileTree) (pw : Passwd) (path : Bytes) (place : RealPath) : Prop :=
  ∃ d, IsExamined pw.pwDir path d ∧ fs.resolve d = some place

/-- Directories of root, and in `/root/.ssh` a file that belongs to somebody else and that everybody
may write to. -/
def looseKeysFile : FileTree where
  node place :=
    if place = [ascii "root", ascii ".ssh", ascii "authorized_keys"] then some (.file ⟨1000, 0o666⟩)
    else if place.isPrefixOf [ascii "root", ascii ".ssh"] then some (.dir ⟨0, 0o755⟩)
    else none
  cwd := []
  maxLinks := 32

end Ps4Dropbear
