import Mathlib.Data.List.TakeWhile
import Ps4Dropbear.Buffer.Cells
import Ps4Dropbear.Shell.Session

/-!
# Path resolution in its buffer

`ps4_shell_resolve` builds its result in the buffer that it was given: it appends a component, or
backs up over one by looking for the slash before it.  `resolveInto` is that function with the
buffer as an array in which a store outside is an error; `ps4ShellResolve` is what it computes.

* `resolveInto` : `ps4_shell_resolve`, with the buffer.
* `combinedText` : the text that is resolved.
* `ResolveFits` : when there is room for everything that the buffer holds on the way.

**Main result** (`resolveInto_normalises`): the function never stores outside of its buffer; it
succeeds exactly when there is room, and then it leaves the normal form of the combined text, which
it would leave as it is.
-/

namespace Ps4Dropbear

/-- How `ps4_shell_resolve` can fail: by an error of its own, or by a store outside of the
buffer. -/
inductive ResolveError
  | nameTooLong
  | outOfBounds
  deriving DecidableEq, Repr

/-- A store that has to be in the buffer. -/
def inBounds {α : Type} : Option α → Except ResolveError α
  | none => .error .outOfBounds
  | some a => .ok a

/-- The loop that looks for the last slash: `output_len` after it. -/
def backUp (resolved : Bytes) : ℕ → ℕ
  | 0 => 0
  | 1 => 1
  | n + 2 => if resolved[n + 1]? = some 47 then n + 2 else backUp resolved (n + 1)

/-- The slash before a name, unless the buffer holds the root. -/
def appendSlash (resolved : Bytes) (outputLen : ℕ) : Except ResolveError (Bytes × ℕ) :=
  if outputLen > 1 then
    if outputLen + 1 ≥ resolved.length then .error .nameTooLong
    else do
      let resolved ← inBounds (Cells.store resolved outputLen 47)
      return (resolved, outputLen + 1)
  else return (resolved, outputLen)

/-- The bytes of a name and the NUL behind them. -/
def appendName (resolved : Bytes) (outputLen : ℕ) (component : Bytes) :
    Except ResolveError (Bytes × ℕ) :=
  if outputLen + component.length ≥ resolved.length then .error .nameTooLong
  else do
    let resolved ← inBounds (Cells.copy resolved outputLen component)
    let resolved ← inBounds (Cells.store resolved (outputLen + component.length) 0)
    return (resolved, outputLen + component.length)

/-- What the loop of `ps4_shell_resolve` does with a component, on the buffer and `output_len`. -/
def resolveStep (state : Bytes × ℕ) (component : Bytes) : Except ResolveError (Bytes × ℕ) :=
  let (resolved, outputLen) := state
  if component = ascii "." then .ok (resolved, outputLen)
  else if component = ascii ".." then do
    let outputLen := backUp resolved outputLen
    let outputLen := if outputLen > 1 then outputLen - 1 else outputLen
    let resolved ← inBounds (Cells.store resolved outputLen 0)
    return (resolved, outputLen)
  else do
    let (resolved, outputLen) ← appendSlash resolved outputLen
    appendName resolved outputLen component

/-- The loop of `ps4_shell_resolve`, on the part of the combined text that is left.  Every round
consumes a byte, so the length of the text bounds the rounds. -/
def resolveLoop : ℕ → Bytes → Bytes × ℕ → Except ResolveError (Bytes × ℕ)
  | 0, _, state => .ok state
  | fuel + 1, rest, state =>
    match rest.dropWhile (· = 47) with
    | [] => .ok state
    | c :: t => do
      let state ← resolveStep state ((c :: t).takeWhile (· ≠ 47))
      resolveLoop fuel ((c :: t).dropWhile (· ≠ 47)) state

/-- The text that `ps4_shell_resolve` resolves: the working directory stands in for an empty path,
and it is put before a path that is not absolute. -/
def combinedText (cwd path : Bytes) : Bytes :=
  let path := if path = [] then cwd else path
  if path.head? = some 47 then path else cwd ++ ascii "/" ++ path

/-- `ps4_shell_resolve`, into a buffer whose size is `resolved_size`. -/
def resolveInto (cwd path resolved : Bytes) : Except ResolveError Bytes :=
  let combined := combinedText (cstr cwd) (cstr path)
  if combined.length ≥ 2 * ps4ShellPathMax ∨ resolved.length < 2 then .error .nameTooLong
  else do
    let resolved ← inBounds (Cells.store resolved 0 47)
    let resolved ← inBounds (Cells.store resolved 1 0)
    let state ← resolveLoop combined.length combined (resolved, 1)
    return state.1

/-- The text is short enough, and the normal form of everything up to a component is shorter than
the buffer. -/
def ResolveFits (combined : Bytes) (size : ℕ) : Prop :=
  combined.length < 2 * ps4ShellPathMax ∧ 2 ≤ size ∧
    ∀ done, done <+: combined.splitOn 47 → (renderPath (done.foldl enter [])).length < size

/-! ### The components -/

/-- The components of a text, without the empty ones. -/
def pathComponents (text : Bytes) : List Bytes := (text.splitOn 47).filter (· ≠ [])

theorem pathComponents_cons_slash (text : Bytes) :
    pathComponents (47 :: text) = pathComponents text := by
  have hsplit : (47 :: text).splitOn 47 = [] :: text.splitOn 47 :=
    List.splitOn_append_cons_self_of_not_mem List.not_mem_nil text
  rw [pathComponents, hsplit, List.filter_cons_of_neg (by simp), pathComponents]

theorem pathComponents_skip (text : Bytes) :
    pathComponents (text.dropWhile (· = 47)) = pathComponents text := by
  induction text with
  | nil => rfl
  | cons c text ih =>
    by_cases hc : c = 47
    · rw [List.dropWhile_cons_of_pos (by simpa using hc), ih, hc, pathComponents_cons_slash]
    · rw [List.dropWhile_cons_of_neg (by simpa using hc)]

/-- The first component, and those behind it. -/
theorem pathComponents_name {name rest : Bytes} (hname : 47 ∉ name) (hne : name ≠ [])
    (hrest : rest = [] ∨ rest.head? = some 47) :
    pathComponents (name ++ rest) = name :: pathComponents rest := by
  rcases hrest with rfl | hslash
  · rw [List.append_nil, pathComponents, List.splitOn_eq_singleton hname,
      List.filter_cons_of_pos (by simpa using hne)]
    rfl
  · obtain ⟨rest, rfl⟩ := List.head?_eq_some_iff.1 hslash
    rw [pathComponents, List.splitOn_append_cons_self_of_not_mem hname,
      List.filter_cons_of_pos (by simpa using hne), pathComponents_cons_slash, pathComponents]

theorem pathComponents_next {c : UInt8} {t : Bytes} (hc : c ≠ 47) :
    pathComponents (c :: t) = (c :: t).takeWhile (· ≠ 47) ::
      pathComponents ((c :: t).dropWhile (· ≠ 47)) := by
  have hname : 47 ∉ (c :: t).takeWhile (· ≠ 47) := fun h => by
    simpa using List.mem_takeWhile_imp h
  have hne : (c :: t).takeWhile (· ≠ 47) ≠ [] := by simp [hc]
  have hrest : (c :: t).dropWhile (· ≠ 47) = [] ∨
      ((c :: t).dropWhile (· ≠ 47)).head? = some 47 := by
    rcases dropWhile_stops (· ≠ 47) (c :: t) with h | ⟨d, u, h, hd⟩
    · exact .inl h
    · rw [h]
      exact .inr (by simpa using hd)
  rw [← pathComponents_name hname hne hrest, List.takeWhile_append_dropWhile]

/-- The loop goes through the components. -/
theorem resolveLoop_eq {fuel : ℕ} {rest : Bytes} (hfuel : rest.length ≤ fuel)
    (state : Bytes × ℕ) :
    resolveLoop fuel rest state = (pathComponents rest).foldlM resolveStep state := by
  induction fuel generalizing rest state with
  | zero =>
    rw [List.length_eq_zero_iff.1 (Nat.le_zero.1 hfuel)]
    rfl
  | succ fuel ih =>
    rw [resolveLoop, ← pathComponents_skip rest]
    have hskip : (rest.dropWhile (· = 47)).length ≤ rest.length :=
      (List.dropWhile_suffix _).length_le
    rcases dropWhile_stops (· = 47) rest with hnext | ⟨c, t, hnext, hstop⟩
    · rw [hnext]
      rfl
    · have hc : c ≠ 47 := by simpa using hstop
      have hlen : ((c :: t).dropWhile (· ≠ 47)).length ≤ fuel := by
        have htail := (List.dropWhile_suffix (l := t) (· ≠ (47 : UInt8))).length_le
        rw [List.dropWhile_cons_of_pos (by simpa using hc)]
        rw [hnext, List.length_cons] at hskip
        omega
      rw [hnext, pathComponents_next hc, List.foldlM_cons]
      exact bind_congr fun state' => ih hlen state'

/-! ### The buffer -/

section Refines

variable {resolved r c : Bytes} {size : ℕ}

/-- What the function leaves in a buffer of this size, next to what it should compute: a path that
is absolute, with a NUL behind it. -/
def Computes (size : ℕ) (result : Except ResolveError (Bytes × ℕ)) : Option Bytes → Prop
  | none => result = .error .nameTooLong
  | some r => r.head? = some 47 ∧
      ∃ resolved, result = .ok (resolved, r.length) ∧ resolved.length = size ∧
        r ++ [0] <+: resolved

/-- The same without `output_len`. -/
def Leaves (size : ℕ) (result : Except ResolveError Bytes) : Option Bytes → Prop
  | none => result = .error .nameTooLong
  | some r => ∃ resolved, result = .ok resolved ∧ resolved.length = size ∧ r ++ [0] <+: resolved

theorem parentPath_prefix (path : Bytes) : parentPath path <+: path := by
  have hdrop := List.dropWhile_suffix (l := path.reverse) (· ≠ 47)
  unfold parentPath
  dsimp only
  rw [← List.reverse_suffix, List.reverse_reverse]
  split
  · exact (List.tail_suffix _).trans hdrop
  · exact hdrop

/-- Backing up stops where the last component starts. -/
theorem backUp_eq (hr : r <+: resolved) (hroot : r.head? = some 47) :
    backUp resolved r.length = (r.reverse.dropWhile (· ≠ 47)).length := by
  induction r using List.reverseRecOn with
  | nil => cases hroot
  | append_singleton init c ih =>
    rw [List.length_append, List.length_singleton, List.reverse_append, List.reverse_singleton,
      List.singleton_append]
    rcases hinit : init with _ | ⟨d, t⟩
    · rw [hinit, List.nil_append, List.head?_cons, Option.some.injEq] at hroot
      rw [hroot]
      rfl
    · have hlast : resolved[t.length + 1]? = some c := by
        obtain ⟨rest, rfl⟩ := hr
        simp [hinit]
      rw [List.length_cons, backUp, hlast]
      by_cases hc : c = 47
      · rw [if_pos (congrArg some hc), List.dropWhile_cons_of_neg (by simpa using hc)]
        simp
      · rw [if_neg fun h => hc (Option.some.inj h), List.dropWhile_cons_of_pos (by simpa using hc),
          ← hinit, ← ih ((List.prefix_append _ _).trans hr) (by simpa [hinit] using hroot), hinit,
          List.length_cons]

/-- The length after backing up. -/
theorem length_parentPath (hr : r <+: resolved) (hroot : r.head? = some 47) :
    (if backUp resolved r.length > 1 then backUp resolved r.length - 1
      else backUp resolved r.length) = (parentPath r).length := by
  rw [backUp_eq hr hroot, parentPath]
  split
  · rw [List.length_reverse, List.length_tail]
  · rw [List.length_reverse]

theorem head_parentPath (hroot : r.head? = some 47) : (parentPath r).head? = some 47 := by
  have hne : parentPath r ≠ [] := by
    obtain ⟨t, rfl⟩ := List.head?_eq_some_iff.1 hroot
    intro hempty
    have hslash : (47 :: t).reverse.dropWhile (· ≠ 47) ≠ [] := by
      rw [ne_eq, List.dropWhile_eq_nil_iff]
      intro hall
      simpa using hall 47 (by simp)
    have hpos := List.length_pos_of_ne_nil hslash
    unfold parentPath at hempty
    dsimp only at hempty
    rw [List.reverse_eq_nil_iff] at hempty
    split at hempty
    · have htail := congrArg List.length hempty
      rw [List.length_tail, List.length_nil] at htail
      omega
    · exact hslash hempty
  obtain ⟨rest, hrest⟩ := parentPath_prefix r
  rw [← hrest, List.head?_append_of_ne_nil _ hne] at hroot
  exact hroot

theorem computes_name (hr : r <+: resolved) (hroot : r.head? = some 47) (c : Bytes) :
    Computes resolved.length (appendName resolved r.length c)
      (if r.length + c.length ≥ resolved.length then none else some (r ++ c)) := by
  unfold appendName
  split
  · rfl
  · next hroom =>
    obtain ⟨cells₁, hcopy, hlen₁, hfront₁⟩ := Cells.copy_front hr (Nat.le_of_not_le hroom)
    obtain ⟨cells₂, hstore, hlen₂, hfront₂⟩ := Cells.store_front (a := 0) hfront₁ (by
      rw [List.length_append, hlen₁]
      omega)
    refine ⟨?_, cells₂, ?_, hlen₂.trans hlen₁, hfront₂⟩
    · rw [List.head?_append_of_ne_nil _ (by rintro rfl; cases hroot), hroot]
    · rw [List.length_append] at hstore ⊢
      rw [hcopy]
      change (do
        let resolved ← inBounds (Cells.store cells₁ (r.length + c.length) 0)
        return (resolved, r.length + c.length)) = _
      rw [hstore]
      rfl

/-- **One component** in the buffer. -/
theorem computes_step (hr : r ++ [0] <+: resolved) (hroot : r.head? = some 47) (c : Bytes) :
    Computes resolved.length (resolveStep (resolved, r.length) c)
      (resolveComponent resolved.length r c) := by
  have hpath : r <+: resolved := (List.prefix_append _ _).trans hr
  have hroom : r.length < resolved.length := by
    have hlen := hr.length_le
    rw [List.length_append, List.length_singleton] at hlen
    omega
  unfold resolveStep resolveComponent
  dsimp only
  by_cases hdot : c = ascii "."
  · rw [if_pos hdot, if_pos hdot]
    exact ⟨hroot, resolved, rfl, rfl, hr⟩
  rw [if_neg hdot, if_neg hdot]
  by_cases hup : c = ascii ".."
  · rw [if_pos hup, if_pos hup, length_parentPath hpath hroot]
    have hparent := parentPath_prefix r
    obtain ⟨cells, hstore, hlen, hfront⟩ := Cells.store_front (a := 0) (hparent.trans hpath)
      (lt_of_le_of_lt hparent.length_le hroom)
    refine ⟨head_parentPath hroot, cells, ?_, hlen, hfront⟩
    rw [hstore]
    rfl
  rw [if_neg hup, if_neg hup]
  unfold appendSlash
  by_cases hslash : r.length > 1
  · rw [if_pos hslash]
    by_cases hlong : r.length + 1 ≥ resolved.length
    · rw [if_pos hlong, if_pos ⟨hslash, hlong⟩]
      rfl
    · rw [if_neg hlong, if_neg fun h => hlong h.2, if_pos hslash]
      obtain ⟨cells, hstore, hlen, hfront⟩ := Cells.store_front (a := 47) hpath hroom
      rw [hstore, ← hlen, show ascii "/" = [47] by decide]
      have hname := computes_name hfront (by
        rw [List.head?_append_of_ne_nil _ (by rintro rfl; cases hroot), hroot]) c
      rw [show r.length + 1 = (r ++ [47]).length by simp]
      exact hname
  · rw [if_neg hslash, if_neg fun h => hslash h.1, if_neg hslash]
    exact computes_name hpath hroot c

/-- All the components in the buffer. -/
theorem computes_foldlM {comps : List Bytes} (hsize : resolved.length = size)
    (hr : r ++ [0] <+: resolved) (hroot : r.head? = some 47) :
    Computes size (comps.foldlM resolveStep (resolved, r.length))
      (comps.foldlM (resolveComponent size) r) := by
  induction comps generalizing resolved r with
  | nil => exact ⟨hroot, resolved, rfl, hsize, hr⟩
  | cons c comps ih =>
    have hstep := computes_step hr hroot c
    rw [hsize] at hstep
    rw [List.foldlM_cons, List.foldlM_cons]
    rcases hnext : resolveComponent size r c with _ | r'
    · rw [hnext] at hstep
      rw [show resolveStep (resolved, r.length) c = .error .nameTooLong from hstep]
      rfl
    · rw [hnext] at hstep
      obtain ⟨hroot', resolved', hres, hlen, hr'⟩ := hstep
      rw [hres]
      exact ih hlen hr' hroot'

theorem Computes.map_fst {result : Except ResolveError (Bytes × ℕ)} {spec : Option Bytes}
    (h : Computes size result spec) : Leaves size (result.map Prod.fst) spec := by
  cases spec with
  | none =>
    have herror : result = .error .nameTooLong := h
    rw [herror]
    rfl
  | some r =>
    obtain ⟨-, resolved, rfl, hlen, hr⟩ := h
    exact ⟨resolved, rfl, hlen, hr⟩

/-- **The buffer holds what `ps4ShellResolve` computes.** -/
theorem resolveInto_eq (cwd path resolved : Bytes) :
    Leaves resolved.length (resolveInto cwd path resolved)
      (ps4ShellResolve (cstr cwd) (cstr path) resolved.length) := by
  by_cases hlong : (combinedText (cstr cwd) (cstr path)).length ≥ 2 * ps4ShellPathMax ∨
      resolved.length < 2
  · rw [show ps4ShellResolve (cstr cwd) (cstr path) resolved.length = none from if_pos hlong]
    exact if_pos hlong
  have hsize : 2 ≤ resolved.length := Nat.le_of_not_lt (not_or.1 hlong).2
  obtain ⟨cells₁, hstore₁, hlen₁, hfront₁⟩ :=
    Cells.store_front (a := (47 : UInt8)) (List.nil_prefix (l := resolved)) (by
      rw [List.length_nil]
      omega)
  obtain ⟨cells₂, hstore₂, hlen₂, hfront₂⟩ := Cells.store_front (a := (0 : UInt8)) hfront₁ (by
    rw [hlen₁]
    exact hsize)
  -- behind the first two stores the loop runs on a buffer that holds the root
  have hrun : resolveInto cwd path resolved = (resolveLoop
      (combinedText (cstr cwd) (cstr path)).length (combinedText (cstr cwd) (cstr path))
      (cells₂, 1)).map Prod.fst := by
    unfold resolveInto
    dsimp only
    rw [if_neg hlong, show Cells.store resolved 0 47 = some cells₁ from hstore₁]
    change (inBounds (Cells.store cells₁ 1 0)).bind _ = _
    rw [show Cells.store cells₁ 1 0 = some cells₂ from hstore₂]
    rfl
  have hloop : Computes resolved.length (resolveLoop (combinedText (cstr cwd) (cstr path)).length
      (combinedText (cstr cwd) (cstr path)) (cells₂, 1))
      ((pathComponents (combinedText (cstr cwd) (cstr path))).foldlM
        (resolveComponent resolved.length) (ascii "/")) := by
    rw [resolveLoop_eq le_rfl]
    exact computes_foldlM (hlen₂.trans hlen₁) hfront₂ rfl
  rw [show ps4ShellResolve (cstr cwd) (cstr path) resolved.length = _ from if_neg hlong, hrun]
  exact hloop.map_fst

end Refines

/-! ### Normal forms -/

section Normal

variable {cwd path r : Bytes} {size : ℕ}

/-- **When a path resolves**, and to what. -/
theorem ps4ShellResolve_iff : ps4ShellResolve cwd path size = some r ↔
    ResolveFits (combinedText cwd path) size ∧ normalForm (combinedText cwd path) = r := by
  have hroot : ∀ n ∈ ([] : List Bytes), IsPathName n := nofun
  unfold ps4ShellResolve
  dsimp only
  rw [← combinedText]
  generalize combinedText cwd path = combined
  constructor
  · intro h
    obtain ⟨hsize, h⟩ := Option.ite_none_left_eq_some.1 h
    obtain ⟨hlong, htwo⟩ := not_or.1 hsize
    have hroom : (renderPath []).length < size := Nat.le_of_not_lt htwo
    obtain ⟨hfits, hr⟩ :=
      (foldlM_resolveComponent (fun _ => not_mem_of_mem_splitOn) hroot hroom).1 h
    exact ⟨⟨Nat.lt_of_not_le hlong, hroom, hfits⟩, hr⟩
  · rintro ⟨⟨hlong, htwo, hfits⟩, hr⟩
    rw [if_neg (not_or.2 ⟨Nat.not_le.2 hlong, Nat.not_lt.2 htwo⟩)]
    exact (foldlM_resolveComponent (fun _ => not_mem_of_mem_splitOn) hroot htwo).2 ⟨hfits, hr⟩

/-- A path in normal form resolves to itself. -/
theorem ps4ShellResolve_normal (hr : IsNormalPath r) (hlong : r.length < 2 * ps4ShellPathMax)
    (hsize : r.length < size) : ps4ShellResolve cwd r size = some r := by
  have habs := hr.head
  have hcombined : combinedText cwd r = r := by
    have hne : r ≠ [] := by
      rintro rfl
      cases habs
    unfold combinedText
    dsimp only
    rw [if_neg hne, if_pos habs]
  obtain ⟨names, hnames, rfl⟩ := isNormalPath_iff.1 hr
  refine ps4ShellResolve_iff.2 ⟨?_, ?_⟩
  · rw [hcombined]
    refine ⟨hlong, ?_, fun done hdone => lt_of_le_of_lt (length_done_le hnames hdone) hsize⟩
    have hone := length_renderPath_of_prefix (List.nil_prefix (l := names))
    exact lt_of_le_of_lt hone hsize
  · rw [hcombined]
    exact hr

theorem not_mem_combinedText (cwd path : Bytes) : 0 ∉ combinedText (cstr cwd) (cstr path) := by
  have hslash : (0 : UInt8) ∉ ascii "/" := by decide
  have hcwd := not_mem_cstr cwd
  have hpath : 0 ∉ if cstr path = [] then cstr cwd else cstr path := by
    split
    · exact hcwd
    · exact not_mem_cstr path
  unfold combinedText
  dsimp only
  generalize (if cstr path = [] then cstr cwd else cstr path) = path' at hpath ⊢
  split
  · exact hpath
  · simp only [List.mem_append, not_or]
    exact ⟨⟨hcwd, hslash⟩, hpath⟩

end Normal

/-- **Path resolution is component normalisation.**  The result is a path in normal form, so
resolving it again gives the same, from any directory, if it is short enough to be resolved. -/
theorem resolveInto_normalises (cwd path resolved : Bytes) :
    (ResolveFits (combinedText (cstr cwd) (cstr path)) resolved.length →
      ∃ resolved', resolveInto cwd path resolved = .ok resolved' ∧
        resolved'.length = resolved.length ∧
        cstr resolved' = normalForm (combinedText (cstr cwd) (cstr path)) ∧
        (∃ names, (∀ n ∈ names, IsPathName n) ∧ cstr resolved' = renderPath names) ∧
        ((combinedText (cstr cwd) (cstr path)).head? = some 47 ∨
            (cstr resolved').length < 2 * ps4ShellPathMax →
          ∀ cwd' again, again.length = resolved.length →
            ∃ again', resolveInto cwd' resolved' again = .ok again' ∧
              cstr again' = cstr resolved')) ∧
    (¬ ResolveFits (combinedText (cstr cwd) (cstr path)) resolved.length →
      resolveInto cwd path resolved = .error .nameTooLong) := by
  have hcomputes := resolveInto_eq cwd path resolved
  refine ⟨fun hfits => ?_, fun hfits => ?_⟩
  · have hnormal : IsNormalPath (normalForm (combinedText (cstr cwd) (cstr path))) :=
      isNormalPath_renderPath isPathName_of_mem_pathNames
    have hnul := not_mem_normalForm (not_mem_combinedText cwd path)
    have hsize : (normalForm (combinedText (cstr cwd) (cstr path))).length < resolved.length :=
      hfits.2.2 _ (List.prefix_refl _)
    rw [ps4ShellResolve_iff.2 ⟨hfits, rfl⟩] at hcomputes
    obtain ⟨resolved', hres, hlen, hprefixed⟩ := hcomputes
    have hcstr := cstr_of_isPrefixed hprefixed hnul
    refine ⟨resolved', hres, hlen, hcstr, ⟨_, isPathName_of_mem_pathNames, hcstr⟩, ?_⟩
    intro hshort cwd' again hagain
    have hlong : (cstr resolved').length < 2 * ps4ShellPathMax := by
      rcases hshort with habs | hshort
      · rw [hcstr]
        exact lt_of_le_of_lt (length_normalForm_le habs) hfits.1
      · exact hshort
    have hsecond := resolveInto_eq cwd' resolved' again
    rw [hcstr] at hlong
    rw [hcstr, hagain, ps4ShellResolve_normal hnormal hlong hsize] at hsecond
    obtain ⟨again', hres', -, hprefixed'⟩ := hsecond
    exact ⟨again', hres', (cstr_of_isPrefixed hprefixed' hnul).trans hcstr.symm⟩
  · rcases hspec : ps4ShellResolve (cstr cwd) (cstr path) resolved.length with _ | r
    · rw [hspec] at hcomputes
      exact hcomputes
    · exact absurd (ps4ShellResolve_iff.1 hspec).1 hfits

/-- With a working directory that is not absolute, the empty path does not lead there. -/
theorem resolveInto_relative_empty :
    ResolveFits (ascii "a") 16 ∧ ¬ ∃ resolved',
      resolveInto (ascii "a") [] (List.replicate 16 0) = .ok resolved' ∧
        cstr resolved' = normalForm (ascii "a") := by
  constructor
  · refine ⟨by decide, by decide, fun done hdone => ?_⟩
    rw [show (ascii "a").splitOn 47 = [ascii "a"] by decide] at hdone
    rcases List.prefix_cons_iff.1 hdone with rfl | ⟨done', rfl, hdone'⟩
    · decide
    · rw [List.prefix_nil.1 hdone']
      decide
  · rintro ⟨resolved', hres, hcstr⟩
    have hrun : (resolveInto (ascii "a") [] (List.replicate 16 0)).toOption.map cstr =
        some (ascii "/a/a") := by decide
    rw [hres, toOption_ok, Option.map_some, hcstr] at hrun
    exact absurd hrun (by decide)

end Ps4Dropbear
