import Ps4Dropbear.Prog.Safety
import Ps4Dropbear.Shell.Execute
import Ps4Dropbear.Text.Paths

/-!
# The state of a shell over a session

`ps4_shell_resolve` computes normal forms, and `cd` is the only command that writes to the state of
the shell.  A session runs one command line after the other; the system may answer every call of
every command in any way, and the writer may fail at any time.

* `ps4ShellResolve_eq` : a path that resolves is the normal form, and fits.
* `ShellStep`, `ShellSession` : one command, and any number of them.

**Main result** (`shellSession_invariant`): in a session that starts in an absolute, normalised home
directory the home directory stays, the working directory is absolute, in normal form and not cut
off, and only a `cd` that returns `0` writes to it, after `stat` has found a directory at exactly
the path that is written.
-/

namespace Ps4Dropbear

/-! ### Resolving a path -/

section Resolve

variable {names : List Bytes} {c r : Bytes} {size : ℕ}

theorem renderPath_append (names : List Bytes) (c : Bytes) :
    renderPath (names ++ [c]) = names.flatMap (47 :: ·) ++ 47 :: c := by
  simp [renderPath]

theorem one_lt_length_renderPath (hnames : ∀ n ∈ names, IsPathName n) :
    1 < (renderPath names).length ↔ names ≠ [] := by
  cases names with
  | nil => simp [renderPath, ascii]
  | cons n names =>
    have hn : n ≠ [] := (hnames n List.mem_cons_self).1
    have hlen := List.length_pos_of_ne_nil hn
    simp only [renderPath, reduceCtorEq, if_false, List.flatMap_cons, List.length_append,
      List.length_cons]
    simp
    omega

/-- The path without its last component is the path without its last name. -/
theorem parentPath_renderPath (hnames : ∀ n ∈ names, IsPathName n) :
    parentPath (renderPath names) = renderPath names.dropLast := by
  rcases List.eq_nil_or_concat names with rfl | ⟨init, c, rfl⟩
  · decide
  · rw [List.concat_eq_append] at hnames ⊢
    have hc : 47 ∉ c := (hnames c (by simp)).2.1
    -- backwards, the bytes of the last name come before its slash
    have hdrop : (renderPath (init ++ [c])).reverse.dropWhile (· ≠ 47) =
        47 :: (init.flatMap (47 :: ·)).reverse := by
      rw [renderPath_append, List.reverse_append, List.reverse_cons, List.append_assoc,
        List.dropWhile_append_of_pos]
      · simp
      · intro x hx
        simp only [ne_eq, decide_not, Bool.not_eq_eq_eq_not, Bool.not_true, decide_eq_false_iff_not]
        rintro rfl
        exact hc (List.mem_reverse.1 hx)
    rw [parentPath, hdrop, List.dropLast_concat]
    cases init with
    | nil => decide
    | cons n init => simp [renderPath]

theorem length_parentPath_le (path : Bytes) : (parentPath path).length ≤ path.length := by
  have hdrop : (path.reverse.dropWhile (· ≠ 47)).length ≤ path.length := by
    have hsuffix := List.dropWhile_suffix (l := path.reverse) (· ≠ 47)
    simpa using hsuffix.length_le
  unfold parentPath
  dsimp only
  rw [List.length_reverse]
  split
  · rw [List.length_tail]
    omega
  · exact hdrop

/-- One component leads where it should, if there is room for it. -/
theorem resolveComponent_eq (hnames : ∀ n ∈ names, IsPathName n) (hc : c ≠ [])
    (hfit : (renderPath names).length < size) :
    resolveComponent size (renderPath names) c =
      if (renderPath (enter names c)).length < size then some (renderPath (enter names c))
      else none := by
  unfold resolveComponent
  by_cases hdot : c = ascii "."
  · have henter : enter names c = names := if_pos (.inr hdot)
    rw [if_pos hdot, henter, if_pos hfit]
  rw [if_neg hdot]
  have hstay : ¬ (c = [] ∨ c = ascii ".") := not_or.2 ⟨hc, hdot⟩
  by_cases hup : c = ascii ".."
  · have henter : enter names c = names.dropLast := (if_neg hstay).trans (if_pos hup)
    have hshort := length_parentPath_le (renderPath names)
    rw [parentPath_renderPath hnames] at hshort
    rw [if_pos hup, henter, parentPath_renderPath hnames, if_pos (lt_of_le_of_lt hshort hfit)]
  have henter : enter names c = names ++ [c] := (if_neg hstay).trans (if_neg hup)
  rw [if_neg hup, henter]
  have hout : (if (renderPath names).length > 1 then renderPath names ++ ascii "/"
      else renderPath names) ++ c = renderPath (names ++ [c]) := by
    rw [renderPath_append]
    by_cases hroot : names = []
    · subst hroot
      rfl
    · rw [if_pos ((one_lt_length_renderPath hnames).2 hroot), renderPath, if_neg hroot]
      simp [ascii]
  dsimp only
  rw [← hout]
  by_cases hlong : (renderPath names).length > 1 ∧ (renderPath names).length + 1 ≥ size
  · rw [if_pos hlong, if_pos hlong.1, if_neg]
    rw [List.length_append, List.length_append, show (ascii "/").length = 1 by decide]
    omega
  · rw [if_neg hlong, ← List.length_append, hout]
    split
    · next hbig => rw [if_neg (Nat.not_lt.2 hbig)]
    · next hsmall => rw [if_pos (Nat.lt_of_not_le hsmall)]

/-- All the components, one after the other: the empty ones are left out, and there has to be room
for everything on the way. -/
theorem foldlM_resolveComponent {comps : List Bytes} (hcomps : ∀ c ∈ comps, 47 ∉ c)
    (hnames : ∀ n ∈ names, IsPathName n) (hfit : (renderPath names).length < size) :
    (comps.filter (· ≠ [])).foldlM (resolveComponent size) (renderPath names) = some r ↔
      (∀ done, done <+: comps → (renderPath (done.foldl enter names)).length < size) ∧
        renderPath (comps.foldl enter names) = r := by
  induction comps generalizing names with
  | nil =>
    simp only [List.filter_nil, List.foldlM_nil, List.prefix_nil, forall_eq, List.foldl_nil]
    exact ⟨fun h => ⟨hfit, Option.some.inj h⟩, fun h => congrArg some h.2⟩
  | cons c comps ih =>
    obtain ⟨hslash, hrest⟩ := List.forall_mem_cons.1 hcomps
    have hprefixes : (∀ done, done <+: c :: comps →
        (renderPath (done.foldl enter names)).length < size) ↔
        ∀ done, done <+: comps →
          (renderPath (done.foldl enter (enter names c))).length < size := by
      constructor
      · intro h done hdone
        exact h (c :: done) (List.prefix_cons_inj c |>.2 hdone)
      · intro h done hdone
        rcases List.prefix_cons_iff.1 hdone with rfl | ⟨done', rfl, hdone'⟩
        · exact hfit
        · exact h done' hdone'
    rw [hprefixes, List.foldl_cons]
    by_cases hc : c = []
    · subst hc
      rw [List.filter_cons_of_neg (by simp), enter_nil]
      exact ih hrest hnames hfit
    · rw [List.filter_cons_of_pos (by simpa using hc), List.foldlM_cons,
        resolveComponent_eq hnames hc hfit]
      by_cases hroom : (renderPath (enter names c)).length < size
      · rw [if_pos hroom]
        exact ih hrest (isPathName_of_mem_enter hnames hslash) hroom
      · rw [if_neg hroom]
        constructor
        · exact nofun
        · rintro ⟨h, -⟩
          exact absurd (h [] List.nil_prefix) hroom

/-- A path that resolves is the normal form of the path that the two together make, and it fits the
buffer. -/
theorem ps4ShellResolve_combined {cwd path : Bytes} (h : ps4ShellResolve cwd path size = some r) :
    let path := if path = [] then cwd else path
    r = normalForm (if path.head? = some 47 then path else cwd ++ ascii "/" ++ path) ∧
      r.length < size := by
  unfold ps4ShellResolve at h
  obtain ⟨hsize, h⟩ := Option.ite_none_left_eq_some.1 h
  have hroom : (renderPath []).length < size := Nat.le_of_not_lt (not_or.1 hsize).2
  have hroot : ∀ n ∈ ([] : List Bytes), IsPathName n := nofun
  obtain ⟨hfits, rfl⟩ :=
    (foldlM_resolveComponent (fun _ => not_mem_of_mem_splitOn) hroot hroom).1 h
  exact ⟨rfl, hfits _ (List.prefix_refl _)⟩

/-- **A path that resolves** against an absolute directory is the normal form, and it fits the
buffer. -/
theorem ps4ShellResolve_eq {cwd path : Bytes} (hcwd : cwd.head? = some 47)
    (h : ps4ShellResolve cwd path size = some r) :
    r = normalFrom cwd path ∧ r.length < size := by
  obtain ⟨rfl, hlen⟩ := ps4ShellResolve_combined h
  refine ⟨?_, hlen⟩
  by_cases hempty : path = []
  · subst hempty
    rw [if_pos rfl, if_pos hcwd, normalFrom_nil]
  rw [if_neg hempty]
  by_cases habs : path.head? = some 47
  · rw [if_pos habs, normalFrom_of_absolute habs]
  · rw [if_neg habs, normalFrom_of_relative habs]
    simp [ascii]

end Resolve

/-! ### One command -/

/-- A call of a command, with what was answered. -/
abbrev ShellAnswer : Type := (c : WriterCall UInt8 ShellCall) × c.Answer ShellCall.Answer

/-- A command line and how it went: `errno` before it, the calls with their answers, and the status
that was returned. -/
structure ShellEvent where
  line : Bytes
  errno : Errno
  history : List ShellAnswer
  status : ℤ

/-- The command line of the event takes the shell from `state` to `state'`. -/
def ShellStep (L : Libc) (state : ShellState) (e : ShellEvent) (state' : ShellState) : Prop :=
  Prog.Steps (ShellProg.ps4ShellExecute L e.errno state e.line) e.history
    (.ret (e.status, state'))

/-- The line is a `cd` with the argument `name`, which is `home` when there is none. -/
def IsCd (home line name : Bytes) : Prop :=
  splitCommand line = some [ascii "cd", name] ∨
    splitCommand line = some [ascii "cd"] ∧ name = home

/-- What a `cd` does that returns `0`: the new working directory is the normal form of the
argument, which fits the buffer, `stat` has reported a directory there, and nothing else
changes. -/
def ChangesTo (state : ShellState) (name : Bytes) (e : ShellEvent) (state' : ShellState) : Prop :=
  state' = { state with cwd := normalFrom state.cwd name } ∧
    (normalFrom state.cwd name).length < ps4ShellPathMax ∧
    ∃ st : StatBuf, ⟨.loc (.stat (normalFrom state.cwd name)), .ok st⟩ ∈ e.history ∧ st.isDir

namespace ShellProg

variable {L : Libc} {state : ShellState} {h : List ShellAnswer}

theorem steps_keep {p : ShellProg ℤ} {x : ℤ × ShellState}
    (hs : Prog.Steps (p.bind fun status => .ret (status, state)) h (.ret x)) :
    Prog.Steps p h (.ret x.1) ∧ x.2 = state := by
  obtain ⟨a, h₁, h₂, rfl, hp, hret⟩ := Prog.steps_bind_ret hs
  obtain ⟨rfl, hx⟩ := Prog.steps_ret.1 hret
  cases hx
  rw [List.append_nil]
  exact ⟨hp, rfl⟩

/-- An error is never the status `0`. -/
theorem status_shellError {command path : Bytes} {error : Errno} {status : ℤ}
    (hs : Prog.Steps (shellError L command path error) h (.ret status)) : status ≠ 0 := by
  unfold shellError at hs
  dsimp only [Prog.bind_eq_bind, Prog.pure_eq_ret] at hs
  obtain ⟨a, h₁, h₂, -, -, hret⟩ := Prog.steps_bind_ret hs
  split at hret <;> cases hret <;> decide

/-- `cd` fails and leaves the state as it is, or it succeeds. -/
theorem changeDirectory_cases {name : Bytes} {e : ShellEvent} {state' : ShellState}
    (hcwd : state.cwd.head? = some 47)
    (hs : Prog.Steps (changeDirectory L state name) e.history (.ret (e.status, state'))) :
    e.status ≠ 0 ∧ state' = state ∨ e.status = 0 ∧ ChangesTo state name e state' := by
  have hfail {p : ShellProg ℤ} (h : List ShellAnswer)
      (hp : ∀ status, Prog.Steps p h (.ret status) → status ≠ 0)
      (hs : Prog.Steps (p.bind fun status => .ret (status, state)) h (.ret (e.status, state'))) :
      e.status ≠ 0 ∧ state' = state ∨ e.status = 0 ∧ ChangesTo state name e state' := by
    obtain ⟨hp', hstate⟩ := steps_keep hs
    exact .inl ⟨hp _ hp', hstate⟩
  unfold changeDirectory at hs
  split at hs
  · exact hfail _ (fun _ => status_shellError) hs
  · next first hres =>
    obtain ⟨rfl, hlen⟩ := ps4ShellResolve_eq hcwd hres
    dsimp only [sys, WriterProg.loc, Prog.bind_eq_bind, Prog.perform_bind] at hs
    obtain ⟨r, h', hhist, hk⟩ := Prog.steps_call_ret hs
    cases r with
    | error err => exact hfail _ (fun _ => status_shellError) hk
    | ok st =>
      dsimp only at hk
      split at hk
      · next hdir =>
        obtain ⟨-, hx⟩ := Prog.steps_ret.1 hk
        obtain ⟨hstatus, rfl⟩ := Prod.mk.inj (Prog.ret.inj hx)
        refine .inr ⟨hstatus, ?_, hlen, st, ?_, hdir⟩
        · -- the path fits, so the copy is not cut off
          rw [List.take_of_length_le (by unfold ps4ShellPathMax at hlen ⊢; omega)]
        · rw [hhist]
          exact List.mem_cons_self
      · exact hfail _ (fun _ => status_shellError) hk

end ShellProg

/-- The command line is a `cd` that returns `0`, or the state stays. -/
theorem ShellStep.cases {L : Libc} {state state' : ShellState} {e : ShellEvent}
    (hcwd : state.cwd.head? = some 47) (hs : ShellStep L state e state') :
    (∃ name, IsCd state.home e.line name ∧
        (e.status ≠ 0 ∧ state' = state ∨ e.status = 0 ∧ ChangesTo state name e state')) ∨
      (∀ name, ¬ IsCd state.home e.line name) ∧ state' = state := by
  have hsplit := toOption_splitCommandErrno e.line
  unfold ShellStep ShellProg.ps4ShellExecute at hs
  split at hs
  · next err herr =>
    rw [herr, toOption_error] at hsplit
    refine .inr ⟨fun name => ?_, (ShellProg.steps_keep hs).2⟩
    simp [IsCd, ← hsplit]
  · next hnil =>
    rw [hnil, toOption_ok] at hsplit
    obtain ⟨-, hx⟩ := Prog.steps_ret.1 hs
    obtain ⟨-, rfl⟩ := Prod.mk.inj (Prog.ret.inj hx)
    refine .inr ⟨fun name => ?_, rfl⟩
    simp [IsCd, ← hsplit]
  · next name args hargs =>
    rw [hargs, toOption_ok] at hsplit
    by_cases hcd : name = ascii "cd" ∧ args.length ≤ 1
    · rw [if_pos hcd] at hs
      obtain ⟨rfl, hlen⟩ := hcd
      refine .inl ⟨args.headD state.home, ?_, ShellProg.changeDirectory_cases hcwd hs⟩
      -- no argument, or one
      match args, hlen with
      | [], _ => exact .inr ⟨hsplit.symm, rfl⟩
      | [arg], _ => exact .inl hsplit.symm
    · rw [if_neg hcd] at hs
      refine .inr ⟨?_, (ShellProg.steps_keep hs).2⟩
      rintro name' (hline | ⟨hline, -⟩) <;>
      · rw [← hsplit] at hline
        cases hline
        exact hcd ⟨rfl, by simp⟩

/-! ### Sessions -/

/-- Any number of command lines, one after the other. -/
inductive ShellSession (L : Libc) (state : ShellState) : List ShellEvent → ShellState → Prop
  | start : ShellSession L state [] state
  | step {es : List ShellEvent} {s s' : ShellState} {e : ShellEvent}
      (hs : ShellSession L state es s) (he : ShellStep L s e s') :
      ShellSession L state (es ++ [e]) s'

/-- The home directory is `home`, and the working directory is absolute, in normal form and fits
its buffer. -/
structure ShellInv (home : Bytes) (s : ShellState) : Prop where
  home_eq : s.home = home
  normal : IsNormalPath s.cwd
  fits : s.cwd.length < ps4ShellPathMax

theorem ShellInv.init {home : Bytes} (hnormal : IsNormalPath home)
    (hlen : home.length < ps4ShellPathMax) : ShellInv home (ps4ShellInit home) := by
  have hne : home ≠ [] := by
    rintro rfl
    exact absurd hnormal.head (by decide)
  have htake : home.take (ps4ShellPathMax - 1) = home :=
    List.take_of_length_le (by unfold ps4ShellPathMax at hlen ⊢; omega)
  have hinit : ps4ShellInit home = ⟨home, home⟩ := by
    rw [ps4ShellInit, if_neg hne, htake]
  rw [hinit]
  exact ⟨rfl, hnormal, hlen⟩

theorem ShellInv.step {L : Libc} {home : Bytes} {s s' : ShellState} {e : ShellEvent}
    (hinv : ShellInv home s) (hs : ShellStep L s e s') : ShellInv home s' := by
  rcases hs.cases hinv.normal.head with ⟨name, -, ⟨-, rfl⟩ | ⟨-, hchange⟩⟩ | ⟨-, rfl⟩
  · exact hinv
  · obtain ⟨rfl, hlen, -⟩ := hchange
    exact ⟨hinv.home_eq, isNormalPath_normalFrom _ _, hlen⟩
  · exact hinv

theorem ShellInv.session {L : Libc} {home : Bytes} {state s : ShellState} {es : List ShellEvent}
    (hinv : ShellInv home state) (hs : ShellSession L state es s) : ShellInv home s := by
  induction hs with
  | start => exact hinv
  | step _ he ih => exact ih.step he

/-- The argument of a `cd` is determined by its line. -/
theorem IsCd.unique {home line name name' : Bytes} (h : IsCd home line name)
    (h' : IsCd home line name') : name = name' := by
  rcases h with h | ⟨h, rfl⟩ <;> rcases h' with h' | ⟨h', rfl⟩ <;> simp_all

/-- **The state of a shell.**  In every state that a session reaches from an absolute, normalised
home directory, the home directory is the one of the start and the working directory is absolute,
in normal form and shorter than its buffer.  Every command from there leaves the state as it is,
unless it is a `cd` that returns `0`; then the working directory becomes exactly the normal form of
the argument, where `stat` has just reported a directory. -/
theorem shellSession_invariant (L : Libc) (home : Bytes) (hnormal : IsNormalPath home)
    (hlen : home.length < ps4ShellPathMax) (es : List ShellEvent) (s : ShellState)
    (hs : ShellSession L (ps4ShellInit home) es s) :
    (s.home = home ∧ IsNormalPath s.cwd ∧ s.cwd.length < ps4ShellPathMax) ∧
      ∀ e s', ShellStep L s e s' →
        (∀ name, IsCd s.home e.line name → e.status = 0 → ChangesTo s name e s') ∧
        ((¬ ∃ name, IsCd s.home e.line name ∧ e.status = 0) → s' = s) := by
  have hinv := (ShellInv.init hnormal hlen).session hs
  refine ⟨⟨hinv.home_eq, hinv.normal, hinv.fits⟩, fun e s' he => ?_⟩
  rcases he.cases hinv.normal.head with ⟨name, hcd, hcase⟩ | ⟨hno, rfl⟩
  · rcases hcase with ⟨hstatus, rfl⟩ | ⟨hstatus, hchange⟩
    · exact ⟨fun _ _ hzero => absurd hzero hstatus, fun _ => rfl⟩
    · refine ⟨fun name' hcd' _ => ?_, fun hno => absurd ⟨name, hcd, hstatus⟩ hno⟩
      rw [← hcd.unique hcd']
      exact hchange
  · exact ⟨fun name hcd => absurd hcd (hno name), fun _ => rfl⟩

/-- A `cd` to a directory that exists. -/
def cdAlpha : ShellEvent :=
  ⟨ascii "cd ./alpha/", .zero,
    [⟨.loc (.stat (ascii "/data/alpha")), .ok ⟨0o040755, 0, 0⟩⟩], 0⟩

/-- A C library for the case below. -/
def plainLibc : Libc := ⟨fun _ => ascii "error", true⟩

/-- A session with one command, in the home directory `/data`. -/
theorem shellSession_invariant_alpha :
    ShellSession plainLibc (ps4ShellInit (ascii "/data")) [] ⟨ascii "/data", ascii "/data"⟩ ∧
      ShellStep plainLibc ⟨ascii "/data", ascii "/data"⟩ cdAlpha
        ⟨ascii "/data/alpha", ascii "/data"⟩ ∧
      ChangesTo ⟨ascii "/data", ascii "/data"⟩ (ascii "./alpha/") cdAlpha
        ⟨ascii "/data/alpha", ascii "/data"⟩ := by
  have hsession : ShellSession plainLibc (ps4ShellInit (ascii "/data")) []
      ⟨ascii "/data", ascii "/data"⟩ := by
    have hinit : ps4ShellInit (ascii "/data") = ⟨ascii "/data", ascii "/data"⟩ := by
      decide +kernel
    rw [hinit]
    exact .start
  have hstep : ShellStep plainLibc ⟨ascii "/data", ascii "/data"⟩ cdAlpha
      ⟨ascii "/data/alpha", ascii "/data"⟩ := by
    have hsplit : splitCommandErrno (ascii "cd ./alpha/") = .ok [ascii "cd", ascii "./alpha/"] :=
      toOption_eq_some.1 (by decide +kernel)
    have hres : ShellProg.resolveArg ⟨ascii "/data", ascii "/data"⟩ (ascii "./alpha/") =
        some (ascii "/data/alpha") := by decide +kernel
    have hend : (⟨ascii "/data/alpha", ascii "/data"⟩ : ShellState) =
        ⟨(ascii "/data/alpha").take (ps4ShellPathMax - 1), ascii "/data"⟩ := by decide +kernel
    rw [hend]
    simp only [ShellStep, cdAlpha, ShellProg.ps4ShellExecute, hsplit, List.length_singleton,
      le_refl, and_self, if_true, List.headD_cons, ShellProg.changeDirectory, hres]
    exact .call (.refl _)
  have hcd : IsCd (ascii "/data") cdAlpha.line (ascii "./alpha/") := .inl (by decide +kernel)
  have hinv := shellSession_invariant plainLibc (ascii "/data") (by decide +kernel)
    (by decide +kernel) [] ⟨ascii "/data", ascii "/data"⟩ hsession
  exact ⟨hsession, hstep, (hinv.2 cdAlpha _ hstep).1 _ hcd rfl⟩

end Ps4Dropbear
