import Ps4Dropbear.Shell.Resolve

/-!
# The `scp` command line

`ps4_scp_parse_command` reads the letters of all options, one after the other.  The grammar says
the same about the letters together, wherever they stand: exactly one of them names a mode.

* `scpLetters` : the letters of the options.
* `ScpFlags.After` : what a number of letters make of the flags.
* `foldlM_scpLetter` : letter by letter, the program finds the same.

**Main result**: the command lines that are accepted, and the request that each is
(`ps4ScpParseCommand_iff`).
-/

namespace Ps4Dropbear

/-- The letters that may be in an option. -/
def IsScpLetter (c : UInt8) : Prop := c ∈ ascii "tfpdvqT"

instance (c : UInt8) : Decidable (IsScpLetter c) :=
  inferInstanceAs (Decidable (c ∈ ascii "tfpdvqT"))

/-- The mode that a letter names. -/
def scpMode (c : UInt8) : Option ScpMode :=
  if c = 116 then some .receive else if c = 102 then some .send else none

/-- A dash and at least one letter. -/
def IsScpOption (option : Bytes) : Prop :=
  ∃ letters, letters ≠ [] ∧ option = 45 :: letters ∧ ∀ c ∈ letters, IsScpLetter c

theorem not_isScpOption_dashes : ¬ IsScpOption (ascii "--") := by
  rintro ⟨letters, -, hletters, hall⟩
  obtain rfl : letters = [45] := (List.tail_eq_of_cons_eq hletters).symm
  exact absurd (hall 45 List.mem_cons_self) (by decide)

/-- The letters of the options; `--` has none. -/
def scpLetters (options : List Bytes) : Bytes :=
  (options.filter (· ≠ ascii "--")).flatMap List.tail

/-- The options can stand between the name and the path: `--` is the last of them. -/
def ScpOptions (options : List Bytes) : Prop :=
  (∀ option ∈ options, option = ascii "--" ∨ IsScpOption option) ∧
    ∀ done rest, options = done ++ ascii "--" :: rest → rest = []

theorem ScpOptions.cons_iff {option : Bytes} {options : List Bytes} :
    ScpOptions (option :: options) ↔
      option = ascii "--" ∧ options = [] ∨ IsScpOption option ∧ ScpOptions options := by
  constructor
  · rintro ⟨hwords, hend⟩
    obtain ⟨hfirst, hwords⟩ := List.forall_mem_cons.1 hwords
    rcases hfirst with hdashes | hoption
    · exact .inl ⟨hdashes, hend [] options (by rw [hdashes, List.nil_append])⟩
    · refine .inr ⟨hoption, hwords, ?_⟩
      rintro done rest rfl
      exact hend (option :: done) rest (List.cons_append ..).symm
  · rintro (⟨rfl, rfl⟩ | ⟨hoption, hwords, hend⟩)
    · refine ⟨by simp, ?_⟩
      intro done rest h
      have hlen := congrArg List.length h
      simp only [List.length_append, List.length_cons, List.length_nil] at hlen
      exact List.eq_nil_of_length_eq_zero (by omega)
    · refine ⟨List.forall_mem_cons.2 ⟨.inr hoption, hwords⟩, ?_⟩
      intro done rest h
      cases done with
      | nil =>
        rw [List.nil_append, List.cons.injEq] at h
        exact absurd (h.1 ▸ hoption) not_isScpOption_dashes
      | cons first done =>
        rw [List.cons_append, List.cons.injEq] at h
        exact hend done rest h.2

/-- The letters of the options can be in options. -/
theorem ScpOptions.isScpLetter {options : List Bytes} (h : ScpOptions options) :
    ∀ c ∈ scpLetters options, IsScpLetter c := by
  intro c hc
  obtain ⟨option, hoption, hc⟩ := List.mem_flatMap.1 hc
  obtain ⟨hmem, hdashes⟩ := List.mem_filter.1 hoption
  rcases h.1 option hmem with h | ⟨letters, -, rfl, hall⟩
  · exact absurd h (of_decide_eq_true hdashes)
  · exact hall c hc

/-- What the letters make of the flags `f`. -/
structure ScpFlags.After (f f' : ScpFlags) (letters : Bytes) : Prop where
  isLetter : ∀ c ∈ letters, IsScpLetter c
  mode : f'.mode.toList = f.mode.toList ++ letters.filterMap scpMode
  preserve : f'.preserve = (f.preserve || letters.contains 112)
  targetShouldBeDirectory :
    f'.targetShouldBeDirectory = (f.targetShouldBeDirectory || letters.contains 100)

section Letters

variable {f f' : ScpFlags} {c : UInt8} {letters : Bytes} {options : List Bytes}

theorem toList_injective {m m' : Option ScpMode} (h : m.toList = m'.toList) : m = m' := by
  cases m <;> cases m' <;> simp_all

theorem ScpFlags.after_nil : f.After f' [] ↔ f = f' := by
  constructor
  · rintro ⟨-, hmode, hpreserve, hdir⟩
    obtain ⟨m, p, d⟩ := f
    obtain ⟨m', p', d'⟩ := f'
    dsimp only at hmode hpreserve hdir
    rw [List.filterMap_nil, List.append_nil] at hmode
    rw [toList_injective hmode, hpreserve, hdir, List.contains_nil, List.contains_nil,
      Bool.or_false, Bool.or_false]
  · rintro rfl
    exact ⟨by simp, by simp, by simp, by simp⟩

/-- A letter is accepted unless it names a second mode. -/
theorem scpLetter_eq (f : ScpFlags) (c : UInt8) : scpLetter f c =
    if IsScpLetter c ∧ (scpMode c = none ∨ f.mode = none) then
      some ⟨f.mode.or (scpMode c), f.preserve || c == 112, f.targetShouldBeDirectory || c == 100⟩
    else none := by
  have hletters : IsScpLetter c ↔ c = 116 ∨ c = 102 ∨ c = 112 ∨ c = 100 ∨ c = 118 ∨ c = 113 ∨
      c = 84 := by
    simp [IsScpLetter, ascii]
  simp only [hletters]
  by_cases ht : c = 116
  · subst ht
    cases hm : f.mode <;> simp [scpLetter, scpMode, hm]
  by_cases hf : c = 102
  · subst hf
    cases hm : f.mode <;> simp [scpLetter, scpMode, hm]
  have hmode : scpMode c = none := by rw [scpMode, if_neg ht, if_neg hf]
  unfold scpLetter
  rw [if_neg ht, if_neg hf, hmode]
  by_cases hp : c = 112
  · simp [hp]
  by_cases hd : c = 100
  · simp [hd]
  simp [ht, hf, hp, hd, beq_false_of_ne hp, beq_false_of_ne hd]

theorem toList_or {m : Option ScpMode} (h : scpMode c = none ∨ m = none) :
    (m.or (scpMode c)).toList ++ letters.filterMap scpMode =
      m.toList ++ (c :: letters).filterMap scpMode := by
  cases hc : scpMode c with
  | none => rw [List.filterMap_cons_none hc, Option.or_none]
  | some m' =>
    have hnone : m = none := h.resolve_left (by simp [hc])
    simp [List.filterMap_cons_some hc, hnone]

/-- **One letter**, and the others after it. -/
theorem ScpFlags.after_cons :
    f.After f' (c :: letters) ↔ ∃ f₁, scpLetter f c = some f₁ ∧ f₁.After f' letters := by
  constructor
  · rintro ⟨hletter, hmode, hpreserve, hdir⟩
    obtain ⟨hc, hletters⟩ := List.forall_mem_cons.1 hletter
    have hone : scpMode c = none ∨ f.mode = none := by
      by_contra hboth
      obtain ⟨hc, hf⟩ := not_or.1 hboth
      obtain ⟨m, hm⟩ := Option.ne_none_iff_exists'.1 hc
      obtain ⟨m', hm'⟩ := Option.ne_none_iff_exists'.1 hf
      rw [List.filterMap_cons_some hm, hm'] at hmode
      have hlen := congrArg List.length hmode
      have hshort : f'.mode.toList.length ≤ 1 := by cases f'.mode <;> simp
      rw [List.length_append, List.length_cons, Option.toList_some, List.length_singleton] at hlen
      omega
    refine ⟨_, by rw [scpLetter_eq, if_pos ⟨hc, hone⟩], hletters, ?_, ?_, ?_⟩
    · rw [hmode, toList_or hone]
    · rw [hpreserve, List.contains_cons, Bool.or_assoc, Bool.beq_comm]
    · rw [hdir, List.contains_cons, Bool.or_assoc, Bool.beq_comm]
  · rintro ⟨f₁, hf₁, hletters, hmode, hpreserve, hdir⟩
    rw [scpLetter_eq, Option.ite_none_right_eq_some, Option.some_inj] at hf₁
    obtain ⟨⟨hc, hone⟩, rfl⟩ := hf₁
    refine ⟨List.forall_mem_cons.2 ⟨hc, hletters⟩, ?_, ?_, ?_⟩
    · rw [hmode, toList_or hone]
    · rw [hpreserve, List.contains_cons, Bool.or_assoc, Bool.beq_comm]
    · rw [hdir, List.contains_cons, Bool.or_assoc, Bool.beq_comm]

/-- The letters of one option. -/
theorem foldlM_scpLetter : letters.foldlM scpLetter f = some f' ↔ f.After f' letters := by
  induction letters generalizing f with
  | nil => rw [List.foldlM_nil, ScpFlags.after_nil, Option.pure_def, Option.some_inj]
  | cons c letters ih =>
    simp only [List.foldlM_cons, Option.bind_eq_bind, Option.bind_eq_some_iff, ih,
      ScpFlags.after_cons]

theorem ScpFlags.after_append {letters' : Bytes} :
    f.After f' (letters ++ letters') ↔ ∃ f₁, f.After f₁ letters ∧ f₁.After f' letters' := by
  simp only [← foldlM_scpLetter, List.foldlM_append, Option.bind_eq_bind, Option.bind_eq_some_iff]

/-- The options one after the other. -/
theorem scpOptions_iff :
    scpOptions f options = some f' ↔ ScpOptions options ∧ f.After f' (scpLetters options) := by
  induction options generalizing f with
  | nil =>
    have hnone : ScpOptions [] := ⟨by simp, by simp⟩
    rw [scpOptions, Option.some_inj, ← ScpFlags.after_nil]
    exact (and_iff_right hnone).symm
  | cons option options ih =>
    rw [ScpOptions.cons_iff]
    by_cases hdashes : option = ascii "--"
    · subst hdashes
      have hletters : scpLetters (ascii "--" :: options) = scpLetters options := by
        rw [scpLetters, List.filter_cons_of_neg (by simp), scpLetters]
      unfold scpOptions
      rw [if_pos rfl, hletters, Option.ite_none_right_eq_some, Option.some_inj]
      constructor
      · rintro ⟨rfl, rfl⟩
        exact ⟨.inl ⟨rfl, rfl⟩, ScpFlags.after_nil.2 rfl⟩
      · rintro ⟨⟨-, rfl⟩ | ⟨hoption, -⟩, hafter⟩
        · exact ⟨rfl, ScpFlags.after_nil.1 hafter⟩
        · exact absurd hoption not_isScpOption_dashes
    · have hletters : scpLetters (option :: options) = option.tail ++ scpLetters options := by
        rw [scpLetters, List.filter_cons_of_pos (by simpa using hdashes), List.flatMap_cons,
          scpLetters]
      unfold scpOptions
      rw [if_neg hdashes, hletters]
      split
      · next c letters =>
        rw [List.tail_cons, ScpFlags.after_append]
        constructor
        · intro h
          split at h
          · cases h
          · next f₁ hf₁ =>
            obtain ⟨hoptions, hafter⟩ := ih.1 h
            have hone := foldlM_scpLetter.1 hf₁
            exact ⟨.inr ⟨⟨c :: letters, List.cons_ne_nil c letters, rfl, hone.isLetter⟩, hoptions⟩,
              f₁, hone, hafter⟩
        · rintro ⟨hoption, f₁, hone, hafter⟩
          rcases hoption with ⟨h, -⟩ | ⟨-, hoptions⟩
          · exact absurd h hdashes
          · rw [foldlM_scpLetter.2 hone]
            exact ih.2 ⟨hoptions, hafter⟩
      · next hnone =>
        constructor
        · nofun
        · rintro ⟨⟨h, -⟩ | ⟨⟨letters, hne, hletters, -⟩, -⟩, -⟩
          · exact absurd h hdashes
          · obtain ⟨c, letters, rfl⟩ := List.exists_cons_of_ne_nil hne
            exact absurd hletters (hnone c letters)

end Letters

/-- The arguments that are looked at further. -/
theorem splitCommand_of_parse {command cwd : Bytes} {request : ScpRequest}
    (h : ps4ScpParseCommand command cwd = some request) :
    ∃ options last, splitCommand command = some (ascii "scp" :: (options ++ [last])) ∧
      options ≠ [] := by
  unfold ps4ScpParseCommand at h
  split at h
  · cases h
  · next argv hsplit =>
    obtain ⟨hargs, -⟩ := Option.ite_none_left_eq_some.1 h
    obtain ⟨hcount, hname⟩ := not_or.1 hargs
    obtain ⟨args, rfl⟩ := List.head?_eq_some_iff.1 (not_not.1 hname)
    rcases List.eq_nil_or_concat args with rfl | ⟨options, last, rfl⟩
    · exact absurd (by decide) hcount
    · rw [List.concat_eq_append] at hsplit
      refine ⟨options, last, hsplit, ?_⟩
      rintro rfl
      exact hcount (by simp)

/-- The parser after the arguments have been split. -/
theorem parse_of_splitCommand {command cwd last : Bytes} {options : List Bytes}
    {request : ScpRequest} (hne : options ≠ [])
    (hsplit : splitCommand command = some (ascii "scp" :: (options ++ [last]))) :
    ps4ScpParseCommand command cwd = some request ↔
      ScpOptions options ∧
      (⟨none, false, false⟩ : ScpFlags).After
        ⟨some request.mode, request.preserve, request.targetShouldBeDirectory⟩
        (scpLetters options) ∧
      ps4ShellResolve cwd last ps4ShellPathMax = some request.path := by
  have hlast : (ascii "scp" :: (options ++ [last])).getLastD [] = last := by
    rw [← List.cons_append, List.getLastD_concat]
  have hcount : ¬ ((ascii "scp" :: (options ++ [last])).length < 3 ∨
      (ascii "scp" :: (options ++ [last])).head? ≠ some (ascii "scp")) := by
    have hpos := List.length_pos_of_ne_nil hne
    rw [List.length_cons, List.length_append, List.length_singleton, List.head?_cons]
    simp only [ne_eq, not_true, or_false, not_lt]
    omega
  unfold ps4ScpParseCommand
  rw [hsplit]
  dsimp only
  rw [if_neg hcount, hlast, List.tail_cons, List.dropLast_concat]
  constructor
  · intro h
    split at h
    · cases h
    · next f hf =>
      split at h
      · next mode path hmode hpath =>
        cases h
        obtain ⟨hoptions, hafter⟩ := scpOptions_iff.1 hf
        rw [← hmode]
        exact ⟨hoptions, hafter, hpath⟩
      · cases h
  · rintro ⟨hoptions, hafter, hpath⟩
    rw [scpOptions_iff.2 ⟨hoptions, hafter⟩, hpath]

/-- **The grammar of `scp`.**  A command line is accepted if it splits into `scp`, at least one
option and a path, the letters of the options name a mode exactly once, and the path resolves. -/
theorem ps4ScpParseCommand_iff (command cwd : Bytes) (request : ScpRequest) :
    ps4ScpParseCommand command cwd = some request ↔
      ∃ options last, splitCommand command = some (ascii "scp" :: (options ++ [last])) ∧
        options ≠ [] ∧ ScpOptions options ∧
        (scpLetters options).filterMap scpMode = [request.mode] ∧
        (request.preserve ↔ 112 ∈ scpLetters options) ∧
        (request.targetShouldBeDirectory ↔ 100 ∈ scpLetters options) ∧
        ResolveFits (combinedText cwd last) ps4ShellPathMax ∧
        request.path = normalForm (combinedText cwd last) ∧ IsNormalPath request.path := by
  constructor
  · intro h
    obtain ⟨options, last, hsplit, hne⟩ := splitCommand_of_parse h
    obtain ⟨hoptions, hafter, hpath⟩ := (parse_of_splitCommand hne hsplit).1 h
    obtain ⟨hfits, hnormal⟩ := ps4ShellResolve_iff.1 hpath
    refine ⟨options, last, hsplit, hne, hoptions, hafter.mode.symm, ?_, ?_, hfits, hnormal.symm, ?_⟩
    · have hpreserve := hafter.preserve
      dsimp only at hpreserve
      rw [hpreserve]
      simp
    · have hdir := hafter.targetShouldBeDirectory
      dsimp only at hdir
      rw [hdir]
      simp
    · have hroot : ∀ n ∈ ([] : List Bytes), IsPathName n := nofun
      rw [← hnormal]
      exact isNormalPath_renderPath (isPathName_of_mem_foldl (fun _ => not_mem_of_mem_splitOn) hroot)
  · rintro ⟨options, last, hsplit, hne, hoptions, hmode, hpreserve, hdir, hfits, hpath, -⟩
    refine (parse_of_splitCommand hne hsplit).2
      ⟨hoptions, ?_, ps4ShellResolve_iff.2 ⟨hfits, hpath.symm⟩⟩
    refine ⟨hoptions.isScpLetter, hmode.symm, ?_, ?_⟩
    · rw [Bool.eq_iff_iff, hpreserve]
      simp
    · rw [Bool.eq_iff_iff, hdir]
      simp

end Ps4Dropbear
