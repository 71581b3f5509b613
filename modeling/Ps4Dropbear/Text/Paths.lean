import Ps4Dropbear.Buffer.Basic

/-!
# Paths in normal form

An absolute path in normal form is a slash, or a slash before each of its names; a name is not
empty, has no slash in it and is neither `.` nor `..`.  A text with slashes leads from one list of
names to another, a component at a time, and `..` at the root stays there.

* `renderPath` : the path of a list of names.
* `pathNames`, `normalForm` : the names that a text leads to from the root, and their path.
* `normalFrom` : the path that a text leads to from a directory.

## Main results

* `pathNames_renderPath` : the names of a path can be read off it.
* `isNormalPath_iff` : the paths that are their own normal form are those of lists of names.
-/

namespace Ps4Dropbear

/-- A name that can be in a path in normal form. -/
def IsPathName (c : Bytes) : Prop := c ≠ [] ∧ 47 ∉ c ∧ c ≠ ascii "." ∧ c ≠ ascii ".."

instance (c : Bytes) : Decidable (IsPathName c) :=
  inferInstanceAs (Decidable (c ≠ [] ∧ 47 ∉ c ∧ c ≠ ascii "." ∧ c ≠ ascii ".."))

/-- The path through these names. -/
def renderPath (names : List Bytes) : Bytes :=
  if names = [] then ascii "/" else names.flatMap (47 :: ·)

/-- Where one component leads to. -/
def enter (names : List Bytes) (c : Bytes) : List Bytes :=
  if c = [] ∨ c = ascii "." then names
  else if c = ascii ".." then names.dropLast
  else names ++ [c]

/-- The names that a text leads to from the root. -/
def pathNames (text : Bytes) : List Bytes := (text.splitOn 47).foldl enter []

/-- The normal form of a text, taken from the root. -/
def normalForm (text : Bytes) : Bytes := renderPath (pathNames text)

/-- The normal form of a text, taken from the directory `cwd` unless it starts with a slash. -/
def normalFrom (cwd text : Bytes) : Bytes :=
  renderPath ((text.splitOn 47).foldl enter (if text.head? = some 47 then [] else pathNames cwd))

/-- The path is absolute and in normal form. -/
def IsNormalPath (path : Bytes) : Prop := normalForm path = path

instance (path : Bytes) : Decidable (IsNormalPath path) := inferInstanceAs (Decidable (_ = _))

section Components

variable {names comps : List Bytes} {c n : Bytes}

theorem enter_nil (names : List Bytes) : enter names [] = names := by
  simp [enter]

theorem enter_of_isPathName (hc : IsPathName c) : enter names c = names ++ [c] := by
  obtain ⟨hne, -, hdot, hdots⟩ := hc
  simp [enter, hne, hdot, hdots]

/-- Components without a slash lead from names to names. -/
theorem isPathName_of_mem_enter (hnames : ∀ n ∈ names, IsPathName n) (hc : 47 ∉ c) :
    ∀ n ∈ enter names c, IsPathName n := by
  intro n hn
  unfold enter at hn
  split_ifs at hn with hstay hup
  · exact hnames n hn
  · exact hnames n (List.dropLast_subset names hn)
  · rcases List.mem_append.1 hn with hn | hn
    · exact hnames n hn
    · rw [List.mem_singleton.1 hn]
      obtain ⟨hne, hdot⟩ := not_or.1 hstay
      exact ⟨hne, hc, hdot, hup⟩

theorem isPathName_of_mem_foldl (hcomps : ∀ c ∈ comps, 47 ∉ c) (hnames : ∀ n ∈ names, IsPathName n) :
    ∀ n ∈ comps.foldl enter names, IsPathName n := by
  induction comps generalizing names with
  | nil => exact hnames
  | cons c comps ih =>
    obtain ⟨hc, hcomps⟩ := List.forall_mem_cons.1 hcomps
    exact ih hcomps (isPathName_of_mem_enter hnames hc)

theorem foldl_enter_of_isPathName (h : ∀ n ∈ comps, IsPathName n) :
    comps.foldl enter names = names ++ comps := by
  induction comps generalizing names with
  | nil => simp
  | cons c comps ih =>
    obtain ⟨hc, hcomps⟩ := List.forall_mem_cons.1 h
    rw [List.foldl_cons, enter_of_isPathName hc, ih hcomps]
    simp

end Components

/-! ### Splitting -/

/-- What stops a scan does not satisfy its condition. -/
theorem dropWhile_stops (p : UInt8 → Bool) (text : Bytes) :
    text.dropWhile p = [] ∨ ∃ c t, text.dropWhile p = c :: t ∧ p c = false := by
  rcases hrest : text.dropWhile p with _ | ⟨c, t⟩
  · exact .inl rfl
  · have hne : text.dropWhile p ≠ [] := by simp [hrest]
    have hstop := List.head_dropWhile_not p hne
    simp only [hrest, List.head_cons] at hstop
    exact .inr ⟨c, t, rfl, hstop⟩

theorem not_mem_of_mem_splitOn {a : UInt8} {text c : Bytes} (h : c ∈ text.splitOn a) : a ∉ c := by
  induction text generalizing c with
  | nil =>
    rw [List.splitOn_nil, List.mem_singleton] at h
    simp [h]
  | cons x text ih =>
    rw [List.splitOn_cons_eq_if_modifyHead] at h
    split at h
    · rcases List.mem_cons.1 h with rfl | h
      · exact List.not_mem_nil
      · exact ih h
    · next hx =>
      obtain ⟨d, ds, hsplit⟩ := List.exists_cons_of_ne_nil (List.splitOn_ne_nil a text)
      rw [hsplit, List.modifyHead_cons] at h
      rw [hsplit] at ih
      rcases List.mem_cons.1 h with rfl | h
      · have hd := ih List.mem_cons_self
        simp only [List.mem_cons, not_or]
        exact ⟨fun hax => hx (by simp [hax]), hd⟩
      · exact ih (List.mem_cons_of_mem d h)

/-- The bytes of a component are bytes of the text. -/
theorem mem_of_mem_splitOn {a b : UInt8} {text c : Bytes} (h : c ∈ text.splitOn a) (hb : b ∈ c) :
    b ∈ text := by
  induction text generalizing c with
  | nil =>
    rw [List.splitOn_nil, List.mem_singleton] at h
    simp [h] at hb
  | cons x text ih =>
    rw [List.splitOn_cons_eq_if_modifyHead] at h
    split at h
    · rcases List.mem_cons.1 h with rfl | h
      · exact absurd hb List.not_mem_nil
      · exact List.mem_cons_of_mem x (ih h hb)
    · obtain ⟨d, ds, hsplit⟩ := List.exists_cons_of_ne_nil (List.splitOn_ne_nil a text)
      rw [hsplit, List.modifyHead_cons] at h
      rw [hsplit] at ih
      rcases List.mem_cons.1 h with rfl | h
      · rcases List.mem_cons.1 hb with rfl | hb
        · exact List.mem_cons_self
        · exact List.mem_cons_of_mem x (ih List.mem_cons_self hb)
      · exact List.mem_cons_of_mem x (ih (List.mem_cons_of_mem d h) hb)

/-- With a slash before each, the components are the text with a slash before it. -/
theorem flatMap_splitOn (text : Bytes) : (text.splitOn 47).flatMap (47 :: ·) = 47 :: text := by
  induction text with
  | nil => rfl
  | cons x text ih =>
    rw [List.splitOn_cons_eq_if_modifyHead]
    split
    · next hx => rw [List.flatMap_cons, ih, eq_of_beq hx, List.singleton_append]
    · obtain ⟨d, ds, hsplit⟩ := List.exists_cons_of_ne_nil (List.splitOn_ne_nil 47 text)
      rw [hsplit, List.flatMap_cons, List.cons_append, List.cons.injEq] at ih
      rw [hsplit, List.modifyHead_cons, List.flatMap_cons, ← ih.2]
      rfl

theorem length_flatMap_of_prefix {names done : List Bytes} (h : done <+: names) :
    (done.flatMap (47 :: ·)).length ≤ (names.flatMap (47 :: ·)).length := by
  obtain ⟨rest, rfl⟩ := h
  rw [List.flatMap_append, List.length_append]
  exact Nat.le_add_right _ _

/-- A component makes a path longer by itself and a slash, at most. -/
theorem length_flatMap_foldl (comps names : List Bytes) :
    ((comps.foldl enter names).flatMap (47 :: ·)).length ≤
      (names.flatMap (47 :: ·)).length + (comps.flatMap (47 :: ·)).length := by
  induction comps generalizing names with
  | nil => simp
  | cons c comps ih =>
    have henter : ((enter names c).flatMap (47 :: ·)).length ≤
        (names.flatMap (47 :: ·)).length + (47 :: c).length := by
      unfold enter
      split_ifs
      · omega
      · have hless := length_flatMap_of_prefix (List.dropLast_prefix names)
        omega
      · simp
    have hrest := ih (enter names c)
    rw [List.foldl_cons, List.flatMap_cons, List.length_append]
    omega

/-- The normal form of an absolute text is not longer than the text. -/
theorem length_normalForm_le {text : Bytes} (h : text.head? = some 47) :
    (normalForm text).length ≤ text.length := by
  obtain ⟨rest, rfl⟩ := List.head?_eq_some_iff.1 h
  have hsplit : (47 :: rest).splitOn 47 = [] :: rest.splitOn 47 :=
    List.splitOn_append_cons_self_of_not_mem List.not_mem_nil rest
  have hlen := length_flatMap_foldl (rest.splitOn 47) []
  rw [flatMap_splitOn, List.flatMap_nil, List.length_nil, Nat.zero_add] at hlen
  rw [normalForm, pathNames, hsplit, List.foldl_cons, enter_nil, renderPath]
  split
  · exact Nat.le_add_left 1 rest.length
  · exact hlen

theorem isPathName_of_mem_pathNames {text : Bytes} : ∀ n ∈ pathNames text, IsPathName n :=
  isPathName_of_mem_foldl (fun _ => not_mem_of_mem_splitOn) nofun

/-- The components of the names, each behind a slash. -/
theorem splitOn_flatMap {names : List Bytes} (hnames : ∀ n ∈ names, 47 ∉ n) {c : Bytes}
    (hc : 47 ∉ c) : (c ++ names.flatMap (47 :: ·)).splitOn 47 = c :: names := by
  induction names generalizing c with
  | nil =>
    rw [List.flatMap_nil, List.append_nil]
    exact List.splitOn_eq_singleton hc
  | cons n names ih =>
    obtain ⟨hn, hnames⟩ := List.forall_mem_cons.1 hnames
    rw [List.flatMap_cons, List.cons_append, List.splitOn_append_cons_self_of_not_mem hc,
      ih hnames hn]

/-- **The names of a path can be read off it.** -/
theorem pathNames_renderPath {names : List Bytes} (h : ∀ n ∈ names, IsPathName n) :
    pathNames (renderPath names) = names := by
  by_cases hempty : names = []
  · subst hempty
    decide
  · have hsplit := splitOn_flatMap (fun n hn => (h n hn).2.1) List.not_mem_nil
    rw [List.nil_append] at hsplit
    rw [renderPath, if_neg hempty, pathNames, hsplit, List.foldl_cons, enter_nil,
      foldl_enter_of_isPathName h, List.nil_append]

/-- The bytes of the names come from the text. -/
theorem mem_of_mem_pathNames {b : UInt8} {text n : Bytes} (hn : n ∈ pathNames text) (hb : b ∈ n) :
    b ∈ text := by
  have hcomps (comps names : List Bytes) :
      ∀ n ∈ comps.foldl enter names, n ∈ names ∨ n ∈ comps := by
    induction comps generalizing names with
    | nil => exact fun n hn => .inl hn
    | cons c comps ih =>
      intro n hn
      rcases ih (enter names c) n hn with hn | hn
      · unfold enter at hn
        split_ifs at hn
        · exact .inl hn
        · exact .inl (List.dropLast_subset names hn)
        · rcases List.mem_append.1 hn with hn | hn
          · exact .inl hn
          · exact .inr (List.mem_singleton.1 hn ▸ List.mem_cons_self)
      · exact .inr (List.mem_cons_of_mem c hn)
  rcases hcomps _ _ n hn with hn | hn
  · exact absurd hn List.not_mem_nil
  · exact mem_of_mem_splitOn hn hb

/-- A text without a NUL has a normal form without one. -/
theorem not_mem_normalForm {text : Bytes} (h : 0 ∉ text) : 0 ∉ normalForm text := by
  unfold normalForm renderPath
  split
  · decide
  · rw [List.mem_flatMap]
    rintro ⟨n, hn, hb⟩
    rcases List.mem_cons.1 hb with hb | hb
    · exact absurd hb (by decide)
    · exact h (mem_of_mem_pathNames hn hb)

/-- Fewer names have a shorter path. -/
theorem length_renderPath_of_prefix {names done : List Bytes} (h : done <+: names) :
    (renderPath done).length ≤ (renderPath names).length := by
  have hlen := length_flatMap_of_prefix h
  unfold renderPath
  by_cases hnames : names = []
  · rw [hnames, List.prefix_nil] at h
    subst hnames h
    exact Nat.le_refl _
  · rw [if_neg hnames]
    split
    · obtain ⟨n, ns, rfl⟩ := List.exists_cons_of_ne_nil hnames
      rw [List.flatMap_cons]
      exact Nat.le_add_left 1 _
    · exact hlen

/-- On the way to a path in normal form nothing is longer than the path. -/
theorem length_done_le {names done : List Bytes} (hnames : ∀ n ∈ names, IsPathName n)
    (hdone : done <+: (renderPath names).splitOn 47) :
    (renderPath (done.foldl enter [])).length ≤ (renderPath names).length := by
  -- the names behind the empty component before the first slash, or two empty components
  obtain ⟨names', hprefixed, hfold⟩ :
      ∃ names', names' <+: names ∧ done.foldl enter [] = names' := by
    by_cases hempty : names = []
    · subst hempty
      have hnil : ∀ c ∈ done, c = [] := fun c hc => by
        have hmem := hdone.subset hc
        rw [show (renderPath []).splitOn 47 = [[], []] by decide] at hmem
        simpa using hmem
      rw [List.eq_replicate_of_mem hnil]
      refine ⟨[], List.prefix_refl _, ?_⟩
      induction done.length with
      | zero => rfl
      | succ k ih => rw [List.replicate_succ, List.foldl_cons, enter_nil, ih]
    · have hsplit := splitOn_flatMap (fun n hn => (hnames n hn).2.1) List.not_mem_nil
      rw [List.nil_append] at hsplit
      rw [renderPath, if_neg hempty, hsplit] at hdone
      rcases List.prefix_cons_iff.1 hdone with rfl | ⟨done', rfl, hdone'⟩
      · exact ⟨[], List.nil_prefix, rfl⟩
      · refine ⟨done', hdone', ?_⟩
        rw [List.foldl_cons, enter_nil,
          foldl_enter_of_isPathName fun n hn => hnames n (hdone'.subset hn), List.nil_append]
  rw [hfold]
  exact length_renderPath_of_prefix hprefixed

/-- The paths in normal form are those of lists of names. -/
theorem isNormalPath_iff {path : Bytes} :
    IsNormalPath path ↔ ∃ names, (∀ n ∈ names, IsPathName n) ∧ path = renderPath names := by
  constructor
  · intro h
    exact ⟨pathNames path, isPathName_of_mem_pathNames, h.symm⟩
  · rintro ⟨names, hnames, rfl⟩
    rw [IsNormalPath, normalForm, pathNames_renderPath hnames]

theorem isNormalPath_renderPath {names : List Bytes} (h : ∀ n ∈ names, IsPathName n) :
    IsNormalPath (renderPath names) :=
  isNormalPath_iff.2 ⟨names, h, rfl⟩

theorem head_renderPath (names : List Bytes) : (renderPath names).head? = some 47 := by
  cases names with
  | nil => decide
  | cons n names => simp [renderPath]

/-- A path in normal form is absolute. -/
theorem IsNormalPath.head {path : Bytes} (h : IsNormalPath path) : path.head? = some 47 := by
  rw [← h]
  exact head_renderPath _

theorem isNormalPath_normalFrom (cwd text : Bytes) : IsNormalPath (normalFrom cwd text) := by
  refine isNormalPath_renderPath (isPathName_of_mem_foldl (fun _ => not_mem_of_mem_splitOn) ?_)
  split
  · exact nofun
  · exact isPathName_of_mem_pathNames

/-- What a text leads to from a directory is what the two, with a slash between them, lead to from
the root. -/
theorem normalFrom_of_relative {cwd text : Bytes} (h : text.head? ≠ some 47) :
    normalFrom cwd text = normalForm (cwd ++ 47 :: text) := by
  rw [normalFrom, if_neg h, normalForm, pathNames, pathNames, List.splitOn_append_cons_self,
    List.foldl_append]

theorem normalFrom_of_absolute {cwd text : Bytes} (h : text.head? = some 47) :
    normalFrom cwd text = normalForm text := by
  rw [normalFrom, if_pos h, normalForm, pathNames]

/-- The empty text leads nowhere. -/
theorem normalFrom_nil (cwd : Bytes) : normalFrom cwd [] = normalForm cwd := by
  rw [normalFrom, if_neg (by decide), List.splitOn_nil, List.foldl_cons, enter_nil,
    List.foldl_nil, normalForm]

end Ps4Dropbear
