import Ps4Dropbear.Auth.CheckedLine
import Ps4Dropbear.Auth.Delimiting

/-!
# Lines that end the session

A line of `authorized_keys` that is not for the offered key is skipped, unless one of the checked
accessors ends the session on it.  Two kinds of lines do that: one that has only blanks, because
`checkpubkey_line` asks for the first byte of the options, and one with the offered key when this
key does not hold the name it announces.

* `GivesKey` : the options and the text of the key of a line.
* `Fatal`, `Accepts` : the lines that end the session, and those that are accepted.
* `checkpubkeyLine_error_iff`, `checkpubkeyLine_some_iff` : what `checkpubkey_line` does on them.

**Main result**: `checkpubkey` returns what the first acceptable line says exactly when there is one
in front of every line that ends the session (`checkpubkeyBuf_iff`).
-/

namespace Ps4Dropbear

/-! ### The text of a line -/

/-- The options of a line, and the text of its key.  The options end at the first blank at which
their quotes match. -/
inductive GivesKey (algo line : Bytes) : Option Bytes → Bytes → Prop
  | bare {key tail : Bytes} (hline : line = algo ++ 32 :: (key ++ tail)) (hkey : 32 ∉ key)
      (htail : tail = [] ∨ tail.head? = some 32) : GivesKey algo line none key
  | behind {blanks options key tail : Bytes} {c : UInt8} (halgo : ¬ algo <+: line)
      (hline : line = blanks ++ (options ++ c :: (algo ++ 32 :: (key ++ tail))))
      (hblanks : ∀ b ∈ blanks, isBlank b) (hc : isBlank c) (hoptions : options ≠ [])
      (hfirst : ∀ b ∈ options.head?, isBlank b = false ∧ b ≠ 35) (hquotes : QuotesMatch options)
      (hroom : 2 ≤ (key ++ tail).length) (hkey : 32 ∉ key)
      (htail : tail = [] ∨ tail.head? = some 32) : GivesKey algo line (some options) key

/-- The line is looked at: it has a size, no NUL, and room for the algorithm. -/
def LookedAt (algo line : Bytes) : Prop :=
  (minAuthkeysLine ≤ line.length ∧ line.length ≤ maxAuthkeysLine) ∧ (0 : UInt8) ∉ line ∧
    algo.length + 3 ≤ line.length

/-- The key of the line is this blob. -/
def GivesBlob (algo keyblob line : Bytes) (options : Option Bytes) : Prop :=
  ∃ key, GivesKey algo line options key ∧ key ≠ [] ∧
    base64Decode key (key.length * 2) = some keyblob

/-- The blob is too short for the name that its first four bytes announce. -/
def Malformed (keyblob : Bytes) : Prop :=
  keyblob.length < 4 ∨ keyblob.length < 4 + load32h keyblob

/-- The line ends the session. -/
def Fatal (algo keyblob line : Bytes) : Prop :=
  LookedAt algo line ∧
    ((∀ b ∈ line, isBlank b) ∨ (∃ options, GivesBlob algo keyblob line options) ∧ Malformed keyblob)

/-- The line is for the key, and its options are well formed. -/
def Accepts (einval : Bool) (algo keyblob line : Bytes) : Prop :=
  LookedAt algo line ∧ ∃ options, GivesBlob algo keyblob line options ∧ ¬ Malformed keyblob ∧
    (keyblob.drop 4).take (load32h keyblob) = algo ∧
    ∀ text ∈ options, ∃ xs o, Reads text xs ∧ Kept einval xs o

section Scan

variable {quoted escape : Bool} {c : UInt8} {algo line text key rest : Bytes}

/-- The scanner stops at the first blank at which the quotes match, or at the end. -/
theorem scanOptions_cases (quoted escape : Bool) (text : Bytes) :
    (scanOptions quoted escape text = (text, 0)) ∨
      ∃ o c r, scanOptions quoted escape text = (o, 1) ∧ text = o ++ c :: r ∧ isBlank c ∧
        Delimits quoted o := by
  induction text generalizing quoted escape with
  | nil => exact .inl rfl
  | cons d text ih =>
    rw [scanOptions_cons]
    by_cases hstop : (!quoted && isBlank d) = true
    · obtain ⟨hquoted, hd⟩ := (Bool.and_eq_true _ _).mp hstop
      have hquoted' : quoted = false := by simpa using hquoted
      rw [if_pos hstop]
      exact .inr ⟨[], d, text, rfl, rfl, hd, hquoted'⟩
    have hquoted : isBlank d → quoted = true := by
      intro hd
      cases quoted with
      | false => exact absurd hd hstop
      | true => rfl
    rw [if_neg hstop]
    rcases ih (if d = 34 then !quoted else quoted) (!escape && d == 92) with h |
      ⟨o, c, r, h, htext, hc, hdelimits⟩
    · rw [h]
      exact .inl rfl
    · rw [h]
      exact .inr ⟨d :: o, c, r, rfl, by rw [htext, List.cons_append], hc, hquoted, hdelimits⟩

/-- The key of a line ends at a space. -/
theorem takeWhile_key_iff :
    (rest.head? = some 32 ∧ key = rest.tail.takeWhile (· ≠ 32)) ↔
      32 ∉ key ∧ ∃ tail, rest = 32 :: (key ++ tail) ∧ (tail = [] ∨ tail.head? = some 32) := by
  constructor
  · rintro ⟨hhead, rfl⟩
    obtain ⟨r, rfl⟩ : ∃ r, rest = 32 :: r := by
      cases rest with
      | nil => cases hhead
      | cons c r => exact ⟨r, by rw [Option.some_inj.1 hhead]⟩
    refine ⟨?_, r.dropWhile (· ≠ 32),
      by rw [List.tail_cons, List.takeWhile_append_dropWhile], ?_⟩
    · intro h
      have hne := List.mem_takeWhile_imp (p := fun c => decide (c ≠ 32)) (l := r) h
      exact of_decide_eq_true hne rfl
    · have hstop := List.head?_dropWhile_not (fun c => decide (c ≠ 32)) r
      cases hr : r.dropWhile fun c => decide (c ≠ 32) with
      | nil => exact .inl rfl
      | cons c r' =>
        rw [hr, List.head?_cons] at hstop
        have hc : c = 32 := by simpa using hstop
        exact .inr (congrArg some hc)
  · rintro ⟨hkey, tail, rfl, htail⟩
    have hnil : tail.takeWhile (fun c => decide (c ≠ 32)) = [] := by
      rcases htail with rfl | htail
      · rfl
      · cases tail with
        | nil => rfl
        | cons c tail =>
          obtain rfl : c = 32 := Option.some_inj.1 htail
          exact List.takeWhile_cons_of_neg (by decide)
    refine ⟨rfl, ?_⟩
    rw [List.tail_cons, List.takeWhile_append_of_pos fun c hc => decide_eq_true ?_, hnil,
      List.append_nil]
    rintro rfl
    exact hkey hc

/-- **The start of a line** is found as it is written. -/
theorem lineStart_iff {options : Option Bytes} :
    (∃ rest, lineStart algo line = .ok (some (options, rest)) ∧ rest.head? = some 32 ∧
      key = rest.tail.takeWhile (· ≠ 32)) ↔ GivesKey algo line options key := by
  constructor
  · rintro ⟨rest, hstart, hrest⟩
    obtain ⟨hkey, tail, hrest, htail⟩ := takeWhile_key_iff.1 hrest
    unfold lineStart at hstart
    by_cases halgo : algo <+: line
    · rw [if_pos halgo] at hstart
      obtain ⟨r, rfl⟩ := halgo
      cases hstart
      rw [List.drop_left] at hrest
      exact .bare (by rw [hrest]) hkey htail
    rw [if_neg halgo] at hstart
    have hline := List.takeWhile_append_dropWhile (p := isBlank) (l := line)
    have hfirst := List.head?_dropWhile_not isBlank line
    have hblanks (b : UInt8) (hb : b ∈ line.takeWhile isBlank) : isBlank b :=
      List.mem_takeWhile_imp hb
    generalize line.dropWhile isBlank = text at hstart hline hfirst
    dsimp only at hstart
    by_cases htext : text = []
    · rw [if_pos htext] at hstart
      cases hstart
    rw [if_neg htext] at hstart
    by_cases hcomment : text.head? = some 35
    · rw [if_pos hcomment] at hstart
      cases hstart
    rw [if_neg hcomment] at hstart
    rcases scanOptions_cases false false text with hscan | ⟨o, c, r, hscan, rfl, hc, hquotes⟩
    · rw [hscan] at hstart
      dsimp only at hstart
      rw [Nat.add_zero, List.drop_length, if_neg fun h => absurd h.2 (Nat.not_succ_le_zero _)]
        at hstart
      cases hstart
    · have hdrop : (o ++ c :: r).drop (o.length + 1) = r := by
        rw [← List.drop_drop, List.drop_left, List.drop_one, List.tail_cons]
      rw [hscan] at hstart
      dsimp only at hstart
      rw [hdrop] at hstart
      split at hstart
      swap
      · cases hstart
      next hfound =>
      obtain ⟨⟨r', rfl⟩, hlen⟩ := hfound
      rw [List.drop_left] at hstart
      cases hstart
      subst hrest
      have hne : o ≠ [] := by
        rintro rfl
        rw [List.nil_append, List.head?_cons] at hfirst
        exact absurd hc (by simp [hfirst])
      obtain ⟨d, o', rfl⟩ := List.exists_cons_of_ne_nil hne
      refine .behind halgo hline.symm hblanks hc hne ?_ (delimits_false_iff.1 hquotes) ?_ hkey htail
      · rintro b hb
        obtain rfl : d = b := Option.some_inj.1 hb
        exact ⟨hfirst, fun h => hcomment (congrArg some h)⟩
      · rw [List.length_append, List.length_cons] at hlen
        omega
  · intro h
    cases h with
    | @bare _ tail hline hkey htail =>
      refine ⟨32 :: (key ++ tail), ?_, takeWhile_key_iff.2 ⟨hkey, tail, rfl, htail⟩⟩
      unfold lineStart
      rw [if_pos ⟨_, hline.symm⟩, hline, List.drop_left]
    | @behind blanks options _ tail c halgo hline hblanks hc hoptions hfirst hquotes hlen hkey
      htail =>
      refine ⟨32 :: (key ++ tail), ?_, takeWhile_key_iff.2 ⟨hkey, tail, rfl, htail⟩⟩
      have hdelimits := delimits_false_iff.2 hquotes
      obtain ⟨d, o', rfl⟩ := List.exists_cons_of_ne_nil hoptions
      obtain ⟨hd, hcomment⟩ := hfirst d rfl
      have htext : line.dropWhile isBlank = d :: o' ++ c :: (algo ++ 32 :: (key ++ tail)) := by
        rw [hline, List.dropWhile_append_of_pos hblanks, List.cons_append,
          List.dropWhile_cons_of_neg (by simp [hd])]
      have hscan : scanOptions false false (d :: o' ++ c :: (algo ++ 32 :: (key ++ tail))) =
          (d :: o', 1) :=
        Prod.ext ((scanOptions_eq_iff hc).2 hdelimits) (scanOptions_snd hc hdelimits)
      have hdrop : (d :: o' ++ c :: (algo ++ 32 :: (key ++ tail))).drop ((d :: o').length + 1) =
          algo ++ 32 :: (key ++ tail) := by
        rw [← List.drop_drop, List.drop_left, List.drop_one, List.tail_cons]
      have hfound : algo <+: algo ++ 32 :: (key ++ tail) ∧
          algo.length + 3 ≤ (algo ++ 32 :: (key ++ tail)).length := by
        refine ⟨List.prefix_append _ _, ?_⟩
        rw [List.length_append, List.length_cons]
        omega
      have hhead : (d :: o' ++ c :: (algo ++ 32 :: (key ++ tail))).head? = some d := rfl
      unfold lineStart
      rw [if_neg halgo, htext]
      dsimp only
      rw [if_neg (by simp), hhead, if_neg fun h => hcomment (Option.some_inj.1 h), hscan]
      dsimp only
      rw [hdrop, if_pos hfound, List.drop_left]

end Scan

/-! ### One line -/

section Line

variable {einval : Bool} {line algo keyblob key : Bytes} {options : Option Bytes}
  {type : SignkeyType}

theorem not_error {α : Type} (a : α) : ¬ ∃ m : Exit, Except.ok a = Except.error m := by
  rintro ⟨m, h⟩
  cases h

theorem not_some {α : Type} :
    ¬ ∃ o : α, (Except.ok none : Except Exit (Option α)) = .ok (some o) := by
  rintro ⟨o, h⟩
  cases h

theorem lineStart_error_iff :
    (∃ m, lineStart algo line = .error m) ↔ ¬ algo <+: line ∧ ∀ b ∈ line, isBlank b := by
  unfold lineStart
  by_cases halgo : algo <+: line
  · rw [if_pos halgo]
    exact iff_of_false (not_error _) fun h => h.1 halgo
  rw [if_neg halgo, ← List.dropWhile_eq_nil_iff]
  dsimp only
  by_cases htext : line.dropWhile isBlank = []
  · rw [if_pos htext]
    exact ⟨fun _ => ⟨halgo, htext⟩, fun _ => ⟨_, rfl⟩⟩
  · rw [if_neg htext]
    refine ⟨?_, fun h => absurd h.2 htext⟩
    rintro ⟨m, h⟩
    split_ifs at h

/-- A line has one key. -/
theorem GivesKey.unique {options' : Option Bytes} {key' : Bytes}
    (h : GivesKey algo line options key) (h' : GivesKey algo line options' key') :
    options = options' ∧ key = key' := by
  obtain ⟨rest, hstart, -, hkey⟩ := lineStart_iff.2 h
  obtain ⟨rest', hstart', -, hkey'⟩ := lineStart_iff.2 h'
  rw [hstart] at hstart'
  cases hstart'
  exact ⟨rfl, hkey.trans hkey'.symm⟩

/-- A line with a key does not consist of blanks. -/
theorem GivesKey.not_blank (h : GivesKey (signkeyNameFromType type) line options key) :
    ¬ ∀ b ∈ line, isBlank b := by
  have hs : (115 : UInt8) ∈ signkeyNameFromType type := by cases type <;> decide
  intro hblank
  have hmem : (115 : UInt8) ∈ line := by
    cases h with
    | bare hline => rw [hline]; exact List.mem_append_left _ hs
    | behind _ hline =>
      rw [hline]
      exact List.mem_append_right _ (List.mem_append_right _
        (List.mem_cons_of_mem _ (List.mem_append_left _ hs)))
  exact absurd (hblank 115 hmem) (by decide)

theorem lookedAt_iff : LookedAt algo line ↔
    ¬ (line.length < minAuthkeysLine ∨ line.length > maxAuthkeysLine ∨ (0 : UInt8) ∈ line ∨
      line.length < algo.length + 3) := by
  unfold LookedAt
  simp only [not_or, Nat.not_lt]
  tauto

/-- What `checkpubkey_line` does with a line that it looks at. -/
theorem checkpubkeyLine_cases (keyblob : Bytes) (h : LookedAt (signkeyNameFromType type) line) :
    (∃ m, checkpubkeyLine einval line (signkeyNameFromType type) keyblob = .error m ∧
        ∀ b ∈ line, isBlank b) ∨
      (∃ options info, GivesBlob (signkeyNameFromType type) keyblob line options ∧
        checkpubkeyLine einval line (signkeyNameFromType type) keyblob =
          match blobNames keyblob (signkeyNameFromType type) with
          | .error m => .error m
          | .ok true =>
            .ok ((svrParsePubkeyOptions einval options).map fun o => { o with infoEnv := info })
          | .ok false => .ok none) ∨
      checkpubkeyLine einval line (signkeyNameFromType type) keyblob = .ok none ∧
        (¬ ∀ b ∈ line, isBlank b) ∧
        ∀ options, ¬ GivesBlob (signkeyNameFromType type) keyblob line options := by
  have hname : signkeyNameFromType type <+: line → ¬ ∀ b ∈ line, isBlank b := by
    have hs : (115 : UInt8) ∈ signkeyNameFromType type := by cases type <;> decide
    intro hpre hblank
    exact absurd (hblank 115 (hpre.subset hs)) (by decide)
  rw [checkpubkeyLine_eq, if_neg (lookedAt_iff.1 h)]
  -- a line at which the session does not end is not blank
  have hblank {found : Option (Option Bytes × Bytes)}
      (hstart : lineStart (signkeyNameFromType type) line = .ok found) :
      ¬ ∀ b ∈ line, isBlank b := by
    intro hall
    obtain ⟨m, herr⟩ := lineStart_error_iff.2 ⟨fun hpre => hname hpre hall, hall⟩
    rw [hstart] at herr
    cases herr
  rcases hstart : lineStart (signkeyNameFromType type) line with m | _ | ⟨options, rest⟩
  · exact .inl ⟨m, rfl, (lineStart_error_iff.1 ⟨m, hstart⟩).2⟩
  · refine .inr (.inr ⟨rfl, hblank hstart, ?_⟩)
    rintro options ⟨key, hkey, -⟩
    obtain ⟨rest, hstart', -⟩ := lineStart_iff.2 hkey
    rw [hstart] at hstart'
    cases hstart'
  dsimp only
  unfold lineRest
  by_cases hhead : rest.head? = some 32
  swap
  · rw [if_pos hhead]
    refine .inr (.inr ⟨rfl, hblank hstart, ?_⟩)
    rintro options' ⟨key, hkey, -⟩
    obtain ⟨rest', hstart', hhead', -⟩ := lineStart_iff.2 hkey
    rw [hstart] at hstart'
    cases hstart'
    exact hhead hhead'
  have hlen : (rest.tail.takeWhile (· ≠ 32)).length ≤ maxAuthkeysLine := by
    have hrest := length_lineStart hstart
    have htake := (List.takeWhile_prefix (l := rest.tail) (fun c => decide (c ≠ 32))).length_le
    have hline := h.1.2
    rw [List.length_tail] at htake
    omega
  have hgives : GivesKey (signkeyNameFromType type) line options (rest.tail.takeWhile (· ≠ 32)) :=
    lineStart_iff.1 ⟨rest, hstart, hhead, rfl⟩
  rw [if_neg (not_not.2 hhead), cmpBase64Key_eq _ hlen]
  by_cases hkey : rest.tail.takeWhile (· ≠ 32) ≠ [] ∧
      base64Decode (rest.tail.takeWhile (· ≠ 32)) ((rest.tail.takeWhile (· ≠ 32)).length * 2) =
        some keyblob
  · rw [if_pos hkey]
    refine .inr (.inl ⟨options, pubkeyInfo ((rest.tail.dropWhile (· ≠ 32)).drop 1),
      ⟨_, hgives, hkey⟩, ?_⟩)
    rcases blobNames keyblob (signkeyNameFromType type) with m | _ | _ <;> rfl
  · rw [if_neg hkey]
    refine .inr (.inr ⟨rfl, hblank hstart, ?_⟩)
    rintro options' ⟨key, hgives', hkey'⟩
    obtain ⟨-, rfl⟩ := hgives.unique hgives'
    exact hkey hkey'

theorem checkpubkeyLine_of_not_lookedAt (h : ¬ LookedAt algo line) :
    checkpubkeyLine einval line algo keyblob = .ok none := by
  rw [checkpubkeyLine_eq, if_pos (not_not.1 fun hnot => h (lookedAt_iff.2 hnot))]

theorem blobNames_error_iff (algo : Bytes) :
    (∃ m, blobNames keyblob algo = .error m) ↔ Malformed keyblob := by
  unfold blobNames Malformed
  split
  · next h => exact ⟨fun _ => h, fun _ => ⟨_, rfl⟩⟩
  · next h => exact ⟨nofun, fun h' => absurd h' h⟩

theorem blobNames_true_iff : blobNames keyblob algo = .ok true ↔
    ¬ Malformed keyblob ∧ (keyblob.drop 4).take (load32h keyblob) = algo := by
  unfold blobNames Malformed
  split
  · next h => exact ⟨nofun, fun h' => absurd h h'.1⟩
  · next h =>
    rw [Except.ok.injEq, decide_eq_true_eq]
    exact ⟨fun heq => ⟨h, heq⟩, And.right⟩

theorem GivesBlob.unique {options' : Option Bytes} (h : GivesBlob algo keyblob line options)
    (h' : GivesBlob algo keyblob line options') : options = options' := by
  obtain ⟨key, hkey, -⟩ := h
  obtain ⟨key', hkey', -⟩ := h'
  exact (hkey.unique hkey').1

/-- Options that are parsed are well formed. -/
theorem exists_parse_iff : (∃ o, svrParsePubkeyOptions einval options = some o) ↔
    ∀ text ∈ options, ∃ xs o, Reads text xs ∧ Kept einval xs o := by
  cases options with
  | none => exact ⟨fun _ => nofun, fun _ => ⟨{}, rfl⟩⟩
  | some text =>
    constructor
    · rintro ⟨o, ho⟩ text' htext
      obtain rfl := Option.some_inj.1 htext
      obtain ⟨xs, hxs⟩ := parse_eq_some_iff.1 ho
      exact ⟨xs, o, hxs⟩
    · intro h
      obtain ⟨xs, o, hxs⟩ := h text rfl
      exact ⟨o, parse_eq_some_iff.2 ⟨xs, hxs⟩⟩

/-- **The lines that end the session.** -/
theorem checkpubkeyLine_error_iff (einval : Bool) (type : SignkeyType) (keyblob line : Bytes) :
    (∃ m, checkpubkeyLine einval line (signkeyNameFromType type) keyblob = .error m) ↔
      Fatal (signkeyNameFromType type) keyblob line := by
  by_cases hlook : LookedAt (signkeyNameFromType type) line
  swap
  · rw [checkpubkeyLine_of_not_lookedAt hlook]
    exact iff_of_false (not_error none) fun h => hlook h.1
  rcases checkpubkeyLine_cases keyblob hlook with ⟨m, herr, hall⟩ |
    ⟨options, info, hgives, hline⟩ | ⟨hline, hblank, hno⟩
  · exact ⟨fun _ => ⟨hlook, .inl hall⟩, fun _ => ⟨m, herr⟩⟩
  · rw [hline]
    constructor
    · rintro ⟨m, herr⟩
      refine ⟨hlook, .inr ⟨⟨options, hgives⟩,
        (blobNames_error_iff (signkeyNameFromType type)).1 ?_⟩⟩
      rcases hnames : blobNames keyblob (signkeyNameFromType type) with m' | ok
      · exact ⟨m', rfl⟩
      · rw [hnames] at herr
        cases ok <;> cases herr
    · rintro ⟨-, hall | ⟨-, hmalformed⟩⟩
      · obtain ⟨key, hkey, -⟩ := hgives
        exact absurd hall hkey.not_blank
      · obtain ⟨m, herr⟩ := (blobNames_error_iff (signkeyNameFromType type)).2 hmalformed
        rw [herr]
        exact ⟨m, rfl⟩
  · rw [hline]
    refine iff_of_false (not_error none) ?_
    rintro ⟨-, hall | ⟨⟨options, hgives⟩, -⟩⟩
    · exact absurd hall hblank
    · exact absurd hgives (hno options)

/-- **The lines that are accepted.** -/
theorem checkpubkeyLine_some_iff (einval : Bool) (type : SignkeyType) (keyblob line : Bytes) :
    (∃ o, checkpubkeyLine einval line (signkeyNameFromType type) keyblob = .ok (some o)) ↔
      Accepts einval (signkeyNameFromType type) keyblob line := by
  by_cases hlook : LookedAt (signkeyNameFromType type) line
  swap
  · rw [checkpubkeyLine_of_not_lookedAt hlook]
    exact iff_of_false not_some fun h => hlook h.1
  rcases checkpubkeyLine_cases keyblob hlook with ⟨m, herr, hall⟩ |
    ⟨options, info, hgives, hline⟩ | ⟨hline, hblank, hno⟩
  · rw [herr]
    refine iff_of_false ?_ ?_
    · rintro ⟨o, ho⟩
      cases ho
    rintro ⟨-, options, ⟨key, hkey, -⟩, -⟩
    exact absurd hall hkey.not_blank
  · rw [hline]
    constructor
    · rintro ⟨o, hok⟩
      rcases hnames : blobNames keyblob (signkeyNameFromType type) with m' | ok
      · rw [hnames] at hok
        cases hok
      rw [hnames] at hok
      cases ok with
      | false => cases hok
      | true =>
        obtain ⟨o', ho', -⟩ := Option.map_eq_some_iff.1 (Except.ok.inj hok)
        obtain ⟨hgood, hname⟩ := blobNames_true_iff.1 hnames
        exact ⟨hlook, options, hgives, hgood, hname, exists_parse_iff.1 ⟨o', ho'⟩⟩
    · rintro ⟨-, options', hgives', hgood, hname, hoptions⟩
      obtain rfl := hgives.unique hgives'
      obtain ⟨o, ho⟩ := exists_parse_iff.2 hoptions
      rw [blobNames_true_iff.2 ⟨hgood, hname⟩, ho]
      exact ⟨_, rfl⟩
  · rw [hline]
    refine iff_of_false not_some ?_
    rintro ⟨-, options, hgives, -⟩
    exact absurd hgives (hno options)

end Line

/-! ### The file -/

/-- The first acceptable entry, or none when there is none. -/
def Finds (einval : ℕ → Bool) (algo keyblob : Bytes) (es : List Entry) :
    Option (Entry × PubKeyOptions) → Prop
  | none => ∀ e ∈ es, ¬ Accepts (einval e.start) algo keyblob e.line
  | some (e, _) => Accepts (einval e.start) algo keyblob e.line ∧
      ∃ pre post, es = pre ++ e :: post ∧
        ∀ e' ∈ pre, ¬ Accepts (einval e'.start) algo keyblob e'.line

/-- In front of every entry that ends the session there is one that is accepted. -/
def Shielded (einval : ℕ → Bool) (algo keyblob : Bytes) (es : List Entry) : Prop :=
  ∀ (pre : List Entry) (e : Entry) post, es = pre ++ e :: post → Fatal algo keyblob e.line →
    ∃ e' ∈ pre, Accepts (einval e'.start) algo keyblob e'.line

section File

variable {einval : ℕ → Bool} {algo keyblob : Bytes} {e : Entry} {es : List Entry}
  {type : SignkeyType}

theorem shielded_cons : Shielded einval algo keyblob (e :: es) ↔
    ¬ Fatal algo keyblob e.line ∧
      (Accepts (einval e.start) algo keyblob e.line ∨ Shielded einval algo keyblob es) := by
  constructor
  · intro h
    refine ⟨fun hfatal => ?_, ?_⟩
    · obtain ⟨e', he', -⟩ := h [] e es rfl hfatal
      cases he'
    · by_cases haccepts : Accepts (einval e.start) algo keyblob e.line
      · exact .inl haccepts
      · refine .inr fun pre d post hes hfatal => ?_
        obtain ⟨e', he', hacc⟩ := h (e :: pre) d post (by rw [hes, List.cons_append]) hfatal
        rcases List.mem_cons.1 he' with rfl | he'
        · exact absurd hacc haccepts
        · exact ⟨e', he', hacc⟩
  · rintro ⟨hfatal, h⟩ pre d post hes hd
    cases pre with
    | nil =>
      obtain ⟨rfl, -⟩ := List.cons.inj hes
      exact absurd hd hfatal
    | cons e' pre =>
      obtain ⟨rfl, htail⟩ := List.cons.inj hes
      rcases h with haccepts | h
      · exact ⟨e, List.mem_cons_self, haccepts⟩
      · obtain ⟨e', he', hacc⟩ := h pre d post htail hd
        exact ⟨e', List.mem_cons_of_mem _ he', hacc⟩

theorem Finds.cons {r : Option (Entry × PubKeyOptions)}
    (he : ¬ Accepts (einval e.start) algo keyblob e.line) :
    Finds einval algo keyblob (e :: es) r ↔ Finds einval algo keyblob es r := by
  rcases r with _ | ⟨d, o⟩
  · exact ⟨fun h e' he' => h e' (List.mem_cons_of_mem _ he'),
      fun h => List.forall_mem_cons.2 ⟨he, h⟩⟩
  · refine and_congr_right fun hd => ⟨?_, ?_⟩
    · rintro ⟨pre, post, hes, hpre⟩
      cases pre with
      | nil =>
        obtain ⟨rfl, -⟩ := List.cons.inj hes
        exact absurd hd he
      | cons e' pre =>
        obtain ⟨-, hes⟩ := List.cons.inj hes
        exact ⟨pre, post, hes, fun d hd => hpre d (List.mem_cons_of_mem _ hd)⟩
    · rintro ⟨pre, post, rfl, hpre⟩
      exact ⟨e :: pre, post, rfl, List.forall_mem_cons.2 ⟨he, hpre⟩⟩

/-- The search ends at the first acceptable entry, unless the session ends before. -/
theorem searchEntries_iff :
    (∃ r, searchEntries einval (signkeyNameFromType type) keyblob es = .ok r ∧
        Finds einval (signkeyNameFromType type) keyblob es r) ↔
      Shielded einval (signkeyNameFromType type) keyblob es := by
  induction es with
  | nil => exact ⟨fun _ pre e post h => absurd h (by simp), fun _ => ⟨none, rfl, nofun⟩⟩
  | cons e es ih =>
    have herror := checkpubkeyLine_error_iff (einval e.start) type keyblob e.line
    have hsome := checkpubkeyLine_some_iff (einval e.start) type keyblob e.line
    rw [searchEntries_cons, shielded_cons]
    generalize checkpubkeyLine (einval e.start) e.line (signkeyNameFromType type) keyblob = found
      at herror hsome ⊢
    rcases found with m | _ | o
    · refine iff_of_false ?_ fun h => h.1 (herror.1 ⟨m, rfl⟩)
      rintro ⟨r, hr, -⟩
      cases hr
    · have hclear : ¬ Fatal (signkeyNameFromType type) keyblob e.line := by
        rw [← herror]
        exact not_error _
      have hnot : ¬ Accepts (einval e.start) (signkeyNameFromType type) keyblob e.line := by
        rw [← hsome]
        exact not_some
      dsimp only
      simp only [Finds.cons hnot]
      rw [ih]
      exact ⟨fun h => ⟨hclear, .inr h⟩, fun h => h.2.resolve_left hnot⟩
    · have hclear : ¬ Fatal (signkeyNameFromType type) keyblob e.line := by
        rw [← herror]
        exact not_error _
      have haccepts := hsome.1 ⟨o, rfl⟩
      exact ⟨fun _ => ⟨hclear, .inl haccepts⟩,
        fun _ => ⟨some (e, o), rfl, haccepts, [], es, rfl, nofun⟩⟩

/-- **When `authorized_keys` does not end the session.**  For every content of the file and every
key that is offered, `checkpubkey` returns, and with the first acceptable entry if there is one,
exactly when no entry in front of that one ends the session: one of at least ten bytes (and with
room for the key type) that has only blanks, or one with the offered key if this is malformed.  The
entries are the lines, and of a line that is too long for the buffer its last piece. -/
theorem checkpubkeyBuf_iff (einval : ℕ → Bool) (type : SignkeyType) (keyblob file : Bytes) :
    (∃ r, checkpubkeyBuf einval (signkeyNameFromType type) keyblob file = .ok r ∧
        Finds einval (signkeyNameFromType type) keyblob ((fileLines file).map lastPiece) r) ↔
      Shielded einval (signkeyNameFromType type) keyblob ((fileLines file).map lastPiece) := by
  rw [checkpubkeyBuf_eq, checkpubkeyAt_eq_search]
  exact searchEntries_iff

end File

/-- Ten spaces in front of the line of the key. -/
theorem checkpubkeyBuf_blanks :
    ¬ ∀ (type : SignkeyType) (keyblob file : Bytes),
      ∃ r, checkpubkeyBuf errnoClear (signkeyNameFromType type) keyblob file = .ok r ∧
        Finds errnoClear (signkeyNameFromType type) keyblob ((fileLines file).map lastPiece) r := by
  intro h
  obtain ⟨r, hok, -⟩ := h .rsa (sshString (ascii "ssh-rsa"))
    (ascii "          \nssh-rsa AAAAB3NzaC1yc2E=\n")
  have herr : (checkpubkeyAt errnoClear (ascii "ssh-rsa") (sshString (ascii "ssh-rsa"))
      (ascii "          \nssh-rsa AAAAB3NzaC1yc2E=\n")).toOption = none := by decide
  rw [checkpubkeyBuf_eq] at hok
  change checkpubkeyAt errnoClear (ascii "ssh-rsa") _ _ = _ at hok
  rw [hok] at herr
  cases herr

end Ps4Dropbear
