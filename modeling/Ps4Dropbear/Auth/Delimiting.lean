import Mathlib.Algebra.Ring.Parity
import Ps4Dropbear.Auth.Base64
import Ps4Dropbear.Auth.ParsedOptions

/-!
# Where the options of a line end

`checkpubkey_line` looks for the blank behind the options, and `svr_parse_pubkey_options` for the
quote behind a command.  The parser skips a quote behind a backslash; the scanner does not, because
it clears `escape` before it looks at it, so it counts every quote.

* `QuotesMatch` : the quotes of a text, escaped or not, open and close around its blanks.
* `scanOptions_eq_iff` : the scanner stops at the end of such a text.

**Main result**: a line of options, a key type and a key is accepted with all of its options exactly
when its quotes match so (`options_delimited_iff`).
-/

namespace Ps4Dropbear

/-! ### The scanner -/

/-- There is an even number of quotes, and an odd number of them in front of each blank. -/
def QuotesMatch (text : Bytes) : Prop :=
  Even (text.count 34) ∧
    ∀ (pre : Bytes) c post, text = pre ++ c :: post → isBlank c → Odd (pre.count 34)

/-- `QuotesMatch`, byte by byte, inside quotes or outside. -/
def Delimits : Bool → Bytes → Prop
  | quoted, [] => quoted = false
  | quoted, c :: r => (isBlank c → quoted = true) ∧ Delimits (if c = 34 then !quoted else quoted) r

instance decidableDelimits : (quoted : Bool) → (text : Bytes) → Decidable (Delimits quoted text)
  | quoted, [] => inferInstanceAs (Decidable (quoted = false))
  | quoted, c :: r =>
    have := decidableDelimits (if c = 34 then !quoted else quoted) r
    inferInstanceAs (Decidable ((isBlank c → quoted = true) ∧ Delimits _ r))

section Scan

variable {quoted escape : Bool} {c : UInt8} {text tail : Bytes}

/-- A quote counts whatever is in front of it. -/
theorem scanOptions_cons : scanOptions quoted escape (c :: tail) =
    if !quoted && isBlank c then ([], 1)
    else
      let (o, n) := scanOptions (if c = 34 then !quoted else quoted) (!escape && c == 92) tail
      (c :: o, n) := by
  have hquote : (if !(!escape && c == 92) && c == 34 then !quoted else quoted) =
      if c = 34 then !quoted else quoted := by
    by_cases hc : c = 34
    · subst hc
      cases escape <;> rfl
    · rw [beq_false_of_ne hc, Bool.and_false, if_neg hc]
      rfl
  rw [scanOptions]
  dsimp only
  rw [hquote]

/-- The scanner stops at the blank behind the text. -/
theorem scanOptions_eq_iff (hc : isBlank c) :
    (scanOptions quoted escape (text ++ c :: tail)).1 = text ↔ Delimits quoted text := by
  induction text generalizing quoted escape with
  | nil =>
    rw [List.nil_append, scanOptions_cons, hc, Bool.and_true]
    cases quoted with
    | false => simp [Delimits]
    | true => simp [Delimits]
  | cons d text ih =>
    rw [List.cons_append, scanOptions_cons, Delimits]
    by_cases hstop : (!quoted && isBlank d) = true
    · rw [if_pos hstop]
      obtain ⟨hquoted, hd⟩ := (Bool.and_eq_true _ _).mp hstop
      rw [Bool.not_eq_true'] at hquoted
      simp [hd, hquoted]
    · rw [if_neg hstop]
      have hquoted : isBlank d → quoted = true := by
        intro hd
        cases quoted with
        | false => exact absurd hd hstop
        | true => rfl
      dsimp only
      rw [List.cons.injEq, ih, and_iff_right rfl, and_iff_right hquoted]

theorem scanOptions_snd (hc : isBlank c) (h : Delimits quoted text) :
    (scanOptions quoted escape (text ++ c :: tail)).2 = 1 := by
  induction text generalizing quoted escape with
  | nil =>
    rw [List.nil_append, scanOptions_cons, hc, h]
    rfl
  | cons d text ih =>
    rw [List.cons_append, scanOptions_cons]
    split
    · rfl
    · exact ih h.2

theorem delimits_iff : Delimits quoted text ↔
    (Even (text.count 34) ↔ quoted = false) ∧
      ∀ (pre : Bytes) c post, text = pre ++ c :: post → isBlank c →
        (Odd (pre.count 34) ↔ quoted = false) := by
  induction text generalizing quoted with
  | nil => simp [Delimits]
  | cons d text ih =>
    have heven (l : Bytes) : (Even ((d :: l).count 34) ↔ quoted = false) ↔
        (Even (l.count 34) ↔ (if d = 34 then !quoted else quoted) = false) := by
      by_cases hd : d = 34
      · rw [hd, List.count_cons_self, Nat.even_add_one, if_pos rfl]
        cases quoted <;> simp
      · rw [List.count_cons_of_ne hd, if_neg hd]
    have hodd (l : Bytes) : (Odd ((d :: l).count 34) ↔ quoted = false) ↔
        (Odd (l.count 34) ↔ (if d = 34 then !quoted else quoted) = false) := by
      have h := heven l
      rw [← Nat.not_even_iff_odd, ← Nat.not_even_iff_odd]
      tauto
    rw [Delimits, ih, heven]
    constructor
    · rintro ⟨hblank, heven, hblanks⟩
      refine ⟨heven, ?_⟩
      intro pre c post heq hc
      cases pre with
      | nil =>
        obtain ⟨rfl, -⟩ := List.cons.inj heq
        simp [hblank hc]
      | cons e pre =>
        obtain ⟨rfl, hrest⟩ := List.cons.inj heq
        exact (hodd pre).2 (hblanks pre c post hrest hc)
    · rintro ⟨heven, hblanks⟩
      refine ⟨?_, heven, ?_⟩
      · intro hd
        have h := hblanks [] d text rfl hd
        simpa using h
      · intro pre c post heq hc
        exact (hodd pre).1 (hblanks (d :: pre) c post (congrArg (d :: ·) heq) hc)

theorem delimits_false_iff : Delimits false text ↔ QuotesMatch text := by
  rw [delimits_iff, QuotesMatch]
  simp

end Scan

/-! ### The line -/

/-- The line for a key: options, key type and key, with two blanks between them. -/
def keyLine (options : Bytes) (c c' : UInt8) (type : SignkeyType) (keyblob : Bytes) : Bytes :=
  options ++ c :: (signkeyNameFromType type ++ c' :: base64Encode keyblob)

/-- An option starts with a letter with which no key type starts. -/
theorem head_of_spelled {x : KeyOption} {t : Bytes} (h : x.Spelled t) (hx : x ≠ .empty) :
    ∃ c r, t = c :: r ∧ toLower c ∈ ascii "nrcpv" := by
  have hname {t : Bytes} {name : String} (h : SameName t name)
      (hhead : ((ascii name).map toLower).head?.any (· ∈ ascii "nrcpv") = true) (r : Bytes) :
      ∃ c r', t ++ r = c :: r' ∧ toLower c ∈ ascii "nrcpv" := by
    cases t with
    | nil =>
      rw [← h] at hhead
      cases hhead
    | cons c t =>
      rw [← h] at hhead
      exact ⟨c, t ++ r, rfl, of_decide_eq_true hhead⟩
  cases h with
  | noPortForwarding h | noAgentForwarding h | noX11Forwarding h | noPty h | restrict h
  | noTouchRequired h | verifyRequired h =>
    have hhead := hname h (by decide) []
    rwa [List.append_nil] at hhead
  | command h hv | permitopen h hv | permitlisten h hv =>
    rw [List.append_assoc]
    exact hname h (by decide) _
  | empty => exact absurd rfl hx

/-- So does a text of options. -/
theorem head_of_reads {text : Bytes} {xs : List KeyOption} (h : Reads text xs)
    (hxs : .empty ∉ xs) : ∃ c r, text = c :: r ∧ toLower c ∈ ascii "nrcpv" := by
  cases h with
  | last hx =>
    refine head_of_spelled hx ?_
    rintro rfl
    exact hxs (List.mem_singleton.2 rfl)
  | @cons x t r xs hx hr =>
    obtain ⟨c, r', rfl, hc⟩ := head_of_spelled hx (by
      rintro rfl
      exact hxs List.mem_cons_self)
    exact ⟨c, _, rfl, hc⟩

section Line

variable {text keyblob fields : Bytes} {xs : List KeyOption} {type : SignkeyType} {c c' : UInt8}

/-- The line for a key starts with its options, and not with the key type. -/
theorem lineStart_keyLine_eq (hreads : Reads text xs) (hxs : .empty ∉ xs) :
    lineStart (signkeyNameFromType type) (keyLine text c c' type keyblob) =
      let scanned := scanOptions false false (keyLine text c c' type keyblob)
      let rest := (keyLine text c c' type keyblob).drop (scanned.1.length + scanned.2)
      if signkeyNameFromType type <+: rest ∧
          (signkeyNameFromType type).length + 3 ≤ rest.length then
        .ok (some (some scanned.1, rest.drop (signkeyNameFromType type).length))
      else .ok none := by
  obtain ⟨d, r, rfl, hd⟩ := head_of_reads hreads hxs
  have hname : ∃ n, signkeyNameFromType type = 115 :: n := by
    cases type <;> exact ⟨_, rfl⟩
  have hhead : d ≠ 115 ∧ isBlank d = false ∧ d ≠ 35 := by
    refine ⟨?_, ?_, ?_⟩
    · rintro rfl
      revert hd
      decide
    · rw [← Bool.not_eq_true]
      intro hblank
      rcases (Bool.or_eq_true _ _).mp hblank with h | h
      · rw [eq_of_beq h] at hd
        revert hd
        decide
      · rw [eq_of_beq h] at hd
        revert hd
        decide
    · rintro rfl
      revert hd
      decide
  obtain ⟨hs, hblank, hcomment⟩ := hhead
  generalize hline : keyLine (d :: r) c c' type keyblob = line
  obtain ⟨l, rfl⟩ : ∃ l, line = d :: l := ⟨_, hline.symm⟩
  have hnot : ¬ signkeyNameFromType type <+: d :: l := by
    obtain ⟨n, hn⟩ := hname
    rw [hn, List.cons_prefix_cons]
    exact fun h => hs h.1.symm
  have hdrop : (d :: l).dropWhile isBlank = d :: l :=
    List.dropWhile_cons_of_neg (by simp [hblank])
  unfold lineStart
  rw [if_neg hnot, hdrop]
  dsimp only
  rw [if_neg (List.cons_ne_nil d l), if_neg (by simpa using hcomment)]

/-- **What the scanner finds** in the line for a key. -/
theorem lineStart_keyLine (hreads : Reads text xs) (hxs : .empty ∉ xs) (hc : isBlank c)
    (hkey : 4 ≤ keyblob.length) :
    (QuotesMatch text → lineStart (signkeyNameFromType type) (keyLine text c c' type keyblob) =
        .ok (some (some text, c' :: base64Encode keyblob))) ∧
      ∀ rest, lineStart (signkeyNameFromType type) (keyLine text c c' type keyblob) =
        .ok (some (some text, rest)) → QuotesMatch text := by
  rw [lineStart_keyLine_eq hreads hxs]
  dsimp only
  constructor
  · intro hquotes
    have hdelimits := delimits_false_iff.2 hquotes
    have hscan : scanOptions false false (keyLine text c c' type keyblob) = (text, 1) :=
      Prod.ext ((scanOptions_eq_iff hc).2 hdelimits) (scanOptions_snd hc hdelimits)
    have hrest : (keyLine text c c' type keyblob).drop (text.length + 1) =
        signkeyNameFromType type ++ c' :: base64Encode keyblob := by
      have hsplit : keyLine text c c' type keyblob =
          (text ++ [c]) ++ (signkeyNameFromType type ++ c' :: base64Encode keyblob) := by
        simp [keyLine]
      have hlen : text.length + 1 = (text ++ [c]).length := by simp
      rw [hsplit, hlen, List.drop_left]
    have henough := length_le_length_base64Encode keyblob
    have hroom : (signkeyNameFromType type).length + 3 ≤
        (signkeyNameFromType type ++ c' :: base64Encode keyblob).length := by
      rw [List.length_append, List.length_cons]
      omega
    rw [hscan, hrest, List.drop_left, if_pos ⟨List.prefix_append _ _, hroom⟩]
  · intro rest h
    split at h
    · rw [Except.ok.injEq, Option.some_inj, Prod.mk.injEq, Option.some_inj] at h
      exact delimits_false_iff.1 ((scanOptions_eq_iff hc).1 h.1)
    · cases h

/-- The key itself is read back, and its name is that of the type. -/
theorem cmpBase64Key_encode (hlen : (base64Encode keyblob).length ≤ maxAuthkeysLine)
    (hkey : keyblob = sshString (signkeyNameFromType type) ++ fields) :
    cmpBase64Key keyblob (signkeyNameFromType type) (base64Encode keyblob) = .ok true := by
  have hname : (signkeyNameFromType type).length < 2 ^ 32 := by cases type <;> decide
  have hblob : 4 + (signkeyNameFromType type).length ≤ keyblob.length := by
    rw [hkey, List.length_append, length_sshString]
    exact Nat.le_add_right _ _
  have hne : base64Encode keyblob ≠ [] := by
    have henough := length_le_length_base64Encode keyblob
    intro hnil
    rw [hnil, List.length_nil] at henough
    omega
  have hload : load32h keyblob = (signkeyNameFromType type).length := by
    rw [hkey, sshString, List.append_assoc, load32h_store32h, Nat.mod_eq_of_lt hname]
  have hdrop : keyblob.drop 4 = signkeyNameFromType type ++ fields := by
    rw [hkey, sshString, List.append_assoc]
    rfl
  rw [cmpBase64Key_eq _ hlen, if_pos ⟨hne, base64Decode_encode keyblob⟩, blobNames, hload,
    if_neg (by omega), hdrop, List.take_left, decide_eq_true rfl]

/-- The line for a key, when its options are found. -/
theorem checkpubkeyLine_keyLine {einval : Bool} {o : PubKeyOptions}
    (hparse : svrParsePubkeyOptions einval (some text) = some o) (hinfo : o.infoEnv = none)
    (htext : (0 : UInt8) ∉ text) (hc : isBlank c) (hc' : isBlank c')
    (hkey : keyblob = sshString (signkeyNameFromType type) ++ fields)
    (hlen : (keyLine text c c' type keyblob).length < 4200)
    (hstart : lineStart (signkeyNameFromType type) (keyLine text c c' type keyblob) =
      .ok (some (some text, c' :: base64Encode keyblob))) :
    checkpubkeyLine einval (keyLine text c c' type keyblob) (signkeyNameFromType type) keyblob =
      if c' = 32 then .ok (some o) else .ok none := by
  have hblank {b : UInt8} (hb : isBlank b) : b ≠ 0 := by
    rintro rfl
    cases hb
  have hblob : 4 + (signkeyNameFromType type).length ≤ keyblob.length := by
    rw [hkey, List.length_append, length_sshString]
    exact Nat.le_add_right _ _
  have hencoded := length_le_length_base64Encode keyblob
  have hname : 7 ≤ (signkeyNameFromType type).length := by cases type <;> decide
  have hline : (keyLine text c c' type keyblob).length = text.length +
      ((signkeyNameFromType type).length + ((base64Encode keyblob).length + 1) + 1) := by
    rw [keyLine, List.length_append, List.length_cons, List.length_append, List.length_cons]
  have hnul : (0 : UInt8) ∉ keyLine text c c' type keyblob := by
    have htype : (0 : UInt8) ∉ signkeyNameFromType type := by cases type <;> decide
    have hencode : (0 : UInt8) ∉ base64Encode keyblob :=
      fun h => absurd (le_of_mem_base64Encode keyblob 0 h) (by decide)
    simp only [keyLine, List.mem_append, List.mem_cons, not_or]
    exact ⟨htext, (hblank hc).symm, htype, (hblank hc').symm, hencode⟩
  have hmin : minAuthkeysLine = 10 := rfl
  have hmax : maxAuthkeysLine = 4200 := rfl
  have hshort : ¬ ((keyLine text c c' type keyblob).length < minAuthkeysLine ∨
      (keyLine text c c' type keyblob).length > maxAuthkeysLine ∨
      (0 : UInt8) ∈ keyLine text c c' type keyblob ∨
      (keyLine text c c' type keyblob).length < (signkeyNameFromType type).length + 3) := by
    rintro (h | h | h | h)
    · omega
    · omega
    · exact hnul h
    · omega
  rw [checkpubkeyLine_eq, if_neg hshort, hstart]
  dsimp only
  unfold lineRest
  rw [List.head?_cons, List.tail_cons]
  by_cases hspace : c' = 32
  · have hnone : ∀ b ∈ base64Encode keyblob, decide (b ≠ 32) = true := by
      intro b hb
      refine decide_eq_true ?_
      rintro rfl
      exact absurd (le_of_mem_base64Encode keyblob 32 hb) (by decide)
    rw [if_neg (not_not.2 (congrArg some hspace)), if_pos hspace,
      List.takeWhile_eq_self_iff.2 hnone, List.dropWhile_eq_nil_iff.2 hnone,
      cmpBase64Key_encode (by omega) hkey, hparse]
    change Except.ok (some { o with infoEnv := none }) = Except.ok (some o)
    rw [← hinfo]
  · rw [if_pos fun h => hspace (Option.some_inj.1 h), if_neg hspace]

end Line

/-- **When the options of a line are found.**  The text is a list of options with well-formed values
and at most one command, of which none is empty.  The line of the options, a key type and a key is
accepted for the key, with all of the options and nothing else, exactly when the blank in front of
the key is a space and the quotes of the options match, each of them counted. -/
theorem options_delimited_iff {einval : Bool} {text fields : Bytes} {xs : List KeyOption}
    {o : PubKeyOptions} (type : SignkeyType) {c c' : UInt8} (hreads : Reads text xs) (hxs : .empty ∉ xs)
    (hparse : svrParsePubkeyOptions einval (some text) = some o)
    (htext : ∀ b ∈ text, b ≠ 0 ∧ b ≠ 10 ∧ b ≠ 13) (hc : isBlank c) (hc' : isBlank c')
    (hlen :
      (keyLine text c c' type (sshString (signkeyNameFromType type) ++ fields)).length < 4200) :
    (checkpubkeyLine einval (keyLine text c c' type (sshString (signkeyNameFromType type) ++ fields))
          (signkeyNameFromType type) (sshString (signkeyNameFromType type) ++ fields) = .ok (some o) ∧
        ∃ rest, lineStart (signkeyNameFromType type)
          (keyLine text c c' type (sshString (signkeyNameFromType type) ++ fields)) =
            .ok (some (some text, rest))) ↔
      c' = 32 ∧ QuotesMatch text := by
  have hkey : 4 ≤ (sshString (signkeyNameFromType type) ++ fields).length := by
    rw [List.length_append, length_sshString]
    omega
  have hinfo : o.infoEnv = none := by
    obtain ⟨_, _, hkept⟩ := parse_eq_some_iff.1 hparse
    exact hkept.infoEnv
  have hnul : (0 : UInt8) ∉ text := fun h => (htext 0 h).1 rfl
  obtain ⟨hfound, hmatch⟩ := @lineStart_keyLine text _ xs type c c' hreads hxs hc hkey
  constructor
  · rintro ⟨hline, rest, hstart⟩
    have hquotes := hmatch rest hstart
    refine ⟨?_, hquotes⟩
    rw [checkpubkeyLine_keyLine hparse hinfo hnul hc hc' rfl hlen (hfound hquotes)] at hline
    by_contra hspace
    rw [if_neg hspace] at hline
    cases hline
  · rintro ⟨hspace, hquotes⟩
    refine ⟨?_, _, hfound hquotes⟩
    rw [checkpubkeyLine_keyLine hparse hinfo hnul hc hc' rfl hlen (hfound hquotes), if_pos hspace]

/-- A command with blanks and with two quotes, between which there is no blank, and a flag. -/
theorem options_delimited_command :
    let text := ascii "command=\"echo \\\"a\\\" b\",no-pty"
    let keyblob := sshString (ascii "ssh-rsa") ++ []
    checkpubkeyLine true (keyLine text 32 32 .rsa keyblob) (ascii "ssh-rsa") keyblob =
        .ok (some { forcedCommand := some (ascii "echo \\\"a\\\" b"), noPtyFlag := true }) ∧
      ∃ rest, lineStart (ascii "ssh-rsa") (keyLine text 32 32 .rsa keyblob) =
        .ok (some (some text, rest)) := by
  intro text keyblob
  have hvalue : Quotable (ascii "echo \\\"a\\\" b") := by
    repeat' first | exact .nil | refine .escaped ?_ | refine .plain (by decide) (by decide) ?_
  have hreads : Reads text [.command (ascii "echo \\\"a\\\" b"), .noPty] :=
    .cons (.command (t := ascii "command=\"") rfl hvalue) (.last (.noPty rfl))
  have hbytes : ∀ b ∈ text, b ≠ 0 ∧ b ≠ 10 ∧ b ≠ 13 := by simp [text, ascii]
  exact (options_delimited_iff .rsa hreads (by decide) (by decide) hbytes rfl rfl
    (by decide)).2 ⟨rfl, delimits_false_iff.1 (by decide)⟩

/-- A command with a quote in it, and a blank behind the quote. -/
theorem options_delimited_quote :
    ¬ ∀ (text : Bytes) (xs : List KeyOption) (o : PubKeyOptions) (type : SignkeyType)
        (fields : Bytes), Reads text xs → .empty ∉ xs →
      svrParsePubkeyOptions false (some text) = some o →
      (∀ b ∈ text, b ≠ 0 ∧ b ≠ 10 ∧ b ≠ 13) →
      (keyLine text 32 32 type (sshString (signkeyNameFromType type) ++ fields)).length < 4200 →
      checkpubkeyLine false (keyLine text 32 32 type (sshString (signkeyNameFromType type) ++ fields))
          (signkeyNameFromType type) (sshString (signkeyNameFromType type) ++ fields) =
            .ok (some o) ∧
        ∃ rest, lineStart (signkeyNameFromType type)
          (keyLine text 32 32 type (sshString (signkeyNameFromType type) ++ fields)) =
            .ok (some (some text, rest)) := by
  intro h
  have hvalue : Quotable (ascii "a\\\" b") :=
    .plain (by decide) (by decide) (.escaped (.plain (by decide) (by decide)
      (.plain (by decide) (by decide) .nil)))
  have hreads : Reads (ascii "command=\"a\\\" b\"") [.command (ascii "a\\\" b")] :=
    .last (.command (t := ascii "command=\"") rfl hvalue)
  obtain ⟨-, rest, hstart⟩ := h _ _ { forcedCommand := some (ascii "a\\\" b") } .rsa [] hreads
    (by decide) (by decide) (by simp [ascii]) (by decide)
  have hquotes := (lineStart_keyLine hreads (by decide) (by decide) (by decide)).2 rest hstart
  exact absurd hquotes.1 (by decide)

end Ps4Dropbear
