import Ps4Dropbear.Auth.AuthorizedKeys

/-!
# Entries of `authorized_keys` are whole lines

The lines of the file are the entries that its author wrote.  `EntriesAreLines` says that
`checkpubkey` treats them so: it accepts a key only through a line that accepts it, honours the
first line that does, and looks at nothing else.

Two things in the source break this.  The comment in `buf_getline` announces that an over-long
line is ignored, but only the part that filled the buffer is: the rest of the line is read as a
line of its own, and a line that fits the buffer exactly is dropped as well although
`checkpubkey_line` takes it.  And a line of blanks ends the session before the lines behind it
are looked at.

* `entriesAreLines_iff` : exactly when a file and a key are treated as they should be.
-/

namespace Ps4Dropbear

variable {einval : ℕ → Bool} {algo keyblob file : Bytes}

/-- The line by itself is an entry for the key. -/
def accepts (einval : ℕ → Bool) (algo keyblob : Bytes) (e : Entry) : Bool :=
  match checkpubkeyLine (einval e.start) e.line algo keyblob with
  | .ok (some _) => true
  | _ => false

/-- The line by itself settles the search: it is an entry for the key, or it ends the session.
`buf_getline` does not deliver a line of exactly `MAX_AUTHKEYS_LINE` bytes. -/
def stops (einval : ℕ → Bool) (algo keyblob : Bytes) (e : Entry) : Bool :=
  e.line.length ≠ maxAuthkeysLine ∧ checkpubkeyLine (einval e.start) e.line algo keyblob ≠ .ok none

/-- What `checkpubkey` owes to the author of the file. -/
structure EntriesAreLines (einval : ℕ → Bool) (algo keyblob file : Bytes) : Prop where
  /-- Success comes from a line of the file that is by itself an entry for the key. -/
  sound : ∀ e o, checkpubkeyAt einval algo keyblob file = .ok (some (e, o)) →
    e ∈ fileLines file ∧ minAuthkeysLine ≤ e.line.length ∧ e.line.length ≤ maxAuthkeysLine ∧
      checkpubkeyLine (einval e.start) e.line algo keyblob = .ok (some o)
  /-- The first line that is an entry for the key is honoured. -/
  complete : ∀ e o, (fileLines file).find? (accepts einval algo keyblob) = some e →
    checkpubkeyLine (einval e.start) e.line algo keyblob = .ok (some o) →
    checkpubkeyAt einval algo keyblob file = .ok (some (e, o))
  /-- Nothing but lines of the file is treated as an entry. -/
  whole : ∀ e ∈ checkpubkeyTried einval algo keyblob file, e ∈ fileLines file

/-- The line does not leave a tail that is long enough to be an entry. -/
def ShortTail (e : Entry) : Prop :=
  maxAuthkeysLine < e.line.length → e.line.length % maxAuthkeysLine < minAuthkeysLine

theorem accepts_iff {e : Entry} :
    accepts einval algo keyblob e = true ↔
      ∃ o, checkpubkeyLine (einval e.start) e.line algo keyblob = .ok (some o) := by
  unfold accepts
  split
  · next o h => simp [h]
  · next h => simpa using fun o => h o

/-- The length check of `checkpubkey_line`. -/
theorem length_of_checkpubkeyLine_ne_none {b : Bool} {line : Bytes}
    (h : checkpubkeyLine b line algo keyblob ≠ .ok none) :
    minAuthkeysLine ≤ line.length ∧ line.length ≤ maxAuthkeysLine := by
  constructor
  · exact Nat.le_of_not_lt fun hlt => h (checkpubkeyLine_of_not_gate hlt)
  · exact Nat.le_of_not_lt fun hlt => h (checkpubkeyLine_of_long hlt)

theorem stops_eq_true {e : Entry} :
    stops einval algo keyblob e = true ↔
      e.line.length ≠ maxAuthkeysLine ∧
        checkpubkeyLine (einval e.start) e.line algo keyblob ≠ .ok none := by
  simp [stops]

/-- A line that stops the search reaches it unchanged. -/
theorem lastPiece_of_stops {e : Entry} (h : stops einval algo keyblob e) : lastPiece e = e := by
  obtain ⟨hne, hline⟩ := stops_eq_true.1 h
  have := (length_of_checkpubkeyLine_ne_none hline).2
  exact lastPiece_of_lt (by omega)

/-- A line that does not stop the search and leaves no tail is passed over. -/
theorem lastPiece_of_not_stops {e : Entry} (h : ¬ stops einval algo keyblob e) (ht : ShortTail e) :
    checkpubkeyLine (einval (lastPiece e).start) (lastPiece e).line algo keyblob = .ok none := by
  rcases Nat.lt_trichotomy e.line.length maxAuthkeysLine with hlt | heq | hgt
  · rw [lastPiece_of_lt hlt]
    by_contra hline
    exact h (stops_eq_true.2 ⟨Nat.ne_of_lt hlt, hline⟩)
  · refine checkpubkeyLine_of_not_gate ?_
    rw [length_lastPiece, heq, Nat.mod_self]
    decide
  · refine checkpubkeyLine_of_not_gate ?_
    rw [length_lastPiece]
    exact ht hgt

/-- The search over a file whose lines leave no tails ends at the first line that stops it. -/
theorem searchEntries_lastPiece {es : List Entry}
    (h : ∀ e ∈ es.takeWhile fun e => !stops einval algo keyblob e, ShortTail e) :
    searchEntries einval algo keyblob (es.map lastPiece) =
      match es.find? (stops einval algo keyblob) with
      | none => .ok none
      | some e => searchEntries einval algo keyblob [e] := by
  induction es with
  | nil => rfl
  | cons e es ih =>
    by_cases he : stops einval algo keyblob e
    · obtain ⟨-, hline⟩ := stops_eq_true.1 he
      rw [List.map_cons, lastPiece_of_stops he, List.find?_cons_of_pos he]
      simp only [searchEntries_cons]
      cases hc : checkpubkeyLine (einval e.start) e.line algo keyblob with
      | error m => rfl
      | ok o =>
        cases o with
        | none => exact absurd hc hline
        | some o => rfl
    · rw [List.takeWhile_cons_of_pos (by simpa using he)] at h
      rw [List.map_cons, List.find?_cons_of_neg he,
        searchEntries_cons_of_none (lastPiece_of_not_stops he (h e (by simp)))]
      exact ih fun e' he' => h e' (by simp [he'])

/-- The entries tried on such a file are lines of the file. -/
theorem mem_of_mem_triedEntries_lastPiece {es : List Entry}
    (h : ∀ e ∈ es.takeWhile fun e => !stops einval algo keyblob e, ShortTail e) {e : Entry}
    (he : e ∈ triedEntries einval algo keyblob (es.map lastPiece)) : e ∈ es := by
  induction es with
  | nil => simp [triedEntries] at he
  | cons d es ih =>
    rw [List.map_cons, triedEntries] at he
    by_cases hd : stops einval algo keyblob d
    · obtain ⟨-, hline⟩ := stops_eq_true.1 hd
      rw [lastPiece_of_stops hd, if_pos (length_of_checkpubkeyLine_ne_none hline),
        if_neg hline, List.mem_singleton] at he
      simp [he]
    · rw [List.takeWhile_cons_of_pos (by simpa using hd)] at h
      have hrec := ih fun e' he' => h e' (by simp [he'])
      rw [if_pos (lastPiece_of_not_stops hd (h d (by simp)))] at he
      split_ifs at he with hlen
      · rcases List.mem_cons.1 he with rfl | he
        · -- a piece of at least `MIN_AUTHKEYS_LINE` bytes is a line that fits the buffer
          have hlt : d.line.length < maxAuthkeysLine := by
            have hmod := length_lastPiece d
            have htail := h d (by simp)
            rcases Nat.lt_trichotomy d.line.length maxAuthkeysLine with hlt | heq | hgt
            · exact hlt
            · rw [heq, Nat.mod_self] at hmod
              simp only [minAuthkeysLine] at hlen
              omega
            · have := htail hgt
              omega
          rw [lastPiece_of_lt hlt]
          simp
        · exact List.mem_cons_of_mem _ (hrec he)
      · exact List.mem_cons_of_mem _ (hrec he)

/-- When a line before the end of the search leaves a tail, the first such tail is tried. -/
theorem exists_lastPiece_mem_triedEntries {es : List Entry}
    (h : ¬ ∀ e ∈ es.takeWhile fun e => !stops einval algo keyblob e, ShortTail e) :
    ∃ d ∈ es, ¬ ShortTail d ∧ lastPiece d ∈ triedEntries einval algo keyblob (es.map lastPiece) := by
  induction es with
  | nil => simp at h
  | cons e es ih =>
    have hstop : ¬ stops einval algo keyblob e := by
      intro hs
      rw [List.takeWhile_cons_of_neg (by simpa using hs)] at h
      simp at h
    rw [List.takeWhile_cons_of_pos (by simpa using hstop), List.forall_mem_cons] at h
    rw [List.map_cons, triedEntries]
    by_cases htail : ShortTail e
    · obtain ⟨d, hd, hdt, hmem⟩ := ih fun hall => h ⟨htail, hall⟩
      refine ⟨d, List.mem_cons_of_mem _ hd, hdt, ?_⟩
      rw [if_pos (lastPiece_of_not_stops hstop htail)]
      split_ifs
      · exact List.mem_cons_of_mem _ hmem
      · exact hmem
    · have hlen : minAuthkeysLine ≤ (lastPiece e).line.length ∧
          (lastPiece e).line.length ≤ maxAuthkeysLine := by
        rw [ShortTail, Classical.not_imp, Nat.not_lt] at htail
        rw [length_lastPiece]
        exact ⟨htail.2, Nat.le_of_lt (Nat.mod_lt _ (by decide))⟩
      refine ⟨e, by simp, htail, ?_⟩
      rw [if_pos hlen]
      exact List.mem_cons_self

/-- The tail of an over-long line is not a line of the file. -/
theorem lastPiece_not_mem_fileLines {d : Entry} (hd : d ∈ fileLines file) (h : ¬ ShortTail d) :
    lastPiece d ∉ fileLines file := by
  rw [ShortTail, Classical.not_imp] at h
  have hq : 1 ≤ d.line.length / maxAuthkeysLine :=
    (Nat.one_le_div_iff (by decide)).2 (Nat.le_of_lt h.1)
  have hle := Nat.div_mul_le_self d.line.length maxAuthkeysLine
  refine not_mem_fileLines_of_inside hd ?_ ?_
  · simp only [lastPiece, maxAuthkeysLine] at *
    omega
  · simp only [lastPiece]
    omega

theorem searchEntries_singleton {e e' : Entry} {o : PubKeyOptions} :
    searchEntries einval algo keyblob [e] = .ok (some (e', o)) ↔
      e = e' ∧ checkpubkeyLine (einval e.start) e.line algo keyblob = .ok (some o) := by
  rw [searchEntries_cons]
  cases checkpubkeyLine (einval e.start) e.line algo keyblob with
  | error m => simp
  | ok x => cases x <;> simp [searchEntries]

/-- **When entries are whole lines.**  A file and a key are treated line by line exactly when no
line before the end of the search leaves a tail that can pass for an entry, and the first line
that accepts the key is also the first one that stops the search. -/
theorem entriesAreLines_iff (einval : ℕ → Bool) (algo keyblob file : Bytes) :
    EntriesAreLines einval algo keyblob file ↔
      (∀ e ∈ (fileLines file).takeWhile fun e => !stops einval algo keyblob e,
        maxAuthkeysLine < e.line.length →
          e.line.length % maxAuthkeysLine < minAuthkeysLine) ∧
      ∀ e, (fileLines file).find? (accepts einval algo keyblob) = some e →
        (fileLines file).find? (stops einval algo keyblob) = some e := by
  constructor
  · intro h
    have htails : ∀ e ∈ (fileLines file).takeWhile fun e => !stops einval algo keyblob e,
        ShortTail e := by
      by_contra hne
      obtain ⟨d, hd, htail, hmem⟩ := exists_lastPiece_mem_triedEntries hne
      rw [← checkpubkeyTried_eq] at hmem
      exact lastPiece_not_mem_fileLines hd htail (h.whole _ hmem)
    refine ⟨htails, ?_⟩
    intro e he
    obtain ⟨o, ho⟩ := accepts_iff.1 (List.find?_some he)
    have hres := h.complete e o he ho
    rw [checkpubkeyAt_eq_search, searchEntries_lastPiece htails] at hres
    cases hfind : (fileLines file).find? (stops einval algo keyblob) with
    | none => simp [hfind] at hres
    | some d =>
      rw [hfind] at hres
      rw [(searchEntries_singleton.1 hres).1]
  · rintro ⟨htails, hfirst⟩
    refine ⟨?_, ?_, ?_⟩
    · intro e o hres
      rw [checkpubkeyAt_eq_search, searchEntries_lastPiece htails] at hres
      cases hfind : (fileLines file).find? (stops einval algo keyblob) with
      | none => simp [hfind] at hres
      | some d =>
        rw [hfind] at hres
        obtain ⟨rfl, hline⟩ := searchEntries_singleton.1 hres
        have hlen := length_of_checkpubkeyLine_ne_none (stops_eq_true.1 (List.find?_some hfind)).2
        exact ⟨List.mem_of_find?_eq_some hfind, hlen.1, hlen.2, hline⟩
    · intro e o he ho
      rw [checkpubkeyAt_eq_search, searchEntries_lastPiece htails, hfirst e he]
      exact searchEntries_singleton.2 ⟨rfl, ho⟩
    · intro e he
      rw [checkpubkeyTried_eq] at he
      exact mem_of_mem_triedEntries_lastPiece htails he

/-! ### A comment that grants access -/

/-- A key blob of type `ssh-ed25519`. -/
def sampleBlob : Bytes := sshString (ascii "ssh-ed25519") ++ sshString (List.replicate 32 7)

/-- The entry for `sampleBlob`. -/
def sampleEntry : Bytes :=
  ascii "ssh-ed25519 AAAAC3NzaC1lZDI1NTE5AAAAIAcHBwcHBwcHBwcHBwcHBwcHBwcHBwcHBwcHBwcHBwcH"

/-- One over-long comment whose tail is `sampleEntry`. -/
def longComment : Bytes := List.replicate maxAuthkeysLine 35 ++ sampleEntry

theorem longComment_no_eol : ∀ c ∈ longComment, isEol c = false := by
  intro c hc
  rcases List.mem_append.1 hc with hc | hc
  · rw [List.eq_of_mem_replicate hc]
    rfl
  · have hentry : sampleEntry.all (fun c => !isEol c) = true := by decide
    simpa using List.all_eq_true.1 hentry c hc

/-- The comment is one line, the key is accepted through its tail, and no line accepts it. -/
theorem longComment_not_entriesAreLines :
    checkpubkeyAt errnoClear (ascii "ssh-ed25519") sampleBlob longComment =
        .ok (some (⟨maxAuthkeysLine, sampleEntry⟩, {})) ∧
      fileLines longComment = [⟨0, longComment⟩] ∧
      ¬ EntriesAreLines errnoClear (ascii "ssh-ed25519") sampleBlob longComment := by
  have hlines : fileLines longComment = [⟨0, longComment⟩] := linesFrom_eof longComment_no_eol
  have hpiece : lastPiece ⟨0, longComment⟩ = ⟨maxAuthkeysLine, sampleEntry⟩ := by
    rw [longComment, lastPiece_append (by simp), Nat.zero_add]
    exact lastPiece_of_lt (by decide)
  have hres : checkpubkeyAt errnoClear (ascii "ssh-ed25519") sampleBlob longComment =
      .ok (some (⟨maxAuthkeysLine, sampleEntry⟩, {})) := by
    have hline : checkpubkeyLine false sampleEntry (ascii "ssh-ed25519") sampleBlob =
        .ok (some {}) := by decide
    rw [checkpubkeyAt_eq_search, hlines, List.map_singleton, hpiece]
    exact searchEntries_singleton.2 ⟨rfl, hline⟩
  refine ⟨hres, hlines, ?_⟩
  intro h
  have hmem := (h.sound _ _ hres).1
  rw [hlines, List.mem_singleton, Entry.mk.injEq] at hmem
  exact absurd hmem.1 (by decide)

end Ps4Dropbear
