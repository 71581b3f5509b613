import Ps4Dropbear.Auth.AuthorizedKeys

/-!
# A line of `authorized_keys`, without positions

`checkpubkey_line` moves a position through a buffer.  Here it is a function of the bytes of the
line: where the options end, what stands behind them, and the two places where a read can fail.

* `lineStart` : the options of a line and what is behind the name of the algorithm.
* `blobNames` : the comparison of the name in a decoded key.
* `checkpubkeyLine_eq` : **the line is looked at in these two steps.**
-/

namespace Ps4Dropbear

/-- The start of a line: the options, and the line behind the name of the algorithm.  A line that
has only blanks is read past its end. -/
def lineStart (algo line : Bytes) : Except Exit (Option (Option Bytes × Bytes)) :=
  if algo <+: line then .ok (some (none, line.drop algo.length))
  else
    let text := line.dropWhile isBlank
    if text = [] then .error "Bad buf_getptr"
    else if text.head? = some 35 then .ok none
    else
      let (options, sep) := scanOptions false false text
      let rest := text.drop (options.length + sep)
      if algo <+: rest ∧ algo.length + 3 ≤ rest.length then
        .ok (some (some options, rest.drop algo.length))
      else .ok none

/-- The name in the key `blob` is that of the algorithm; a key without a name is read past its
end. -/
def blobNames (blob algo : Bytes) : Except Exit Bool :=
  if blob.length < 4 ∨ blob.length < 4 + load32h blob then .error "Bad buf_getptr"
  else .ok ((blob.drop 4).take (load32h blob) = algo)

theorem length_scanOptions (quoted escape : Bool) (text : Bytes) :
    (scanOptions quoted escape text).1.length + (scanOptions quoted escape text).2 ≤ text.length := by
  induction text generalizing quoted escape with
  | nil => exact le_refl 0
  | cons c r ih =>
    rw [scanOptions]
    split
    · exact Nat.le_add_left 1 r.length
    · dsimp only
      have h := ih (if !(!escape && c == 92) && c == 34 then !quoted else quoted)
        (!escape && c == 92)
      rw [List.length_cons, List.length_cons]
      omega

section Line

variable {line algo keyblob : Bytes}

/-- The comparison of the next bytes with the algorithm. -/
theorem bufGetptr_algo {b : Buffer} (h : algo.length ≤ b.rest.length) :
    ∃ p, bufGetptr b algo.length = .ok p ∧ (p = algo ↔ algo <+: b.rest) := by
  refine ⟨b.rest.take algo.length, by rw [bufGetptr_eq, if_pos h], ?_⟩
  rw [List.prefix_iff_eq_take]
  exact eq_comm

/-- The check that there is room behind the position. -/
theorem pos_add_gt_iff {b : Buffer} {n : ℕ} : b.pos + n > b.len ↔ b.rest.length < n := by
  have hpos := b.pos_le
  rw [Buffer.length_rest]
  omega

theorem advance_takeWhile {b : Buffer} (p : UInt8 → Bool) :
    (b.advance (b.rest.takeWhile p).length).rest = b.rest.dropWhile p :=
  Buffer.rest_advance_of_append List.takeWhile_append_dropWhile.symm

/-- **Both find the same start of the line.** -/
theorem findAlgo_cases {b : Buffer} (h : algo.length + 3 ≤ b.rest.length) :
    (findAlgo b algo = .ok none ∧ lineStart algo b.rest = .ok none) ∨
      (∃ m, findAlgo b algo = .error m ∧ lineStart algo b.rest = .error m) ∨
      ∃ options b', findAlgo b algo = .ok (some (options, b')) ∧
        algo.length + 3 ≤ b'.rest.length ∧
        lineStart algo b.rest = .ok (some (options, b'.rest.drop algo.length)) := by
  obtain ⟨p, hp, hpalgo⟩ := bufGetptr_algo (Nat.le_of_add_right_le h)
  unfold findAlgo lineStart
  rw [hp, ok_bind]
  by_cases halgo : p = algo
  · rw [if_pos halgo, if_pos (hpalgo.1 halgo)]
    exact .inr (.inr ⟨none, b, rfl, h, rfl⟩)
  rw [if_neg halgo, if_neg fun hpre => halgo (hpalgo.2 hpre)]
  unfold skipOptions
  rw [bufIncrpos_eq, if_pos (List.takeWhile_prefix _).length_le, ok_bind,
    ← advance_takeWhile (b := b) isBlank]
  generalize b.advance (b.rest.takeWhile isBlank).length = b₁
  dsimp only
  by_cases htext : b₁.rest = []
  · rw [if_pos htext, if_neg (by simp [htext]), bufGetptr_eq, if_neg (by simp [htext])]
    exact .inr (.inl ⟨_, rfl, rfl⟩)
  rw [if_neg htext]
  by_cases hcomment : b₁.rest.head? = some 35
  · rw [if_pos hcomment, if_pos hcomment]
    exact .inl ⟨rfl, rfl⟩
  have hpos : 1 ≤ b₁.rest.length := List.length_pos_of_ne_nil htext
  rw [if_neg hcomment, if_neg hcomment, bufGetptr_eq, if_pos hpos, ok_bind]
  have hscan := length_scanOptions false false b₁.rest
  generalize scanOptions false false b₁.rest = scanned at hscan ⊢
  obtain ⟨options, sep⟩ := scanned
  dsimp only at hscan ⊢
  rw [bufIncrpos_eq, if_pos hscan, ok_bind, ← Buffer.rest_advance]
  generalize b₁.advance (options.length + sep) = b₂
  by_cases hroom : algo.length + 3 ≤ b₂.rest.length
  · rw [Nat.add_assoc, if_neg fun hgt => absurd (pos_add_gt_iff.1 hgt) (Nat.not_lt.2 hroom)]
    obtain ⟨q, hq, hqalgo⟩ := bufGetptr_algo (Nat.le_of_add_right_le hroom)
    rw [hq, ok_bind]
    by_cases hfound : q = algo
    · rw [if_neg (not_not.2 hfound), if_pos ⟨hqalgo.1 hfound, hroom⟩]
      exact .inr (.inr ⟨some options, b₂, rfl, hroom, rfl⟩)
    · rw [if_pos hfound, if_neg fun h => hfound (hqalgo.2 h.1)]
      exact .inl ⟨rfl, rfl⟩
  · rw [Nat.add_assoc, if_pos (pos_add_gt_iff.2 (Nat.lt_of_not_le hroom)),
      if_neg fun h => hroom h.2]
    exact .inl ⟨rfl, rfl⟩

theorem blobNames_eq (b : Buffer) :
    (do
      let (filealgolen, decodekey) ← bufGetint b
      let filealgo ← bufGetptr decodekey filealgolen
      return (filealgo = algo : Bool)) = blobNames b.rest algo := by
  unfold blobNames bufGetint
  rw [bufGetptr_eq, bufIncrpos_eq]
  by_cases hfour : 4 ≤ b.rest.length
  · rw [if_pos hfour, if_pos hfour, ok_bind, ok_bind]
    change (do
      let filealgo ← bufGetptr (b.advance 4) (load32h (b.rest.take 4))
      return (filealgo = algo : Bool)) = _
    rw [load32h_take _ (le_refl 4), bufGetptr_eq, Buffer.rest_advance, List.length_drop]
    by_cases hname : load32h b.rest ≤ b.rest.length - 4
    · rw [if_pos hname, if_neg fun h => h.elim (Nat.not_lt.2 hfour) (by omega)]
      rfl
    · rw [if_neg hname, if_pos (by omega)]
      rfl
  · rw [if_neg hfour, if_pos (Or.inl (Nat.lt_of_not_le hfour))]
    rfl

/-- The comparison of the names. -/
theorem cmpBase64Key_eq (text : Bytes) (hlen : text.length ≤ maxAuthkeysLine) :
    cmpBase64Key keyblob algo text =
      if text ≠ [] ∧ base64Decode text (text.length * 2) = some keyblob then blobNames keyblob algo
      else .ok false := by
  unfold cmpBase64Key
  by_cases htext : text = []
  · rw [if_pos (by rw [htext]; rfl), if_neg fun h => h.1 htext]
  rw [if_neg fun h => htext (List.eq_nil_of_length_eq_zero h)]
  cases hdecoded : base64Decode text (text.length * 2) with
  | none => rw [if_neg fun h => by cases h.2]
  | some decoded =>
    dsimp only
    by_cases heq : decoded = keyblob
    · subst heq
      have hsize : ¬ decoded.length > bufMaxSize := by
        have hroom := (Option.filter_eq_some_iff.1 hdecoded).2
        have hmax : maxAuthkeysLine = 4200 := rfl
        have hbuf : bufMaxSize = 1000000000 := rfl
        rw [decide_eq_true_eq] at hroom
        omega
      rw [if_neg (by simp), if_pos ⟨htext, rfl⟩, bufOfBytes, dif_neg hsize, ok_bind]
      exact (blobNames_eq _).trans (by rw [Buffer.rest_ofBytes])
    · rw [if_pos heq, if_neg fun h => heq (Option.some_inj.1 h.2)]

/-- The end of `checkpubkey_line`, behind the name of the algorithm. -/
def lineRest (einval : Bool) (algo keyblob : Bytes) (options : Option Bytes) (rest : Bytes) :
    Except Exit (Option PubKeyOptions) :=
  if rest.head? ≠ some 32 then .ok none
  else do
    if ← cmpBase64Key keyblob algo (rest.tail.takeWhile (· ≠ 32)) then
      return (svrParsePubkeyOptions einval options).map fun o =>
        { o with infoEnv := pubkeyInfo ((rest.tail.dropWhile (· ≠ 32)).drop 1) }
    else return none

/-- **A line**, without positions. -/
theorem checkpubkeyLine_eq {einval : Bool} :
    checkpubkeyLine einval line algo keyblob =
      if line.length < minAuthkeysLine ∨ line.length > maxAuthkeysLine ∨ (0 : UInt8) ∈ line ∨
        line.length < algo.length + 3 then .ok none
      else match lineStart algo line with
        | .error m => .error m
        | .ok none => .ok none
        | .ok (some (options, rest)) => lineRest einval algo keyblob options rest := by
  unfold checkpubkeyLine
  by_cases hlen : line.length < minAuthkeysLine ∨ line.length > maxAuthkeysLine
  · rw [if_pos hlen, if_pos (hlen.imp_right .inl)]
  by_cases hnul : (0 : UInt8) ∈ line
  · rw [if_neg hlen, if_pos hnul, if_pos (.inr (.inr (.inl hnul)))]
  obtain ⟨hmin, hmax⟩ := not_or.1 hlen
  have hsize : ¬ line.length > bufMaxSize := by
    have hline : maxAuthkeysLine = 4200 := rfl
    have hbuf : bufMaxSize = 1000000000 := rfl
    omega
  rw [if_neg hlen, if_neg hnul, bufOfBytes, dif_neg hsize, ok_bind]
  generalize hb : Buffer.ofBytes line (Nat.le_of_not_lt hsize) = b
  have hrest : b.rest = line := by rw [← hb, Buffer.rest_ofBytes]
  by_cases hroom : line.length < algo.length + 3
  · rw [Nat.add_assoc, if_pos (pos_add_gt_iff.2 (hrest ▸ hroom)),
      if_pos (.inr (.inr (.inr hroom)))]
    rfl
  have hshort : ¬ (line.length < minAuthkeysLine ∨ line.length > maxAuthkeysLine ∨
      (0 : UInt8) ∈ line ∨ line.length < algo.length + 3) := by
    tauto
  rw [Nat.add_assoc, if_neg fun h => hroom (hrest ▸ pos_add_gt_iff.1 h), if_neg hshort]
  rw [← hrest, Nat.not_lt] at hroom
  rcases findAlgo_cases hroom with ⟨hfind, hstart⟩ | ⟨m, hfind, hstart⟩ |
    ⟨options, b', hfind, hroom', hstart⟩
  · rw [hfind, ← hrest, hstart]
    rfl
  · rw [hfind, ← hrest, hstart]
    rfl
  · rw [hfind, ← hrest, hstart, ok_bind]
    dsimp only
    rw [bufIncrpos_eq, if_pos (Nat.le_of_add_right_le hroom'), ok_bind, ← Buffer.rest_advance]
    have hpos : 0 < (b'.advance algo.length).rest.length := by
      rw [Buffer.rest_advance, List.length_drop]
      omega
    generalize b'.advance algo.length = b₁ at hpos
    obtain ⟨c, r, hr⟩ := List.exists_cons_of_ne_nil (List.ne_nil_of_length_pos hpos)
    have hbyte : bufGetbyte b₁ = .ok (c, b₁.advance 1) := by
      unfold bufGetbyte
      rw [hr]
    have hr₁ : (b₁.advance 1).rest = r := by
      rw [Buffer.rest_advance, hr, List.drop_one, List.tail_cons]
    unfold lineRest
    rw [hbyte, ok_bind, hr, List.head?_cons, List.tail_cons]
    dsimp only
    rw [hr₁]
    by_cases hc : c = 32
    · rw [if_neg (not_not.2 hc), if_neg (not_not.2 (congrArg some hc))]
    · rw [if_pos hc, if_pos fun h => hc (Option.some_inj.1 h)]
      rfl

end Line

end Ps4Dropbear
