import Ps4Dropbear.Auth.CheckedOptions
import Ps4Dropbear.Buffer.Content

/-!
# `checkpubkey_line` with every access checked

The source moves through the line, the options and the decoded key with accessors that end the
session when they are used wrongly.  Here each of them stands where the source has it.

* `skipLineBlanks`, `skipOptionsBuf`, `cmpBase64KeyBuf`, `pubkeyInfoBuf`, `checkpubkeyLineBuf` : the
  functions on buffers.
* `getlineBuf`, `checkpubkeyLoopBuf` : the loop over the file, with its line buffer.

**Main result**: they do what the functions on byte strings do, so no access fails that those leave
out (`checkpubkeyLineBuf_eq`, `checkpubkeyBuf_eq`).
-/

namespace Ps4Dropbear

/-! ### The start of a line -/

/-- The loop over the blanks in front of the options; `none` is a comment. -/
def skipLineBlanks : ℕ → Buffer → Except Exit (Option Buffer)
  | 0, line => .ok (some line)
  | n + 1, line =>
    if line.pos < line.len then do
      let (c, line) ← bufGetbyte line
      if isBlank c then skipLineBlanks n line
      else if c = 35 then return none
      else
        let line ← bufDecrpos line 1
        return some line
    else .ok (some line)

/-- A round of the loop that finds the end of the options, with `quoted` and `escape`. -/
def optionsStep (s : Bool × Bool) (c : UInt8) : Option (Bool × Bool) :=
  if !s.1 && isBlank c then none
  else
    let escape := !s.2 && c == 92
    some (if !escape && c == 34 then !s.1 else s.1, escape)

/-- The branch of `checkpubkey_line` for a line that does not start with the algorithm. -/
def skipOptionsBuf (line : Buffer) (algo : Bytes) : Except Exit (Option (Buffer × Buffer)) := do
  match ← skipLineBlanks (line.len - line.pos) line with
  | none => return none
  | some line =>
    let _ ← bufGetptr line 1
    let (options, _, line) ← getLoop optionsStep (line.len - line.pos) (false, false) line
    let optionsBuf ← bufNew options.length
    let optionsBuf ← bufPutbytes optionsBuf options
    if line.pos + algo.length + 3 > line.len then return none
    else
      let p ← bufGetptr line algo.length
      if p ≠ algo then return none else return some (optionsBuf, line)

/-- The comparison of the algorithm in `checkpubkey_line`. -/
def findAlgoBuf (line : Buffer) (algo : Bytes) :
    Except Exit (Option (Option Buffer × Buffer)) := do
  let p ← bufGetptr line algo.length
  if p = algo then return some (none, line)
  else
    let found ← skipOptionsBuf line algo
    return found.map fun (o, line) => (some o, line)

/-! ### The key -/

/-- `cmp_base64_key` without a fingerprint. -/
def cmpBase64KeyBuf (keyblob algoname : Bytes) (line : Buffer) : Except Exit Bool :=
  let len := line.len - line.pos
  if len = 0 then .ok false
  else do
    let decodekey ← bufNew (len * 2)
    let text ← bufGetptr line len
    let _ ← bufGetwriteptr decodekey decodekey.data.length
    match base64Decode text (len * 2) with
    | none => return false
    | some decoded =>
      let decodekey ← bufOverwrite decodekey decodekey.data.length decoded
      let decodekey ← bufIncrlen decodekey decoded.length
      if decoded.length ≠ keyblob.length then return false
      else
        let p ← bufGetptr decodekey decodekey.len
        if p ≠ keyblob then return false
        else
          let (filealgolen, decodekey) ← bufGetint decodekey
          let filealgo ← bufGetptr decodekey filealgolen
          return (filealgo = algoname)

/-- The text behind the key.  A character that is not allowed sets `infolen` to 0. -/
def pubkeyInfoBuf (line : Buffer) : Except Exit (Option Bytes × Buffer) := do
  let infopos := line.pos
  let (info, stop, line) ←
    getLoop (stopAt fun c => c == 32 || !isInfoChar c) (line.len - line.pos) () line
  let infolen := if stop = none ∨ stop = some 32 then info.length else 0
  if infolen > 0 then
    let line ← bufSetpos line infopos
    let p ← bufGetptr line infolen
    return (some p, line)
  else return (none, line)

/-- The end of `checkpubkey_line`, behind the name of the algorithm. -/
def lineRestBuf (einval : Bool) (algo keyblob : Bytes) (optionsBuf : Option Buffer)
    (line : Buffer) :
    Except Exit (Option PubKeyOptions) := do
  let (c, line) ← bufGetbyte line
  -- space character expected
  if c ≠ 32 then return none
  else
    let pos := line.pos
    let (key, _, line) ← getLoop (stopAt (· == 32)) (line.len - line.pos) () line
    let (info, line) ← pubkeyInfoBuf line
    -- truncate to base64 data length
    let line ← bufSetpos line pos
    let line ← bufSetlen line (line.pos + key.length)
    if ← cmpBase64KeyBuf keyblob algo line then
      let options ← svrParsePubkeyOptionsBuf einval optionsBuf
      return options.map fun o => { o with infoEnv := info }
    else return none

/-- `checkpubkey_line`. -/
def checkpubkeyLineBuf (einval : Bool) (line : Buffer) (algo keyblob : Bytes) :
    Except Exit (Option PubKeyOptions) :=
  if line.len < minAuthkeysLine ∨ line.len > maxAuthkeysLine then .ok none
  else if (0 : UInt8) ∈ line.contents then .ok none
  else if line.pos + algo.length + 3 > line.len then .ok none
  else do
    match ← findAlgoBuf line algo with
    | none => return none
    | some (optionsBuf, line) =>
      let line ← bufIncrpos line algo.length
      lineRestBuf einval algo keyblob optionsBuf line

section Line

variable {einval : Bool} {b line : Buffer} {algo keyblob : Bytes} {n : ℕ}

theorem drop_scanned_stopAt (p : UInt8 → Bool) (bs : Bytes) :
    bs.drop (scanned (scanLoop (stopAt p) () bs)) = (bs.dropWhile fun c => !p c).drop 1 := by
  induction bs with
  | nil => rfl
  | cons c bs ih =>
    by_cases hc : p c
    · rw [scanLoop_of_none (if_pos hc), List.dropWhile_cons_of_neg (by simpa using hc)]
      rfl
    · rw [drop_scanned_of_some (if_neg hc), ih, List.dropWhile_cons_of_pos (by simpa using hc)]

theorem skipLineBlanks_eq (h : b.len - b.pos ≤ n) :
    skipLineBlanks n b =
      .ok (if (b.rest.dropWhile isBlank).head? = some 35 then none
        else some (b.advance (b.rest.takeWhile isBlank).length)) := by
  induction n generalizing b with
  | zero =>
    have hnil : b.rest = [] := by
      rw [← List.length_eq_zero_iff, Buffer.length_rest]
      omega
    rw [hnil, List.dropWhile_nil, if_neg nofun, List.takeWhile_nil, List.length_nil,
      Buffer.advance_zero]
    rfl
  | succ n ih =>
    unfold skipLineBlanks
    cases hrest : b.rest with
    | nil =>
      rw [if_neg fun hlt => pos_lt_len_iff.1 hlt hrest, List.dropWhile_nil, if_neg nofun,
        List.takeWhile_nil, List.length_nil, Buffer.advance_zero]
    | cons c r =>
      have hlt : b.pos < b.len := pos_lt_len_iff.2 (by rw [hrest]; exact List.cons_ne_nil c r)
      have hbyte : bufGetbyte b = .ok (c, b.advance 1) := bufGetbyte_ok.2 ⟨⟨r, hrest⟩, rfl⟩
      have hr : (b.advance 1).rest = r := by
        rw [Buffer.rest_advance, hrest, List.drop_one, List.tail_cons]
      rw [if_pos hlt, hbyte, ok_bind]
      dsimp only
      by_cases hc : isBlank c
      · have hlen : (b.advance 1).len - (b.advance 1).pos ≤ n := by
          rw [← Buffer.length_rest, hr]
          rw [← Buffer.length_rest, hrest, List.length_cons] at h
          omega
        rw [if_pos hc, ih hlen, hr, Buffer.advance_advance, List.dropWhile_cons_of_pos hc,
          List.takeWhile_cons_of_pos hc, List.length_cons, Nat.add_comm]
      · rw [if_neg hc, List.dropWhile_cons_of_neg hc, List.takeWhile_cons_of_neg hc,
          List.head?_cons, List.length_nil, Buffer.advance_zero]
        by_cases hcomment : c = 35
        · rw [if_pos hcomment, if_pos (congrArg some hcomment)]
          rfl
        · rw [if_neg hcomment, if_neg fun h => hcomment (Option.some_inj.1 h),
            bufDecrpos_advance (by rw [hrest]; exact Nat.le_add_left 1 _)]
          rfl

theorem scanOptions_eq (quoted escape : Bool) (bs : Bytes) :
    scanOptions quoted escape bs =
      ((scanLoop optionsStep (quoted, escape) bs).1,
        (scanLoop optionsStep (quoted, escape) bs).2.toList.length) := by
  induction bs generalizing quoted escape with
  | nil => rfl
  | cons c bs ih =>
    rw [scanOptions]
    split
    · next hc =>
      rw [scanLoop_of_none (if_pos hc)]
      rfl
    · next hc =>
      rw [scanLoop_of_some (if_neg hc)]
      dsimp only
      rw [ih]

/-- The copy of the options. -/
theorem exists_copy {bs : Bytes} (h : bs.length ≤ bufMaxSize) :
    ∃ b₁ b₂, bufNew bs.length = .ok b₁ ∧ bufPutbytes b₁ bs = .ok b₂ ∧ b₂.contents = bs := by
  obtain ⟨b₁, hnew, hhas₁⟩ := Buffer.bufNew_has h
  obtain ⟨b₂, hput, hhas₂⟩ := hhas₁.putbytes (x := bs) (Nat.le_of_eq (Nat.zero_add _))
  exact ⟨b₁, b₂, hnew, hput, hhas₂.used⟩

theorem skipOptionsBuf_eq (line : Buffer) (algo : Bytes) :
    (do
      let found ← skipOptionsBuf line algo
      return found.map fun (o, line) => (o.contents, line)) = skipOptions line algo := by
  unfold skipOptionsBuf skipOptions
  rw [skipLineBlanks_eq (le_refl _), ok_bind, bufIncrpos_eq,
    if_pos (List.takeWhile_prefix _).length_le, ok_bind, ← advance_takeWhile]
  generalize line.advance (line.rest.takeWhile isBlank).length = b
  by_cases hcomment : b.rest.head? = some 35
  · rw [if_pos hcomment, if_pos hcomment]
    rfl
  rw [if_neg hcomment, if_neg hcomment]
  dsimp only
  rw [bufGetptr_eq]
  by_cases hpos : 1 ≤ b.rest.length
  swap
  · rw [if_neg hpos]
    rfl
  rw [if_pos hpos, ok_bind, ok_bind, getLoop_eq (le_refl _), ok_bind, scanOptions_eq]
  dsimp only
  have hscan : scanned (scanLoop optionsStep (false, false) b.rest) ≤ b.rest.length :=
    scanned_le _ _
  have hmax := b.length_rest_le
  generalize scanLoop optionsStep (false, false) b.rest = scan at hscan ⊢
  obtain ⟨options, stop⟩ := scan
  have hcopy : options.length ≤ bufMaxSize :=
    Nat.le_trans (Nat.le_trans (Nat.le_add_right _ _) hscan) hmax
  obtain ⟨b₁, b₂, hnew, hput, hcontents⟩ := exists_copy hcopy
  change options.length + stop.toList.length ≤ b.rest.length at hscan
  have hadvance : scanned (options, stop) = options.length + stop.toList.length := rfl
  rw [bufIncrpos_eq, if_pos hscan, ok_bind, hadvance]
  generalize b.advance (options.length + stop.toList.length) = b'
  dsimp only
  rw [hnew, ok_bind, hput, ok_bind]
  by_cases hroom : b'.pos + algo.length + 3 > b'.len
  · rw [if_pos hroom, if_pos hroom]
    rfl
  rw [if_neg hroom, if_neg hroom]
  cases bufGetptr b' algo.length with
  | error m => rfl
  | ok p =>
    rw [ok_bind, ok_bind]
    by_cases hp : p ≠ algo
    · rw [if_pos hp, if_pos hp]
      rfl
    · rw [if_neg hp, if_neg hp, ← hcontents]
      rfl

theorem findAlgoBuf_eq (line : Buffer) (algo : Bytes) :
    (do
      let found ← findAlgoBuf line algo
      return found.map fun (o, line) => (o.map Buffer.contents, line)) = findAlgo line algo := by
  unfold findAlgoBuf findAlgo
  rw [← skipOptionsBuf_eq]
  cases bufGetptr line algo.length with
  | error m => rfl
  | ok p =>
    rw [ok_bind, ok_bind]
    by_cases hp : p = algo
    · rw [if_pos hp, if_pos hp]
      rfl
    rw [if_neg hp, if_neg hp]
    rcases skipOptionsBuf line algo with m | found
    · rfl
    · cases found <;> rfl

/-- Bytes that are put into a new buffer through its pointer. -/
theorem exists_filled {b : Buffer} {size : ℕ} {bs : Bytes} (h : b.Has size [] 0)
    (hbs : bs.length ≤ size) :
    ∃ b₁ b₂, bufOverwrite b size bs = .ok b₁ ∧ bufIncrlen b₁ bs.length = .ok b₂ ∧
      b₂.rest = bs ∧ b₂.len = bs.length := by
  have hsize : b.data.length = size := h.size
  have hpos : b.pos = 0 := h.pos
  have hlen : b.len = 0 := h.len
  have hincr : bufMaxIncr = bufMaxSize := rfl
  have hmax := h.len_le.2
  have htake : bs.take size = bs := List.take_of_length_le hbs
  have hfits : b.pos + (bs.take size).length ≤ b.data.length := by
    rw [htake]
    omega
  have hdata : (b.memcpy (bs.take size) hfits).data.length = size :=
    (length_overwrite hfits).trans hsize
  refine ⟨b.memcpy (bs.take size) hfits, _, dif_neg (by omega), dif_neg ?_, ?_, ?_⟩
  · rw [hdata]
    change ¬ (bs.length > bufMaxIncr ∨ b.len + bs.length > size)
    omega
  · change ((overwrite b.data b.pos (bs.take size)).take (b.len + bs.length)).drop b.pos = bs
    rw [hpos, hlen, htake, Nat.zero_add, List.drop_zero]
    exact List.take_left
  · change b.len + bs.length = bs.length
    rw [hlen, Nat.zero_add]

theorem cmpBase64KeyBuf_eq (hlen : line.rest.length ≤ maxAuthkeysLine) :
    cmpBase64KeyBuf keyblob algo line = cmpBase64Key keyblob algo line.rest := by
  unfold cmpBase64KeyBuf cmpBase64Key
  dsimp only
  rw [← Buffer.length_rest]
  by_cases hnil : line.rest.length = 0
  · rw [if_pos hnil, if_pos hnil]
  have hmax : maxAuthkeysLine = 4200 := rfl
  have hsize : bufMaxSize = 1000000000 := rfl
  obtain ⟨b₁, hnew, hhas⟩ := Buffer.bufNew_has
    (show line.rest.length * 2 ≤ bufMaxSize by omega)
  rw [if_neg hnil, if_neg hnil, hnew, ok_bind, bufGetptr_eq, if_pos (le_refl _), ok_bind, hhas.size,
    hhas.getwriteptr (Nat.le_of_eq (Nat.zero_add _)), ok_bind, List.take_length]
  cases hdecoded : base64Decode line.rest (line.rest.length * 2) with
  | none => rfl
  | some decoded =>
    dsimp only
    have hroom : decoded.length ≤ line.rest.length * 2 :=
      of_decide_eq_true (Option.filter_eq_some_iff.1 hdecoded).2
    obtain ⟨b₂, b₃, hover, hincr, hrest, hlen₃⟩ := exists_filled hhas hroom
    rw [hover, ok_bind, hincr, ok_bind, bufGetptr_eq, hlen₃, hrest, if_pos (le_refl _),
      ok_bind, List.take_length]
    by_cases heq : decoded = keyblob
    swap
    · rw [if_pos heq, if_pos heq]
      split <;> rfl
    · subst heq
      rw [if_neg (by simp), if_neg (by simp), if_neg (by simp), bufOfBytes, dif_neg (by omega),
        ok_bind]
      exact (blobNames_eq b₃).trans (by rw [hrest, blobNames_eq, Buffer.rest_ofBytes])

/-- The position of a buffer, set again. -/
theorem bufSetpos_back {b c : Buffer} (hdata : c.data = b.data) (hlen : c.len = b.len) :
    bufSetpos c b.pos = .ok b := by
  have hpos := b.pos_le
  unfold bufSetpos
  rw [dif_neg (by omega)]
  congr 1
  ext1
  · exact hdata
  · exact hlen
  · rfl

theorem exists_setlen {b : Buffer} {n : ℕ} (h : n ≤ b.rest.length) :
    ∃ b', bufSetlen b (b.pos + n) = .ok b' ∧ b'.rest = b.rest.take n := by
  have hpos := b.pos_le
  have hlen := b.len_le
  rw [Buffer.length_rest] at h
  refine ⟨_, dif_neg (by omega), ?_⟩
  change (b.data.take (b.pos + n)).drop (min b.pos (b.pos + n)) = _
  rw [Nat.min_eq_left (Nat.le_add_right _ _), Buffer.rest, List.drop_take, List.drop_take,
    List.take_take, Nat.add_sub_cancel_left, Nat.min_eq_left h]

/-- The loop over the key information, and what `infolen` is behind it. -/
theorem pubkeyInfo_eq (bs : Bytes) :
    let run := bs.takeWhile fun c => !(c == 32 || !isInfoChar c)
    let stop := (bs.dropWhile fun c => !(c == 32 || !isInfoChar c)).head?
    pubkeyInfo bs = if (stop = none ∨ stop = some 32) ∧ 0 < run.length then some run else none := by
  intro run stop
  have hbs : bs = run ++ bs.dropWhile fun c => !(c == 32 || !isInfoChar c) :=
    List.takeWhile_append_dropWhile.symm
  have hrun (c : UInt8) (hc : c ∈ run) : c ≠ 32 ∧ isInfoChar c := by
    have h := List.mem_takeWhile_imp hc
    simp only [Bool.not_or, Bool.not_not, Bool.and_eq_true, Bool.not_eq_true', beq_eq_false_iff_ne]
      at h
    exact h
  have htake : bs.takeWhile (· ≠ 32) = run ++
      (bs.dropWhile fun c => !(c == 32 || !isInfoChar c)).takeWhile (· ≠ 32) := by
    conv_lhs => rw [hbs]
    exact List.takeWhile_append_of_pos fun c hc => decide_eq_true (hrun c hc).1
  have hall : run.all isInfoChar := List.all_eq_true.2 fun c hc => (hrun c hc).2
  unfold pubkeyInfo
  dsimp only
  rw [htake]
  cases hrest : bs.dropWhile fun c => !(c == 32 || !isInfoChar c) with
  | nil =>
    have hstop : stop = none := congrArg List.head? hrest
    rw [hstop, List.takeWhile_nil, List.append_nil]
    by_cases hnil : run = []
    · rw [if_neg fun h => h.1 hnil, if_neg fun h => by simp [hnil] at h]
    · rw [if_pos ⟨hnil, hall⟩, if_pos ⟨.inl rfl, List.length_pos_of_ne_nil hnil⟩]
  | cons c r =>
    have hstop : stop = some c := congrArg List.head? hrest
    have hc : ¬ (!(c == 32 || !isInfoChar c)) = true := by
      have h := List.head?_dropWhile_not (fun c => !(c == 32 || !isInfoChar c)) bs
      rw [hrest] at h
      simpa using h
    rw [hstop]
    by_cases hblank : c = 32
    · rw [hblank, List.takeWhile_cons_of_neg (by decide), List.append_nil]
      by_cases hnil : run = []
      · rw [if_neg fun h => h.1 hnil, if_neg fun h => by simp [hnil] at h]
      · rw [if_pos ⟨hnil, hall⟩, if_pos ⟨.inr rfl, List.length_pos_of_ne_nil hnil⟩]
    · have hbad : isInfoChar c = false := by
        simpa [hblank] using hc
      rw [List.takeWhile_cons_of_pos (by simpa using hblank), if_neg, if_neg]
      · rintro ⟨h | h, -⟩
        · cases h
        · exact hblank (Option.some_inj.1 h)
      · rintro ⟨-, h⟩
        have hmem := List.all_eq_true.1 h c (by simp)
        rw [hbad] at hmem
        cases hmem

/-- The text behind the key is read within the line, which stays as it is. -/
theorem pubkeyInfoBuf_eq (b : Buffer) :
    ∃ b', pubkeyInfoBuf b = .ok (pubkeyInfo b.rest, b') ∧ b'.data = b.data ∧ b'.len = b.len := by
  unfold pubkeyInfoBuf
  rw [getLoop_eq (le_refl _), ok_bind, scanLoop_stopAt, pubkeyInfo_eq]
  dsimp only
  have hprefix := List.takeWhile_prefix (l := b.rest) fun c => !(c == 32 || !isInfoChar c)
  generalize (b.rest.dropWhile fun c => !(c == 32 || !isInfoChar c)).head? = stop
  generalize hrun : b.rest.takeWhile (fun c => !(c == 32 || !isInfoChar c)) = run at hprefix ⊢
  by_cases hstop : stop = none ∨ stop = some 32
  swap
  · rw [if_neg hstop, if_neg (Nat.lt_irrefl 0), if_neg fun h => hstop h.1]
    exact ⟨_, rfl, rfl, rfl⟩
  rw [if_pos hstop]
  by_cases hlen : 0 < run.length
  · rw [if_pos hlen, if_pos ⟨hstop, hlen⟩, 
      bufSetpos_back (b := b) (c := b.advance (scanned (run, stop))) rfl rfl, ok_bind, bufGetptr_eq,
      if_pos hprefix.length_le, ok_bind, ← List.prefix_iff_eq_take.1 hprefix]
    exact ⟨b, rfl, rfl, rfl⟩
  · rw [if_neg hlen, if_neg fun h => hlen h.2]
    exact ⟨_, rfl, rfl, rfl⟩

theorem lineRestBuf_eq {options : Option Buffer} (hpos : b.rest ≠ [])
    (hlen : b.rest.length ≤ maxAuthkeysLine) :
    lineRestBuf einval algo keyblob options b =
      lineRest einval algo keyblob (options.map Buffer.contents) b.rest := by
  obtain ⟨c, r, hr⟩ := List.exists_cons_of_ne_nil hpos
  have hbyte : bufGetbyte b = .ok (c, b.advance 1) := bufGetbyte_ok.2 ⟨⟨r, hr⟩, rfl⟩
  have hr₁ : (b.advance 1).rest = r := by
    rw [Buffer.rest_advance, hr, List.drop_one, List.tail_cons]
  have hkey : (b.advance 1).rest.length ≤ maxAuthkeysLine := by
    rw [hr, List.length_cons] at hlen
    rw [hr₁]
    exact Nat.le_of_succ_le hlen
  unfold lineRestBuf lineRest
  rw [hbyte, ok_bind, hr, List.head?_cons, List.tail_cons]
  dsimp only
  by_cases hc : c = 32
  swap
  · rw [if_pos hc, if_pos fun h => hc (Option.some_inj.1 h)]
    rfl
  rw [if_neg (not_not.2 hc), if_neg (not_not.2 (congrArg some hc)), ← hr₁]
  generalize b.advance 1 = b₁ at hkey ⊢
  have hblank : (fun c : UInt8 => !(c == 32)) = fun c => decide (c ≠ 32) := by
    funext c
    rw [decide_not, beq_eq_decide]
  have hprefix := List.takeWhile_prefix (l := b₁.rest) fun c => decide (c ≠ 32)
  have hinfo := drop_scanned_stopAt (· == 32) b₁.rest
  obtain ⟨b₂, hok₂, hdata₂, hlen₂⟩ :=
    pubkeyInfoBuf_eq (b₁.advance (scanned (scanLoop (stopAt (· == 32)) () b₁.rest)))
  rw [Buffer.rest_advance, hinfo] at hok₂
  obtain ⟨b₃, hok₃, hrest₃⟩ := exists_setlen hprefix.length_le
  rw [← List.prefix_iff_eq_take.1 hprefix] at hrest₃
  have htext : b₃.rest.length ≤ maxAuthkeysLine := by
    rw [hrest₃]
    exact Nat.le_trans hprefix.length_le hkey
  rw [getLoop_eq (le_refl _), ok_bind]
  dsimp only
  rw [hok₂, ok_bind, scanLoop_stopAt, hblank]
  dsimp only
  rw [bufSetpos_back (b := b₁) hdata₂ hlen₂, ok_bind, hok₃, ok_bind, cmpBase64KeyBuf_eq htext,
    hrest₃, svrParsePubkeyOptionsBuf_eq]
  rfl

theorem length_lineStart {line rest : Bytes} {options : Option Bytes}
    (h : lineStart algo line = .ok (some (options, rest))) : rest.length ≤ line.length := by
  unfold lineStart at h
  dsimp only at h
  by_cases halgo : algo <+: line
  · rw [if_pos halgo] at h
    cases h
    exact (List.drop_suffix _ _).length_le
  rw [if_neg halgo] at h
  by_cases htext : line.dropWhile isBlank = []
  · rw [if_pos htext] at h
    cases h
  rw [if_neg htext] at h
  split_ifs at h
  · cases h
  · cases h
    exact ((List.drop_suffix _ _).trans ((List.drop_suffix _ _).trans
      (List.dropWhile_suffix _))).length_le
  · cases h

/-- **Every access to a line is one that the function on its bytes has**, so that no other one can
fail. -/
theorem checkpubkeyLineBuf_eq (hpos : line.pos = 0) :
    checkpubkeyLineBuf einval line algo keyblob =
      checkpubkeyLine einval line.contents algo keyblob := by
  have hrest : line.rest = line.contents := by
    rw [Buffer.rest, hpos, List.drop_zero, Buffer.contents]
  have hlen : line.len = line.rest.length := by
    rw [Buffer.length_rest, hpos, Nat.sub_zero]
  rw [checkpubkeyLine_eq, ← hrest]
  unfold checkpubkeyLineBuf
  rw [← hrest, hlen]
  by_cases hsize : line.rest.length < minAuthkeysLine ∨ line.rest.length > maxAuthkeysLine
  · rw [if_pos hsize, if_pos (hsize.imp_right .inl)]
  by_cases hnul : (0 : UInt8) ∈ line.rest
  · rw [if_neg hsize, if_pos hnul, if_pos (.inr (.inr (.inl hnul)))]
  rw [if_neg hsize, if_neg hnul, hpos, Nat.zero_add]
  by_cases hroom : line.rest.length < algo.length + 3
  · rw [if_pos hroom, if_pos (.inr (.inr (.inr hroom)))]
  rw [if_neg hroom, if_neg (by tauto)]
  have hfind := findAlgoBuf_eq line algo
  have hcases := findAlgo_cases (Nat.le_of_not_lt hroom)
  rw [← hfind] at hcases
  rcases hcases with ⟨hnone, hstart⟩ | ⟨m, herr, hstart⟩ | ⟨options, b', hsome, hroom', hstart⟩
  · rw [hstart]
    rcases hfound : findAlgoBuf line algo with m | found
    · rw [hfound] at hnone
      cases hnone
    · rw [hfound] at hnone
      cases found with
      | none => rfl
      | some f => cases hnone
  · rw [hstart]
    rcases hfound : findAlgoBuf line algo with m | found
    · rw [hfound] at herr
      cases herr
      rfl
    · rw [hfound] at herr
      cases herr
  obtain ⟨optionsBuf, hfound, rfl⟩ : ∃ optionsBuf, findAlgoBuf line algo =
      .ok (some (optionsBuf, b')) ∧ options = optionsBuf.map Buffer.contents := by
    rcases hfound : findAlgoBuf line algo with m | found
    · rw [hfound] at hsome
      cases hsome
    · rw [hfound] at hsome
      cases found with
      | none => cases hsome
      | some f =>
        cases hsome
        exact ⟨f.1, rfl, rfl⟩
  rw [hfound, hstart, ok_bind]
  dsimp only
  rw [bufIncrpos_eq, if_pos (Nat.le_of_add_right_le hroom'), ok_bind, ← Buffer.rest_advance]
  have hshort : (b'.advance algo.length).rest.length ≤ line.rest.length := by
    rw [Buffer.rest_advance]
    exact length_lineStart hstart
  refine lineRestBuf_eq (List.ne_nil_of_length_pos ?_)
    (Nat.le_trans hshort (Nat.le_of_not_lt (not_or.1 hsize).2))
  rw [Buffer.rest_advance, List.length_drop]
  omega

end Line

/-! ### The file -/

/-- The loop of `buf_getline`, for at most `n` bytes. -/
def getlineLoopBuf : ℕ → Buffer → Bytes → Except Exit (Buffer × LineEnd × Bytes)
  | 0, line, file => .ok (line, .full, file)
  | n + 1, line, file =>
    if line.pos < line.data.length then
      match file with
      | [] => .ok (line, .eof, [])
      | c :: file =>
        if isEol c then .ok (line, .eol, file)
        else do
          let line ← bufPutbyte line c
          getlineLoopBuf n line file
    else .ok (line, .full, file)

/-- `buf_getline`, with the line buffer. -/
def getlineBuf (line : Buffer) (file : Bytes) : Except Exit (Option (Buffer × Bytes)) := do
  let line ← bufSetpos line 0
  let line ← bufSetlen line 0
  let (line, e, file) ← getlineLoopBuf line.data.length line file
  match e with
  | .full =>
    -- the line is ignored; without room no byte was read
    let line ← bufSetlen line 0
    if line.data.length = 0 then return none
    else
      let line ← bufSetpos line 0
      return some (line, file)
  | .eof =>
    if line.pos = 0 then return none
    else
      let line ← bufSetpos line 0
      return some (line, file)
  | .eol =>
    let line ← bufSetpos line 0
    return some (line, file)

/-- The loop of `checkpubkey`.  `buf_getline` resets the position and the length of the line, so
what `checkpubkey_line` does to them is not passed on. -/
def checkpubkeyLoopBuf (einval : ℕ → Bool) (algo keyblob : Bytes) :
    ℕ → Buffer → ℕ → Bytes → Except Exit (Option (Entry × PubKeyOptions))
  | 0, _, _, _ => .ok none
  | n + 1, line, off, file => do
    match ← getlineBuf line file with
    | none => return none
    | some (line, file') =>
      match ← checkpubkeyLineBuf (einval off) line algo keyblob with
      | some o => return some (⟨off, line.contents⟩, o)
      | none =>
        checkpubkeyLoopBuf einval algo keyblob n line (off + (file.length - file'.length)) file'

/-- `checkpubkey` on the contents of the file. -/
def checkpubkeyBuf (einval : ℕ → Bool) (algo keyblob file : Bytes) :
    Except Exit (Option (Entry × PubKeyOptions)) := do
  let line ← bufNew maxAuthkeysLine
  checkpubkeyLoopBuf einval algo keyblob (file.length + 1) line 0 file

section File

variable {line : Buffer} {size n : ℕ} {u : Bytes}

theorem getlineLoopBuf_eq (file : Bytes) (h : line.Has size u u.length) (hn : u.length + n = size) :
    ∃ b, getlineLoopBuf n line file =
        .ok (b, (getlineLoop n file).2.1, (getlineLoop n file).2.2) ∧
      b.Has size (u ++ (getlineLoop n file).1) (u ++ (getlineLoop n file).1).length := by
  induction n generalizing line u file with
  | zero =>
    have hu : u ++ (getlineLoop 0 file).1 = u := List.append_nil u
    exact ⟨line, rfl, by rwa [hu]⟩
  | succ n ih =>
    have hlt : line.pos < line.data.length := by
      rw [h.pos, h.size]
      omega
    unfold getlineLoopBuf
    rw [if_pos hlt]
    cases file with
    | nil =>
      have hu : u ++ (getlineLoop (n + 1) []).1 = u := List.append_nil u
      exact ⟨line, rfl, by rwa [hu]⟩
    | cons c file =>
      dsimp only
      unfold getlineLoop
      by_cases hc : isEol c
      · rw [if_pos hc, if_pos hc]
        exact ⟨line, rfl, by rwa [List.append_nil]⟩
      rw [if_neg hc, if_neg hc]
      obtain ⟨b, hput, hhas⟩ := h.putbyte (d := c) (by omega)
      rw [← List.length_singleton (a := c), ← List.length_append] at hhas
      obtain ⟨b', hloop, hhas'⟩ := ih file hhas (by
        rw [List.length_append, List.length_singleton]
        omega)
      rw [List.append_assoc, List.singleton_append] at hhas'
      exact ⟨b', by rw [hput, ok_bind, hloop], hhas'⟩

theorem bufSetlen_zero (b : Buffer) :
    ∃ b', bufSetlen b 0 = .ok b' ∧ b'.Has b.data.length [] 0 :=
  ⟨_, dif_neg (Nat.not_lt_zero _), rfl, List.take_zero, Nat.min_zero _⟩

theorem getlineBuf_cases (file : Bytes) (h : line.data.length = size) :
    (bufGetline size file = none ∧ getlineBuf line file = .ok none) ∨
      ∃ l file' b, bufGetline size file = some (l, file') ∧
        getlineBuf line file = .ok (some (b, file')) ∧ b.Has size l 0 := by
  have hline : line.Has size line.contents line.pos := ⟨h, rfl, rfl⟩
  obtain ⟨b₁, hpos, hhas₁⟩ := hline.setpos (Nat.zero_le _)
  obtain ⟨b₂, hlen, hhas₂⟩ := bufSetlen_zero b₁
  rw [hhas₁.size] at hhas₂
  obtain ⟨b₃, hloop, hhas₃⟩ := getlineLoopBuf_eq file hhas₂ (Nat.zero_add size)
  obtain ⟨b₄, hpos', hhas₄⟩ := hhas₃.setpos (Nat.zero_le _)
  obtain ⟨b₅, hlen', hhas₅⟩ := bufSetlen_zero b₃
  rw [hhas₃.size] at hhas₅
  obtain ⟨b₆, hpos₆, hhas₆⟩ := hhas₅.setpos (le_refl 0)
  rw [List.nil_append] at hhas₃ hhas₄
  unfold getlineBuf bufGetline
  rw [hpos, ok_bind, hlen, ok_bind, hhas₂.size, hloop, ok_bind]
  generalize getlineLoop size file = r at hhas₃ hhas₄ ⊢
  obtain ⟨l, e, file'⟩ := r
  cases e with
  | eol => exact .inr ⟨l, file', b₄, rfl, by dsimp only; rw [hpos']; rfl, hhas₄⟩
  | eof =>
    have hempty : b₃.pos = 0 ↔ l = [] := by
      rw [hhas₃.pos]
      exact List.length_eq_zero_iff
    dsimp only
    by_cases hnil : l = []
    · rw [if_pos hnil, if_pos (hempty.2 hnil)]
      exact .inl ⟨rfl, rfl⟩
    · rw [if_neg hnil, if_neg fun h => hnil (hempty.1 h), hpos']
      exact .inr ⟨l, file', b₄, rfl, rfl, hhas₄⟩
  | full =>
    dsimp only
    rw [hlen', ok_bind, hhas₅.size]
    by_cases hzero : size = 0
    · rw [if_pos hzero, if_pos hzero]
      exact .inl ⟨rfl, rfl⟩
    · rw [if_neg hzero, if_neg hzero, hpos₆]
      exact .inr ⟨[], file', b₆, rfl, rfl, hhas₆⟩

variable {einval : ℕ → Bool} {algo keyblob : Bytes}

theorem checkpubkeyLoopBuf_eq {off : ℕ} {file : Bytes} (h : line.data.length = maxAuthkeysLine) :
    checkpubkeyLoopBuf einval algo keyblob n line off file =
      checkpubkeyLoop einval algo keyblob n off file := by
  induction n generalizing line off file with
  | zero => rfl
  | succ n ih =>
    unfold checkpubkeyLoopBuf checkpubkeyLoop
    rcases getlineBuf_cases file h with ⟨hget, hgetBuf⟩ | ⟨l, file', b, hget, hgetBuf, hb⟩
    · rw [hget, hgetBuf]
      rfl
    rw [hget, hgetBuf, ok_bind]
    dsimp only
    rw [checkpubkeyLineBuf_eq hb.pos, hb.used]
    refine bind_congr fun o => ?_
    cases o with
    | none => exact ih hb.size
    | some o => rfl

/-- **`checkpubkey` reads and writes within its buffers**, apart from the accesses of
`checkpubkeyLine`. -/
theorem checkpubkeyBuf_eq (einval : ℕ → Bool) (algo keyblob file : Bytes) :
    checkpubkeyBuf einval algo keyblob file = checkpubkeyAt einval algo keyblob file := by
  obtain ⟨b, hnew, hhas⟩ := Buffer.bufNew_has (show maxAuthkeysLine ≤ bufMaxSize by decide)
  unfold checkpubkeyBuf checkpubkeyAt
  rw [hnew, ok_bind]
  exact checkpubkeyLoopBuf_eq hhas.size

end File

end Ps4Dropbear
