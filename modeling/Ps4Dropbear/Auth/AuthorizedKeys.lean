import Ps4Dropbear.Auth.PubkeyOptions
import Ps4Dropbear.Auth.Signkey

/-!
# The `authorized_keys` file

`buf_getline` (`dbutil.c`), `checkpubkey_line` and `checkpubkey` (`svr-authpubkey.c`),
`cmp_base64_key` (`signkey.c`) and the relaxed `base64_decode` of libtomcrypt.

`buf_getline` fills a line buffer of `MAX_AUTHKEYS_LINE` bytes.  A line that does not end before
the buffer is full is given up: the buffer is emptied and `DROPBEAR_SUCCESS` is returned, with
the file positioned behind the bytes read, that is, *inside the line*.  The next call goes on
there.  `gated_authEntries` states the effect on a whole file: of a line of `n` bytes, the last
`n % MAX_AUTHKEYS_LINE` bytes are offered as an entry of their own.

## Main definitions

* `Entry` : a line buffer and the file offset at which it was read.
* `authEntries`, `fileLines` : what `buf_getline` returns call by call, and the lines of the file.
* `checkpubkeyLine`, `checkpubkey` : the acceptance of one line and of the file.

## Main results

* `gated_authEntries` : the entries that are long enough to be looked at are the last pieces of
  the lines.
* `checkpubkeyAt_eq_search` : `checkpubkey` is the search through these pieces.
-/

namespace Ps4Dropbear

/-- `MIN_AUTHKEYS_LINE`. -/
def minAuthkeysLine : ℕ := 10

/-- `MAX_AUTHKEYS_LINE`. -/
def maxAuthkeysLine : ℕ := 4200

/-! ### Base 64 -/

/-- `map_base64`: the value of a character, `none` for a character outside the alphabet (value
255) and for the padding character (value 254), both of which the relaxed decoder skips. -/
def mapBase64 (c : UInt8) : Option ℕ :=
  if 65 ≤ c ∧ c ≤ 90 then some (c.toNat - 65)
  else if 97 ≤ c ∧ c ≤ 122 then some (c.toNat - 97 + 26)
  else if 48 ≤ c ∧ c ≤ 57 then some (c.toNat - 48 + 52)
  else if c = 43 then some 62
  else if c = 47 then some 63
  else none

/-- The three bytes of the 24-bit group `t`. -/
def base64Group (t : ℕ) : Bytes :=
  [UInt8.ofNat (t / 2 ^ 16), UInt8.ofNat (t / 2 ^ 8), UInt8.ofNat t]

/-- The values of the characters, four at a time; `none` is `CRYPT_INVALID_PACKET`, for a single
character that is left over. -/
def base64Groups : List ℕ → Option Bytes
  | [] => some []
  | [_] => none
  | [a, b] => some ((base64Group (a * 2 ^ 18 + b * 2 ^ 12)).take 1)
  | [a, b, c] => some ((base64Group (a * 2 ^ 18 + b * 2 ^ 12 + c * 2 ^ 6)).take 2)
  | a :: b :: c :: d :: r =>
    (base64Groups r).map (base64Group (a * 2 ^ 18 + b * 2 ^ 12 + c * 2 ^ 6 + d) ++ ·)

/-- `base64_decode` with room for `outlen` bytes. -/
def base64Decode (input : Bytes) (outlen : ℕ) : Option Bytes :=
  (base64Groups (input.filterMap mapBase64)).filter (·.length ≤ outlen)

/-! ### One line -/

/-- `cmp_base64_key`: the base 64 text `line` decodes to `keyblob`, and the algorithm named in
the blob is `algoname`. -/
def cmpBase64Key (keyblob algoname line : Bytes) : Except Exit Bool :=
  if line.length = 0 then .ok false
  else
    match base64Decode line (line.length * 2) with
    | none => .ok false
    | some decoded =>
      if decoded ≠ keyblob then .ok false
      else do
        let decodekey ← bufOfBytes decoded
        let (filealgolen, decodekey) ← bufGetint decodekey
        let filealgo ← bufGetptr decodekey filealgolen
        return (filealgo = algoname)

/-- The loop that finds the end of the options: the options, and the number of separators (one,
or none at the end of the line).  A quote toggles `quoted` also behind a backslash, because
`escape` is updated before it is looked at. -/
def scanOptions : Bool → Bool → Bytes → Bytes × ℕ
  | _, _, [] => ([], 0)
  | quoted, escape, c :: r =>
    if !quoted && isBlank c then ([], 1)
    else
      let escape := !escape && c == 92
      let quoted := if !escape && c == 34 then !quoted else quoted
      let (o, n) := scanOptions quoted escape r
      (c :: o, n)

/-- The branch of `checkpubkey_line` for a line that does not start with the algorithm: the
options, and the line behind them; `none` is the failure return.  The read of the first byte of
the options ends the session when the line has only blanks. -/
def skipOptions (line : Buffer) (algo : Bytes) : Except Exit (Option (Bytes × Buffer)) := do
  let line ← bufIncrpos line (line.rest.takeWhile isBlank).length
  if line.rest.head? = some 35 then return none
  else
    let _ ← bufGetptr line 1
    let (options, sep) := scanOptions false false line.rest
    let line ← bufIncrpos line (options.length + sep)
    if line.pos + algo.length + 3 > line.len then return none
    else
      let p ← bufGetptr line algo.length
      if p ≠ algo then return none else return some (options, line)

/-- The comparison of the algorithm in `checkpubkey_line`: the options in front of it (`none` for
a `NULL` buffer) and the line positioned at it. -/
def findAlgo (line : Buffer) (algo : Bytes) :
    Except Exit (Option (Option Bytes × Buffer)) := do
  let p ← bufGetptr line algo.length
  if p = algo then return some (none, line)
  else
    let found ← skipOptions line algo
    return found.map fun (o, line) => (some o, line)

/-- `isalnum(c) || strchr(".,_-+@", c)`. -/
def isInfoChar (c : UInt8) : Bool :=
  (48 ≤ c && c ≤ 57) || (65 ≤ c && c ≤ 90) || (97 ≤ c && c ≤ 122) || (ascii ".,_-+@").contains c

/-- The text behind the key, up to the first blank, if it has only allowed characters. -/
def pubkeyInfo (bs : Bytes) : Option Bytes :=
  let info := bs.takeWhile (· ≠ 32)
  if info ≠ [] ∧ info.all isInfoChar then some info else none

/-- `checkpubkey_line`: the options of the entry if it is one for the key; `none` is
`DROPBEAR_FAILURE`.  `errno` holds `EINVAL` if `einval` says so. -/
def checkpubkeyLine (einval : Bool) (line algo keyblob : Bytes) :
    Except Exit (Option PubKeyOptions) :=
  if line.length < minAuthkeysLine ∨ line.length > maxAuthkeysLine then .ok none
  else if (0 : UInt8) ∈ line then .ok none
  else do
    let buf ← bufOfBytes line
    if buf.pos + algo.length + 3 > buf.len then return none
    else
      match ← findAlgo buf algo with
      | none => return none
      | some (options, buf) =>
        let buf ← bufIncrpos buf algo.length
        let (c, buf) ← bufGetbyte buf
        -- space character expected
        if c ≠ 32 then return none
        else
          let key := buf.rest.takeWhile (· ≠ 32)
          let info := pubkeyInfo ((buf.rest.dropWhile (· ≠ 32)).drop 1)
          if ← cmpBase64Key keyblob algo key then
            return (svrParsePubkeyOptions einval options).map fun o => { o with infoEnv := info }
          else return none

/-! ### The file -/

/-- The byte ends a line. -/
def isEol (c : UInt8) : Bool := c == 10 || c == 13

/-- How the reading loop of `buf_getline` ends: at the end of the file, at a line end, or with the
buffer full. -/
inductive LineEnd
  | eof
  | eol
  | full
  deriving DecidableEq, Repr

/-- The loop of `buf_getline` with room for `n` bytes: the bytes put into the buffer, why it
stopped, and the bytes of the file that are left. -/
def getlineLoop : ℕ → Bytes → Bytes × LineEnd × Bytes
  | 0, file => ([], .full, file)
  | _ + 1, [] => ([], .eof, [])
  | n + 1, c :: file =>
    if isEol c then ([], .eol, file)
    else
      let (line, e, file) := getlineLoop n file
      (c :: line, e, file)

/-- `buf_getline`: the line and the rest of the file; `none` is `DROPBEAR_FAILURE`. -/
def bufGetline (size : ℕ) (file : Bytes) : Option (Bytes × Bytes) :=
  match getlineLoop size file with
  -- the line length is zeroed, `c` is the last byte read
  | (_, .full, file) => if size = 0 then none else some ([], file)
  | (line, .eof, file) => if line = [] then none else some (line, file)
  | (line, .eol, file) => some (line, file)

/-- A line buffer as it was read at an offset of the file. -/
structure Entry where
  start : ℕ
  line : Bytes
  deriving DecidableEq, Repr

/-- The loop of `checkpubkey` at the offset `off` with the bytes `file` left, for at most `n`
calls of `buf_getline`: the entry that accepts the key and its options.  `einval` says for which
offsets `errno` holds `EINVAL` when the line there is looked at. -/
def checkpubkeyLoop (einval : ℕ → Bool) (algo keyblob : Bytes) :
    ℕ → ℕ → Bytes → Except Exit (Option (Entry × PubKeyOptions))
  | 0, _, _ => .ok none
  | n + 1, off, file =>
    match bufGetline maxAuthkeysLine file with
    | none => .ok none
    | some (line, file') => do
      match ← checkpubkeyLine (einval off) line algo keyblob with
      | some o => return some (⟨off, line⟩, o)
      | none => checkpubkeyLoop einval algo keyblob n (off + (file.length - file'.length)) file'

/-- `checkpubkey` on the contents of the file, with the entry at which it stops.  Every successful
`buf_getline` takes at least one byte of the file (`bufGetline_length`). -/
def checkpubkeyAt (einval : ℕ → Bool) (algo keyblob file : Bytes) :
    Except Exit (Option (Entry × PubKeyOptions)) :=
  checkpubkeyLoop einval algo keyblob (file.length + 1) 0 file

/-- An `authorized_keys` file, and the offsets of the lines at which `errno` holds `EINVAL`. -/
structure AuthFile where
  contents : Bytes
  stale : List ℕ := []
  deriving DecidableEq, Repr

/-- `checkpubkey`: the options of the accepting entry.  `authfile` is `none` when
`checkpubkeyperms` fails or the file cannot be opened. -/
def checkpubkey (algo keyblob : Bytes) (authfile : Option AuthFile) :
    Except Exit (Option PubKeyOptions) :=
  match authfile with
  | none => .ok none
  | some file => do
    return (← checkpubkeyAt file.stale.contains algo keyblob file.contents).map (·.2)

/-- `errno` never holds `EINVAL`. -/
def errnoClear : ℕ → Bool := fun _ => false

/-- What the successive calls of `buf_getline` return. -/
def authEntries : ℕ → ℕ → Bytes → List Entry
  | 0, _, _ => []
  | n + 1, off, file =>
    match bufGetline maxAuthkeysLine file with
    | none => []
    | some (line, file') => ⟨off, line⟩ :: authEntries n (off + (file.length - file'.length)) file'

/-- The lines of the bytes behind offset `start + line.length`, the first of which goes on from
`line`: the maximal runs of bytes between line ends. -/
def linesFrom (start : ℕ) (line : Bytes) : Bytes → List Entry
  | [] => [⟨start, line⟩]
  | c :: file =>
    if isEol c then ⟨start, line⟩ :: linesFrom (start + line.length + 1) [] file
    else linesFrom start (line ++ [c]) file

/-- The lines of a file. -/
def fileLines (file : Bytes) : List Entry := linesFrom 0 [] file

/-! ### Lines -/

theorem linesFrom_append {start : ℕ} {line run r : Bytes} (hrun : ∀ c ∈ run, isEol c = false) :
    linesFrom start line (run ++ r) = linesFrom start (line ++ run) r := by
  induction run generalizing line with
  | nil => simp
  | cons c run ih =>
    have hc : isEol c = false := hrun c (by simp)
    rw [List.cons_append, linesFrom, hc, if_neg (by simp), ih fun d hd => hrun d (by simp [hd]),
      List.append_assoc, List.singleton_append]

/-- Later lines start behind the end of every earlier one. -/
theorem linesFrom_pairwise (start : ℕ) (line file : Bytes) :
    (linesFrom start line file).Pairwise fun e e' => e.start + e.line.length < e'.start := by
  have hstart : ∀ (file : Bytes) (start : ℕ) (line : Bytes),
      ∀ e ∈ linesFrom start line file, start ≤ e.start := by
    intro file
    induction file with
    | nil => intro start line e he; simp only [linesFrom, List.mem_singleton] at he; simp [he]
    | cons c file ih =>
      intro start line e he
      simp only [linesFrom] at he
      split_ifs at he
      · rcases List.mem_cons.1 he with rfl | he
        · exact Nat.le_refl _
        · have := ih _ _ e he
          omega
      · exact ih _ _ e he
  induction file generalizing start line with
  | nil => simp [linesFrom]
  | cons c file ih =>
    simp only [linesFrom]
    split_ifs
    · refine List.pairwise_cons.2 ⟨fun e he => ?_, ih _ _⟩
      exact hstart file _ _ e he
    · exact ih _ _

/-- No line starts inside another one. -/
theorem not_mem_fileLines_of_inside {file : Bytes} {e e' : Entry} (he : e ∈ fileLines file)
    (hlo : e.start < e'.start) (hhi : e'.start ≤ e.start + e.line.length) :
    e' ∉ fileLines file := by
  intro he'
  have hpw : (fileLines file).Pairwise _ := linesFrom_pairwise 0 [] file
  obtain ⟨pre, post, hsplit⟩ := List.append_of_mem he
  rw [hsplit] at he'
  rw [hsplit, List.pairwise_append, List.pairwise_cons] at hpw
  rcases List.mem_append.1 he' with hpre | hpost
  · have := hpw.2.2 e' hpre e (by simp)
    omega
  · rcases List.mem_cons.1 hpost with rfl | hpost
    · omega
    · have := hpw.2.1.1 e' hpost
      omega

/-! ### What `buf_getline` returns -/

theorem getlineLoop_eol {n : ℕ} {run r : Bytes} {c : UInt8} (hrun : ∀ c ∈ run, isEol c = false)
    (hc : isEol c) (hn : run.length < n) : getlineLoop n (run ++ c :: r) = (run, .eol, r) := by
  induction run generalizing n with
  | nil =>
    obtain ⟨m, rfl⟩ : ∃ m, n = m + 1 := ⟨n - 1, by simp only [List.length_nil] at hn; omega⟩
    simp only [List.nil_append, getlineLoop, hc, if_true]
  | cons d run ih =>
    simp only [List.length_cons] at hn
    obtain ⟨m, rfl⟩ : ∃ m, n = m + 1 := ⟨n - 1, by omega⟩
    have hd : isEol d = false := hrun d (by simp)
    simp only [List.cons_append, getlineLoop, hd, Bool.false_eq_true, if_false,
      ih (fun c hc => hrun c (by simp [hc])) (Nat.lt_of_succ_lt_succ hn)]

theorem getlineLoop_eof {n : ℕ} {run : Bytes} (hrun : ∀ c ∈ run, isEol c = false)
    (hn : run.length < n) : getlineLoop n run = (run, .eof, []) := by
  induction run generalizing n with
  | nil =>
    obtain ⟨m, rfl⟩ : ∃ m, n = m + 1 := ⟨n - 1, by simp only [List.length_nil] at hn; omega⟩
    rfl
  | cons d run ih =>
    simp only [List.length_cons] at hn
    obtain ⟨m, rfl⟩ : ∃ m, n = m + 1 := ⟨n - 1, by omega⟩
    have hd : isEol d = false := hrun d (by simp)
    simp only [getlineLoop, hd, Bool.false_eq_true, if_false,
      ih (fun c hc => hrun c (by simp [hc])) (Nat.lt_of_succ_lt_succ hn)]

theorem getlineLoop_full {n : ℕ} {run r : Bytes} (hrun : ∀ c ∈ run, isEol c = false)
    (hn : run.length = n) : getlineLoop n (run ++ r) = (run, .full, r) := by
  induction run generalizing n with
  | nil => subst hn; simp [getlineLoop]
  | cons d run ih =>
    subst hn
    have hd : isEol d = false := hrun d (by simp)
    simp only [List.length_cons, List.cons_append, getlineLoop, hd, Bool.false_eq_true, if_false,
      ih (fun c hc => hrun c (by simp [hc])) rfl]

/-- A line that ends before the buffer is full is returned, and the file is at the next line. -/
theorem bufGetline_eol {size : ℕ} {run r : Bytes} {c : UInt8} (hrun : ∀ c ∈ run, isEol c = false)
    (hc : isEol c) (hsize : run.length < size) :
    bufGetline size (run ++ c :: r) = some (run, r) := by
  simp only [bufGetline, getlineLoop_eol hrun hc hsize]

/-- The last line of the file. -/
theorem bufGetline_eof {size : ℕ} {run : Bytes} (hrun : ∀ c ∈ run, isEol c = false)
    (hsize : run.length < size) :
    bufGetline size run = if run = [] then none else some (run, []) := by
  simp only [bufGetline, getlineLoop_eof hrun hsize]

/-- A line that fills the buffer is dropped as far as it was read; the file stays inside it. -/
theorem bufGetline_full {size : ℕ} {run r : Bytes} (hrun : ∀ c ∈ run, isEol c = false)
    (hsize : run.length = size) (hpos : 0 < size) :
    bufGetline size (run ++ r) = some ([], r) := by
  simp only [bufGetline, getlineLoop_full hrun hsize, Nat.ne_of_gt hpos, if_false]

/-! ### The entries of a file -/

/-- The entry passes the length check of `checkpubkey_line` from below. -/
def gate (e : Entry) : Bool := minAuthkeysLine ≤ e.line.length

/-- The last piece of a line that is read in pieces of `MAX_AUTHKEYS_LINE` bytes; the line itself
when it is shorter. -/
def lastPiece (e : Entry) : Entry :=
  let n := e.line.length / maxAuthkeysLine * maxAuthkeysLine
  ⟨e.start + n, e.line.drop n⟩

theorem lastPiece_of_lt {e : Entry} (h : e.line.length < maxAuthkeysLine) : lastPiece e = e := by
  simp [lastPiece, Nat.div_eq_of_lt h]

theorem length_lastPiece (e : Entry) :
    (lastPiece e).line.length = e.line.length % maxAuthkeysLine := by
  simp only [lastPiece, List.length_drop]
  have := Nat.div_add_mod e.line.length maxAuthkeysLine
  rw [Nat.mul_comm] at this
  omega

theorem lastPiece_append {start : ℕ} {run run' : Bytes} (h : run.length = maxAuthkeysLine) :
    lastPiece ⟨start, run ++ run'⟩ = lastPiece ⟨start + maxAuthkeysLine, run'⟩ := by
  have hdiv : (run ++ run').length / maxAuthkeysLine = run'.length / maxAuthkeysLine + 1 := by
    rw [List.length_append, h, Nat.add_comm, Nat.add_div_right _ (by decide)]
  simp only [lastPiece, hdiv, Nat.succ_mul, Entry.mk.injEq]
  refine ⟨by omega, ?_⟩
  rw [Nat.add_comm _ maxAuthkeysLine, ← List.drop_drop, ← h, List.drop_left]

/-- Splitting a file at its first line end. -/
theorem exists_first_line (file : Bytes) :
    (∀ c ∈ file, isEol c = false) ∨
      ∃ run c r, file = run ++ c :: r ∧ (∀ c ∈ run, isEol c = false) ∧ isEol c := by
  induction file with
  | nil => exact .inl (by simp)
  | cons d file ih =>
    by_cases hd : isEol d
    · exact .inr ⟨[], d, file, rfl, by simp, hd⟩
    · rcases ih with h | ⟨run, c, r, rfl, hrun, hc⟩
      · exact .inl (by simpa [hd] using h)
      · exact .inr ⟨d :: run, c, r, rfl, by simpa [hd] using hrun, hc⟩

theorem linesFrom_eol {start : ℕ} {run r : Bytes} {c : UInt8} (hrun : ∀ c ∈ run, isEol c = false)
    (hc : isEol c) :
    linesFrom start [] (run ++ c :: r) =
      ⟨start, run⟩ :: linesFrom (start + run.length + 1) [] r := by
  rw [linesFrom_append hrun, linesFrom, if_pos hc, List.nil_append]

theorem linesFrom_eof {start : ℕ} {run : Bytes} (hrun : ∀ c ∈ run, isEol c = false) :
    linesFrom start [] run = [⟨start, run⟩] := by
  have h : linesFrom start [] (run ++ []) = linesFrom start ([] ++ run) [] := linesFrom_append hrun
  rwa [List.append_nil] at h

/-- **The entries of a file**: those that are long enough to be looked at are the last pieces of
its lines, in order. -/
theorem gated_authEntries {n off : ℕ} {file : Bytes} (hn : file.length < n) :
    (authEntries n off file).filter gate =
      ((linesFrom off [] file).map lastPiece).filter gate := by
  induction n using Nat.strongRecOn generalizing off file with
  | _ n ih =>
    obtain ⟨n, rfl⟩ : ∃ m, n = m + 1 := ⟨n - 1, by omega⟩
    -- a buffer that fills up: the rest of the line is read by the next call
    have hfull : ∀ run r : Bytes, file = run ++ r → (∀ c ∈ run, isEol c = false) →
        run.length = maxAuthkeysLine → (linesFrom off [] file).map lastPiece =
          (linesFrom (off + maxAuthkeysLine) [] r).map lastPiece →
        (authEntries (n + 1) off file).filter gate =
          ((linesFrom off [] file).map lastPiece).filter gate := by
      intro run r hfile hrun hlen hlines
      have hget := bufGetline_full (r := r) hrun hlen (by decide)
      have hdiff : (run ++ r).length - r.length = maxAuthkeysLine := by
        rw [List.length_append]; omega
      have hr : r.length < n := by
        rw [hfile, List.length_append, hlen] at hn
        simp only [maxAuthkeysLine] at hn
        omega
      rw [hlines, ← ih n (Nat.lt_succ_self n) hr]
      simp only [authEntries, hfile, hget, hdiff]
      rw [List.filter_cons_of_neg (by simp [gate, minAuthkeysLine])]
    rcases exists_first_line file with hfile | ⟨run, c, r, rfl, hrun, hc⟩
    · by_cases hlen : file.length < maxAuthkeysLine
      · rw [linesFrom_eof hfile]
        simp only [authEntries, bufGetline_eof hfile hlen, List.map_cons, List.map_nil,
          lastPiece_of_lt (e := ⟨off, file⟩) hlen]
        by_cases hnil : file = []
        · simp [hnil, gate, minAuthkeysLine]
        · simp only [hnil, if_false]
          have hend : ∀ m k, authEntries m k [] = [] := by
            intro m k
            cases m <;> rfl
          rw [hend]
      · have htake : (file.take maxAuthkeysLine).length = maxAuthkeysLine := by
          rw [List.length_take]; omega
        have hsplit := (List.take_append_drop maxAuthkeysLine file).symm
        refine hfull _ _ hsplit (fun c hc => hfile c (List.mem_of_mem_take hc)) htake ?_
        rw [linesFrom_eof hfile,
          linesFrom_eof fun c hc => hfile c (List.mem_of_mem_drop hc)]
        simp only [List.map_cons, List.map_nil]
        rw [← lastPiece_append htake, List.take_append_drop]
    · by_cases hlen : run.length < maxAuthkeysLine
      · have hdiff : (run ++ c :: r).length - r.length = run.length + 1 := by
          simp only [List.length_append, List.length_cons]; omega
        have hr : r.length < n := by
          simp only [List.length_append, List.length_cons] at hn
          omega
        rw [linesFrom_eol hrun hc]
        simp only [authEntries, bufGetline_eol hrun hc hlen, hdiff, List.map_cons,
          lastPiece_of_lt (e := ⟨off, run⟩) hlen, ← Nat.add_assoc]
        rw [List.filter_cons, List.filter_cons, ih n (Nat.lt_succ_self n) hr]
      · have htake : (run.take maxAuthkeysLine).length = maxAuthkeysLine := by
          rw [List.length_take]; omega
        have hsplit : run ++ c :: r =
            run.take maxAuthkeysLine ++ (run.drop maxAuthkeysLine ++ c :: r) := by
          rw [← List.append_assoc, List.take_append_drop]
        refine hfull _ _ hsplit (fun c hc => hrun c (List.mem_of_mem_take hc)) htake ?_
        rw [linesFrom_eol hrun hc,
          linesFrom_eol (fun c hc => hrun c (List.mem_of_mem_drop hc)) hc]
        simp only [List.map_cons]
        rw [← lastPiece_append htake, List.take_append_drop]
        have hlen' : off + run.length =
            off + maxAuthkeysLine + (run.drop maxAuthkeysLine).length := by
          rw [List.length_drop]; omega
        rw [hlen']

/-! ### The search -/

/-- The loop of `checkpubkey` over entries that have been read. -/
def searchEntries (einval : ℕ → Bool) (algo keyblob : Bytes) :
    List Entry → Except Exit (Option (Entry × PubKeyOptions))
  | [] => .ok none
  | e :: es => do
    match ← checkpubkeyLine (einval e.start) e.line algo keyblob with
    | some o => return some (e, o)
    | none => searchEntries einval algo keyblob es

/-- The entries behind the length check of `checkpubkey_line`, up to the one that ends the
search. -/
def triedEntries (einval : ℕ → Bool) (algo keyblob : Bytes) : List Entry → List Entry
  | [] => []
  | e :: es =>
    if minAuthkeysLine ≤ e.line.length ∧ e.line.length ≤ maxAuthkeysLine then
      e :: if checkpubkeyLine (einval e.start) e.line algo keyblob = .ok none then
          triedEntries einval algo keyblob es
        else []
    else triedEntries einval algo keyblob es

variable {einval : ℕ → Bool} {algo keyblob : Bytes}

theorem checkpubkeyLine_of_not_gate {b : Bool} {line : Bytes} (h : line.length < minAuthkeysLine) :
    checkpubkeyLine b line algo keyblob = .ok none := by
  rw [checkpubkeyLine, if_pos (.inl h)]

theorem checkpubkeyLine_of_long {b : Bool} {line : Bytes} (h : maxAuthkeysLine < line.length) :
    checkpubkeyLine b line algo keyblob = .ok none := by
  rw [checkpubkeyLine, if_pos (.inr h)]

theorem searchEntries_cons {e : Entry} {es : List Entry} :
    searchEntries einval algo keyblob (e :: es) =
      match checkpubkeyLine (einval e.start) e.line algo keyblob with
      | .error m => .error m
      | .ok (some o) => .ok (some (e, o))
      | .ok none => searchEntries einval algo keyblob es := by
  rw [searchEntries]
  cases checkpubkeyLine (einval e.start) e.line algo keyblob with
  | error m => rfl
  | ok o => cases o <;> rfl

theorem searchEntries_cons_of_none {e : Entry} {es : List Entry}
    (h : checkpubkeyLine (einval e.start) e.line algo keyblob = .ok none) :
    searchEntries einval algo keyblob (e :: es) = searchEntries einval algo keyblob es := by
  rw [searchEntries_cons, h]

theorem searchEntries_filter (es : List Entry) :
    searchEntries einval algo keyblob (es.filter gate) = searchEntries einval algo keyblob es := by
  induction es with
  | nil => rfl
  | cons e es ih =>
    by_cases he : gate e
    · rw [List.filter_cons_of_pos he, searchEntries_cons, searchEntries_cons, ih]
    · have hlen : e.line.length < minAuthkeysLine := by simpa [gate] using he
      rw [List.filter_cons_of_neg he, ih,
        searchEntries_cons_of_none (checkpubkeyLine_of_not_gate hlen)]

theorem triedEntries_filter (es : List Entry) :
    triedEntries einval algo keyblob (es.filter gate) = triedEntries einval algo keyblob es := by
  induction es with
  | nil => rfl
  | cons e es ih =>
    by_cases he : gate e
    · simp only [List.filter_cons_of_pos he, triedEntries, ih]
    · have hlen : ¬ (minAuthkeysLine ≤ e.line.length ∧ e.line.length ≤ maxAuthkeysLine) := by
        simp only [gate, decide_eq_true_eq] at he
        exact fun h => he h.1
      rw [List.filter_cons_of_neg he, ih, triedEntries, if_neg hlen]

theorem checkpubkeyLoop_eq (n off : ℕ) (file : Bytes) :
    checkpubkeyLoop einval algo keyblob n off file =
      searchEntries einval algo keyblob (authEntries n off file) := by
  induction n generalizing off file with
  | zero => rfl
  | succ n ih =>
    rw [checkpubkeyLoop, authEntries]
    cases bufGetline maxAuthkeysLine file with
    | none => rfl
    | some p =>
      simp only [searchEntries, ih]

/-- The entries that `checkpubkey` tries on a file. -/
def checkpubkeyTried (einval : ℕ → Bool) (algo keyblob file : Bytes) : List Entry :=
  triedEntries einval algo keyblob (authEntries (file.length + 1) 0 file)

/-- **`checkpubkey` searches the last pieces of the lines.** -/
theorem checkpubkeyAt_eq_search (einval : ℕ → Bool) (algo keyblob file : Bytes) :
    checkpubkeyAt einval algo keyblob file =
      searchEntries einval algo keyblob ((fileLines file).map lastPiece) := by
  rw [checkpubkeyAt, checkpubkeyLoop_eq, ← searchEntries_filter,
    gated_authEntries (Nat.lt_succ_self _), searchEntries_filter, fileLines]

theorem checkpubkeyTried_eq (einval : ℕ → Bool) (algo keyblob file : Bytes) :
    checkpubkeyTried einval algo keyblob file =
      triedEntries einval algo keyblob ((fileLines file).map lastPiece) := by
  rw [checkpubkeyTried, ← triedEntries_filter, gated_authEntries (Nat.lt_succ_self _),
    triedEntries_filter, fileLines]

end Ps4Dropbear
