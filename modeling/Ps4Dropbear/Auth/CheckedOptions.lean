import Ps4Dropbear.Auth.LineScan

/-!
# `svr_parse_pubkey_options` with every access checked

The source moves through a buffer with accessors that end the session when they are used wrongly.
Here each of them stands where the source has it.

* `getLoop` : a loop around `buf_getbyte`; `getLoop_eq` makes a scan of the unread bytes of it.
* `parseOptionBuf`, `svrParsePubkeyOptionsBuf` : the functions on buffers.

**Main result**: the options are read within their buffer, and as the functions on byte strings
read them (`svrParsePubkeyOptionsBuf_eq`).
-/

namespace Ps4Dropbear

/-! ### Loops -/

/-- `while (buf->pos < buf->len)` around `buf_getbyte`: `step` says how a byte changes the state,
and leaves the loop with `none`.  The result is the bytes before that byte, the byte, and the
buffer. -/
def getLoop {σ : Type} (step : σ → UInt8 → Option σ) :
    ℕ → σ → Buffer → Except Exit (Bytes × Option UInt8 × Buffer)
  | 0, _, buf => .ok ([], none, buf)
  | n + 1, s, buf =>
    if buf.pos < buf.len then do
      let (c, buf) ← bufGetbyte buf
      match step s c with
      | none => return ([], some c, buf)
      | some s =>
        let (taken, stop, buf) ← getLoop step n s buf
        return (c :: taken, stop, buf)
    else .ok ([], none, buf)

/-- The same scan of a list of bytes. -/
def scanLoop {σ : Type} (step : σ → UInt8 → Option σ) : σ → Bytes → Bytes × Option UInt8
  | _, [] => ([], none)
  | s, c :: r =>
    match step s c with
    | none => ([], some c)
    | some s => (c :: (scanLoop step s r).1, (scanLoop step s r).2)

/-- The number of bytes that a scan takes, with the one that ends it. -/
def scanned (r : Bytes × Option UInt8) : ℕ := r.1.length + r.2.toList.length

section Loops

variable {σ : Type} {step : σ → UInt8 → Option σ} {s : σ} {b : Buffer} {n : ℕ}

theorem pos_lt_len_iff : b.pos < b.len ↔ b.rest ≠ [] := by
  rw [← List.length_pos_iff, Buffer.length_rest]
  omega

/-- **No byte is read behind the end.** -/
theorem getLoop_eq (h : b.len - b.pos ≤ n) :
    getLoop step n s b = .ok ((scanLoop step s b.rest).1, (scanLoop step s b.rest).2,
      b.advance (scanned (scanLoop step s b.rest))) := by
  induction n generalizing s b with
  | zero =>
    have hnil : b.rest = [] := by
      rw [← List.length_eq_zero_iff, Buffer.length_rest]
      omega
    rw [hnil]
    change Except.ok ([], none, b) = Except.ok ([], none, b.advance 0)
    rw [Buffer.advance_zero]
  | succ n ih =>
    unfold getLoop
    cases hrest : b.rest with
    | nil =>
      rw [if_neg fun hlt => pos_lt_len_iff.1 hlt hrest]
      change Except.ok ([], none, b) = Except.ok ([], none, b.advance 0)
      rw [Buffer.advance_zero]
    | cons c r =>
      have hlt : b.pos < b.len := pos_lt_len_iff.2 (by rw [hrest]; exact List.cons_ne_nil c r)
      have hbyte : bufGetbyte b = .ok (c, b.advance 1) := bufGetbyte_ok.2 ⟨⟨r, hrest⟩, rfl⟩
      have hr : (b.advance 1).rest = r := by
        rw [Buffer.rest_advance, hrest, List.drop_one, List.tail_cons]
      rw [if_pos hlt, hbyte, ok_bind]
      dsimp only
      unfold scanLoop
      cases step s c with
      | none => rfl
      | some s' =>
        have hlen : (b.advance 1).len - (b.advance 1).pos ≤ n := by
          rw [← Buffer.length_rest, hr]
          rw [← Buffer.length_rest, hrest, List.length_cons] at h
          omega
        dsimp only
        rw [ih hlen, ok_bind, hr, Buffer.advance_advance]
        dsimp only [scanned]
        rw [List.length_cons, Nat.add_comm 1, Nat.add_right_comm]
        rfl

theorem scanLoop_of_none {c : UInt8} {r : Bytes} (h : step s c = none) :
    scanLoop step s (c :: r) = ([], some c) := by
  unfold scanLoop
  rw [h]

theorem scanLoop_of_some {c : UInt8} {r : Bytes} {s' : σ} (h : step s c = some s') :
    scanLoop step s (c :: r) = (c :: (scanLoop step s' r).1, (scanLoop step s' r).2) := by
  rw [scanLoop, h]

theorem drop_scanned_of_some {c : UInt8} {r : Bytes} {s' : σ} (h : step s c = some s') :
    (c :: r).drop (scanned (scanLoop step s (c :: r))) = r.drop (scanned (scanLoop step s' r)) := by
  rw [scanLoop_of_some h]
  unfold scanned
  dsimp only
  rw [List.length_cons, Nat.add_right_comm, List.drop_succ_cons]

theorem scanned_le (s : σ) (bs : Bytes) : scanned (scanLoop step s bs) ≤ bs.length := by
  induction bs generalizing s with
  | nil => exact le_refl 0
  | cons c bs ih =>
    unfold scanLoop
    cases step s c with
    | none => exact Nat.le_add_left 1 _
    | some s' =>
      have h := ih s'
      unfold scanned at h ⊢
      dsimp only
      rw [List.length_cons, List.length_cons]
      omega

end Loops

/-- The bytes up to the first one with a property. -/
def stopAt (p : UInt8 → Bool) (_ : Unit) (c : UInt8) : Option Unit := if p c then none else some ()

theorem scanLoop_stopAt (p : UInt8 → Bool) (bs : Bytes) :
    scanLoop (stopAt p) () bs =
      (bs.takeWhile fun c => !p c, (bs.dropWhile fun c => !p c).head?) := by
  induction bs with
  | nil => rfl
  | cons c bs ih =>
    by_cases hc : p c
    · rw [scanLoop_of_none (if_pos hc)]
      simp [hc]
    · rw [scanLoop_of_some (if_neg hc), ih]
      simp [hc]

/-! ### Options -/

/-- `match_option`. -/
def matchOptionBuf (optionsBuf : Buffer) (optName : String) : Except Exit (Option Buffer) :=
  let len := (ascii optName).length
  if optionsBuf.len - optionsBuf.pos < len then return none
  else do
    let p ← bufGetptr optionsBuf len
    if p.map toLower = (ascii optName).map toLower then
      let optionsBuf ← bufIncrpos optionsBuf len
      return some optionsBuf
    else return none

/-- The scan for the quote behind a command. -/
def commandStep (escaped : Bool) (c : UInt8) : Option Bool :=
  if !escaped && c == 34 then none else some (!escaped && c == 92)

/-- A quoted value, from its first byte on: the pointers to both of its ends are taken. -/
def quotedBuf {σ : Type} (step : σ → UInt8 → Option σ) (s : σ) (optionsBuf : Buffer) :
    Except Exit (Option (Bytes × Buffer)) := do
  let _ ← bufGetptr optionsBuf 0
  let (v, stop, optionsBuf) ← getLoop step (optionsBuf.len - optionsBuf.pos) s optionsBuf
  if stop = none then return none
  else
    let _ ← bufGetptr optionsBuf 0
    return some (v, optionsBuf)

/-- One round of the loop of `svr_parse_pubkey_options`, up to `next_option`. -/
def parseOptionBuf (einval : Bool) (o : PubKeyOptions) (b : Buffer) :
    Except Exit (Option (PubKeyOptions × Buffer)) := do
  if let some b ← matchOptionBuf b "no-port-forwarding" then
    return some ({ o with noPortForwardingFlag := true }, b)
  else if let some b ← matchOptionBuf b "no-agent-forwarding" then
    return some ({ o with noAgentForwardingFlag := true }, b)
  else if let some b ← matchOptionBuf b "no-X11-forwarding" then
    return some (o, b)
  else if let some b ← matchOptionBuf b "no-pty" then
    return some ({ o with noPtyFlag := true }, b)
  else if let some b ← matchOptionBuf b "restrict" then
    return some ({ o with
      noPortForwardingFlag := true, noAgentForwardingFlag := true, noPtyFlag := true }, b)
  else if let some b ← matchOptionBuf b "command=\"" then
    -- multiple command= options are bad
    if o.forcedCommand.isSome then return none
    else
      let found ← quotedBuf commandStep false b
      return found.map fun (v, b) => ({ o with forcedCommand := some v }, b)
  else if let some b ← matchOptionBuf b "permitopen=\"" then
    let found ← quotedBuf (stopAt (· == 34)) () b
    return found.bind fun (v, b) => (permitOpenEntry einval (cstr v)).map fun e =>
      ({ o with permitOpenDestinations := some (o.permitOpenDestinations.getD [] ++ [e]) }, b)
  else if let some b ← matchOptionBuf b "permitlisten=\"" then
    let found ← quotedBuf (stopAt (· == 34)) () b
    return found.bind fun (v, b) => (mStrToUint einval (cstr v)).map fun p =>
      ({ o with permitListens := some (o.permitListens.getD [] ++ [⟨none, p⟩]) }, b)
  else if let some b ← matchOptionBuf b "no-touch-required" then
    return some ({ o with noTouchRequiredFlag := true }, b)
  else if let some b ← matchOptionBuf b "verify-required" then
    return some ({ o with verifyRequiredFlag := true }, b)
  else return some (o, b)

/-- The loop of `svr_parse_pubkey_options`, for at most `n` rounds. -/
def parseOptionsBuf (einval : Bool) : ℕ → PubKeyOptions → Buffer → Except Exit (Option PubKeyOptions)
  | 0, o, b => if b.pos < b.len then .ok none else .ok (some o)
  | n + 1, o, b =>
    if b.pos < b.len then do
      match ← parseOptionBuf einval o b with
      | none => return none
      | some (o, b) =>
        if b.pos < b.len then
          let (c, b) ← bufGetbyte b
          if c ≠ 44 then return none else parseOptionsBuf einval n o b
        else parseOptionsBuf einval n o b
    else .ok (some o)

/-- `svr_parse_pubkey_options`. -/
def svrParsePubkeyOptionsBuf (einval : Bool) : Option Buffer → Except Exit (Option PubKeyOptions)
  | none => .ok (some {})
  | some b => do
    let b ← bufSetpos b 0
    parseOptionsBuf einval b.len {} b

section Options

variable {einval : Bool} {b : Buffer} {o : PubKeyOptions}

/-- A function on buffers finds what a function on bytes finds, and leaves the same bytes. -/
def Agrees {α : Type} (x : Except Exit (Option (α × Buffer))) (y : Option (α × Bytes)) : Prop :=
  x = .ok none ∧ y = none ∨ ∃ a b, x = .ok (some (a, b)) ∧ y = some (a, b.rest)

theorem matchOptionBuf_cases (b : Buffer) (name : String) :
    (matchOptionBuf b name = .ok none ∧ matchOption b.rest name = none) ∨
      ∃ b', matchOptionBuf b name = .ok (some b') ∧ matchOption b.rest name = some b'.rest := by
  unfold matchOptionBuf matchOption
  dsimp only
  rw [← Buffer.length_rest]
  by_cases hlen : b.rest.length < (ascii name).length
  · rw [if_pos hlen, if_pos hlen]
    exact .inl ⟨rfl, rfl⟩
  rw [if_neg hlen, if_neg hlen, bufGetptr_eq, if_pos (Nat.le_of_not_lt hlen), ok_bind]
  split
  · rw [bufIncrpos_eq, if_pos (Nat.le_of_not_lt hlen), ok_bind]
    exact .inr ⟨_, rfl, by rw [Buffer.rest_advance]⟩
  · exact .inl ⟨rfl, rfl⟩

theorem bufGetptr_zero (b : Buffer) : bufGetptr b 0 = .ok [] := by
  rw [bufGetptr_eq, if_pos (Nat.zero_le _), List.take_zero]

/-- A quoted value is read as far as its scan goes. -/
theorem quotedBuf_agrees {σ : Type} {step : σ → UInt8 → Option σ} {s : σ}
    {scan : Bytes → Option (Bytes × Bytes)}
    (hscan : ∀ bs, scan bs = if (scanLoop step s bs).2 = none then none
      else some ((scanLoop step s bs).1, bs.drop (scanned (scanLoop step s bs)))) :
    Agrees (quotedBuf step s b) (scan b.rest) := by
  unfold quotedBuf
  rw [bufGetptr_zero, ok_bind, getLoop_eq (le_refl _), ok_bind, hscan]
  dsimp only
  split
  · exact .inl ⟨rfl, rfl⟩
  · rw [bufGetptr_zero, ok_bind]
    exact .inr ⟨_, _, rfl, by rw [Buffer.rest_advance]⟩

theorem scanCommand_eq (escaped : Bool) (bs : Bytes) :
    scanCommand escaped bs = if (scanLoop commandStep escaped bs).2 = none then none
      else some ((scanLoop commandStep escaped bs).1,
        bs.drop (scanned (scanLoop commandStep escaped bs))) := by
  induction bs generalizing escaped with
  | nil => rfl
  | cons c bs ih =>
    rw [scanCommand]
    split
    · next hc =>
      rw [scanLoop_of_none (if_pos hc)]
      rfl
    · next hc =>
      have hstep : commandStep escaped c = some (!escaped && c == 92) := if_neg hc
      rw [drop_scanned_of_some hstep, scanLoop_of_some hstep, ih]
      dsimp only
      split <;> rfl

theorem scanValue_eq (bs : Bytes) :
    scanValue bs = if (scanLoop (stopAt (· == 34)) () bs).2 = none then none
      else some ((scanLoop (stopAt (· == 34)) () bs).1,
        bs.drop (scanned (scanLoop (stopAt (· == 34)) () bs))) := by
  induction bs with
  | nil => rfl
  | cons c bs ih =>
    rw [scanValue]
    split
    · next hc =>
      rw [scanLoop_of_none (if_pos hc)]
      rfl
    · next hc =>
      have hstep : stopAt (· == 34) () c = some () := if_neg hc
      rw [drop_scanned_of_some hstep, scanLoop_of_some hstep, ih]
      dsimp only
      split <;> rfl

/-- One round on the buffer is one round on its bytes. -/
theorem parseOptionBuf_agrees :
    Agrees (parseOptionBuf einval o b) (parseOption einval o b.rest) := by
  unfold parseOptionBuf parseOption
  rcases matchOptionBuf_cases b "no-port-forwarding" with ⟨h, h'⟩ | ⟨b', h, h'⟩
  case inr => exact .inr ⟨_, b', by rw [h]; rfl, by rw [h']⟩
  rw [h, h', ok_bind]
  rcases matchOptionBuf_cases b "no-agent-forwarding" with ⟨h, h'⟩ | ⟨b', h, h'⟩
  case inr => exact .inr ⟨_, b', by rw [h]; rfl, by rw [h']⟩
  rw [h, h', ok_bind]
  rcases matchOptionBuf_cases b "no-X11-forwarding" with ⟨h, h'⟩ | ⟨b', h, h'⟩
  case inr => exact .inr ⟨_, b', by rw [h]; rfl, by rw [h']⟩
  rw [h, h', ok_bind]
  rcases matchOptionBuf_cases b "no-pty" with ⟨h, h'⟩ | ⟨b', h, h'⟩
  case inr => exact .inr ⟨_, b', by rw [h]; rfl, by rw [h']⟩
  rw [h, h', ok_bind]
  rcases matchOptionBuf_cases b "restrict" with ⟨h, h'⟩ | ⟨b', h, h'⟩
  case inr => exact .inr ⟨_, b', by rw [h]; rfl, by rw [h']⟩
  rw [h, h', ok_bind]
  rcases matchOptionBuf_cases b "command=\"" with ⟨h, h'⟩ | ⟨b', h, h'⟩
  case inr =>
    rw [h, h', ok_bind]
    dsimp only
    split
    · exact .inl ⟨rfl, rfl⟩
    rcases quotedBuf_agrees (b := b') (scanCommand_eq false) with ⟨hq, hv⟩ | ⟨v, b₁, hq, hv⟩
    · exact .inl ⟨by rw [hq]; rfl, by rw [hv]; rfl⟩
    · exact .inr ⟨_, b₁, by rw [hq]; rfl, by rw [hv]; rfl⟩
  rw [h, h', ok_bind]
  rcases matchOptionBuf_cases b "permitopen=\"" with ⟨h, h'⟩ | ⟨b', h, h'⟩
  case inr =>
    rw [h, h', ok_bind]
    dsimp only
    rcases quotedBuf_agrees (b := b') scanValue_eq with ⟨hq, hv⟩ | ⟨v, b₁, hq, hv⟩
    · exact .inl ⟨by rw [hq]; rfl, by rw [hv]; rfl⟩
    rw [hq, hv, ok_bind]
    cases hentry : permitOpenEntry einval (cstr v) with
    | none => exact .inl ⟨by simp [hentry], by simp [hentry]⟩
    | some e => exact .inr ⟨_, b₁, by simp [hentry]; rfl, by simp [hentry]⟩
  rw [h, h', ok_bind]
  rcases matchOptionBuf_cases b "permitlisten=\"" with ⟨h, h'⟩ | ⟨b', h, h'⟩
  case inr =>
    rw [h, h', ok_bind]
    dsimp only
    rcases quotedBuf_agrees (b := b') scanValue_eq with ⟨hq, hv⟩ | ⟨v, b₁, hq, hv⟩
    · exact .inl ⟨by rw [hq]; rfl, by rw [hv]; rfl⟩
    rw [hq, hv, ok_bind]
    cases hport : mStrToUint einval (cstr v) with
    | none => exact .inl ⟨by simp [hport], by simp [hport]⟩
    | some p => exact .inr ⟨_, b₁, by simp [hport]; rfl, by simp [hport]⟩
  rw [h, h', ok_bind]
  rcases matchOptionBuf_cases b "no-touch-required" with ⟨h, h'⟩ | ⟨b', h, h'⟩
  case inr => exact .inr ⟨_, b', by rw [h]; rfl, by rw [h']⟩
  rw [h, h', ok_bind]
  rcases matchOptionBuf_cases b "verify-required" with ⟨h, h'⟩ | ⟨b', h, h'⟩
  case inr => exact .inr ⟨_, b', by rw [h]; rfl, by rw [h']⟩
  rw [h, h', ok_bind]
  exact .inr ⟨_, _, rfl, rfl⟩

theorem bufSetpos_zero (b : Buffer) :
    ∃ b', bufSetpos b 0 = .ok b' ∧ b'.rest = b.contents ∧ b'.len = b.contents.length := by
  refine ⟨_, dif_neg (Nat.not_lt_zero _), rfl, ?_⟩
  rw [Buffer.contents, List.length_take, Nat.min_eq_left b.len_le]

theorem parseOptionsBuf_eq (n : ℕ) (o : PubKeyOptions) (b : Buffer) :
    parseOptionsBuf einval n o b = .ok (parseOptions einval n o b.rest) := by
  induction n generalizing o b with
  | zero =>
    unfold parseOptionsBuf parseOptions
    cases hrest : b.rest with
    | nil => rw [if_neg fun hlt => pos_lt_len_iff.1 hlt hrest]
    | cons c r => rw [if_pos (pos_lt_len_iff.2 (by simp [hrest]))]
  | succ n ih =>
    unfold parseOptionsBuf
    by_cases hlt : b.pos < b.len
    swap
    · have hnil : b.rest = [] := not_ne_iff.1 fun hne => hlt (pos_lt_len_iff.2 hne)
      rw [if_neg hlt, hnil]
      rfl
    obtain ⟨c, r, hrest⟩ := List.exists_cons_of_ne_nil (pos_lt_len_iff.1 hlt)
    rw [if_pos hlt, hrest]
    unfold parseOptions
    rw [← hrest]
    rcases parseOptionBuf_agrees (o := o) (b := b) with ⟨h, h'⟩ | ⟨o', b', h, h'⟩
    · rw [h, h']
      rfl
    rw [h, h', ok_bind]
    dsimp only
    cases hrest' : b'.rest with
    | nil =>
      rw [if_neg fun hlt => pos_lt_len_iff.1 hlt hrest', ih, hrest']
      cases n <;> rfl
    | cons c' r' =>
      have hbyte : bufGetbyte b' = .ok (c', b'.advance 1) := bufGetbyte_ok.2 ⟨⟨r', hrest'⟩, rfl⟩
      rw [if_pos (pos_lt_len_iff.2 (by simp [hrest'])), hbyte, ok_bind]
      dsimp only
      by_cases hc : c' = 44
      · rw [if_neg (not_not.2 hc), if_pos hc, ih, Buffer.rest_advance, hrest', List.drop_one,
          List.tail_cons]
      · rw [if_pos hc, if_neg hc]
        rfl

/-- **The options are read within their buffer**, whatever they are. -/
theorem svrParsePubkeyOptionsBuf_eq (options : Option Buffer) :
    svrParsePubkeyOptionsBuf einval options =
      .ok (svrParsePubkeyOptions einval (options.map Buffer.contents)) := by
  cases options with
  | none => rfl
  | some b =>
    obtain ⟨b', hok, hrest, hlen⟩ := bufSetpos_zero b
    change (bufSetpos b 0 >>= fun b => parseOptionsBuf einval b.len {} b) =
      .ok (parseOptions einval b.contents.length {} b.contents)
    rw [hok, ok_bind, parseOptionsBuf_eq, hrest, hlen]

end Options

end Ps4Dropbear
