import Ps4Dropbear.Buffer.Content

/-!
# Loading a file

`buf_readfile`, with every way in which the calls of `read` can go, and the two callers of the
server: `readhostkey` and `load_banner`.  A read that is interrupted is meant to be repeated; the
`continue` goes to the condition of the `do` loop instead, where `len` is `-1`.

* `bufReadfile` : the function, on a file and what the calls of `read` do.
* `Loaded` : what a buffer is when all of the file, or as much as fits, has been read into it.
* `bufReadfile_loaded_iff` : **when a load that succeeds is complete**.
-/

namespace Ps4Dropbear

/-- `errno` behind a `read` that failed. -/
inductive ReadErrno where
  | eintr
  | eagain
  | other
  deriving DecidableEq, Repr

/-- What a call of `read` does. -/
inductive ReadCall where
  /-- It gives at most `n + 1` bytes: none only for a request of none, or at the end of the
  file. -/
  | data (n : ℕ)
  | failed (errno : ReadErrno)
  deriving DecidableEq, Repr

/-- How far `buf_readfile` gets. -/
inductive FileRead where
  | success (buf : Buffer)
  | failure (buf : Buffer)
  /-- A call of `read` has not returned. -/
  | waiting

/-- The condition of the loop of `buf_readfile`. -/
def readsOn (len maxlen : ℤ) : Bool := len < maxlen && len > 0

/-- The loop of `buf_readfile`, with `file` left behind the offset of `fd`. -/
def readfileLoop (file : Bytes) (buf : Buffer) : List ReadCall → Except Exit FileRead
  | [] => do
    bufGetwriteptr buf (buf.data.length - buf.pos)
    return .waiting
  | call :: calls => do
    let maxlen := buf.data.length - buf.pos
    bufGetwriteptr buf maxlen
    match call with
    | .failed errno =>
      if errno = .eintr ∨ errno = .eagain then
        -- `continue`
        if readsOn (-1) maxlen then readfileLoop file buf calls else return .success buf
      else return .failure buf
    | .data n =>
      let bs := file.take (min maxlen (n + 1))
      let buf ← bufOverwrite buf maxlen bs
      let buf ← bufIncrwritepos buf bs.length
      if readsOn bs.length maxlen then readfileLoop (file.drop bs.length) buf calls
      else return .success buf

/-- `buf_readfile`; there is no file when it cannot be opened. -/
def bufReadfile (buf : Buffer) (file : Option Bytes) (calls : List ReadCall) :
    Except Exit FileRead :=
  match file with
  | none => .ok (.failure buf)
  | some file => readfileLoop file buf calls

/-- A new buffer with a file in it, at the position zero. -/
def loadFile (size : ℕ) (file : Option Bytes) (calls : List ReadCall) :
    Except Exit (Option Buffer) := do
  let buf ← bufNew size
  match ← bufReadfile buf file calls with
  | .success buf => return some (← bufSetpos buf 0)
  | _ => return none

/-- `MAX_PRIVKEY_SIZE`. -/
def maxPrivkeySize : ℕ := 1700

/-- `MAX_BANNER_SIZE`. -/
def maxBannerSize : ℕ := 2050

/-- The buffer that `readhostkey` gives to `buf_get_priv_key`. -/
def readhostkeyBuf (file : Option Bytes) (calls : List ReadCall) : Except Exit (Option Buffer) :=
  loadFile maxPrivkeySize file calls

/-- `load_banner`, with the size that `stat` reports: `svr_opts.banner`. -/
def loadBanner (stSize : Option ℕ) (file : Option Bytes) (calls : List ReadCall) :
    Except Exit (Option Buffer) :=
  match stSize with
  | none => .ok none
  | some stSize => if stSize > maxBannerSize then .ok none else loadFile stSize file calls

/-- The buffer `b` is `a` with `bs` written at the position, which is behind them then. -/
structure Wrote (a : Buffer) (bs : Bytes) (b : Buffer) : Prop where
  data : b.data = overwrite a.data a.pos bs
  pos : b.pos = a.pos + bs.length
  len : b.len = max a.len b.pos

/-- The room behind the position. -/
def Buffer.room (buf : Buffer) : ℕ := buf.data.length - buf.pos

/-- The file, or as much of it as there is room for, has been written. -/
def Loaded (a : Buffer) (file : Bytes) (b : Buffer) : Prop := Wrote a (file.take a.room) b

/-- The first call that fails is interrupted, while bytes of the file are left and there is room
for them. -/
def InterruptedEarly (file : Bytes) (room : ℕ) (calls : List ReadCall) : Prop :=
  ∃ (ns : List ℕ) (errno : ReadErrno) (rest : List ReadCall),
    calls = ns.map ReadCall.data ++ ReadCall.failed errno :: rest ∧
    (errno = .eintr ∨ errno = .eagain) ∧ (ns.map (· + 1)).sum < min file.length room

/-! ### One call of `read` -/

section Calls

variable {file x y : Bytes} {a b c : Buffer} {calls : List ReadCall} {errno : ReadErrno}
  {n k free : ℕ}

theorem Wrote.room (h : Wrote a x b) (hx : x.length ≤ a.room) : b.room = a.room - x.length := by
  have hpos := a.pos_le
  have hlen := a.len_le
  unfold Buffer.room at hx ⊢
  rw [h.data, length_overwrite (by omega), h.pos]
  omega

theorem Wrote.append (h : Wrote a x b) (hx : x.length ≤ a.room) :
    Wrote b y c ↔ Wrote a (x ++ y) c := by
  have hpos := a.pos_le
  have hlen := a.len_le
  unfold Buffer.room at hx
  have hdata : overwrite b.data b.pos y = overwrite a.data a.pos (x ++ y) := by
    rw [h.data, h.pos, overwrite_overwrite (by omega)]
  have hend : b.pos + y.length = a.pos + (x ++ y).length := by
    rw [h.pos, List.length_append, Nat.add_assoc]
  have hused := h.len
  constructor
  · intro hy
    have hpos' := hy.pos
    exact ⟨hy.data.trans hdata, hpos'.trans hend, by rw [hy.len]; omega⟩
  · intro hxy
    have hpos' := hxy.pos.trans hend.symm
    exact ⟨hxy.data.trans hdata.symm, hpos', by rw [hxy.len]; omega⟩

theorem Wrote.refl (a : Buffer) : Wrote a [] a := by
  refine ⟨?_, rfl, (Nat.max_eq_left a.pos_le).symm⟩
  unfold overwrite
  rw [List.append_nil, List.length_nil, Nat.add_zero, List.take_append_drop]

theorem room_le (a : Buffer) : a.room ≤ bufMaxIncr := by
  have hsize := a.size_le
  unfold Buffer.room
  simp only [bufMaxIncr, bufMaxSize] at hsize ⊢
  omega

theorem getwriteptr_room (a : Buffer) :
    bufGetwriteptr a (a.data.length - a.pos) = .ok () := by
  have hpos := a.pos_le
  have hlen := a.len_le
  have hroom := room_le a
  unfold Buffer.room at hroom
  unfold bufGetwriteptr
  rw [if_neg (by omega)]

/-- Bytes are read to the position. -/
theorem exists_wrote (hx : x.length ≤ a.room) :
    ∃ a₁ b, bufOverwrite a (a.data.length - a.pos) x = .ok a₁ ∧
      bufIncrwritepos a₁ x.length = .ok b ∧ Wrote a x b := by
  have hpos := a.pos_le
  have hlen := a.len_le
  have hroom := room_le a
  unfold Buffer.room at hx hroom
  have hsize : (a.memcpy x (by omega)).data.length = a.data.length := length_overwrite (by omega)
  refine ⟨a.memcpy x (by omega), _, ?_, dif_neg ?_, rfl, rfl, rfl⟩
  · unfold bufOverwrite
    rw [dif_neg (by omega)]
    simp only [List.take_of_length_le hx]
  · change ¬ (x.length > bufMaxIncr ∨ a.pos + x.length > (a.memcpy x _).data.length)
    omega

/-- What is left to be loaded behind a part of the file. -/
theorem Wrote.loaded (h : Wrote a (file.take n) b) (hn : n ≤ a.room) :
    Loaded b (file.drop (file.take n).length) c ↔ Loaded a file c := by
  have hx : (file.take n).length ≤ a.room := Nat.le_trans (List.length_take_le n file) hn
  have hfront : file.take (file.take n).length = file.take n := by
    rw [List.length_take, List.take_eq_take_iff]
    omega
  unfold Loaded
  rw [h.room hx, h.append hx]
  nth_rewrite 1 [← hfront]
  rw [← List.take_add, Nat.add_sub_cancel' hx]

theorem readsOn_iff (k maxlen : ℕ) : readsOn k maxlen ↔ k < maxlen ∧ 0 < k := by
  simp [readsOn]

/-- A call that gives bytes. -/
theorem readfileLoop_data (file : Bytes) (a : Buffer) (n : ℕ) (calls : List ReadCall) :
    ∃ b, Wrote a (file.take (min a.room (n + 1))) b ∧
      readfileLoop file a (.data n :: calls) =
        if readsOn (file.take (min a.room (n + 1))).length a.room then
          readfileLoop (file.drop (file.take (min a.room (n + 1))).length) b calls
        else .ok (.success b) := by
  have hx : (file.take (min a.room (n + 1))).length ≤ a.room :=
    Nat.le_trans (List.length_take_le _ file) (Nat.min_le_left _ _)
  obtain ⟨a₁, b, hover, hincr, hwrote⟩ := exists_wrote hx
  refine ⟨b, hwrote, ?_⟩
  rw [readfileLoop, getwriteptr_room, ok_bind]
  change (do
    let buf ← bufOverwrite a (a.data.length - a.pos) (file.take (min a.room (n + 1)))
    let buf ← bufIncrwritepos buf (file.take (min a.room (n + 1))).length
    if readsOn (file.take (min a.room (n + 1))).length a.room then
      readfileLoop (file.drop (file.take (min a.room (n + 1))).length) buf calls
    else return .success buf) = _
  rw [hover, ok_bind, hincr, ok_bind]
  rfl

/-- An interrupted call is the last one. -/
theorem readfileLoop_interrupted (h : errno = .eintr ∨ errno = .eagain) :
    readfileLoop file a (.failed errno :: calls) = .ok (.success a) := by
  rw [readfileLoop, getwriteptr_room, ok_bind]
  rw [if_pos h, if_neg (by simp [readsOn])]
  rfl

theorem readfileLoop_failed (h : ¬ (errno = .eintr ∨ errno = .eagain)) :
    readfileLoop file a (.failed errno :: calls) = .ok (.failure a) := by
  rw [readfileLoop, getwriteptr_room, ok_bind]
  rw [if_neg h]
  rfl

theorem readfileLoop_wrote (h : readfileLoop file a calls = .ok (.success c)) :
    ∃ x, Wrote a x c := by
  induction calls generalizing file a with
  | nil =>
    rw [readfileLoop, getwriteptr_room, ok_bind] at h
    cases h
  | cons call calls ih =>
    cases call with
    | failed errno =>
      by_cases he : errno = .eintr ∨ errno = .eagain
      · rw [readfileLoop_interrupted he] at h
        cases h
        exact ⟨[], Wrote.refl _⟩
      · rw [readfileLoop_failed he] at h
        cases h
    | data n =>
      obtain ⟨b, hwrote, hstep⟩ := readfileLoop_data file a n calls
      rw [hstep] at h
      by_cases hgo : readsOn (file.take (min a.room (n + 1))).length a.room
      · rw [if_pos hgo] at h
        obtain ⟨y, hy⟩ := ih h
        have hx : (file.take (min a.room (n + 1))).length ≤ a.room :=
          Nat.le_trans (List.length_take_le _ file) (Nat.min_le_left _ _)
        exact ⟨_, (hwrote.append hx).1 hy⟩
      · rw [if_neg hgo] at h
        cases h
        exact ⟨_, hwrote⟩

/-! ### Interrupted calls -/

theorem interruptedEarly_nil : ¬ InterruptedEarly file free [] := by
  rintro ⟨ns, _, _, h, -⟩
  simp at h

theorem interruptedEarly_failed : InterruptedEarly file free (.failed errno :: calls) ↔
    (errno = .eintr ∨ errno = .eagain) ∧ 0 < min file.length free := by
  constructor
  · rintro ⟨ns, e, rest, h, he, hsum⟩
    cases ns with
    | nil =>
      cases h
      exact ⟨he, hsum⟩
    | cons n ns => cases h
  · rintro ⟨he, hfree⟩
    exact ⟨[], errno, calls, rfl, he, hfree⟩

theorem InterruptedEarly.left (h : InterruptedEarly file free calls) :
    0 < min file.length free := by
  obtain ⟨_, _, _, -, -, hsum⟩ := h
  omega

theorem interruptedEarly_data (hk : k = min (min free (n + 1)) file.length) :
    InterruptedEarly file free (.data n :: calls) ↔
      InterruptedEarly (file.drop k) (free - k) calls := by
  have hleft : (file.drop k).length = file.length - k := List.length_drop
  constructor
  · rintro ⟨ns, e, rest, h, he, hsum⟩
    cases ns with
    | nil => cases h
    | cons m ns =>
      cases h
      rw [List.map_cons, List.sum_cons] at hsum
      exact ⟨ns, e, rest, rfl, he, by omega⟩
  · rintro ⟨ns, e, rest, rfl, he, hsum⟩
    refine ⟨n :: ns, e, rest, rfl, he, ?_⟩
    rw [List.map_cons, List.sum_cons]
    omega

theorem loaded_self_iff : Loaded a file a ↔ min file.length a.room = 0 := by
  constructor
  · intro h
    have hpos := h.pos
    rw [List.length_take] at hpos
    omega
  · intro h
    have hnil : file.take a.room = [] := by
      rw [← List.length_eq_zero_iff, List.length_take]
      omega
    unfold Loaded
    rw [hnil]
    exact Wrote.refl a

theorem readfileLoop_loaded_iff :
    (∀ c, readfileLoop file a calls = .ok (.success c) → Loaded a file c) ↔
      ¬ InterruptedEarly file a.room calls := by
  induction calls generalizing file a with
  | nil =>
    refine iff_of_true (fun c h => ?_) interruptedEarly_nil
    rw [readfileLoop, getwriteptr_room, ok_bind] at h
    cases h
  | cons call calls ih =>
    cases call with
    | failed errno =>
      rw [interruptedEarly_failed]
      by_cases he : errno = .eintr ∨ errno = .eagain
      · -- the load ends with what is there
        rw [readfileLoop_interrupted he]
        have hself : (∀ c, (.ok (.success a) : Except Exit FileRead) = .ok (.success c) →
            Loaded a file c) ↔ Loaded a file a :=
          ⟨fun h => h a rfl, fun h c hc => by cases hc; exact h⟩
        rw [hself, loaded_self_iff, and_iff_right he]
        omega
      · refine iff_of_true (fun c h => ?_) fun h => he h.1
        rw [readfileLoop_failed he] at h
        cases h
    | data n =>
      obtain ⟨b, hwrote, hstep⟩ := readfileLoop_data file a n calls
      have hk : (file.take (min a.room (n + 1))).length = min (min a.room (n + 1)) file.length :=
        List.length_take
      have hroom := hwrote.room (by omega)
      rw [hstep, interruptedEarly_data hk, ← hroom]
      by_cases hgo : readsOn (file.take (min a.room (n + 1))).length a.room
      · rw [if_pos hgo, ← ih]
        simp only [hwrote.loaded (Nat.min_le_left _ _)]
      · -- nothing is left, or there is no more room
        rw [if_neg hgo]
        rw [readsOn_iff] at hgo
        have hend : min (file.drop (file.take (min a.room (n + 1))).length).length b.room = 0 := by
          rw [List.length_drop, hroom]
          omega
        refine iff_of_true (fun c h => ?_) fun h => ?_
        · cases h
          rw [← hwrote.loaded (Nat.min_le_left _ _)]
          exact loaded_self_iff.2 hend
        · have hleft := h.left
          omega

/-! ### New buffers -/

theorem Wrote.contents (ha : a.pos = 0) (hlen : a.len = 0) (h : Wrote a x c) :
    c.contents = x := by
  have hend := h.len
  rw [hlen, Nat.zero_max, h.pos, ha, Nat.zero_add] at hend
  unfold Buffer.contents
  rw [h.data, hend, ha]
  exact List.take_left

theorem loadFile_iff (hsize : n ≤ bufMaxSize) :
    (∀ b, loadFile n (some file) calls = .ok (some b) → b.contents = file.take n) ↔
      ¬ InterruptedEarly file n calls := by
  obtain ⟨a, hnew, ha⟩ := Buffer.bufNew_has hsize
  have hfree : a.room = n := by
    unfold Buffer.room
    rw [ha.size, ha.pos, Nat.sub_zero]
  have hcontents : ∀ {x c}, Wrote a x c → c.contents = x := Wrote.contents ha.pos ha.len
  rw [← hfree, ← readfileLoop_loaded_iff]
  unfold loadFile
  rw [hfree, hnew, ok_bind]
  change (∀ b, (readfileLoop file a calls >>= fun r => match r with
    | .success buf => (do return some (← bufSetpos buf 0))
    | _ => return none) = .ok (some b) → b.contents = file.take n) ↔ _
  constructor
  · intro h c hc
    rw [hc, ok_bind] at h
    have hwhole := h { c with pos := 0, pos_le := Nat.zero_le _ } rfl
    obtain ⟨x, hx⟩ := readfileLoop_wrote hc
    have hxc : c.contents = x := hcontents hx
    unfold Loaded
    rw [hfree, ← hwhole]
    change Wrote a c.contents c
    rwa [hxc]
  · intro h b hb
    obtain ⟨r, hr, hset⟩ := bind_eq_ok.1 hb
    cases r with
    | success c =>
      cases hset
      have hloaded : Wrote a (file.take a.room) c := h c hr
      rw [hfree] at hloaded
      exact (hcontents hloaded : c.contents = file.take n)
    | failure c => cases hset
    | waiting => cases hset

end Calls

/-- **A load that succeeds is complete exactly when no read is interrupted while there is
something left to be read.**  So it is with the buffers of host keys and of the banner. -/
theorem bufReadfile_loaded_iff (file : Bytes) (calls : List ReadCall) :
    (∀ a : Buffer, (∀ c, bufReadfile a (some file) calls = .ok (.success c) → Loaded a file c) ↔
      ¬ InterruptedEarly file a.room calls) ∧
    ((∀ b, readhostkeyBuf (some file) calls = .ok (some b) →
        b.contents = file.take maxPrivkeySize) ↔
      ¬ InterruptedEarly file maxPrivkeySize calls) ∧
    ∀ stSize ≤ maxBannerSize,
      (∀ b, loadBanner (some stSize) (some file) calls = .ok (some b) →
        b.contents = file.take stSize) ↔ ¬ InterruptedEarly file stSize calls := by
  refine ⟨fun a => readfileLoop_loaded_iff, loadFile_iff (by decide), fun stSize hst => ?_⟩
  have hload : loadBanner (some stSize) (some file) calls = loadFile stSize (some file) calls :=
    if_neg (Nat.not_lt.2 hst)
  rw [hload]
  exact loadFile_iff (Nat.le_trans hst (by decide))

/-- The second read of a banner is interrupted. -/
theorem loadBanner_part :
    ∃ b, loadBanner (some 8) (some (ascii "Welcome\n")) [.data 2, .failed .eintr] = .ok (some b) ∧
      b.contents = ascii "Wel" :=
  ⟨_, rfl, rfl⟩

end Ps4Dropbear
