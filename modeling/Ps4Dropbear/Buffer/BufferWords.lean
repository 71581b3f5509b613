import Ps4Dropbear.Buffer.Content
import Ps4Dropbear.LTS.Basic
import Ps4Dropbear.Prog.Logged

/-!
# Buffers in machine words

The functions of `buffer.c` on three `unsigned int` fields that nothing is known about, with the
sums as the machine computes them.  Every sum and every access to the storage is an event of the
log, also when the function ends in `dropbear_exit`.

* `Buffer.words` : a `Buffer` as its fields; the functions on the fields do what the functions of
  `Buffer.Basic` and `Buffer.Content` do (`sim_bufIncrlen`, `sim_bufGetstring`, ...).
* `BufWords.Valid` : the representation invariant, which says that the fields are those of a
  `Buffer` (`valid_words`, `Valid.exists_words`).
-/

namespace Ps4Dropbear

/-- `struct buf` as it lies in memory, with what has been allocated for it. -/
structure BufWords where
  data : Bytes
  len : UInt32
  pos : UInt32
  size : UInt32
  deriving DecidableEq

/-- What a function does on its way.  An access has the buffer as it was then, the index and the
number of bytes. -/
inductive BufEvent where
  | add (a b : UInt32)
  | sub (a b : UInt32)
  | load (buf : BufWords) (i n : ℕ)
  | store (buf : BufWords) (i n : ℕ)

/-- Sums and differences are those of the numbers; what is read is in use, what is written is
storage. -/
def BufEvent.InBounds : BufEvent → Prop
  | add a b => a.toNat + b.toNat < 2 ^ 32
  | sub a b => b ≤ a
  | load buf i n => i + n ≤ buf.len.toNat ∧ buf.len.toNat ≤ buf.data.length
  | store buf i n => i + n ≤ buf.size.toNat ∧ buf.size.toNat ≤ buf.data.length

/-- A function of `buffer.c`. -/
abbrev BufM (α : Type) : Type := Logged BufEvent Exit α

/-- The first `n` bytes of a memory. -/
def memory (bytes : ℕ → UInt8) (n : ℕ) : Bytes := (List.range n).map bytes

@[simp] theorem length_memory (bytes : ℕ → UInt8) (n : ℕ) : (memory bytes n).length = n := by
  rw [memory, List.length_map, List.length_range]

namespace BufWords

/-- `dropbear_exit`. -/
def exit {α : Type} (msg : Exit) : BufM α := .throw msg

/-- An unsigned sum. -/
def add (a b : UInt32) : BufM UInt32 := .event (.add a b) (a + b)

/-- An unsigned difference. -/
def sub (a b : UInt32) : BufM UInt32 := .event (.sub a b) (a - b)

/-- Reading `n` bytes from `data + i`. -/
def load (buf : BufWords) (i n : UInt32) : BufM Bytes :=
  .event (.load buf i.toNat n.toNat) ((buf.data.drop i.toNat).take n.toNat)

/-- Writing to `data + i`. -/
def store (buf : BufWords) (i : UInt32) (bs : Bytes) : BufM BufWords :=
  .event (.store buf i.toNat bs.length) { buf with data := overwrite buf.data i.toNat bs }

/-- `incr > BUF_MAX_INCR || x + incr > bound`. -/
def tooFar (x incr bound : UInt32) : BufM Bool :=
  if incr > UInt32.ofNat bufMaxIncr then return true
  else do
    let sum ← add x incr
    return sum > bound

/-- `buf_new`. -/
def bufNew (size : UInt32) : BufM BufWords :=
  if size > UInt32.ofNat bufMaxSize then exit "buf->size too big"
  else return { data := List.replicate size.toNat 0, len := 0, pos := 0, size := size }

/-- `buf_resize`; `fresh` is what `m_realloc` leaves in new storage. -/
def bufResize (buf : BufWords) (newsize : UInt32) (fresh : ℕ → UInt8) : BufM BufWords :=
  if newsize > UInt32.ofNat bufMaxSize then exit "buf->size too big"
  else return {
    data := buf.data.take newsize.toNat ++ memory fresh (newsize.toNat - buf.data.length)
    len := min newsize buf.len
    pos := min newsize buf.pos
    size := newsize }

/-- `buf_newcopy`. -/
def bufNewcopy (buf : BufWords) : BufM BufWords := do
  let ret ← bufNew buf.len
  let ret := { ret with len := buf.len }
  if buf.len > 0 then
    let bs ← load buf 0 buf.len
    store ret 0 bs
  else return ret

/-- `buf_setlen`. -/
def bufSetlen (buf : BufWords) (len : UInt32) : BufM BufWords :=
  if len > buf.size then exit "Bad buf_setlen"
  else return { buf with len := len, pos := min buf.pos len }

/-- `buf_incrlen`. -/
def bufIncrlen (buf : BufWords) (incr : UInt32) : BufM BufWords := do
  if ← tooFar buf.len incr buf.size then exit "Bad buf_incrlen"
  else
    let len ← add buf.len incr
    return { buf with len := len }

/-- `buf_setpos`. -/
def bufSetpos (buf : BufWords) (pos : UInt32) : BufM BufWords :=
  if pos > buf.len then exit "Bad buf_setpos"
  else return { buf with pos := pos }

/-- `buf_incrwritepos`. -/
def bufIncrwritepos (buf : BufWords) (incr : UInt32) : BufM BufWords := do
  if ← tooFar buf.pos incr buf.size then exit "Bad buf_incrwritepos"
  else
    let pos ← add buf.pos incr
    return { buf with pos := pos, len := if pos > buf.len then pos else buf.len }

/-- `buf_incrpos`. -/
def bufIncrpos (buf : BufWords) (incr : UInt32) : BufM BufWords := do
  if ← tooFar buf.pos incr buf.len then exit "Bad buf_incrpos"
  else
    let pos ← add buf.pos incr
    return { buf with pos := pos }

/-- `buf_decrpos`. -/
def bufDecrpos (buf : BufWords) (decr : UInt32) : BufM BufWords :=
  if decr > buf.pos then exit "Bad buf_decrpos"
  else do
    let pos ← sub buf.pos decr
    return { buf with pos := pos }

/-- `buf_getbyte`. -/
def bufGetbyte (buf : BufWords) : BufM (UInt8 × BufWords) :=
  if buf.pos ≥ buf.len then exit "Bad buf_getbyte"
  else do
    let bs ← load buf buf.pos 1
    let pos ← add buf.pos 1
    return (bs.headD 0, { buf with pos := pos })

/-- `buf_putbyte`. -/
def bufPutbyte (buf : BufWords) (val : UInt8) : BufM BufWords := do
  let buf ← (if buf.pos ≥ buf.len then bufIncrlen buf 1 else return buf)
  let buf ← store buf buf.pos [val]
  let pos ← add buf.pos 1
  return { buf with pos := pos }

/-- `buf_getptr`: the pointer is an index into the storage. -/
def bufGetptr (buf : BufWords) (len : UInt32) : BufM UInt32 := do
  if ← tooFar buf.pos len buf.len then exit "Bad buf_getptr" else return buf.pos

/-- `buf_getwriteptr`. -/
def bufGetwriteptr (buf : BufWords) (len : UInt32) : BufM UInt32 := do
  if ← tooFar buf.pos len buf.size then exit "Bad buf_getwriteptr" else return buf.pos

/-- `buf_getint`. -/
def bufGetint (buf : BufWords) : BufM (UInt32 × BufWords) := do
  let p ← bufGetptr buf 4
  let bs ← load buf p 4
  let buf ← bufIncrpos buf 4
  return (UInt32.ofNat (load32h bs), buf)

/-- `buf_putbytes`, of the bytes that lie at a pointer. -/
def bufPutbytes (buf : BufWords) (bytes : ℕ → UInt8) (len : UInt32) : BufM BufWords := do
  let p ← bufGetwriteptr buf len
  let buf ← store buf p (memory bytes len.toNat)
  bufIncrwritepos buf len

/-- `buf_putint`. -/
def bufPutint (buf : BufWords) (val : UInt32) : BufM BufWords := do
  let p ← bufGetwriteptr buf 4
  let buf ← store buf p (store32h val.toNat)
  bufIncrwritepos buf 4

/-- `buf_putstring`. -/
def bufPutstring (buf : BufWords) (str : ℕ → UInt8) (len : UInt32) : BufM BufWords := do
  let buf ← bufPutint buf len
  bufPutbytes buf str len

/-- `buf_getstring`, without the NUL that it puts behind the copy. -/
def bufGetstring (buf : BufWords) : BufM (Bytes × BufWords) := do
  let (len, buf) ← bufGetint buf
  if len > UInt32.ofNat maxStringLen then exit "String too long"
  else
    let src ← bufGetptr buf len
    -- the size of the copy
    let _ ← add len 1
    let ret ← load buf src len
    let buf ← bufIncrpos buf len
    return (ret, buf)

/-- `buf_getstringbuf_int`: the new buffer, and the buffer that is read. -/
def bufGetstringbufInt (buf : BufWords) (incllen : Bool) : BufM (BufWords × BufWords) := do
  let (len, buf) ← bufGetint buf
  if len > UInt32.ofNat maxStringLen then exit "String too long"
  else
    let extra : UInt32 := if incllen then 4 else 0
    let size ← add len extra
    let ret ← bufNew size
    let ret ← (if incllen then bufPutint ret len else return ret)
    let dst ← bufGetwriteptr ret len
    let src ← bufGetptr buf len
    let bs ← load buf src len
    let ret ← store ret dst bs
    let buf ← bufIncrpos buf len
    let ret ← bufIncrlen ret len
    let ret ← bufSetpos ret 0
    return (ret, buf)

/-- `buf_getstringbuf`. -/
def bufGetstringbuf (buf : BufWords) : BufM (BufWords × BufWords) := bufGetstringbufInt buf false

/-- `buf_getbuf`. -/
def bufGetbuf (buf : BufWords) : BufM (BufWords × BufWords) := bufGetstringbufInt buf true

/-- `buf_eatstring`. -/
def bufEatstring (buf : BufWords) : BufM BufWords := do
  let (len, buf) ← bufGetint buf
  bufIncrpos buf len

/-- The representation invariant: the positions are in order, and there is as much storage as the
buffer says. -/
structure Valid (buf : BufWords) : Prop where
  pos_le : buf.pos ≤ buf.len
  len_le : buf.len ≤ buf.size
  size_le : buf.size.toNat ≤ 10 ^ 9
  length_data : buf.data.length = buf.size.toNat

end BufWords

/-! ### Functions that the other modules do not need -/

/-- `len` stays within the memory. -/
theorem Buffer.min_len_le (b : Buffer) (fresh : ℕ → UInt8) (n : ℕ) :
    min n b.len ≤ (b.data.take n ++ memory fresh (n - b.data.length)).length := by
  have := b.len_le
  simp only [List.length_append, List.length_take, length_memory]
  omega

theorem Buffer.length_realloc_le (b : Buffer) (fresh : ℕ → UInt8) {n : ℕ} (h : n ≤ bufMaxSize) :
    (b.data.take n ++ memory fresh (n - b.data.length)).length ≤ bufMaxSize := by
  simp only [List.length_append, List.length_take, length_memory]
  omega

/-- `buf_resize`, with what `m_realloc` leaves in new storage. -/
def bufRealloc (buf : Buffer) (newsize : ℕ) (fresh : ℕ → UInt8) : Except Exit Buffer :=
  if h : newsize > bufMaxSize then dropbearExit "buf->size too big"
  else .ok
    { data := buf.data.take newsize ++ memory fresh (newsize - buf.data.length)
      len := min newsize buf.len
      pos := min newsize buf.pos
      pos_le := buf.min_pos_le newsize
      len_le := buf.min_len_le fresh newsize
      size_le := buf.length_realloc_le fresh (Nat.not_lt.1 h) }

/-- `buf_newcopy`, which does not exit. -/
def bufNewcopy (buf : Buffer) : Buffer :=
  Buffer.ofBytes buf.contents ((List.length_take_le' _ _).trans buf.size_le)

/-- `buf_getstringbuf_int`: the new buffer, and the buffer that is read. -/
def bufGetstringbufInt (buf : Buffer) (incllen : Bool) : Except Exit (Buffer × Buffer) := do
  let (len, buf) ← bufGetint buf
  if len > maxStringLen then dropbearExit "String too long"
  else
    let ret ← bufNew (len + if incllen then 4 else 0)
    let ret ← (if incllen then bufPutint ret len else .ok ret)
    bufGetwriteptr ret len
    let src ← bufGetptr buf len
    let ret ← bufOverwrite ret len src
    let buf ← bufIncrpos buf len
    let ret ← bufIncrlen ret len
    let ret ← bufSetpos ret 0
    return (ret, buf)

/-! ### The fields of a buffer -/

theorem Buffer.len_le_max (b : Buffer) : b.len ≤ bufMaxSize := b.len_le.trans b.size_le

theorem Buffer.pos_le_max (b : Buffer) : b.pos ≤ bufMaxSize := b.pos_le.trans b.len_le_max

/-- The fields of a buffer. -/
def Buffer.words (b : Buffer) : BufWords where
  data := b.data
  len := UInt32.ofNat b.len
  pos := UInt32.ofNat b.pos
  size := UInt32.ofNat b.data.length

namespace BufWords

variable {b : Buffer}

theorem toNat_ofNat_of_le {n : ℕ} (h : n ≤ bufMaxSize) : (UInt32.ofNat n).toNat = n := by
  simp only [bufMaxSize] at h
  rw [UInt32.toNat_ofNat', Nat.mod_eq_of_lt (by omega)]

theorem toNat_min (x y : UInt32) : (min x y).toNat = min x.toNat y.toNat := by
  by_cases h : x ≤ y
  · rw [show min x y = x from if_pos h, Nat.min_eq_left (UInt32.le_iff_toNat_le.1 h)]
  · rw [show min x y = y from if_neg h,
      Nat.min_eq_right (Nat.le_of_not_le (mt UInt32.le_iff_toNat_le.2 h))]

@[simp] theorem words_data (b : Buffer) : b.words.data = b.data := rfl

@[simp] theorem words_size (b : Buffer) : b.words.size.toNat = b.data.length :=
  toNat_ofNat_of_le b.size_le

@[simp] theorem words_len (b : Buffer) : b.words.len.toNat = b.len :=
  toNat_ofNat_of_le b.len_le_max

@[simp] theorem words_pos (b : Buffer) : b.words.pos.toNat = b.pos :=
  toNat_ofNat_of_le b.pos_le_max

theorem words_eq {w : BufWords} (hdata : b.data = w.data) (hlen : b.len = w.len.toNat)
    (hpos : b.pos = w.pos.toNat) (hsize : b.data.length = w.size.toNat) : b.words = w := by
  obtain ⟨data, len, pos, size⟩ := w
  unfold Buffer.words
  rw [hlen, hpos, hsize, hdata]
  simp only [UInt32.ofNat_toNat]

theorem valid_words (b : Buffer) : b.words.Valid := by
  refine ⟨?_, ?_, ?_, ?_⟩
  · rw [UInt32.le_iff_toNat_le, words_pos, words_len]
    exact b.pos_le
  · rw [UInt32.le_iff_toNat_le, words_len, words_size]
    exact b.len_le
  · rw [words_size]
    exact b.size_le
  · exact (words_size b).symm

/-- Fields that are in order are those of a buffer. -/
theorem Valid.exists_words {w : BufWords} (h : w.Valid) : ∃ b : Buffer, b.words = w := by
  have hpos := UInt32.le_iff_toNat_le.1 h.pos_le
  have hlen := UInt32.le_iff_toNat_le.1 h.len_le
  refine ⟨⟨w.data, w.len.toNat, w.pos.toNat, hpos, ?_, ?_⟩, words_eq rfl rfl rfl h.length_data⟩
  · rw [h.length_data]
    exact hlen
  · rw [h.length_data]
    exact h.size_le

/-! ### Sums and accesses -/

section Primitives

variable {α β : Type} {φ : α → β} {x incr bound : UInt32} {b : Buffer}

theorem sim_add (h : x.toNat + incr.toNat < 2 ^ 32) :
    Logged.Sim BufEvent.InBounds id (add x incr) (.ok (x + incr)) := .event h rfl

theorem toNat_add (h : x.toNat + incr.toNat < 2 ^ 32) :
    (x + incr).toNat = x.toNat + incr.toNat := by
  rw [UInt32.toNat_add, Nat.mod_eq_of_lt h]

/-- A function that ends the session when a number is above a bound. -/
theorem sim_limit {k : BufM β} {y : Except Exit α} {msg : Exit} {m n : ℕ} (hm : x.toNat = m)
    (hn : bound.toNat = n) (hbig : m > n → y = dropbearExit msg)
    (hk : ¬ m > n → Logged.Sim BufEvent.InBounds φ k y) :
    Logged.Sim BufEvent.InBounds φ (if x > bound then exit msg else k) y := by
  subst hm hn
  by_cases h : x > bound
  · rw [if_pos h, hbig (UInt32.lt_iff_toNat_lt.1 h)]
    exact .throw msg
  · rw [if_neg h]
    exact hk (mt UInt32.lt_iff_toNat_lt.2 h)

/-- The check decides whether the sum is too large, and the sum does not wrap. -/
theorem sim_tooFar (hx : x.toNat ≤ bufMaxSize) :
    Logged.Sim BufEvent.InBounds id (tooFar x incr bound)
      (.ok (decide (incr.toNat > bufMaxIncr ∨ x.toNat + incr.toNat > bound.toNat))) := by
  have hmax : (UInt32.ofNat bufMaxIncr).toNat = bufMaxIncr := toNat_ofNat_of_le (Nat.le_refl _)
  unfold tooFar
  by_cases hbig : incr > UInt32.ofNat bufMaxIncr
  · have hbig' := UInt32.lt_iff_toNat_lt.1 hbig
    rw [hmax] at hbig'
    rw [if_pos hbig]
    exact .pure (decide_eq_true (Or.inl hbig'))
  · have hbig' := mt UInt32.lt_iff_toNat_lt.2 hbig
    rw [hmax] at hbig'
    rw [if_neg hbig]
    have hsum : x.toNat + incr.toNat < 2 ^ 32 := by
      simp only [bufMaxSize, bufMaxIncr] at *
      omega
    refine (sim_add hsum).seq (.pure ?_)
    rw [id_eq, id_eq, decide_eq_decide, ← toNat_add hsum]
    exact (or_iff_right hbig').trans UInt32.lt_iff_toNat_lt.symm

/-- A function that ends the session when the check fails. -/
theorem sim_check {k : BufM β} {y : Except Exit α} {msg : Exit} {m n : ℕ} (hm : x.toNat = m)
    (hn : bound.toNat = n) (hmax : m ≤ bufMaxSize)
    (hfar : incr.toNat > bufMaxIncr ∨ m + incr.toNat > n → y = dropbearExit msg)
    (hk : ¬ (incr.toNat > bufMaxIncr ∨ m + incr.toNat > n) → m + incr.toNat < 2 ^ 32 →
      Logged.Sim BufEvent.InBounds φ k y) :
    Logged.Sim BufEvent.InBounds φ
      (do if ← tooFar x incr bound then exit msg else k) y := by
  subst hm hn
  refine (sim_tooFar hmax).seq ?_
  by_cases h : incr.toNat > bufMaxIncr ∨ x.toNat + incr.toNat > bound.toNat
  · rw [hfar h, decide_eq_true h]
    exact .throw msg
  · rw [decide_eq_false h]
    refine hk h ?_
    simp only [bufMaxSize, bufMaxIncr] at *
    omega

/-- Writing at the position. -/
theorem sim_store {bs : Bytes} (h : b.pos + bs.length ≤ b.data.length) :
    Logged.Sim BufEvent.InBounds Buffer.words (store b.words b.words.pos bs)
      (.ok (b.memcpy bs h)) := by
  refine .event ?_ (words_eq ?_ ?_ ?_ ?_)
  · simp only [BufEvent.InBounds, words_pos, words_size, words_data]
    exact ⟨h, Nat.le_refl _⟩
  · rw [words_pos]
    rfl
  · exact (words_len b).symm
  · exact (words_pos b).symm
  · rw [words_size]
    exact length_overwrite h

end Primitives

/-! ### The functions on the fields of a buffer -/

section Positions

theorem sim_bufNew (size : UInt32) :
    Logged.Sim BufEvent.InBounds Buffer.words (bufNew size) (Ps4Dropbear.bufNew size.toNat) := by
  refine sim_limit rfl (toNat_ofNat_of_le (Nat.le_refl _)) (fun hbig => dif_pos hbig)
    fun hfits => ?_
  rw [Ps4Dropbear.bufNew, dif_neg hfits]
  exact .pure (words_eq rfl rfl rfl List.length_replicate)

theorem sim_bufSetlen (b : Buffer) (len : UInt32) :
    Logged.Sim BufEvent.InBounds Buffer.words (bufSetlen b.words len)
      (Ps4Dropbear.bufSetlen b len.toNat) := by
  refine sim_limit rfl (words_size b) (fun hbig => dif_pos hbig) fun hfits => ?_
  rw [Ps4Dropbear.bufSetlen, dif_neg hfits]
  refine .pure (words_eq rfl rfl ?_ (words_size b).symm)
  rw [toNat_min, words_pos]

theorem sim_bufSetpos (b : Buffer) (pos : UInt32) :
    Logged.Sim BufEvent.InBounds Buffer.words (bufSetpos b.words pos)
      (Ps4Dropbear.bufSetpos b pos.toNat) := by
  refine sim_limit rfl (words_len b) (fun hbig => dif_pos hbig) fun hfits => ?_
  rw [Ps4Dropbear.bufSetpos, dif_neg hfits]
  exact .pure (words_eq rfl (words_len b).symm rfl (words_size b).symm)

theorem sim_bufDecrpos (b : Buffer) (decr : UInt32) :
    Logged.Sim BufEvent.InBounds Buffer.words (bufDecrpos b.words decr)
      (Ps4Dropbear.bufDecrpos b decr.toNat) := by
  refine sim_limit rfl (words_pos b) (fun hbig => if_pos hbig) fun hfits => ?_
  have hle : decr ≤ b.words.pos := by
    rw [UInt32.le_iff_toNat_le, words_pos]
    exact Nat.le_of_not_lt hfits
  have hsub : Logged.Sim BufEvent.InBounds id (sub b.words.pos decr)
    (.ok (b.words.pos - decr)) := .event hle rfl
  rw [Ps4Dropbear.bufDecrpos, if_neg hfits]
  refine hsub.seq (.pure (words_eq rfl (words_len b).symm ?_ (words_size b).symm))
  rw [id_eq, UInt32.toNat_sub_of_le _ _ hle, words_pos]

theorem sim_bufIncrlen (b : Buffer) (incr : UInt32) :
    Logged.Sim BufEvent.InBounds Buffer.words (bufIncrlen b.words incr)
      (Ps4Dropbear.bufIncrlen b incr.toNat) := by
  refine sim_check (words_len b) (words_size b) b.len_le_max (fun hfar => dif_pos hfar)
    fun hfits hsum => ?_
  rw [← words_len b] at hsum
  rw [Ps4Dropbear.bufIncrlen, dif_neg hfits]
  refine (sim_add hsum).seq (.pure (words_eq rfl ?_ (words_pos b).symm (words_size b).symm))
  rw [id_eq, toNat_add hsum, words_len]

theorem sim_bufIncrpos (b : Buffer) (incr : UInt32) :
    Logged.Sim BufEvent.InBounds Buffer.words (bufIncrpos b.words incr)
      (Ps4Dropbear.bufIncrpos b incr.toNat) := by
  refine sim_check (words_pos b) (words_len b) b.pos_le_max (fun hfar => dif_pos hfar)
    fun hfits hsum => ?_
  rw [← words_pos b] at hsum
  rw [Ps4Dropbear.bufIncrpos, dif_neg hfits]
  refine (sim_add hsum).seq (.pure (words_eq rfl (words_len b).symm ?_ (words_size b).symm))
  rw [id_eq, toNat_add hsum, words_pos]

theorem sim_bufIncrwritepos (b : Buffer) (incr : UInt32) :
    Logged.Sim BufEvent.InBounds Buffer.words (bufIncrwritepos b.words incr)
      (Ps4Dropbear.bufIncrwritepos b incr.toNat) := by
  refine sim_check (words_pos b) (words_size b) b.pos_le_max (fun hfar => dif_pos hfar)
    fun hfits hsum => ?_
  rw [← words_pos b] at hsum
  rw [Ps4Dropbear.bufIncrwritepos, dif_neg hfits]
  have hpos : (b.words.pos + incr).toNat = b.pos + incr.toNat := by
    rw [toNat_add hsum, words_pos]
  refine (sim_add hsum).seq (.pure (words_eq rfl ?_ hpos.symm (words_size b).symm))
  change max b.len (b.pos + incr.toNat) =
    (if b.words.pos + incr > b.words.len then b.words.pos + incr else b.words.len).toNat
  by_cases hgrow : b.words.pos + incr > b.words.len
  · have hgrow' := UInt32.lt_iff_toNat_lt.1 hgrow
    rw [hpos, words_len] at hgrow'
    rw [if_pos hgrow, hpos, Nat.max_eq_right (Nat.le_of_lt hgrow')]
  · have hgrow' := mt UInt32.lt_iff_toNat_lt.2 hgrow
    rw [hpos, words_len] at hgrow'
    rw [if_neg hgrow, words_len, Nat.max_eq_left (Nat.le_of_not_lt hgrow')]

end Positions

section Storage

theorem sim_bufResize (b : Buffer) (newsize : UInt32) (fresh : ℕ → UInt8) :
    Logged.Sim BufEvent.InBounds Buffer.words (bufResize b.words newsize fresh)
      (bufRealloc b newsize.toNat fresh) := by
  refine sim_limit rfl (toNat_ofNat_of_le (Nat.le_refl _)) (fun hbig => dif_pos hbig)
    fun hfits => ?_
  rw [bufRealloc, dif_neg hfits]
  refine .pure (words_eq rfl ?_ ?_ ?_)
  · rw [toNat_min, words_len]
  · rw [toNat_min, words_pos]
  · simp only [List.length_append, List.length_take, length_memory]
    omega

/-- The copy has what is in use. -/
theorem sim_bufNewcopy (b : Buffer) :
    Logged.Sim BufEvent.InBounds Buffer.words (bufNewcopy b.words)
      (.ok (Ps4Dropbear.bufNewcopy b)) := by
  have hlen := b.len_le
  have hcontents : b.contents.length = b.words.len.toNat := by
    rw [b.length_contents, words_len]
  have hnew : Ps4Dropbear.bufNew b.words.len.toNat = .ok
      ⟨List.replicate b.words.len.toNat 0, 0, 0, Nat.le_refl _, Nat.zero_le _, by
        rw [List.length_replicate, words_len]
        exact b.len_le_max⟩ := by
    rw [Ps4Dropbear.bufNew, dif_neg]
    rw [words_len]
    exact Nat.not_lt.2 b.len_le_max
  have hsim := sim_bufNew b.words.len
  rw [hnew] at hsim
  have hsize := List.length_replicate (n := b.words.len.toNat) (a := (0 : UInt8))
  refine hsim.seq ?_
  by_cases hpos : b.words.len > 0
  · rw [if_pos hpos]
    have hload : Logged.Sim BufEvent.InBounds id (load b.words 0 b.words.len)
        (.ok b.contents) := by
      refine .event ?_ ?_
      · simp only [BufEvent.InBounds, words_len, words_data]
        exact ⟨Nat.le_of_eq (Nat.zero_add _), hlen⟩
      · rw [words_len, words_data]
        rfl
    refine hload.seq (.event ⟨?_, ?_⟩ (words_eq ?_ hcontents rfl ?_))
    · change 0 + b.contents.length ≤ (UInt32.ofNat (List.replicate _ _).length).toNat
      rw [hsize, UInt32.ofNat_toNat, hcontents, Nat.zero_add]
    · change (UInt32.ofNat (List.replicate _ _).length).toNat ≤ (List.replicate _ _).length
      rw [hsize, UInt32.ofNat_toNat]
    · change b.contents = overwrite (List.replicate b.words.len.toNat 0) 0 b.contents
      rw [overwrite, List.take_zero, List.nil_append, Nat.zero_add, hcontents,
        List.drop_of_length_le (Nat.le_of_eq hsize), List.append_nil]
    · change b.contents.length = (UInt32.ofNat (List.replicate _ _).length).toNat
      rw [hsize, UInt32.ofNat_toNat, hcontents]
  · -- there is nothing to copy
    have hzero : b.words.len.toNat = 0 :=
      Nat.eq_zero_of_not_pos fun h => hpos (UInt32.lt_iff_toNat_lt.2 h)
    have hnil : b.contents = [] := List.length_eq_zero_iff.1 (hcontents.trans hzero)
    rw [if_neg hpos]
    refine .pure (words_eq ?_ hcontents rfl ?_)
    · change b.contents = List.replicate _ _
      rw [hnil, hzero]
      rfl
    · change b.contents.length = (UInt32.ofNat (List.replicate _ _).length).toNat
      rw [hsize, UInt32.ofNat_toNat, hcontents]

end Storage

section Readers

theorem sim_bufGetptr (b : Buffer) (len : UInt32) :
    Logged.Sim BufEvent.InBounds (fun _ => b.words.pos) (bufGetptr b.words len)
      (Ps4Dropbear.bufGetptr b len.toNat) := by
  refine sim_check (words_pos b) (words_len b) b.pos_le_max (fun hfar => if_pos hfar)
    fun hfits _ => ?_
  rw [Ps4Dropbear.bufGetptr, if_neg hfits]
  exact .pure rfl

/-- What `buf_getptr` has allowed to read. -/
theorem sim_load {b : Buffer} {len : UInt32} {p : Bytes}
    (h : Ps4Dropbear.bufGetptr b len.toNat = .ok p) :
    Logged.Sim BufEvent.InBounds id (load b.words b.words.pos len) (.ok p) := by
  unfold Ps4Dropbear.bufGetptr at h
  split_ifs at h with hfar
  · cases h
  cases h
  have hlen := b.len_le
  refine .event ?_ ?_
  · simp only [BufEvent.InBounds, words_pos, words_len, words_data]
    omega
  · rw [words_pos, words_data, id_eq, Buffer.rest, List.drop_take, List.take_take,
      Nat.min_eq_left (by omega)]

theorem sim_bufGetint (b : Buffer) :
    Logged.Sim BufEvent.InBounds (fun r : ℕ × Buffer => (UInt32.ofNat r.1, r.2.words))
      (bufGetint b.words) (Ps4Dropbear.bufGetint b) := by
  unfold bufGetint Ps4Dropbear.bufGetint
  refine (sim_bufGetptr b 4).bind fun p hp => ?_
  refine (sim_load hp).seq ?_
  refine (sim_bufIncrpos b 4).bind fun b' _ => ?_
  exact .pure rfl

theorem sim_bufGetbyte (b : Buffer) :
    Logged.Sim BufEvent.InBounds (fun r : UInt8 × Buffer => (r.1, r.2.words))
      (bufGetbyte b.words) (Ps4Dropbear.bufGetbyte b) := by
  have hrest := b.length_rest
  have hmax := b.len_le_max
  unfold bufGetbyte
  by_cases hend : b.words.pos ≥ b.words.len
  · have hend' := UInt32.le_iff_toNat_le.1 hend
    rw [words_pos, words_len] at hend'
    have hnil : b.rest = [] := List.length_eq_zero_iff.1 (by omega)
    rw [if_pos hend, Ps4Dropbear.bufGetbyte, hnil]
    exact .throw _
  · have hend' := mt UInt32.le_iff_toNat_le.2 hend
    rw [words_pos, words_len] at hend'
    obtain ⟨c, r, hcons⟩ := List.exists_cons_of_length_pos (show 0 < b.rest.length by omega)
    have hget : Ps4Dropbear.bufGetptr b (1 : UInt32).toNat = .ok [c] :=
      bufGetptr_ok.2 ⟨rfl, r, hcons⟩
    have hone : b.words.pos.toNat + (1 : UInt32).toNat < 2 ^ 32 := by
      simp only [bufMaxSize] at hmax
      rw [words_pos]
      change b.pos + 1 < 2 ^ 32
      omega
    rw [if_neg hend, Ps4Dropbear.bufGetbyte, hcons]
    refine (sim_load hget).seq ((sim_add hone).seq (.pure ?_))
    refine congrArg (Prod.mk c) (words_eq rfl (words_len b).symm ?_ (words_size b).symm)
    change min (b.pos + 1) b.len = _
    rw [id_eq, toNat_add hone, words_pos]
    exact Nat.min_eq_left (by omega)

theorem sim_bufEatstring (b : Buffer) :
    Logged.Sim BufEvent.InBounds Buffer.words (bufEatstring b.words)
      (Ps4Dropbear.bufEatstring b) := by
  unfold bufEatstring Ps4Dropbear.bufEatstring
  refine (sim_bufGetint b).bind fun r hr => ?_
  obtain ⟨len, b'⟩ := r
  have hlen : (UInt32.ofNat len).toNat = len :=
    UInt32.toNat_ofNat_of_lt' (bufGetint_ok.1 hr).1.1
  have hsim := sim_bufIncrpos b' (UInt32.ofNat len)
  rw [hlen] at hsim
  exact hsim

theorem sim_bufGetstring (b : Buffer) :
    Logged.Sim BufEvent.InBounds (fun r : Bytes × Buffer => (r.1, r.2.words))
      (bufGetstring b.words) (Ps4Dropbear.bufGetstring b) := by
  unfold bufGetstring Ps4Dropbear.bufGetstring
  refine (sim_bufGetint b).bind fun r hr => ?_
  obtain ⟨len, b'⟩ := r
  have hlen : (UInt32.ofNat len).toNat = len :=
    UInt32.toNat_ofNat_of_lt' (bufGetint_ok.1 hr).1.1
  dsimp only
  refine sim_limit hlen rfl (fun hbig => if_pos hbig) fun hfits => ?_
  have hfits' : ¬ len > maxStringLen := hfits
  have hptr := sim_bufGetptr b' (UInt32.ofNat len)
  have hincr := sim_bufIncrpos b' (UInt32.ofNat len)
  have hone : (UInt32.ofNat len).toNat + (1 : UInt32).toNat < 2 ^ 32 := by
    rw [hlen]
    change len + 1 < 2 ^ 32
    simp only [maxStringLen] at hfits'
    omega
  rw [hlen] at hptr hincr
  rw [if_neg hfits']
  refine hptr.bind fun p hp => ?_
  rw [← hlen] at hp
  refine (sim_add hone).seq ((sim_load hp).seq (hincr.bind fun b'' _ => ?_))
  exact .pure rfl

end Readers

section Writers

theorem sim_bufGetwriteptr (b : Buffer) (len : UInt32) :
    Logged.Sim BufEvent.InBounds (fun _ => b.words.pos) (bufGetwriteptr b.words len)
      (Ps4Dropbear.bufGetwriteptr b len.toNat) := by
  refine sim_check (words_pos b) (words_size b) b.pos_le_max (fun hfar => if_pos hfar)
    fun hfits _ => ?_
  rw [Ps4Dropbear.bufGetwriteptr, if_neg hfits]
  exact .pure rfl

theorem bufGetwriteptr_ok {b : Buffer} {n : ℕ} (h : Ps4Dropbear.bufGetwriteptr b n = .ok ()) :
    ¬ (n > bufMaxIncr ∨ b.pos + n > b.data.length) := by
  intro hfar
  rw [Ps4Dropbear.bufGetwriteptr, if_pos hfar] at h
  cases h

theorem bufOverwrite_eq {b : Buffer} {n : ℕ} {bs : Bytes}
    (h : Ps4Dropbear.bufGetwriteptr b n = .ok ()) (hbs : bs.length = n) :
    ∃ hfits, bufOverwrite b n bs = .ok (b.memcpy bs hfits) := by
  have hroom := bufGetwriteptr_ok h
  refine ⟨by omega, ?_⟩
  rw [bufOverwrite, dif_neg hroom]
  simp only [List.take_of_length_le (Nat.le_of_eq hbs)]

/-- Writing behind the pointer of `buf_getwriteptr`. -/
theorem sim_overwrite {b : Buffer} {len : UInt32} {bs : Bytes} (hbs : bs.length = len.toNat) :
    Logged.Sim BufEvent.InBounds Buffer.words
      (do
        let p ← bufGetwriteptr b.words len
        store b.words p bs)
      (bufOverwrite b len.toNat bs) := by
  refine (sim_bufGetwriteptr b len).bind_of (fun e he => ?_) fun _ hok => ?_
  · unfold Ps4Dropbear.bufGetwriteptr at he
    split_ifs at he with hfar
    cases he
    exact dif_pos hfar
  · obtain ⟨hfits, hover⟩ := bufOverwrite_eq hok hbs
    rw [hover]
    exact sim_store hfits

/-- Bytes as many as `buf_getwriteptr` has been asked for. -/
theorem sim_put {b : Buffer} {len : UInt32} {bs : Bytes} (hbs : bs.length = len.toNat) :
    Logged.Sim BufEvent.InBounds Buffer.words
      (do
        let p ← bufGetwriteptr b.words len
        let buf ← store b.words p bs
        bufIncrwritepos buf len)
      (Ps4Dropbear.bufPutbytes b bs) := by
  refine (sim_bufGetwriteptr b len).bind_of (fun e he => ?_) fun _ hok => ?_
  · unfold Ps4Dropbear.bufGetwriteptr at he
    rw [← hbs] at he
    split_ifs at he with hfar
    cases he
    exact dif_pos hfar
  · have hfits := bufGetwriteptr_ok hok
    rw [← hbs] at hfits
    rw [Ps4Dropbear.bufPutbytes, dif_neg hfits, hbs]
    exact (sim_store (by omega)).seq (sim_bufIncrwritepos _ len)

theorem sim_bufPutbytes (b : Buffer) (bytes : ℕ → UInt8) (len : UInt32) :
    Logged.Sim BufEvent.InBounds Buffer.words (bufPutbytes b.words bytes len)
      (Ps4Dropbear.bufPutbytes b (memory bytes len.toNat)) :=
  sim_put (length_memory bytes len.toNat)

theorem sim_bufPutint (b : Buffer) (val : UInt32) :
    Logged.Sim BufEvent.InBounds Buffer.words (bufPutint b.words val)
      (Ps4Dropbear.bufPutint b val.toNat) :=
  sim_put (length_store32h val.toNat)

theorem sim_bufPutstring (b : Buffer) (str : ℕ → UInt8) (len : UInt32) :
    Logged.Sim BufEvent.InBounds Buffer.words (bufPutstring b.words str len)
      (Ps4Dropbear.bufPutstring b (memory str len.toNat)) := by
  unfold bufPutstring Ps4Dropbear.bufPutstring
  rw [length_memory]
  exact (sim_bufPutint b len).bind fun b' _ => sim_bufPutbytes b' str len

theorem sim_bufPutbyte (b : Buffer) (val : UInt8) :
    Logged.Sim BufEvent.InBounds Buffer.words (bufPutbyte b.words val)
      (Ps4Dropbear.bufPutbyte b val) := by
  unfold bufPutbyte Ps4Dropbear.bufPutbyte
  have hgrow : Logged.Sim BufEvent.InBounds Buffer.words
      (if b.words.pos ≥ b.words.len then bufIncrlen b.words 1 else pure b.words)
      (if b.pos ≥ b.len then Ps4Dropbear.bufIncrlen b 1 else .ok b) := by
    refine .ite ?_ (fun _ => sim_bufIncrlen b 1) fun _ => .pure rfl
    rw [ge_iff_le, UInt32.le_iff_toNat_le, words_pos, words_len]
  refine hgrow.bind fun b₁ h₁ => ?_
  -- there is a byte in use at the position
  have hroom : b₁.pos < b₁.len := by
    have hle := b.pos_le
    by_cases hend : b.pos ≥ b.len
    · rw [if_pos hend, Ps4Dropbear.bufIncrlen] at h₁
      split_ifs at h₁ with hfar
      · cases h₁
      · cases h₁
        exact Nat.lt_succ_of_le hle
    · rw [if_neg hend] at h₁
      cases h₁
      exact Nat.lt_of_not_le hend
  have hlen := b₁.len_le
  have hmax := b₁.len_le_max
  have hfits : b₁.pos + [val].length ≤ b₁.data.length := by
    rw [List.length_singleton]
    omega
  have hover : bufOverwriteUsed b₁ 1 [val] = .ok (b₁.memcpy [val] hfits) :=
    dif_neg (by simp only [bufMaxIncr]; omega)
  have hincr : Ps4Dropbear.bufIncrpos (b₁.memcpy [val] hfits) 1 = .ok
      { b₁.memcpy [val] hfits with pos := b₁.pos + 1, pos_le := hroom } :=
    dif_neg (by
      simp only [bufMaxIncr]
      change ¬ (1 > 1000000000 ∨ b₁.pos + 1 > b₁.len)
      omega)
  have hone : (b₁.memcpy [val] hfits).words.pos.toNat + (1 : UInt32).toNat < 2 ^ 32 := by
    simp only [bufMaxSize] at hmax
    rw [words_pos]
    change b₁.pos + 1 < 2 ^ 32
    omega
  rw [hover, ok_bind, hincr]
  refine (sim_store hfits).seq ((sim_add hone).seq (.pure ?_))
  refine words_eq rfl (words_len b₁).symm ?_ (words_size (b₁.memcpy [val] hfits)).symm
  rw [id_eq, toNat_add hone, words_pos]
  rfl

/-- The string that is read goes to a buffer of its own. -/
theorem sim_bufGetstringbufInt (b : Buffer) (incllen : Bool) :
    Logged.Sim BufEvent.InBounds (fun r : Buffer × Buffer => (r.1.words, r.2.words))
      (bufGetstringbufInt b.words incllen) (Ps4Dropbear.bufGetstringbufInt b incllen) := by
  unfold bufGetstringbufInt Ps4Dropbear.bufGetstringbufInt
  refine (sim_bufGetint b).bind fun r hr => ?_
  obtain ⟨len, b'⟩ := r
  have hlen : (UInt32.ofNat len).toNat = len :=
    UInt32.toNat_ofNat_of_lt' (bufGetint_ok.1 hr).1.1
  dsimp only
  refine sim_limit hlen rfl (fun hbig => if_pos hbig) fun hfits => ?_
  have hfits' : ¬ len > maxStringLen := hfits
  rw [if_neg hfits']
  have hsum : (UInt32.ofNat len).toNat + (if incllen then 4 else 0 : UInt32).toNat < 2 ^ 32 := by
    simp only [maxStringLen] at hfits'
    have hextra : (if incllen then 4 else 0 : UInt32).toNat ≤ 4 := by
      cases incllen <;> decide
    rw [hlen]
    omega
  have hnew := sim_bufNew (UInt32.ofNat len + if incllen then 4 else 0)
  have hsize : (UInt32.ofNat len + if incllen then 4 else 0).toNat =
      len + if incllen then 4 else 0 := by
    rw [toNat_add hsum, hlen]
    cases incllen <;> rfl
  rw [hsize] at hnew
  refine (sim_add hsum).seq (hnew.bind fun ret₀ _ => ?_)
  have hput : Logged.Sim BufEvent.InBounds Buffer.words
      (if incllen then bufPutint ret₀.words (UInt32.ofNat len) else pure ret₀.words)
      (if incllen then Ps4Dropbear.bufPutint ret₀ len else .ok ret₀) := by
    have hint := sim_bufPutint ret₀ (UInt32.ofNat len)
    rw [hlen] at hint
    exact .ite Iff.rfl (fun _ => hint) fun _ => .pure rfl
  refine hput.bind fun ret₁ _ => ?_
  have hdst := sim_bufGetwriteptr ret₁ (UInt32.ofNat len)
  have hsrc := sim_bufGetptr b' (UInt32.ofNat len)
  have hincr := sim_bufIncrpos b' (UInt32.ofNat len)
  rw [hlen] at hdst hsrc hincr
  refine hdst.bind fun _ hok => ?_
  refine hsrc.bind fun p hp => ?_
  have hp' : p.length = len := (bufGetptr_ok.1 hp).1
  obtain ⟨hstore, hover⟩ := bufOverwrite_eq hok hp'
  rw [← hlen] at hp
  rw [hover, ok_bind]
  refine (sim_load hp).seq ((sim_store hstore).seq (hincr.bind fun b'' _ => ?_))
  have hgrow := sim_bufIncrlen (ret₁.memcpy p hstore) (UInt32.ofNat len)
  rw [hlen] at hgrow
  refine hgrow.bind fun ret₂ _ => ?_
  refine (sim_bufSetpos ret₂ 0).bind fun ret₃ _ => ?_
  exact .pure rfl

end Writers

end BufWords

end Ps4Dropbear
