import Ps4Dropbear.Buffer.Basic

/-!
# What a buffer holds

The functions of `buffer.c` that write in place, and what all of them do to the bytes in use.
`Buffer.Has size used pos` says that a buffer has the storage `size`, the bytes `used` in use and
the position `pos`; a lemma for each function says when it does not exit, and what the buffer has
then.  New storage and new length bring bytes that nobody has written.

* `bufResize`, `bufPutbyte` : the functions that `Buffer.Basic` does not need.
* `bufOverwrite`, `bufOverwriteUsed` : writing through `buf_getwriteptr` and `buf_getptr`.
-/

namespace Ps4Dropbear

/-- An `unsigned int`. -/
def u32 (n : Int) : ℕ := (n % 2 ^ 32).toNat

theorem u32_eq {n : Int} {m : ℕ} (h : n = m) (hm : m < 2 ^ 32) : u32 n = m := by
  subst h
  unfold u32
  omega

/-- Writing on behind what has been written. -/
theorem overwrite_overwrite {data x y : Bytes} {pos : ℕ} (hx : pos + x.length ≤ data.length) :
    overwrite (overwrite data pos x) (pos + x.length) y = overwrite data pos (x ++ y) := by
  have htake : (data.take pos ++ x).length = pos + x.length := by
    rw [List.length_append, List.length_take]
    omega
  unfold overwrite
  rw [List.length_append, ← htake, List.take_left, List.append_assoc (data.take pos),
    ← List.drop_drop, List.drop_left, List.drop_drop, htake]
  simp only [List.append_assoc, Nat.add_assoc]

theorem Buffer.min_pos_le (b : Buffer) (n : ℕ) : min n b.pos ≤ min n b.len := by
  have := b.pos_le
  omega

/-- `buf_resize`. -/
def bufResize (buf : Buffer) (newsize : ℕ) : Except Exit Buffer :=
  if h : newsize > bufMaxSize then dropbearExit "buf->size too big"
  else .ok
    { data := buf.data.take newsize ++ List.replicate (newsize - buf.data.length) 0
      len := min newsize buf.len
      pos := min newsize buf.pos
      pos_le := buf.min_pos_le newsize
      len_le := by
        have := buf.len_le
        simp only [List.length_append, List.length_take, List.length_replicate]
        omega
      size_le := by
        simp only [List.length_append, List.length_take, List.length_replicate]
        omega }

/-- `buf_getwriteptr`: there is storage for the next `len` bytes. -/
def bufGetwriteptr (buf : Buffer) (len : ℕ) : Except Exit Unit :=
  if len > bufMaxIncr ∨ buf.pos + len > buf.data.length then dropbearExit "Bad buf_getwriteptr"
  else .ok ()

/-- A function that writes at most `len` bytes to `buf_getwriteptr(buf, len)` has written `bs`. -/
def bufOverwrite (buf : Buffer) (len : ℕ) (bs : Bytes) : Except Exit Buffer :=
  if h : len > bufMaxIncr ∨ buf.pos + len > buf.data.length then
    dropbearExit "Bad buf_getwriteptr"
  else .ok (buf.memcpy (bs.take len) (by have := List.length_take_le len bs; omega))

/-- A function that writes at most `len` bytes to `buf_getptr(buf, len)` has written `bs`. -/
def bufOverwriteUsed (buf : Buffer) (len : ℕ) (bs : Bytes) : Except Exit Buffer :=
  if h : len > bufMaxIncr ∨ buf.pos + len > buf.len then dropbearExit "Bad buf_getptr"
  else .ok (buf.memcpy (bs.take len)
    (by have := List.length_take_le len bs; have := buf.len_le; omega))

/-- `buf_putbyte`. -/
def bufPutbyte (buf : Buffer) (val : UInt8) : Except Exit Buffer := do
  let buf ← (if buf.pos ≥ buf.len then bufIncrlen buf 1 else .ok buf)
  let buf ← bufOverwriteUsed buf 1 [val]
  bufIncrpos buf 1

namespace Buffer

/-- The storage, the bytes in use and the position. -/
structure Has (b : Buffer) (size : ℕ) (used : Bytes) (pos : ℕ) : Prop where
  size : b.data.length = size
  used : b.contents = used
  pos : b.pos = pos

variable {b : Buffer} {size pos n : ℕ} {u a m z x : Bytes}

theorem Has.len (h : b.Has size u pos) : b.len = u.length := by
  have hle := b.len_le
  rw [← h.used, contents, List.length_take]
  omega

theorem Has.len_le (h : b.Has size u pos) : u.length ≤ size ∧ size ≤ bufMaxSize := by
  have hle := b.len_le
  have hsize := b.size_le
  rw [h.len, h.size] at hle
  rw [h.size] at hsize
  exact ⟨hle, hsize⟩

theorem bufNew_has (h : size ≤ bufMaxSize) : ∃ b, bufNew size = .ok b ∧ b.Has size [] 0 := by
  refine ⟨_, dif_neg (Nat.not_lt.2 h), ?_, rfl, rfl⟩
  simp

theorem Has.setlen (h : b.Has size u pos) (hu : u.length ≤ n) (hn : n ≤ size) :
    ∃ b' t, bufSetlen b n = .ok b' ∧ t.length = n - u.length ∧ b'.Has size (u ++ t) pos := by
  have hlen := h.len
  have hsize := h.size
  refine ⟨_, (b.data.drop b.len).take (n - u.length), dif_neg (by omega), ?_, h.size, ?_, ?_⟩
  · rw [List.length_take, List.length_drop]
    omega
  · change b.data.take n = _
    rw [← h.used, contents, List.length_take, Nat.min_eq_left b.len_le, ← List.take_add,
      Nat.add_sub_cancel' (by omega)]
  · have hpos := b.pos_le
    change min b.pos n = pos
    rw [← h.pos]
    omega

theorem Has.setlen_shrink (h : b.Has size u pos) (hn : n ≤ u.length) (hpos : pos ≤ n) :
    ∃ b', bufSetlen b n = .ok b' ∧ b'.Has size (u.take n) pos := by
  have hlen := h.len
  have hsize := h.size
  have hle := h.len_le
  refine ⟨_, dif_neg (by omega), h.size, ?_, ?_⟩
  · change b.data.take n = _
    rw [← h.used, contents, List.take_take, hlen, Nat.min_eq_left hn]
  · change min b.pos n = pos
    rw [h.pos]
    exact Nat.min_eq_left hpos

theorem Has.setpos (h : b.Has size u pos) (hn : n ≤ u.length) :
    ∃ b', bufSetpos b n = .ok b' ∧ b'.Has size u n := by
  have hlen := h.len
  exact ⟨_, dif_neg (by omega), h.size, h.used, rfl⟩

theorem Has.getptr (h : b.Has size u pos) (hn : pos + n ≤ u.length) :
    bufGetptr b n = .ok ((u.drop pos).take n) := by
  have hlen := h.len
  have hpos := h.pos
  obtain ⟨hle, hmax⟩ := h.len_le
  simp only [bufMaxSize] at hmax
  unfold bufGetptr
  rw [if_neg (by simp only [bufMaxIncr]; omega), rest, ← contents, h.used, h.pos]

theorem Has.rest (h : b.Has size u pos) : b.rest = u.drop pos := by
  rw [Buffer.rest, ← contents, h.used, h.pos]

theorem Has.getbyte {c : UInt8} (h : b.Has size (a ++ [c] ++ z) a.length) :
    ∃ b', bufGetbyte b = .ok (c, b') ∧ b'.Has size (a ++ [c] ++ z) (a.length + 1) := by
  have hpos := h.pos
  have hlen := h.len
  have hrest : b.rest = c :: z := by
    rw [h.rest, List.append_assoc, List.drop_left, List.singleton_append]
  simp only [List.length_append, List.length_singleton] at hlen
  refine ⟨b.advance 1, ?_, h.size, h.used, ?_⟩
  · unfold bufGetbyte
    rw [hrest]
  · change min (b.pos + 1) b.len = _
    omega

theorem Has.getwriteptr (h : b.Has size u pos) (hn : pos + n ≤ size) :
    bufGetwriteptr b n = .ok () := by
  have hsize := h.size
  have hpos := h.pos
  obtain ⟨-, hmax⟩ := h.len_le
  simp only [bufMaxSize] at hmax
  unfold bufGetwriteptr
  rw [if_neg (by simp only [bufMaxIncr]; omega)]

theorem Has.incrpos (h : b.Has size u pos) (hn : pos + n ≤ u.length) :
    ∃ b', bufIncrpos b n = .ok b' ∧ b'.Has size u (pos + n) := by
  have hlen := h.len
  have hpos := h.pos
  obtain ⟨hle, hmax⟩ := h.len_le
  simp only [bufMaxSize] at hmax
  refine ⟨_, dif_neg (by simp only [bufMaxIncr]; omega), h.size, h.used, ?_⟩
  exact congrArg (· + n) h.pos

theorem Has.incrlen (h : b.Has size u pos) (hn : u.length + n ≤ size) :
    ∃ b' t, bufIncrlen b n = .ok b' ∧ t.length = n ∧ b'.Has size (u ++ t) pos := by
  have hlen := h.len
  have hsize := h.size
  obtain ⟨hle, hmax⟩ := h.len_le
  simp only [bufMaxSize] at hmax
  refine ⟨_, (b.data.drop b.len).take n, dif_neg (by simp only [bufMaxIncr]; omega), ?_, h.size,
    ?_, h.pos⟩
  · rw [List.length_take, List.length_drop]
    omega
  · change b.data.take (b.len + n) = _
    rw [← h.used, contents, ← List.take_add]

/-- Writing over a part of the bytes in use. -/
theorem Has.memcpy (h : b.Has size (a ++ m ++ z) a.length) (hx : x.length = m.length)
    (hfits : b.pos + x.length ≤ b.data.length) :
    (b.memcpy x hfits).Has size (a ++ x ++ z) a.length := by
  have hlen := h.len
  have hpos := h.pos
  have hsize := h.size
  obtain ⟨hle, -⟩ := h.len_le
  simp only [List.length_append] at hlen hle
  refine ⟨(length_overwrite hfits).trans h.size, ?_, h.pos⟩
  -- the storage is what is in use, and the rest
  have hdata : b.data = a ++ m ++ z ++ b.data.drop b.len := by
    rw [← h.used, contents, List.take_append_drop]
  change (overwrite b.data b.pos x).take b.len = a ++ x ++ z
  have hover : overwrite b.data b.pos x = a ++ x ++ z ++ b.data.drop b.len := by
    have hfront : (a ++ m).length = a.length + x.length := by
      rw [List.length_append, hx]
    unfold overwrite
    rw [hpos, ← hfront]
    generalize b.data.drop b.len = tail at hdata
    rw [hdata]
    simp only [List.append_assoc, List.take_left]
    rw [← List.append_assoc a m, List.drop_left]
  rw [hover, List.take_append_of_le_length (by simp only [List.length_append]; omega),
    List.take_of_length_le (by simp only [List.length_append]; omega)]

/-- Writing behind the bytes in use. -/
theorem Has.memcpy_end (h : b.Has size u u.length)
    (hfits : b.pos + x.length ≤ b.data.length) :
    ∃ b', bufIncrwritepos (b.memcpy x hfits) x.length = .ok b' ∧
      b'.Has size (u ++ x) (u.length + x.length) := by
  have hlen := h.len
  have hpos := h.pos
  have hsize := h.size
  obtain ⟨hle, hmax⟩ := h.len_le
  have hmemcpy : (b.memcpy x hfits).data.length = b.data.length := length_overwrite hfits
  simp only [bufMaxSize] at hmax
  refine ⟨_, dif_neg (by simp only [bufMaxIncr, hmemcpy]; simp only [Buffer.memcpy]; omega),
    hmemcpy.trans h.size, ?_, ?_⟩
  · change (overwrite b.data b.pos x).take (max b.len (b.pos + x.length)) = u ++ x
    have hend : max b.len (b.pos + x.length) = (u ++ x).length := by
      rw [List.length_append]
      omega
    have hfront : b.data.take b.pos = u := by
      rw [← h.used, contents, hpos, hlen]
    rw [hend, overwrite, hfront]
    exact List.take_left
  · change b.pos + x.length = _
    rw [hpos]

theorem Has.putbytes (h : b.Has size u u.length) (hn : u.length + x.length ≤ size) :
    ∃ b', bufPutbytes b x = .ok b' ∧ b'.Has size (u ++ x) (u.length + x.length) := by
  have hpos := h.pos
  have hsize := h.size
  obtain ⟨hle, hmax⟩ := h.len_le
  simp only [bufMaxSize] at hmax
  obtain ⟨b', hok, hhas⟩ := h.memcpy_end (x := x) (by omega)
  refine ⟨b', ?_, hhas⟩
  unfold bufPutbytes
  rw [dif_neg (by simp only [bufMaxIncr]; omega)]
  exact hok

theorem Has.incrwritepos (h : b.Has size u pos) (hn : pos + n ≤ u.length) :
    ∃ b', bufIncrwritepos b n = .ok b' ∧ b'.Has size u (pos + n) := by
  have hpos := h.pos
  have hsize := h.size
  have hlen := h.len
  obtain ⟨hle, hmax⟩ := h.len_le
  simp only [bufMaxSize] at hmax
  refine ⟨_, dif_neg (by simp only [bufMaxIncr]; omega), h.size, ?_, ?_⟩
  · change b.data.take (max b.len (b.pos + n)) = u
    rw [Nat.max_eq_left (by omega)]
    exact h.used
  · exact congrArg (· + n) h.pos

theorem Has.putbytes_within (h : b.Has size (a ++ m ++ z) a.length) (hx : x.length = m.length) :
    ∃ b', bufPutbytes b x = .ok b' ∧ b'.Has size (a ++ x ++ z) (a.length + x.length) := by
  have hpos := h.pos
  have hsize := h.size
  obtain ⟨hle, hmax⟩ := h.len_le
  simp only [bufMaxSize] at hmax
  simp only [List.length_append] at hle
  have hhas := h.memcpy hx (by omega)
  unfold bufPutbytes
  rw [dif_neg (by simp only [bufMaxIncr]; omega)]
  exact hhas.incrwritepos (by simp only [List.length_append]; omega)

theorem Has.overwrite (h : b.Has size (a ++ m ++ z) a.length) (hx : x.length = m.length) :
    ∃ b', bufOverwrite b x.length x = .ok b' ∧ b'.Has size (a ++ x ++ z) a.length := by
  have hpos := h.pos
  have hsize := h.size
  obtain ⟨hle, hmax⟩ := h.len_le
  simp only [bufMaxSize] at hmax
  simp only [List.length_append] at hle
  refine ⟨_, dif_neg (by simp only [bufMaxIncr]; omega), ?_⟩
  simp only [List.take_length]
  exact h.memcpy hx _

/-- Nothing is written. -/
theorem Has.overwrite_nil (h : b.Has size u pos) (hn : pos + n ≤ size) :
    ∃ b', bufOverwrite b n [] = .ok b' ∧ b'.Has size u pos := by
  have hpos := h.pos
  have hsize := h.size
  obtain ⟨-, hmax⟩ := h.len_le
  simp only [bufMaxSize] at hmax
  refine ⟨_, dif_neg (by simp only [bufMaxIncr]; omega), ?_, ?_, h.pos⟩
  · simp only [List.take_nil]
    exact (length_overwrite (by rw [List.length_nil]; omega)).trans h.size
  · simp only [List.take_nil]
    change (Ps4Dropbear.overwrite b.data b.pos []).take b.len = u
    rw [Ps4Dropbear.overwrite, List.append_nil, List.length_nil, Nat.add_zero,
      List.take_append_drop]
    exact h.used

/-- At most `n` bytes are written to `buf_getwriteptr`, over bytes in use. -/
theorem Has.overwrite_take (h : b.Has size u pos) (hn : pos + n ≤ u.length) (x : Bytes) :
    ∃ b', bufOverwrite b n x = .ok b' ∧
      b'.Has size (Ps4Dropbear.overwrite u pos (x.take n)) pos := by
  have hpos := h.pos
  have hsize := h.size
  obtain ⟨hle, hmax⟩ := h.len_le
  simp only [bufMaxSize] at hmax
  have hx := List.length_take_le n x
  have htake : (u.take pos).length = pos := by
    rw [List.length_take]
    omega
  have hsplit : u = u.take pos ++ (u.drop pos).take (x.take n).length ++
      u.drop (pos + (x.take n).length) := by
    rw [List.append_assoc, ← List.drop_drop, List.take_append_drop, List.take_append_drop]
  have hb : b.Has size (u.take pos ++ (u.drop pos).take (x.take n).length ++
      u.drop (pos + (x.take n).length)) (u.take pos).length := by
    rw [← hsplit, htake]
    exact h
  have hmiddle : (x.take n).length = ((u.drop pos).take (x.take n).length).length := by
    rw [List.length_take (l := u.drop pos), List.length_drop]
    omega
  have hover := hb.memcpy hmiddle (by omega)
  rw [htake] at hover
  exact ⟨_, dif_neg (by simp only [bufMaxIncr]; omega), hover⟩

/-- At most `n` bytes are written, over bytes in use. -/
theorem Has.overwriteUsed (h : b.Has size (a ++ m ++ z) a.length) (hx : x.length = m.length)
    (hn : x.length ≤ n) (hz : n ≤ m.length + z.length) :
    ∃ b', bufOverwriteUsed b n x = .ok b' ∧ b'.Has size (a ++ x ++ z) a.length := by
  have hpos := h.pos
  have hlen := h.len
  obtain ⟨hle, hmax⟩ := h.len_le
  simp only [bufMaxSize] at hmax
  simp only [List.length_append] at hle hlen
  refine ⟨_, dif_neg (by simp only [bufMaxIncr]; omega), ?_⟩
  simp only [List.take_of_length_le hn]
  exact h.memcpy hx _

/-- At most `n` bytes are written behind the bytes in use. -/
theorem Has.append (h : b.Has size u u.length) (hx : x.length ≤ n) (hn : u.length + n ≤ size) :
    ∃ b₁ b', bufOverwrite b n x = .ok b₁ ∧ bufIncrwritepos b₁ x.length = .ok b' ∧
      b'.Has size (u ++ x) (u.length + x.length) := by
  have hpos := h.pos
  have hsize := h.size
  obtain ⟨hle, hmax⟩ := h.len_le
  simp only [bufMaxSize] at hmax
  obtain ⟨b', hok, hhas⟩ := h.memcpy_end (x := x) (by omega)
  refine ⟨_, b', dif_neg (by simp only [bufMaxIncr]; omega), ?_, hhas⟩
  simp only [List.take_of_length_le hx]
  exact hok

theorem Has.putbyte_within {c d : UInt8} (h : b.Has size (a ++ [c] ++ z) a.length) :
    ∃ b', bufPutbyte b d = .ok b' ∧ b'.Has size (a ++ [d] ++ z) (a.length + 1) := by
  have hpos := h.pos
  have hlen := h.len
  simp only [List.length_append, List.length_singleton] at hlen
  have hone : (1 : ℕ) ≤ [c].length + z.length := by
    rw [List.length_singleton]
    omega
  obtain ⟨b₁, hok, hhas⟩ := h.overwriteUsed (x := [d]) (n := 1) rfl (Nat.le_refl 1) hone
  obtain ⟨b₂, hok', hhas'⟩ := hhas.incrpos (n := 1)
    (by simp only [List.length_append, List.length_singleton]; omega)
  refine ⟨b₂, ?_, hhas'⟩
  unfold bufPutbyte
  rw [if_neg (by omega), ok_bind, hok, ok_bind]
  exact hok'

theorem Has.putbyte {d : UInt8} (h : b.Has size u u.length) (hn : u.length + 1 ≤ size) :
    ∃ b', bufPutbyte b d = .ok b' ∧ b'.Has size (u ++ [d]) (u.length + 1) := by
  have hpos := h.pos
  have hlen := h.len
  obtain ⟨b₁, t, h₁, ht, hb₁⟩ := h.incrlen (n := 1) hn
  obtain ⟨c, rfl⟩ := List.length_eq_one_iff.1 ht
  obtain ⟨b₂, h₂, hb₂⟩ := Buffer.Has.overwriteUsed (m := [c]) (z := []) (x := [d]) (n := 1)
    (by rwa [List.append_nil]) rfl (Nat.le_refl 1) (Nat.le_refl 1)
  rw [List.append_nil] at hb₂
  obtain ⟨b₃, h₃, hb₃⟩ := hb₂.incrpos (n := 1) (by rw [List.length_append]; exact Nat.le_refl _)
  refine ⟨b₃, ?_, hb₃⟩
  unfold bufPutbyte
  rw [if_pos (by omega), h₁, ok_bind, h₂, ok_bind]
  exact h₃

theorem Has.resize (h : b.Has size u pos) (hn : size ≤ n) (hmax : n ≤ bufMaxSize) :
    ∃ b', bufResize b n = .ok b' ∧ b'.Has n u pos := by
  have hsize := h.size
  have hlen := h.len
  have hpos := b.pos_le
  have hle := b.len_le
  refine ⟨_, dif_neg (Nat.not_lt.2 hmax), ?_, ?_, ?_⟩
  · simp only [List.length_append, List.length_take, List.length_replicate]
    omega
  · change (b.data.take n ++ List.replicate (n - b.data.length) 0).take (min n b.len) = u
    rw [List.take_of_length_le (show b.data.length ≤ n by omega), Nat.min_eq_right (by omega),
      List.take_append_of_le_length hle]
    exact h.used
  · change min n b.pos = pos
    rw [← h.pos]
    omega

end Buffer

end Ps4Dropbear
