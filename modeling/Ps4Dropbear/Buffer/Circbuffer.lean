import Ps4Dropbear.Buffer.Basic
import Ps4Dropbear.Buffer.Ring

/-!
# Circular buffers

`circbuffer.c`.  The fields of a `Circbuffer` carry what the assertions of `cbuf_writelen` say
about them, so the functions that change a buffer prove it once.  Sizes are at most
`MAX_CBUF_SIZE`, and no sum below reaches `2^32`.

`cbuf_writeptr` and the `memcpy` to the pointer are two steps here too; the pointer is a buffer
that is known to have room behind its `writepos`.

* `Circbuffer.content` : the bytes in a buffer, in order.
* `cbufReadptrs_content`, `cbufIncrread_ok` : what is read, and what stays.
* `Circbuffer.store_ok` : a copy behind the last byte appends.
-/

namespace Ps4Dropbear

/-- `MAX_CBUF_SIZE`. -/
def maxCbufSize : ℕ := 100000000

/-- `circbuffer`. -/
structure Circbuffer where
  size : ℕ
  readpos : ℕ
  writepos : ℕ
  used : ℕ
  /-- `NULL` until something is written. -/
  data : Option Bytes
  size_pos : 0 < size
  size_le : size ≤ maxCbufSize
  readpos_lt : readpos < size
  used_le : used ≤ size
  writepos_eq : writepos = (readpos + used) % size
  length_data : ∀ bs ∈ data, bs.length = size
  deriving DecidableEq

namespace Circbuffer

/-- The memory of the buffer; `m_malloc` clears what it allocates. -/
def cells (c : Circbuffer) : Bytes := c.data.getD (List.replicate c.size 0)

/-- The bytes in the buffer. -/
def content (c : Circbuffer) : Bytes := cyclicTake c.cells c.readpos c.used

@[simp] theorem length_cells (c : Circbuffer) : c.cells.length = c.size := by
  unfold cells
  cases hdata : c.data with
  | none => simp
  | some bs => exact c.length_data bs hdata

@[simp] theorem length_content (c : Circbuffer) : c.content.length = c.used :=
  length_cyclicTake (by rw [length_cells]; exact c.used_le)

theorem writepos_lt (c : Circbuffer) : c.writepos < c.size :=
  c.writepos_eq ▸ Nat.mod_lt _ c.size_pos

/-- Where `writepos` is, without a remainder. -/
theorem writepos_cases (c : Circbuffer) :
    c.readpos + c.used < c.size ∧ c.writepos = c.readpos + c.used ∨
      c.size ≤ c.readpos + c.used ∧ c.writepos = c.readpos + c.used - c.size := by
  have hpos := c.readpos_lt
  have hused := c.used_le
  have heq := c.writepos_eq
  rw [mod_of_lt_two_turns (by omega)] at heq
  split_ifs at heq with hlt
  · exact .inl ⟨hlt, heq⟩
  · exact .inr ⟨Nat.le_of_not_lt hlt, heq⟩

end Circbuffer

/-- `cbuf_new`. -/
def cbufNew (size : ℕ) (hpos : 0 < size) : Except Exit Circbuffer :=
  if h : size > maxCbufSize then dropbearExit "Bad cbuf size"
  else .ok
    { size := size, readpos := 0, writepos := 0, used := 0, data := none
      size_pos := hpos, size_le := Nat.le_of_not_lt h, readpos_lt := hpos
      used_le := Nat.zero_le _, writepos_eq := (Nat.zero_mod _).symm
      length_data := nofun }

/-- `cbuf_getused`. -/
def cbufGetused (c : Circbuffer) : ℕ := c.used

/-- `cbuf_getavail`. -/
def cbufGetavail (c : Circbuffer) : ℕ := c.size - c.used

/-- The bytes that can be written in one piece. -/
def Circbuffer.linearRoom (c : Circbuffer) : ℕ :=
  if c.used = c.size then 0
  else if c.writepos < c.readpos then c.readpos - c.writepos
  else c.size - c.writepos

/-- `cbuf_writelen`. -/
def cbufWritelen (c : Circbuffer) : Except Exit ℕ :=
  if ¬ c.used ≤ c.size then dropbearExit "Failed assertion: cbuf->used <= cbuf->size"
  else if ¬ (2 * c.size + c.writepos - c.readpos) % c.size = c.used % c.size then
    dropbearExit ("Failed assertion: ((2*cbuf->size)+cbuf->writepos-cbuf->readpos)%cbuf->size" ++
      " == cbuf->used%cbuf->size")
  else if ¬ (2 * c.size + c.readpos - c.writepos) % c.size = (c.size - c.used) % c.size then
    dropbearExit ("Failed assertion: ((2*cbuf->size)+cbuf->readpos-cbuf->writepos)%cbuf->size" ++
      " == (cbuf->size-cbuf->used)%cbuf->size")
  else .ok c.linearRoom

/-- `cbuf_readptrs`: the bytes behind the two pointers. -/
def cbufReadptrs (c : Circbuffer) : Bytes × Bytes :=
  let len1 := min c.used (c.size - c.readpos)
  ((c.cells.drop c.readpos).take len1, if len1 < c.used then c.cells.take (c.used - len1) else [])

namespace Circbuffer

/-- The second assertion of `cbuf_writelen`. -/
theorem filled_mod (c : Circbuffer) :
    (2 * c.size + c.writepos - c.readpos) % c.size = c.used % c.size := by
  have hpos := c.readpos_lt
  rcases c.writepos_cases with ⟨hlt, hw⟩ | ⟨hge, hw⟩
  · have heq : 2 * c.size + c.writepos - c.readpos = c.used + c.size * 2 := by omega
    rw [heq, Nat.add_mul_mod_self_left]
  · have heq : 2 * c.size + c.writepos - c.readpos = c.used + c.size := by omega
    rw [heq, Nat.add_mod_right]

/-- The third assertion of `cbuf_writelen`. -/
theorem free_mod (c : Circbuffer) :
    (2 * c.size + c.readpos - c.writepos) % c.size = (c.size - c.used) % c.size := by
  have hpos := c.readpos_lt
  have hused := c.used_le
  rcases c.writepos_cases with ⟨hlt, hw⟩ | ⟨hge, hw⟩
  · have heq : 2 * c.size + c.readpos - c.writepos = c.size - c.used + c.size := by omega
    rw [heq, Nat.add_mod_right]
  · have heq : 2 * c.size + c.readpos - c.writepos = c.size - c.used + c.size * 2 := by omega
    rw [heq, Nat.add_mul_mod_self_left]

end Circbuffer

/-- The assertions hold. -/
theorem cbufWritelen_eq (c : Circbuffer) : cbufWritelen c = .ok c.linearRoom := by
  unfold cbufWritelen
  rw [if_neg (not_not.2 c.used_le), if_neg (not_not.2 c.filled_mod),
    if_neg (not_not.2 c.free_mod)]

namespace Circbuffer

theorem linearRoom_le (c : Circbuffer) :
    c.used + c.linearRoom ≤ c.size ∧ c.writepos + c.linearRoom ≤ c.size := by
  have hpos := c.readpos_lt
  have hused := c.used_le
  have hw := c.writepos_lt
  unfold linearRoom
  rcases c.writepos_cases with ⟨hlt, hw⟩ | ⟨hge, hw⟩ <;> split_ifs <;> omega

/-- A buffer that is not full has room. -/
theorem linearRoom_pos (c : Circbuffer) (h : c.used < c.size) : 0 < c.linearRoom := by
  have hw := c.writepos_lt
  unfold linearRoom
  split_ifs <;> omega

/-- A buffer with an allocation and with room for `len` bytes behind `writepos`. -/
structure Ptr (len : ℕ) where
  cbuf : Circbuffer
  room : len ≤ cbuf.linearRoom

/-- The lazy allocation. -/
def alloc (c : Circbuffer) : Circbuffer :=
  { c with
    data := some c.cells
    length_data := fun bs hbs => by
      obtain rfl : c.cells = bs := by simpa using hbs
      exact c.length_cells }

@[simp] theorem alloc_cells (c : Circbuffer) : c.alloc.cells = c.cells := rfl

/-- `memcpy` to the pointer. -/
def Ptr.memcpy {len : ℕ} (p : Ptr len) (bs : Bytes) (h : bs.length ≤ len) : Circbuffer :=
  { p.cbuf with
    data := some (overwrite p.cbuf.cells p.cbuf.writepos bs)
    length_data := fun ds hds => by
      obtain rfl : overwrite p.cbuf.cells p.cbuf.writepos bs = ds := by simpa using hds
      have hroom := p.cbuf.linearRoom_le.2
      have hp := p.room
      rw [length_overwrite (by rw [length_cells]; omega), length_cells] }

end Circbuffer

/-- `cbuf_writeptr`. -/
def cbufWriteptr (c : Circbuffer) (len : ℕ) : Except Exit (Circbuffer.Ptr len) := do
  let _ ← cbufWritelen c
  if h : len > c.linearRoom then dropbearExit "Bad cbuf write"
  else return ⟨c.alloc, Nat.le_of_not_lt h⟩

/-- `cbuf_incrwrite`. -/
def cbufIncrwrite (c : Circbuffer) (len : ℕ) : Except Exit Circbuffer := do
  let room ← cbufWritelen c
  if len > room then dropbearExit "Bad cbuf write"
  else if h : ¬ c.used + len ≤ c.size then
    dropbearExit "Failed assertion: cbuf->used <= cbuf->size"
  else return { c with
    used := c.used + len, writepos := (c.writepos + len) % c.size
    used_le := not_not.1 h
    writepos_eq := by rw [c.writepos_eq, Nat.mod_add_mod, Nat.add_assoc] }

/-- `cbuf_incrread`. -/
def cbufIncrread (c : Circbuffer) (len : ℕ) : Except Exit Circbuffer :=
  if h : ¬ c.used ≥ len then dropbearExit "Failed assertion: cbuf->used >= len"
  else .ok
    { c with
      used := c.used - len, readpos := (c.readpos + len) % c.size
      readpos_lt := Nat.mod_lt _ c.size_pos
      used_le := (Nat.sub_le _ _).trans c.used_le
      writepos_eq := by
        have hadd : c.readpos + len + (c.used - len) = c.readpos + c.used := by omega
        rw [c.writepos_eq, Nat.mod_add_mod, hadd] }

/-! ### What the functions do to the content -/

theorem cbufNew_ok {size : ℕ} (hpos : 0 < size) (hle : size ≤ maxCbufSize) :
    ∃ c, cbufNew size hpos = .ok c ∧ c.size = size ∧ c.used = 0 ∧ c.content = [] := by
  refine ⟨_, dif_neg (Nat.not_lt.2 hle), rfl, rfl, ?_⟩
  exact cyclicTake_zero _ _

/-- The two pointers lead to the content. -/
theorem cbufReadptrs_content (c : Circbuffer) :
    (cbufReadptrs c).1 ++ (cbufReadptrs c).2 = c.content := by
  have hpos : c.readpos ≤ c.cells.length := c.length_cells.symm ▸ c.readpos_lt.le
  have hused : c.used ≤ c.cells.length := c.length_cells.symm ▸ c.used_le
  have hsegments := cyclicTake_eq_segments c.cells hpos hused
  rw [c.length_cells] at hsegments
  rw [Circbuffer.content, hsegments]
  unfold cbufReadptrs
  dsimp only
  split_ifs with hlt
  · rfl
  · rw [Nat.sub_eq_zero_of_le (Nat.le_of_not_lt hlt), List.take_zero]

theorem cbufIncrread_ok (c : Circbuffer) {len : ℕ} (h : len ≤ c.used) :
    ∃ c', cbufIncrread c len = .ok c' ∧ c'.size = c.size ∧ c'.used = c.used - len ∧
      c'.content = c.content.drop len := by
  refine ⟨_, dif_neg (not_not.2 h), rfl, rfl, ?_⟩
  have hdrop := drop_cyclicTake c.cells c.readpos h
    (by rw [c.length_cells]; exact c.used_le)
  rw [c.length_cells] at hdrop
  exact hdrop.symm

theorem cbufWriteptr_ok (c : Circbuffer) {len : ℕ} (h : len ≤ c.linearRoom) :
    cbufWriteptr c len = .ok ⟨c.alloc, h⟩ := by
  unfold cbufWriteptr
  rw [cbufWritelen_eq, ok_bind, dif_neg (Nat.not_lt.2 h)]
  rfl

theorem cbufIncrwrite_ok (c : Circbuffer) {len : ℕ} (h : len ≤ c.linearRoom) :
    ∃ c', cbufIncrwrite c len = .ok c' ∧ c'.size = c.size ∧ c'.used = c.used + len ∧
      c'.content = cyclicTake c.cells c.readpos (c.used + len) := by
  have hfits : c.used + len ≤ c.size := (Nat.add_le_add_left h _).trans c.linearRoom_le.1
  unfold cbufIncrwrite
  rw [cbufWritelen_eq, ok_bind, if_neg (Nat.not_lt.2 h), dif_neg (not_not.2 hfits)]
  exact ⟨_, rfl, rfl, rfl, rfl⟩

/-- One piece of payload: `cbuf_writeptr`, `memcpy` and `cbuf_incrwrite`. -/
def Circbuffer.store (c : Circbuffer) (bs : Bytes) : Except Exit Circbuffer := do
  let p ← cbufWriteptr c bs.length
  cbufIncrwrite (p.memcpy bs le_rfl) bs.length

theorem Circbuffer.store_ok (c : Circbuffer) {bs : Bytes} (h : bs.length ≤ c.linearRoom) :
    ∃ c', c.store bs = .ok c' ∧ c'.size = c.size ∧ c'.used = c.used + bs.length ∧
      c'.content = c.content ++ bs := by
  obtain ⟨hused, hend⟩ := c.linearRoom_le
  have hfits : c.used + bs.length ≤ c.size := (Nat.add_le_add_left h _).trans hused
  have happend := cyclicTake_overwrite c.cells bs
    (by rw [c.length_cells]; exact c.readpos_lt) (by rw [c.length_cells]; exact hfits)
    (by rw [c.length_cells, ← c.writepos_eq]; omega)
  rw [c.length_cells, ← c.writepos_eq] at happend
  obtain ⟨c', hok, hsize, hlen, hcontent⟩ :=
    cbufIncrwrite_ok (Ptr.memcpy ⟨c.alloc, h⟩ bs le_rfl) h
  refine ⟨c', ?_, hsize, hlen, hcontent.trans happend⟩
  unfold store
  rw [cbufWriteptr_ok c h, ok_bind]
  exact hok

end Ps4Dropbear
