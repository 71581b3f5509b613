import Ps4Dropbear.Buffer.Circbuffer
import Ps4Dropbear.Buffer.Content
import Ps4Dropbear.LTS.Basic

/-!
# Circular buffers in machine words

The functions of `circbuffer.c` on four `unsigned int` fields that nothing is known about, with the
sums as the machine computes them.  A run is any sequence of calls in which the caller keeps to
what `cbuf_writelen` and `cbuf_getused` say and copies nothing outside of the room that
`cbuf_writeptr` has given it.

* `Circbuffer.words` : a `Circbuffer` as its fields; the functions on the fields do what the
  functions of `Buffer.Circbuffer` do (`words_cbufWritelen`, `words_cbufIncrwrite`, ...).
* `CbufState.Holds.run` : what a run keeps.
* `circbuffer_fifo` : **in every run the two regions are what was written and not yet read**.
-/

namespace Ps4Dropbear

/-- `circbuffer` as it lies in memory. -/
structure CbufWords where
  size : ℕ
  readpos : ℕ
  writepos : ℕ
  used : ℕ
  data : Option Bytes
  deriving DecidableEq

namespace CbufWords

/-- `cbuf_new`. -/
def cbufNew (size : ℕ) : Except Exit CbufWords :=
  if size > maxCbufSize then dropbearExit "Bad cbuf size"
  else .ok { size := size, readpos := 0, writepos := 0, used := 0, data := none }

/-- `cbuf_getused`. -/
def cbufGetused (c : CbufWords) : ℕ := c.used

/-- `(2*cbuf->size)+cbuf->writepos-cbuf->readpos`. -/
def filledSum (c : CbufWords) : ℕ := u32 (2 * c.size + c.writepos - c.readpos)

/-- `(2*cbuf->size)+cbuf->readpos-cbuf->writepos`. -/
def freeSum (c : CbufWords) : ℕ := u32 (2 * c.size + c.readpos - c.writepos)

/-- `cbuf_writelen`. -/
def cbufWritelen (c : CbufWords) : Except Exit ℕ :=
  if ¬ c.used ≤ c.size then dropbearExit "Failed assertion: cbuf->used <= cbuf->size"
  else if ¬ c.filledSum % c.size = c.used % c.size then
    dropbearExit ("Failed assertion: ((2*cbuf->size)+cbuf->writepos-cbuf->readpos)%cbuf->size" ++
      " == cbuf->used%cbuf->size")
  else if ¬ c.freeSum % c.size = u32 (c.size - c.used) % c.size then
    dropbearExit ("Failed assertion: ((2*cbuf->size)+cbuf->readpos-cbuf->writepos)%cbuf->size" ++
      " == (cbuf->size-cbuf->used)%cbuf->size")
  else if c.used = c.size then .ok 0
  else if c.writepos < c.readpos then .ok (u32 (c.readpos - c.writepos))
  else .ok (u32 (c.size - c.writepos))

/-- The memory behind `data`. -/
def cells (c : CbufWords) : Bytes := c.data.getD []

/-- `cbuf_readptrs`: the bytes behind the two pointers. -/
def cbufReadptrs (c : CbufWords) : Bytes × Bytes :=
  let len1 := min c.used (u32 (c.size - c.readpos))
  ((c.cells.drop c.readpos).take len1,
    if len1 < c.used then c.cells.take (u32 (c.used - len1)) else [])

/-- `cbuf_writeptr`: the pointer is an index into the memory. -/
def cbufWriteptr (c : CbufWords) (len : ℕ) : Except Exit (CbufWords × ℕ) := do
  let room ← c.cbufWritelen
  if len > room then dropbearExit "Bad cbuf write"
  else return ({ c with data := some (c.data.getD (List.replicate c.size 0)) }, c.writepos)

/-- `cbuf_incrwrite`. -/
def cbufIncrwrite (c : CbufWords) (len : ℕ) : Except Exit CbufWords := do
  let room ← c.cbufWritelen
  if len > room then dropbearExit "Bad cbuf write"
  else
    let used := u32 (c.used + len)
    if ¬ used ≤ c.size then dropbearExit "Failed assertion: cbuf->used <= cbuf->size"
    else return { c with used := used, writepos := u32 (c.writepos + len) % c.size }

/-- `cbuf_incrread`. -/
def cbufIncrread (c : CbufWords) (len : ℕ) : Except Exit CbufWords :=
  if ¬ c.used ≥ len then dropbearExit "Failed assertion: cbuf->used >= len"
  else .ok
    { c with used := u32 (c.used - len), readpos := u32 (c.readpos + len) % c.size }

/-- What holds of the fields of a buffer in use: the positions and the count are in range, the
sums of the assertions stay below `2^32` and above zero, and the assertions hold of them. -/
structure InRange (c : CbufWords) : Prop where
  used_le : c.used ≤ c.size
  readpos_lt : c.readpos < c.size
  writepos_lt : c.writepos < c.size
  filledSum_eq : (c.filledSum : ℤ) = 2 * c.size + c.writepos - c.readpos
  freeSum_eq : (c.freeSum : ℤ) = 2 * c.size + c.readpos - c.writepos
  no_overflow : 2 * c.size + c.writepos < 2 ^ 32 ∧ 2 * c.size + c.readpos < 2 ^ 32
  filled : c.filledSum % c.size = c.used % c.size
  free : c.freeSum % c.size = (c.size - c.used) % c.size

end CbufWords

/-! ### The functions on the fields of a `Circbuffer` -/

namespace Circbuffer

variable (c : Circbuffer) {len : ℕ}

/-- The fields of a buffer. -/
def words : CbufWords := ⟨c.size, c.readpos, c.writepos, c.used, c.data⟩

/-- `size`, `readpos`, `writepos` and `used` are below `2^30`. -/
theorem size_small : c.size < 2 ^ 30 := by
  have hsize := c.size_le
  simp only [maxCbufSize] at hsize
  omega

theorem words_inRange : c.words.InRange := by
  have hsmall := c.size_small
  have hread := c.readpos_lt
  have hwrite := c.writepos_lt
  have hfilled : c.words.filledSum = 2 * c.size + c.writepos - c.readpos :=
    u32_eq (by simp only [words]; omega) (by omega)
  have hfree : c.words.freeSum = 2 * c.size + c.readpos - c.writepos :=
    u32_eq (by simp only [words]; omega) (by omega)
  refine ⟨c.used_le, hread, hwrite, ?_, ?_, ⟨?_, ?_⟩, ?_, ?_⟩
  · rw [hfilled]
    simp only [words]
    omega
  · rw [hfree]
    simp only [words]
    omega
  · simp only [words]
    omega
  · simp only [words]
    omega
  · rw [hfilled]
    exact c.filled_mod
  · rw [hfree]
    exact c.free_mod

theorem words_cbufWritelen : c.words.cbufWritelen = .ok c.linearRoom := by
  have hsmall := c.size_small
  have hread := c.readpos_lt
  have hwrite := c.writepos_lt
  have hrange := c.words_inRange
  have hfree : c.words.freeSum % c.words.size =
      u32 ((c.words.size : ℤ) - c.words.used) % c.words.size := by
    have hsub : u32 ((c.words.size : ℤ) - c.words.used) = c.size - c.used :=
      u32_eq (by have := c.used_le; simp only [words]; omega) (by omega)
    rw [hsub]
    exact hrange.free
  unfold CbufWords.cbufWritelen
  rw [if_neg (not_not.2 hrange.used_le), if_neg (not_not.2 hrange.filled), if_neg (not_not.2 hfree)]
  unfold linearRoom
  by_cases hfull : c.used = c.size
  · rw [if_pos hfull, if_pos (show c.words.used = c.words.size from hfull)]
  rw [if_neg hfull, if_neg (show ¬ c.words.used = c.words.size from hfull)]
  by_cases hwrap : c.writepos < c.readpos
  · have hsub : u32 ((c.words.readpos : ℤ) - c.words.writepos) = c.readpos - c.writepos :=
      u32_eq (by simp only [words]; omega) (by omega)
    rw [if_pos hwrap, if_pos (show c.words.writepos < c.words.readpos from hwrap), hsub]
  · have hsub : u32 ((c.words.size : ℤ) - c.words.writepos) = c.size - c.writepos :=
      u32_eq (by simp only [words]; omega) (by omega)
    rw [if_neg hwrap, if_neg (show ¬ c.words.writepos < c.words.readpos from hwrap), hsub]

/-- A buffer without memory has nothing in it. -/
def Lazy : Prop := c.data = none → c.used = 0

variable {c}

theorem words_cbufReadptrs (hlazy : c.Lazy) : c.words.cbufReadptrs = cbufReadptrs c := by
  have hsmall := c.size_small
  have hread := c.readpos_lt
  have hused := c.used_le
  have hsub : u32 ((c.words.size : ℤ) - c.words.readpos) = c.size - c.readpos :=
    u32_eq (by simp only [words]; omega) (by omega)
  have hrest : u32 ((c.words.used : ℤ) - (min c.words.used (c.size - c.readpos) : ℕ)) =
      c.used - min c.used (c.size - c.readpos) :=
    u32_eq (by simp only [words]; omega) (by omega)
  unfold CbufWords.cbufReadptrs cbufReadptrs
  rw [hsub]
  dsimp only
  rw [hrest]
  cases hdata : c.data with
  | some bs =>
    have hcells : c.words.cells = c.cells := by
      change c.data.getD [] = c.data.getD _
      rw [hdata]
      rfl
    rw [hcells]
    rfl
  | none =>
    have hzero := hlazy hdata
    have hwords : c.words.used = 0 := hzero
    rw [hwords, hzero]
    simp

theorem words_cbufWriteptr (h : len ≤ c.linearRoom) :
    c.words.cbufWriteptr len = .ok (c.alloc.words, c.writepos) := by
  unfold CbufWords.cbufWriteptr
  rw [c.words_cbufWritelen, ok_bind, if_neg (Nat.not_lt.2 h)]
  rfl

theorem words_cbufIncrwrite (h : len ≤ c.linearRoom) {c' : Circbuffer}
    (hc : cbufIncrwrite c len = .ok c') : c.words.cbufIncrwrite len = .ok c'.words := by
  have hsmall := c.size_small
  have hwrite := c.writepos_lt
  have hfits : c.used + len ≤ c.size := (Nat.add_le_add_left h _).trans c.linearRoom_le.1
  have hused : u32 ((c.words.used : ℤ) + len) = c.used + len :=
    u32_eq (by simp only [words]; omega) (by omega)
  have hpos : u32 ((c.words.writepos : ℤ) + len) = c.writepos + len :=
    u32_eq (by simp only [words]; omega) (by omega)
  unfold cbufIncrwrite at hc
  rw [cbufWritelen_eq, ok_bind, if_neg (Nat.not_lt.2 h), dif_neg (not_not.2 hfits)] at hc
  cases hc
  unfold CbufWords.cbufIncrwrite
  rw [c.words_cbufWritelen, ok_bind, if_neg (Nat.not_lt.2 h), hused, hpos]
  dsimp only
  rw [if_neg (show ¬ ¬ c.used + len ≤ c.words.size from not_not.2 hfits)]
  rfl

theorem words_cbufIncrread (h : len ≤ c.used) {c' : Circbuffer}
    (hc : cbufIncrread c len = .ok c') : c.words.cbufIncrread len = .ok c'.words := by
  have hsmall := c.size_small
  have hread := c.readpos_lt
  have hle := c.used_le
  have hused : u32 ((c.words.used : ℤ) - len) = c.used - len :=
    u32_eq (by simp only [words]; omega) (by omega)
  have hpos : u32 ((c.words.readpos : ℤ) + len) = c.readpos + len :=
    u32_eq (by simp only [words]; omega) (by omega)
  unfold cbufIncrread at hc
  rw [dif_neg (not_not.2 h)] at hc
  cases hc
  unfold CbufWords.cbufIncrread
  rw [if_neg (show ¬ ¬ c.words.used ≥ len from not_not.2 h), hused, hpos]
  rfl

end Circbuffer

/-! ### Runs -/

/-- A buffer and what its writer holds: the pointer that `cbuf_writeptr` returned, and how many
bytes behind it are still the writer's. -/
structure CbufState where
  cbuf : CbufWords
  ptr : ℕ
  room : ℕ
  deriving DecidableEq

/-- What the users of a buffer do. -/
inductive CbufCall where
  | writeptr (len : ℕ)
  /-- `memcpy(p + off, bs, ..)`, where `p` is the pointer. -/
  | copy (off : ℕ) (bs : Bytes)
  /-- `cbuf_incrwrite` by the length of `bs`, when `bs` lies behind `writepos`. -/
  | incrwrite (bs : Bytes)
  | incrread (len : ℕ)
  deriving DecidableEq

namespace CbufCall

/-- The bytes that a call adds. -/
def written : CbufCall → Bytes
  | .incrwrite bs => bs
  | _ => []

/-- The number of bytes that a call gives up. -/
def consumed : CbufCall → ℕ
  | .incrread len => len
  | _ => 0

end CbufCall

namespace CbufState

/-- What `cbuf_writelen` answers. -/
def writelen (s : CbufState) : ℕ := s.cbuf.cbufWritelen.toOption.getD 0

/-- The calls that respect `cbuf_writelen`, `cbuf_getused` and the room behind the pointer. -/
def Respects (s : CbufState) : CbufCall → Prop
  | .writeptr len => len ≤ s.writelen
  | .copy off bs => off + bs.length ≤ s.room
  | .incrwrite bs =>
    bs.length ≤ s.writelen ∧ (s.cbuf.cells.drop s.cbuf.writepos).take bs.length = bs
  | .incrread len => len ≤ s.cbuf.cbufGetused

instance (s : CbufState) : DecidablePred s.Respects := fun l =>
  match l with
  | .writeptr len => inferInstanceAs (Decidable (len ≤ s.writelen))
  | .copy off bs => inferInstanceAs (Decidable (off + bs.length ≤ s.room))
  | .incrwrite bs => inferInstanceAs (Decidable (bs.length ≤ s.writelen ∧
      (s.cbuf.cells.drop s.cbuf.writepos).take bs.length = bs))
  | .incrread len => inferInstanceAs (Decidable (len ≤ s.cbuf.cbufGetused))

/-- One call.  A writer that has counted a part of its bytes goes on behind them. -/
def call (s : CbufState) : CbufCall → Except Exit CbufState
  | .writeptr len => do
    let (cbuf, ptr) ← s.cbuf.cbufWriteptr len
    return { cbuf := cbuf, ptr := ptr, room := len }
  | .copy off bs => .ok
    { s with cbuf := { s.cbuf with data := s.cbuf.data.map (overwrite · (s.ptr + off) bs) } }
  | .incrwrite bs => do
    let cbuf ← s.cbuf.cbufIncrwrite bs.length
    return { cbuf := cbuf, ptr := s.ptr + bs.length, room := s.room - bs.length }
  | .incrread len => do
    let cbuf ← s.cbuf.cbufIncrread len
    return { s with cbuf := cbuf }

end CbufState

/-- The users of a buffer, who keep to what it tells them. -/
def cbufUse : LTS CbufState CbufCall where
  step s l := if s.Respects l then (s.call l).toOption else none

/-- The bytes that a run has written. -/
def writtenBy (ls : List CbufCall) : Bytes := ls.flatMap CbufCall.written

/-- The number of bytes that a run has read. -/
def consumedBy (ls : List CbufCall) : ℕ := (ls.map CbufCall.consumed).sum

namespace Circbuffer

variable {c : Circbuffer} {off len : ℕ} {bs : Bytes}

/-- Writing behind `writepos` leaves the content alone. -/
def copy (c : Circbuffer) (off : ℕ) (bs : Bytes) (h : off + bs.length ≤ c.linearRoom) :
    Circbuffer :=
  { c with
    data := c.data.map (overwrite · (c.writepos + off) bs)
    length_data := fun ds hds => by
      obtain ⟨es, hes, rfl⟩ := Option.map_eq_some_iff.1 hds
      have hroom := c.linearRoom_le.2
      have hlen := c.length_data es hes
      rw [length_overwrite (by omega), hlen] }

@[simp] theorem copy_linearRoom (h : off + bs.length ≤ c.linearRoom) :
    (c.copy off bs h).linearRoom = c.linearRoom := rfl

theorem copy_cells (h : off + bs.length ≤ c.linearRoom) {ds : Bytes} (hdata : c.data = some ds) :
    (c.copy off bs h).cells = overwrite c.cells (c.writepos + off) bs := by
  have hcells : c.cells = ds := by
    unfold cells
    rw [hdata]
    rfl
  change (c.data.map _).getD (List.replicate c.size 0) = _
  rw [hcells, hdata]
  rfl

theorem copy_content (h : off + bs.length ≤ c.linearRoom) :
    (c.copy off bs h).content = c.content := by
  cases hdata : c.data with
  | none =>
    have hcells : (c.copy off bs h).cells = c.cells := by
      change (c.data.map _).getD (List.replicate c.size 0) = c.data.getD (List.replicate c.size 0)
      rw [hdata]
      rfl
    unfold content
    rw [hcells]
    rfl
  | some ds =>
    obtain ⟨hused, hend⟩ := c.linearRoom_le
    have hsame := @cyclicTake_overwrite_free _ c.readpos c.used off c.cells bs
      (by rw [c.length_cells]; exact c.readpos_lt) (by rw [c.length_cells]; omega)
      (by rw [c.length_cells, ← c.writepos_eq]; omega)
    rw [c.length_cells, ← c.writepos_eq] at hsame
    unfold content
    rw [copy_cells h hdata]
    exact hsame

/-- What lies behind `writepos` is what `cbuf_incrwrite` adds. -/
theorem cbufIncrwrite_content (h : len ≤ c.linearRoom) :
    ∃ c', cbufIncrwrite c len = .ok c' ∧ c'.size = c.size ∧ c'.used = c.used + len ∧
      c'.data = c.data ∧ c'.readpos = c.readpos ∧
      c'.content = c.content ++ (c.cells.drop c.writepos).take len := by
  obtain ⟨hused, hend⟩ := c.linearRoom_le
  have hfits : c.used + len ≤ c.size := (Nat.add_le_add_left h _).trans hused
  have hadd := @cyclicTake_add _ c.readpos c.used len c.cells
    (by rw [c.length_cells]; exact c.readpos_lt) (by rw [c.length_cells]; exact hfits)
    (by rw [c.length_cells, ← c.writepos_eq]; omega)
  rw [c.length_cells, ← c.writepos_eq] at hadd
  unfold cbufIncrwrite
  rw [cbufWritelen_eq, ok_bind, if_neg (Nat.not_lt.2 h), dif_neg (not_not.2 hfits)]
  exact ⟨_, rfl, rfl, rfl, rfl, rfl, hadd⟩

/-- What is left of the room lies behind the new `writepos`. -/
theorem cbufIncrwrite_linearRoom (h : len ≤ c.linearRoom) {c' : Circbuffer}
    (hc : cbufIncrwrite c len = .ok c') :
    c.linearRoom - len ≤ c'.linearRoom ∧
      (len < c.linearRoom → c'.writepos = c.writepos + len) := by
  obtain ⟨hfits, hend⟩ := c.linearRoom_le
  unfold cbufIncrwrite at hc
  rw [cbufWritelen_eq, ok_bind, if_neg (Nat.not_lt.2 h), dif_neg (not_not.2 (by omega))] at hc
  cases hc
  rcases Nat.eq_or_lt_of_le h with heq | hlt
  · exact ⟨by omega, fun hlt => absurd heq hlt.ne⟩
  · have hnext : (c.writepos + len) % c.size = c.writepos + len := Nat.mod_eq_of_lt (by omega)
    refine ⟨?_, fun _ => hnext⟩
    have hroom : c.linearRoom - len ≤
        if c.used + len = c.size then 0
        else if c.writepos + len < c.readpos then c.readpos - (c.writepos + len)
        else c.size - (c.writepos + len) := by
      unfold linearRoom at hfits hend hlt ⊢
      split_ifs at * <;> omega
    rw [← hnext] at hroom
    exact hroom

/-- Reading never takes room away from the writer. -/
theorem cbufIncrread_linearRoom (h : len ≤ c.used) {c' : Circbuffer}
    (hc : cbufIncrread c len = .ok c') :
    c'.writepos = c.writepos ∧ c'.data = c.data ∧ c.linearRoom ≤ c'.linearRoom := by
  unfold cbufIncrread at hc
  rw [dif_neg (not_not.2 h)] at hc
  cases hc
  refine ⟨rfl, rfl, ?_⟩
  have hread := c.readpos_lt
  have hused := c.used_le
  have hnext := mod_of_lt_two_turns (i := c.readpos + len) (n := c.size) (by omega)
  unfold linearRoom
  change _ ≤ if c.used - len = c.size then 0
    else if c.writepos < (c.readpos + len) % c.size then (c.readpos + len) % c.size - c.writepos
    else c.size - c.writepos
  rcases c.writepos_cases with ⟨hlt, hw⟩ | ⟨hge, hw⟩ <;> split_ifs at hnext ⊢ <;> omega

end Circbuffer

namespace CbufState

/-- What holds in a run that has written `w` and read the first `k` bytes of it: the fields are
those of a `Circbuffer`, the writer's room lies behind `writepos`, and the content is what has not
been read. -/
def Holds (size : ℕ) (w : Bytes) (k : ℕ) (s : CbufState) : Prop :=
  ∃ c : Circbuffer, s.cbuf = c.words ∧ c.size = size ∧ c.Lazy ∧ s.room ≤ c.linearRoom ∧
    (0 < s.room → s.ptr = c.writepos) ∧ k + c.used = w.length ∧ c.content = w.drop k

variable {size k : ℕ} {w : Bytes} {s : CbufState} {l : CbufCall}

theorem writelen_eq {c : Circbuffer} (h : s.cbuf = c.words) : s.writelen = c.linearRoom := by
  unfold writelen
  rw [h, c.words_cbufWritelen]
  rfl

theorem holds_start {c : CbufWords} (hpos : 0 < size) (h : CbufWords.cbufNew size = .ok c) :
    Holds size [] 0 ⟨c, 0, 0⟩ := by
  unfold CbufWords.cbufNew at h
  split_ifs at h with hsize
  · cases h
  cases h
  obtain ⟨c, hnew, -, -, hcontent⟩ := cbufNew_ok hpos (Nat.le_of_not_lt hsize)
  unfold cbufNew at hnew
  rw [dif_neg hsize] at hnew
  cases hnew
  exact ⟨_, rfl, rfl, fun _ => rfl, Nat.zero_le _, fun h => absurd h (lt_irrefl 0), rfl, hcontent⟩

theorem Holds.writeptr {len : ℕ} (hs : Holds size w k s) (h : len ≤ s.writelen) :
    ∃ s', s.call (.writeptr len) = .ok s' ∧ Holds size w k s' := by
  obtain ⟨c, hcbuf, hsize, -, -, -, hcount, hcontent⟩ := hs
  rw [writelen_eq hcbuf] at h
  refine ⟨⟨c.alloc.words, c.writepos, len⟩, ?_, c.alloc, rfl, hsize, nofun, h, fun _ => rfl,
    hcount, hcontent⟩
  simp only [call]
  rw [hcbuf, Circbuffer.words_cbufWriteptr h]
  rfl

theorem Holds.copy {off : ℕ} {bs : Bytes} (hs : Holds size w k s) (h : off + bs.length ≤ s.room) :
    ∃ s', s.call (.copy off bs) = .ok s' ∧ Holds size w k s' := by
  obtain ⟨c, hcbuf, hsize, hlazy, hroom, hptr, hcount, hcontent⟩ := hs
  refine ⟨_, rfl, c.copy off bs (h.trans hroom), ?_, hsize, ?_, hroom, hptr, hcount, ?_⟩
  · rcases Nat.eq_zero_or_pos s.room with hzero | hpos
    · -- nothing can be copied without room
      obtain ⟨rfl, hbs⟩ : off = 0 ∧ bs.length = 0 := by omega
      obtain rfl := List.length_eq_zero_iff.1 hbs
      have hsame : ∀ pos : ℕ, (overwrite · pos []) = (id : Bytes → Bytes) := fun pos => by
        funext ds
        simp [overwrite]
      simp only [hcbuf, hsame, Circbuffer.words, Circbuffer.copy]
    · rw [hptr hpos, hcbuf]
      rfl
  · intro hdata
    exact hlazy (Option.map_eq_none_iff.1 hdata)
  · rw [Circbuffer.copy_content, hcontent]

theorem Holds.incrwrite {bs : Bytes} (hs : Holds size w k s) (h : bs.length ≤ s.writelen)
    (hbs : (s.cbuf.cells.drop s.cbuf.writepos).take bs.length = bs) :
    ∃ s', s.call (.incrwrite bs) = .ok s' ∧ Holds size (w ++ bs) k s' := by
  obtain ⟨c, hcbuf, hsize, hlazy, hroom, hptr, hcount, hcontent⟩ := hs
  rw [writelen_eq hcbuf] at h
  obtain ⟨c', hincr, hsize', hused', hdata', hread', hcontent'⟩ :=
    Circbuffer.cbufIncrwrite_content h
  obtain ⟨hleft, hnext⟩ := Circbuffer.cbufIncrwrite_linearRoom h hincr
  refine ⟨⟨c'.words, s.ptr + bs.length, s.room - bs.length⟩, ?_, c', rfl, hsize'.trans hsize,
    ?_, ?_, ?_, ?_, ?_⟩
  · simp only [call]
    rw [hcbuf, Circbuffer.words_cbufIncrwrite h hincr]
    rfl
  · intro hdata
    rw [hdata'] at hdata
    rw [hcbuf] at hbs
    have hnil : bs = [] := by
      rw [← hbs]
      simp [CbufWords.cells, Circbuffer.words, hdata]
    rw [hused', hlazy hdata, hnil]
    rfl
  · exact (Nat.sub_le_sub_right hroom _).trans hleft
  · intro (hpos : 0 < s.room - bs.length)
    change s.ptr + bs.length = c'.writepos
    rw [hnext (by omega), hptr (by omega)]
  · rw [hused', List.length_append]
    omega
  · have hbehind : (c.cells.drop c.writepos).take bs.length = bs := by
      rw [hcbuf] at hbs
      cases hdata : c.data with
      | none =>
        have hnil : bs = [] := by
          rw [← hbs]
          simp [CbufWords.cells, Circbuffer.words, hdata]
        rw [hnil]
        rfl
      | some ds =>
        have hcells : c.cells = c.words.cells := by
          change c.data.getD _ = c.data.getD []
          rw [hdata]
          rfl
        rw [hcells]
        exact hbs
    rw [hcontent', hbehind, hcontent, List.drop_append_of_le_length (by omega)]

theorem Holds.incrread {len : ℕ} (hs : Holds size w k s) (h : len ≤ s.cbuf.cbufGetused) :
    ∃ s', s.call (.incrread len) = .ok s' ∧ Holds size w (k + len) s' := by
  obtain ⟨c, hcbuf, hsize, hlazy, hroom, hptr, hcount, hcontent⟩ := hs
  rw [hcbuf] at h
  obtain ⟨c', hincr, hsize', hused', hcontent'⟩ := cbufIncrread_ok c h
  obtain ⟨hwrite', hdata', hroom'⟩ := Circbuffer.cbufIncrread_linearRoom h hincr
  refine ⟨{ s with cbuf := c'.words }, ?_, c', rfl, hsize'.trans hsize, ?_, hroom.trans hroom',
    ?_, ?_, ?_⟩
  · simp only [call]
    rw [hcbuf, Circbuffer.words_cbufIncrread h hincr]
    rfl
  · intro hdata
    rw [hused', hlazy (hdata'.symm.trans hdata), Nat.zero_sub]
  · rw [hwrite']
    exact hptr
  · have hle : len ≤ c.used := h
    rw [hused']
    omega
  · rw [hcontent', hcontent, List.drop_drop]

/-- One call that respects the buffer: it does not exit. -/
theorem Holds.call (hs : Holds size w k s) (h : s.Respects l) :
    ∃ s', s.call l = .ok s' ∧ Holds size (w ++ l.written) (k + l.consumed) s' := by
  cases l with
  | writeptr len => simpa [CbufCall.written, CbufCall.consumed] using hs.writeptr h
  | copy off bs => simpa [CbufCall.written, CbufCall.consumed] using hs.copy h
  | incrwrite bs => exact hs.incrwrite h.1 h.2
  | incrread len => simpa [CbufCall.written, CbufCall.consumed] using hs.incrread h

theorem step_eq_some {s' : CbufState} (h : cbufUse.step s l = some s') :
    s.Respects l ∧ s.call l = .ok s' := by
  unfold cbufUse at h
  dsimp only at h
  split_ifs at h with hrespects
  exact ⟨hrespects, toOption_eq_some.1 h⟩

theorem Holds.run {ls : List CbufCall} {s' : CbufState} (hs : Holds size w k s)
    (h : cbufUse.exec s ls = some s') :
    Holds size (w ++ writtenBy ls) (k + consumedBy ls) s' := by
  induction ls generalizing w k s with
  | nil =>
    cases h
    simpa [writtenBy, consumedBy] using hs
  | cons l ls ih =>
    obtain ⟨t, hstep, hrest⟩ := LTS.exec_cons_eq_some.1 h
    obtain ⟨hrespects, hcall⟩ := step_eq_some hstep
    obtain ⟨t', hcall', ht⟩ := hs.call hrespects
    obtain rfl : t' = t := by simpa [hcall] using hcall'.symm
    have hrun := ih ht hrest
    simpa [writtenBy, consumedBy, Nat.add_assoc] using hrun

theorem step_of_call {s' : CbufState} (hrespects : s.Respects l) (hcall : s.call l = .ok s') :
    cbufUse.step s l = some s' :=
  (if_pos hrespects).trans (toOption_eq_some.2 hcall)

/-- `cbuf_writeptr`, `memcpy` and `cbuf_incrwrite` in a row are possible. -/
theorem Holds.store {bs : Bytes} (hs : Holds size w k s) (h : bs.length ≤ s.writelen) :
    ∃ s', cbufUse.exec s [.writeptr bs.length, .copy 0 bs, .incrwrite bs] = some s' := by
  obtain ⟨s₁, hcall₁, h₁⟩ := hs.writeptr h
  obtain ⟨c, hcbuf, -⟩ := hs
  rw [writelen_eq hcbuf] at h
  have hcall₁' : s.call (.writeptr bs.length) = .ok ⟨c.alloc.words, c.writepos, bs.length⟩ := by
    simp only [CbufState.call]
    rw [hcbuf, Circbuffer.words_cbufWriteptr h]
    rfl
  obtain rfl : s₁ = ⟨c.alloc.words, c.writepos, bs.length⟩ := by simpa [hcall₁'] using hcall₁.symm
  have hfits : 0 + bs.length ≤ c.alloc.linearRoom := by
    rw [Nat.zero_add]
    exact h
  have hrespects₂ : Respects ⟨c.alloc.words, c.writepos, bs.length⟩ (.copy 0 bs) :=
    (Nat.zero_add bs.length).le
  obtain ⟨s₂, hcall₂, h₂⟩ := h₁.copy hrespects₂
  obtain rfl : s₂ = ⟨(c.alloc.copy 0 bs hfits).words, c.writepos, bs.length⟩ := by
    cases hcall₂
    rfl
  have hbehind : ((overwrite c.cells (c.writepos + 0) bs).drop c.writepos).take bs.length = bs := by
    have hend := c.linearRoom_le.2
    have hlen : (c.cells.take c.writepos).length = c.writepos := by
      rw [List.length_take, c.length_cells]
      omega
    rw [overwrite, Nat.add_zero, List.append_assoc, List.drop_left' hlen, List.take_left]
  have hrespects₃ : Respects ⟨(c.alloc.copy 0 bs hfits).words, c.writepos, bs.length⟩
      (.incrwrite bs) := by
    refine ⟨?_, hbehind⟩
    rw [writelen_eq rfl, Circbuffer.copy_linearRoom]
    exact h
  obtain ⟨s₃, hcall₃, -⟩ := h₂.call hrespects₃
  have hrespects₁ : s.Respects (.writeptr bs.length) := by
    change bs.length ≤ s.writelen
    rw [writelen_eq hcbuf]
    exact h
  refine ⟨s₃, LTS.exec_cons_eq_some.2 ⟨_, step_of_call hrespects₁ hcall₁, ?_⟩⟩
  refine LTS.exec_cons_eq_some.2 ⟨_, step_of_call hrespects₂ hcall₂, ?_⟩
  exact LTS.exec_cons_eq_some.2 ⟨_, step_of_call hrespects₃ hcall₃, rfl⟩

end CbufState

/-- **A circular buffer is a bounded queue.**  After every run of a buffer of any size, the
fields are in range and the assertions of `cbuf_writelen` hold without an overflow; the two
regions of `cbuf_readptrs` are the bytes written and not yet read, in order; there is room for more
unless the buffer is full; no further call that respects the buffer exits, and any bytes that fit
in the room can be written. -/
theorem circbuffer_fifo {size : ℕ} (hpos : 0 < size) (hle : size ≤ maxCbufSize) :
    ∃ c, CbufWords.cbufNew size = .ok c ∧
      ∀ ls s, cbufUse.exec ⟨c, 0, 0⟩ ls = some s →
        s.cbuf.size = size ∧ s.cbuf.InRange ∧
        consumedBy ls + s.cbuf.cbufGetused = (writtenBy ls).length ∧
        s.cbuf.cbufReadptrs.1 ++ s.cbuf.cbufReadptrs.2 = (writtenBy ls).drop (consumedBy ls) ∧
        (∃ room, s.cbuf.cbufWritelen = .ok room ∧ (s.cbuf.used < s.cbuf.size → 0 < room)) ∧
        (∀ l, s.Respects l → ∃ s', s.call l = .ok s') ∧
        ∀ bs : Bytes, bs.length ≤ s.writelen →
          ∃ s', cbufUse.exec s [.writeptr bs.length, .copy 0 bs, .incrwrite bs] = some s' := by
  have hnew : CbufWords.cbufNew size = .ok ⟨size, 0, 0, 0, none⟩ := if_neg (Nat.not_lt.2 hle)
  refine ⟨_, hnew, fun ls s hrun => ?_⟩
  have hs := (CbufState.holds_start hpos hnew).run hrun
  rw [List.nil_append, Nat.zero_add] at hs
  refine ⟨?_, ?_, ?_, ?_, ?_, fun l hl => (hs.call hl).imp fun _ h => h.1, fun bs => hs.store⟩
  all_goals obtain ⟨c, hcbuf, hsize, hlazy, -, -, hcount, hcontent⟩ := hs; rw [hcbuf]
  · exact hsize
  · exact c.words_inRange
  · exact hcount
  · rw [Circbuffer.words_cbufReadptrs hlazy, cbufReadptrs_content, hcontent]
  · exact ⟨_, c.words_cbufWritelen, c.linearRoom_pos⟩

theorem circbuffer_fifo_two :
    0 < 2 ∧ 2 ≤ maxCbufSize ∧ ∃ c, CbufWords.cbufNew 2 = .ok c ∧
      ∀ ls s, cbufUse.exec ⟨c, 0, 0⟩ ls = some s →
        s.cbuf.cbufReadptrs.1 ++ s.cbuf.cbufReadptrs.2 = (writtenBy ls).drop (consumedBy ls) := by
  obtain ⟨c, hc, hruns⟩ := circbuffer_fifo Nat.two_pos (by decide)
  exact ⟨by decide, by decide, c, hc, fun ls s h => (hruns ls s h).2.2.2.1⟩

end Ps4Dropbear
