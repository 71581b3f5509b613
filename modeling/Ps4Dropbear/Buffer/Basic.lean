import Mathlib.Algebra.Group.Int.Defs
import Mathlib.Algebra.Ring.Nat
import Mathlib.Data.List.Basic
import Mathlib.Data.List.Infix
import Mathlib.Data.List.TakeWhile
import Mathlib.Order.Basic
import Mathlib.Tactic.Common

/-!
# Buffers

The byte buffers of `buffer.c` and the SSH wire encoding they read and write.

A buffer is its storage (`data`, of length `size`), the number of bytes in use (`len`) and the
read or write position (`pos`).  The bounds that the C functions check before every access are
fields of the structure, so a buffer that violates them cannot be built.  `BUF_MAX_SIZE` and
`BUF_MAX_INCR` are both `10^9`, so no sum of a position and an increment reaches `2^32` and the
unsigned arithmetic of the source is the arithmetic of `ℕ`.

A function of the source that can call `dropbear_exit` returns `Except Exit _`; the message is
the one of the source.

## Main definitions

* `Buffer`, `Buffer.rest` : a buffer, and its unread bytes.
* `bufGetint`, `bufGetstring`, `bufGetmpint`, ... : the readers.
* `bufPutint`, `bufPutbytes`, `bufPutstring` : the writers.
* `sshString` : the wire encoding of a string, a 32-bit big-endian length and the bytes.

## Main results

* `bufGetint_ok`, `bufGetstring_ok` : a reader succeeds iff the unread bytes start with the
  encoding of what it returns, and it then advances by that encoding.
* `bufPutbytes_ok`, `bufPutstring_ok` : what a writer appends.
-/

namespace Ps4Dropbear

/-- Byte strings. -/
abbrev Bytes := List UInt8

/-- The bytes of a string literal of the source. -/
def ascii (s : String) : Bytes := s.toList.map fun c => UInt8.ofNat c.toNat

/-- A space or a tab. -/
def isBlank (c : UInt8) : Bool := c == 32 || c == 9

/-- The C string at the start of `bs`: the bytes before the first NUL. -/
def cstr (bs : Bytes) : Bytes := bs.takeWhile (· ≠ 0)

theorem not_mem_cstr (bs : Bytes) : 0 ∉ cstr bs := by
  induction bs with
  | nil => exact List.not_mem_nil
  | cons b bs ih =>
    by_cases hb : b = 0
    · simp [cstr, hb]
    · have hcons : cstr (b :: bs) = b :: cstr bs := List.takeWhile_cons_of_pos (by simpa using hb)
      rw [hcons, List.mem_cons, not_or]
      exact ⟨fun h => hb h.symm, ih⟩

/-- The C string in an array that starts with it. -/
theorem cstr_of_isPrefixed {bs s : Bytes} (hs : s ++ [0] <+: bs) (hnul : 0 ∉ s) : cstr bs = s := by
  obtain ⟨rest, rfl⟩ := hs
  rw [cstr, List.append_assoc, List.takeWhile_append_of_pos]
  · simp
  · intro b hb
    simp only [ne_eq, decide_not, Bool.not_eq_eq_eq_not, Bool.not_true, decide_eq_false_iff_not]
    rintro rfl
    exact hnul hb

theorem cstr_eq_self {bs : Bytes} (h : 0 ∉ bs) : cstr bs = bs := by
  rw [cstr, List.takeWhile_eq_self_iff]
  intro b hb
  have hne : b ≠ 0 := by
    rintro rfl
    exact h hb
  simpa using hne

theorem cstr_cstr (bs : Bytes) : cstr (cstr bs) = cstr bs := cstr_eq_self (not_mem_cstr bs)

/-- `strcmp(a, b) == 0` for the NUL-terminated copies of two byte strings. -/
def strEq (a b : Bytes) : Bool := cstr a == cstr b

/-- The message of a `dropbear_exit` call. -/
abbrev Exit := String

/-- `dropbear_exit`: the session ends, nothing is returned. -/
def dropbearExit {α : Type*} (msg : String) : Except Exit α := .error msg

/-! ### Computations that may exit -/

section Except

variable {ε α β : Type}

@[simp] theorem ok_bind (a : α) (f : α → Except ε β) : (Except.ok a >>= f) = f a := rfl

@[simp] theorem error_bind (e : ε) (f : α → Except ε β) :
    (Except.error e >>= f) = .error e := rfl

theorem bind_eq_ok {x : Except ε α} {f : α → Except ε β} {b : β} :
    (x >>= f) = .ok b ↔ ∃ a, x = .ok a ∧ f a = .ok b := by
  cases x with
  | error e => simp
  | ok a => simp

@[simp] theorem pure_eq_ok (a b : α) : (pure a : Except ε α) = .ok b ↔ a = b := by
  simp [pure, Except.pure]

@[simp] theorem dropbearExit_ne_ok (msg : String) (a : α) :
    ¬ (dropbearExit msg : Except Exit α) = .ok a := by
  simp [dropbearExit]

theorem toOption_eq_some {x : Except ε α} {a : α} : x.toOption = some a ↔ x = .ok a := by
  cases x <;> simp [Except.toOption]

/-- A computation that was evaluated to a good result has one. -/
theorem exists_ok_of_any {x : Except ε α} {p : α → Bool} (h : x.toOption.any p = true) :
    ∃ a, x = .ok a ∧ p a = true := by
  cases x with
  | error e => simp [Except.toOption] at h
  | ok a => exact ⟨a, rfl, by simpa [Except.toOption] using h⟩

theorem ite_exit_eq_ok {c : Prop} [Decidable c] {msg : String} {x : Except Exit α} {a : α} :
    (if c then dropbearExit msg else x) = .ok a ↔ ¬ c ∧ x = .ok a := by
  by_cases hc : c <;> simp [hc]

end Except

/-! ### Wire encoding -/

/-- `STORE32H`: big-endian 32-bit value. -/
def store32h (v : ℕ) : Bytes :=
  [UInt8.ofNat (v / 2 ^ 24), UInt8.ofNat (v / 2 ^ 16), UInt8.ofNat (v / 2 ^ 8), UInt8.ofNat v]

/-- `LOAD32H`: the big-endian 32-bit value in the first four bytes. -/
def load32h : Bytes → ℕ
  | a :: b :: c :: d :: _ => a.toNat * 2 ^ 24 + b.toNat * 2 ^ 16 + c.toNat * 2 ^ 8 + d.toNat
  | _ => 0

/-- An SSH string: its length and its bytes. -/
def sshString (s : Bytes) : Bytes := store32h s.length ++ s

@[simp] theorem length_store32h (v : ℕ) : (store32h v).length = 4 := rfl

@[simp] theorem length_sshString (s : Bytes) : (sshString s).length = 4 + s.length := by
  simp [sshString]

theorem load32h_lt (bs : Bytes) : load32h bs < 2 ^ 32 := by
  unfold load32h
  split
  · next a b c d _ =>
    have := a.toNat_lt; have := b.toNat_lt; have := c.toNat_lt; have := d.toNat_lt
    omega
  · omega

theorem load32h_store32h (v : ℕ) (r : Bytes) : load32h (store32h v ++ r) = v % 2 ^ 32 := by
  simp only [store32h, load32h, List.cons_append, List.nil_append, UInt8.toNat_ofNat']
  omega

theorem store32h_load32h {bs : Bytes} (h : 4 ≤ bs.length) : store32h (load32h bs) = bs.take 4 := by
  match bs, h with
  | a :: b :: c :: d :: _, _ =>
    have ha := a.toNat_lt; have hb := b.toNat_lt; have hc := c.toNat_lt; have hd := d.toNat_lt
    simp only [load32h, store32h, List.take_succ_cons, List.take_zero, List.cons.injEq, and_true,
      ← UInt8.toNat_inj, UInt8.toNat_ofNat']
    omega

/-- The length is in the first four bytes. -/
theorem load32h_take (x : Bytes) {n : ℕ} (hn : 4 ≤ n) : load32h (x.take n) = load32h x := by
  obtain ⟨n, rfl⟩ := Nat.exists_eq_add_of_le' hn
  match x with
  | [] => simp
  | [_] => simp
  | [_, _] => simp
  | [_, _, _] => simp
  | _ :: _ :: _ :: _ :: _ => rfl

/-- Two SSH strings (short enough for their length field) in front of the same bytes agree. -/
theorem sshString_append_inj {s t r r' : Bytes} (hs : s.length < 2 ^ 32) (ht : t.length < 2 ^ 32)
    (h : sshString s ++ r = sshString t ++ r') : s = t ∧ r = r' := by
  have hlen : s.length = t.length := by
    have := congrArg load32h h
    simp only [sshString, List.append_assoc, load32h_store32h] at this
    omega
  simp only [sshString, hlen, List.append_assoc, List.append_cancel_left_eq] at h
  exact List.append_inj h hlen

/-! ### Buffers -/

/-- `BUF_MAX_INCR`. -/
def bufMaxIncr : ℕ := 1000000000

/-- `BUF_MAX_SIZE`. -/
def bufMaxSize : ℕ := 1000000000

/-- `BUF_MAX_MPINT`, `8240 / 8`. -/
def bufMaxMpint : ℕ := 1030

/-- `MAX_STRING_LEN`, which is `MAX_CMD_LEN`. -/
def maxStringLen : ℕ := 9000

/-- `MAX_NAME_LEN`. -/
def maxNameLen : ℕ := 64

/-- `TRANS_MAX_PAYLOAD_LEN`. -/
def transMaxPayloadLen : ℕ := 16384

/-- `struct buf`; its `size` is the length of `data`. -/
@[ext]
structure Buffer where
  /-- The storage. -/
  data : Bytes
  /-- The used size. -/
  len : ℕ
  /-- The current position. -/
  pos : ℕ
  /-- The position is never past the used size. -/
  pos_le : pos ≤ len
  /-- The used size fits in the storage. -/
  len_le : len ≤ data.length
  /-- The storage is at most `BUF_MAX_SIZE`. -/
  size_le : data.length ≤ bufMaxSize

namespace Buffer

/-- The bytes that have not been read yet. -/
def rest (b : Buffer) : Bytes := (b.data.take b.len).drop b.pos

/-- The bytes in use. -/
def contents (b : Buffer) : Bytes := b.data.take b.len

/-- The position `n` further, at most at the end. -/
def advance (b : Buffer) (n : ℕ) : Buffer :=
  { b with pos := min (b.pos + n) b.len, pos_le := Nat.min_le_right _ _ }

/-- A full buffer over the given bytes, positioned at the start. -/
def ofBytes (bs : Bytes) (h : bs.length ≤ bufMaxSize) : Buffer :=
  ⟨bs, bs.length, 0, Nat.zero_le _, Nat.le_refl _, h⟩

theorem length_rest (b : Buffer) : b.rest.length = b.len - b.pos := by
  have := b.len_le
  simp only [rest, List.length_drop, List.length_take]
  omega

theorem length_contents (b : Buffer) : b.contents.length = b.len := by
  rw [contents, List.length_take, Nat.min_eq_left b.len_le]

theorem length_rest_le (b : Buffer) : b.rest.length ≤ bufMaxIncr := by
  have := b.len_le; have := b.size_le
  simp only [length_rest, bufMaxIncr, bufMaxSize] at *
  omega

@[simp] theorem rest_ofBytes (bs : Bytes) (h : bs.length ≤ bufMaxSize) :
    (ofBytes bs h).rest = bs := by
  simp [rest, ofBytes]

@[simp] theorem advance_data (b : Buffer) (n : ℕ) : (b.advance n).data = b.data := rfl

@[simp] theorem advance_len (b : Buffer) (n : ℕ) : (b.advance n).len = b.len := rfl

@[simp] theorem contents_advance (b : Buffer) (n : ℕ) : (b.advance n).contents = b.contents := rfl

@[simp] theorem advance_zero (b : Buffer) : b.advance 0 = b := by
  ext1
  · rfl
  · rfl
  · exact Nat.min_eq_left b.pos_le

theorem advance_pos {b : Buffer} {n : ℕ} (h : n ≤ b.rest.length) :
    (b.advance n).pos = b.pos + n := by
  have := b.pos_le
  simp only [length_rest] at h
  simp only [advance]
  omega

theorem advance_advance (b : Buffer) (m n : ℕ) :
    (b.advance m).advance n = b.advance (m + n) := by
  ext1
  · rfl
  · rfl
  · simp only [advance]; omega

theorem rest_advance (b : Buffer) (n : ℕ) : (b.advance n).rest = b.rest.drop n := by
  simp only [rest, advance_data, advance_len, List.drop_drop]
  by_cases h : b.pos + n ≤ b.len
  · simp only [advance, Nat.min_eq_left h]
  · rw [List.drop_eq_nil_of_le, List.drop_eq_nil_of_le]
    · simp only [List.length_take]; omega
    · simp only [List.length_take, advance]; omega

theorem rest_advance_of_append {b : Buffer} {x r : Bytes} (h : b.rest = x ++ r) :
    (b.advance x.length).rest = r := by
  rw [rest_advance, h, List.drop_left]

end Buffer

/-! ### Positions -/

/-- `buf_new`: `m_malloc` clears the storage. -/
def bufNew (size : ℕ) : Except Exit Buffer :=
  if h : size > bufMaxSize then dropbearExit "buf->size too big"
  else .ok ⟨List.replicate size 0, 0, 0, Nat.le_refl _, Nat.zero_le _, by simpa using h⟩

/-- `buf_new`, `memcpy` and `buf_incrlen`: a new buffer that holds the given bytes. -/
def bufOfBytes (bs : Bytes) : Except Exit Buffer :=
  if h : bs.length > bufMaxSize then dropbearExit "buf->size too big"
  else .ok (Buffer.ofBytes bs (Nat.le_of_not_lt h))

/-- `buf_setlen`. -/
def bufSetlen (buf : Buffer) (len : ℕ) : Except Exit Buffer :=
  if h : len > buf.data.length then dropbearExit "Bad buf_setlen"
  else .ok { buf with
    len := len, pos := min buf.pos len, pos_le := Nat.min_le_right _ _, len_le := by omega }

/-- `buf_incrlen`. -/
def bufIncrlen (buf : Buffer) (incr : ℕ) : Except Exit Buffer :=
  if h : incr > bufMaxIncr ∨ buf.len + incr > buf.data.length then
    dropbearExit "Bad buf_incrlen"
  else .ok { buf with
    len := buf.len + incr
    pos_le := Nat.le_trans buf.pos_le (Nat.le_add_right _ _)
    len_le := by omega }

/-- `buf_setpos`. -/
def bufSetpos (buf : Buffer) (pos : ℕ) : Except Exit Buffer :=
  if h : pos > buf.len then dropbearExit "Bad buf_setpos"
  else .ok { buf with pos := pos, pos_le := by omega }

/-- `buf_incrwritepos`. -/
def bufIncrwritepos (buf : Buffer) (incr : ℕ) : Except Exit Buffer :=
  if h : incr > bufMaxIncr ∨ buf.pos + incr > buf.data.length then
    dropbearExit "Bad buf_incrwritepos"
  else .ok { buf with
    pos := buf.pos + incr
    len := max buf.len (buf.pos + incr)
    pos_le := Nat.le_max_right _ _
    len_le := by have := buf.len_le; omega }

/-- `buf_incrpos`. -/
def bufIncrpos (buf : Buffer) (incr : ℕ) : Except Exit Buffer :=
  if h : incr > bufMaxIncr ∨ buf.pos + incr > buf.len then dropbearExit "Bad buf_incrpos"
  else .ok { buf with pos := buf.pos + incr, pos_le := by omega }

/-- `buf_decrpos`. -/
def bufDecrpos (buf : Buffer) (decr : ℕ) : Except Exit Buffer :=
  if decr > buf.pos then dropbearExit "Bad buf_decrpos"
  else .ok { buf with pos := buf.pos - decr, pos_le := by have := buf.pos_le; omega }

/-! ### Readers -/

/-- `buf_getptr`: the next `len` bytes, which have to be there. -/
def bufGetptr (buf : Buffer) (len : ℕ) : Except Exit Bytes :=
  if len > bufMaxIncr ∨ buf.pos + len > buf.len then dropbearExit "Bad buf_getptr"
  else .ok (buf.rest.take len)

/-- `buf_getbyte`. -/
def bufGetbyte (buf : Buffer) : Except Exit (UInt8 × Buffer) :=
  match buf.rest with
  | [] => dropbearExit "Bad buf_getbyte"
  | b :: _ => .ok (b, buf.advance 1)

/-- `buf_getbool`. -/
def bufGetbool (buf : Buffer) : Except Exit (Bool × Buffer) := do
  let (b, buf) ← bufGetbyte buf
  return (b ≠ 0, buf)

/-- `buf_getint`. -/
def bufGetint (buf : Buffer) : Except Exit (ℕ × Buffer) := do
  let p ← bufGetptr buf 4
  let buf ← bufIncrpos buf 4
  return (load32h p, buf)

/-- `buf_getstring`: the copy has `retlen` bytes and a NUL after them. -/
def bufGetstring (buf : Buffer) : Except Exit (Bytes × Buffer) := do
  let (len, buf) ← bufGetint buf
  if len > maxStringLen then
    dropbearExit "String too long"
  else
    let src ← bufGetptr buf len
    let buf ← bufIncrpos buf len
    return (src, buf)

/-- `buf_eatstring`. -/
def bufEatstring (buf : Buffer) : Except Exit Buffer := do
  let (len, buf) ← bufGetint buf
  bufIncrpos buf len

/-- `mp_from_ubin`: an unsigned big-endian number. -/
def mpFromUbin (bs : Bytes) : ℕ := bs.foldl (fun n b => n * 256 + b.toNat) 0

/-- `mp_count_bits`. -/
def mpCountBits (n : ℕ) : ℕ := if n = 0 then 0 else Nat.log2 n + 1

/-- `buf_getmpint`; `none` is `DROPBEAR_FAILURE`, for a long or a negative number. -/
def bufGetmpint (buf : Buffer) : Except Exit (Option ℕ × Buffer) := do
  let (len, buf) ← bufGetint buf
  if len = 0 then
    return (some 0, buf)
  else if len > bufMaxMpint then
    return (none, buf)
  else
    let top ← bufGetptr buf 1
    if top.any (128 ≤ ·) then
      return (none, buf)
    else
      let p ← bufGetptr buf len
      let buf ← bufIncrpos buf len
      return (some (mpFromUbin p), buf)

theorem bufIncrpos_eq (b : Buffer) (n : ℕ) :
    bufIncrpos b n =
      if n ≤ b.rest.length then .ok (b.advance n) else .error "Bad buf_incrpos" := by
  have hr := b.length_rest_le
  have hp := b.pos_le
  rw [Buffer.length_rest] at hr ⊢
  unfold bufIncrpos
  split_ifs with h h' h'
  · omega
  · rfl
  · congr 1
    ext1
    · rfl
    · rfl
    · simp only [Buffer.advance]; omega
  · omega

theorem bufGetptr_eq (b : Buffer) (n : ℕ) :
    bufGetptr b n =
      if n ≤ b.rest.length then .ok (b.rest.take n) else .error "Bad buf_getptr" := by
  have hr := b.length_rest_le
  have hp := b.pos_le
  rw [Buffer.length_rest] at hr ⊢
  unfold bufGetptr
  split_ifs with h h' h'
  · omega
  · rfl
  · rfl
  · omega

theorem bufIncrpos_ok {b b' : Buffer} {n : ℕ} :
    bufIncrpos b n = .ok b' ↔ n ≤ b.rest.length ∧ b' = b.advance n := by
  rw [bufIncrpos_eq]
  split_ifs with h <;> simp [h, eq_comm]

theorem bufGetptr_ok {b : Buffer} {n : ℕ} {p : Bytes} :
    bufGetptr b n = .ok p ↔ p.length = n ∧ ∃ r, b.rest = p ++ r := by
  rw [bufGetptr_eq]
  constructor
  · intro h
    split_ifs at h with hn
    cases h
    exact ⟨List.length_take_of_le hn, _, (List.take_append_drop n _).symm⟩
  · rintro ⟨rfl, r, hr⟩
    simp [hr]

theorem bufGetbyte_ok {b b' : Buffer} {v : UInt8} :
    bufGetbyte b = .ok (v, b') ↔ (∃ r, b.rest = v :: r) ∧ b' = b.advance 1 := by
  unfold bufGetbyte
  split
  · next h => simp [h]
  · next w r h => simp [h, eq_comm]

theorem bufGetbool_ok {b b' : Buffer} {v : Bool} :
    bufGetbool b = .ok (v, b') ↔ ∃ w, (w ≠ 0 : Bool) = v ∧ (∃ r, b.rest = w :: r) ∧
      b' = b.advance 1 := by
  simp only [bufGetbool, bind_eq_ok, Prod.exists, bufGetbyte_ok, pure_eq_ok, Prod.mk.injEq]
  constructor
  · rintro ⟨w, c, ⟨hr, rfl⟩, rfl, rfl⟩
    exact ⟨w, rfl, hr, rfl⟩
  · rintro ⟨w, rfl, hr, rfl⟩
    exact ⟨w, _, ⟨hr, rfl⟩, rfl, rfl⟩

/-- `buf_getint` returns a value iff the unread bytes start with its encoding. -/
theorem bufGetint_ok {b b' : Buffer} {v : ℕ} :
    bufGetint b = .ok (v, b') ↔
      (v < 2 ^ 32 ∧ ∃ r, b.rest = store32h v ++ r) ∧ b' = b.advance 4 := by
  simp only [bufGetint, bind_eq_ok, bufGetptr_ok, bufIncrpos_ok, pure_eq_ok, Prod.mk.injEq]
  constructor
  · rintro ⟨p, ⟨hp, r, hr⟩, c, ⟨hc, rfl⟩, rfl, rfl⟩
    have hstore : store32h (load32h p) = p := by
      rw [store32h_load32h (Nat.le_of_eq hp.symm), List.take_of_length_le (Nat.le_of_eq hp)]
    exact ⟨⟨load32h_lt p, r, by rw [hstore, hr]⟩, rfl⟩
  · rintro ⟨⟨hv, r, hr⟩, rfl⟩
    refine ⟨store32h v, ⟨rfl, r, hr⟩, _, ⟨by simp [hr], rfl⟩, ?_, rfl⟩
    rw [← List.append_nil (store32h v), load32h_store32h, Nat.mod_eq_of_lt hv]

/-- `buf_getstring` returns a string iff the unread bytes start with its encoding. -/
theorem bufGetstring_ok {b b' : Buffer} {s : Bytes} :
    bufGetstring b = .ok (s, b') ↔
      (s.length ≤ maxStringLen ∧ ∃ r, b.rest = sshString s ++ r) ∧
        b' = b.advance (4 + s.length) := by
  simp only [bufGetstring, bind_eq_ok, Prod.exists, bufGetint_ok, ite_exit_eq_ok, bufGetptr_ok,
    bufIncrpos_ok, pure_eq_ok, Prod.mk.injEq]
  constructor
  · rintro ⟨v, c, ⟨⟨-, r, hr⟩, rfl⟩, hv, p, ⟨rfl, r', hr'⟩, d, ⟨-, rfl⟩, rfl, rfl⟩
    have hrest : r = p ++ r' := by
      rw [← hr', ← Buffer.rest_advance_of_append hr, length_store32h]
    exact ⟨⟨by omega, r', by rw [hr, hrest, sshString, List.append_assoc]⟩,
      Buffer.advance_advance b 4 _⟩
  · rintro ⟨⟨hs, r, hr⟩, rfl⟩
    rw [sshString, List.append_assoc] at hr
    have hrest : (b.advance 4).rest = s ++ r := by
      rw [← length_store32h s.length, Buffer.rest_advance_of_append hr]
    have hlt : s.length < 2 ^ 32 := by simp only [maxStringLen] at hs; omega
    refine ⟨s.length, _, ⟨⟨hlt, _, hr⟩, rfl⟩, by omega, s, ⟨rfl, r, hrest⟩, _, ⟨?_, rfl⟩, rfl,
      Buffer.advance_advance b 4 _⟩
    simp [hrest]

/-- A number is an SSH string of at most `BUF_MAX_MPINT` bytes without the sign bit. -/
theorem bufGetmpint_ok {b b' : Buffer} {v : ℕ} :
    bufGetmpint b = .ok (some v, b') ↔
      ∃ s : Bytes, s.length ≤ bufMaxMpint ∧ (∀ t ∈ s.head?, t < 128) ∧ mpFromUbin s = v ∧
        (∃ r, b.rest = sshString s ++ r) ∧ b' = b.advance (4 + s.length) := by
  simp only [bufGetmpint, bind_eq_ok, Prod.exists, bufGetint_ok]
  constructor
  · rintro ⟨n, c, ⟨⟨-, r, hr⟩, rfl⟩, h⟩
    have hrest : (b.advance 4).rest = r := Buffer.rest_advance_of_append hr
    split_ifs at h with h0 hmax
    · simp only [pure_eq_ok, Prod.mk.injEq, Option.some.injEq] at h
      obtain ⟨rfl, rfl⟩ := h
      subst h0
      exact ⟨[], by simp, by simp, rfl, ⟨r, by simpa [sshString] using hr⟩, rfl⟩
    · simp at h
    · simp only [bind_eq_ok, bufGetptr_ok, hrest] at h
      obtain ⟨top, ⟨htop, r₁, hr₁⟩, h⟩ := h
      split_ifs at h with hneg
      · simp at h
      simp only [bind_eq_ok, bufGetptr_ok, bufIncrpos_ok, pure_eq_ok, Prod.mk.injEq,
        Option.some.injEq, hrest] at h
      obtain ⟨s, ⟨rfl, r₂, hr₂⟩, d, ⟨-, rfl⟩, rfl, rfl⟩ := h
      refine ⟨s, by omega, ?_, rfl, ⟨r₂, ?_⟩, Buffer.advance_advance b 4 _⟩
      · obtain ⟨t, rfl⟩ : ∃ t, top = [t] := List.length_eq_one_iff.1 htop
        obtain ⟨u, s', rfl⟩ : ∃ u s', s = u :: s' := List.exists_cons_of_length_pos (by omega)
        simp only [hr₁, List.cons_append, List.nil_append, List.cons.injEq] at hr₂
        simpa [hr₂.1] using hneg
      · rw [hr, hr₂, sshString, List.append_assoc]
  · rintro ⟨s, hs, hneg, rfl, ⟨r, hr⟩, rfl⟩
    rw [sshString, List.append_assoc] at hr
    have hrest : (b.advance 4).rest = s ++ r := by
      rw [← length_store32h s.length, Buffer.rest_advance_of_append hr]
    have hlt : s.length < 2 ^ 32 := by simp only [bufMaxMpint] at hs; omega
    refine ⟨s.length, _, ⟨⟨hlt, _, hr⟩, rfl⟩, ?_⟩
    cases s with
    | nil => simp [mpFromUbin]
    | cons t s =>
      rw [if_neg (by simp), if_neg (by omega)]
      simp only [bind_eq_ok, bufGetptr_ok, hrest]
      have ht : ¬ [t].any (128 ≤ ·) := by simpa using hneg
      refine ⟨[t], ⟨rfl, s ++ r, rfl⟩, ?_⟩
      rw [if_neg ht]
      simp only [bind_eq_ok, bufGetptr_ok, bufIncrpos_ok, pure_eq_ok, Prod.mk.injEq,
        Option.some.injEq, hrest]
      exact ⟨t :: s, ⟨rfl, r, rfl⟩, _, ⟨by simp, rfl⟩, rfl,
        Buffer.advance_advance b 4 _⟩

/-! ### Writers -/

/-- `data` with `bs` written over it at `pos`. -/
def overwrite (data : Bytes) (pos : ℕ) (bs : Bytes) : Bytes :=
  data.take pos ++ bs ++ data.drop (pos + bs.length)

theorem length_overwrite {data bs : Bytes} {pos : ℕ} (h : pos + bs.length ≤ data.length) :
    (overwrite data pos bs).length = data.length := by
  simp only [overwrite, List.length_append, List.length_take, List.length_drop]
  omega

/-- `memcpy` to the position of the buffer. -/
def Buffer.memcpy (buf : Buffer) (bs : Bytes) (h : buf.pos + bs.length ≤ buf.data.length) :
    Buffer :=
  { buf with
    data := overwrite buf.data buf.pos bs
    len_le := length_overwrite h ▸ buf.len_le
    size_le := length_overwrite h ▸ buf.size_le }

/-- `buf_putbytes`, with the check of `buf_getwriteptr`. -/
def bufPutbytes (buf : Buffer) (bs : Bytes) : Except Exit Buffer :=
  if h : bs.length > bufMaxIncr ∨ buf.pos + bs.length > buf.data.length then
    dropbearExit "Bad buf_getwriteptr"
  else bufIncrwritepos (buf.memcpy bs (by omega)) bs.length

/-- `buf_putint`. -/
def bufPutint (buf : Buffer) (v : ℕ) : Except Exit Buffer := bufPutbytes buf (store32h v)

/-- `buf_putstring`. -/
def bufPutstring (buf : Buffer) (s : Bytes) : Except Exit Buffer := do
  let buf ← bufPutint buf s.length
  bufPutbytes buf s

/-- What has been written so far, for a buffer that is written front to back. -/
def Buffer.written (b : Buffer) : Bytes := b.data.take b.pos

/-- A front-to-back write appends, and keeps the position at the end of the used bytes. -/
theorem bufPutbytes_ok {b b' : Buffer} {bs : Bytes} (hb : b.pos = b.len)
    (h : bufPutbytes b bs = .ok b') : b'.written = b.written ++ bs ∧ b'.pos = b'.len := by
  unfold bufPutbytes at h
  split_ifs at h with hc
  · simp at h
  · unfold bufIncrwritepos at h
    split_ifs at h with hc'
    · simp at h
    · cases h
      have hle := b.len_le
      refine ⟨?_, ?_⟩
      · have htake : (b.data.take b.pos).length = b.pos := by
          simp only [List.length_take]; omega
        simp only [Buffer.written, Buffer.memcpy, overwrite]
        rw [List.take_append_of_le_length (by simp only [List.length_append, htake]; omega),
          List.take_of_length_le (by simp only [List.length_append, htake]; omega)]
      · simp only [Buffer.memcpy, hb]; omega

theorem bufPutstring_ok {b b' : Buffer} {s : Bytes} (hb : b.pos = b.len)
    (h : bufPutstring b s = .ok b') : b'.written = b.written ++ sshString s ∧ b'.pos = b'.len := by
  simp only [bufPutstring, bind_eq_ok] at h
  obtain ⟨c, hc, hc'⟩ := h
  obtain ⟨hw, hpos⟩ := bufPutbytes_ok hb hc
  obtain ⟨hw', hpos'⟩ := bufPutbytes_ok hpos hc'
  exact ⟨by rw [hw', hw, sshString, List.append_assoc], hpos'⟩

end Ps4Dropbear
