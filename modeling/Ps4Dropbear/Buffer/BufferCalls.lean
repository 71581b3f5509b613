import Ps4Dropbear.Buffer.BufferWords

/-!
# Sequences of calls on buffers

Any sequence of calls of the functions of `buffer.c` on any number of buffers, with any arguments.
The bytes behind a pointer that `buf_getptr` returns are read, and those behind one of
`buf_getwriteptr` are written, before the next call.

* `BufFun.apply_sim` : on the fields of a `Buffer` every function stays inside of it, and leaves
  the fields of a `Buffer`.
* `bufferCalls_inBounds` : **in every sequence of calls the fields stay in order, no sum wraps, and
  every access is inside the buffer**.
-/

namespace Ps4Dropbear

/-- The functions of a buffer, with their arguments.  What lies at a pointer is a memory. -/
inductive BufFun where
  | resize (newsize : UInt32) (fresh : ℕ → UInt8)
  | newcopy
  | setlen (len : UInt32)
  | incrlen (incr : UInt32)
  | setpos (pos : UInt32)
  | incrpos (incr : UInt32)
  | decrpos (decr : UInt32)
  | incrwritepos (incr : UInt32)
  | getbyte
  | putbyte (val : UInt8)
  | getptr (len : UInt32)
  | getwriteptr (len : UInt32) (bytes : ℕ → UInt8)
  | getint
  | putint (val : UInt32)
  | getstring
  | getstringbuf
  | getbuf
  | eatstring
  | putstring (str : ℕ → UInt8) (len : UInt32)
  | putbytes (bytes : ℕ → UInt8) (len : UInt32)

namespace BufFun

open BufWords

/-- `buf_getptr`, and the bytes behind the pointer are read. -/
def readPtr (buf : BufWords) (len : UInt32) : BufM Bytes := do
  let p ← buf.bufGetptr len
  buf.load p len

/-- `buf_getwriteptr`, and the bytes behind the pointer are written. -/
def writePtr (buf : BufWords) (len : UInt32) (bytes : ℕ → UInt8) : BufM BufWords := do
  let p ← buf.bufGetwriteptr len
  buf.store p (memory bytes len.toNat)

/-- The buffer after a call, and the buffers that the call has made. -/
def apply : BufFun → BufWords → BufM (BufWords × List BufWords)
  | .resize newsize fresh, buf => do return (← buf.bufResize newsize fresh, [])
  | .newcopy, buf => do return (buf, [← buf.bufNewcopy])
  | .setlen len, buf => do return (← buf.bufSetlen len, [])
  | .incrlen incr, buf => do return (← buf.bufIncrlen incr, [])
  | .setpos pos, buf => do return (← buf.bufSetpos pos, [])
  | .incrpos incr, buf => do return (← buf.bufIncrpos incr, [])
  | .decrpos decr, buf => do return (← buf.bufDecrpos decr, [])
  | .incrwritepos incr, buf => do return (← buf.bufIncrwritepos incr, [])
  | .getbyte, buf => do
    let (_, buf) ← buf.bufGetbyte
    return (buf, [])
  | .putbyte val, buf => do return (← buf.bufPutbyte val, [])
  | .getptr len, buf => do
    let _ ← readPtr buf len
    return (buf, [])
  | .getwriteptr len bytes, buf => do return (← writePtr buf len bytes, [])
  | .getint, buf => do
    let (_, buf) ← buf.bufGetint
    return (buf, [])
  | .putint val, buf => do return (← buf.bufPutint val, [])
  | .getstring, buf => do
    let (_, buf) ← buf.bufGetstring
    return (buf, [])
  | .getstringbuf, buf => do
    let (ret, buf) ← buf.bufGetstringbuf
    return (buf, [ret])
  | .getbuf, buf => do
    let (ret, buf) ← buf.bufGetbuf
    return (buf, [ret])
  | .eatstring, buf => do return (← buf.bufEatstring, [])
  | .putstring str len, buf => do return (← buf.bufPutstring str len, [])
  | .putbytes bytes len, buf => do return (← buf.bufPutbytes bytes len, [])

/-- A buffer and new buffers, as their fields. -/
def wordsWithNew (r : Buffer × List Buffer) : BufWords × List BufWords :=
  (r.1.words, r.2.map Buffer.words)

/-- A function that only changes the buffer. -/
theorem sim_change {x : BufM BufWords} {y : Except Exit Buffer}
    (h : Logged.Sim BufEvent.InBounds Buffer.words x y) :
    ∃ z, Logged.Sim BufEvent.InBounds wordsWithNew (do return (← x, [])) z :=
  ⟨y >>= fun b => .ok (b, []), h.bind fun _ _ => .pure rfl⟩

/-- A function whose value the caller keeps. -/
theorem sim_value {α β : Type} {φ : α → β} {x : BufM (β × BufWords)}
    {y : Except Exit (α × Buffer)}
    (h : Logged.Sim BufEvent.InBounds (fun r : α × Buffer => (φ r.1, r.2.words)) x y) :
    ∃ z, Logged.Sim BufEvent.InBounds wordsWithNew
      (do
        let (_, buf) ← x
        return (buf, [])) z :=
  ⟨y >>= fun r => .ok (r.2, []), h.bind fun _ _ => .pure rfl⟩

theorem apply_sim (f : BufFun) (b : Buffer) :
    ∃ y, Logged.Sim BufEvent.InBounds wordsWithNew (f.apply b.words) y := by
  cases f with
  | resize newsize fresh => exact sim_change (sim_bufResize b newsize fresh)
  | newcopy =>
    exact ⟨.ok (b, [Ps4Dropbear.bufNewcopy b]), (sim_bufNewcopy b).seq (.pure rfl)⟩
  | setlen len => exact sim_change (sim_bufSetlen b len)
  | incrlen incr => exact sim_change (sim_bufIncrlen b incr)
  | setpos pos => exact sim_change (sim_bufSetpos b pos)
  | incrpos incr => exact sim_change (sim_bufIncrpos b incr)
  | decrpos decr => exact sim_change (sim_bufDecrpos b decr)
  | incrwritepos incr => exact sim_change (sim_bufIncrwritepos b incr)
  | getbyte => exact sim_value (φ := id) (sim_bufGetbyte b)
  | putbyte val => exact sim_change (sim_bufPutbyte b val)
  | getptr len =>
    have hread : Logged.Sim BufEvent.InBounds id (readPtr b.words len)
        (Ps4Dropbear.bufGetptr b len.toNat) := by
      refine (sim_bufGetptr b len).bind_of (fun e he => he) fun p hp => ?_
      rw [hp]
      exact sim_load hp
    exact ⟨Ps4Dropbear.bufGetptr b len.toNat >>= fun _ => .ok (b, []),
      hread.bind fun _ _ => .pure rfl⟩
  | getwriteptr len bytes => exact sim_change (sim_overwrite (length_memory bytes len.toNat))
  | getint => exact sim_value (sim_bufGetint b)
  | putint val => exact sim_change (sim_bufPutint b val)
  | getstring => exact sim_value (φ := id) (sim_bufGetstring b)
  | getstringbuf =>
    exact ⟨_, (sim_bufGetstringbufInt b false).bind fun r _ => .pure (a := (r.2, [r.1])) rfl⟩
  | getbuf =>
    exact ⟨_, (sim_bufGetstringbufInt b true).bind fun r _ => .pure (a := (r.2, [r.1])) rfl⟩
  | eatstring => exact sim_change (sim_bufEatstring b)
  | putstring str len => exact sim_change (sim_bufPutstring b str len)
  | putbytes bytes len => exact sim_change (sim_bufPutbytes b bytes len)

end BufFun

/-! ### Sequences -/

/-- A call: a new buffer, or a function of the `i`-th buffer. -/
inductive BufCall where
  | new (size : UInt32)
  | use (i : ℕ) (f : BufFun)

/-- A call on the buffers that there are, if it is about one of them.  New buffers come last. -/
def bufCall (heap : List BufWords) : BufCall → Option (BufM (List BufWords))
  | .new size => some do return heap ++ [← BufWords.bufNew size]
  | .use i f => heap[i]?.map fun buf => do
    let (buf, new) ← f.apply buf
    return heap.set i buf ++ new

/-- The sequences of calls that do not end the session. -/
def bufferCalls : LTS (List BufWords) BufCall where
  step heap l := (bufCall heap l).bind fun x => x.result.toOption

section Calls

variable {heap heap' : List BufWords} {l : BufCall} {x : BufM (List BufWords)}

/-- One call. -/
theorem bufCall_inBounds (hheap : ∀ w ∈ heap, w.Valid) (hx : bufCall heap l = some x) :
    (∀ e ∈ x.log, e.InBounds) ∧ ∀ heap', x.result = .ok heap' → ∀ w ∈ heap', w.Valid := by
  cases l with
  | new size =>
    cases hx
    have hsim := (BufWords.sim_bufNew size).bind (ψ := fun b => heap ++ [b.words])
      (f := fun w => pure (heap ++ [w])) fun b _ => .pure (a := b) rfl
    refine ⟨hsim.log, fun heap' => hsim.of_result (R := fun h => ∀ w ∈ h, w.Valid) fun b => ?_⟩
    exact List.forall_mem_append.2 ⟨hheap, List.forall_mem_singleton.2 (BufWords.valid_words b)⟩
  | use i f =>
    obtain ⟨w, hw, rfl⟩ := Option.map_eq_some_iff.1 hx
    obtain ⟨b, rfl⟩ := (hheap w (List.mem_of_getElem? hw)).exists_words
    obtain ⟨y, hy⟩ := f.apply_sim b
    have hsim := hy.bind
      (ψ := fun r : Buffer × List Buffer => heap.set i r.1.words ++ r.2.map Buffer.words)
      (f := fun r => pure (heap.set i r.1 ++ r.2)) fun r _ => .pure (a := r) rfl
    refine ⟨hsim.log, fun heap' => hsim.of_result (R := fun h => ∀ w ∈ h, w.Valid) fun r => ?_⟩
    refine List.forall_mem_append.2 ⟨fun w hw => ?_, fun w hw => ?_⟩
    · rcases List.mem_or_eq_of_mem_set hw with hold | rfl
      · exact hheap w hold
      · exact BufWords.valid_words r.1
    · obtain ⟨b', -, rfl⟩ := List.mem_map.1 hw
      exact BufWords.valid_words b'

end Calls

/-- **The representation invariant of buffers.**  After every sequence of calls that has not ended
the session, on buffers whose fields are in order (there need not be any), the fields are in order;
and whatever is called next, every sum and every access of it is in bounds, and it ends the session
or leaves the fields in order. -/
theorem bufferCalls_inBounds {heap₀ heap : List BufWords} {ls : List BufCall}
    (h₀ : ∀ w ∈ heap₀, w.Valid) (hrun : bufferCalls.exec heap₀ ls = some heap) :
    (∀ w ∈ heap, w.Valid) ∧
      ∀ l x, bufCall heap l = some x →
        (∀ e ∈ x.log, e.InBounds) ∧
          ((∃ msg, x.result = .error msg) ∨
            ∃ heap', x.result = .ok heap' ∧ ∀ w ∈ heap', w.Valid) := by
  have hheap : ∀ w ∈ heap, w.Valid := by
    refine LTS.exec_invariant' (I := fun heap => ∀ w ∈ heap, w.Valid) h₀
      (fun heap l heap' hheap hstep => ?_) hrun
    obtain ⟨x, hx, hresult⟩ := Option.bind_eq_some_iff.1 hstep
    exact (bufCall_inBounds hheap hx).2 heap' (toOption_eq_some.1 hresult)
  refine ⟨hheap, fun l x hx => ?_⟩
  obtain ⟨hlog, hvalid⟩ := bufCall_inBounds hheap hx
  refine ⟨hlog, ?_⟩
  cases hresult : x.result with
  | error msg => exact Or.inl ⟨msg, rfl⟩
  | ok heap' => exact Or.inr ⟨heap', rfl, hvalid heap' hresult⟩

set_option maxRecDepth 8000 in
/-- A string is written, and read to a buffer of its own, which is copied. -/
theorem bufferCalls_inBounds_string :
    ∃ heap, bufferCalls.exec [] [.new 12, .use 0 (.putstring (fun _ => 7) 3), .use 0 (.setpos 0),
        .use 0 .getbuf, .use 1 .newcopy] = some heap ∧ ∀ w ∈ heap, w.Valid := by
  have hrun : bufferCalls.exec [] [.new 12, .use 0 (.putstring (fun _ => 7) 3), .use 0 (.setpos 0),
      .use 0 .getbuf, .use 1 .newcopy] =
    some [⟨[0, 0, 0, 3, 7, 7, 7, 0, 0, 0, 0, 0], 7, 7, 12⟩, ⟨[0, 0, 0, 3, 7, 7, 7], 7, 0, 7⟩,
      ⟨[0, 0, 0, 3, 7, 7, 7], 7, 0, 7⟩] := by decide
  exact ⟨_, hrun, (bufferCalls_inBounds (fun w hw => absurd hw List.not_mem_nil) hrun).1⟩

end Ps4Dropbear
