import Ps4Dropbear.Buffer.Mpint

/-!
# Writers and readers of buffers

What a writer appends and what a reader makes of it, apart from what else is in the buffer; both
are put together one behind the other.

* `Writes put enc` : `put` appends `enc` to every buffer with room for it.
* `ReadsAs get enc a` : `get` takes `enc` for `a`, whatever comes behind, and stops there.
* `ReadsBack put get n a` : behind `put`, which needs `n` bytes, `get` finds `a` and ends where
  `put` has ended.
* `Writes.readsBack` : the two make a round trip.
-/

namespace Ps4Dropbear

variable {α β : Type}

/-- `put` appends `enc`. -/
def Writes (put : Buffer → Except Exit Buffer) (enc : Bytes) : Prop :=
  ∀ ⦃b : Buffer⦄ ⦃size : ℕ⦄ ⦃u : Bytes⦄, b.Has size u u.length → u.length + enc.length ≤ size →
    ∃ b', put b = .ok b' ∧ b'.Has size (u ++ enc) (u ++ enc).length

/-- `get` reads `enc` as `a`. -/
def ReadsAs (get : Buffer → Except Exit (α × Buffer)) (enc : Bytes) (a : α) : Prop :=
  ∀ ⦃b : Buffer⦄ ⦃r : Bytes⦄, b.rest = enc ++ r → get b = .ok (a, b.advance enc.length)

/-- When `put` has written to a buffer with room for `n` bytes, and the position is set back, `get`
reads `a`, and leaves the buffer as `put` has left it. -/
def ReadsBack (put : Buffer → Except Exit Buffer) (get : Buffer → Except Exit (α × Buffer))
    (n : ℕ) (a : α) : Prop :=
  ∀ ⦃b : Buffer⦄ ⦃size : ℕ⦄ ⦃u : Bytes⦄, b.Has size u u.length → u.length + n ≤ size →
    ∃ b' c, put b = .ok b' ∧ bufSetpos b' b.pos = .ok c ∧ get c = .ok (a, b')

/-! ### Writers -/

section Writers

variable {put put' : Buffer → Except Exit Buffer} {enc enc' : Bytes}

theorem Writes.bind (h : Writes put enc) (h' : Writes put' enc') :
    Writes (fun b => put b >>= put') (enc ++ enc') := by
  intro b size u hb hn
  rw [List.length_append] at hn
  obtain ⟨b₁, h₁, hb₁⟩ := h hb (by omega)
  obtain ⟨b₂, h₂, hb₂⟩ := h' hb₁ (by rw [List.length_append]; omega)
  rw [List.append_assoc] at hb₂
  refine ⟨b₂, ?_, hb₂⟩
  change put b >>= put' = _
  rw [h₁, ok_bind, h₂]

theorem writes_putbytes (x : Bytes) : Writes (bufPutbytes · x) x := by
  intro b size u hb hn
  obtain ⟨b', h', hb'⟩ := hb.putbytes hn
  rw [← List.length_append] at hb'
  exact ⟨b', h', hb'⟩

theorem writes_putbyte (c : UInt8) : Writes (bufPutbyte · c) [c] := by
  intro b size u hb hn
  obtain ⟨b', h', hb'⟩ := hb.putbyte (d := c) hn
  have hlen : (u ++ [c]).length = u.length + 1 := List.length_append
  rw [← hlen] at hb'
  exact ⟨b', h', hb'⟩

theorem writes_putint (v : ℕ) : Writes (bufPutint · v) (store32h v) := writes_putbytes _

theorem writes_putstring (s : Bytes) : Writes (bufPutstring · s) (sshString s) :=
  (writes_putint s.length).bind (writes_putbytes s)

theorem writes_putmpint (a : ℕ) : Writes (bufPutmpint · a) (sshString (mpintBody a)) := by
  intro b size u hb hn
  obtain ⟨b', h', hb'⟩ := hb.putmpint hn
  rw [← List.length_append] at hb'
  exact ⟨b', h', hb'⟩

end Writers

/-! ### Readers -/

section Readers

variable {get : Buffer → Except Exit (α × Buffer)} {get' : α → Buffer → Except Exit (β × Buffer)}
  {enc enc' : Bytes} {a : α} {c : β}

theorem reads_getint {v : ℕ} (hv : v < 2 ^ 32) : ReadsAs bufGetint (store32h v) v := by
  intro b r hrest
  exact bufGetint_ok.2 ⟨⟨hv, r, hrest⟩, rfl⟩

theorem reads_getstring {s : Bytes} (hs : s.length ≤ maxStringLen) :
    ReadsAs bufGetstring (sshString s) s := by
  intro b r hrest
  rw [length_sshString]
  exact bufGetstring_ok.2 ⟨⟨hs, r, hrest⟩, rfl⟩

theorem reads_getmpint {v : ℕ} (hv : (mpintBody v).length ≤ bufMaxMpint) :
    ReadsAs bufGetmpint (sshString (mpintBody v)) (some v) :=
  fun _ _ hrest => Buffer.getmpint_mpintBody hv hrest

end Readers

/-- A round trip. -/
theorem Writes.readsBack {put : Buffer → Except Exit Buffer}
    {get : Buffer → Except Exit (α × Buffer)} {enc : Bytes} {a : α} (h : Writes put enc)
    (h' : ReadsAs get enc a) : ReadsBack put get enc.length a := by
  intro b size u hb hn
  obtain ⟨b', hput, hb'⟩ := h hb hn
  have hpos := hb'.pos
  have hlen := hb'.len
  rw [List.length_append] at hpos hlen
  have hback : ¬ b.pos > b'.len := by
    rw [hb.pos]
    omega
  refine ⟨b', { b' with pos := b.pos, pos_le := Nat.le_of_not_lt hback }, hput, dif_neg hback, ?_⟩
  have hrest : ({ b' with pos := b.pos, pos_le := Nat.le_of_not_lt hback } : Buffer).rest =
      enc ++ [] := by
    change b'.contents.drop b.pos = enc ++ []
    rw [hb'.used, hb.pos, List.drop_left, List.append_nil]
  rw [h' hrest]
  congr 2
  ext1
  · rfl
  · rfl
  · change min (b.pos + enc.length) b'.len = b'.pos
    rw [hb.pos]
    omega

end Ps4Dropbear
