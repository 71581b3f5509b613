import Ps4Dropbear.Buffer.Basic

/-!
# A line editor

What a person who types at a terminal expects.  The bytes that arrive are read as keys: a carriage
return, a newline, or one behind the other are one key, and control bytes without a meaning are no
key at all.  The keys edit a line, which is given out when it is ended.

On the screen a backspace, a space and another backspace take back one character.

* `isKey`, `keys` : from bytes to keys.
* `editLines` : the lines that the keys give, of a bounded length, up to a line that ends it all.
* `spelled` : what is to be seen on the screen of what has been written.

**Main result** (`spelled_append`): one more echo does to the screen what it should.
-/

namespace Ps4Dropbear

/-- The keys of a line editor. -/
inductive LineKey
  | char (c : UInt8)
  | erase
  | interrupt
  | enter
  | endOfFile
  deriving DecidableEq, Repr

/-- The bytes that are keys: the control bytes are carriage return, newline, backspace, `^C` and
`^D`. -/
def isKey (b : UInt8) : Bool := 32 ≤ b || [13, 10, 8, 3, 4].contains b

/-- The key of a byte. -/
def keyOf (b : UInt8) : LineKey :=
  if b = 13 ∨ b = 10 then .enter
  else if b = 127 ∨ b = 8 then .erase
  else if b = 3 then .interrupt
  else if b = 4 then .endOfFile
  else .char b

/-- The keys of a text; a carriage return and a newline are one key. -/
def keys : Bytes → List LineKey
  | [] => []
  | 13 :: 10 :: rest => .enter :: keys rest
  | b :: rest => keyOf b :: keys rest

/-- The keys of a text behind a carriage return. -/
def keysAfterCr : Bytes → List LineKey
  | 10 :: rest => keys rest
  | text => keys text

/-- The lines that the keys give, from a line that has been begun.  A line holds `limit` bytes, and
the editor is left by a line with `leaves` or by the end of the file on an empty line. -/
def editLines (limit : ℕ) (leaves : Bytes → Bool) : Bytes → List LineKey → List Bytes
  | _, [] => []
  | line, .enter :: ks => if leaves line then [] else line :: editLines limit leaves [] ks
  | line, .erase :: ks => editLines limit leaves line.dropLast ks
  | _, .interrupt :: ks => editLines limit leaves [] ks
  | line, .endOfFile :: ks => if line = [] then [] else editLines limit leaves line ks
  | line, .char c :: ks =>
    if line.length < limit then editLines limit leaves (line ++ [c]) ks
    else editLines limit leaves line ks

/-- What can be seen of a text on the screen, behind what is there already. -/
def spelled : Bytes → Bytes → Bytes
  | seen, [] => seen
  | seen, 8 :: 32 :: 8 :: rest => spelled seen.dropLast rest
  | seen, c :: rest => spelled (seen ++ [c]) rest

/-- The echo of a byte: itself, the taking back of one, or nothing. -/
inductive IsEcho : Bytes → Prop
  | nothing : IsEcho []
  | char {c : UInt8} (h : c ≠ 8) : IsEcho [c]
  | erase : IsEcho [8, 32, 8]

section LineEditor

variable {b c : UInt8} {rest : Bytes}

theorem keys_cr (rest : Bytes) : keys (13 :: rest) = .enter :: keysAfterCr rest := by
  cases rest with
  | nil => rfl
  | cons b rest =>
    by_cases hb : b = 10
    · subst hb
      rfl
    · rw [keys, keysAfterCr]
      · rfl
      · simp [hb]
      · simp [hb]

theorem keys_cons (hb : b ≠ 13) : keys (b :: rest) = keyOf b :: keys rest := by
  rw [keys]
  simp [hb]

theorem keysAfterCr_cons (hb : b ≠ 10) : keysAfterCr (b :: rest) = keys (b :: rest) := by
  rw [keysAfterCr]
  simp [hb]

theorem keyOf_char (h32 : 32 ≤ b) (h127 : b ≠ 127) : keyOf b = .char b := by
  have hlow {c : UInt8} (hc : ¬ 32 ≤ c) : b ≠ c := by
    rintro rfl
    exact hc h32
  have h13 : b ≠ 13 := hlow (by decide)
  have h10 : b ≠ 10 := hlow (by decide)
  have h8 : b ≠ 8 := hlow (by decide)
  have h3 : b ≠ 3 := hlow (by decide)
  have h4 : b ≠ 4 := hlow (by decide)
  simp [keyOf, h13, h10, h127, h8, h3, h4]

/-- The keys of a text, behind a carriage return or not. -/
def keysFrom (afterCr : Bool) (text : Bytes) : List LineKey :=
  if afterCr then keysAfterCr text else keys text

/-- Only a newline can belong to the carriage return before it. -/
theorem keysFrom_cons {afterCr : Bool} (h : b ≠ 10 ∨ afterCr = false) :
    keysFrom afterCr (b :: rest) = keys (b :: rest) := by
  cases afterCr with
  | false => rfl
  | true => exact keysAfterCr_cons (h.resolve_right (by decide))

theorem spelled_cons (seen : Bytes) (h : c ≠ 8) (rest : Bytes) :
    spelled seen (c :: rest) = spelled (seen ++ [c]) rest := by
  rw [spelled]
  simp [h]

/-- The echo of one byte on the screen. -/
theorem spelled_echo {echo : Bytes} (h : IsEcho echo) (seen rest : Bytes) :
    spelled seen (echo ++ rest) = spelled (spelled seen echo) rest := by
  cases h with
  | nothing => rfl
  | char hc => rw [List.singleton_append, spelled_cons _ hc, spelled_cons _ hc, spelled]
  | erase => rfl

/-- **One more echo**, behind echoes. -/
theorem spelled_append {echoes : List Bytes} (h : ∀ echo ∈ echoes, IsEcho echo) (seen rest : Bytes) :
    spelled seen (echoes.flatten ++ rest) = spelled (spelled seen echoes.flatten) rest := by
  induction echoes generalizing seen with
  | nil => rfl
  | cons echo echoes ih =>
    obtain ⟨hecho, hechoes⟩ := List.forall_mem_cons.1 h
    rw [List.flatten_cons, List.append_assoc, spelled_echo hecho, ih hechoes, spelled_echo hecho]

end LineEditor

end Ps4Dropbear
