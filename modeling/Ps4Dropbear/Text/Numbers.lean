import Mathlib.Data.Int.Notation
import Mathlib.Data.Nat.Digits.Defs
import Ps4Dropbear.Buffer.Basic

/-!
# Numbers in text

`strtol`, `strtoul` and `strtoull`, and the conversions of `printf` that the worker threads use,
as the C library does them.
-/

namespace Ps4Dropbear

/-- The digit characters of a base up to ten. -/
def isBaseDigit (base : ℕ) (c : UInt8) : Bool := 48 ≤ c.toNat ∧ c.toNat < 48 + base

/-- `isspace`. -/
def isCSpace (c : UInt8) : Bool := c = 32 ∨ (9 ≤ c ∧ c ≤ 13)

/-- The number written by a list of digits. -/
def digitsValue (base : ℕ) (ds : Bytes) : ℕ := ds.foldl (fun v c => base * v + (c.toNat - 48)) 0

/-- What `strtoul` and `strtoull` leave behind: the value, the text from `*endptr` on, and
whether `errno` is `ERANGE`. -/
structure Strtoul where
  value : ℕ
  rest : Bytes
  range : Bool
  deriving DecidableEq, Repr

/-- `strtoul` and `strtoull` with 64 bits, for a base up to ten; `none` when there is no digit
and `*endptr` is the start of the text. -/
def strtoulBase (base : ℕ) (s : Bytes) : Option Strtoul :=
  let t := s.dropWhile isCSpace
  let negative := t.head? = some 45
  let t := if negative ∨ t.head? = some 43 then t.tail else t
  let ds := t.takeWhile (isBaseDigit base)
  let rest := t.dropWhile (isBaseDigit base)
  if ds = [] then none
  else if 2 ^ 64 ≤ digitsValue base ds then some ⟨2 ^ 64 - 1, rest, true⟩
  else if negative then some ⟨(2 ^ 64 - digitsValue base ds) % 2 ^ 64, rest, false⟩
  else some ⟨digitsValue base ds, rest, false⟩

/-- A number in a base up to ten, as `printf` writes it. -/
def printNat (base n : ℕ) : Bytes :=
  if n = 0 then [48] else (Nat.digits base n).reverse.map fun d => UInt8.ofNat (48 + d)

/-- `%04o`. -/
def printOctal4 (n : ℕ) : Bytes :=
  List.replicate (4 - (printNat 8 n).length) 48 ++ printNat 8 n

/-- What `strtol` with base ten leaves behind: the value, clamped to 64 bits, and the text from
`*endptr` on, which is the whole text when there is no digit. -/
def strtol10 (s : Bytes) : ℤ × Bytes :=
  let t := s.dropWhile isCSpace
  let negative := t.head? = some 45
  let t := if negative ∨ t.head? = some 43 then t.tail else t
  let ds := t.takeWhile (isBaseDigit 10)
  let rest := t.dropWhile (isBaseDigit 10)
  if ds = [] then (0, s)
  else if negative then (max (-(digitsValue 10 ds : ℤ)) (-2 ^ 63), rest)
  else (min (digitsValue 10 ds : ℤ) (2 ^ 63 - 1), rest)

/-- Text behind as many copies of `c` as it takes to make it `width` long. -/
def padLeft (width : ℕ) (c : UInt8) (text : Bytes) : Bytes :=
  List.replicate (width - text.length) c ++ text

/-- `%lld`. -/
def printInt (n : ℤ) : Bytes := if n < 0 then 45 :: printNat 10 n.natAbs else printNat 10 n.natAbs

/-- `%llx`. -/
def printHex (n : ℕ) : Bytes :=
  if n = 0 then [48]
  else (Nat.digits 16 n).reverse.map fun d => UInt8.ofNat (if d < 10 then 48 + d else 87 + d)

end Ps4Dropbear
