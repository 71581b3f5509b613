import Mathlib.Data.Nat.Digits.Lemmas
import Ps4Dropbear.Text.Lines
import Ps4Dropbear.Text.Numbers

/-!
# Dumps in hexadecimal

A row of a dump has an offset, two blanks, the bytes as two digits each with a blank between them,
and a newline.  `parseDump` reads a text as a list of rows.

* `dumpRow`, `parseRow`, `parseDump` : the text of a row, and the readers.

## Main results

* `digitsOf_printHex` : a number is read back.
* `parseDump_flatMap` : the rows are read back.
-/

namespace Ps4Dropbear

/-- The value of a digit. -/
def hexValue (c : UInt8) : Option ℕ :=
  if 48 ≤ c.toNat ∧ c.toNat < 58 then some (c.toNat - 48)
  else if 97 ≤ c.toNat ∧ c.toNat < 103 then some (c.toNat - 87)
  else none

/-- The number that a list of digits writes. -/
def parseHex (ds : Bytes) : Option ℕ :=
  ds.foldlM (fun n c => (hexValue c).map fun d => 16 * n + d) 0

/-- A byte in two digits. -/
def hexByte (c : UInt8) : Bytes := padLeft 2 48 (printHex c.toNat)

/-- Bytes with a blank between them. -/
def hexText : Bytes → Bytes
  | [] => []
  | [c] => hexByte c
  | c :: rest => hexByte c ++ 32 :: hexText rest

/-- A row of a dump. -/
def dumpRow (row : ℕ × Bytes) : Bytes :=
  padLeft 8 48 (printHex row.1) ++ ascii "  " ++ hexText row.2 ++ ascii "\n"

/-- Two digits for each byte, and a blank between two bytes. -/
def parseBytes : Bytes → Option Bytes
  | [a, b] => (parseHex [a, b]).map fun n => [UInt8.ofNat n]
  | a :: b :: 32 :: rest =>
    (parseHex [a, b]).bind fun n => (parseBytes rest).map fun bs => UInt8.ofNat n :: bs
  | _ => none

/-- A row, with the newline at its end. -/
def parseRow (line : Bytes) : Option (ℕ × Bytes) :=
  let offset := line.takeWhile (· ≠ 32)
  match line.dropWhile (· ≠ 32) with
  | 32 :: 32 :: text =>
    if offset ≠ [] ∧ text.getLast? = some 10 then
      (parseHex offset).bind fun n => (parseBytes text.dropLast).map fun bs => (n, bs)
    else none
  | _ => none

/-- All rows of a text. -/
def parseDump (text : Bytes) : Option (List (ℕ × Bytes)) := (linesOf 10 text).mapM parseRow

/-! ### Numbers -/

/-- One digit. -/
def hexDigit (d : ℕ) : UInt8 := UInt8.ofNat (if d < 10 then 48 + d else 87 + d)

theorem hexValue_hexDigit {d : ℕ} (h : d < 16) : hexValue (hexDigit d) = some d := by
  unfold hexValue hexDigit
  by_cases hd : d < 10
  · have hn : (UInt8.ofNat (48 + d)).toNat = 48 + d := by
      rw [UInt8.toNat_ofNat']
      omega
    rw [if_pos hd, hn, if_pos ⟨by omega, by omega⟩, Nat.add_sub_cancel_left]
  · have hn : (UInt8.ofNat (87 + d)).toNat = 87 + d := by
      rw [UInt8.toNat_ofNat']
      omega
    rw [if_neg hd, hn, if_neg (by omega), if_pos ⟨by omega, by omega⟩, Nat.add_sub_cancel_left]

/-- A digit is no blank and ends no line. -/
theorem hexDigit_ne {d : ℕ} (h : d < 16) : hexDigit d ≠ 32 ∧ hexDigit d ≠ 10 := by
  have hv := hexValue_hexDigit h
  constructor
  · intro he
    rw [he] at hv
    exact absurd hv (by simp [hexValue])
  · intro he
    rw [he] at hv
    exact absurd hv (by simp [hexValue])

theorem foldlM_replicate_zero (k : ℕ) (ds : Bytes) :
    parseHex (List.replicate k 48 ++ ds) = parseHex ds := by
  induction k with
  | zero => rfl
  | succ k ih =>
    rw [List.replicate_succ, List.cons_append]
    exact ih

/-- The digits of a number, with the first one last. -/
theorem parseHex_reverse {ds : List ℕ} (h : ∀ d ∈ ds, d < 16) :
    parseHex (ds.reverse.map hexDigit) = some (Nat.ofDigits 16 ds) := by
  induction ds with
  | nil => rfl
  | cons d ds ih =>
    obtain ⟨hd, hds⟩ := List.forall_mem_cons.1 h
    have hrest := ih hds
    unfold parseHex at hrest ⊢
    rw [List.reverse_cons, List.map_append, List.foldlM_append, hrest]
    simp only [List.map_cons, List.map_nil, List.foldlM_cons, List.foldlM_nil,
      hexValue_hexDigit hd, Nat.ofDigits_cons]
    rw [Nat.add_comm]
    rfl

theorem printHex_eq {n : ℕ} (h : n ≠ 0) :
    printHex n = (Nat.digits 16 n).reverse.map hexDigit := if_neg h

/-- **A number is read back**, with zeros in front of it or without. -/
theorem parseHex_printHex (width n : ℕ) : parseHex (padLeft width 48 (printHex n)) = some n := by
  rw [padLeft, foldlM_replicate_zero]
  by_cases hn : n = 0
  · subst hn
    rfl
  · rw [printHex_eq hn, parseHex_reverse fun d hd => Nat.digits_lt_base (by decide) hd,
      Nat.ofDigits_digits]

/-- The text of a number has no blank and no newline. -/
theorem printHex_ne {n : ℕ} : ∀ c ∈ printHex n, c ≠ 32 ∧ c ≠ 10 := by
  by_cases hn : n = 0
  · subst hn
    intro c hc
    rw [List.mem_singleton.1 (show c ∈ [48] from hc)]
    decide
  · rw [printHex_eq hn]
    intro c hc
    obtain ⟨d, hd, rfl⟩ := List.mem_map.1 hc
    exact hexDigit_ne (Nat.digits_lt_base (by decide) (List.mem_reverse.1 hd))

theorem padLeft_ne {width n : ℕ} : ∀ c ∈ padLeft width 48 (printHex n), c ≠ 32 ∧ c ≠ 10 := by
  intro c hc
  rcases List.mem_append.1 hc with h | h
  · rw [List.eq_of_mem_replicate h]
    decide
  · exact printHex_ne c h

theorem length_printHex {n k : ℕ} (hk : k ≠ 0) (h : n < 16 ^ k) : (printHex n).length ≤ k := by
  by_cases hn : n = 0
  · subst hn
    exact Nat.one_le_iff_ne_zero.2 hk
  · rw [printHex_eq hn, List.length_map, List.length_reverse]
    exact (Nat.digits_length_le_iff (by decide) n).2 h

/-! ### Rows -/

theorem length_hexByte (c : UInt8) : (hexByte c).length = 2 := by
  have hlt : c.toNat < 16 ^ 2 := c.toNat_lt
  have hlen := length_printHex (by decide) hlt
  rw [hexByte, padLeft, List.length_append, List.length_replicate]
  omega

theorem exists_hexByte (c : UInt8) : ∃ a b, hexByte c = [a, b] ∧ parseHex [a, b] = some c.toNat := by
  obtain ⟨a, b, hab⟩ := List.length_eq_two.1 (length_hexByte c)
  refine ⟨a, b, hab, ?_⟩
  rw [← hab]
  exact parseHex_printHex 2 c.toNat

/-- **The bytes are read back.** -/
theorem parseBytes_hexText {bs : Bytes} (h : bs ≠ []) : parseBytes (hexText bs) = some bs := by
  induction bs with
  | nil => exact absurd rfl h
  | cons c bs ih =>
    obtain ⟨a, b, hab, hparse⟩ := exists_hexByte c
    cases bs with
    | nil =>
      rw [hexText, hab, parseBytes, hparse, Option.map_some, UInt8.ofNat_toNat]
    | cons d bs =>
      rw [hexText, hab, List.cons_append, List.cons_append, List.nil_append, parseBytes, hparse,
        Option.bind_some, ih (List.cons_ne_nil d bs), Option.map_some, UInt8.ofNat_toNat]
      exact List.cons_ne_nil d bs

theorem hexText_ne {bs : Bytes} : ∀ c ∈ hexText bs, c ≠ 10 := by
  induction bs with
  | nil => simp [hexText]
  | cons b bs ih =>
    cases bs with
    | nil => exact fun c hc => (padLeft_ne c hc).2
    | cons d bs =>
      intro c hc
      rw [hexText, List.mem_append, List.mem_cons] at hc
      · rcases hc with h | rfl | h
        · exact (padLeft_ne c h).2
        · decide
        · exact ih c h
      · exact List.cons_ne_nil d bs

/-- **A row is read back.** -/
theorem parseRow_dumpRow {row : ℕ × Bytes} (h : row.2 ≠ []) : parseRow (dumpRow row) = some row := by
  obtain ⟨n, bs⟩ := row
  have hblank : ∀ c ∈ padLeft 8 48 (printHex n), decide (c ≠ 32) = true := fun c hc =>
    decide_eq_true (padLeft_ne c hc).1
  have htext : dumpRow (n, bs) =
      padLeft 8 48 (printHex n) ++ 32 :: 32 :: (hexText bs ++ [10]) := by
    simp [dumpRow, ascii]
  have hne : padLeft 8 48 (printHex n) ≠ [] := by
    intro he
    have hn := parseHex_printHex 8 n
    have hlen := congrArg List.length he
    rw [padLeft, List.length_append, List.length_replicate, List.length_nil] at hlen
    omega
  unfold parseRow
  rw [htext, List.takeWhile_append_of_pos hblank, List.dropWhile_append_of_pos hblank]
  simp only [List.takeWhile_cons, List.dropWhile_cons, ne_eq, not_true_eq_false, decide_false,
    Bool.false_eq_true, if_false, List.append_nil]
  rw [if_pos ⟨hne, by simp⟩, parseHex_printHex, List.dropLast_concat, parseBytes_hexText h]
  rfl

/-- A row is a line. -/
theorem linesOf_dumpRow (row : ℕ × Bytes) (rest : Bytes) :
    linesOf 10 (dumpRow row ++ rest) = dumpRow row :: linesOf 10 rest := by
  have hnot : (10 : UInt8) ∉ padLeft 8 48 (printHex row.1) ++ ascii "  " ++ hexText row.2 := by
    intro hmem
    rw [List.mem_append, List.mem_append] at hmem
    rcases hmem with (h | h) | h
    · exact (padLeft_ne _ h).2 rfl
    · exact absurd h (by decide)
    · exact hexText_ne _ h rfl
  have hline := linesOf_append_end hnot rest
  have hrow : dumpRow row =
      padLeft 8 48 (printHex row.1) ++ ascii "  " ++ hexText row.2 ++ [10] := rfl
  rw [← hrow] at hline
  rw [← hline, hrow, List.append_assoc _ [10], List.singleton_append]

/-- **The rows of a dump are read back**, when none of them is empty. -/
theorem parseDump_flatMap {rows : List (ℕ × Bytes)} (h : ∀ row ∈ rows, row.2 ≠ []) :
    parseDump (rows.flatMap dumpRow) = some rows := by
  unfold parseDump
  induction rows with
  | nil => rfl
  | cons row rows ih =>
    obtain ⟨hrow, hrows⟩ := List.forall_mem_cons.1 h
    rw [List.flatMap_cons, linesOf_dumpRow, List.mapM_cons, parseRow_dumpRow hrow, ih hrows]
    rfl

end Ps4Dropbear
