import Ps4Dropbear.Scp.Serve
import Mathlib.Data.Nat.Digits.Lemmas

/-!
# Control records

The sending end prints the control record of a file, the receiving end takes it apart: numbers
survive `printf` and `strtoul` (`strtoulBase_printNat`), and with them the whole record
(`parseControl_controlRecord`), unless the name has a newline in it.
-/

namespace Ps4Dropbear

section Numbers

variable {base : ℕ}

theorem digitsValue_append (ds : Bytes) (c : UInt8) :
    digitsValue base (ds ++ [c]) = base * digitsValue base ds + (c.toNat - 48) := by
  simp [digitsValue]

theorem toNat_digit {d : ℕ} (hb : base ≤ 10) (hd : d < base) :
    (UInt8.ofNat (48 + d)).toNat = 48 + d := by
  rw [UInt8.toNat_ofNat']
  omega

theorem digitsValue_ofDigits (hb : base ≤ 10) {l : List ℕ} (hl : ∀ d ∈ l, d < base) :
    digitsValue base (l.reverse.map fun d => UInt8.ofNat (48 + d)) = Nat.ofDigits base l := by
  induction l with
  | nil => rfl
  | cons d l ih =>
    obtain ⟨hd, hl⟩ := List.forall_mem_cons.1 hl
    rw [List.reverse_cons, List.map_append, List.map_singleton, digitsValue_append, ih hl,
      toNat_digit hb hd, Nat.ofDigits_cons]
    omega

theorem digitsValue_printNat (hb : 2 ≤ base) (hb' : base ≤ 10) (n : ℕ) :
    digitsValue base (printNat base n) = n := by
  unfold printNat
  split
  · next h => simp [digitsValue, h]
  · rw [digitsValue_ofDigits hb' (fun d hd => Nat.digits_lt_base hb hd), Nat.ofDigits_digits]

theorem isBaseDigit_printNat (hb : 2 ≤ base) (hb' : base ≤ 10) (n : ℕ) :
    ∀ c ∈ printNat base n, isBaseDigit base c = true := by
  unfold printNat
  split
  · simp [isBaseDigit]
    omega
  · intro c hc
    obtain ⟨d, hd, rfl⟩ := List.mem_map.1 hc
    have hlt : d < base := Nat.digits_lt_base hb (List.mem_reverse.1 hd)
    simp only [isBaseDigit, toNat_digit hb' hlt, decide_eq_true_eq]
    omega

theorem printNat_ne_nil (n : ℕ) : printNat base n ≠ [] := by
  unfold printNat
  split
  · simp
  · next h => simpa using Nat.digits_ne_nil_iff_ne_zero.2 h

theorem digit_bounds {c : UInt8} (hc : isBaseDigit base c = true) :
    isCSpace c = false ∧ c ≠ 45 ∧ c ≠ 43 := by
  simp only [isBaseDigit, decide_eq_true_eq] at hc
  refine ⟨?_, ?_, ?_⟩
  · simp only [isCSpace, decide_eq_false_iff_not, not_or, not_and, UInt8.le_iff_toNat_le]
    refine ⟨?_, ?_⟩
    · rintro rfl
      simp at hc
    · intro _ h
      have : c.toNat ≤ 13 := h
      omega
  · rintro rfl
    simp at hc
  · rintro rfl
    simp at hc

/-- `strtoul` on digits and something else after them. -/
theorem strtoulBase_digits {ds rest : Bytes} {c : UInt8} (hne : ds ≠ [])
    (hds : ∀ d ∈ ds, isBaseDigit base d = true) (hc : isBaseDigit base c = false)
    (hlt : digitsValue base ds < 2 ^ 64) :
    strtoulBase base (ds ++ c :: rest) = some ⟨digitsValue base ds, c :: rest, false⟩ := by
  obtain ⟨d, ds, rfl⟩ := List.exists_cons_of_ne_nil hne
  obtain ⟨hspace, hminus, hplus⟩ := digit_bounds (hds d List.mem_cons_self)
  have hdrop : (d :: ds ++ c :: rest).dropWhile isCSpace = d :: ds ++ c :: rest := by
    simp [hspace]
  have htake : (d :: ds ++ c :: rest).takeWhile (isBaseDigit base) = d :: ds := by
    rw [List.takeWhile_append_of_pos hds, List.takeWhile_cons_of_neg (by simp [hc]),
      List.append_nil]
  have hrest : (d :: ds ++ c :: rest).dropWhile (isBaseDigit base) = c :: rest := by
    rw [List.dropWhile_append_of_pos hds, List.dropWhile_cons_of_neg (by simp [hc])]
  have hhead : (d :: ds ++ c :: rest).head? = some d := rfl
  simp only [strtoulBase, hdrop, hhead, Option.some.injEq, hminus, hplus, or_self, if_false, htake,
    hrest, List.cons_ne_nil, Nat.not_le.2 hlt]

/-- Numbers survive `printf` and `strtoul`. -/
theorem strtoulBase_printNat (hb : 2 ≤ base) (hb' : base ≤ 10) {n : ℕ} (hn : n < 2 ^ 64)
    {rest : Bytes} :
    strtoulBase base (printNat base n ++ 32 :: rest) = some ⟨n, 32 :: rest, false⟩ := by
  have hval := digitsValue_printNat hb hb' n
  rw [strtoulBase_digits (printNat_ne_nil n) (isBaseDigit_printNat hb hb' n) (by simp [isBaseDigit])
    (by rw [hval]; exact hn), hval]

theorem isBaseDigit_printOctal4 (n : ℕ) : ∀ c ∈ printOctal4 n, isBaseDigit 8 c = true := by
  intro d hd
  obtain hd | hd := List.mem_append.1 hd
  · rw [List.eq_of_mem_replicate hd]
    rfl
  · exact isBaseDigit_printNat (by decide) (by decide) n d hd

/-- `%04o` survives as well: leading zeros do not change the number. -/
theorem strtoulBase_printOctal4 {n : ℕ} (hn : n < 2 ^ 64) {rest : Bytes} :
    strtoulBase 8 (printOctal4 n ++ 32 :: rest) = some ⟨n, 32 :: rest, false⟩ := by
  have hzeros (k : ℕ) (ds : Bytes) :
      digitsValue 8 (List.replicate k 48 ++ ds) = digitsValue 8 ds := by
    induction k with
    | zero => rfl
    | succ k ih =>
      rw [List.replicate_succ, List.cons_append, ← ih]
      rfl
  have hval : digitsValue 8 (printOctal4 n) = n := by
    rw [printOctal4, hzeros, digitsValue_printNat (by decide) (by decide)]
  rw [strtoulBase_digits (by simp [printOctal4, printNat_ne_nil]) (isBaseDigit_printOctal4 n)
    (by decide) (by rw [hval]; exact hn), hval]

end Numbers

/-! ### The record -/

/-- Neither a NUL nor a newline is a digit. -/
theorem notMem_of_isBaseDigit {base : ℕ} {ds : Bytes} (hds : ∀ d ∈ ds, isBaseDigit base d = true)
    {c : UInt8} (hc : c.toNat < 48) : c ∉ ds := by
  intro hmem
  have hd := hds c hmem
  simp only [isBaseDigit, decide_eq_true_eq] at hd
  omega

namespace ScpProg

theorem controlRecord_eq (mode size : ℕ) (name : Bytes) :
    controlRecord mode size name = 67 :: (printOctal4 (mode &&& 0o777) ++
      32 :: (printNat 10 size ++ 32 :: (name ++ [10]))) := by
  simp [controlRecord, ascii]

/-- The record is one line. -/
theorem controlRecord_line {mode size : ℕ} {name : Bytes} (hline : 10 ∉ name) :
    ∃ l : Bytes, controlRecord mode size name = l ++ [10] ∧ 10 ∉ l ∧ l.head? = some 67 := by
  refine ⟨67 :: (printOctal4 (mode &&& 0o777) ++ 32 :: (printNat 10 size ++ 32 :: name)), ?_, ?_,
    rfl⟩
  · simp [controlRecord_eq]
  · have hoct : 10 ∉ printOctal4 (mode &&& 0o777) :=
      notMem_of_isBaseDigit (isBaseDigit_printOctal4 _) (by decide)
    have hdec : 10 ∉ printNat 10 size :=
      notMem_of_isBaseDigit (isBaseDigit_printNat (by decide) (by decide) size) (by decide)
    simp [hoct, hdec, hline]

theorem length_printNat_le {base n k : ℕ} (hb : 2 ≤ base) (hk : 0 < k) (hn : n < base ^ k) :
    (printNat base n).length ≤ k := by
  unfold printNat
  split
  · exact hk
  · simpa using (Nat.digits_length_le_iff hb n).2 hn

/-- The record of a file that may be downloaded is short. -/
theorem length_controlRecord_le {mode size : ℕ} {name : Bytes} (hsize : size ≤ ps4ScpSafeSendMax) :
    (controlRecord mode size name).length ≤ 12 + name.length := by
  have hoct : (printNat 8 (mode &&& 0o777)).length ≤ 4 :=
    length_printNat_le (by decide) (by decide) (Nat.lt_of_le_of_lt Nat.and_le_right (by decide))
  have hdec : (printNat 10 size).length ≤ 4 :=
    length_printNat_le (by decide) (by decide) (Nat.lt_of_le_of_lt hsize (by decide))
  simp only [controlRecord_eq, printOctal4, List.length_cons, List.length_append,
    List.length_replicate, List.length_nil]
  omega

/-- **The record survives**, for a name without a newline. -/
theorem parseControl_controlRecord {mode size : ℕ} {name : Bytes} (hsafe : safeName name)
    (hline : 10 ∉ name) (hnul : 0 ∉ name) (hsize : size ≤ ps4ScpMaxFileSize) :
    parseControl (controlRecord mode size name) = some ⟨mode &&& 0o777, size, name⟩ := by
  have hoct : 0 ∉ printOctal4 (mode &&& 0o777) :=
    notMem_of_isBaseDigit (isBaseDigit_printOctal4 _) (by decide)
  have hdec : 0 ∉ printNat 10 size :=
    notMem_of_isBaseDigit (isBaseDigit_printNat (by decide) (by decide) size) (by decide)
  have hcstr : cstr (controlRecord mode size name).tail = printOctal4 (mode &&& 0o777) ++
      32 :: (printNat 10 size ++ 32 :: (name ++ [10])) := by
    rw [controlRecord_eq, List.tail_cons, cstr, List.takeWhile_eq_self_iff]
    intro c hc
    have h0 : (0 : UInt8) ∉ printOctal4 (mode &&& 0o777) ++
        32 :: (printNat 10 size ++ 32 :: (name ++ [10])) := by
      simp [hoct, hdec, hnul]
    simpa using fun h : c = 0 => h0 (h ▸ hc)
  have hmode : mode &&& 0o777 < 2 ^ 64 :=
    Nat.lt_of_le_of_lt Nat.and_le_right (by decide)
  have hsize64 : size < 2 ^ 64 := Nat.lt_of_le_of_lt hsize (by decide)
  have htake : (name ++ [10]).takeWhile (· ≠ 10) = name := by
    rw [List.takeWhile_append_of_pos (by simpa using fun c hc (h : c = 10) => hline (h ▸ hc))]
    simp
  unfold parseControl
  rw [hcstr, strtoulBase_printOctal4 hmode]
  simp only
  rw [strtoulBase_printNat (by decide) (by decide) hsize64]
  simp only [htake, hsafe]
  simp [Nat.not_lt.2 hsize]

end ScpProg

end Ps4Dropbear
