import Mathlib.Data.List.TakeWhile
import Ps4Dropbear.Text.Numbers

/-!
# Texts that are a number to the end

`strtol` and its relatives skip blanks and take a sign before the digits.  A program that looks at
`*endptr` to see whether the whole text was a number accepts both, and the empty text as well, since
without a digit `*endptr` is the start of the text.

* `Written` : the text is blanks, at most one sign, and digits.
* `scanNumber` : the part that `strtol`, `strtoul` and `strtoull` share.

## Main results

* `scanNumber_iff` : a text is read to its end exactly when it is written so.
* `strtol10_end`, `strtoulBase_end` : the values.
-/

namespace Ps4Dropbear

/-- The text is a number in this base with blanks and a sign in front of its digits, both of which
may be missing; `negative` says that the sign is a minus. -/
def Written (base : ℕ) (s : Bytes) (negative : Bool) (ds : Bytes) : Prop :=
  ∃ blanks sign, s = blanks ++ sign ++ ds ∧ (∀ c ∈ blanks, isCSpace c) ∧
    (sign = [45] ∧ negative = true ∨ (sign = [] ∨ sign = [43]) ∧ negative = false) ∧
    ds ≠ [] ∧ ∀ c ∈ ds, isBaseDigit base c

/-- What `strtol` looks at: whether there is a minus, the digits, and the text behind them. -/
def scanNumber (base : ℕ) (s : Bytes) : Bool × Bytes × Bytes :=
  let t := s.dropWhile isCSpace
  let negative := t.head? = some 45
  let t := if negative ∨ t.head? = some 43 then t.tail else t
  (negative, t.takeWhile (isBaseDigit base), t.dropWhile (isBaseDigit base))

section Scan

variable {base : ℕ} {s ds : Bytes} {negative : Bool} {c : UInt8}

theorem not_isCSpace_of_digit (h : isBaseDigit base c) : isCSpace c = false := by
  have hc : 48 ≤ c.toNat := by
    simp only [isBaseDigit, Bool.decide_and, Bool.and_eq_true, decide_eq_true_eq] at h
    exact h.1
  have h32 : c ≠ 32 := by
    rintro rfl
    exact absurd hc (by decide)
  have h13 : ¬ c ≤ 13 := by
    intro hle
    have : c.toNat ≤ 13 := hle
    omega
  simp [isCSpace, h32, h13]

theorem digit_ne_sign (h : isBaseDigit base c) : c ≠ 45 ∧ c ≠ 43 := by
  have hc : 48 ≤ c.toNat := by
    simp only [isBaseDigit, Bool.decide_and, Bool.and_eq_true, decide_eq_true_eq] at h
    exact h.1
  refine ⟨?_, ?_⟩ <;>
  · rintro rfl
    exact absurd hc (by decide)

/-- **Reading to the end.** -/
theorem scanNumber_iff : scanNumber base s = (negative, ds, []) ∧ ds ≠ [] ↔
    Written base s negative ds := by
  constructor
  · rintro ⟨hscan, hds⟩
    simp only [scanNumber, Prod.mk.injEq] at hscan
    obtain ⟨hneg, hdigits, hrest⟩ := hscan
    have hwhole := List.takeWhile_append_dropWhile (p := isCSpace) (l := s)
    have hspaces : ∀ c ∈ s.takeWhile isCSpace, isCSpace c := fun c => List.mem_takeWhile_imp
    generalize s.dropWhile isCSpace = t at *
    -- all that is left behind the sign are the digits
    have hall : (if t.head? = some 45 ∨ t.head? = some 43 then t.tail else t) = ds := by
      rw [← List.takeWhile_append_dropWhile (p := isBaseDigit base)
        (l := if t.head? = some 45 ∨ t.head? = some 43 then t.tail else t), hdigits, hrest,
        List.append_nil]
    have hdig : ∀ c ∈ ds, isBaseDigit base c := by
      rw [← hdigits]
      exact fun c => List.mem_takeWhile_imp
    by_cases hminus : t.head? = some 45
    · obtain ⟨t', rfl⟩ := List.head?_eq_some_iff.1 hminus
      rw [if_pos (.inl hminus), List.tail_cons] at hall
      subst hall
      exact ⟨_, [45], by simpa using hwhole.symm, hspaces, .inl ⟨rfl, by simp [← hneg]⟩, hds, hdig⟩
    · have hfalse : negative = false := by simp [← hneg, hminus]
      by_cases hplus : t.head? = some 43
      · obtain ⟨t', rfl⟩ := List.head?_eq_some_iff.1 hplus
        rw [if_pos (.inr hplus), List.tail_cons] at hall
        subst hall
        exact ⟨_, [43], by simpa using hwhole.symm, hspaces, .inr ⟨.inr rfl, hfalse⟩, hds, hdig⟩
      · rw [if_neg (not_or.2 ⟨hminus, hplus⟩)] at hall
        subst hall
        exact ⟨_, [], by simpa using hwhole.symm, hspaces, .inr ⟨.inl rfl, hfalse⟩, hds, hdig⟩
  · rintro ⟨blanks, sign, rfl, hspaces, hsign, hds, hdig⟩
    refine ⟨?_, hds⟩
    obtain ⟨d, ds', rfl⟩ := List.exists_cons_of_ne_nil hds
    have hd := hdig d List.mem_cons_self
    obtain ⟨hminus, hplus⟩ := digit_ne_sign hd
    have htake : (d :: ds').takeWhile (isBaseDigit base) = d :: ds' :=
      List.takeWhile_eq_self_iff.2 hdig
    have hdrop : (d :: ds').dropWhile (isBaseDigit base) = [] := List.dropWhile_eq_nil_iff.2 hdig
    -- a sign or a digit ends the blanks
    have hskip {t : Bytes} (ht : t.dropWhile isCSpace = t) :
        (blanks ++ t).dropWhile isCSpace = t := by
      rw [List.dropWhile_append_of_pos hspaces, ht]
    unfold scanNumber
    rcases hsign with ⟨rfl, rfl⟩ | ⟨rfl | rfl, rfl⟩
    · rw [List.append_assoc, hskip (by simp [isCSpace])]
      simp [htake, hdrop]
    · rw [List.append_nil, hskip (by simp [not_isCSpace_of_digit hd])]
      simp [hminus, hplus, htake, hdrop]
    · rw [List.append_assoc, hskip (by simp [isCSpace])]
      simp [htake, hdrop]

/-- The digits can be read off the text. -/
theorem Written.unique {negative' : Bool} {ds' : Bytes} (h : Written base s negative ds)
    (h' : Written base s negative' ds') : negative = negative' ∧ ds = ds' := by
  have hscan := (scanNumber_iff.2 h).1
  rw [(scanNumber_iff.2 h').1] at hscan
  simp only [Prod.mk.injEq, and_true] at hscan
  exact ⟨hscan.1.symm, hscan.2.symm⟩

/-- Digits alone are a number. -/
theorem written_digits (hs : s ≠ []) (h : ∀ c ∈ s, isBaseDigit base c) : Written base s false s :=
  ⟨[], [], rfl, nofun, .inr ⟨.inl rfl, rfl⟩, hs, h⟩

/-- And the only numbers without a blank or a sign. -/
theorem Written.eq_of_digits (h : Written base s negative ds) (hs : ∀ c ∈ s, isBaseDigit base c) :
    negative = false ∧ ds = s := by
  have hne : s ≠ [] := by
    obtain ⟨blanks, sign, rfl, -, -, hds, -⟩ := h
    exact List.append_ne_nil_of_right_ne_nil _ hds
  exact h.unique (written_digits hne hs)

/-! ### Values -/

theorem strtol10_eq (s : Bytes) : strtol10 s =
    if (scanNumber 10 s).2.1 = [] then (0, s)
    else if (scanNumber 10 s).1 then
      (max (-(digitsValue 10 (scanNumber 10 s).2.1 : ℤ)) (-2 ^ 63), (scanNumber 10 s).2.2)
    else (min (digitsValue 10 (scanNumber 10 s).2.1 : ℤ) (2 ^ 63 - 1), (scanNumber 10 s).2.2) := by
  simp [strtol10, scanNumber]

theorem strtoulBase_eq (base : ℕ) (s : Bytes) : strtoulBase base s =
    if (scanNumber base s).2.1 = [] then none
    else if 2 ^ 64 ≤ digitsValue base (scanNumber base s).2.1 then
      some ⟨2 ^ 64 - 1, (scanNumber base s).2.2, true⟩
    else if (scanNumber base s).1 then
      some ⟨(2 ^ 64 - digitsValue base (scanNumber base s).2.1) % 2 ^ 64, (scanNumber base s).2.2,
        false⟩
    else some ⟨digitsValue base (scanNumber base s).2.1, (scanNumber base s).2.2, false⟩ := by
  simp [strtoulBase, scanNumber]

/-- The value of `strtol`. -/
def strtolValue (negative : Bool) (v : ℕ) : ℤ :=
  if negative then max (-(v : ℤ)) (-2 ^ 63) else min (v : ℤ) (2 ^ 63 - 1)

/-- The value of `strtoul` and `strtoull`. -/
def strtoulValue (negative : Bool) (v : ℕ) : ℕ :=
  if 2 ^ 64 ≤ v then 2 ^ 64 - 1 else if negative then (2 ^ 64 - v) % 2 ^ 64 else v

/-- **`strtol` reads a text to its end** when it is empty or written as a number. -/
theorem strtol10_end {x : ℤ} : strtol10 s = (x, []) ↔
    s = [] ∧ x = 0 ∨ ∃ negative ds, Written 10 s negative ds ∧
      x = strtolValue negative (digitsValue 10 ds) := by
  rw [strtol10_eq]
  constructor
  · intro h
    split at h
    · obtain ⟨hx, hs⟩ := Prod.mk.inj h
      exact .inl ⟨hs, hx.symm⟩
    · next hds =>
      refine .inr ⟨(scanNumber 10 s).1, (scanNumber 10 s).2.1, scanNumber_iff.1 ⟨?_, hds⟩, ?_⟩
      · split at h <;>
        · obtain ⟨-, hrest⟩ := Prod.mk.inj h
          rw [← hrest]
      · unfold strtolValue
        split at h
        · next hneg =>
          rw [if_pos hneg]
          exact (Prod.mk.inj h).1.symm
        · next hneg =>
          rw [if_neg hneg]
          exact (Prod.mk.inj h).1.symm
  · rintro (⟨rfl, rfl⟩ | ⟨negative, ds, hw, rfl⟩)
    · rfl
    · obtain ⟨hscan, hds⟩ := scanNumber_iff.2 hw
      simp only [hscan, if_neg hds, strtolValue]
      split <;> rfl

/-- **`strtoul` reads a text to its end** when it is written as a number. -/
theorem strtoulBase_end {v : ℕ} {range : Bool} :
    strtoulBase base s = some ⟨v, [], range⟩ ↔ ∃ negative ds, Written base s negative ds ∧
      v = strtoulValue negative (digitsValue base ds) ∧
      range = decide (2 ^ 64 ≤ digitsValue base ds) := by
  rw [strtoulBase_eq]
  constructor
  · intro h
    obtain ⟨hds, h⟩ := Option.ite_none_left_eq_some.1 h
    refine ⟨(scanNumber base s).1, (scanNumber base s).2.1, scanNumber_iff.1 ⟨?_, hds⟩, ?_⟩
    · have hrest : (scanNumber base s).2.2 = [] := by
        split at h
        · exact congrArg Strtoul.rest (Option.some.inj h)
        · split at h <;> exact congrArg Strtoul.rest (Option.some.inj h)
      rw [← hrest]
    · unfold strtoulValue
      split at h
      · next hbig =>
        rw [if_pos hbig, decide_eq_true hbig]
        exact ⟨(congrArg Strtoul.value (Option.some.inj h)).symm,
          (congrArg Strtoul.range (Option.some.inj h)).symm⟩
      · next hbig =>
        rw [if_neg hbig, decide_eq_false hbig]
        split at h
        · next hneg =>
          rw [if_pos hneg]
          exact ⟨(congrArg Strtoul.value (Option.some.inj h)).symm,
            (congrArg Strtoul.range (Option.some.inj h)).symm⟩
        · next hneg =>
          rw [if_neg hneg]
          exact ⟨(congrArg Strtoul.value (Option.some.inj h)).symm,
            (congrArg Strtoul.range (Option.some.inj h)).symm⟩
  · rintro ⟨negative, ds, hw, rfl, rfl⟩
    obtain ⟨hscan, hds⟩ := scanNumber_iff.2 hw
    simp only [hscan, if_neg hds, strtoulValue]
    by_cases hbig : 2 ^ 64 ≤ digitsValue base ds
    · rw [if_pos hbig, if_pos hbig, decide_eq_true hbig]
    · rw [if_neg hbig, if_neg hbig, decide_eq_false hbig]
      cases negative <;> rfl

end Scan

end Ps4Dropbear
