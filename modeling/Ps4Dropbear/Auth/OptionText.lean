import Ps4Dropbear.Auth.PubkeyOptions
import Mathlib.Data.List.TakeWhile

/-!
# The text of key options

What an options text says, without reference to the parser: a list of options with commas between
them, an option being a name, or a name with a value in quotes, or nothing at all.

* `KeyOption`, `KeyOption.Spelled`, `Reads` : options, how they are written, and a text of them.
* `parseOptions_of_reads`, `exists_reads` : `svr_parse_pubkey_options` goes through the options of
  the text in order, and accepts no other text.
* `Denotes`, `mStrToUint_eq_some_iff` : numbers, and what `m_str_to_uint` makes of them.
* `SplitsAs`, `splitAddressPort_eq_some_iff` : a host and a port.
-/

namespace Ps4Dropbear

/-- The options of a key. -/
inductive KeyOption
  | noPortForwarding
  | noAgentForwarding
  | noX11Forwarding
  | noPty
  | restrict
  | command (v : Bytes)
  | permitopen (v : Bytes)
  | permitlisten (v : Bytes)
  | noTouchRequired
  | verifyRequired
  /-- Nothing between two commas. -/
  | empty
  deriving DecidableEq, Repr

/-- The same letters, in capitals or not. -/
def SameName (t : Bytes) (name : String) : Prop := t.map toLower = (ascii name).map toLower

/-- What may stand between the quotes of a command: a quote only behind a backslash, which goes with
the byte that follows it. -/
inductive Quotable : Bytes → Prop
  | nil : Quotable []
  | plain {c : UInt8} {v : Bytes} (hquote : c ≠ 34) (hback : c ≠ 92) (hv : Quotable v) :
      Quotable (c :: v)
  | escaped {c : UInt8} {v : Bytes} (hv : Quotable v) : Quotable (92 :: c :: v)

/-- How an option is written. -/
inductive KeyOption.Spelled : KeyOption → Bytes → Prop
  | noPortForwarding {t : Bytes} (h : SameName t "no-port-forwarding") :
      Spelled .noPortForwarding t
  | noAgentForwarding {t : Bytes} (h : SameName t "no-agent-forwarding") :
      Spelled .noAgentForwarding t
  | noX11Forwarding {t : Bytes} (h : SameName t "no-X11-forwarding") : Spelled .noX11Forwarding t
  | noPty {t : Bytes} (h : SameName t "no-pty") : Spelled .noPty t
  | restrict {t : Bytes} (h : SameName t "restrict") : Spelled .restrict t
  | command {t v : Bytes} (h : SameName t "command=\"") (hv : Quotable v) :
      Spelled (.command v) (t ++ v ++ [34])
  | permitopen {t v : Bytes} (h : SameName t "permitopen=\"") (hv : 34 ∉ v) :
      Spelled (.permitopen v) (t ++ v ++ [34])
  | permitlisten {t v : Bytes} (h : SameName t "permitlisten=\"") (hv : 34 ∉ v) :
      Spelled (.permitlisten v) (t ++ v ++ [34])
  | noTouchRequired {t : Bytes} (h : SameName t "no-touch-required") : Spelled .noTouchRequired t
  | verifyRequired {t : Bytes} (h : SameName t "verify-required") : Spelled .verifyRequired t
  | empty : Spelled .empty []

/-- The text is the list of these options. -/
inductive Reads : Bytes → List KeyOption → Prop
  | last {x : KeyOption} {t : Bytes} (h : x.Spelled t) : Reads t [x]
  | cons {x : KeyOption} {t r : Bytes} {xs : List KeyOption} (h : x.Spelled t) (hr : Reads r xs) :
      Reads (t ++ 44 :: r) (x :: xs)

/-- What an option does; `none` is a bad value, or a second `command=`. -/
def KeyOption.apply (einval : Bool) (o : PubKeyOptions) : KeyOption → Option PubKeyOptions
  | noPortForwarding => some { o with noPortForwardingFlag := true }
  | noAgentForwarding => some { o with noAgentForwardingFlag := true }
  | noX11Forwarding => some o
  | noPty => some { o with noPtyFlag := true }
  | restrict => some { o with
      noPortForwardingFlag := true, noAgentForwardingFlag := true, noPtyFlag := true }
  | command v => if o.forcedCommand.isSome then none else some { o with forcedCommand := some v }
  | permitopen v => (permitOpenEntry einval (cstr v)).map fun e =>
      { o with permitOpenDestinations := some (o.permitOpenDestinations.getD [] ++ [e]) }
  | permitlisten v => (mStrToUint einval (cstr v)).map fun p =>
      { o with permitListens := some (o.permitListens.getD [] ++ [⟨none, p⟩]) }
  | noTouchRequired => some { o with noTouchRequiredFlag := true }
  | verifyRequired => some { o with verifyRequiredFlag := true }
  | empty => some o

/-! ### Names -/

theorem matchOption_eq_some_iff {bs r : Bytes} {name : String} :
    matchOption bs name = some r ↔ ∃ t, SameName t name ∧ bs = t ++ r := by
  simp only [matchOption, SameName]
  constructor
  · intro h
    split_ifs at h with hlen hname
    cases h
    exact ⟨bs.take (ascii name).length, hname, (List.take_append_drop _ _).symm⟩
  · rintro ⟨t, hname, rfl⟩
    have hlen : t.length = (ascii name).length := by
      simpa using congrArg List.length hname
    rw [if_neg (by simp [hlen]), ← hlen, List.take_left, List.drop_left, if_pos hname]

/-- Neither of two names is the beginning of the other. -/
def Apart (name name' : String) : Prop :=
  ¬ (ascii name).map toLower <+: (ascii name').map toLower ∧
    ¬ (ascii name').map toLower <+: (ascii name).map toLower

instance (name name' : String) : Decidable (Apart name name') :=
  inferInstanceAs (Decidable (_ ∧ _))

/-- A text that starts with one name does not start with another. -/
theorem matchOption_eq_none {t r : Bytes} {name name' : String} (h : SameName t name')
    (hne : Apart name name') : matchOption (t ++ r) name = none := by
  rw [← Option.not_isSome_iff_eq_none, Option.isSome_iff_exists]
  rintro ⟨r', hr'⟩
  obtain ⟨t', ht', heq⟩ := matchOption_eq_some_iff.1 hr'
  have h₁ : (ascii name').map toLower <+: (t ++ r).map toLower := by
    rw [← h, List.map_append]
    exact List.prefix_append _ _
  have h₂ : (ascii name).map toLower <+: (t ++ r).map toLower := by
    rw [heq, ← ht', List.map_append]
    exact List.prefix_append _ _
  exact (List.prefix_or_prefix_of_prefix h₂ h₁).elim hne.1 hne.2

theorem matchOption_self {t r : Bytes} {name : String} (h : SameName t name) :
    matchOption (t ++ r) name = some r :=
  matchOption_eq_some_iff.2 ⟨t, h, rfl⟩

/-- At the end of the text or at a comma there is no option. -/
theorem matchOption_at_end {r : Bytes} {name : String} (hr : r = [] ∨ r.head? = some 44)
    (hname : ((ascii name).map toLower).head?.any (· ≠ 44) = true) :
    matchOption r name = none := by
  rw [← Option.not_isSome_iff_eq_none, Option.isSome_iff_exists]
  rintro ⟨r', hr'⟩
  obtain ⟨t, ht, rfl⟩ := matchOption_eq_some_iff.1 hr'
  cases t with
  | nil =>
    rw [← ht] at hname
    cases hname
  | cons c t =>
    obtain hr | hr := hr
    · cases hr
    · obtain rfl : c = 44 := Option.some.inj hr
      rw [← ht] at hname
      change decide (toLower 44 ≠ 44) = true at hname
      revert hname
      decide

/-! ### Values -/

theorem scanValue_append {v r : Bytes} (hv : 34 ∉ v) : scanValue (v ++ 34 :: r) = some (v, r) := by
  induction v with
  | nil => rfl
  | cons c v ih =>
    obtain ⟨hc, hv⟩ := not_or.1 (List.mem_cons.not.1 hv)
    rw [List.cons_append, scanValue, if_neg (by simpa using Ne.symm hc), ih hv]
    rfl

theorem scanValue_eq_some {bs v r : Bytes} (h : scanValue bs = some (v, r)) :
    bs = v ++ 34 :: r ∧ 34 ∉ v := by
  induction bs generalizing v with
  | nil => cases h
  | cons c bs ih =>
    rw [scanValue] at h
    split_ifs at h with hc
    · cases h
      rw [beq_iff_eq] at hc
      subst hc
      exact ⟨rfl, List.not_mem_nil⟩
    · obtain ⟨⟨v', r'⟩, hscan, heq⟩ := Option.map_eq_some_iff.1 h
      cases heq
      obtain ⟨rfl, hv'⟩ := ih hscan
      refine ⟨rfl, ?_⟩
      rw [List.mem_cons, not_or]
      exact ⟨fun h34 => hc (by rw [← h34]; rfl), hv'⟩

theorem scanCommand_append {v r : Bytes} (hv : Quotable v) :
    scanCommand false (v ++ 34 :: r) = some (v, r) := by
  induction hv with
  | nil => rfl
  | @plain c v hquote hback _ ih =>
    have hquote' : (c == 34) = false := beq_eq_false_iff_ne.2 hquote
    have hback' : (c == 92) = false := beq_eq_false_iff_ne.2 hback
    rw [List.cons_append, scanCommand, hquote', hback', if_neg (by decide), Bool.and_false, ih]
    rfl
  | @escaped c v _ ih =>
    -- the byte behind the backslash is passed over, whatever it is
    rw [List.cons_append, List.cons_append, scanCommand, if_neg (by decide), scanCommand,
      if_neg (by simp)]
    change ((scanCommand false (v ++ 34 :: r)).map _).map _ = _
    rw [ih]
    rfl

/-- The scan ends at the first quote that is not escaped. -/
theorem scanCommand_eq_some {bs v r : Bytes} (h : scanCommand false bs = some (v, r)) :
    bs = v ++ 34 :: r ∧ Quotable v := by
  induction hlen : bs.length using Nat.strongRecOn generalizing bs v with
  | ind n ih =>
    cases bs with
    | nil => cases h
    | cons c bs =>
      subst hlen
      rw [scanCommand] at h
      split_ifs at h with hquote
      · cases h
        have hc : c = 34 := by simpa using hquote
        rw [hc]
        exact ⟨rfl, .nil⟩
      · obtain ⟨⟨v', r'⟩, hscan, heq⟩ := Option.map_eq_some_iff.1 h
        cases heq
        have hc : c ≠ 34 := by simpa using hquote
        by_cases hback : c = 92
        swap
        · have hback' : (!false && c == 92) = false := by simpa using hback
          rw [hback'] at hscan
          obtain ⟨rfl, hv'⟩ := ih bs.length (Nat.lt_succ_self _) hscan rfl
          exact ⟨rfl, .plain hc hback hv'⟩
        subst hback
        cases bs with
        | nil => cases hscan
        | cons d bs =>
          have hpassed : (scanCommand false bs).map (fun p => (d :: p.1, p.2)) = some (v', r) :=
            hscan
          obtain ⟨⟨v'', r''⟩, hscan', heq⟩ := Option.map_eq_some_iff.1 hpassed
          cases heq
          obtain ⟨rfl, hv''⟩ := ih bs.length (by simp only [List.length_cons]; omega) hscan' rfl
          exact ⟨rfl, .escaped hv''⟩

/-! ### The parser -/

variable {einval : Bool}

/-- One round of the parser reads one option. -/
theorem parseOption_of_spelled {x : KeyOption} {t r : Bytes} (o : PubKeyOptions)
    (h : x.Spelled t) (hr : r = [] ∨ r.head? = some 44) :
    parseOption einval o (t ++ r) = (x.apply einval o).map (·, r) := by
  unfold parseOption
  cases h with
  | noPortForwarding h | noAgentForwarding h | noX11Forwarding h | noPty h | restrict h
  | noTouchRequired h | verifyRequired h =>
    simp (disch := decide) only [matchOption_eq_none h, matchOption_self h]
    rfl
  | @command t v h hv =>
    rw [List.append_assoc, List.append_assoc, List.singleton_append]
    simp (disch := decide) only [matchOption_eq_none h, matchOption_self h,
      scanCommand_append hv, KeyOption.apply]
    split_ifs <;> rfl
  | @permitopen t v h hv | @permitlisten t v h hv =>
    rw [List.append_assoc, List.append_assoc, List.singleton_append]
    simp (disch := decide) only [matchOption_eq_none h, matchOption_self h,
      scanValue_append hv, KeyOption.apply, Option.bind_some, Option.map_map]
    rfl
  | empty =>
    simp (disch := decide) only [List.nil_append, matchOption_at_end hr]
    rfl

/-- A round that succeeds has read an option. -/
theorem exists_spelled {o o' : PubKeyOptions} {bs r : Bytes}
    (h : parseOption einval o bs = some (o', r)) : ∃ x t, KeyOption.Spelled x t ∧ bs = t ++ r := by
  have hflag {x : KeyOption} {name : String} (hm : matchOption bs name = some r)
      (hx : ∀ t, SameName t name → x.Spelled t) : ∃ x t, KeyOption.Spelled x t ∧ bs = t ++ r := by
    obtain ⟨t, ht, hbs⟩ := matchOption_eq_some_iff.1 hm
    exact ⟨x, t, hx t ht, hbs⟩
  have hvalue {x : KeyOption} {name : String} {v r' : Bytes} (hm : matchOption bs name = some r')
      (hr : r' = v ++ 34 :: r) (hx : ∀ t, SameName t name → x.Spelled (t ++ v ++ [34])) :
      ∃ x t, KeyOption.Spelled x t ∧ bs = t ++ r := by
    obtain ⟨t, ht, hbs⟩ := matchOption_eq_some_iff.1 hm
    refine ⟨x, _, hx t ht, ?_⟩
    rw [hbs, hr, List.append_assoc, List.append_assoc, List.singleton_append]
  unfold parseOption at h
  split at h
  · next hm =>
    cases h
    exact hflag hm fun t ht => .noPortForwarding ht
  split at h
  · next hm =>
    cases h
    exact hflag hm fun t ht => .noAgentForwarding ht
  split at h
  · next hm =>
    cases h
    exact hflag hm fun t ht => .noX11Forwarding ht
  split at h
  · next hm =>
    cases h
    exact hflag hm fun t ht => .noPty ht
  split at h
  · next hm =>
    cases h
    exact hflag hm fun t ht => .restrict ht
  split at h
  · next hm =>
    split at h
    · cases h
    · obtain ⟨⟨v, r'⟩, hscan, heq⟩ := Option.map_eq_some_iff.1 h
      cases heq
      obtain ⟨hr, hv⟩ := scanCommand_eq_some hscan
      exact hvalue hm hr fun t ht => .command ht hv
  split at h
  · next hm =>
    obtain ⟨⟨v, r'⟩, hscan, heq⟩ := Option.bind_eq_some_iff.1 h
    obtain ⟨e, -, heq⟩ := Option.map_eq_some_iff.1 heq
    cases heq
    obtain ⟨hr, hv⟩ := scanValue_eq_some hscan
    exact hvalue hm hr fun t ht => .permitopen ht hv
  split at h
  · next hm =>
    obtain ⟨⟨v, r'⟩, hscan, heq⟩ := Option.bind_eq_some_iff.1 h
    obtain ⟨e, -, heq⟩ := Option.map_eq_some_iff.1 heq
    cases heq
    obtain ⟨hr, hv⟩ := scanValue_eq_some hscan
    exact hvalue hm hr fun t ht => .permitlisten ht hv
  split at h
  · next hm =>
    cases h
    exact hflag hm fun t ht => .noTouchRequired ht
  split at h
  · next hm =>
    cases h
    exact hflag hm fun t ht => .verifyRequired ht
  · cases h
    exact ⟨.empty, [], .empty, rfl⟩

/-- What a round leads to: the end of the text, or a comma and another round. -/
def nextOption (einval : Bool) (n : ℕ) (o : PubKeyOptions) : Bytes → Option PubKeyOptions
  | [] => some o
  | c :: r => if c = 44 then parseOptions einval n o r else none

theorem parseOptions_succ {n : ℕ} {o : PubKeyOptions} {text : Bytes} (h : text ≠ []) :
    parseOptions einval (n + 1) o text =
      (parseOption einval o text).bind fun p => nextOption einval n p.1 p.2 := by
  obtain ⟨c, t, rfl⟩ := List.exists_cons_of_ne_nil h
  unfold parseOptions
  cases parseOption einval o (c :: t) with
  | none => rfl
  | some p =>
    obtain ⟨o', r⟩ := p
    cases r <;> rfl

/-- The parser goes through the options of a text. -/
theorem parseOptions_of_reads {text : Bytes} {xs : List KeyOption} {o : PubKeyOptions} {n : ℕ}
    (h : Reads text xs) (hn : text.length ≤ n) :
    parseOptions einval n o text = xs.foldlM (KeyOption.apply einval) o := by
  induction h generalizing o n with
  | @last x t h =>
    have hx : parseOption einval o (t ++ []) = _ := parseOption_of_spelled o h (.inl rfl)
    rw [List.append_nil] at hx
    rw [List.foldlM_cons]
    cases t with
    | nil =>
      have hnil : parseOption einval o [] = some (o, []) := rfl
      obtain ⟨o', ho', heq⟩ := Option.map_eq_some_iff.1 (hx.symm.trans hnil)
      cases heq
      rw [ho']
      cases n <;> rfl
    | cons c t =>
      obtain ⟨m, rfl⟩ : ∃ m, n = m + 1 := ⟨n - 1, by simp only [List.length_cons] at hn; omega⟩
      rw [parseOptions_succ (List.cons_ne_nil c t), hx]
      cases x.apply einval o <;> rfl
  | @cons x t r xs h hr ih =>
    have hx : parseOption einval o (t ++ 44 :: r) = _ := parseOption_of_spelled o h (.inr rfl)
    have hlen : t.length + (r.length + 1) ≤ n := by
      simpa only [List.length_append, List.length_cons] using hn
    obtain ⟨m, rfl⟩ : ∃ m, n = m + 1 := ⟨n - 1, by omega⟩
    rw [List.foldlM_cons, parseOptions_succ (by simp), hx]
    cases x.apply einval o with
    | none => rfl
    | some o' => exact ih (by omega)

/-- The parser accepts nothing but texts of options. -/
theorem exists_reads {text : Bytes} {o o' : PubKeyOptions} {n : ℕ}
    (h : parseOptions einval n o text = some o') : ∃ xs, Reads text xs := by
  induction n generalizing o text with
  | zero =>
    cases text with
    | nil => exact ⟨[.empty], .last .empty⟩
    | cons c t => cases h
  | succ n ih =>
    cases text with
    | nil => exact ⟨[.empty], .last .empty⟩
    | cons c t =>
      rw [parseOptions_succ (List.cons_ne_nil c t)] at h
      obtain ⟨⟨o₁, r⟩, hp, hnext⟩ := Option.bind_eq_some_iff.1 h
      obtain ⟨x, s, hx, hs⟩ := exists_spelled hp
      rw [hs]
      cases r with
      | nil =>
        rw [List.append_nil]
        exact ⟨[x], .last hx⟩
      | cons d r =>
        obtain ⟨rfl, hrest⟩ := Option.ite_none_right_eq_some.1 hnext
        obtain ⟨xs, hxs⟩ := ih hrest
        exact ⟨x :: xs, .cons hx hxs⟩

/-! ### Numbers -/

/-- The number that a list of digits writes. -/
def decimal (ds : Bytes) : ℕ := ds.foldl (fun n c => n * 10 + (c.toNat - 48)) 0

/-- The text is this number in decimal: spaces, a sign, and digits. -/
inductive Denotes : Bytes → Int → Prop
  | plain {ws ds : Bytes} (hws : ∀ c ∈ ws, isSpace c = true) (hne : ds ≠ [])
      (hds : ∀ c ∈ ds, isDigit c = true) : Denotes (ws ++ ds) (decimal ds)
  | plus {ws ds : Bytes} (hws : ∀ c ∈ ws, isSpace c = true) (hne : ds ≠ [])
      (hds : ∀ c ∈ ds, isDigit c = true) : Denotes (ws ++ 43 :: ds) (decimal ds)
  | minus {ws ds : Bytes} (hws : ∀ c ∈ ws, isSpace c = true) (hne : ds ≠ [])
      (hds : ∀ c ∈ ds, isDigit c = true) : Denotes (ws ++ 45 :: ds) (-decimal ds)

/-- What `strtoul` makes of the number behind the sign. -/
def toUlong (neg : Bool) (v : ℕ) : ℕ :=
  if v ≥ 2 ^ 64 then 2 ^ 64 - 1 else if neg then (2 ^ 64 - v) % 2 ^ 64 else v

theorem not_isSpace_of_isDigit {c : UInt8} (h : isDigit c = true) : isSpace c = false := by
  simp only [isDigit, Bool.and_eq_true, decide_eq_true_eq, UInt8.le_iff_toNat_le] at h
  by_contra hs
  simp only [isSpace, Bool.not_eq_false, Bool.or_eq_true, Bool.and_eq_true, decide_eq_true_eq,
    beq_iff_eq, ← UInt8.toNat_inj, UInt8.le_iff_toNat_le] at hs
  have h48 : (48 : UInt8).toNat = 48 := rfl
  have h13 : (13 : UInt8).toNat = 13 := rfl
  have h32 : (32 : UInt8).toNat = 32 := rfl
  omega

theorem dropWhile_isSpace {ws t : Bytes} (hws : ∀ c ∈ ws, isSpace c = true)
    (ht : t.head?.any isSpace = false) : (ws ++ t).dropWhile isSpace = t := by
  rw [List.dropWhile_append_of_pos hws]
  cases t with
  | nil => rfl
  | cons c t => exact List.dropWhile_cons_of_neg (by simpa using ht)

/-- `strtoul` behind the spaces and the sign. -/
def strtoulDigits (neg : Bool) (s : Bytes) : Option (ℕ × Bytes) :=
  if s.takeWhile isDigit = [] then none
  else some (toUlong neg (decimal (s.takeWhile isDigit)), s.dropWhile isDigit)

theorem strtoul_eq {str : Bytes} {neg : Bool} {s : Bytes}
    (h : str.dropWhile isSpace = 43 :: s ∧ neg = false ∨
      str.dropWhile isSpace = 45 :: s ∧ neg = true ∨
      (str.dropWhile isSpace = s ∧ s.head? ≠ some 43 ∧ s.head? ≠ some 45) ∧ neg = false) :
    strtoul str = strtoulDigits neg s := by
  unfold strtoul
  rcases h with ⟨h, rfl⟩ | ⟨h, rfl⟩ | ⟨⟨h, h43, h45⟩, rfl⟩
  · rw [h]
    rfl
  · rw [h]
    rfl
  · rw [h]
    dsimp only
    split
    · exact absurd rfl h43
    · exact absurd rfl h45
    · rfl

theorem strtoulDigits_of_digits {ds : Bytes} (hds : ∀ c ∈ ds, isDigit c = true) (hne : ds ≠ [])
    (neg : Bool) : strtoulDigits neg ds = some (toUlong neg (decimal ds), []) := by
  rw [strtoulDigits, List.takeWhile_eq_self_iff.2 hds, if_neg hne, List.dropWhile_eq_nil_iff.2 hds]

theorem strtoulDigits_eq_some {neg : Bool} {s : Bytes} {v : ℕ}
    (h : strtoulDigits neg s = some (v, [])) :
    s ≠ [] ∧ (∀ c ∈ s, isDigit c = true) ∧ v = toUlong neg (decimal s) := by
  unfold strtoulDigits at h
  split_ifs at h with hnil
  simp only [Option.some.injEq, Prod.mk.injEq] at h
  obtain ⟨rfl, hrest⟩ := h
  have hall := List.dropWhile_eq_nil_iff.1 hrest
  have hself := List.takeWhile_eq_self_iff.2 hall
  rw [hself] at hnil ⊢
  exact ⟨hnil, hall, rfl⟩

/-- The remainder that `strtoul` returns. -/
theorem toUlong_lt {neg : Bool} {v x : ℕ} (hx : x < 2 ^ 32) :
    toUlong neg v = x ↔ v < 2 ^ 64 ∧ (x : Int) = (if neg then -(v : Int) else v) % 2 ^ 64 := by
  unfold toUlong
  cases neg with
  | false =>
    simp only [Bool.false_eq_true, if_false]
    split_ifs <;> omega
  | true =>
    simp only [if_true]
    split_ifs <;> omega

/-- **`m_str_to_uint`** returns the number modulo `2 ^ 64`, if that is less than `2 ^ 32` and the
number did not overflow. -/
theorem mStrToUint_eq_some_iff {p : Bytes} {x : ℕ} :
    mStrToUint false p = some x ↔
      ∃ n : Int, Denotes p n ∧ n.natAbs < 2 ^ 64 ∧ x < 2 ^ 32 ∧ (x : Int) = n % 2 ^ 64 := by
  constructor
  · intro h
    unfold mStrToUint at h
    split at h
    · next v hstr =>
      obtain ⟨hv, hx⟩ := Option.ite_none_left_eq_some.1 h
      replace hv := (not_or.1 hv).2
      cases hx
      have hws : ∀ c ∈ p.takeWhile isSpace, isSpace c = true :=
        fun c hc => List.mem_takeWhile_imp hc
      have hp := List.takeWhile_append_dropWhile (p := isSpace) (l := p)
      generalize p.takeWhile isSpace = ws at hws hp
      generalize hs : p.dropWhile isSpace = s at hp
      subst hp
      replace hv : x < 2 ^ 32 := Nat.lt_of_not_le hv
      by_cases h43 : s.head? = some 43
      · obtain ⟨t, rfl⟩ := List.head?_eq_some_iff.1 h43
        rw [strtoul_eq (.inl ⟨hs, rfl⟩)] at hstr
        obtain ⟨hne, hds, rfl⟩ := strtoulDigits_eq_some hstr
        obtain ⟨hlt, hmod⟩ := (toUlong_lt hv).1 rfl
        exact ⟨_, .plus hws hne hds, hlt, hv, hmod⟩
      by_cases h45 : s.head? = some 45
      · obtain ⟨t, rfl⟩ := List.head?_eq_some_iff.1 h45
        rw [strtoul_eq (.inr (.inl ⟨hs, rfl⟩))] at hstr
        obtain ⟨hne, hds, rfl⟩ := strtoulDigits_eq_some hstr
        obtain ⟨hlt, hmod⟩ := (toUlong_lt hv).1 rfl
        exact ⟨_, .minus hws hne hds, by rwa [Int.natAbs_neg], hv, hmod⟩
      · rw [strtoul_eq (.inr (.inr ⟨⟨hs, h43, h45⟩, rfl⟩))] at hstr
        obtain ⟨hne, hds, rfl⟩ := strtoulDigits_eq_some hstr
        obtain ⟨hlt, hmod⟩ := (toUlong_lt hv).1 rfl
        exact ⟨_, .plain hws hne hds, hlt, hv, hmod⟩
    · cases h
  · rintro ⟨n, hn, habs, hx, hmod⟩
    have key (neg : Bool) (ds : Bytes) (hne : ds ≠ []) (hds : ∀ c ∈ ds, isDigit c = true)
        (hval : n = if neg then -(decimal ds : Int) else decimal ds)
        (hstr : strtoul p = strtoulDigits neg ds) : mStrToUint false p = some x := by
      have hlong : toUlong neg (decimal ds) = x := by
        rw [toUlong_lt hx, ← hval]
        refine ⟨?_, hmod⟩
        cases neg <;> simp at hval <;> omega
      unfold mStrToUint
      rw [hstr, strtoulDigits_of_digits hds hne, hlong]
      exact if_neg (not_or.2 ⟨fun h => Bool.false_ne_true h.2, by omega⟩)
    cases hn with
    | @plain ws ds hws hne hds =>
      obtain ⟨c, t, rfl⟩ := List.exists_cons_of_ne_nil hne
      have hc : isDigit c = true := hds c List.mem_cons_self
      refine key false _ hne hds rfl (strtoul_eq (.inr (.inr ⟨⟨?_, ?_, ?_⟩, rfl⟩)))
      · exact dropWhile_isSpace hws (not_isSpace_of_isDigit hc)
      · rintro ⟨⟩
        cases hc
      · rintro ⟨⟩
        cases hc
    | plus hws hne hds =>
      exact key false _ hne hds rfl (strtoul_eq (.inl ⟨dropWhile_isSpace hws rfl, rfl⟩))
    | minus hws hne hds =>
      exact key true _ hne hds rfl (strtoul_eq (.inr (.inl ⟨dropWhile_isSpace hws rfl, rfl⟩)))

/-- With `EINVAL` in `errno` zero is refused as well. -/
theorem mStrToUint_iff {p : Bytes} {x : ℕ} :
    mStrToUint einval p = some x ↔ mStrToUint false p = some x ∧ ¬ (x = 0 ∧ einval = true) := by
  unfold mStrToUint
  rcases strtoul p with _ | ⟨v, _ | ⟨c, rest⟩⟩
  · simp
  · simp only [Option.ite_none_left_eq_some, Option.some.injEq, Bool.false_eq_true, and_false,
      false_or, not_or]
    constructor
    · rintro ⟨⟨hzero, hlt⟩, rfl⟩
      exact ⟨⟨hlt, rfl⟩, hzero⟩
    · rintro ⟨⟨hlt, rfl⟩, hzero⟩
      exact ⟨⟨hzero, hlt⟩, rfl⟩
  · simp

/-! ### Hosts and ports -/

/-- The value is a host and a port: a colon behind the host, or a host in brackets. -/
inductive SplitsAs : Bytes → Bytes → Bytes → Prop
  | colon {host p : Bytes} (hne : host ≠ []) (hhost : host.head? ≠ some 91) (hp : 58 ∉ p) :
      SplitsAs (host ++ 58 :: p) host p
  | brackets {host p : Bytes} (hne : host ≠ []) (hhost : 93 ∉ host) :
      SplitsAs (91 :: (host ++ 93 :: 58 :: p)) host p

theorem takeWhile_ne_append {c : UInt8} {a b : Bytes} (h : c ∉ a) :
    (a ++ c :: b).takeWhile (· ≠ c) = a := by
  rw [List.takeWhile_append_of_pos]
  · simp
  · intro x hx
    have hne : x ≠ c := by
      rintro rfl
      exact h hx
    simpa using hne

theorem dropWhile_ne_append {c : UInt8} {a b : Bytes} (h : c ∉ a) :
    (a ++ c :: b).dropWhile (· ≠ c) = c :: b := by
  rw [List.dropWhile_append_of_pos]
  · simp
  · intro x hx
    have hne : x ≠ c := by
      rintro rfl
      exact h hx
    simpa using hne

/-- A list cut at the first occurrence of a byte. -/
theorem eq_takeWhile_append {c d : UInt8} {l r : Bytes} (h : l.dropWhile (· ≠ c) = d :: r) :
    d = c ∧ c ∉ l.takeWhile (· ≠ c) ∧ l = l.takeWhile (· ≠ c) ++ c :: r := by
  have hd : d = c := by
    have hhead := List.head?_dropWhile_not (p := fun x => decide (x ≠ c)) l
    rw [h] at hhead
    simpa using hhead
  subst hd
  refine ⟨rfl, fun hmem => by simpa using List.mem_takeWhile_imp hmem, ?_⟩
  rw [← h]
  exact List.takeWhile_append_dropWhile.symm

theorem splitAddressPort_eq_some_iff {v host p : Bytes} :
    splitAddressPort v = some (some host, some p) ↔ SplitsAs v host p := by
  constructor
  · intro h
    unfold splitAddressPort at h
    dsimp only at h
    split at h
    · next addr =>
      split at h
      · cases h
      · simp at h
      · next hdrop =>
        simp only [Option.some.injEq, Prod.mk.injEq] at h
        obtain ⟨hhost, rfl⟩ := h
        obtain ⟨hne, hhost⟩ := Option.ite_none_left_eq_some.1 hhost
        obtain rfl := Option.some.inj hhost
        obtain ⟨-, hmem, haddr⟩ := eq_takeWhile_append hdrop
        generalize addr.takeWhile (· ≠ 93) = host at hne hmem haddr ⊢
        rw [haddr]
        exact .brackets hne hmem
      · cases h
    · next hbracket =>
      split at h
      · simp at h
      · next before hdrop =>
        simp only [Option.some.injEq, Prod.mk.injEq] at h
        obtain ⟨hhost, rfl⟩ := h
        obtain ⟨hne, hhost⟩ := Option.ite_none_left_eq_some.1 hhost
        obtain rfl := Option.some.inj hhost
        obtain ⟨-, hmem, hv⟩ := eq_takeWhile_append hdrop
        have hv' := congrArg List.reverse hv
        rw [List.reverse_reverse, List.reverse_append, List.reverse_cons, List.append_assoc,
          List.singleton_append] at hv'
        rw [← List.mem_reverse] at hmem
        generalize (v.reverse.takeWhile (· ≠ 58)).reverse = p at hmem hv' ⊢
        rw [hv']
        refine .colon hne (fun hhead => ?_) hmem
        obtain ⟨t, ht⟩ := List.head?_eq_some_iff.1 hhead
        rw [ht] at hv'
        exact hbracket _ hv'
  · intro h
    cases h with
    | @colon host p hne hhost hp =>
      obtain ⟨c, t, rfl⟩ := List.exists_cons_of_ne_nil hne
      have hc : c ≠ 91 := fun h => hhost (congrArg some h)
      have hrev : (c :: t ++ 58 :: p).reverse = p.reverse ++ 58 :: (c :: t).reverse := by simp
      have hp' : 58 ∉ p.reverse := by rwa [List.mem_reverse]
      unfold splitAddressPort
      dsimp only
      split
      · next heq => exact absurd (List.cons.inj heq).1 hc
      · rw [hrev, dropWhile_ne_append hp', takeWhile_ne_append hp']
        simp
    | @brackets host p hne hhost =>
      have hdrop := dropWhile_ne_append (b := 58 :: p) hhost
      have htake := takeWhile_ne_append (b := 58 :: p) hhost
      simp only [splitAddressPort, hdrop, htake, if_neg hne]

/-! ### A stale `errno` -/

theorem permitOpenEntry_of_einval {v : Bytes} {e : PermitTCPFwdEntry}
    (h : permitOpenEntry einval v = some e) : permitOpenEntry false v = some e := by
  unfold permitOpenEntry at h ⊢
  split at h
  · split at h
    · next hstar => rw [if_pos hstar, h]
    · next hstar =>
      obtain ⟨port, hport, rfl⟩ := Option.map_eq_some_iff.1 h
      rw [if_neg hstar, (mStrToUint_iff.1 hport).1]
      rfl
  · cases h

theorem KeyOption.apply_of_einval {x : KeyOption} {o o' : PubKeyOptions}
    (h : x.apply einval o = some o') : x.apply false o = some o' := by
  cases x with
  | permitopen v =>
    obtain ⟨e, he, rfl⟩ := Option.map_eq_some_iff.1 h
    rw [KeyOption.apply, permitOpenEntry_of_einval he]
    rfl
  | permitlisten v =>
    obtain ⟨port, hport, rfl⟩ := Option.map_eq_some_iff.1 h
    rw [KeyOption.apply, (mStrToUint_iff.1 hport).1]
    rfl
  | noPortForwarding | noAgentForwarding | noX11Forwarding | noPty | restrict | command
  | noTouchRequired | verifyRequired | empty => exact h

/-- What is accepted with `EINVAL` in `errno` is accepted without, as the same options. -/
theorem svrParsePubkeyOptions_of_einval {options : Option Bytes} {o : PubKeyOptions}
    (h : svrParsePubkeyOptions einval options = some o) :
    svrParsePubkeyOptions false options = some o := by
  cases options with
  | none => exact h
  | some text =>
    obtain ⟨xs, hxs⟩ := exists_reads h
    rw [svrParsePubkeyOptions, parseOptions_of_reads hxs (Nat.le_refl _)] at h ⊢
    clear hxs
    generalize ({} : PubKeyOptions) = start at h ⊢
    induction xs generalizing start with
    | nil => exact h
    | cons x xs ih =>
      rw [List.foldlM_cons] at h ⊢
      obtain ⟨o₁, hx, hrest⟩ := Option.bind_eq_some_iff.1 h
      rw [KeyOption.apply_of_einval hx]
      exact ih o₁ hrest

end Ps4Dropbear
