import Ps4Dropbear.Buffer.Basic

/-!
# Options of an `authorized_keys` entry

`svr_parse_pubkey_options` and its helpers (`svr-authpubkeyoptions.c`, `split_address_port` of
`common-runopts.c`, `m_str_to_uint` of `dbutil.c`).  The option buffer is the list of the bytes
that have not been read; `none` is the failure return `NULL`.

`m_str_to_uint` looks at `errno`, which nothing clears before it: `einval` says that it holds
`EINVAL` from an earlier call.  No call of a parse that goes on changes that.

The loop of the source consumes at least one byte in every round.  Here it is a recursion on a
number of rounds, and `parseOptions_fuel` says that the number of bytes is enough rounds.
-/

namespace Ps4Dropbear

/-- `struct PermitTCPFwdEntry`. -/
structure PermitTCPFwdEntry where
  host : Option Bytes
  port : ℕ
  deriving DecidableEq, Repr

/-- `struct PubKeyOptions`.  `no_x11_forwarding_flag` is never set, `DROPBEAR_X11FWD` is off. -/
structure PubKeyOptions where
  noPortForwardingFlag : Bool := false
  noAgentForwardingFlag : Bool := false
  noX11ForwardingFlag : Bool := false
  noPtyFlag : Bool := false
  /-- `command=` option. -/
  forcedCommand : Option Bytes := none
  /-- `permitopen=` option. -/
  permitOpenDestinations : Option (List PermitTCPFwdEntry) := none
  /-- `permitlisten=` option. -/
  permitListens : Option (List PermitTCPFwdEntry) := none
  noTouchRequiredFlag : Bool := false
  verifyRequiredFlag : Bool := false
  /-- Text behind the key, for `SSH_PUBKEYINFO`. -/
  infoEnv : Option Bytes := none
  deriving DecidableEq, Repr

/-- `PUBKEY_OPTIONS_ANY_PORT`, which is `UINT_MAX`. -/
def pubkeyOptionsAnyPort : ℕ := 2 ^ 32 - 1

/-- `tolower` in the C locale. -/
def toLower (c : UInt8) : UInt8 := if 65 ≤ c ∧ c ≤ 90 then c + 32 else c

/-- `match_option`: the bytes behind the option name. -/
def matchOption (bs : Bytes) (optName : String) : Option Bytes :=
  let name := ascii optName
  if bs.length < name.length then none
  else if (bs.take name.length).map toLower = name.map toLower then some (bs.drop name.length)
  else none

/-- The loop over a `command="` value: the text before the closing quote, and what follows. -/
def scanCommand : Bool → Bytes → Option (Bytes × Bytes)
  | _, [] => none
  | escaped, c :: bs =>
    if !escaped && c == 34 then some ([], bs)
    else (scanCommand (!escaped && c == 92) bs).map fun (v, r) => (c :: v, r)

/-- The loop over a `permitopen="` or `permitlisten="` value: no escapes. -/
def scanValue : Bytes → Option (Bytes × Bytes)
  | [] => none
  | c :: bs => if c == 34 then some ([], bs) else (scanValue bs).map fun (v, r) => (c :: v, r)

/-- `split_address_port`: the parts before and behind the separating colon. -/
def splitAddressPort (spec : Bytes) : Option (Option Bytes × Option Bytes) :=
  let first (addr : Bytes) := if addr = [] then none else some addr
  match spec with
  | 91 :: addr =>
    -- '[' address ']'
    match addr.dropWhile (· ≠ 93) with
    | [] => none
    | _ :: [] => some (first (addr.takeWhile (· ≠ 93)), none)
    | _ :: 58 :: port => some (first (addr.takeWhile (· ≠ 93)), some port)
    | _ => none
  | _ =>
    -- `strrchr` : the last colon
    match spec.reverse.dropWhile (· ≠ 58) with
    | [] => some (first spec, none)
    | _ :: before => some (first before.reverse, some (spec.reverse.takeWhile (· ≠ 58)).reverse)

/-- `isspace` in the C locale. -/
def isSpace (c : UInt8) : Bool := c == 32 || (9 ≤ c && c ≤ 13)

/-- `isdigit`. -/
def isDigit (c : UInt8) : Bool := 48 ≤ c && c ≤ 57

/-- `strtoul(str, &endp, 10)` for a 64-bit `unsigned long`, with the text at `endp`; `none` when
there are no digits. -/
def strtoul (str : Bytes) : Option (ℕ × Bytes) :=
  let s := str.dropWhile isSpace
  let (neg, s) := match s with
    | 43 :: r => (false, r)
    | 45 :: r => (true, r)
    | r => (false, r)
  let digits := s.takeWhile isDigit
  if digits = [] then none
  else
    let v : ℕ := digits.foldl (fun n (c : UInt8) => n * 10 + (c.toNat - 48)) 0
    let v := if v ≥ 2 ^ 64 then 2 ^ 64 - 1 else if neg then (2 ^ 64 - v) % 2 ^ 64 else v
    some (v, s.dropWhile isDigit)

/-- `m_str_to_uint`.  A number that overflows sets `errno` to `ERANGE` and is `ULONG_MAX`, which is
more than `UINT_MAX` anyway. -/
def mStrToUint (einval : Bool) (str : Bytes) : Option ℕ :=
  match strtoul str with
  | some (v, []) => if (v = 0 ∧ einval = true) ∨ v ≥ 2 ^ 32 then none else some v
  | _ => none

/-- A `permitopen=` value: host and port, or any port. -/
def permitOpenEntry (einval : Bool) (spec : Bytes) : Option PermitTCPFwdEntry :=
  match splitAddressPort spec with
  | some (some host, some port) =>
    if port = ascii "*" then some ⟨some host, pubkeyOptionsAnyPort⟩
    else (mStrToUint einval port).map fun p => ⟨some host, p⟩
  | _ => none

/-- One round of the loop up to `next_option`.  A text that starts with none of the options is
left as it is, and the check for the comma then decides.  The copies of the values are C strings. -/
def parseOption (einval : Bool) (o : PubKeyOptions) (bs : Bytes) :
    Option (PubKeyOptions × Bytes) :=
  if let some r := matchOption bs "no-port-forwarding" then
    some ({ o with noPortForwardingFlag := true }, r)
  else if let some r := matchOption bs "no-agent-forwarding" then
    some ({ o with noAgentForwardingFlag := true }, r)
  else if let some r := matchOption bs "no-X11-forwarding" then
    some (o, r)
  else if let some r := matchOption bs "no-pty" then
    some ({ o with noPtyFlag := true }, r)
  else if let some r := matchOption bs "restrict" then
    some ({ o with
      noPortForwardingFlag := true, noAgentForwardingFlag := true, noPtyFlag := true }, r)
  else if let some r := matchOption bs "command=\"" then
    -- multiple command= options are bad
    if o.forcedCommand.isSome then none
    else (scanCommand false r).map fun (v, r) => ({ o with forcedCommand := some v }, r)
  else if let some r := matchOption bs "permitopen=\"" then
    (scanValue r).bind fun (v, r) => (permitOpenEntry einval (cstr v)).map fun e =>
      ({ o with permitOpenDestinations := some (o.permitOpenDestinations.getD [] ++ [e]) }, r)
  else if let some r := matchOption bs "permitlisten=\"" then
    (scanValue r).bind fun (v, r) => (mStrToUint einval (cstr v)).map fun p =>
      ({ o with permitListens := some (o.permitListens.getD [] ++ [⟨none, p⟩]) }, r)
  else if let some r := matchOption bs "no-touch-required" then
    some ({ o with noTouchRequiredFlag := true }, r)
  else if let some r := matchOption bs "verify-required" then
    some ({ o with verifyRequiredFlag := true }, r)
  else some (o, bs)

/-- The loop over the options, for at most `n` rounds. -/
def parseOptions (einval : Bool) : ℕ → PubKeyOptions → Bytes → Option PubKeyOptions
  | _, o, [] => some o
  | 0, _, _ :: _ => none
  | n + 1, o, bs =>
    match parseOption einval o bs with
    | none => none
    | some (o, []) => some o
    | some (o, c :: r) => if c = 44 then parseOptions einval n o r else none

/-- `svr_parse_pubkey_options`; a `NULL` buffer is `none`. -/
def svrParsePubkeyOptions (einval : Bool) (optionsBuf : Option Bytes) : Option PubKeyOptions :=
  match optionsBuf with
  | none => some {}
  | some bs => parseOptions einval bs.length {} bs

/-! ### The number of rounds -/

theorem matchOption_length {bs r : Bytes} {name : String} (h : matchOption bs name = some r) :
    r.length ≤ bs.length := by
  simp only [matchOption] at h
  split_ifs at h
  cases h
  simp

theorem scanCommand_length {e : Bool} {bs v r : Bytes} (h : scanCommand e bs = some (v, r)) :
    r.length ≤ bs.length := by
  induction bs generalizing e v with
  | nil => cases h
  | cons c bs ih =>
    simp only [scanCommand] at h
    split_ifs at h
    · cases h
      exact Nat.le_succ _
    · obtain ⟨⟨v', r'⟩, h', heq⟩ := Option.map_eq_some_iff.1 h
      cases heq
      exact Nat.le_succ_of_le (ih h')

theorem scanValue_length {bs v r : Bytes} (h : scanValue bs = some (v, r)) :
    r.length ≤ bs.length := by
  induction bs generalizing v with
  | nil => cases h
  | cons c bs ih =>
    simp only [scanValue] at h
    split_ifs at h
    · cases h
      exact Nat.le_succ _
    · obtain ⟨⟨v', r'⟩, h', heq⟩ := Option.map_eq_some_iff.1 h
      cases heq
      exact Nat.le_succ_of_le (ih h')

theorem parseOption_length {einval : Bool} {o o' : PubKeyOptions} {bs r : Bytes}
    (h : parseOption einval o bs = some (o', r)) : r.length ≤ bs.length := by
  unfold parseOption at h
  repeat' split at h
  all_goals try (cases h; exact matchOption_length ‹_›)
  · cases h
  · next hm _ =>
    obtain ⟨⟨v, r'⟩, hs, heq⟩ := Option.map_eq_some_iff.1 h
    cases heq
    exact Nat.le_trans (scanCommand_length hs) (matchOption_length hm)
  · next hm =>
    obtain ⟨⟨v, r'⟩, hs, heq⟩ := Option.bind_eq_some_iff.1 h
    obtain ⟨e, -, heq⟩ := Option.map_eq_some_iff.1 heq
    cases heq
    exact Nat.le_trans (scanValue_length hs) (matchOption_length hm)
  · next hm =>
    obtain ⟨⟨v, r'⟩, hs, heq⟩ := Option.bind_eq_some_iff.1 h
    obtain ⟨e, -, heq⟩ := Option.map_eq_some_iff.1 heq
    cases heq
    exact Nat.le_trans (scanValue_length hs) (matchOption_length hm)
  · cases h
    exact Nat.le_refl _

/-- As many rounds as there are bytes are enough: more rounds change nothing. -/
theorem parseOptions_fuel {einval : Bool} {n : ℕ} {o : PubKeyOptions} {bs : Bytes}
    (h : bs.length ≤ n) :
    parseOptions einval n o bs = parseOptions einval bs.length o bs := by
  induction n using Nat.strongRecOn generalizing o bs with
  | _ n ih =>
    cases bs with
    | nil => cases n <;> rfl
    | cons b bs =>
      obtain ⟨m, rfl⟩ : ∃ m, n = m + 1 := ⟨n - 1, by simp only [List.length_cons] at h; omega⟩
      simp only [parseOptions, List.length_cons]
      cases hp : parseOption einval o (b :: bs) with
      | none => rfl
      | some p =>
        obtain ⟨o', r⟩ := p
        have hr := parseOption_length hp
        cases r with
        | nil => rfl
        | cons c r =>
          simp only [List.length_cons] at h hr
          have h₁ : parseOptions einval m o' r = _ := ih m (by omega) (by omega)
          have h₂ : parseOptions einval bs.length o' r = _ := ih bs.length (by omega) (by omega)
          simp only [h₁, h₂]

end Ps4Dropbear
