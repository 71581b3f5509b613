import Ps4Dropbear.Auth.Soundness

/-!
# How often a client may fail

`failcount` counts the failures of all methods; keys that are not authorised are counted in
`serv_pubkey_query_count`, and in `failcount` as well when the free ones are used up.  A request for
a signature algorithm that the server does not know is refused and counted in neither.

* `AuthFailure`, `requestFailure` : how a request fails.
* `Counted`, `recvMsgUserauthRequest_counted` : what the counters make of it.

**Main result**: the numbers of failed passwords and signatures, and of unauthorised keys, are
bounded over every run (`bruteForce_bound`).
-/

namespace Ps4Dropbear

/-- How a request fails. -/
inductive AuthFailure
  /-- A password, or the wish for another one. -/
  | password
  /-- The signature of a key that is authorised, or the key itself. -/
  | signature
  /-- A key that is not authorised. -/
  | unauthorised
  /-- The signature algorithm of a valid user. -/
  | algorithm
  deriving DecidableEq, Repr

section Failures

variable (H : Host) (o : SvrOpts) (sessionId : Bytes)

/-- How `svr_auth_password` fails. -/
def passwordFailure (s : AuthState) (buf : Buffer) (validUser : Bool) : Option AuthFailure :=
  match bufGetbool buf with
  | .error _ => none
  | .ok (changepw, buf) =>
    if changepw then some .password
    else
      match bufGetstring buf with
      | .error _ => none
      | .ok (password, _) =>
        if passwordVerdict H s validUser password = .reject then some .password else none

/-- How `svr_auth_pubkey` fails. -/
def pubkeyFailure (inp : AuthInput) (buf : Buffer) (validUser : Bool) : Option AuthFailure :=
  match pubkeyVerdict H sessionId inp buf validUser with
  | .ok .refused => if validUser then some .algorithm else none
  | .ok .unauthorised => some .unauthorised
  | .ok .badKey => some .signature
  | .ok .badSignature => some .signature
  | _ => none

/-- How a request fails behind `checkusername`. -/
def methodFailure (s : AuthState) (inp : AuthInput) (methodname : Bytes) (buf : Buffer)
    (validUser : Bool) : Option AuthFailure :=
  if passwordAllowed o s ∧ methodname = ascii "password" then passwordFailure H s buf validUser
  else if methodname = ascii "publickey" then pubkeyFailure H sessionId inp buf validUser
  else none

/-- How a request fails. -/
def requestFailure (s : AuthState) (inp : AuthInput) : Option AuthFailure :=
  if s.authdone then none
  else
    match parseUserauthRequest inp.payload.buf with
    | .error _ => none
    | .ok (req, buf) =>
      match checkusername H o s.sendBanner req.username with
      | .error _ => none
      | .ok (validUser, s) => methodFailure H o sessionId s inp req.methodname buf validUser

/-- The request fails in one of these ways. -/
def failsWith (ks : List AuthFailure) (s : AuthState) (inp : AuthInput) : Bool :=
  (requestFailure H o sessionId s inp).any (· ∈ ks)

end Failures

/-- What the counters make of a failure. -/
structure Counted (o : SvrOpts) (k : Option AuthFailure) (s s' : AuthState) : Prop where
  failcount : s.failcount + (k.any (· ∈ [AuthFailure.password, .signature])).toNat ≤ s'.failcount
  bounded : s.failcount ≤ o.maxauthtries → s'.failcount ≤ o.maxauthtries
  queries : s'.servPubkeyQueryCount =
    s.servPubkeyQueryCount + (k.any (· ∈ [AuthFailure.unauthorised])).toNat
  /-- Beyond the free ones. -/
  charged : k = some .unauthorised → freeQueryLimit o.maxauthtries ≤ s.servPubkeyQueryCount →
    s.failcount < s'.failcount

section Counted

variable {H : Host} {o : SvrOpts} {sessionId : Bytes} {inp : AuthInput} {s s' : AuthState}
variable {methodname : Bytes} {buf : Buffer} {validUser : Bool}

/-- A failure message counts as its flag says. -/
theorem sendMsgUserauthFailure_counts {p i : Bool}
    (h : sendMsgUserauthFailure o s p i = .ok s') :
    s'.failcount = s.failcount + i.toNat ∧ s'.failcount ≤ o.maxauthtries ∧
      s'.servPubkeyQueryCount = s.servPubkeyQueryCount := by
  simp only [sendMsgUserauthFailure, ite_exit_eq_ok] at h
  obtain ⟨hle, h⟩ := h
  cases h
  refine ⟨?_, Nat.le_of_not_lt hle, rfl⟩
  cases i <;> rfl

/-- Failures that are counted. -/
theorem Counted.of_failure {p : Bool} {k : Option AuthFailure} (hk : k ≠ some .unauthorised)
    (h : sendMsgUserauthFailure o s p true = .ok s') : Counted o k s s' := by
  obtain ⟨hcount, hle, hqueries⟩ := sendMsgUserauthFailure_counts h
  refine ⟨?_, fun _ => hle, ?_, fun h => absurd h hk⟩
  · rw [hcount]
    exact Nat.add_le_add_left (Bool.toNat_le _) _
  · have hno : k.any (· ∈ [AuthFailure.unauthorised]) = false := by
      cases k with
      | none => rfl
      | some k => cases k <;> first | rfl | exact absurd rfl hk
    rw [hqueries, hno]
    rfl

/-- Failures that are not. -/
theorem Counted.of_free {p : Bool} {k : Option AuthFailure} (hk : k = none ∨ k = some .algorithm)
    (h : sendMsgUserauthFailure o s p false = .ok s') : Counted o k s s' := by
  obtain ⟨hcount, hle, hqueries⟩ := sendMsgUserauthFailure_counts h
  obtain rfl | rfl := hk
  · exact ⟨Nat.le_of_eq hcount.symm, fun _ => hle, hqueries, nofun⟩
  · exact ⟨Nat.le_of_eq hcount.symm, fun _ => hle, hqueries, nofun⟩

/-- The counters are left alone. -/
theorem Counted.of_eq (hcount : s'.failcount = s.failcount)
    (hqueries : s'.servPubkeyQueryCount = s.servPubkeyQueryCount) : Counted o none s s' :=
  ⟨Nat.le_of_eq hcount.symm, fun h => hcount ▸ h, hqueries, nofun⟩

theorem svrAuthPassword_counted (h : svrAuthPassword H o s buf validUser = .ok s') :
    Counted o (passwordFailure H s buf validUser) s s' := by
  simp only [svrAuthPassword, bind_eq_ok, Prod.exists] at h
  obtain ⟨changepw, b, hb, h⟩ := h
  unfold passwordFailure
  rw [hb]
  dsimp only
  cases changepw with
  | true => exact .of_failure (by rw [if_pos rfl]; decide) h
  | false =>
    simp only [Bool.false_eq_true, if_false, bind_eq_ok, Prod.exists] at h
    obtain ⟨password, b', hb', h⟩ := h
    rw [if_neg (by simp), hb']
    dsimp only
    cases hv : passwordVerdict H s validUser password with
    | reject =>
      rw [hv] at h
      exact .of_failure (by decide) h
    | ps4Default =>
      rw [hv] at h
      rw [sendMsgUserauthSuccess_ok h]
      exact .of_eq rfl rfl
    | crypt =>
      rw [hv] at h
      dsimp only at h
      split at h
      · have hcounted : Counted o none _ s' := .of_free (.inl rfl) h
        exact ⟨hcounted.failcount, hcounted.bounded, hcounted.queries, fun hk => by cases hk⟩
      · rw [sendMsgUserauthSuccess_ok h]
        exact .of_eq rfl rfl

theorem svrAuthPubkey_counted (h : svrAuthPubkey H o sessionId s inp buf validUser = .ok s') :
    Counted o (pubkeyFailure H sessionId inp buf validUser) s s' := by
  simp only [svrAuthPubkey, bind_eq_ok] at h
  obtain ⟨verdict, hv, h⟩ := h
  unfold pubkeyFailure
  rw [hv]
  cases verdict with
  | refused =>
    refine .of_free ?_ h
    dsimp only
    split
    · exact .inr rfl
    · exact .inl rfl
  | unauthorised =>
    simp only [bind_eq_ok, pure_eq_ok] at h
    obtain ⟨s₁, hs₁, rfl⟩ := h
    obtain ⟨hcount, hle, hqueries⟩ := sendMsgUserauthFailure_counts hs₁
    refine ⟨?_, fun _ => hle, congrArg (· + 1) hqueries, ?_⟩
    · exact Nat.le.intro hcount.symm
    · intro _ hfree
      rw [decide_eq_true hfree] at hcount
      exact Nat.lt_of_lt_of_eq (Nat.lt_succ_self _) hcount.symm
  | query sigalgo keyblob =>
    cases h
    exact .of_eq rfl rfl
  | badKey => exact .of_failure nofun h
  | badSignature => exact .of_failure nofun h
  | verified v =>
    dsimp only at h
    split at h
    · have hcounted : Counted o none _ s' := .of_free (.inl rfl) h
      exact ⟨hcounted.failcount, hcounted.bounded, hcounted.queries, nofun⟩
    · rw [sendMsgUserauthSuccess_ok h]
      exact .of_eq rfl rfl

theorem userauthMethod_counted
    (h : userauthMethod H o sessionId s inp methodname buf validUser = .ok s') :
    Counted o (methodFailure H o sessionId s inp methodname buf validUser) s s' := by
  unfold userauthMethod at h
  unfold methodFailure
  by_cases hnone : methodname = ascii "none"
  · rw [if_pos hnone] at h
    rw [hnone, if_neg fun h => absurd h.2 (by decide), if_neg (by decide)]
    split at h
    · rw [sendMsgUserauthSuccess_ok h]
      exact .of_eq rfl rfl
    · exact .of_free (.inl rfl) h
  rw [if_neg hnone] at h
  split at h
  · next hpassword =>
    rw [if_pos hpassword]
    exact svrAuthPassword_counted h
  · next hpassword =>
    rw [if_neg hpassword]
    split at h
    · next hpubkey =>
      rw [if_pos hpubkey]
      exact svrAuthPubkey_counted h
    · next hpubkey =>
      rw [if_neg hpubkey]
      exact .of_failure nofun h

/-- The user name does not change the counters. -/
theorem checkusername_counters {u : Bytes} {v : Bool}
    (h : checkusername H o s u = .ok (v, s')) :
    s'.failcount = s.failcount ∧ s'.servPubkeyQueryCount = s.servPubkeyQueryCount := by
  rcases checkusername_ok h with ⟨-, -, rfl⟩ | ⟨-, ⟨-, hs⟩ | ⟨-, hs⟩, -⟩
  · exact ⟨rfl, rfl⟩
  · rw [hs]
    exact ⟨rfl, rfl⟩
  · rw [hs]
    exact ⟨rfl, rfl⟩

/-- **What one request does to the counters.** -/
theorem recvMsgUserauthRequest_counted
    (h : recvMsgUserauthRequest H o sessionId s inp = .ok s') :
    Counted o (requestFailure H o sessionId s inp) s s' := by
  unfold requestFailure
  by_cases hdone : s.authdone
  · rw [recvMsgUserauthRequest_of_authdone hdone] at h
    cases h
    rw [if_pos hdone]
    exact .of_eq rfl rfl
  rw [recvMsgUserauthRequest, if_neg hdone] at h
  simp only [bind_eq_ok, Prod.exists] at h
  obtain ⟨req, buf, hparse, validUser, s₁, hcheck, h⟩ := h
  rw [if_neg hdone, hparse]
  dsimp only
  rw [hcheck]
  dsimp only
  obtain ⟨hcount, hqueries⟩ := checkusername_counters hcheck
  have hcounted := userauthMethod_counted h
  exact ⟨hcount ▸ hcounted.failcount, hcount ▸ hcounted.bounded, hqueries ▸ hcounted.queries,
    hcount ▸ hqueries ▸ hcounted.charged⟩

/-! ### Runs -/

/-- The failures are within their limit, and beyond the free keys each one is among them. -/
def WithinLimits (o : SvrOpts) (s : AuthState) : Prop :=
  s.failcount ≤ o.maxauthtries ∧
    s.servPubkeyQueryCount ≤ freeQueryLimit o.maxauthtries + s.failcount

theorem WithinLimits.init (o : SvrOpts) (banner : Option Bytes) :
    WithinLimits o (svrAuthinitialise o banner) :=
  ⟨Nat.zero_le _, Nat.zero_le _⟩

theorem WithinLimits.step (h : WithinLimits o s)
    (hstep : (userauth H o sessionId).step s inp = some s') : WithinLimits o s' := by
  have hcounted := recvMsgUserauthRequest_counted (userauth_step.1 hstep)
  obtain ⟨hfail, hfree⟩ := h
  refine ⟨hcounted.bounded hfail, ?_⟩
  have hqueries := hcounted.queries
  have hmono := hcounted.failcount
  by_cases hk : requestFailure H o sessionId s inp = some .unauthorised
  · have hone : (((requestFailure H o sessionId s inp).any
        (· ∈ [AuthFailure.unauthorised])).toNat) = 1 := by rw [hk]; rfl
    rw [hone] at hqueries
    rcases Nat.lt_or_ge s.servPubkeyQueryCount (freeQueryLimit o.maxauthtries) with hlt | hge
    · omega
    · have hcharged := hcounted.charged hk hge
      omega
  · have hzero : (((requestFailure H o sessionId s inp).any
        (· ∈ [AuthFailure.unauthorised])).toNat) = 0 := by
      cases hf : requestFailure H o sessionId s inp with
      | none => rfl
      | some k =>
        rw [hf] at hk
        cases k <;> first | rfl | exact absurd rfl hk
    rw [hzero] at hqueries
    omega

/-- The `int` of a small option is the option. -/
theorem freeQueryLimit_eq {n : ℕ} (h : n < 2 ^ 31) : freeQueryLimit n = maxPubkeyQueries - n := by
  unfold freeQueryLimit
  rw [Int.bmod_eq_of_le (by omega) (by omega)]
  omega

/-- **The limits on guessing.**  Over every sequence of requests of a session, with the one that
ends it, at most `maxauthtries + 1` passwords and signatures fail, and (while `maxauthtries` is no
negative `int`) the free keys and `maxauthtries + 1` more are refused because they are not
authorised.  The counter of failures does not wrap. -/
theorem bruteForce_bound (H : Host) (o : SvrOpts) (sessionId : Bytes) (banner : Option Bytes)
    (ls : List AuthInput) (hmax : o.maxauthtries < 2 ^ 32 - 1) :
    (userauth H o sessionId).count (failsWith H o sessionId [.password, .signature])
        (svrAuthinitialise o banner) ls ≤ o.maxauthtries + 1 ∧
    (o.maxauthtries < 2 ^ 31 →
      (userauth H o sessionId).count (failsWith H o sessionId [.unauthorised])
        (svrAuthinitialise o banner) ls ≤
          (maxPubkeyQueries - o.maxauthtries) + o.maxauthtries + 1) ∧
    ∀ t, (userauth H o sessionId).exec (svrAuthinitialise o banner) ls = some t →
      t.failcount + 1 < 2 ^ 32 := by
  have hJ (s : AuthState) (inp : AuthInput) (s' : AuthState) (h : WithinLimits o s)
      (hstep : (userauth H o sessionId).step s inp = some s') : WithinLimits o s' := h.step hstep
  refine ⟨?_, ?_, ?_⟩
  · exact LTS.count_le_add_one (f := AuthState.failcount) (WithinLimits.init o banner) hJ
      (fun s inp s' _ hstep =>
        (recvMsgUserauthRequest_counted (userauth_step.1 hstep)).failcount) (fun s h => h.1)
  · intro hint
    rw [← freeQueryLimit_eq hint]
    exact LTS.count_le_add_one (f := AuthState.servPubkeyQueryCount) (WithinLimits.init o banner)
      hJ
      (fun s inp s' _ hstep =>
        Nat.le_of_eq (recvMsgUserauthRequest_counted (userauth_step.1 hstep)).queries.symm)
      (fun s h => Nat.le_trans h.2 (Nat.add_le_add_left h.1 _))
  · intro t ht
    have hlimits : WithinLimits o t :=
      LTS.exec_invariant (C := fun _ _ => True) (WithinLimits.init o banner)
        (fun s inp s' h _ => hJ s inp s' h) (LTS.along_of_forall (fun _ _ _ => trivial) _) ht
    have hfail := hlimits.1
    omega

/-- A request for `root` with a wrong password. -/
def rootGuess : AuthInput where
  payload := Payload.ofFields (encodeFields [ascii "root", ascii "ssh-connection",
    ascii "password"] ++ [0] ++ sshString (ascii "toor")) (by decide)
  authfile := none

/-- Of fifteen guesses eleven are answered, which is the bound, and the session has ended. -/
theorem bruteForce_bound_guesses :
    (userauth bareHost {} []).count (failsWith bareHost {} [] [.password, .signature])
        (svrAuthinitialise {} none) (List.replicate 15 rootGuess) = 11 ∧
      (userauth bareHost {} []).count (failsWith bareHost {} [] [.password, .signature])
        (svrAuthinitialise {} none) (List.replicate 15 rootGuess) ≤ 10 + 1 ∧
      ∃ t, (userauth bareHost {} []).exec (svrAuthinitialise {} none)
        (List.replicate 3 rootGuess) = some t ∧ t.failcount = 3 ∧ t.failcount + 1 < 2 ^ 32 := by
  have hthree : ((userauth bareHost {} []).exec (svrAuthinitialise {} none)
      (List.replicate 3 rootGuess)).map AuthState.failcount = some 3 := by decide
  obtain ⟨t, ht, hfail⟩ := Option.map_eq_some_iff.1 hthree
  exact ⟨by decide,
    (bruteForce_bound bareHost {} [] none (List.replicate 15 rootGuess) (by decide)).1, t, ht,
    hfail,
    (bruteForce_bound bareHost {} [] none (List.replicate 3 rootGuess) (by decide)).2.2 t ht⟩

/-- A request for `root` with a signature algorithm that does not exist. -/
def rootUnknownAlgorithm : AuthInput where
  payload := Payload.ofFields (encodeFields [ascii "root", ascii "ssh-connection",
    ascii "publickey"] ++ [0] ++ sshString (ascii "x") ++ sshString []) (by decide)
  authfile := none

/-- Requests for an unknown algorithm are refused without end. -/
theorem unknownAlgorithm_not_counted :
    ¬ ∀ (H : Host) (o : SvrOpts) (sessionId : Bytes) (banner : Option Bytes) (ls : List AuthInput),
      (userauth H o sessionId).count (failsWith H o sessionId [.unauthorised, .algorithm])
        (svrAuthinitialise o banner) ls ≤
          (maxPubkeyQueries - o.maxauthtries) + o.maxauthtries + 1 := by
  intro h
  have hcount := h bareHost {} [] none (List.replicate 17 rootUnknownAlgorithm)
  exact absurd hcount (by decide)

end Counted

end Ps4Dropbear
