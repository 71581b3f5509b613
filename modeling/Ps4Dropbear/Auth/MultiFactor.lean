import Ps4Dropbear.Auth.VerifiedKey

/-!
# Two factors

With `-t` both a password and a public key are required.  The two methods clear their bit of
`authtypes` when they succeed and declare success only when the other bit is gone.  Two further
places declare success without a look at the bits: the blank password of a `none` request, and
the password of the synthetic PS4 account.

* `multiFactor_iff` : the runs of the dialogue in which the policy holds are those in which
  neither of the two places is reached too early.
-/

namespace Ps4Dropbear

variable {H : Host} {o : SvrOpts} {sessionId : Bytes} {inp : AuthInput} {s s' : AuthState}

/-- A password check has succeeded for the user of the session. -/
def PasswordChecked (s : AuthState) : Prop :=
  .password s.pwName ∈ s.log ∨ .ps4DefaultUser s.pwName ∈ s.log

/-- A signature check has succeeded for the user of the session. -/
def PubkeyChecked (s : AuthState) : Prop := .pubkey s.pwName ∈ s.log

/-- **The policy**: whoever is in has passed both checks. -/
def MultiFactor (s : AuthState) : Prop :=
  s.authdone = true → PasswordChecked s ∧ PubkeyChecked s

/-- The request reaches a place that does not look at `authtypes`: a blank password, or the PS4
password while a public key is still required. -/
def SkipsFactor (H : Host) (o : SvrOpts) (s : AuthState) (inp : AuthInput) : Prop :=
  s.authdone = false ∧ ∃ req buf v s₁, parseUserauthRequest inp.payload.buf = .ok (req, buf) ∧
    checkusername H o s.sendBanner req.username = .ok (v, s₁) ∧
    ((req.methodname = ascii "none" ∧ blankAccepted o s₁ v) ∨
      (req.methodname = ascii "password" ∧ passwordAllowed o s₁ ∧ s.authPubkey = true ∧
        ∃ password, CarriesPassword buf password ∧
          passwordVerdict H s₁ v password = .ps4Default))

/-- While authentication goes on, a bit of `authtypes` is clear exactly when its check has
succeeded, and one bit is left. -/
structure Pending (s : AuthState) : Prop where
  pubkey : s.authPubkey = false ↔ PubkeyChecked s
  password : s.authPassword = false ↔ PasswordChecked s
  left : s.authPubkey = true ∨ s.authPassword = true

/-- The invariant of the dialogue. -/
structure FactorInv (s : AuthState) : Prop where
  fresh : s.username = none → s.log = []
  pending : s.authdone = false → Pending s

/-- `checkusername` changes neither the log nor the bits, and the account only while the log is
empty. -/
theorem Pending.checkusername {u : Bytes} {v : Bool} (hfresh : s.username = none → s.log = [])
    (hs : Pending s) (h : checkusername H o s u = .ok (v, s')) : Pending s' := by
  rcases checkusername_ok h with ⟨-, -, rfl⟩ | ⟨-, ⟨hnone, hst⟩ | ⟨-, hst⟩, -⟩
  · exact hs
  · have hlog := hfresh hnone
    have hpub : ∀ n, n ∉ s.log := by simp [hlog]
    have h₁ : s.authPubkey = true := by
      by_contra hne
      exact hpub _ (hs.pubkey.1 (by simpa using hne))
    have h₂ : s.authPassword = true := by
      by_contra hne
      rcases hs.password.1 (by simpa using hne) with hm | hm <;> exact hpub _ hm
    rw [hst]
    refine ⟨?_, ?_, .inl h₁⟩
    · exact ⟨fun hf => absurd (h₁.symm.trans hf) (by simp), fun hm => absurd hm (hpub _)⟩
    · exact ⟨fun hf => absurd (h₂.symm.trans hf) (by simp),
        fun hm => hm.elim (fun hm => absurd hm (hpub _)) fun hm => absurd hm (hpub _)⟩
  · rw [hst]
    exact ⟨hs.pubkey, hs.password, hs.left⟩

theorem checkusername_username {u : Bytes} {v : Bool} (h : checkusername H o s u = .ok (v, s')) :
    (s'.username = none → s.username = none) ∧ s'.log = s.log ∧
      s'.authPubkey = s.authPubkey := by
  rcases checkusername_ok h with ⟨-, -, rfl⟩ | ⟨-, ⟨hnone, hst⟩ | ⟨hu, hst⟩, -⟩
  · exact ⟨id, rfl, rfl⟩
  · exact ⟨fun _ => hnone, by rw [hst]; rfl, by rw [hst]; rfl⟩
  · exact ⟨fun hn => by rw [hst] at hn; exact hn, by rw [hst], by rw [hst]⟩

/-- A request keeps the invariant, and what it accepts is for the user of the session. -/
theorem FactorInv.effect {methodname : Bytes} {buf : Buffer} {v : Bool}
    (hfresh : s.username = none → s.log = [] ∧ v = false) (hp : Pending s)
    (h : RequestEffect H o sessionId inp methodname buf v s s') : FactorInv s' := by
  have huser : v = true → s.username ≠ none := fun hv hn => by simp [hv] at hfresh; exact hfresh hn
  cases h with
  | refused =>
    exact ⟨fun hn => (hfresh hn).1, fun _ => ⟨hp.pubkey, hp.password, hp.left⟩⟩
  | blankPassword sent hm hb =>
    simp only [blankAccepted, Bool.and_eq_true] at hb
    exact ⟨fun hn => absurd hn (huser hb.1.1.1), fun hf => absurd hf (by simp)⟩
  | ps4Default sent password hm ha hpw hv =>
    exact ⟨fun hn => absurd hn (huser (passwordVerdict_ps4Default hv).1),
      fun hf => absurd hf (by simp)⟩
  | password sent password hm ha hpw hv hlast =>
    exact ⟨fun hn => absurd hn (huser (passwordVerdict_crypt hv).1), fun hf => absurd hf (by simp)⟩
  | passwordExtra sent n password hm ha hpw hv hmulti =>
    refine ⟨fun hn => absurd hn (huser (passwordVerdict_crypt hv).1), fun _ => ⟨?_, ?_, ?_⟩⟩
    · refine hp.pubkey.trans ?_
      simp [PubkeyChecked, AuthState.pwName]
    · exact ⟨fun _ => .inl (by simp [AuthState.pwName]), fun _ => rfl⟩
    · exact .inl hmulti.2
  | pubkey sent w hm hv hlast =>
    exact ⟨fun hn => absurd hn (huser (pubkeyVerdict_verified hv).1), fun hf => absurd hf (by simp)⟩
  | pubkeyExtra sent n w hm hv hmulti =>
    refine ⟨fun hn => absurd hn (huser (pubkeyVerdict_verified hv).1), fun _ => ⟨?_, ?_, ?_⟩⟩
    · exact ⟨fun _ => by simp [PubkeyChecked, AuthState.pwName], fun _ => rfl⟩
    · refine hp.password.trans ?_
      simp [PasswordChecked, AuthState.pwName]
    · exact .inr hmulti.2

/-- The state behind `checkusername`, for a request before authentication. -/
theorem FactorInv.behind_checkusername {u : Bytes} {v : Bool} (hI : FactorInv s)
    (hs : s.authdone = false) (h : Ps4Dropbear.checkusername H o s.sendBanner u = .ok (v, s')) :
    s'.authdone = false ∧ s'.authPubkey = s.authPubkey ∧ Pending s' ∧
      (s'.username = none → s'.log = [] ∧ v = false) := by
  have hp := hI.pending hs
  have hp' : Pending s.sendBanner := ⟨hp.pubkey, hp.password, hp.left⟩
  obtain ⟨hnone, hlog, hbit⟩ := checkusername_username h
  refine ⟨(checkusername_authdone h).trans hs, hbit,
    Pending.checkusername (s := s.sendBanner) hI.fresh hp' h, fun hn => ?_⟩
  refine ⟨hlog.trans (hI.fresh (hnone hn)), ?_⟩
  by_contra hv
  rw [Bool.not_eq_false] at hv
  subst hv
  rw [(checkusername_true h).1] at hn
  cases hn

theorem FactorInv.step (hI : FactorInv s) (h : (userauth H o sessionId).step s inp = some s') :
    FactorInv s' := by
  rw [userauth_step] at h
  cases hs : s.authdone with
  | true =>
    rw [recvMsgUserauthRequest_of_authdone hs] at h
    cases h
    exact hI
  | false =>
    obtain ⟨req, buf, v, s₁, -, hcheck, heff⟩ := recvMsgUserauthRequest_effect hs h
    obtain ⟨-, -, hp₁, hfresh₁⟩ := hI.behind_checkusername hs hcheck
    exact FactorInv.effect hfresh₁ hp₁ heff

/-- Both methods were there at the start, and one of them is still to come. -/
theorem Pending.not_both (hp : Pending s) : ¬ (PasswordChecked s ∧ PubkeyChecked s) := by
  rintro ⟨hpass, hpub⟩
  rcases hp.left with h | h
  · exact absurd ((hp.pubkey.2 hpub).symm.trans h) (by simp)
  · exact absurd ((hp.password.2 hpass).symm.trans h) (by simp)

/-- A request that does not skip a factor keeps the policy. -/
theorem MultiFactor.step (hmulti : o.multiauthmethod = true) (hI : FactorInv s)
    (hM : MultiFactor s) (hC : ¬ SkipsFactor H o s inp)
    (h : (userauth H o sessionId).step s inp = some s') : MultiFactor s' := by
  rw [userauth_step] at h
  cases hs : s.authdone with
  | true =>
    rw [recvMsgUserauthRequest_of_authdone hs] at h
    cases h
    exact hM
  | false =>
    obtain ⟨req, buf, v, s₁, hparse, hcheck, heff⟩ := recvMsgUserauthRequest_effect hs h
    obtain ⟨hs₁, hbit, hp₁, -⟩ := hI.behind_checkusername hs hcheck
    intro hdone
    cases heff with
    | refused => exact absurd (hs₁.symm.trans hdone) (by simp)
    | blankPassword sent hm hb =>
      exact absurd ⟨hs, req, buf, v, s₁, hparse, hcheck, .inl ⟨hm, hb⟩⟩ hC
    | ps4Default sent password hm ha hpw hv =>
      have hpub : s₁.authPubkey = false := by
        by_contra hne
        rw [Bool.not_eq_false] at hne
        exact hC ⟨hs, req, buf, v, s₁, hparse, hcheck,
          .inr ⟨hm, ha, hbit.symm.trans hne, password, hpw, hv⟩⟩
      exact ⟨.inr (by simp [AuthState.pwName]), List.mem_append_left _ (hp₁.pubkey.1 hpub)⟩
    | password sent password hm ha hpw hv hlast =>
      have hpub : s₁.authPubkey = false := by simpa [hmulti] using hlast
      exact ⟨.inl (by simp [AuthState.pwName]), List.mem_append_left _ (hp₁.pubkey.1 hpub)⟩
    | passwordExtra => exact absurd (hs₁.symm.trans hdone) (by simp)
    | pubkey sent w hm hv hlast =>
      have hpass : s₁.authPassword = false := by simpa [hmulti] using hlast
      refine ⟨?_, by simp [PubkeyChecked, AuthState.pwName]⟩
      exact (hp₁.password.1 hpass).imp (List.mem_append_left _) (List.mem_append_left _)
    | pubkeyExtra => exact absurd (hs₁.symm.trans hdone) (by simp)

/-- A request that skips a factor breaks the policy. -/
theorem SkipsFactor.step (hI : FactorInv s) (hC : SkipsFactor H o s inp)
    (h : (userauth H o sessionId).step s inp = some s') : ¬ MultiFactor s' := by
  rw [userauth_step] at h
  obtain ⟨hs, req, buf, v, s₁, hparse, hcheck, hskip⟩ := hC
  obtain ⟨hs₁, hbit, hp₁, -⟩ := hI.behind_checkusername hs hcheck
  rw [recvMsgUserauthRequest_eq hs hparse hcheck, userauthMethod] at h
  rcases hskip with ⟨hm, hb⟩ | ⟨hm, ha, hpub, password, ⟨b, b', hb, hb'⟩, hv⟩
  · rw [if_pos hm, if_pos hb] at h
    rw [sendMsgUserauthSuccess_ok h]
    intro hM
    refine hp₁.not_both ((hM rfl).imp ?_ ?_)
    · simp [PasswordChecked, AuthState.pwName]
    · simp [PubkeyChecked, AuthState.pwName]
  · have hne : req.methodname ≠ ascii "none" := by rw [hm]; decide
    rw [if_neg hne, if_pos ⟨ha, hm⟩, svrAuthPassword, hb, ok_bind] at h
    simp only [Bool.false_eq_true, if_false, hb', ok_bind, hv] at h
    rw [sendMsgUserauthSuccess_ok h]
    intro hM
    have hchecked : PubkeyChecked s₁ := by
      have := (hM rfl).2
      simpa [PubkeyChecked, AuthState.pwName] using this
    exact absurd ((hp₁.pubkey.2 hchecked).symm.trans (hbit.trans hpub)) (by simp)

/-- **When two factors are enforced.**  With `-t` and both methods enabled, a run ends in a state
that satisfies the policy iff none of its requests has skipped a factor. -/
theorem multiFactor_iff (H : Host) (o : SvrOpts) (sessionId : Bytes) (banner : Option Bytes)
    (hmulti : o.multiauthmethod = true) (hpass : o.noauthpass = false) (ls : List AuthInput)
    (s : AuthState) (h : (userauth H o sessionId).exec (svrAuthinitialise o banner) ls = some s) :
    MultiFactor s ↔
      (userauth H o sessionId).Along (fun s inp => ¬ SkipsFactor H o s inp)
        (svrAuthinitialise o banner) ls := by
  refine LTS.exec_iff_along (J := FactorInv) (P := MultiFactor) ?_ ?_
    (fun _ _ _ hJ hst => hJ.step hst) (fun _ _ _ hJ hM hC hst => hM.step hmulti hJ hC hst)
    (fun _ _ _ hJ _ hC hst => SkipsFactor.step hJ (not_not.1 hC) hst) ?_ h
  · refine ⟨fun _ => rfl, fun _ => ⟨?_, ?_, .inl rfl⟩⟩
    · simp [svrAuthinitialise, PubkeyChecked]
    · simp [svrAuthinitialise, PasswordChecked, hpass]
  · intro hdone
    cases hdone
  · intro u inp u' _ hM hst hM'
    -- the policy can only be broken after authentication, when nothing changes any more
    have hdone : u.authdone = true := by
      by_contra hne
      exact hM fun hd => absurd hd hne
    rw [userauth_step, recvMsgUserauthRequest_of_authdone hdone] at hst
    cases hst
    exact hM hM'

/-! ### One factor and two -/

/-- The options `-t`. -/
def twoFactors : SvrOpts := { multiauthmethod := true }

set_option maxRecDepth 8000 in
/-- The key and then the PS4 password: both factors. -/
theorem multiFactor_iff_keyLogin_rootLogin :
    ∃ s, (userauth (signingHost (List.replicate 32 7)) twoFactors []).exec
        (svrAuthinitialise twoFactors none) [keyLogin, rootLogin] = some s ∧
      s.authdone = true ∧
      (MultiFactor s ↔ (userauth (signingHost (List.replicate 32 7)) twoFactors []).Along
        (fun s inp => ¬ SkipsFactor (signingHost (List.replicate 32 7)) twoFactors s inp)
        (svrAuthinitialise twoFactors none) [keyLogin, rootLogin]) := by
  obtain ⟨s, hs, hdone⟩ := (Option.any_eq_true _ _).1 (show ((userauth (signingHost
    (List.replicate 32 7)) twoFactors []).exec (svrAuthinitialise twoFactors none)
    [keyLogin, rootLogin]).any (·.authdone) = true by decide)
  exact ⟨s, hs, hdone, multiFactor_iff _ _ _ none rfl rfl _ s hs⟩

/-- With `-t`, the PS4 password alone is enough. -/
theorem rootLogin_not_multiFactor :
    ∃ s, (userauth bareHost twoFactors []).exec (svrAuthinitialise twoFactors none)
        [rootLogin] = some s ∧ ¬ MultiFactor s := by
  obtain ⟨s, hs, htest⟩ := (Option.any_eq_true _ _).1 (show ((userauth bareHost twoFactors []).exec
    (svrAuthinitialise twoFactors none) [rootLogin]).any (fun s => s.authdone &&
      s.log == [.ps4DefaultUser (ascii "root")]) = true by decide)
  rw [Bool.and_eq_true, beq_iff_eq] at htest
  refine ⟨s, hs, ?_⟩
  intro hM
  have := (hM htest.1).2
  rw [PubkeyChecked, htest.2] at this
  simp at this

end Ps4Dropbear
