import Ps4Dropbear.Auth.Userauth

/-!
# Authentication is sound

When the dialogue ends in `authdone`, one of its requests was accepted for the one user of the
session, for one of three reasons: a blank password, the right password, or a signature by an
authorized key over the session id and the request (`Granted`).

The name of the session is the name of its first request and never changes.  A request with
another name ends the session, with two exceptions that the source makes on purpose: names longer
than `MAX_USERNAME_LEN` are refused before they are compared, and after authentication requests
are not looked at.

* `userauth_sound` : soundness, without `-t`.
-/

namespace Ps4Dropbear

variable {H : Host} {o : SvrOpts} {sessionId : Bytes} {inp : AuthInput} {s s' t : AuthState}

/-- The account of the state is that of its user name. -/
def AccountOfUser (H : Host) (s : AuthState) : Prop :=
  ∀ u, s.username = some u → s.pw = fillPasswd H u ∧ ∀ pw, s.pw = some pw → s.pwUid = pw.pwUid

theorem AccountOfUser.checkusername {u : Bytes} {v : Bool} (hs : AccountOfUser H s)
    (h : checkusername H o s u = .ok (v, s')) : AccountOfUser H s' := by
  rcases checkusername_ok h with ⟨-, -, rfl⟩ | ⟨-, hst | hst, -⟩
  · exact hs
  · rw [hst.2]
    intro w hw
    cases hw
    refine ⟨rfl, ?_⟩
    intro pw hpw
    have hfill : fillPasswd H u = some pw := hpw
    simp [AuthState.adopt, hfill]
  · rw [hst.2]
    exact hs

/-- The name and the account are those that `checkusername` leaves. -/
theorem RequestEffect.same_user {methodname : Bytes} {buf : Buffer} {v : Bool}
    (h : RequestEffect H o sessionId inp methodname buf v s s') :
    s'.username = s.username ∧ s'.pw = s.pw ∧ s'.pwUid = s.pwUid := by
  cases h <;> exact ⟨rfl, rfl, rfl⟩

theorem AccountOfUser.step (hs : AccountOfUser H s)
    (h : (userauth H o sessionId).step s inp = some s') : AccountOfUser H s' := by
  rw [userauth_step] at h
  cases hdone : s.authdone with
  | true =>
    rw [recvMsgUserauthRequest_of_authdone hdone] at h
    cases h
    exact hs
  | false =>
    obtain ⟨req, buf, v, s₁, -, hcheck, heff⟩ := recvMsgUserauthRequest_effect hdone h
    have h₁ : AccountOfUser H s₁ := AccountOfUser.checkusername (s := s.sendBanner) hs hcheck
    obtain ⟨hu, hpw, huid⟩ := heff.same_user
    intro u hu'
    rw [hpw, huid]
    exact h₁ u (hu ▸ hu')

/-- The name of a session never changes. -/
theorem username_step {u : Bytes} (hu : s.username = some u)
    (h : (userauth H o sessionId).step s inp = some s') : s'.username = some u := by
  rw [userauth_step] at h
  cases hdone : s.authdone with
  | true =>
    rw [recvMsgUserauthRequest_of_authdone hdone] at h
    cases h
    exact hu
  | false =>
    obtain ⟨req, buf, v, s₁, -, hcheck, heff⟩ := recvMsgUserauthRequest_effect hdone h
    rw [heff.same_user.1]
    rcases checkusername_ok hcheck with ⟨-, -, rfl⟩ | ⟨-, ⟨hnone, -⟩ | ⟨-, hst⟩, -⟩
    · exact hu
    · exact absurd (hnone.symm.trans hu) (by simp)
    · rw [hst]
      exact hu

/-- After authentication the state stays as it is. -/
theorem exec_of_authdone {ls : List AuthInput} (hdone : s.authdone = true)
    (h : (userauth H o sessionId).exec s ls = some t) : t = s := by
  refine LTS.exec_invariant' (I := fun x => x = s) rfl (fun x inp x' hx hst => ?_) h
  subst hx
  rw [userauth_step, recvMsgUserauthRequest_of_authdone hdone] at hst
  exact (Except.ok.inj hst).symm

/-! ### Reasons for acceptance -/

theorem passwordVerdict_ps4Default {v : Bool} {password : Bytes}
    (h : passwordVerdict H s v password = .ps4Default) :
    v = true ∧ ∃ pw, s.pw = some pw ∧ pw.pwName = ascii "root" ∧ password = ascii "root" := by
  unfold passwordVerdict at h
  split at h
  · cases h
  · next pw hpw =>
    split at h
    · next hroot => exact ⟨hroot.1, pw, hpw, hroot.2⟩
    · split at h
      · cases h
      · split at h
        · cases h
        · split_ifs at h

theorem passwordVerdict_crypt {v : Bool} {password : Bytes}
    (h : passwordVerdict H s v password = .crypt) :
    v = true ∧ ∃ pw, s.pw = some pw ∧ password.length ≤ dropbearMaxPasswordLen ∧
      pw.pwPasswd ≠ [] ∧ H.crypt (cstr password) pw.pwPasswd = some pw.pwPasswd := by
  unfold passwordVerdict at h
  split at h
  · cases h
  · next pw hpw =>
    split at h
    · cases h
    · split at h
      · cases h
      · next hbad =>
        rw [not_or, not_not, Nat.not_lt] at hbad
        split at h
        · cases h
        · next c hc =>
          split_ifs at h with hblank heq
          exact ⟨hbad.1, pw, hpw, hbad.2, hblank, heq ▸ hc⟩

/-- The request carries a signature by the key `keyblob` of the signature type `sigtype`: the
flag, the algorithm and the blob in front of the position of `start`. -/
def CarriesKey (buf : Buffer) (sigtype : SignatureType) (keyblob : Bytes) (start : Buffer) :
    Prop :=
  ∃ sigalgo b b', bufGetbool buf = .ok (true, b) ∧ bufGetstring b = .ok (sigalgo, b') ∧
    signatureTypeFromName sigalgo = some sigtype ∧
    bufGetint b' = .ok (keyblob.length, start) ∧ bufGetptr start keyblob.length = .ok keyblob

/-- **What a verified signature means**: the file accepts the blob, the key read from the blob's
position accepts the signature, and the signed data is the session id followed by the payload up
to the signature. -/
theorem pubkeyVerdict_verified {buf : Buffer} {v : Bool} {w : VerifiedKey}
    (h : pubkeyVerdict H sessionId inp buf v = .ok (.verified w)) :
    v = true ∧ CarriesKey buf w.sigtype w.keyblob w.start ∧
    checkpubkey (signkeyNameFromType (signkeyTypeFromSignature w.sigtype)) w.keyblob inp.authfile =
      .ok (some w.options) ∧
    bufGetPubKey w.start (some (signkeyTypeFromSignature w.sigtype)) =
      .ok (some w.key, w.stop) ∧
    w.signed = sshString sessionId ++
      (w.stop.contents.take w.stop.pos).drop inp.payload.beginning ∧
    bufVerify H w.stop w.key (skFlagsMask w.options) w.sigtype w.signed = .ok true := by
  simp only [pubkeyVerdict, bind_eq_ok, Prod.exists] at h
  obtain ⟨flag, b, hflag, sigalgo, b', hsig, n, start, hn, blob, hblob, h⟩ := h
  have hlen : blob.length = n := (bufGetptr_ok.1 hblob).1
  subst hlen
  cases v with
  | false => simp at h
  | true =>
    simp only [not_true_eq_false, if_false] at h
    cases hty : signatureTypeFromName sigalgo with
    | none => simp [hty] at h
    | some sigtype =>
      simp only [hty, bind_eq_ok] at h
      obtain ⟨opts, hopts, h⟩ := h
      cases opts with
      | none => simp at h
      | some options =>
        cases flag with
        | false => simp at h
        | true =>
          simp only [Bool.not_true, Bool.false_eq_true, if_false, bind_eq_ok, Prod.exists] at h
          obtain ⟨key, stop, hkey, h⟩ := h
          cases key with
          | none => simp at h
          | some key =>
            simp only [bind_eq_ok] at h
            obtain ⟨signed, hsigned, ok, hok, h⟩ := h
            cases ok with
            | false => simp at h
            | true =>
              simp only [if_true, pure_eq_ok, PubkeyVerdict.verified.injEq] at h
              subst h
              exact ⟨rfl, ⟨sigalgo, b, b', hflag, hsig, hty, hn, hblob⟩, hopts, hkey,
                signData_eq hsigned, hok⟩

/-- The reasons for which a request with the given name and method is accepted. -/
inductive Granted (H : Host) (o : SvrOpts) (sessionId : Bytes) (inp : AuthInput)
    (req : UserauthRequest) (buf : Buffer) (pw : Passwd) : Prop
  /-- A `none` request for an account whose stored password is empty. -/
  | blankPassword (method : req.methodname = ascii "none") (allowed : o.allowblankpass)
      (enabled : ¬ o.noauthpass ∧ ¬ (o.norootpass ∧ pw.pwUid = 0)) (empty : pw.pwPasswd = [])
  /-- The name and the password of the PS4 account. -/
  | ps4Default (method : req.methodname = ascii "password")
      (enabled : ¬ o.noauthpass ∧ ¬ (o.norootpass ∧ pw.pwUid = 0))
      (user : req.username = ascii "root") (password : CarriesPassword buf (ascii "root"))
  /-- A password whose crypt value is the stored one. -/
  | password (method : req.methodname = ascii "password")
      (enabled : ¬ o.noauthpass ∧ ¬ (o.norootpass ∧ pw.pwUid = 0))
      (password : Bytes) (carries : CarriesPassword buf password)
      (short : password.length ≤ dropbearMaxPasswordLen) (nonempty : pw.pwPasswd ≠ [])
      (matches_ : H.crypt (cstr password) pw.pwPasswd = some pw.pwPasswd)
  /-- A signature by an authorized key. -/
  | pubkey (method : req.methodname = ascii "publickey")
      (sigtype : SignatureType) (keyblob : Bytes) (start stop : Buffer) (key : SignKey)
      (options : PubKeyOptions) (carries : CarriesKey buf sigtype keyblob start)
      (authorized : checkpubkey (signkeyNameFromType (signkeyTypeFromSignature sigtype)) keyblob
        inp.authfile = .ok (some options))
      (parsed : bufGetPubKey start (some (signkeyTypeFromSignature sigtype)) =
        .ok (some key, stop))
      (verified : bufVerify H stop key (skFlagsMask options) sigtype
        (sshString sessionId ++ (stop.contents.take stop.pos).drop inp.payload.beginning) =
          .ok true)

theorem passwordAllowed_iff :
    passwordAllowed o s = true ↔ ¬ o.noauthpass ∧ ¬ (o.norootpass ∧ s.pwUid = 0) := by
  cases hs : o.noauthpass <;> cases hg : o.norootpass <;> simp [passwordAllowed, hs, hg]

/-- A request that completes authentication is for a valid user. -/
theorem RequestEffect.valid_of_authdone {methodname : Bytes} {buf : Buffer} {v : Bool}
    (h : RequestEffect H o sessionId inp methodname buf v s s') (hs : s.authdone = false)
    (hdone : s'.authdone = true) : v = true := by
  cases h with
  | refused => exact absurd (hs.symm.trans hdone) (by simp)
  | blankPassword sent hm hb =>
    simp only [blankAccepted, Bool.and_eq_true] at hb
    exact hb.1.1.1
  | ps4Default sent password hm ha hp hv => exact (passwordVerdict_ps4Default hv).1
  | password sent password hm ha hp hv hlast => exact (passwordVerdict_crypt hv).1
  | passwordExtra => exact absurd (hs.symm.trans hdone) (by simp)
  | pubkey sent w hm hv hlast => exact (pubkeyVerdict_verified hv).1
  | pubkeyExtra => exact absurd (hs.symm.trans hdone) (by simp)

/-- A request that completes authentication is accepted for one of the reasons. -/
theorem RequestEffect.granted {req : UserauthRequest} {buf : Buffer} {v : Bool}
    (h : RequestEffect H o sessionId inp req.methodname buf v s s') (hs : s.authdone = false)
    (hdone : s'.authdone = true) (hacc : AccountOfUser H s) (hu : s.username = some req.username) :
    ∀ pw, fillPasswd H req.username = some pw → Granted H o sessionId inp req buf pw := by
  intro pw hfill
  obtain ⟨hpw, huid⟩ := hacc _ hu
  have hsome : s.pw = some pw := hpw.trans hfill
  have huid' := huid pw hsome
  cases h with
  | refused => exact absurd (hs.symm.trans hdone) (by simp)
  | blankPassword sent hm hb =>
    simp only [blankAccepted, Bool.and_eq_true, Option.any_eq_true, decide_eq_true_eq] at hb
    obtain ⟨⟨⟨-, hallow⟩, hen⟩, pw', hpw', hempty⟩ := hb
    cases hsome.symm.trans hpw'
    rw [passwordAllowed_iff, huid'] at hen
    exact .blankPassword hm hallow hen hempty
  | ps4Default sent password hm ha hp hv =>
    obtain ⟨-, pw', hpw', hname, rfl⟩ := passwordVerdict_ps4Default hv
    cases hsome.symm.trans hpw'
    rw [passwordAllowed_iff, huid'] at ha
    exact .ps4Default hm ha (fillPasswd_name hfill ▸ hname) hp
  | password sent password hm ha hp hv hlast =>
    obtain ⟨-, pw', hpw', hlen, hne, hcrypt⟩ := passwordVerdict_crypt hv
    cases hsome.symm.trans hpw'
    rw [passwordAllowed_iff, huid'] at ha
    exact .password hm ha password hp hlen hne hcrypt
  | passwordExtra => exact absurd (hs.symm.trans hdone) (by simp)
  | pubkey sent w hm hv hlast =>
    obtain ⟨-, hcarries, hauth, hkey, hsigned, hok⟩ := pubkeyVerdict_verified hv
    rw [hsigned] at hok
    exact .pubkey hm w.sigtype w.keyblob w.start w.stop w.key w.options hcarries hauth hkey hok
  | pubkeyExtra => exact absurd (hs.symm.trans hdone) (by simp)

theorem checkusername_authdone {u : Bytes} {v : Bool} (h : checkusername H o s u = .ok (v, s')) :
    s'.authdone = s.authdone := by
  rcases checkusername_ok h with ⟨-, -, rfl⟩ | ⟨-, ⟨-, hst⟩ | ⟨-, hst⟩, -⟩
  · rfl
  · rw [hst]; rfl
  · rw [hst]

/-! ### Runs -/

/-- One accepted request explains the end of the dialogue. -/
theorem exec_authdone {s₀ : AuthState} {ls : List AuthInput} (h₀ : s₀.authdone = false)
    (hacc : AccountOfUser H s₀) (h : (userauth H o sessionId).exec s₀ ls = some s)
    (hdone : s.authdone = true) :
    ∃ pre inp post t req buf t₁ pw, ls = pre ++ inp :: post ∧
      (userauth H o sessionId).exec s₀ pre = some t ∧
      parseUserauthRequest inp.payload.buf = .ok (req, buf) ∧
      checkusername H o t.sendBanner req.username = .ok (true, t₁) ∧
      s.username = some req.username ∧ fillPasswd H req.username = some pw ∧
      Granted H o sessionId inp req buf pw := by
  obtain ⟨pre, inp, post, t, t', rfl, hpre, ht, hstep, ht', hpost⟩ :=
    LTS.exec_turning_point (P := fun s : AuthState => s.authdone = true) (by simp [h₀]) hdone h
  cases exec_of_authdone ht' hpost
  have ht : t.authdone = false := by simpa using ht
  obtain ⟨req, buf, v, t₁, hparse, hcheck, heff⟩ :=
    recvMsgUserauthRequest_effect ht (userauth_step.1 hstep)
  have ht₁ : t₁.authdone = false := by rw [checkusername_authdone hcheck]; exact ht
  have hv := heff.valid_of_authdone ht₁ ht'
  subst hv
  obtain ⟨hu, pw, hpw, -⟩ := checkusername_true hcheck
  have hacc_t : AccountOfUser H t :=
    LTS.exec_invariant' hacc (fun _ _ _ hI hst => hI.step hst) hpre
  have hacc₁ : AccountOfUser H t₁ := AccountOfUser.checkusername (s := t.sendBanner) hacc_t hcheck
  have hfill : fillPasswd H req.username = some pw := (hacc₁ _ hu).1 ▸ hpw
  exact ⟨pre, inp, post, t, req, buf, t₁, pw, rfl, hpre, hparse, hcheck,
    heff.same_user.1.trans hu, hfill, heff.granted ht₁ ht' hacc₁ hu pw hfill⟩

/-- Before authentication, another name of acceptable length ends the session. -/
theorem step_other_username {req : UserauthRequest} {buf : Buffer} {u : Bytes}
    (hu : s.username = some u) (hdone : s.authdone = false)
    (hparse : parseUserauthRequest inp.payload.buf = .ok (req, buf)) (hne : req.username ≠ u)
    (hlen : req.username.length ≤ maxUsernameLen) :
    (userauth H o sessionId).step s inp = none := by
  refine Option.eq_none_iff_forall_ne_some.2 fun s' hst => ?_
  obtain ⟨req', buf', v, s₁, hparse', hcheck, -⟩ :=
    recvMsgUserauthRequest_effect hdone (userauth_step.1 hst)
  cases hparse.symm.trans hparse'
  rcases checkusername_ok hcheck with ⟨hlong, -⟩ | ⟨-, ⟨hnone, -⟩ | ⟨hsame, -⟩, -⟩
  · omega
  · exact absurd (hnone.symm.trans hu) (by simp)
  · exact hne (Option.some.inj (hsame.symm.trans hu))

/-- A name that is too long is refused and leaves the user of the session as it is. -/
theorem step_long_username {req : UserauthRequest} {buf : Buffer} (hdone : s.authdone = false)
    (hparse : parseUserauthRequest inp.payload.buf = .ok (req, buf))
    (hlen : maxUsernameLen < req.username.length)
    (hst : (userauth H o sessionId).step s inp = some s') :
    s'.authdone = false ∧ s'.username = s.username := by
  obtain ⟨req', buf', v, s₁, hparse', hcheck, heff⟩ :=
    recvMsgUserauthRequest_effect hdone (userauth_step.1 hst)
  cases hparse.symm.trans hparse'
  rcases checkusername_ok hcheck with ⟨-, rfl, rfl⟩ | ⟨hle, -⟩
  · refine ⟨?_, heff.same_user.1⟩
    by_contra hne
    have := heff.valid_of_authdone (s := s.sendBanner) hdone (by simpa using hne)
    simp at this
  · omega

/-- **Authentication is sound.**  In every run of the dialogue: `authdone` comes from one request
with the name of the session, that `checkusername` accepted and that was granted for one of the
reasons; the name of the session never changes; before authentication another name ends the
session, unless it is too long to be compared, in which case it is refused; afterwards requests
are ignored. -/
theorem userauth_sound (H : Host) (o : SvrOpts) (sessionId : Bytes) (banner : Option Bytes)
    (ls : List AuthInput) (s : AuthState)
    (h : (userauth H o sessionId).exec (svrAuthinitialise o banner) ls = some s) :
    (s.authdone = true →
      ∃ pre inp post t req buf t₁ pw, ls = pre ++ inp :: post ∧
        (userauth H o sessionId).exec (svrAuthinitialise o banner) pre = some t ∧
        parseUserauthRequest inp.payload.buf = .ok (req, buf) ∧
        checkusername H o t.sendBanner req.username = .ok (true, t₁) ∧
        s.username = some req.username ∧ fillPasswd H req.username = some pw ∧
        Granted H o sessionId inp req buf pw) ∧
    (∀ pre post t u, ls = pre ++ post →
      (userauth H o sessionId).exec (svrAuthinitialise o banner) pre = some t →
      t.username = some u → s.username = some u) ∧
    (∀ inp req buf u, s.username = some u → s.authdone = false →
      parseUserauthRequest inp.payload.buf = .ok (req, buf) → req.username ≠ u →
      req.username.length ≤ maxUsernameLen → (userauth H o sessionId).step s inp = none) ∧
    (∀ inp req buf s', s.authdone = false →
      parseUserauthRequest inp.payload.buf = .ok (req, buf) →
      maxUsernameLen < req.username.length → (userauth H o sessionId).step s inp = some s' →
      s'.authdone = false ∧ s'.username = s.username) ∧
    (s.authdone = true → ∀ inp, (userauth H o sessionId).step s inp = some s) := by
  refine ⟨fun hdone => ?_, fun pre post t u hls hpre hu => ?_,
    fun inp req buf u hu hdone hp hne hl => step_other_username hu hdone hp hne hl,
    fun inp req buf s' hdone hp hl hst =>
    step_long_username hdone hp hl hst, fun hdone inp => ?_⟩
  · exact exec_authdone rfl (fun u hu => by cases hu) h hdone
  · subst hls
    obtain ⟨t', ht', hpost⟩ := LTS.exec_append_eq_some.1 h
    cases hpre.symm.trans ht'
    exact LTS.exec_invariant' (I := fun x : AuthState => x.username = some u) hu
      (fun _ _ _ hI hst => username_step hI hst) hpost
  · rw [userauth_step]
    exact recvMsgUserauthRequest_of_authdone hdone

/-! ### Sample requests -/

/-- `SSH_MSG_USERAUTH_REQUEST` and its fields. -/
def Payload.ofFields (body : Bytes) (h : (50 :: body).length ≤ bufMaxSize) : Payload where
  buf := (Buffer.ofBytes (50 :: body) h).advance 1
  beginning := 0
  beginning_le := Nat.zero_le _

/-- A system without accounts, whose primitives accept nothing. -/
def bareHost : Host where
  getpwnam _ := none
  getpwnam_name _ _ h := by cases h
  crypt _ _ := none
  geteuid := 0
  checkGroupMembership _ _ _ := false
  usershells := []
  switchUser _ := .ok ()
  bufRsaVerify _ _ _ _ := .ok false
  bufEd25519Verify _ _ _ := .ok false
  bufSkEd25519Verify _ _ _ _ _ := .ok false

theorem rootLogin_fits : (50 :: (encodeFields [ascii "root", ascii "ssh-connection",
    ascii "password"] ++ [0] ++ sshString (ascii "root"))).length ≤ bufMaxSize := by
  decide

/-- A `password` request for `root` with the password `root`. -/
def rootLogin : AuthInput where
  payload := Payload.ofFields (encodeFields [ascii "root", ascii "ssh-connection",
    ascii "password"] ++ [0] ++ sshString (ascii "root")) rootLogin_fits
  authfile := none

theorem rootNone_fits : (50 :: encodeFields [ascii "root", ascii "ssh-connection",
    ascii "none"]).length ≤ bufMaxSize := by
  decide

/-- A `none` request for `root`. -/
def rootNone : AuthInput where
  payload := Payload.ofFields (encodeFields [ascii "root", ascii "ssh-connection",
    ascii "none"]) rootNone_fits
  authfile := none

/-- A `none` request for a name of 101 bytes. -/
def longNameNone : AuthInput where
  payload := Payload.ofFields (encodeFields [List.replicate 101 97, ascii "ssh-connection",
    ascii "none"]) (by decide +kernel)
  authfile := none

/-- The run of one `root` login reaches `authdone`, for the reason the theorem gives. -/
theorem userauth_sound_rootLogin :
    ∃ s, (userauth bareHost {} []).exec (svrAuthinitialise {} none) [rootLogin] = some s ∧
      s.authdone = true ∧
      ∃ pre inp post t req buf t₁ pw, [rootLogin] = pre ++ inp :: post ∧
        (userauth bareHost {} []).exec (svrAuthinitialise {} none) pre = some t ∧
        parseUserauthRequest inp.payload.buf = .ok (req, buf) ∧
        checkusername bareHost {} t.sendBanner req.username = .ok (true, t₁) ∧
        s.username = some req.username ∧ fillPasswd bareHost req.username = some pw ∧
        Granted bareHost {} [] inp req buf pw := by
  obtain ⟨s, hs⟩ : ∃ s, (userauth bareHost {} []).exec (svrAuthinitialise {} none) [rootLogin] =
      some s := Option.isSome_iff_exists.1 (by decide)
  have hdone : s.authdone = true := by
    have : ((userauth bareHost {} []).exec (svrAuthinitialise {} none) [rootLogin]).all
        (·.authdone) = true := by decide
    rw [hs] at this
    exact this
  exact ⟨s, hs, hdone, (userauth_sound bareHost {} [] none [rootLogin] s hs).1 hdone⟩

/-- Another name does not always end the session: after a request for `root`, one for a name of
101 bytes is answered and the session goes on. -/
theorem other_username_not_always_fatal :
    ¬ ∀ (H : Host) (o : SvrOpts) (sessionId : Bytes) (ls : List AuthInput) (t : AuthState)
      (inp : AuthInput) (req : UserauthRequest) (buf : Buffer) (u : Bytes),
      (userauth H o sessionId).exec (svrAuthinitialise o none) ls = some t →
      t.username = some u → parseUserauthRequest inp.payload.buf = .ok (req, buf) →
      req.username ≠ u → (userauth H o sessionId).step t inp = none := by
  intro h
  obtain ⟨t, ht⟩ : ∃ t, (userauth bareHost {} []).exec (svrAuthinitialise {} none) [rootNone] =
      some t := Option.isSome_iff_exists.1 (by decide)
  have htu : t.username = some (ascii "root") := by
    have : ((userauth bareHost {} []).exec (svrAuthinitialise {} none) [rootNone]).map
        (·.username) = some (some (ascii "root")) := by decide
    rw [ht] at this
    exact Option.some.inj this
  obtain ⟨⟨req, buf⟩, hparse⟩ : ∃ p, parseUserauthRequest longNameNone.payload.buf = .ok p :=
    ⟨_, rfl⟩
  have hreq : req.username = List.replicate 101 97 := by
    have : (parseUserauthRequest longNameNone.payload.buf).toOption.map (·.1.username) =
        some (List.replicate 101 97) := by decide
    rw [hparse] at this
    exact Option.some.inj this
  have hnone := h bareHost {} [] [rootNone] t longNameNone req buf (ascii "root") ht htu hparse
    (by rw [hreq]; decide)
  have hsome : ((userauth bareHost {} []).exec (svrAuthinitialise {} none)
      [rootNone, longNameNone]).isSome = true := by decide
  rw [show [rootNone, longNameNone] = [rootNone] ++ [longNameNone] from rfl, LTS.exec_append, ht,
    Option.bind_some, LTS.exec_cons, hnone] at hsome
  simp at hsome

end Ps4Dropbear
