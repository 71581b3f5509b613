import Ps4Dropbear.Auth.Soundness

/-!
# Probing for accounts with public keys

What a client can learn from `publickey` requests whose keys nobody has authorised.  The replies,
the delay of a failure and the end of the session are its observations (`Reaction`); a failure is
delayed exactly when it is counted.

For a user that does not exist, every request is answered by a failure that is not counted; for a
user that exists, only the first `free_query_limit` are.

* `recvMsgUserauthRequest_invalid` : a request of a user that does not exist.
* `recvMsgUserauthRequest_free`, `recvMsgUserauthRequest_seen` : one of a user that does.
* `probing_same_iff` : the sequences of requests that do not tell the two apart.
-/

namespace Ps4Dropbear

/-- What a client sees of one request. -/
inductive Reaction
  /-- Messages, and whether they come with the delay of a counted failure. -/
  | reply (replies : List AuthReply) (delayed : Bool)
  | closed
  deriving DecidableEq, Repr

/-- What a client sees of its requests, up to the end of the session. -/
def reactions (H : Host) (o : SvrOpts) (sessionId : Bytes) :
    AuthState → List AuthInput → List Reaction
  | _, [] => []
  | s, inp :: inps =>
    match recvMsgUserauthRequest H o sessionId s inp with
    | .error _ => [.closed]
    | .ok s' =>
      .reply (s'.sent.drop s.sent.length) (s.failcount < s'.failcount) ::
        reactions H o sessionId s' inps

/-- `checkusername` accepts the name in the first request of a session. -/
def ValidUser (H : Host) (o : SvrOpts) (u : Bytes) : Prop :=
  ∃ s, checkusername H o (svrAuthinitialise o none) u = .ok (true, s)

/-- `checkusername` refuses the name in the first request of a session.  (A name with a null byte is
not refused, it ends the session.) -/
def InvalidUser (H : Host) (o : SvrOpts) (u : Bytes) : Prop :=
  ∃ s, checkusername H o (svrAuthinitialise o none) u = .ok (false, s)

/-! ### The fields of a request -/

/-- The fields that `svr_auth_pubkey` reads before it looks at the user: the signature type and the
blob. -/
def keyFields (buf : Buffer) : Except Exit (Bytes × Bytes) := do
  let (_, buf) ← bufGetbool buf
  let (sigalgo, buf) ← bufGetstring buf
  let (keybloblen, buf) ← bufGetint buf
  let keyblob ← bufGetptr buf keybloblen
  return (sigalgo, keyblob)

theorem keyFields_ok {buf : Buffer} {sigalgo keyblob : Bytes} :
    keyFields buf = .ok (sigalgo, keyblob) ↔
      sigalgo.length ≤ maxStringLen ∧ keyblob.length < 2 ^ 32 ∧
        ∃ w r, buf.rest = w :: (sshString sigalgo ++ (sshString keyblob ++ r)) := by
  simp only [keyFields, bind_eq_ok, Prod.exists, bufGetbool_ok, bufGetstring_ok, bufGetint_ok,
    bufGetptr_ok, pure_eq_ok, Prod.mk.injEq]
  constructor
  · rintro ⟨-, -, ⟨w, -, ⟨r₀, hr₀⟩, rfl⟩, a, -, ⟨⟨ha, r₁, hr₁⟩, rfl⟩, n, -, ⟨⟨hn, r₂, hr₂⟩, rfl⟩,
      p, ⟨rfl, r₃, hr₃⟩, rfl, rfl⟩
    refine ⟨ha, hn, w, r₃, ?_⟩
    have h₁ : r₀ = sshString a ++ r₁ := by
      rw [← hr₁, Buffer.rest_advance, hr₀, List.drop_one, List.tail_cons]
    have h₂ : r₁ = store32h p.length ++ r₂ := by
      rw [← hr₂, ← length_sshString, Buffer.rest_advance_of_append hr₁]
    have h₃ : r₂ = p ++ r₃ := (Buffer.rest_advance_of_append hr₂).symm.trans hr₃
    rw [hr₀, h₁, h₂, h₃]
    simp only [sshString, List.append_assoc]
  · rintro ⟨ha, hn, w, r, hr⟩
    have h₁ : (buf.advance 1).rest = sshString sigalgo ++ (sshString keyblob ++ r) := by
      rw [Buffer.rest_advance, hr, List.drop_one, List.tail_cons]
    have h₂ : ((buf.advance 1).advance (4 + sigalgo.length)).rest =
        store32h keyblob.length ++ (keyblob ++ r) := by
      rw [← length_sshString, Buffer.rest_advance_of_append h₁, sshString, List.append_assoc]
    have h₃ : (((buf.advance 1).advance (4 + sigalgo.length)).advance 4).rest = keyblob ++ r :=
      Buffer.rest_advance_of_append h₂
    exact ⟨_, _, ⟨w, rfl, ⟨_, hr⟩, rfl⟩, sigalgo, _, ⟨⟨ha, _, h₁⟩, rfl⟩, keyblob.length, _,
      ⟨⟨hn, _, h₂⟩, rfl⟩, keyblob, ⟨rfl, _, h₃⟩, rfl, rfl⟩

/-- The fields depend only on the bytes that are left. -/
theorem keyFields_congr {buf buf' : Buffer} (h : buf'.rest = buf.rest) :
    (keyFields buf').toOption = (keyFields buf).toOption := by
  have hiff : ∀ x, keyFields buf' = .ok x ↔ keyFields buf = .ok x := by
    rintro ⟨sigalgo, keyblob⟩
    rw [keyFields_ok, keyFields_ok, h]
  cases hk : keyFields buf with
  | ok x => rw [(hiff x).2 hk]
  | error e =>
    cases hk' : keyFields buf' with
    | ok x => rw [(hiff x).1 hk'] at hk; cases hk
    | error e' => rfl

/-- A key that is looked up: the name of its type, the blob, and the file. -/
structure KeyQuery where
  keyalgo : Bytes
  keyblob : Bytes
  authfile : Option AuthFile
  deriving DecidableEq, Repr

/-- `checkpubkey` on the query. -/
def KeyQuery.check (q : KeyQuery) : Except Exit (Option PubKeyOptions) :=
  checkpubkey q.keyalgo q.keyblob q.authfile

/-- The key is authorised by the file. -/
def KeyQuery.Authorised (q : KeyQuery) : Prop := ∃ options, q.check = .ok (some options)

/-- What a `publickey` request asks for: `none` if its fields cannot be read, and no key for a
signature type that does not exist. -/
def queried (inp : AuthInput) : Option (Option KeyQuery) :=
  match parseUserauthRequest inp.payload.buf with
  | .error _ => none
  | .ok (_, buf) =>
    (keyFields buf).toOption.map fun f =>
      (signatureTypeFromName f.1).map fun sigtype =>
        ⟨signkeyNameFromType (signkeyTypeFromSignature sigtype), f.2, inp.authfile⟩

/-- The keys that the requests of a valid user ask for, up to a request that cannot be read. -/
def lookedUp : List AuthInput → List KeyQuery
  | [] => []
  | inp :: inps =>
    match queried inp with
    | none => []
    | some none => lookedUp inps
    | some (some q) => q :: lookedUp inps

/-- The same `publickey` request of two users. -/
def SameButName (u v : Bytes) (inp inp' : AuthInput) : Prop :=
  ∃ buf buf', parseUserauthRequest inp.payload.buf = .ok (⟨u, ascii "publickey"⟩, buf) ∧
    parseUserauthRequest inp'.payload.buf = .ok (⟨v, ascii "publickey"⟩, buf') ∧
    buf'.rest = buf.rest

/-! ### The verdict on a request -/

section Verdict

variable {H : Host} {o : SvrOpts} {sessionId : Bytes} {inp : AuthInput} {buf : Buffer}

/-- There is no verdict without the fields. -/
theorem keyFields_of_pubkeyVerdict {verdict : PubkeyVerdict} {validUser : Bool}
    (h : pubkeyVerdict H sessionId inp buf validUser = .ok verdict) :
    ∃ f, keyFields buf = .ok f := by
  simp only [pubkeyVerdict, bind_eq_ok, Prod.exists] at h
  obtain ⟨b, buf₁, hb, sigalgo, buf₂, hs, n, buf₃, hi, keyblob, hp, -⟩ := h
  refine ⟨(sigalgo, keyblob), ?_⟩
  simp only [keyFields, hb, hs, hi, hp, ok_bind]
  rfl

variable (H sessionId inp) in
/-- The verdict behind the fields: an invalid user and an unknown type are refused, and then the
key is looked up. -/
theorem pubkeyVerdict_of_keyFields {sigalgo keyblob : Bytes}
    (hk : keyFields buf = .ok (sigalgo, keyblob)) :
    pubkeyVerdict H sessionId inp buf false = .ok .refused ∧
    (signatureTypeFromName sigalgo = none →
      pubkeyVerdict H sessionId inp buf true = .ok .refused) ∧
    ∀ sigtype, signatureTypeFromName sigalgo = some sigtype →
      (∀ e, checkpubkey (signkeyNameFromType (signkeyTypeFromSignature sigtype)) keyblob
          inp.authfile = .error e → pubkeyVerdict H sessionId inp buf true = .error e) ∧
      (checkpubkey (signkeyNameFromType (signkeyTypeFromSignature sigtype)) keyblob
          inp.authfile = .ok none → pubkeyVerdict H sessionId inp buf true = .ok .unauthorised) := by
  simp only [keyFields, bind_eq_ok, Prod.exists, pure_eq_ok, Prod.mk.injEq] at hk
  obtain ⟨b, buf₁, hb, a, buf₂, hs, n, buf₃, hi, p, hp, rfl, rfl⟩ := hk
  refine ⟨?_, ?_, ?_⟩
  · simp only [pubkeyVerdict, hb, hs, hi, hp, ok_bind]
    rfl
  · intro hnone
    simp only [pubkeyVerdict, hb, hs, hi, hp, ok_bind, hnone]
    rfl
  · intro sigtype hsome
    constructor
    · intro e he
      simp only [pubkeyVerdict, hb, hs, hi, hp, ok_bind, hsome, he]
      rfl
    · intro hn
      simp only [pubkeyVerdict, hb, hs, hi, hp, ok_bind, hsome, hn]
      rfl

end Verdict

/-! ### The user name -/

section Names

variable {H : Host} {o : SvrOpts} {u : Bytes} {s : AuthState}

theorem checkAccount_some {pw : Passwd} (hf : s.checkusernameFailed = false)
    (hpw : s.pw = some pw) :
    checkAccount H o s = if accountAllowed H o pw then (true, s)
      else (false, { s with checkusernameFailed := true }) := by
  unfold checkAccount
  rw [if_neg (by simp [hf])]
  split
  · next hnone =>
    rw [hpw] at hnone
    cases hnone
  · next pw' hpw' =>
    rw [hpw] at hpw'
    cases hpw'
    rfl

theorem ValidUser.spec (hu : ValidUser H o u) :
    u.length ≤ maxUsernameLen ∧ (cstr u).length = u.length ∧
      ∃ pw, fillPasswd H u = some pw ∧ accountAllowed H o pw = true := by
  obtain ⟨s, hs⟩ := hu
  simp only [checkusername] at hs
  split_ifs at hs with hlen hnul
  · simp at hs
  · simp at hs
  · refine ⟨Nat.le_of_not_lt hlen, not_not.1 hnul, ?_⟩
    obtain ⟨-, hpw⟩ := checkAccount_eq (Except.ok.inj hs)
    obtain ⟨pw, hpw, hal⟩ := hpw rfl
    rw [(checkAccount_eq (Except.ok.inj hs)).1] at hpw
    exact ⟨pw, hpw, hal⟩

theorem InvalidUser.spec (hu : InvalidUser H o u) :
    maxUsernameLen < u.length ∨ u.length ≤ maxUsernameLen ∧ (cstr u).length = u.length ∧
      ∀ pw, fillPasswd H u = some pw → accountAllowed H o pw = false := by
  obtain ⟨s, hs⟩ := hu
  simp only [checkusername] at hs
  split_ifs at hs with hlen hnul
  · exact .inl hlen
  · simp at hs
  · refine .inr ⟨Nat.le_of_not_lt hlen, not_not.1 hnul, fun pw hpw => ?_⟩
    have hacc := Except.ok.inj hs
    rw [checkAccount_some rfl (show ((svrAuthinitialise o none).adopt H u).pw = some pw from hpw)]
      at hacc
    split_ifs at hacc with hal
    · simp at hacc
    · simpa using hal

/-- A session in which no failure has been counted: the keys that were looked up, and the banner
that is still to be sent. -/
structure Untried (o : SvrOpts) (queries : ℕ) (banner : Option Bytes) (s : AuthState) : Prop where
  queries : s.servPubkeyQueryCount = queries
  failcount : s.failcount = 0
  authdone : s.authdone = false
  methods : authMethods s = authMethods (svrAuthinitialise o none)
  banner : s.banner = banner

theorem Untried.init (o : SvrOpts) (banner : Option Bytes) :
    Untried o 0 banner (svrAuthinitialise o banner) := ⟨rfl, rfl, rfl, rfl, rfl⟩

theorem Untried.sendBanner {queries : ℕ} {banner : Option Bytes} (h : Untried o queries banner s) :
    Untried o queries none s.sendBanner := ⟨h.queries, h.failcount, h.authdone, h.methods, rfl⟩

/-- The session of a valid user, at any of its requests. -/
structure ValidSession (H : Host) (u : Bytes) (s : AuthState) : Prop where
  name : s.username = none ∨ s.username = some u ∧ s.pw = fillPasswd H u
  notFailed : s.checkusernameFailed = false

/-- The session of an invalid user, at any of its requests. -/
def InvalidSession (u : Bytes) (s : AuthState) : Prop :=
  s.username = none ∧ s.checkusernameFailed = false ∨
    s.username = some u ∧ s.checkusernameFailed = true

theorem ValidSession.checkusername (hu : ValidUser H o u) (hs : ValidSession H u s) :
    ∃ s₁, checkusername H o s u = .ok (true, s₁) ∧ ValidSession H u s₁ ∧ s₁.sent = s.sent ∧
      ∀ queries banner, Untried o queries banner s → Untried o queries banner s₁ := by
  obtain ⟨hlen, hnul, pw, hpw, hal⟩ := hu.spec
  unfold Ps4Dropbear.checkusername
  rw [if_neg (Nat.not_lt.2 hlen), if_neg (not_not.2 hnul)]
  rcases hs.name with hnone | ⟨hsome, hspw⟩
  · simp only [hnone]
    rw [checkAccount_some (show (s.adopt H u).checkusernameFailed = false from hs.notFailed)
      (show (s.adopt H u).pw = some pw from hpw), if_pos hal]
    exact ⟨s.adopt H u, rfl, ⟨.inr ⟨rfl, rfl⟩, hs.notFailed⟩, rfl,
      fun _ _ h => ⟨h.queries, h.failcount, h.authdone, h.methods, h.banner⟩⟩
  · simp only [hsome]
    rw [if_neg (not_not.2 rfl), checkAccount_some hs.notFailed (hspw.trans hpw), if_pos hal]
    exact ⟨s, rfl, hs, rfl, fun _ _ h => h⟩

theorem InvalidSession.checkusername (hu : InvalidUser H o u) (hs : InvalidSession u s) :
    ∃ s₁, checkusername H o s u = .ok (false, s₁) ∧ InvalidSession u s₁ ∧ s₁.sent = s.sent ∧
      ∀ queries banner, Untried o queries banner s → Untried o queries banner s₁ := by
  unfold Ps4Dropbear.checkusername
  rcases hu.spec with hlong | ⟨hlen, hnul, hal⟩
  · rw [if_pos hlong]
    exact ⟨s, rfl, hs, rfl, fun _ _ h => h⟩
  · rw [if_neg (Nat.not_lt.2 hlen), if_neg (not_not.2 hnul)]
    rcases hs with ⟨hnone, hfailed⟩ | ⟨hsome, hfailed⟩
    · simp only [hnone]
      refine ⟨{ s.adopt H u with checkusernameFailed := true }, ?_, .inr ⟨rfl, rfl⟩, rfl,
        fun _ _ h => ⟨h.queries, h.failcount, h.authdone, h.methods, h.banner⟩⟩
      cases hpw : fillPasswd H u with
      | none =>
        simp only [checkAccount, AuthState.adopt, hfailed, hpw]
        rfl
      | some pw =>
        rw [checkAccount_some (show (s.adopt H u).checkusernameFailed = false from hfailed)
          (show (s.adopt H u).pw = some pw from hpw), if_neg (by simp [hal pw hpw])]
    · simp only [hsome]
      rw [if_neg (not_not.2 rfl), checkAccount, if_pos hfailed]
      exact ⟨s, rfl, .inr ⟨hsome, hfailed⟩, rfl, fun _ _ h => h⟩

end Names

/-! ### One request -/

section Requests

variable {H : Host} {o : SvrOpts} {sessionId : Bytes} {inp : AuthInput} {buf : Buffer}
  {u : Bytes} {s : AuthState} {queries : ℕ} {banner : Option Bytes}

/-- The messages of a failure that is the answer to a request. -/
def failureReplies (o : SvrOpts) (banner : Option Bytes) : List AuthReply :=
  (banner.map AuthReply.banner).toList ++
    [AuthReply.failure (authMethods (svrAuthinitialise o none)) false]

/-- A `publickey` request goes to `svr_auth_pubkey`. -/
theorem recvMsgUserauthRequest_publickey {validUser : Bool} {s₁ : AuthState}
    (hdone : s.authdone = false)
    (hparse : parseUserauthRequest inp.payload.buf = .ok (⟨u, ascii "publickey"⟩, buf))
    (hcheck : checkusername H o s.sendBanner u = .ok (validUser, s₁)) :
    recvMsgUserauthRequest H o sessionId s inp =
      svrAuthPubkey H o sessionId s₁ inp buf validUser := by
  have hnone : ascii "publickey" ≠ ascii "none" := by decide
  have hpass : ascii "publickey" ≠ ascii "password" := by decide
  rw [recvMsgUserauthRequest_eq hdone hparse hcheck, userauthMethod, if_neg hnone,
    if_neg (fun h => hpass h.2), if_pos rfl]

/-- A failure that is not counted goes through while no failure is counted. -/
theorem sendMsgUserauthFailure_uncounted (h : Untried o queries none s) :
    sendMsgUserauthFailure o s false false =
      .ok { s with sent := s.sent ++ [.failure (authMethods s) false] } := by
  simp only [sendMsgUserauthFailure, Bool.false_eq_true, if_false, h.failcount]
  rw [if_neg (Nat.not_lt_zero _)]

/-- A failure that is counted ends the session or raises the count. -/
theorem sendMsgUserauthFailure_counted (h : Untried o queries none s) :
    (∃ e, sendMsgUserauthFailure o s false true = .error e) ∨
      ∃ s', sendMsgUserauthFailure o s false true = .ok s' ∧ s'.failcount = 1 := by
  simp only [sendMsgUserauthFailure, if_true, h.failcount]
  split_ifs
  · exact .inl ⟨_, rfl⟩
  · exact .inr ⟨_, rfl, rfl⟩

/-- What is seen of a failure that is not counted. -/
theorem reactions_uncounted {s₁ s' : AuthState} {inps : List AuthInput}
    (hs : Untried o queries banner s) (hsent : s₁.sent = s.sendBanner.sent)
    (hs₁ : Untried o queries none s₁)
    (hs' : s'.sent = s₁.sent ++ [AuthReply.failure (authMethods s₁) false])
    (hfail : s'.failcount = 0)
    (h : recvMsgUserauthRequest H o sessionId s inp = .ok s') :
    reactions H o sessionId s (inp :: inps) =
      .reply (failureReplies o banner) false :: reactions H o sessionId s' inps := by
  have hdrop : s'.sent.drop s.sent.length = failureReplies o banner := by
    rw [hs', hsent, hs₁.methods, ← hs.banner, AuthState.sendBanner, List.append_assoc,
      List.drop_left, failureReplies]
  rw [reactions, h]
  simp only [hdrop, hs.failcount, hfail, Nat.lt_irrefl, decide_false]

/-- The fields cannot be read: the session ends, whoever the user is. -/
theorem reactions_unreadable {validUser : Bool} {s₁ : AuthState} {inps : List AuthInput}
    (hdone : s.authdone = false)
    (hparse : parseUserauthRequest inp.payload.buf = .ok (⟨u, ascii "publickey"⟩, buf))
    (hcheck : checkusername H o s.sendBanner u = .ok (validUser, s₁))
    (hk : (keyFields buf).toOption = none) :
    reactions H o sessionId s (inp :: inps) = [.closed] := by
  have herr : ∃ e, recvMsgUserauthRequest H o sessionId s inp = .error e := by
    rw [recvMsgUserauthRequest_publickey hdone hparse hcheck, svrAuthPubkey]
    cases hv : pubkeyVerdict H sessionId inp buf validUser with
    | error e => exact ⟨e, rfl⟩
    | ok verdict =>
      obtain ⟨f, hf⟩ := keyFields_of_pubkeyVerdict hv
      rw [hf] at hk
      cases hk
  obtain ⟨e, he⟩ := herr
  rw [reactions, he]

variable (sessionId) in
/-- **A request of an invalid user**: a failure that is not counted. -/
theorem recvMsgUserauthRequest_invalid {f : Bytes × Bytes} (inps : List AuthInput)
    (hu : InvalidUser H o u) (hs : InvalidSession u s) (hq : Untried o queries banner s)
    (hparse : parseUserauthRequest inp.payload.buf = .ok (⟨u, ascii "publickey"⟩, buf))
    (hk : keyFields buf = .ok f) :
    ∃ s', reactions H o sessionId s (inp :: inps) =
        .reply (failureReplies o banner) false :: reactions H o sessionId s' inps ∧
      InvalidSession u s' ∧ Untried o queries none s' := by
  have hsb : InvalidSession u s.sendBanner := hs
  obtain ⟨s₁, hcheck, hs₁, hsent, hq₁⟩ := hsb.checkusername hu
  have hq₁ := hq₁ queries none hq.sendBanner
  obtain ⟨sigalgo, keyblob⟩ := f
  have hverdict : pubkeyVerdict H sessionId inp buf false = .ok .refused :=
    (pubkeyVerdict_of_keyFields H sessionId inp hk).1
  refine ⟨{ s₁ with sent := s₁.sent ++ [.failure (authMethods s₁) false] },
    reactions_uncounted hq hsent hq₁ rfl hq₁.failcount ?_, hs₁,
    ⟨hq₁.queries, hq₁.failcount, hq₁.authdone, hq₁.methods, hq₁.banner⟩⟩
  rw [recvMsgUserauthRequest_publickey hq.authdone hparse hcheck, svrAuthPubkey, hverdict, ok_bind]
  exact sendMsgUserauthFailure_uncounted hq₁

theorem queried_eq {v sigalgo keyblob : Bytes}
    (hparse : parseUserauthRequest inp.payload.buf = .ok (⟨v, ascii "publickey"⟩, buf))
    (hk : keyFields buf = .ok (sigalgo, keyblob)) :
    queried inp = some ((signatureTypeFromName sigalgo).map fun sigtype =>
      ⟨signkeyNameFromType (signkeyTypeFromSignature sigtype), keyblob, inp.authfile⟩) := by
  simp only [queried, hparse, hk, Except.toOption, Option.map_some]

variable (sessionId) in
/-- A request of a valid user for a type that does not exist is answered as that of an invalid
one. -/
theorem recvMsgUserauthRequest_unknownType {f : Bytes × Bytes} (inps : List AuthInput)
    (hu : ValidUser H o u) (hs : ValidSession H u s) (hq : Untried o queries banner s)
    (hparse : parseUserauthRequest inp.payload.buf = .ok (⟨u, ascii "publickey"⟩, buf))
    (hk : keyFields buf = .ok f) (hnone : queried inp = some none) :
    ∃ s', reactions H o sessionId s (inp :: inps) =
        .reply (failureReplies o banner) false :: reactions H o sessionId s' inps ∧
      ValidSession H u s' ∧ Untried o queries none s' := by
  have hsb : ValidSession H u s.sendBanner := ⟨hs.name, hs.notFailed⟩
  obtain ⟨s₁, hcheck, hs₁, hsent, hq₁⟩ := hsb.checkusername hu
  have hq₁ := hq₁ queries none hq.sendBanner
  rw [queried_eq hparse hk, Option.some.injEq, Option.map_eq_none_iff] at hnone
  have hverdict := (pubkeyVerdict_of_keyFields H sessionId inp hk).2.1 hnone
  refine ⟨{ s₁ with sent := s₁.sent ++ [.failure (authMethods s₁) false] },
    reactions_uncounted hq hsent hq₁ rfl hq₁.failcount ?_, ⟨hs₁.name, hs₁.notFailed⟩,
    ⟨hq₁.queries, hq₁.failcount, hq₁.authdone, hq₁.methods, hq₁.banner⟩⟩
  rw [recvMsgUserauthRequest_publickey hq.authdone hparse hcheck, svrAuthPubkey, hverdict, ok_bind]
  exact sendMsgUserauthFailure_uncounted hq₁

variable (sessionId) in
/-- **A free query of a valid user**: below `free_query_limit`, a key that is not authorised is
answered as that of an invalid one. -/
theorem recvMsgUserauthRequest_free {f : Bytes × Bytes} {q : KeyQuery} (inps : List AuthInput)
    (hu : ValidUser H o u) (hs : ValidSession H u s) (hq : Untried o queries banner s)
    (hparse : parseUserauthRequest inp.payload.buf = .ok (⟨u, ascii "publickey"⟩, buf))
    (hk : keyFields buf = .ok f) (hsome : queried inp = some (some q))
    (hnone : q.check = .ok none) (hlt : queries < freeQueryLimit o.maxauthtries) :
    ∃ s', reactions H o sessionId s (inp :: inps) =
        .reply (failureReplies o banner) false :: reactions H o sessionId s' inps ∧
      ValidSession H u s' ∧ Untried o (queries + 1) none s' := by
  have hsb : ValidSession H u s.sendBanner := ⟨hs.name, hs.notFailed⟩
  obtain ⟨s₁, hcheck, hs₁, hsent, hq₁⟩ := hsb.checkusername hu
  have hq₁ := hq₁ queries none hq.sendBanner
  rw [queried_eq hparse hk, Option.some.injEq, Option.map_eq_some_iff] at hsome
  obtain ⟨sigtype, hsig, rfl⟩ := hsome
  have hverdict := ((pubkeyVerdict_of_keyFields H sessionId inp hk).2.2 sigtype hsig).2 hnone
  have hnot : ¬ s₁.servPubkeyQueryCount ≥ freeQueryLimit o.maxauthtries := by
    rw [hq₁.queries]
    exact Nat.not_le.2 hlt
  refine ⟨{ s₁ with
      sent := s₁.sent ++ [.failure (authMethods s₁) false]
      servPubkeyQueryCount := s₁.servPubkeyQueryCount + 1 },
    reactions_uncounted hq hsent hq₁ rfl hq₁.failcount ?_, ⟨hs₁.name, hs₁.notFailed⟩,
    ⟨congrArg (· + 1) hq₁.queries, hq₁.failcount, hq₁.authdone, hq₁.methods, hq₁.banner⟩⟩
  rw [recvMsgUserauthRequest_publickey hq.authdone hparse hcheck, svrAuthPubkey, hverdict, ok_bind]
  simp only [hnot, decide_false, sendMsgUserauthFailure_uncounted hq₁, ok_bind]
  rfl

variable (sessionId) in
/-- **A query of a valid user that is seen**: from `free_query_limit` on, a key that is not
authorised is answered with a delay or ends the session, and an error in the file ends it. -/
theorem recvMsgUserauthRequest_seen {f : Bytes × Bytes} {q : KeyQuery} (inps : List AuthInput)
    (hu : ValidUser H o u) (hs : ValidSession H u s) (hq : Untried o queries banner s)
    (hparse : parseUserauthRequest inp.payload.buf = .ok (⟨u, ascii "publickey"⟩, buf))
    (hk : keyFields buf = .ok f) (hsome : queried inp = some (some q)) (hauth : ¬ q.Authorised)
    (hbad : q.check ≠ .ok none ∨ freeQueryLimit o.maxauthtries ≤ queries)
    (replies : List AuthReply) (rest : List Reaction) :
    reactions H o sessionId s (inp :: inps) ≠ .reply replies false :: rest := by
  have hsb : ValidSession H u s.sendBanner := ⟨hs.name, hs.notFailed⟩
  obtain ⟨s₁, hcheck, hs₁, hsent, hq₁⟩ := hsb.checkusername hu
  have hq₁ := hq₁ queries none hq.sendBanner
  rw [queried_eq hparse hk, Option.some.injEq, Option.map_eq_some_iff] at hsome
  obtain ⟨sigtype, hsig, rfl⟩ := hsome
  obtain ⟨hverr, hvnone⟩ := (pubkeyVerdict_of_keyFields H sessionId inp hk).2.2 sigtype hsig
  have hcases : (∃ e, recvMsgUserauthRequest H o sessionId s inp = .error e) ∨
      ∃ s', recvMsgUserauthRequest H o sessionId s inp = .ok s' ∧ s'.failcount = 1 := by
    rw [recvMsgUserauthRequest_publickey hq.authdone hparse hcheck, svrAuthPubkey]
    cases hc : KeyQuery.check
        ⟨signkeyNameFromType (signkeyTypeFromSignature sigtype), f.2, inp.authfile⟩ with
    | error e =>
      rw [hverr e hc]
      exact .inl ⟨e, rfl⟩
    | ok r =>
      cases r with
      | some options => exact absurd ⟨options, hc⟩ hauth
      | none =>
        have hge : s₁.servPubkeyQueryCount ≥ freeQueryLimit o.maxauthtries := by
          rw [hq₁.queries]
          exact hbad.resolve_left (fun h => h hc)
        rw [hvnone hc, ok_bind]
        simp only [hge, decide_true]
        rcases sendMsgUserauthFailure_counted hq₁ with ⟨e, he⟩ | ⟨s', hs', hcount⟩
        · rw [he]
          exact .inl ⟨e, rfl⟩
        · rw [hs', ok_bind]
          exact .inr ⟨_, rfl, hcount⟩
  intro heq
  rcases hcases with ⟨e, he⟩ | ⟨s', hs', hcount⟩
  · rw [reactions, he] at heq
    simp at heq
  · rw [reactions, hs'] at heq
    simp [hq.failcount, hcount] at heq

end Requests

/-! ### All requests -/

section Sequences

variable {H : Host} {o : SvrOpts} {u v : Bytes}

/-- The induction behind `probing_same_iff`: the two sessions have been answered alike so far. -/
theorem reactions_eq_iff (sessionId sessionId' : Bytes) (hu : ValidUser H o u)
    (hv : InvalidUser H o v) {inps inps' : List AuthInput}
    (hsame : List.Forall₂ (SameButName u v) inps inps') :
    ∀ {s t : AuthState} {queries : ℕ} {banner : Option Bytes}, ValidSession H u s →
      Untried o queries banner s → InvalidSession v t → Untried o 0 banner t →
      queries ≤ freeQueryLimit o.maxauthtries → (∀ q ∈ lookedUp inps, ¬ q.Authorised) →
      (reactions H o sessionId s inps = reactions H o sessionId' t inps' ↔
        queries + (lookedUp inps).length ≤ freeQueryLimit o.maxauthtries ∧
          ∀ q ∈ lookedUp inps, ∃ r, q.check = .ok r) := by
  induction hsame with
  | nil =>
    intro s t queries banner hs hq ht hqt hle hauth
    simp [reactions, lookedUp, hle]
  | @cons inp inp' inps inps' hreq hsame ih =>
    intro s t queries banner hs hq ht hqt hle hauth
    obtain ⟨buf, buf', hparse, hparse', hrest⟩ := hreq
    have hfields := keyFields_congr hrest
    cases hk : keyFields buf with
    | error e =>
      -- both sessions end here
      have hsb : ValidSession H u s.sendBanner := ⟨hs.name, hs.notFailed⟩
      have htb : InvalidSession v t.sendBanner := ht
      obtain ⟨s₁, hcheck, -⟩ := hsb.checkusername hu
      obtain ⟨t₁, hcheck', -⟩ := htb.checkusername hv
      have hk' : (keyFields buf').toOption = none := by rw [hfields, hk]; rfl
      rw [reactions_unreadable hq.authdone hparse hcheck (by rw [hk]; rfl),
        reactions_unreadable hqt.authdone hparse' hcheck' hk']
      have hnone : queried inp = none := by
        simp only [queried, hparse, hk, Except.toOption, Option.map_none]
      simp [lookedUp, hnone, hle]
    | ok f =>
      obtain ⟨f', hk'⟩ : ∃ f', keyFields buf' = .ok f' := by
        cases hk' : keyFields buf' with
        | ok f' => exact ⟨f', rfl⟩
        | error e => rw [hk, hk'] at hfields; cases hfields
      obtain ⟨t', htr, ht', hqt'⟩ :=
        recvMsgUserauthRequest_invalid sessionId' inps' hv ht hqt hparse' hk'
      rw [htr]
      cases hqueried : queried inp with
      | none =>
        obtain ⟨sigalgo, keyblob⟩ := f
        rw [queried_eq hparse hk] at hqueried
        cases hqueried
      | some asked =>
        cases asked with
        | none =>
          obtain ⟨s', hsr, hs', hq'⟩ := recvMsgUserauthRequest_unknownType sessionId inps hu hs
            hq hparse hk hqueried
          have hlook : lookedUp (inp :: inps) = lookedUp inps := by simp only [lookedUp, hqueried]
          rw [hsr, hlook, List.cons.injEq, and_iff_right rfl]
          exact ih hs' hq' ht' hqt' hle (by rwa [hlook] at hauth)
        | some q =>
          have hlook : lookedUp (inp :: inps) = q :: lookedUp inps := by
            simp only [lookedUp, hqueried]
          rw [hlook] at hauth
          rw [hlook, List.length_cons, List.forall_mem_cons]
          have hauthq := hauth q List.mem_cons_self
          by_cases hfree : q.check = .ok none ∧ queries < freeQueryLimit o.maxauthtries
          · obtain ⟨s', hsr, hs', hq'⟩ := recvMsgUserauthRequest_free sessionId inps hu hs hq hparse
              hk hqueried hfree.1 hfree.2
            have hih := ih hs' hq' ht' hqt' hfree.2
              (fun q' hq' => hauth q' (List.mem_cons_of_mem _ hq'))
            have hfound : ∃ r, q.check = .ok r := ⟨none, hfree.1⟩
            rw [hsr, List.cons.injEq, and_iff_right rfl, hih, Nat.add_assoc, Nat.add_comm 1,
              and_iff_right hfound]
          · -- the valid session does not answer as the invalid one does
            have hbad : q.check ≠ .ok none ∨ freeQueryLimit o.maxauthtries ≤ queries := by
              rcases not_and_or.1 hfree with h | h
              · exact .inl h
              · exact .inr (Nat.not_lt.1 h)
            refine iff_of_false (recvMsgUserauthRequest_seen sessionId inps hu hs hq hparse hk hqueried
              hauthq hbad _ _) ?_
            rintro ⟨hlen, ⟨r, hr⟩, -⟩
            rcases hbad with hne | hge
            · cases r with
              | none => exact hne hr
              | some options => exact hauthq ⟨options, hr⟩
            · omega

/-- **When probing does not tell a valid user from an invalid one.**  For `publickey` requests that
differ only in the name, with keys that the file of the valid user does not authorise, the client
sees the same in the two sessions iff it asks for at most `free_query_limit` keys and none of them
makes `checkpubkey` exit. -/
theorem probing_same_iff (H : Host) (o : SvrOpts) (sessionId sessionId' u v : Bytes)
    (banner : Option Bytes) (hu : ValidUser H o u) (hv : InvalidUser H o v)
    (inps inps' : List AuthInput) (hsame : List.Forall₂ (SameButName u v) inps inps')
    (hauth : ∀ q ∈ lookedUp inps, ¬ q.Authorised) :
    reactions H o sessionId (svrAuthinitialise o banner) inps =
        reactions H o sessionId' (svrAuthinitialise o banner) inps' ↔
      (lookedUp inps).length ≤ freeQueryLimit o.maxauthtries ∧
        ∀ q ∈ lookedUp inps, ∃ r, q.check = .ok r := by
  have hs : ValidSession H u (svrAuthinitialise o banner) := ⟨.inl rfl, rfl⟩
  have ht : InvalidSession v (svrAuthinitialise o banner) := .inl ⟨rfl, rfl⟩
  have h := reactions_eq_iff sessionId sessionId' hu hv hsame hs
    (.init o banner) ht (.init o banner) (Nat.zero_le _) hauth
  rwa [Nat.zero_add] at h

/-- A query for an Ed25519 key of zeros. -/
def zeroKeyQuery (username : Bytes) (authfile : Option AuthFile)
    (h : (50 :: (encodeFields [username, ascii "ssh-connection", ascii "publickey"] ++ [0] ++
      encodeFields [ascii "ssh-ed25519",
        encodeFields [ascii "ssh-ed25519", List.replicate 32 0]])).length ≤ bufMaxSize) :
    AuthInput where
  payload := Payload.ofFields _ h
  authfile := authfile

/-- The query for `root`, whose file is not there. -/
def rootZeroKey : AuthInput := zeroKeyQuery (ascii "root") none (by decide)

/-- The query for `ghost`, which is not an account. -/
def ghostZeroKey : AuthInput := zeroKeyQuery (ascii "ghost") none (by decide)

theorem validUser_root : ValidUser bareHost {} (ascii "root") := ⟨_, rfl⟩

theorem invalidUser_ghost : InvalidUser bareHost {} (ascii "ghost") := ⟨_, rfl⟩

theorem sameButName_zeroKey (n : ℕ) :
    List.Forall₂ (SameButName (ascii "root") (ascii "ghost")) (List.replicate n rootZeroKey)
      (List.replicate n ghostZeroKey) := by
  induction n with
  | zero => exact .nil
  | succ n ih => exact .cons ⟨_, _, rfl, rfl, rfl⟩ ih

theorem lookedUp_zeroKey (n : ℕ) :
    ∀ q ∈ lookedUp (List.replicate n rootZeroKey), q.check = .ok none := by
  have hq : queried rootZeroKey = some (some ⟨ascii "ssh-ed25519",
      encodeFields [ascii "ssh-ed25519", List.replicate 32 0], none⟩) := by
    decide
  induction n with
  | zero => exact fun q hq => absurd hq List.not_mem_nil
  | succ n ih =>
    simp only [List.replicate_succ, lookedUp, hq, List.forall_mem_cons]
    exact ⟨rfl, ih⟩

theorem not_authorised_zeroKey (n : ℕ) :
    ∀ q ∈ lookedUp (List.replicate n rootZeroKey), ¬ q.Authorised := by
  rintro q hq ⟨options, ho⟩
  rw [lookedUp_zeroKey n q hq] at ho
  cases ho

set_option maxRecDepth 8000 in
/-- Five queries do not tell `root` from a user that does not exist. -/
theorem probing_same_iff_five :
    reactions bareHost {} [] (svrAuthinitialise {} none) (List.replicate 5 rootZeroKey) =
      reactions bareHost {} [] (svrAuthinitialise {} none) (List.replicate 5 ghostZeroKey) := by
  have hlen : (lookedUp (List.replicate 5 rootZeroKey)).length ≤ freeQueryLimit 10 := by
    decide
  exact (probing_same_iff bareHost {} [] [] _ _ none validUser_root invalidUser_ghost _ _
    (sameButName_zeroKey 5) (not_authorised_zeroKey 5)).2
    ⟨hlen, fun q hq => ⟨none, lookedUp_zeroKey 5 q hq⟩⟩

set_option maxRecDepth 8000 in
/-- The sixth query does: its failure is delayed and counted for `root` only. -/
theorem probing_tells_sixth :
    ¬ ∀ (H : Host) (o : SvrOpts) (sessionId sessionId' u v : Bytes) (banner : Option Bytes)
      (inps inps' : List AuthInput), ValidUser H o u → InvalidUser H o v →
      List.Forall₂ (SameButName u v) inps inps' → (∀ q ∈ lookedUp inps, ¬ q.Authorised) →
      reactions H o sessionId (svrAuthinitialise o banner) inps =
        reactions H o sessionId' (svrAuthinitialise o banner) inps' := by
  intro h
  have heq := h bareHost {} [] [] (ascii "root") (ascii "ghost") none (List.replicate 6 rootZeroKey)
    (List.replicate 6 ghostZeroKey) validUser_root invalidUser_ghost
    (sameButName_zeroKey 6) (not_authorised_zeroKey 6)
  have hlast : (reactions bareHost {} [] (svrAuthinitialise {} none)
      (List.replicate 6 rootZeroKey)).getLast? ≠ (reactions bareHost {} []
        (svrAuthinitialise {} none) (List.replicate 6 ghostZeroKey)).getLast? := by
    decide
  exact hlast (congrArg List.getLast? heq)

end Sequences

end Ps4Dropbear
