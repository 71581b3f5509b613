import Ps4Dropbear.LTS.Basic
import Ps4Dropbear.Auth.AuthorizedKeys

/-!
# User authentication

`recv_msg_userauth_request` and what it calls: `checkusername` and `fill_passwd`,
`svr_auth_password`, `svr_auth_pubkey` with `buf_verify`, and the two replies
`send_msg_userauth_failure` and `send_msg_userauth_success` (`svr-auth.c`, `svr-authpasswd.c`,
`svr-authpubkey.c`, `signkey.c`, `common-session.c`), as compiled for the PS4.

The password database, `crypt`, the signature primitives and the system calls are a `Host`.  One
label of `userauth` is a request that arrives, with the contents of `authorized_keys` as it is
then; a `dropbear_exit` ends the run.

The `LOG_NOTICE` messages of the four places that accept a request are kept in `AuthState.log`:
they are the record of which checks have succeeded.

## Main results

* `svrAuthPassword_cases`, `svrAuthPubkey_cases`, `recvMsgUserauthRequest_cases` : what a request
  can do to the state.
* `signData_eq` : the signed data is the session id as a string and the payload up to the
  signature.
-/

namespace Ps4Dropbear

/-- `MAX_USERNAME_LEN`. -/
def maxUsernameLen : ℕ := 100

/-- `DROPBEAR_MAX_PASSWORD_LEN`. -/
def dropbearMaxPasswordLen : ℕ := 100

/-- `MAX_PUBKEY_QUERIES`. -/
def maxPubkeyQueries : ℕ := 15

/-- `free_query_limit`: the unsigned `maxauthtries` is read as an `int`. -/
def freeQueryLimit (maxauthtries : ℕ) : ℕ :=
  ((maxPubkeyQueries : Int) - Int.bmod maxauthtries (2 ^ 32)).toNat

/-- A row of the password database, with the crypt value that `fill_passwd` settles on (the shadow
entry for `x`, `!!` when there is none). -/
structure Passwd where
  pwUid : ℕ
  pwGid : ℕ
  pwName : Bytes
  pwDir : Bytes
  pwShell : Bytes
  pwPasswd : Bytes
  deriving DecidableEq, Repr

/-- What the authentication code asks of the system and of the cryptographic primitives. -/
structure Host where
  getpwnam : Bytes → Option Passwd
  /-- `getpwnam` searches the database for the name it is given. -/
  getpwnam_name : ∀ u pw, getpwnam u = some pw → pw.pwName = u
  /-- `crypt(key, salt)`, `none` for `NULL`. -/
  crypt : Bytes → Bytes → Option Bytes
  geteuid : ℕ
  /-- `check_group_membership(check_gid, username, user_gid)`. -/
  checkGroupMembership : ℕ → Bytes → ℕ → Bool
  /-- The shells that `getusershell` lists. -/
  usershells : List Bytes
  /-- The calls of `svr_switch_user` for an account other than the PS4 one. -/
  switchUser : Bytes → Except Exit Unit
  /-- `buf_rsa_verify` on the buffer behind the signature name. -/
  bufRsaVerify : Buffer → RsaKey → SignatureType → Bytes → Except Exit Bool
  /-- `buf_ed25519_verify`. -/
  bufEd25519Verify : Buffer → Bytes → Bytes → Except Exit Bool
  /-- `buf_sk_ed25519_verify`, with the application and the flags mask. -/
  bufSkEd25519Verify : Buffer → Bytes → Bytes → Option Bytes → ℕ → Except Exit Bool

/-- The server options that authentication looks at. -/
structure SvrOpts where
  /-- `-s` : no password logins. -/
  noauthpass : Bool := false
  /-- `-g` : no password logins for root. -/
  norootpass : Bool := false
  /-- `-w` : no root logins. -/
  norootlogin : Bool := false
  /-- `-B` : blank passwords are allowed. -/
  allowblankpass : Bool := false
  /-- `-t` : both a password and a public key are required. -/
  multiauthmethod : Bool := false
  /-- `-T`. -/
  maxauthtries : ℕ := 10
  /-- `-G` : the group that logins are restricted to. -/
  restrictGroup : Option ℕ := none

/-- Where a request was accepted, with the account that the message names. -/
inductive AuthNotice
  /-- `Auth succeeded with blank password for '%s' from %s`. -/
  | blankPassword (user : Bytes)
  /-- `Password auth succeeded for PS4 default user from %s`. -/
  | ps4DefaultUser (user : Bytes)
  /-- `Password auth succeeded for '%s' from %s`. -/
  | password (user : Bytes)
  /-- `Pubkey auth succeeded for '%s' with %s key %s from %s`. -/
  | pubkey (user : Bytes)
  deriving DecidableEq, Repr

/-- The messages that are sent. -/
inductive AuthReply
  | banner (text : Bytes)
  | failure (methods : Bytes) (partialSuccess : Bool)
  | success
  | pkOk (sigalgo keyblob : Bytes)
  deriving DecidableEq, Repr

/-- `struct AuthState`, with the banner that is sent once.  `pw` is `none` while `pw_name` is
`NULL`. -/
structure AuthState where
  username : Option Bytes := none
  /-- The bit `AUTH_TYPE_PUBKEY` of `authtypes`. -/
  authPubkey : Bool
  /-- The bit `AUTH_TYPE_PASSWORD` of `authtypes`. -/
  authPassword : Bool
  failcount : ℕ := 0
  authdone : Bool := false
  checkusernameFailed : Bool := false
  servPubkeyQueryCount : ℕ := 0
  pwUid : ℕ := 0
  pw : Option Passwd := none
  pubkeyOptions : Option PubKeyOptions := none
  banner : Option Bytes := none
  /-- The messages sent so far. -/
  sent : List AuthReply := []
  /-- The acceptances logged so far. -/
  log : List AuthNotice := []

/-- The name in the log messages. -/
def AuthState.pwName (s : AuthState) : Bytes := (s.pw.map (·.pwName)).getD []

/-- `svr_authinitialise`. -/
def svrAuthinitialise (o : SvrOpts) (banner : Option Bytes) : AuthState :=
  { authPubkey := true, authPassword := !o.noauthpass, banner := banner }

/-- A received packet: `ses.payload` behind the message type, and `ses.payload_beginning`. -/
structure Payload where
  buf : Buffer
  beginning : ℕ
  beginning_le : beginning ≤ buf.pos

/-- A request, with the contents of `authorized_keys` (`none` when the file or its permissions
are not good). -/
structure AuthInput where
  payload : Payload
  authfile : Option AuthFile

variable (H : Host) (o : SvrOpts)

/-! ### Replies -/

/-- `fill_passwd`: `root` is the synthetic account of the PS4. -/
def fillPasswd (username : Bytes) : Option Passwd :=
  if username = ascii "root" then
    some ⟨0, 0, ascii "root", ascii "/data/dropbear", ascii "/bin/sh", ascii "!!"⟩
  else H.getpwnam username

/-- The methods listed in a failure message. -/
def authMethods (s : AuthState) : Bytes :=
  (if s.authPubkey then ascii "publickey" ++ (if s.authPassword then ascii "," else []) else []) ++
    if s.authPassword then ascii "password" else []

/-- `send_msg_userauth_failure`. -/
def sendMsgUserauthFailure (s : AuthState) (partialSuccess incrfail : Bool) :
    Except Exit AuthState :=
  let s := { s with
    sent := s.sent ++ [.failure (authMethods s) partialSuccess]
    failcount := if incrfail then s.failcount + 1 else s.failcount }
  if s.failcount > o.maxauthtries then dropbearExit "Max auth tries reached - user '%s'"
  else .ok s

/-- `send_msg_userauth_success`, with `svr_switch_user`. -/
def sendMsgUserauthSuccess (s : AuthState) : Except Exit AuthState := do
  let s := { s with sent := s.sent ++ [.success], authdone := true }
  if s.pwName = ascii "root" then return s
  else
    H.switchUser s.pwName
    return s

/-! ### The user name -/

/-- The checks of `checkusername` on an account. -/
def accountAllowed (pw : Passwd) : Bool :=
  if pw.pwName = ascii "root" then !o.norootlogin
  -- running as non-root, only the server's uid is allowed
  else if H.geteuid ≠ 0 ∧ H.geteuid ≠ pw.pwUid then false
  else if o.norootlogin ∧ pw.pwUid = 0 then false
  else if o.restrictGroup.any fun g => !H.checkGroupMembership g pw.pwName pw.pwGid then false
  else H.usershells.contains (if pw.pwShell = [] then ascii "/bin/sh" else pw.pwShell)

/-- The part of `checkusername` behind the comparison with the name of the session. -/
def checkAccount (s : AuthState) : Bool × AuthState :=
  if s.checkusernameFailed then (false, s)
  else
    match s.pw with
    | none => (false, { s with checkusernameFailed := true })
    | some pw =>
      if accountAllowed H o pw then (true, s)
      else (false, { s with checkusernameFailed := true })

/-- The first request: the account is looked up and the name becomes that of the session. -/
def AuthState.adopt (s : AuthState) (username : Bytes) : AuthState :=
  { s with
    username := some username
    pw := fillPasswd H username
    pwUid := ((fillPasswd H username).map (·.pwUid)).getD s.pwUid }

/-- `checkusername`. -/
def checkusername (s : AuthState) (username : Bytes) : Except Exit (Bool × AuthState) :=
  if username.length > maxUsernameLen then .ok (false, s)
  else if (cstr username).length ≠ username.length then
    dropbearExit "Attempted username with a null byte"
  else
    match s.username with
    | none => .ok (checkAccount H o (s.adopt H username))
    | some u =>
      if username ≠ u then dropbearExit "Client trying multiple usernames"
      else .ok (checkAccount H o s)

/-! ### Passwords -/

/-- What the comparisons of `svr_auth_password` come to. -/
inductive PasswordVerdict
  | reject
  /-- The synthetic account and its password. -/
  | ps4Default
  /-- The crypt value matches. -/
  | crypt
  deriving DecidableEq, Repr

/-- The comparisons of `svr_auth_password`. -/
def passwordVerdict (s : AuthState) (validUser : Bool) (password : Bytes) : PasswordVerdict :=
  match s.pw with
  | none => .reject
  | some pw =>
    if validUser ∧ pw.pwName = ascii "root" ∧ password = ascii "root" then .ps4Default
    else if ¬ validUser ∨ password.length > dropbearMaxPasswordLen then .reject
    else
      match H.crypt (cstr password) pw.pwPasswd with
      | none => .reject
      | some testcrypt =>
        if pw.pwPasswd = [] then .reject
        else if testcrypt = pw.pwPasswd then .crypt
        else .reject

/-- `svr_auth_password`. -/
def svrAuthPassword (s : AuthState) (buf : Buffer) (validUser : Bool) :
    Except Exit AuthState := do
  let (changepw, buf) ← bufGetbool buf
  if changepw then sendMsgUserauthFailure o s false true
  else
    let (password, _) ← bufGetstring buf
    match passwordVerdict H s validUser password with
    | .reject => sendMsgUserauthFailure o s false true
    | .ps4Default =>
      sendMsgUserauthSuccess H { s with log := s.log ++ [.ps4DefaultUser s.pwName] }
    | .crypt =>
      let s := { s with log := s.log ++ [AuthNotice.password s.pwName] }
      if o.multiauthmethod ∧ s.authPubkey then
        -- successful password authentication, but extra auth required
        sendMsgUserauthFailure o { s with authPassword := false } true false
      else sendMsgUserauthSuccess H s

/-! ### Public keys -/

/-- `buf_verify`: whether the signature that starts at the position of `buf` is one of `data`
under `key`. -/
def bufVerify (buf : Buffer) (key : SignKey) (skFlagsMask : ℕ) (expectSigtype : SignatureType)
    (data : Bytes) : Except Exit Bool := do
  let (_, buf) ← bufGetint buf
  let (typeName, buf) ← bufGetstring buf
  if signatureTypeFromName typeName ≠ some expectSigtype then
    dropbearExit "Non-matching signing type"
  else
    match signkeyTypeFromSignature expectSigtype with
    | .rsa =>
      match key.rsakey with
      | none => dropbearExit "No RSA key to verify signature"
      | some k => H.bufRsaVerify buf k expectSigtype data
    | .ed25519 =>
      match key.ed25519key with
      | none => dropbearExit "No Ed25519 key to verify signature"
      | some k => H.bufEd25519Verify buf k data
    | .skEd25519 =>
      match key.ed25519key with
      | none => dropbearExit "Non-matching signing type"
      | some k => H.bufSkEd25519Verify buf k data key.skApp skFlagsMask

/-- `signbuf` of `svr_auth_pubkey`: the session id as a string, and the payload up to the position
of `buf`. -/
def signData (sessionId : Bytes) (beginning : ℕ) (buf : Buffer) : Except Exit Bytes := do
  if beginning > buf.pos then dropbearExit "assertion ses.payload_beginning <= ses.payload->pos"
  else
    let signPayloadLength := buf.pos - beginning
    let signbuf ← bufNew (buf.pos + 4 + sessionId.length)
    let signbuf ← bufPutstring signbuf sessionId
    let payload ← bufSetpos buf beginning
    let p ← bufGetptr payload signPayloadLength
    let signbuf ← bufPutbytes signbuf p
    let signbuf ← bufSetpos signbuf 0
    return signbuf.contents

/-- `key->sk_flags_mask`: `SSH_SK_USER_PRESENCE_REQD` unless `no-touch-required`, and
`SSH_SK_USER_VERIFICATION_REQD` for `verify-required`. -/
def skFlagsMask (options : PubKeyOptions) : ℕ :=
  (if options.noTouchRequiredFlag then 0 else 1) + if options.verifyRequiredFlag then 4 else 0

/-- A signature that `buf_verify` accepted: the key, where it was read, and what was signed. -/
structure VerifiedKey where
  sigtype : SignatureType
  /-- The bytes that `checkpubkey` compared with the file. -/
  keyblob : Bytes
  /-- `ses.payload` at the first byte of the blob. -/
  start : Buffer
  key : SignKey
  /-- `ses.payload` behind what `buf_get_pub_key` read. -/
  stop : Buffer
  signed : Bytes
  options : PubKeyOptions

/-- How far `svr_auth_pubkey` gets with a request. -/
inductive PubkeyVerdict
  /-- The user is not valid, or there is no such signature type. -/
  | refused
  /-- `checkpubkey` does not find the key. -/
  | unauthorised
  /-- A query for a key that may be used. -/
  | query (sigalgo keyblob : Bytes)
  /-- The blob is not a key of its type. -/
  | badKey
  | badSignature
  | verified (v : VerifiedKey)

/-- `svr_auth_pubkey` up to the verdict on the signature. -/
def pubkeyVerdict (sessionId : Bytes) (inp : AuthInput) (buf : Buffer) (validUser : Bool) :
    Except Exit PubkeyVerdict := do
  let (b, buf) ← bufGetbool buf
  let testkey := !b
  let (sigalgo, buf) ← bufGetstring buf
  let (keybloblen, buf) ← bufGetint buf
  let keyblob ← bufGetptr buf keybloblen
  if ¬ validUser then return .refused
  else
    match signatureTypeFromName sigalgo with
    | none => return .refused
    | some sigtype =>
      let keytype := signkeyTypeFromSignature sigtype
      match ← checkpubkey (signkeyNameFromType keytype) keyblob inp.authfile with
      | none => return .unauthorised
      | some options =>
        if testkey then return .query sigalgo keyblob
        else
          let (key, stop) ← bufGetPubKey buf (some keytype)
          match key with
          | none => return .badKey
          | some key =>
            let signed ← signData sessionId inp.payload.beginning stop
            if ← bufVerify H stop key (skFlagsMask options) sigtype signed then
              return .verified ⟨sigtype, keyblob, buf, key, stop, signed, options⟩
            else return .badSignature

/-- `svr_auth_pubkey`. -/
def svrAuthPubkey (sessionId : Bytes) (s : AuthState) (inp : AuthInput) (buf : Buffer)
    (validUser : Bool) : Except Exit AuthState := do
  match ← pubkeyVerdict H sessionId inp buf validUser with
  | .refused => sendMsgUserauthFailure o s false false
  | .unauthorised =>
    let s ← sendMsgUserauthFailure o s false
      (s.servPubkeyQueryCount ≥ freeQueryLimit o.maxauthtries)
    return { s with servPubkeyQueryCount := s.servPubkeyQueryCount + 1 }
  | .query sigalgo keyblob => return { s with sent := s.sent ++ [.pkOk sigalgo keyblob] }
  | .badKey => sendMsgUserauthFailure o s false true
  | .badSignature => sendMsgUserauthFailure o s false true
  | .verified v =>
    let s := { s with
      pubkeyOptions := some (s.pubkeyOptions.getD v.options)
      log := s.log ++ [AuthNotice.pubkey s.pwName] }
    if o.multiauthmethod ∧ s.authPassword then
      -- successful pubkey authentication, but extra auth required
      sendMsgUserauthFailure o { s with authPubkey := false } true false
    else sendMsgUserauthSuccess H s

/-! ### Requests -/

/-- The fields every request has. -/
structure UserauthRequest where
  username : Bytes
  methodname : Bytes
  deriving DecidableEq, Repr

/-- The fields of a request; the service has to be `ssh-connection`. -/
def parseUserauthRequest (buf : Buffer) : Except Exit (UserauthRequest × Buffer) := do
  let (username, buf) ← bufGetstring buf
  let (servicename, buf) ← bufGetstring buf
  let (methodname, buf) ← bufGetstring buf
  if servicename ≠ ascii "ssh-connection" then dropbearExit "unknown service in auth"
  else return (⟨username, methodname⟩, buf)

/-- Passwords are not disabled by `-s` or `-g`. -/
def passwordAllowed (s : AuthState) : Bool :=
  !o.noauthpass && !(o.norootpass && s.pwUid == 0)

/-- A `none` request is accepted. -/
def blankAccepted (s : AuthState) (validUser : Bool) : Bool :=
  validUser && o.allowblankpass && passwordAllowed o s && s.pw.any (·.pwPasswd = [])

/-- The banner, if there is one, is sent once. -/
def AuthState.sendBanner (s : AuthState) : AuthState :=
  { s with sent := s.sent ++ (s.banner.map AuthReply.banner).toList, banner := none }

/-- The part of `recv_msg_userauth_request` behind `checkusername`: the method decides. -/
def userauthMethod (sessionId : Bytes) (s : AuthState) (inp : AuthInput) (methodname : Bytes)
    (buf : Buffer) (validUser : Bool) : Except Exit AuthState :=
  if methodname = ascii "none" then
    if blankAccepted o s validUser then
      sendMsgUserauthSuccess H { s with log := s.log ++ [.blankPassword s.pwName] }
    else sendMsgUserauthFailure o s false false
  else if passwordAllowed o s ∧ methodname = ascii "password" then
    svrAuthPassword H o s buf validUser
  else if methodname = ascii "publickey" then
    svrAuthPubkey H o sessionId s inp buf validUser
  else sendMsgUserauthFailure o s false true

/-- `recv_msg_userauth_request`. -/
def recvMsgUserauthRequest (sessionId : Bytes) (s : AuthState) (inp : AuthInput) :
    Except Exit AuthState :=
  -- ignore packets if auth is already done
  if s.authdone then .ok s
  else do
    let (req, buf) ← parseUserauthRequest inp.payload.buf
    let (validUser, s) ← checkusername H o s.sendBanner req.username
    userauthMethod H o sessionId s inp req.methodname buf validUser

/-- The authentication dialogue: requests, until one ends the session. -/
def userauth (sessionId : Bytes) : LTS AuthState AuthInput where
  step s inp := (recvMsgUserauthRequest H o sessionId s inp).toOption

variable {H o}

theorem userauth_step {sessionId : Bytes} {s s' : AuthState} {inp : AuthInput} :
    (userauth H o sessionId).step s inp = some s' ↔
      recvMsgUserauthRequest H o sessionId s inp = .ok s' := by
  simp only [userauth]
  cases recvMsgUserauthRequest H o sessionId s inp <;> simp [Except.toOption]

/-! ### Replies and the user name -/

theorem sendMsgUserauthFailure_ok {s s' : AuthState} {p i : Bool}
    (h : sendMsgUserauthFailure o s p i = .ok s') :
    s' = { s with sent := s'.sent, failcount := s'.failcount } := by
  simp only [sendMsgUserauthFailure, ite_exit_eq_ok] at h
  cases h.2
  rfl

theorem sendMsgUserauthSuccess_ok {s s' : AuthState} (h : sendMsgUserauthSuccess H s = .ok s') :
    s' = { s with sent := s.sent ++ [.success], authdone := true } := by
  simp only [sendMsgUserauthSuccess] at h
  split_ifs at h
  · cases h
    rfl
  · obtain ⟨_, _, h⟩ := bind_eq_ok.1 h
    cases h
    rfl

theorem checkAccount_eq {s s' : AuthState} {v : Bool} (h : checkAccount H o s = (v, s')) :
    s' = { s with checkusernameFailed := s'.checkusernameFailed } ∧
      (v = true → ∃ pw, s'.pw = some pw ∧ accountAllowed H o pw) := by
  unfold checkAccount at h
  split_ifs at h
  · cases h
    exact ⟨rfl, by simp⟩
  · split at h
    · cases h
      exact ⟨rfl, by simp⟩
    · next pw hpw =>
      split_ifs at h with hal
      · cases h
        exact ⟨rfl, fun _ => ⟨pw, hpw, hal⟩⟩
      · cases h
        exact ⟨rfl, by simp⟩

/-- `checkusername` leaves the state alone for a name that is too long, takes over the first name
of a session with its account, and from then on only notes a failure. -/
theorem checkusername_ok {s s' : AuthState} {u : Bytes} {v : Bool}
    (h : checkusername H o s u = .ok (v, s')) :
    (maxUsernameLen < u.length ∧ v = false ∧ s' = s) ∨
    (u.length ≤ maxUsernameLen ∧
      ((s.username = none ∧
          s' = { s.adopt H u with checkusernameFailed := s'.checkusernameFailed }) ∨
        (s.username = some u ∧ s' = { s with checkusernameFailed := s'.checkusernameFailed })) ∧
      (v = true → ∃ pw, s'.pw = some pw ∧ accountAllowed H o pw)) := by
  simp only [checkusername] at h
  split_ifs at h with hlen hnul
  · cases h
    exact .inl ⟨hlen, rfl, rfl⟩
  · simp at h
  · refine .inr ⟨Nat.le_of_not_lt hlen, ?_⟩
    split at h
    · next hnone =>
      obtain ⟨hst, hpw⟩ := checkAccount_eq (Except.ok.inj h)
      exact ⟨.inl ⟨hnone, hst⟩, hpw⟩
    · next w hw =>
      split_ifs at h with hne
      · simp at h
      · rw [ne_eq, not_not] at hne
        subst hne
        obtain ⟨hst, hpw⟩ := checkAccount_eq (Except.ok.inj h)
        exact ⟨.inr ⟨hw, hst⟩, hpw⟩

/-- A valid user is the user of the session. -/
theorem checkusername_true {s s' : AuthState} {u : Bytes}
    (h : checkusername H o s u = .ok (true, s')) :
    s'.username = some u ∧ ∃ pw, s'.pw = some pw ∧ accountAllowed H o pw := by
  rcases checkusername_ok h with ⟨-, hv, -⟩ | ⟨-, hst, hpw⟩
  · cases hv
  · refine ⟨?_, hpw rfl⟩
    rcases hst with ⟨-, hs⟩ | ⟨hu, hs⟩
    · rw [hs]; rfl
    · rw [hs]; exact hu

/-- The account of a session is that of its user name. -/
theorem fillPasswd_name {u : Bytes} {pw : Passwd} (h : fillPasswd H u = some pw) :
    pw.pwName = u := by
  unfold fillPasswd at h
  split_ifs at h with hroot
  · cases h
    exact hroot.symm
  · exact H.getpwnam_name u pw h

/-! ### The signed data -/

/-- **What is signed**: the session id as a string, and the payload up to the position. -/
theorem signData_eq {sessionId d : Bytes} {beginning : ℕ} {buf : Buffer}
    (h : signData sessionId beginning buf = .ok d) :
    d = sshString sessionId ++ (buf.contents.take buf.pos).drop beginning := by
  simp only [signData, ite_exit_eq_ok, bind_eq_ok] at h
  obtain ⟨hle, b₀, hb₀, b₁, hb₁, c, hc, p, hp, b₂, hb₂, b₃, hb₃, h⟩ := h
  rw [pure_eq_ok] at h
  have hnew : b₀.pos = b₀.len ∧ b₀.written = [] := by
    simp only [bufNew] at hb₀
    split_ifs at hb₀
    · simp at hb₀
    · cases hb₀
      exact ⟨rfl, rfl⟩
  obtain ⟨hw₁, hpos₁⟩ := bufPutstring_ok hnew.1 hb₁
  obtain ⟨hw₂, hpos₂⟩ := bufPutbytes_ok hpos₁ hb₂
  have hc' : c.data = buf.data ∧ c.len = buf.len ∧ c.pos = beginning := by
    simp only [bufSetpos] at hc
    split_ifs at hc
    · simp at hc
    · cases hc
      exact ⟨rfl, rfl, rfl⟩
  have hb₃' : b₃.contents = b₂.contents := by
    simp only [bufSetpos] at hb₃
    split_ifs at hb₃
    · simp at hb₃
    · cases hb₃
      rfl
  have hp' : p = (buf.contents.take buf.pos).drop beginning := by
    obtain ⟨hplen, r, hr⟩ := bufGetptr_ok.1 hp
    have htake : p = c.rest.take (buf.pos - beginning) := by rw [hr, ← hplen, List.take_left]
    rw [htake, Buffer.rest, hc'.1, hc'.2.1, hc'.2.2, Buffer.contents]
    exact List.drop_take.symm
  rw [← h, hb₃', ← hp', Buffer.contents, ← hpos₂]
  calc b₂.written = b₁.written ++ p := hw₂
    _ = sshString sessionId ++ p := by rw [hw₁, hnew.2, List.nil_append]

/-! ### What a request can do -/

/-- The request carries the password. -/
def CarriesPassword (buf : Buffer) (password : Bytes) : Prop :=
  ∃ b b', bufGetbool buf = .ok (false, b) ∧ bufGetstring b = .ok (password, b')

/-- What a request does to the state `s` behind `checkusername`. -/
inductive RequestEffect (H : Host) (o : SvrOpts) (sessionId : Bytes) (inp : AuthInput)
    (methodname : Bytes) (buf : Buffer) (validUser : Bool) (s : AuthState) : AuthState → Prop
  /-- A failure message, or the answer to a key query. -/
  | refused (sent : List AuthReply) (failcount queries : ℕ) :
      RequestEffect H o sessionId inp methodname buf validUser s
        { s with sent := sent, failcount := failcount, servPubkeyQueryCount := queries }
  | blankPassword (sent : List AuthReply) (hm : methodname = ascii "none")
      (h : blankAccepted o s validUser) :
      RequestEffect H o sessionId inp methodname buf validUser s
        { s with sent := sent, authdone := true, log := s.log ++ [.blankPassword s.pwName] }
  | ps4Default (sent : List AuthReply) (password : Bytes) (hm : methodname = ascii "password")
      (ha : passwordAllowed o s) (hp : CarriesPassword buf password)
      (h : passwordVerdict H s validUser password = .ps4Default) :
      RequestEffect H o sessionId inp methodname buf validUser s
        { s with sent := sent, authdone := true, log := s.log ++ [.ps4DefaultUser s.pwName] }
  | password (sent : List AuthReply) (password : Bytes) (hm : methodname = ascii "password")
      (ha : passwordAllowed o s) (hp : CarriesPassword buf password)
      (h : passwordVerdict H s validUser password = .crypt)
      (hlast : ¬ (o.multiauthmethod ∧ s.authPubkey)) :
      RequestEffect H o sessionId inp methodname buf validUser s
        { s with sent := sent, authdone := true, log := s.log ++ [.password s.pwName] }
  | passwordExtra (sent : List AuthReply) (failcount : ℕ) (password : Bytes)
      (hm : methodname = ascii "password") (ha : passwordAllowed o s)
      (hp : CarriesPassword buf password)
      (h : passwordVerdict H s validUser password = .crypt)
      (hmulti : o.multiauthmethod ∧ s.authPubkey) :
      RequestEffect H o sessionId inp methodname buf validUser s
        { s with
          sent := sent, failcount := failcount, authPassword := false
          log := s.log ++ [.password s.pwName] }
  | pubkey (sent : List AuthReply) (v : VerifiedKey) (hm : methodname = ascii "publickey")
      (h : pubkeyVerdict H sessionId inp buf validUser = .ok (.verified v))
      (hlast : ¬ (o.multiauthmethod ∧ s.authPassword)) :
      RequestEffect H o sessionId inp methodname buf validUser s
        { s with
          sent := sent, authdone := true, log := s.log ++ [.pubkey s.pwName]
          pubkeyOptions := some (s.pubkeyOptions.getD v.options) }
  | pubkeyExtra (sent : List AuthReply) (failcount : ℕ) (v : VerifiedKey)
      (hm : methodname = ascii "publickey")
      (h : pubkeyVerdict H sessionId inp buf validUser = .ok (.verified v))
      (hmulti : o.multiauthmethod ∧ s.authPassword) :
      RequestEffect H o sessionId inp methodname buf validUser s
        { s with
          sent := sent, failcount := failcount, authPubkey := false
          log := s.log ++ [.pubkey s.pwName]
          pubkeyOptions := some (s.pubkeyOptions.getD v.options) }

variable {sessionId : Bytes} {inp : AuthInput} {methodname : Bytes} {buf : Buffer}
  {validUser : Bool} {s s' : AuthState}

theorem RequestEffect.of_failure {p i : Bool} (h : sendMsgUserauthFailure o s p i = .ok s') :
    RequestEffect H o sessionId inp methodname buf validUser s s' := by
  rw [sendMsgUserauthFailure_ok h]
  exact .refused s'.sent s'.failcount s.servPubkeyQueryCount

theorem svrAuthPassword_effect (hm : methodname = ascii "password") (ha : passwordAllowed o s)
    (h : svrAuthPassword H o s buf validUser = .ok s') :
    RequestEffect H o sessionId inp methodname buf validUser s s' := by
  simp only [svrAuthPassword, bind_eq_ok, Prod.exists] at h
  obtain ⟨changepw, b, hb, h⟩ := h
  cases changepw with
  | true => exact .of_failure h
  | false =>
    simp only [Bool.false_eq_true, if_false, bind_eq_ok, Prod.exists] at h
    obtain ⟨password, b', hb', h⟩ := h
    have hp : CarriesPassword buf password := ⟨b, b', hb, hb'⟩
    split at h
    · exact .of_failure h
    · next hv =>
      rw [sendMsgUserauthSuccess_ok h]
      exact .ps4Default _ password hm ha hp hv
    · next hv =>
      split_ifs at h with hmulti
      · rw [sendMsgUserauthFailure_ok h]
        exact .passwordExtra _ _ password hm ha hp hv hmulti
      · rw [sendMsgUserauthSuccess_ok h]
        exact .password _ password hm ha hp hv hmulti

theorem svrAuthPubkey_effect (hm : methodname = ascii "publickey")
    (h : svrAuthPubkey H o sessionId s inp buf validUser = .ok s') :
    RequestEffect H o sessionId inp methodname buf validUser s s' := by
  simp only [svrAuthPubkey, bind_eq_ok] at h
  obtain ⟨verdict, hv, h⟩ := h
  cases verdict with
  | refused => exact .of_failure h
  | unauthorised =>
    simp only [bind_eq_ok, pure_eq_ok] at h
    obtain ⟨s₁, hs₁, rfl⟩ := h
    rw [sendMsgUserauthFailure_ok hs₁]
    exact .refused _ _ _
  | query sigalgo keyblob =>
    cases h
    exact .refused _ s.failcount s.servPubkeyQueryCount
  | badKey => exact .of_failure h
  | badSignature => exact .of_failure h
  | verified v =>
    dsimp only at h
    split_ifs at h with hmulti
    · rw [sendMsgUserauthFailure_ok h]
      exact .pubkeyExtra _ _ v hm hv hmulti
    · rw [sendMsgUserauthSuccess_ok h]
      exact .pubkey _ v hm hv hmulti

/-- **What a request can do.**  Before authentication, a request that does not end the session is
parsed, its user name is checked, and it has one of the effects of `RequestEffect`. -/
theorem recvMsgUserauthRequest_effect (hdone : s.authdone = false)
    (h : recvMsgUserauthRequest H o sessionId s inp = .ok s') :
    ∃ req buf validUser s₁, parseUserauthRequest inp.payload.buf = .ok (req, buf) ∧
      checkusername H o s.sendBanner req.username = .ok (validUser, s₁) ∧
      RequestEffect H o sessionId inp req.methodname buf validUser s₁ s' := by
  rw [recvMsgUserauthRequest, if_neg (by simp [hdone])] at h
  simp only [bind_eq_ok, Prod.exists] at h
  obtain ⟨req, buf, hparse, validUser, s₁, hcheck, h⟩ := h
  refine ⟨req, buf, validUser, s₁, hparse, hcheck, ?_⟩
  unfold userauthMethod at h
  split_ifs at h with hnone hblank hpass hpub
  · rw [sendMsgUserauthSuccess_ok h]
    exact .blankPassword _ hnone hblank
  · exact .of_failure h
  · exact svrAuthPassword_effect hpass.2 hpass.1 h
  · exact svrAuthPubkey_effect hpub h
  · exact .of_failure h

/-- The method decides, once the fields and the name are known. -/
theorem recvMsgUserauthRequest_eq {req : UserauthRequest} {s₁ : AuthState}
    (hdone : s.authdone = false) (hparse : parseUserauthRequest inp.payload.buf = .ok (req, buf))
    (hcheck : checkusername H o s.sendBanner req.username = .ok (validUser, s₁)) :
    recvMsgUserauthRequest H o sessionId s inp =
      userauthMethod H o sessionId s₁ inp req.methodname buf validUser := by
  rw [recvMsgUserauthRequest, if_neg (by simp [hdone]), hparse, ok_bind]
  simp only [hcheck, ok_bind]

/-- Requests after authentication are ignored. -/
theorem recvMsgUserauthRequest_of_authdone (hdone : s.authdone = true) :
    recvMsgUserauthRequest H o sessionId s inp = .ok s := by
  rw [recvMsgUserauthRequest, if_pos hdone]

end Ps4Dropbear
