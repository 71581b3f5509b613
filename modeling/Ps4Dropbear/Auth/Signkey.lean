import Ps4Dropbear.Buffer.Basic

/-!
# Public keys

The key types of the PS4 build (`DROPBEAR_RSA`, `DROPBEAR_ED25519` and `DROPBEAR_SK_ED25519`; DSS
and ECDSA are compiled out), their names, and the parsers `buf_get_pub_key`,
`buf_get_rsa_pub_key` and `buf_get_ed25519_pub_key` of `signkey.c`, `rsa.c` and `ed25519.c`.

`buf_get_pub_key` is given a buffer with more than the key blob in it and stops where the fields
of the key type stop.  `bufGetPubKey_ok` says what that is: a fixed number of SSH strings that
depends on the type only (`keyFieldCount`).

## Main results

* `bufGetPubKey_ok` : the parser returns a key iff the unread bytes start with the fields of that
  key, and it advances by exactly these fields.
* `encodeFields_append_inj` : a sequence of fields is determined by its encoding.
-/

namespace Ps4Dropbear

/-- `enum signkey_type`, as far as it has names; `DROPBEAR_SIGNKEY_NONE` and
`DROPBEAR_SIGNKEY_ANY` are `none` in an `Option`. -/
inductive SignkeyType
  | rsa
  | ed25519
  | skEd25519
  deriving DecidableEq, Repr

/-- `enum signature_type`: apart from `rsa-sha2-256` a signature type is a key type.  The build has
no `DROPBEAR_SIGNATURE_RSA_SHA1`, so the name `ssh-rsa` is the value of `DROPBEAR_SIGNKEY_RSA`. -/
inductive SignatureType
  | rsaSha256
  | key (type : SignkeyType)
  deriving DecidableEq, Repr

/-- `signkey_name_from_type`, a row of `signkey_names`. -/
def signkeyNameFromType : SignkeyType → Bytes
  | .rsa => ascii "ssh-rsa"
  | .ed25519 => ascii "ssh-ed25519"
  | .skEd25519 => ascii "sk-ssh-ed25519@openssh.com"

/-- `signkey_type_from_name`. -/
def signkeyTypeFromName (name : Bytes) : Option SignkeyType :=
  [SignkeyType.rsa, .ed25519, .skEd25519].find? fun t => signkeyNameFromType t = name

/-- `signature_type_from_name`. -/
def signatureTypeFromName (name : Bytes) : Option SignatureType :=
  if name = ascii "rsa-sha2-256" then some .rsaSha256
  else (signkeyTypeFromName name).map .key

/-- `signkey_type_from_signature`. -/
def signkeyTypeFromSignature : SignatureType → SignkeyType
  | .rsaSha256 => .rsa
  | .key t => t

theorem signkeyTypeFromName_eq_some {name : Bytes} {t : SignkeyType} :
    signkeyTypeFromName name = some t ↔ name = signkeyNameFromType t := by
  constructor
  · intro h
    have := List.find?_some h
    simpa [eq_comm] using this
  · rintro rfl
    cases t <;> decide

theorem length_signkeyNameFromType_le (t : SignkeyType) :
    (signkeyNameFromType t).length ≤ maxStringLen := by
  cases t <;> decide

/-- The public part of `dropbear_rsa_key`. -/
structure RsaKey where
  e : ℕ
  n : ℕ
  deriving DecidableEq, Repr

/-- `sign_key`: the parts that a public key of one of the types fills in. -/
structure SignKey where
  rsakey : Option RsaKey
  /-- The `pub` array of the Ed25519 key. -/
  ed25519key : Option Bytes
  /-- Application of a security key. -/
  skApp : Option Bytes
  deriving DecidableEq, Repr

/-- `new_sign_key`. -/
def newSignKey : SignKey := ⟨none, none, none⟩

/-- `MIN_RSA_KEYLEN`. -/
def minRsaKeylen : ℕ := 1024

/-- `CURVE25519_LEN`. -/
def curve25519Len : ℕ := 32

/-- `buf_get_rsa_pub_key`. -/
def bufGetRsaPubKey (buf : Buffer) : Except Exit (Option RsaKey × Buffer) := do
  -- int + "ssh-rsa"
  let buf ← bufIncrpos buf (4 + 7)
  let (e, buf) ← bufGetmpint buf
  match e with
  | none => return (none, buf)
  | some e =>
    let (n, buf) ← bufGetmpint buf
    match n with
    | none => return (none, buf)
    | some n =>
      -- "RSA key too short" and "RSA key bad e"
      if mpCountBits n < minRsaKeylen ∨ mpCountBits e > 64 then return (none, buf)
      else return (some ⟨e, n⟩, buf)

/-- `buf_get_ed25519_pub_key`. -/
def bufGetEd25519PubKey (buf : Buffer) (expect : SignkeyType) :
    Except Exit (Option Bytes × Buffer) := do
  let (keytype, buf) ← bufGetstring buf
  if signkeyTypeFromName keytype ≠ some expect then return (none, buf)
  else
    let (len, buf) ← bufGetint buf
    if len ≠ curve25519Len ∨ buf.len - buf.pos < len then return (none, buf)
    else
      let pub ← bufGetptr buf curve25519Len
      let buf ← bufIncrpos buf curve25519Len
      return (some pub, buf)

/-- `buf_get_pub_key`; `type` is the expected type, `none` for `DROPBEAR_SIGNKEY_ANY`.  The
application of a security key is read also after a failure. -/
def bufGetPubKey (buf : Buffer) (type : Option SignkeyType) :
    Except Exit (Option SignKey × Buffer) := do
  let (ident, buf) ← bufGetstring buf
  let keytype := signkeyTypeFromName ident
  if type ≠ none ∧ type ≠ keytype then return (none, buf)
  else
    -- rewind the buffer back before "ssh-rsa" etc
    let buf ← bufDecrpos buf (ident.length + 4)
    match keytype with
    | none => return (none, buf)
    | some .rsa =>
      let (k, buf) ← bufGetRsaPubKey buf
      return (k.map fun k => { newSignKey with rsakey := some k }, buf)
    | some .ed25519 =>
      let (k, buf) ← bufGetEd25519PubKey buf .ed25519
      return (k.map fun k => { newSignKey with ed25519key := some k }, buf)
    | some .skEd25519 =>
      let (k, buf) ← bufGetEd25519PubKey buf .skEd25519
      let (app, buf) ← bufGetstring buf
      return (k.map fun k => { newSignKey with ed25519key := some k, skApp := some app }, buf)

/-! ### Sequences of fields -/

/-- A sequence of SSH strings. -/
def encodeFields (fields : List Bytes) : Bytes := fields.flatMap sshString

@[simp] theorem encodeFields_nil : encodeFields [] = [] := rfl

@[simp] theorem encodeFields_cons (f : Bytes) (fs : List Bytes) :
    encodeFields (f :: fs) = sshString f ++ encodeFields fs := rfl

theorem length_lt_of_mem_encodeFields {fs : List Bytes} {f : Bytes} (hf : f ∈ fs) :
    f.length < (encodeFields fs).length := by
  induction fs with
  | nil => cases hf
  | cons g gs ih =>
    rw [encodeFields_cons, List.length_append, length_sshString]
    rcases List.mem_cons.1 hf with rfl | hf
    · omega
    · have := ih hf
      omega

/-- The number of fields and the bytes determine the fields. -/
theorem encodeFields_append_inj {fs gs : List Bytes} {r r' : Bytes} (hlen : fs.length = gs.length)
    (hfs : ∀ f ∈ fs, f.length < 2 ^ 32) (hgs : ∀ g ∈ gs, g.length < 2 ^ 32)
    (h : encodeFields fs ++ r = encodeFields gs ++ r') : fs = gs ∧ r = r' := by
  induction fs generalizing gs with
  | nil =>
    cases gs with
    | nil => exact ⟨rfl, h⟩
    | cons => cases hlen
  | cons f fs ih =>
    cases gs with
    | nil => cases hlen
    | cons g gs =>
      simp only [encodeFields_cons, List.append_assoc] at h
      obtain ⟨rfl, h'⟩ := sshString_append_inj (hfs f (by simp)) (hgs g (by simp)) h
      obtain ⟨rfl, rfl⟩ := ih (by simpa using hlen) (fun x hx => hfs x (by simp [hx]))
        (fun x hx => hgs x (by simp [hx])) h'
      exact ⟨rfl, rfl⟩

/-! ### What the parsers accept -/

/-- The number of SSH strings in the encoding of a public key. -/
def keyFieldCount : SignkeyType → ℕ
  | .rsa => 3
  | .ed25519 => 2
  | .skEd25519 => 3

/-- `s` is the body of a number that `buf_getmpint` accepts. -/
def IsMpint (s : Bytes) : Prop := s.length ≤ bufMaxMpint ∧ ∀ t ∈ s.head?, t < 128

/-- `fields` are the fields of the public key `key` of type `t`. -/
def KeyFields : SignkeyType → List Bytes → SignKey → Prop
  | .rsa, fields, key => ∃ e n, fields = [signkeyNameFromType .rsa, e, n] ∧ IsMpint e ∧ IsMpint n ∧
      minRsaKeylen ≤ mpCountBits (mpFromUbin n) ∧ mpCountBits (mpFromUbin e) ≤ 64 ∧
      key = { newSignKey with rsakey := some ⟨mpFromUbin e, mpFromUbin n⟩ }
  | .ed25519, fields, key => ∃ pub, fields = [signkeyNameFromType .ed25519, pub] ∧
      pub.length = curve25519Len ∧ key = { newSignKey with ed25519key := some pub }
  | .skEd25519, fields, key => ∃ pub app, fields = [signkeyNameFromType .skEd25519, pub, app] ∧
      pub.length = curve25519Len ∧ app.length ≤ maxStringLen ∧
      key = { newSignKey with ed25519key := some pub, skApp := some app }

theorem KeyFields.length_eq {t : SignkeyType} {fields : List Bytes} {key : SignKey}
    (h : KeyFields t fields key) : fields.length = keyFieldCount t := by
  cases t with
  | rsa => obtain ⟨e, n, rfl, -⟩ := h; rfl
  | ed25519 => obtain ⟨pub, rfl, -⟩ := h; rfl
  | skEd25519 => obtain ⟨pub, app, rfl, -⟩ := h; rfl

theorem bufGetRsaPubKey_ok {b b' : Buffer} {k : RsaKey} {r : Bytes}
    (hname : b.rest = sshString (signkeyNameFromType .rsa) ++ r) :
    bufGetRsaPubKey b = .ok (some k, b') ↔
      ∃ e n, IsMpint e ∧ IsMpint n ∧ minRsaKeylen ≤ mpCountBits (mpFromUbin n) ∧
        mpCountBits (mpFromUbin e) ≤ 64 ∧ k = ⟨mpFromUbin e, mpFromUbin n⟩ ∧
        (∃ r', r = sshString e ++ (sshString n ++ r')) ∧
        b' = b.advance (11 + (4 + e.length) + (4 + n.length)) := by
  have hrest : (b.advance 11).rest = r :=
    Buffer.rest_advance_of_append (x := sshString (signkeyNameFromType .rsa)) hname
  simp only [bufGetRsaPubKey, bind_eq_ok, bufIncrpos_ok, Prod.exists, IsMpint]
  constructor
  · rintro ⟨c, ⟨-, rfl⟩, e?, d, he, h⟩
    cases e? with
    | none => simp at h
    | some ev =>
      simp only [bind_eq_ok, Prod.exists] at h
      obtain ⟨n?, f, hn, h⟩ := h
      cases n? with
      | none => simp at h
      | some nv =>
        obtain ⟨e, hel, hes, rfl, ⟨r₁, hr₁⟩, rfl⟩ := bufGetmpint_ok.1 he
        obtain ⟨n, hnl, hns, rfl, ⟨r₂, hr₂⟩, rfl⟩ := bufGetmpint_ok.1 hn
        dsimp only at h
        split_ifs at h with hsize
        · simp at h
        simp only [pure_eq_ok, Prod.mk.injEq, Option.some.injEq] at h
        obtain ⟨rfl, rfl⟩ := h
        rw [not_or, Nat.not_lt, Nat.not_lt] at hsize
        rw [hrest] at hr₁
        have hr₁' : ((b.advance 11).advance (4 + e.length)).rest = r₁ := by
          rw [← length_sshString, Buffer.rest_advance_of_append (hrest.trans hr₁)]
        exact ⟨e, n, ⟨hel, hes⟩, ⟨hnl, hns⟩, hsize.1, hsize.2, rfl,
          ⟨r₂, by rw [hr₁, ← hr₁', hr₂]⟩, by
            rw [Buffer.advance_advance, Buffer.advance_advance, Nat.add_assoc 11]⟩
  · rintro ⟨e, n, ⟨hel, hes⟩, ⟨hnl, hns⟩, hsize, hsize', rfl, ⟨r', hr'⟩, rfl⟩
    have hr₁ : ((b.advance 11).advance (4 + e.length)).rest = sshString n ++ r' := by
      rw [← length_sshString, Buffer.rest_advance_of_append (hrest.trans hr')]
    have hlen : 4 + 7 ≤ b.rest.length := by
      rw [hname, List.length_append, length_sshString]
      exact Nat.le_add_right _ _
    refine ⟨_, ⟨hlen, rfl⟩, some (mpFromUbin e), _,
      bufGetmpint_ok.2 ⟨e, hel, hes, rfl, ⟨_, hrest.trans hr'⟩, rfl⟩, ?_⟩
    simp only [bind_eq_ok, Prod.exists]
    refine ⟨some (mpFromUbin n), _, bufGetmpint_ok.2 ⟨n, hnl, hns, rfl, ⟨_, hr₁⟩, rfl⟩, ?_⟩
    have hok : ¬ (mpCountBits (mpFromUbin n) < minRsaKeylen ∨ mpCountBits (mpFromUbin e) > 64) := by
      omega
    simp only [hok, if_false, pure_eq_ok, Prod.mk.injEq, true_and]
    rw [Buffer.advance_advance, Buffer.advance_advance, Nat.add_assoc 11]

theorem bufGetEd25519PubKey_ok {b b' : Buffer} {t : SignkeyType} {pub : Bytes} :
    bufGetEd25519PubKey b t = .ok (some pub, b') ↔
      pub.length = curve25519Len ∧
      (∃ r, b.rest = sshString (signkeyNameFromType t) ++ (sshString pub ++ r)) ∧
      b' = b.advance (4 + (signkeyNameFromType t).length + (4 + curve25519Len)) := by
  simp only [bufGetEd25519PubKey, bind_eq_ok, Prod.exists, bufGetstring_ok]
  constructor
  · rintro ⟨name, c, ⟨⟨-, r, hr⟩, rfl⟩, h⟩
    split_ifs at h with hname
    · simp at h
    rw [not_not, signkeyTypeFromName_eq_some] at hname
    subst hname
    simp only [bind_eq_ok, Prod.exists, bufGetint_ok] at h
    obtain ⟨len, d, ⟨⟨-, r₁, hr₁⟩, rfl⟩, h⟩ := h
    split_ifs at h with hlen
    · simp at h
    rw [not_or, not_not] at hlen
    obtain ⟨rfl, -⟩ := hlen
    simp only [bind_eq_ok, bufGetptr_ok, bufIncrpos_ok, pure_eq_ok, Prod.mk.injEq,
      Option.some.injEq] at h
    obtain ⟨p, ⟨hp, r₂, hr₂⟩, f, ⟨-, rfl⟩, rfl, rfl⟩ := h
    have hr₃ := Buffer.rest_advance_of_append hr₁
    rw [length_store32h, hr₂] at hr₃
    rw [← length_sshString, Buffer.rest_advance_of_append hr] at hr₁
    refine ⟨hp, ⟨r₂, ?_⟩, ?_⟩
    · rw [hr, hr₁, ← hr₃, sshString, sshString, hp, List.append_assoc, List.append_assoc,
        List.append_assoc]
    · rw [Buffer.advance_advance, Buffer.advance_advance]
  · rintro ⟨hp, ⟨r, hr⟩, rfl⟩
    refine ⟨_, _, ⟨⟨length_signkeyNameFromType_le t, _, hr⟩, rfl⟩, ?_⟩
    rw [if_neg (by rw [not_not, signkeyTypeFromName_eq_some])]
    have hr₁ := Buffer.rest_advance_of_append hr
    rw [length_sshString, sshString, hp, List.append_assoc] at hr₁
    have hr₂ := Buffer.rest_advance_of_append hr₁
    rw [length_store32h] at hr₂
    simp only [bind_eq_ok, Prod.exists, bufGetint_ok]
    refine ⟨curve25519Len, _, ⟨⟨by decide, _, hr₁⟩, rfl⟩, ?_⟩
    have hlen : ¬ (curve25519Len ≠ curve25519Len ∨ ((b.advance (4 +
        (signkeyNameFromType t).length)).advance 4).len - ((b.advance (4 +
        (signkeyNameFromType t).length)).advance 4).pos < curve25519Len) := by
      rw [← Buffer.length_rest, hr₂, List.length_append, hp]
      omega
    rw [if_neg hlen]
    simp only [bind_eq_ok, bufGetptr_ok, bufIncrpos_ok, pure_eq_ok, Prod.mk.injEq,
      Option.some.injEq]
    refine ⟨pub, ⟨hp, r, hr₂⟩, _, ⟨?_, rfl⟩, rfl, ?_⟩
    · rw [hr₂, List.length_append, hp]
      omega
    · rw [Buffer.advance_advance, Buffer.advance_advance, Nat.add_assoc 4]

/-- Rewinding over what has just been read. -/
theorem bufDecrpos_advance {b : Buffer} {n : ℕ} (h : n ≤ b.rest.length) :
    bufDecrpos (b.advance n) n = .ok b := by
  have hpos := Buffer.advance_pos h
  unfold bufDecrpos
  rw [if_neg (by omega)]
  congr 1
  ext1
  · rfl
  · rfl
  · simp only [hpos]; omega

/-- **What `buf_get_pub_key` accepts**: the unread bytes start with the fields of the key, and
the parser stops behind them. -/
theorem bufGetPubKey_ok {b b' : Buffer} {t : SignkeyType} {key : SignKey} :
    bufGetPubKey b (some t) = .ok (some key, b') ↔
      ∃ fields, KeyFields t fields key ∧ (∃ r, b.rest = encodeFields fields ++ r) ∧
        b' = b.advance (encodeFields fields).length := by
  constructor
  · intro h
    simp only [bufGetPubKey, bind_eq_ok, Prod.exists, bufGetstring_ok] at h
    obtain ⟨ident, c, ⟨⟨-, r, hr⟩, rfl⟩, h⟩ := h
    split_ifs at h with htype
    · simp at h
    have htype' : signkeyTypeFromName ident = some t := by
      simp only [ne_eq, reduceCtorEq, not_false_eq_true, true_and, not_not] at htype
      exact htype.symm
    have hident := signkeyTypeFromName_eq_some.1 htype'
    subst hident
    have hback : bufDecrpos (b.advance (4 + (signkeyNameFromType t).length))
        ((signkeyNameFromType t).length + 4) = .ok b := by
      rw [Nat.add_comm _ 4]
      refine bufDecrpos_advance ?_
      rw [hr, List.length_append, length_sshString]
      exact Nat.le_add_right _ _
    rw [htype', hback, ok_bind] at h
    cases t with
    | rsa =>
      simp only [bind_eq_ok, Prod.exists, pure_eq_ok, Prod.mk.injEq, Option.map_eq_some_iff] at h
      obtain ⟨_, _, hk, ⟨k, rfl, rfl⟩, rfl⟩ := h
      obtain ⟨e, n, he, hn, hsize, hsize', rfl, ⟨r', rfl⟩, rfl⟩ := (bufGetRsaPubKey_ok hr).1 hk
      refine ⟨_, ⟨e, n, rfl, he, hn, hsize, hsize', rfl⟩, ⟨r', by simp [hr]⟩, ?_⟩
      simp only [encodeFields_cons, encodeFields_nil, List.length_append, length_sshString,
        List.length_nil]
      exact congrArg b.advance (Nat.add_assoc _ _ _)
    | ed25519 =>
      simp only [bind_eq_ok, Prod.exists, pure_eq_ok, Prod.mk.injEq, Option.map_eq_some_iff] at h
      obtain ⟨_, _, hk, ⟨pub, rfl, rfl⟩, rfl⟩ := h
      obtain ⟨hp, ⟨r', hr'⟩, rfl⟩ := bufGetEd25519PubKey_ok.1 hk
      refine ⟨_, ⟨pub, rfl, hp, rfl⟩, ⟨r', by simp [hr']⟩, ?_⟩
      simp only [encodeFields_cons, encodeFields_nil, List.length_append, length_sshString,
        List.length_nil, hp, Nat.add_zero]
    | skEd25519 =>
      simp only [bind_eq_ok, Prod.exists, pure_eq_ok, Prod.mk.injEq, Option.map_eq_some_iff] at h
      obtain ⟨_, _, hk, app, _, happ, ⟨pub, rfl, rfl⟩, rfl⟩ := h
      obtain ⟨hp, ⟨r', hr'⟩, rfl⟩ := bufGetEd25519PubKey_ok.1 hk
      obtain ⟨⟨hlen, r'', hr''⟩, rfl⟩ := bufGetstring_ok.1 happ
      have hrest : r' = sshString app ++ r'' := by
        rw [← hr'', ← hp, ← length_sshString pub, ← length_sshString, ← List.length_append]
        exact (Buffer.rest_advance_of_append (by rw [hr', List.append_assoc])).symm
      refine ⟨_, ⟨pub, app, rfl, hp, hlen, rfl⟩, ⟨r'', by simp [hr', hrest]⟩, ?_⟩
      rw [Buffer.advance_advance]
      simp only [encodeFields_cons, encodeFields_nil, List.length_append, length_sshString,
        List.length_nil, hp, Nat.add_zero, Nat.add_assoc]
  · rintro ⟨fields, hf, ⟨r, hr⟩, rfl⟩
    have hname : ∃ r', b.rest = sshString (signkeyNameFromType t) ++ r' := by
      cases t with
      | rsa =>
        obtain ⟨e, n, rfl, -⟩ := hf
        exact ⟨_, by rw [hr, encodeFields_cons, List.append_assoc]⟩
      | ed25519 =>
        obtain ⟨p, rfl, -⟩ := hf
        exact ⟨_, by rw [hr, encodeFields_cons, List.append_assoc]⟩
      | skEd25519 =>
        obtain ⟨p, a, rfl, -⟩ := hf
        exact ⟨_, by rw [hr, encodeFields_cons, List.append_assoc]⟩
    obtain ⟨r', hr'⟩ := hname
    have hread : bufGetstring b = .ok (signkeyNameFromType t,
        b.advance (4 + (signkeyNameFromType t).length)) :=
      bufGetstring_ok.2 ⟨⟨length_signkeyNameFromType_le t, r', hr'⟩, rfl⟩
    have hback : bufDecrpos (b.advance (4 + (signkeyNameFromType t).length))
        ((signkeyNameFromType t).length + 4) = .ok b := by
      rw [Nat.add_comm _ 4]
      refine bufDecrpos_advance ?_
      rw [hr', List.length_append, length_sshString]
      exact Nat.le_add_right _ _
    have htype : signkeyTypeFromName (signkeyNameFromType t) = some t :=
      signkeyTypeFromName_eq_some.2 rfl
    rw [bufGetPubKey, hread, ok_bind]
    simp only [htype, ne_eq, not_true_eq_false, and_false, if_false, hback, ok_bind]
    cases t with
    | rsa =>
      obtain ⟨e, n, rfl, he, hn, hsize, hsize', rfl⟩ := hf
      have hr₁ : r' = sshString e ++ (sshString n ++ r) := by
        rw [hr'] at hr
        simpa using hr
      have hk := (bufGetRsaPubKey_ok hr').2 ⟨e, n, he, hn, hsize, hsize', rfl, ⟨r, hr₁⟩, rfl⟩
      simp only [hk, ok_bind, Option.map_some, pure_eq_ok, Prod.mk.injEq, true_and]
      simp only [encodeFields_cons, encodeFields_nil, List.length_append, length_sshString,
        List.length_nil]
      exact congrArg b.advance (Nat.add_assoc _ _ _)
    | ed25519 =>
      obtain ⟨pub, rfl, hp, rfl⟩ := hf
      have hk := (bufGetEd25519PubKey_ok (t := .ed25519)).2 ⟨hp, ⟨r, by simpa using hr⟩, rfl⟩
      simp only [hk, ok_bind, Option.map_some, pure_eq_ok, Prod.mk.injEq, true_and]
      simp only [encodeFields_cons, encodeFields_nil, List.length_append, length_sshString,
        List.length_nil, hp, Nat.add_zero]
    | skEd25519 =>
      obtain ⟨pub, app, rfl, hp, happ, rfl⟩ := hf
      have hr₁ : b.rest = (sshString (signkeyNameFromType .skEd25519) ++ sshString pub) ++
          (sshString app ++ r) := by
        simpa using hr
      have hk := (bufGetEd25519PubKey_ok (t := .skEd25519)).2
        ⟨hp, ⟨sshString app ++ r, by rw [hr₁, List.append_assoc]⟩, rfl⟩
      have hr₂ := Buffer.rest_advance_of_append hr₁
      rw [List.length_append, length_sshString, length_sshString, hp] at hr₂
      have ha := bufGetstring_ok.2 ⟨⟨happ, r, hr₂⟩, rfl⟩
      simp only [hk, ok_bind, ha, Option.map_some, pure_eq_ok, Prod.mk.injEq, true_and]
      rw [Buffer.advance_advance]
      simp only [encodeFields_cons, encodeFields_nil, List.length_append, length_sshString,
        List.length_nil, hp, Nat.add_zero, Nat.add_assoc]

end Ps4Dropbear
