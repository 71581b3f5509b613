import Ps4Dropbear.Auth.Signkey
import Ps4Dropbear.Buffer.Codec

/-!
# Keys in buffers

How `signkey.c`, `rsa.c` and `ed25519.c` write keys, and how they read private keys; the public
ones are read in `Auth.Signkey`.  A public key is put together in a buffer of `MAX_PUBKEY_SIZE`
bytes before it is written.

* `RsaPrivKey`, `Ed25519Key`, `PrivSignKey` : the keys.
* `bufPutPrivKey`, `bufGetPrivKey`, `PrivSignKey.bufPutPubKey` : the functions for all types.
* `rsaPrivFields`, `ed25519PrivFields`, ... : the strings that they are written as.
* `keyEncoding_roundTrip` : **what is written is read back**.
-/

namespace Ps4Dropbear

/-- `dropbear_rsa_key`. -/
structure RsaPrivKey extends RsaKey where
  d : ℕ
  p : ℕ
  q : ℕ
  deriving DecidableEq, Repr

/-- `dropbear_ed25519_key`: two arrays of `CURVE25519_LEN` bytes. -/
structure Ed25519Key where
  priv : Bytes
  pub : Bytes
  length_priv : priv.length = curve25519Len
  length_pub : pub.length = curve25519Len
  deriving DecidableEq

/-- `sign_key`, with the private keys of the build. -/
structure PrivSignKey where
  rsakey : Option RsaPrivKey := none
  ed25519key : Option Ed25519Key := none
  deriving DecidableEq

/-- What `buf_get_pub_key` returns of a key. -/
def PrivSignKey.toSignKey (key : PrivSignKey) : SignKey :=
  { newSignKey with
    rsakey := key.rsakey.map RsaPrivKey.toRsaKey
    ed25519key := key.ed25519key.map Ed25519Key.pub }

/-- `MAX_PUBKEY_SIZE`. -/
def maxPubkeySize : ℕ := 600

/-! ### Writers -/

/-- `buf_put_rsa_pub_key`. -/
def bufPutRsaPubKey (buf : Buffer) (key : RsaKey) : Except Exit Buffer := do
  let buf ← bufPutstring buf (signkeyNameFromType .rsa)
  let buf ← bufPutmpint buf key.e
  bufPutmpint buf key.n

/-- `buf_put_rsa_priv_key`, for a key with `p` and `q`. -/
def bufPutRsaPrivKey (buf : Buffer) (key : RsaPrivKey) : Except Exit Buffer := do
  let buf ← bufPutRsaPubKey buf key.toRsaKey
  let buf ← bufPutmpint buf key.d
  let buf ← bufPutmpint buf key.p
  bufPutmpint buf key.q

/-- `buf_put_ed25519_pub_key`. -/
def bufPutEd25519PubKey (buf : Buffer) (key : Ed25519Key) : Except Exit Buffer := do
  let buf ← bufPutstring buf (signkeyNameFromType .ed25519)
  bufPutstring buf key.pub

/-- `buf_put_ed25519_priv_key`. -/
def bufPutEd25519PrivKey (buf : Buffer) (key : Ed25519Key) : Except Exit Buffer := do
  let buf ← bufPutstring buf (signkeyNameFromType .ed25519)
  let buf ← bufPutint buf (curve25519Len * 2)
  let buf ← bufPutbytes buf key.priv
  bufPutbytes buf key.pub

/-- A function that asserts `key != NULL`. -/
def withKey {κ : Type} (key : Option κ) (f : κ → Except Exit Buffer) : Except Exit Buffer :=
  match key with
  | some key => f key
  | none => dropbearExit "Failed assertion: key != NULL"

/-- The part of `buf_put_pub_key` that depends on the type; there is none for
`DROPBEAR_SIGNKEY_NONE`. -/
def bufPutPubFields (pubkeys : Buffer) (key : PrivSignKey) (type : Option SignkeyType) :
    Except Exit Buffer :=
  match type with
  | some .rsa => withKey key.rsakey fun key => bufPutRsaPubKey pubkeys key.toRsaKey
  | some .ed25519 => withKey key.ed25519key (bufPutEd25519PubKey pubkeys)
  | some .skEd25519 => withKey key.ed25519key (bufPutEd25519PubKey pubkeys)
  | none => .ok pubkeys

/-- `buf_put_pub_key`. -/
def PrivSignKey.bufPutPubKey (buf : Buffer) (key : PrivSignKey) (type : Option SignkeyType) :
    Except Exit Buffer := do
  let pubkeys ← bufNew maxPubkeySize
  let pubkeys ← bufPutPubFields pubkeys key type
  if pubkeys.len = 0 then dropbearExit "Bad key types in buf_put_pub_key"
  else bufPutstring buf pubkeys.contents

/-- `buf_put_priv_key`. -/
def bufPutPrivKey (buf : Buffer) (key : PrivSignKey) (type : Option SignkeyType) :
    Except Exit Buffer :=
  match type with
  | some .rsa => withKey key.rsakey (bufPutRsaPrivKey buf)
  | some .ed25519 => withKey key.ed25519key (bufPutEd25519PrivKey buf)
  | _ => dropbearExit "Bad key types in put pub key"

/-! ### Readers -/

/-- `buf_get_rsa_priv_key`. -/
def bufGetRsaPrivKey (buf : Buffer) : Except Exit (Option RsaPrivKey × Buffer) := do
  let (pub, buf) ← bufGetRsaPubKey buf
  match pub with
  | none => return (none, buf)
  | some pub =>
    let (d, buf) ← bufGetmpint buf
    match d with
    | none => return (none, buf)
    | some d =>
      -- keys without p or q
      if buf.pos = buf.len then dropbearExit "RSA key format is ancient"
      else
        let (p, buf) ← bufGetmpint buf
        match p with
        | none => return (none, buf)
        | some p =>
          let (q, buf) ← bufGetmpint buf
          match q with
          | none => return (none, buf)
          | some q => return (some { pub with d := d, p := p, q := q }, buf)

/-- `buf_get_ed25519_priv_key`. -/
def bufGetEd25519PrivKey (buf : Buffer) : Except Exit (Option Ed25519Key × Buffer) := do
  -- int + "ssh-ed25519"
  let buf ← bufIncrpos buf (4 + 11)
  let (len, buf) ← bufGetint buf
  if len ≠ curve25519Len * 2 ∨ buf.len - buf.pos < len then return (none, buf)
  else
    let priv ← bufGetptr buf curve25519Len
    let buf ← bufIncrpos buf curve25519Len
    let pub ← bufGetptr buf curve25519Len
    let buf ← bufIncrpos buf curve25519Len
    -- which is what `buf_getptr` has given
    if h : priv.length = curve25519Len ∧ pub.length = curve25519Len then
      return (some ⟨priv, pub, h.1, h.2⟩, buf)
    else return (none, buf)

/-- `buf_get_priv_key`, with the type that it returns; `type` is the expected type, `none` for
`DROPBEAR_SIGNKEY_ANY`. -/
def bufGetPrivKey (buf : Buffer) (type : Option SignkeyType) :
    Except Exit ((Option PrivSignKey × Option SignkeyType) × Buffer) := do
  let (ident, buf) ← bufGetstring buf
  let keytype := signkeyTypeFromName ident
  if type ≠ none ∧ type ≠ keytype then return ((none, type), buf)
  else
    -- rewind the buffer back before "ssh-rsa" etc
    let buf ← bufDecrpos buf (ident.length + 4)
    match keytype with
    | some .rsa =>
      let (k, buf) ← bufGetRsaPrivKey buf
      return ((k.map fun k => { rsakey := some k }, keytype), buf)
    | some .ed25519 =>
      let (k, buf) ← bufGetEd25519PrivKey buf
      return ((k.map fun k => { ed25519key := some k }, keytype), buf)
    | _ => return ((none, keytype), buf)

/-- `buf_get_pub_key` with the type that it returns, on the string that `buf_put_pub_key` has
written. -/
def bufGetPubBlob (buf : Buffer) (type : Option SignkeyType) :
    Except Exit ((Option SignKey × Option SignkeyType) × Buffer) := do
  let (_, buf) ← bufGetint buf
  let (ident, _) ← bufGetstring buf
  let keytype := signkeyTypeFromName ident
  let (key, buf) ← bufGetPubKey buf type
  return ((key, if type ≠ none ∧ type ≠ keytype then type else keytype), buf)

/-! ### What is written -/

/-- The strings of a public RSA key. -/
def rsaPubFields (key : RsaKey) : List Bytes :=
  [signkeyNameFromType .rsa, mpintBody key.e, mpintBody key.n]

/-- The strings of a private RSA key. -/
def rsaPrivFields (key : RsaPrivKey) : List Bytes :=
  rsaPubFields key.toRsaKey ++ [mpintBody key.d, mpintBody key.p, mpintBody key.q]

/-- The strings of a public Ed25519 key. -/
def ed25519PubFields (key : Ed25519Key) : List Bytes := [signkeyNameFromType .ed25519, key.pub]

/-- The strings of a private Ed25519 key. -/
def ed25519PrivFields (key : Ed25519Key) : List Bytes :=
  [signkeyNameFromType .ed25519, key.priv ++ key.pub]

theorem encodeFields_append (fs gs : List Bytes) :
    encodeFields (fs ++ gs) = encodeFields fs ++ encodeFields gs :=
  List.flatMap_append

theorem writes_putRsaPubKey (key : RsaKey) :
    Writes (bufPutRsaPubKey · key) (encodeFields (rsaPubFields key)) := by
  have h := (writes_putstring (signkeyNameFromType .rsa)).bind
    ((writes_putmpint key.e).bind (writes_putmpint key.n))
  rw [rsaPubFields, encodeFields_cons, encodeFields_cons, encodeFields_cons, encodeFields_nil,
    List.append_nil]
  exact h

theorem writes_putRsaPrivKey (key : RsaPrivKey) :
    Writes (bufPutRsaPrivKey · key) (encodeFields (rsaPrivFields key)) := by
  have h := (writes_putRsaPubKey key.toRsaKey).bind
    ((writes_putmpint key.d).bind ((writes_putmpint key.p).bind (writes_putmpint key.q)))
  rw [rsaPrivFields, encodeFields_append, encodeFields_cons, encodeFields_cons, encodeFields_cons,
    encodeFields_nil, List.append_nil]
  exact h

theorem writes_putEd25519PubKey (key : Ed25519Key) :
    Writes (bufPutEd25519PubKey · key) (encodeFields (ed25519PubFields key)) := by
  have h := (writes_putstring (signkeyNameFromType .ed25519)).bind (writes_putstring key.pub)
  rw [ed25519PubFields, encodeFields_cons, encodeFields_cons, encodeFields_nil, List.append_nil]
  exact h

theorem writes_putEd25519PrivKey (key : Ed25519Key) :
    Writes (bufPutEd25519PrivKey · key) (encodeFields (ed25519PrivFields key)) := by
  have h := (writes_putstring (signkeyNameFromType .ed25519)).bind
    ((writes_putint (curve25519Len * 2)).bind
      ((writes_putbytes key.priv).bind (writes_putbytes key.pub)))
  have hlen : (key.priv ++ key.pub).length = curve25519Len * 2 := by
    rw [List.length_append, key.length_priv, key.length_pub]
    rfl
  rw [ed25519PrivFields, encodeFields_cons, encodeFields_cons, encodeFields_nil, List.append_nil,
    sshString.eq_def (key.priv ++ key.pub), hlen]
  exact h

/-! ### What is read -/

/-- The numbers of a key that the readers accept. -/
structure RsaReadable (key : RsaPrivKey) : Prop where
  n_bits : minRsaKeylen ≤ mpCountBits key.n
  e_bits : mpCountBits key.e ≤ 64
  e : (mpintBody key.e).length ≤ bufMaxMpint
  n : (mpintBody key.n).length ≤ bufMaxMpint
  d : (mpintBody key.d).length ≤ bufMaxMpint
  p : (mpintBody key.p).length ≤ bufMaxMpint
  q : (mpintBody key.q).length ≤ bufMaxMpint

section Readers

variable {b : Buffer} {r : Bytes} {t : SignkeyType} {type : Option SignkeyType}
  {key : RsaPrivKey}

theorem isMpint_mpintBody {a : ℕ} (h : (mpintBody a).length ≤ bufMaxMpint) :
    IsMpint (mpintBody a) :=
  ⟨h, head_mpintBody_lt a⟩

theorem reads_getRsaPubKey (hk : RsaReadable key) :
    ReadsAs bufGetRsaPubKey (encodeFields (rsaPubFields key.toRsaKey)) (some key.toRsaKey) := by
  intro b r hrest
  rw [rsaPubFields, encodeFields_cons, encodeFields_cons, encodeFields_cons, encodeFields_nil,
    List.append_nil] at hrest ⊢
  rw [List.append_assoc, List.append_assoc] at hrest
  refine (bufGetRsaPubKey_ok hrest).2 ⟨mpintBody key.e, mpintBody key.n, isMpint_mpintBody hk.e,
    isMpint_mpintBody hk.n, ?_, ?_, ?_, ⟨r, rfl⟩, ?_⟩
  · rw [mpFromUbin_mpintBody]
    exact hk.n_bits
  · rw [mpFromUbin_mpintBody]
    exact hk.e_bits
  · rw [mpFromUbin_mpintBody, mpFromUbin_mpintBody]
  · rw [List.length_append, List.length_append, length_sshString, length_sshString,
      length_sshString, ← Nat.add_assoc]
    rfl

theorem reads_getRsaPrivKey (hk : RsaReadable key) :
    ReadsAs bufGetRsaPrivKey (encodeFields (rsaPrivFields key)) (some key) := by
  intro b r hrest
  rw [rsaPrivFields, encodeFields_append, encodeFields_cons, encodeFields_cons, encodeFields_cons,
    encodeFields_nil, List.append_nil] at hrest ⊢
  simp only [List.append_assoc] at hrest
  have hpub := reads_getRsaPubKey hk hrest
  have hrest₁ := Buffer.rest_advance_of_append hrest
  have hd := reads_getmpint hk.d hrest₁
  have hrest₂ := Buffer.rest_advance_of_append hrest₁
  have hp := reads_getmpint hk.p hrest₂
  have hrest₃ := Buffer.rest_advance_of_append hrest₂
  have hq := reads_getmpint hk.q hrest₃
  -- there are `p` and `q`
  have hmore : ∀ c : Buffer, c.rest = sshString (mpintBody key.p) ++
      (sshString (mpintBody key.q) ++ r) → ¬ c.pos = c.len := by
    intro c hc hend
    have hlen := c.length_rest
    rw [hc, hend, List.length_append, length_sshString] at hlen
    omega
  unfold bufGetRsaPrivKey
  rw [hpub, ok_bind]
  dsimp only
  rw [hd, ok_bind]
  dsimp only
  rw [if_neg (hmore _ hrest₂), hp, ok_bind]
  dsimp only
  rw [hq, ok_bind]
  simp only [Buffer.advance_advance, List.length_append, Nat.add_assoc]
  rfl

/-- The next bytes, and the position behind them. -/
theorem getptr_of_rest {x : Bytes} {n : ℕ} (hx : x.length = n) (hrest : b.rest = x ++ r) :
    bufGetptr b n = .ok x ∧ bufIncrpos b n = .ok (b.advance n) := by
  refine ⟨bufGetptr_ok.2 ⟨hx, r, hrest⟩, bufIncrpos_ok.2 ⟨?_, rfl⟩⟩
  rw [hrest, List.length_append, hx]
  exact Nat.le_add_right _ _

theorem reads_getEd25519PrivKey (key : Ed25519Key) :
    ReadsAs bufGetEd25519PrivKey (encodeFields (ed25519PrivFields key)) (some key) := by
  intro b r hrest
  have hlen : (key.priv ++ key.pub).length = curve25519Len * 2 := by
    rw [List.length_append, key.length_priv, key.length_pub]
    rfl
  rw [ed25519PrivFields, encodeFields_cons, encodeFields_cons, encodeFields_nil, List.append_nil]
    at hrest ⊢
  rw [List.append_assoc] at hrest
  have hname : bufIncrpos b (4 + 11) = .ok (b.advance 15) := by
    refine bufIncrpos_ok.2 ⟨?_, rfl⟩
    rw [hrest, List.length_append, length_sshString]
    exact Nat.le_add_right _ _
  have hrest₁ : (b.advance 15).rest = sshString (key.priv ++ key.pub) ++ r :=
    Buffer.rest_advance_of_append (x := sshString (signkeyNameFromType .ed25519)) hrest
  rw [sshString, hlen, List.append_assoc, List.append_assoc] at hrest₁
  have hint := reads_getint (v := curve25519Len * 2) (by decide) hrest₁
  have hrest₂ := Buffer.rest_advance_of_append hrest₁
  have hpriv := getptr_of_rest key.length_priv hrest₂
  have hrest₃ := Buffer.rest_advance_of_append hrest₂
  rw [key.length_priv] at hrest₃
  have hpub := getptr_of_rest key.length_pub hrest₃
  have hthere : ¬ (curve25519Len * 2 ≠ curve25519Len * 2 ∨
      ((b.advance 15).advance (store32h (curve25519Len * 2)).length).len -
        ((b.advance 15).advance (store32h (curve25519Len * 2)).length).pos < curve25519Len * 2) := by
    rw [← Buffer.length_rest, hrest₂, List.length_append, List.length_append, key.length_priv,
      key.length_pub]
    omega
  unfold bufGetEd25519PrivKey
  rw [hname, ok_bind, hint, ok_bind]
  dsimp only
  rw [if_neg hthere, hpriv.1, ok_bind, hpriv.2, ok_bind, hpub.1, ok_bind, hpub.2, ok_bind,
    dif_pos ⟨key.length_priv, key.length_pub⟩]
  simp only [Buffer.advance_advance, List.length_append, length_sshString, key.length_priv,
    key.length_pub]
  rfl

/-- Behind the name of a type the readers go back to the start of it. -/
theorem rewind_name (hrest : b.rest = sshString (signkeyNameFromType t) ++ r) :
    ∃ c, bufGetstring b = .ok (signkeyNameFromType t, c) ∧
      bufDecrpos c ((signkeyNameFromType t).length + 4) = .ok b := by
  refine ⟨_, reads_getstring (length_signkeyNameFromType_le t) hrest, ?_⟩
  rw [length_sshString, Nat.add_comm _ 4]
  refine bufDecrpos_advance ?_
  rw [hrest, List.length_append, length_sshString]
  exact Nat.le_add_right _ _

/-- The types that a caller may ask for when there is a key of type `t`. -/
def Asks (type : Option SignkeyType) (t : SignkeyType) : Prop := type = none ∨ type = some t

theorem Asks.accepts (h : Asks type t) : ¬ (type ≠ none ∧ type ≠ some t) := by
  rintro ⟨hnone, hsome⟩
  exact h.elim hnone hsome

theorem reads_getPrivKey_rsa (hk : RsaReadable key) (ht : Asks type .rsa) :
    ReadsAs (bufGetPrivKey · type) (encodeFields (rsaPrivFields key))
      (some { rsakey := some key }, some .rsa) := by
  intro b r hrest
  have hread := reads_getRsaPrivKey hk hrest
  rw [rsaPrivFields, rsaPubFields, List.cons_append, encodeFields_cons, List.append_assoc] at hrest
  obtain ⟨c, hname, hback⟩ := rewind_name hrest
  change bufGetPrivKey b type = _
  unfold bufGetPrivKey
  rw [hname, ok_bind]
  simp only [signkeyTypeFromName_eq_some.2 rfl]
  rw [if_neg ht.accepts, hback, ok_bind, hread, ok_bind]
  rfl

theorem reads_getPrivKey_ed25519 (key : Ed25519Key) (ht : Asks type .ed25519) :
    ReadsAs (bufGetPrivKey · type) (encodeFields (ed25519PrivFields key))
      (some { ed25519key := some key }, some .ed25519) := by
  intro b r hrest
  have hread := reads_getEd25519PrivKey key hrest
  rw [ed25519PrivFields, encodeFields_cons, List.append_assoc] at hrest
  obtain ⟨c, hname, hback⟩ := rewind_name hrest
  change bufGetPrivKey b type = _
  unfold bufGetPrivKey
  rw [hname, ok_bind]
  simp only [signkeyTypeFromName_eq_some.2 rfl]
  rw [if_neg ht.accepts, hback, ok_bind, hread, ok_bind]
  rfl

/-- `DROPBEAR_SIGNKEY_ANY` is as good as the type that is there. -/
theorem bufGetPubKey_asks (ht : Asks type t)
    (hrest : b.rest = sshString (signkeyNameFromType t) ++ r) :
    bufGetPubKey b type = bufGetPubKey b (some t) := by
  obtain ⟨c, hname, -⟩ := rewind_name hrest
  unfold bufGetPubKey
  rw [hname, ok_bind, ok_bind]
  simp only [signkeyTypeFromName_eq_some.2 rfl]
  rw [if_neg ht.accepts, if_neg (fun h => h.2 rfl)]

/-- The public key in a string. -/
theorem reads_getPubBlob {fields : List Bytes} {pub : SignKey} (hf : KeyFields t fields pub)
    (hlen : (encodeFields fields).length < 2 ^ 32) (ht : Asks type t) :
    ReadsAs (bufGetPubBlob · type) (sshString (encodeFields fields)) (some pub, some t) := by
  intro b r hrest
  rw [sshString, List.append_assoc] at hrest
  have hint := reads_getint hlen hrest
  have hrest₁ := Buffer.rest_advance_of_append hrest
  obtain ⟨fs, rfl⟩ : ∃ fs, fields = signkeyNameFromType t :: fs := by
    cases t with
    | rsa =>
      obtain ⟨e, n, rfl, -⟩ := hf
      exact ⟨_, rfl⟩
    | ed25519 =>
      obtain ⟨p, rfl, -⟩ := hf
      exact ⟨_, rfl⟩
    | skEd25519 =>
      obtain ⟨p, a, rfl, -⟩ := hf
      exact ⟨_, rfl⟩
  have hkey := bufGetPubKey_ok.2 ⟨_, hf, ⟨r, hrest₁⟩, rfl⟩
  have hrest₂ : (b.advance (store32h (encodeFields (signkeyNameFromType t :: fs)).length).length
      ).rest = sshString (signkeyNameFromType t) ++ (encodeFields fs ++ r) := by
    rw [hrest₁, encodeFields_cons, List.append_assoc]
  obtain ⟨c, hname, -⟩ := rewind_name hrest₂
  change bufGetPubBlob b type = _
  unfold bufGetPubBlob
  rw [hint, ok_bind]
  dsimp only
  rw [hname, ok_bind]
  dsimp only
  rw [bufGetPubKey_asks ht hrest₂, hkey, ok_bind]
  dsimp only
  rw [signkeyTypeFromName_eq_some.2 rfl, if_neg ht.accepts, Buffer.advance_advance, sshString,
    List.length_append]
  rfl

end Readers

/-! ### Public keys -/

section Public

variable {k : RsaPrivKey} {key : PrivSignKey} {type : Option SignkeyType} {enc : Bytes}
  {b b' : Buffer}

/-- A public key of at most `MAX_PUBKEY_SIZE` bytes is written as a string. -/
theorem writes_putPubKey (h : Writes (bufPutPubFields · key type) enc) (hne : enc ≠ [])
    (hlen : enc.length ≤ maxPubkeySize) :
    Writes (PrivSignKey.bufPutPubKey · key type) (sshString enc) := by
  intro b size u hb hn
  obtain ⟨pubkeys, hnew, hnil⟩ := Buffer.bufNew_has (show maxPubkeySize ≤ bufMaxSize by decide)
  obtain ⟨pubkeys', hfields, hhas⟩ := h hnil (by rw [List.length_nil, Nat.zero_add]; exact hlen)
  have hfields' : bufPutPubFields pubkeys key type = .ok pubkeys' := hfields
  have hused : pubkeys'.contents = enc := hhas.used
  have hsome : ¬ pubkeys'.len = 0 := by
    rw [hhas.len, List.length_eq_zero_iff]
    exact hne
  obtain ⟨b', hput, hb'⟩ := writes_putstring enc hb hn
  refine ⟨b', ?_, hb'⟩
  change PrivSignKey.bufPutPubKey b key type = _
  unfold PrivSignKey.bufPutPubKey
  rw [hnew, ok_bind, hfields', ok_bind, if_neg hsome, hused]
  exact hput

theorem puts_putstring {x : Bytes} (h : bufPutstring b x = .ok b') :
    b.Puts (sshString x).length b' := by
  obtain ⟨c, hint, hbytes⟩ := bind_eq_ok.1 h
  rw [length_sshString]
  exact (Buffer.puts_putbytes hint).trans (Buffer.puts_putbytes hbytes)

theorem puts_putRsaPubKey {key : RsaKey} (h : bufPutRsaPubKey b key = .ok b') :
    b.Puts (encodeFields (rsaPubFields key)).length b' := by
  obtain ⟨c, hname, h⟩ := bind_eq_ok.1 h
  obtain ⟨d, he, hn⟩ := bind_eq_ok.1 h
  have hputs := (puts_putstring hname).trans
    ((Buffer.puts_putmpint he).trans (Buffer.puts_putmpint hn))
  rw [← List.length_append, ← List.length_append] at hputs
  rw [rsaPubFields, encodeFields_cons, encodeFields_cons, encodeFields_cons, encodeFields_nil,
    List.append_nil]
  exact hputs

/-- A longer public key is not written. -/
theorem bufPutPubKey_rsa_ne_ok
    (hlen : maxPubkeySize < (encodeFields (rsaPubFields k.toRsaKey)).length) (b b' : Buffer) :
    PrivSignKey.bufPutPubKey b { rsakey := some k } (some .rsa) ≠ .ok b' := by
  intro h
  obtain ⟨pubkeys, hnew, hnil⟩ := Buffer.bufNew_has (show maxPubkeySize ≤ bufMaxSize by decide)
  obtain ⟨c, hnew', h⟩ := bind_eq_ok.1 h
  cases hnew.symm.trans hnew'
  obtain ⟨d, hfields, -⟩ := bind_eq_ok.1 h
  have hputs : pubkeys.Puts (encodeFields (rsaPubFields k.toRsaKey)).length d :=
    puts_putRsaPubKey hfields
  have hle := hputs.le
  rw [hnil.pos, hnil.size, Nat.zero_add] at hle
  exact absurd hle (Nat.not_le.2 hlen)

theorem length_rsaPubFields (key : RsaKey) : (encodeFields (rsaPubFields key)).length =
    19 + (if key.e = 0 then 0 else mpCountBits key.e / 8 + 1) +
      if key.n = 0 then 0 else mpCountBits key.n / 8 + 1 := by
  rw [rsaPubFields, encodeFields_cons, encodeFields_cons, encodeFields_cons, encodeFields_nil,
    List.append_nil, List.length_append, List.length_append, length_sshString, length_sshString,
    length_sshString, length_mpintBody, length_mpintBody]
  change 4 + 7 + _ = _
  omega

end Public

/-! ### Round trips -/

/-- **Keys and numbers are read back as they have been written**, by the readers for their type
and for any type; a public key has to fit in `MAX_PUBKEY_SIZE` bytes.  Numbers are written in
their unique shortest form. -/
theorem keyEncoding_roundTrip :
    (∀ (k : Ed25519Key) (type : Option SignkeyType), Asks type .ed25519 →
      ReadsBack (bufPutPrivKey · { ed25519key := some k } (some .ed25519)) (bufGetPrivKey · type)
        (encodeFields (ed25519PrivFields k)).length
        (some { ed25519key := some k }, some .ed25519) ∧
      ReadsBack (PrivSignKey.bufPutPubKey · { ed25519key := some k } (some .ed25519))
        (bufGetPubBlob · type)
        (sshString (encodeFields (ed25519PubFields k))).length
        (some (PrivSignKey.toSignKey { ed25519key := some k }), some .ed25519)) ∧
    (∀ (k : RsaPrivKey) (type : Option SignkeyType), RsaReadable k → Asks type .rsa →
      ReadsBack (bufPutPrivKey · { rsakey := some k } (some .rsa)) (bufGetPrivKey · type)
        (encodeFields (rsaPrivFields k)).length (some { rsakey := some k }, some .rsa) ∧
      ((encodeFields (rsaPubFields k.toRsaKey)).length ≤ maxPubkeySize →
        ReadsBack (PrivSignKey.bufPutPubKey · { rsakey := some k } (some .rsa))
          (bufGetPubBlob · type)
          (sshString (encodeFields (rsaPubFields k.toRsaKey))).length
          (some (PrivSignKey.toSignKey { rsakey := some k }), some .rsa))) ∧
    ∀ a : ℕ, (mpintBody a).length ≤ bufMaxMpint →
      Writes (bufPutmpint · a) (sshString (mpintBody a)) ∧
      twosComplement (mpintBody a) = a ∧
      (∀ bs, twosComplement bs = a → (mpintBody a).length ≤ bs.length ∧
        ((mpintBody a).length = bs.length → mpintBody a = bs)) ∧
      ReadsBack (bufPutmpint · a) bufGetmpint (sshString (mpintBody a)).length (some a) := by
  refine ⟨fun k type ht => ⟨?_, ?_⟩, fun k type hk ht => ⟨?_, fun hlen => ?_⟩,
    fun a ha => ⟨?_, ?_, ?_, ?_⟩⟩
  · exact (writes_putEd25519PrivKey k).readsBack (reads_getPrivKey_ed25519 k ht)
  · have hlen : (encodeFields (ed25519PubFields k)).length = 51 := by
      rw [ed25519PubFields, encodeFields_cons, encodeFields_cons, encodeFields_nil,
        List.append_nil, List.length_append, length_sshString, length_sshString, k.length_pub]
      rfl
    have hput : Writes (PrivSignKey.bufPutPubKey · { ed25519key := some k } (some .ed25519)) _ :=
      writes_putPubKey (writes_putEd25519PubKey k) (fun h => by rw [h] at hlen; cases hlen)
        (by rw [hlen]; decide)
    exact hput.readsBack (reads_getPubBlob ⟨k.pub, rfl, k.length_pub, rfl⟩
      (by rw [hlen]; decide) ht)
  · exact (writes_putRsaPrivKey k).readsBack (reads_getPrivKey_rsa hk ht)
  · have hput : Writes (PrivSignKey.bufPutPubKey · { rsakey := some k } (some .rsa)) _ :=
      writes_putPubKey (writes_putRsaPubKey k.toRsaKey) (fun h => by cases h) hlen
    refine hput.readsBack (reads_getPubBlob ⟨mpintBody k.e, mpintBody k.n, rfl,
      isMpint_mpintBody hk.e, isMpint_mpintBody hk.n, ?_, ?_, ?_⟩ ?_ ht)
    · rw [mpFromUbin_mpintBody]
      exact hk.n_bits
    · rw [mpFromUbin_mpintBody]
      exact hk.e_bits
    · rw [mpFromUbin_mpintBody, mpFromUbin_mpintBody]
      rfl
    · exact Nat.lt_of_le_of_lt hlen (by decide)
  · exact writes_putmpint a
  · exact twosComplement_mpintBody a
  · exact fun bs => mpintBody_shortest
  · exact (writes_putmpint a).readsBack (reads_getmpint ha)

/-- The RSA key of two Mersenne primes, with `e = 65537`. -/
def mersenneKey (a b k : ℕ) : RsaPrivKey where
  e := 65537
  n := (2 ^ a - 1) * (2 ^ b - 1)
  d := (k * ((2 ^ a - 2) * (2 ^ b - 2)) + 1) / 65537
  p := 2 ^ a - 1
  q := 2 ^ b - 1

theorem keyEncoding_roundTrip_mersenne :
    ReadsBack
      (PrivSignKey.bufPutPubKey · { rsakey := some (mersenneKey 521 607 10880) } (some .rsa))
      (bufGetPubBlob · none)
      (sshString (encodeFields (rsaPubFields (mersenneKey 521 607 10880).toRsaKey))).length
      (some (PrivSignKey.toSignKey { rsakey := some (mersenneKey 521 607 10880) }), some .rsa) := by
  refine (keyEncoding_roundTrip.2.1 (mersenneKey 521 607 10880) none ?_ (Or.inl rfl)).2 ?_
  · constructor
    all_goals
      try rw [length_mpintBody]
      decide +kernel
  · rw [length_rsaPubFields]
    decide +kernel

/-- A key of 6534 bits cannot be written as a public key, though every number of it has fewer than
`BUF_MAX_MPINT` bytes. -/
theorem bufPutPubKey_mersenne :
    RsaReadable (mersenneKey 2281 4253 8704) ∧
      ∀ b b', PrivSignKey.bufPutPubKey b { rsakey := some (mersenneKey 2281 4253 8704) }
        (some .rsa) ≠ .ok b' := by
  constructor
  · constructor
    all_goals
      try rw [length_mpintBody]
      decide +kernel
  · refine bufPutPubKey_rsa_ne_ok ?_
    rw [length_rsaPubFields]
    decide +kernel

end Ps4Dropbear
