import Ps4Dropbear.Auth.Soundness
import Ps4Dropbear.Auth.WholeLines

/-!
# The verified key and the authorized key

`svr_auth_pubkey` compares the key blob of a request with `authorized_keys` as a range of bytes of
the announced length, and then reads the key from the same position with `buf_get_pub_key`, which
does not know that length.  The two agree when the blob consists of exactly the fields of its key
type; a blob that is cut short is completed with bytes of the request that the file says nothing
about.

* `keyFromBlob_iff` : exactly when the verified key is the authorized one.
-/

namespace Ps4Dropbear

variable {H : Host} {o : SvrOpts} {sessionId : Bytes} {inp : AuthInput} {s s' : AuthState}
  {buf : Buffer} {v : Bool}

/-- The type of the key. -/
def VerifiedKey.keytype (w : VerifiedKey) : SignkeyType := signkeyTypeFromSignature w.sigtype

/-- The key that verified the signature is the one that the blob alone encodes, and exactly the
bytes of the blob were read for it. -/
def KeyFromBlob (w : VerifiedKey) : Prop :=
  w.stop.pos = w.start.pos + w.keyblob.length ∧
  ∃ b b', bufOfBytes w.keyblob = .ok b ∧
    bufGetPubKey b (some w.keytype) = .ok (some w.key, b') ∧ b'.pos = b'.len

/-- A success that is logged comes from a verified signature. -/
theorem exists_verified_of_log (h : svrAuthPubkey H o sessionId s inp buf v = .ok s')
    (hlog : s'.log ≠ s.log) : ∃ w, pubkeyVerdict H sessionId inp buf v = .ok (.verified w) := by
  have heff : RequestEffect H o sessionId inp (ascii "publickey") buf v s s' :=
    svrAuthPubkey_effect rfl h
  cases heff with
  | refused => exact absurd rfl hlog
  | blankPassword sent hm => exact absurd hm (by decide)
  | ps4Default sent password hm => exact absurd hm (by decide)
  | password sent password hm => exact absurd hm (by decide)
  | passwordExtra sent n password hm => exact absurd hm (by decide)
  | pubkey sent w hm hv => exact ⟨w, hv⟩
  | pubkeyExtra sent n w hm hv => exact ⟨w, hv⟩

theorem length_lt_of_mem_of_rest {b : Buffer} {fs : List Bytes} {r f : Bytes}
    (h : b.rest = encodeFields fs ++ r) (hf : f ∈ fs) : f.length < 2 ^ 32 := by
  have h₁ := length_lt_of_mem_encodeFields hf
  have h₂ := b.length_rest_le
  rw [h, List.length_append] at h₂
  simp only [bufMaxIncr] at h₂
  omega

/-- The fields that the key was read from, and the blob, are both at the start position. -/
theorem VerifiedKey.exists_fields {w : VerifiedKey}
    (h : pubkeyVerdict H sessionId inp buf v = .ok (.verified w)) :
    ∃ fields r r', KeyFields w.keytype fields w.key ∧ w.start.rest = encodeFields fields ++ r ∧
      w.start.rest = w.keyblob ++ r' ∧ w.stop = w.start.advance (encodeFields fields).length := by
  obtain ⟨-, ⟨_, _, _, _, _, _, _, hblob⟩, -, hkey, -⟩ := pubkeyVerdict_verified h
  obtain ⟨fields, hf, ⟨r, hr⟩, hstop⟩ := bufGetPubKey_ok.1 hkey
  obtain ⟨-, r', hr'⟩ := bufGetptr_ok.1 hblob
  exact ⟨fields, r, r', hf, hr, hr', hstop⟩

/-- **The verified key is the authorized key** exactly when the blob is a sequence of as many SSH
strings as its key type has. -/
theorem keyFromBlob_iff (H : Host) (o : SvrOpts) (sessionId : Bytes) (s s' : AuthState)
    (inp : AuthInput) (buf : Buffer) (v : Bool)
    (h : svrAuthPubkey H o sessionId s inp buf v = .ok s') (hlog : s'.log ≠ s.log) :
    ∃ w, pubkeyVerdict H sessionId inp buf v = .ok (.verified w) ∧
      (KeyFromBlob w ↔ ∃ fields, fields.length = keyFieldCount w.keytype ∧
        w.keyblob = encodeFields fields) := by
  obtain ⟨w, hw⟩ := exists_verified_of_log h hlog
  obtain ⟨fields, r, r', hf, hr, hr', hstop⟩ := VerifiedKey.exists_fields hw
  refine ⟨w, hw, ?_⟩
  have hpos : w.stop.pos = w.start.pos + (encodeFields fields).length := by
    rw [hstop, Buffer.advance_pos]
    rw [hr, List.length_append]
    omega
  constructor
  · rintro ⟨hend, -⟩
    refine ⟨fields, hf.length_eq, ?_⟩
    exact (List.append_inj (hr'.symm.trans hr) (by omega)).1
  · rintro ⟨gs, hlen, hblob⟩
    rw [hblob] at hr'
    obtain ⟨rfl, -⟩ := encodeFields_append_inj (hlen.trans hf.length_eq.symm)
      (fun _ => length_lt_of_mem_of_rest hr') (fun _ => length_lt_of_mem_of_rest hr)
      (hr'.symm.trans hr)
    have hsize : (encodeFields gs).length ≤ bufMaxSize := by
      have := w.start.length_rest_le
      rw [hr, List.length_append] at this
      simp only [bufMaxIncr, bufMaxSize] at this ⊢
      omega
    refine ⟨by rw [hpos, hblob], Buffer.ofBytes w.keyblob (hblob ▸ hsize), _, ?_,
      bufGetPubKey_ok.2 ⟨gs, hf, ⟨[], ?_⟩, rfl⟩, ?_⟩
    · rw [bufOfBytes, dif_neg (Nat.not_lt.2 (hblob ▸ hsize))]
    · rw [Buffer.rest_ofBytes, hblob, List.append_nil]
    · rw [Buffer.advance_pos (Nat.le_of_eq (by rw [Buffer.rest_ofBytes, hblob]))]
      simp [Buffer.ofBytes, hblob]

/-! ### A key and a truncated key -/

/-- Bytes that stand for the signature of `data` by the owner of the key `pub`. -/
def sampleSignature (pub data : Bytes) : Bytes :=
  List.zipWith (· ^^^ ·) (data.reverse.take 64) (pub ++ pub)

/-- Whether the signature in `buf` is that of `data` by the owner of `pub`. -/
def sampleVerify (pub : Bytes) (buf : Buffer) (k data : Bytes) : Except Exit Bool :=
  .ok (k == pub && buf.rest == sshString (sampleSignature pub data))

/-- A system whose Ed25519 primitive accepts the signatures of the key `pub`. -/
def signingHost (pub : Bytes) : Host := { bareHost with bufEd25519Verify := sampleVerify pub }

/-- The `publickey` request with the given blob, the bytes `extra` behind it and the signature of
the key `pub`, in a session without an id. -/
def keyRequest (pub keyblob extra : Bytes) : Bytes :=
  let fields := encodeFields [ascii "root", ascii "ssh-connection", ascii "publickey"] ++ [1] ++
    sshString (ascii "ssh-ed25519") ++ sshString keyblob ++ extra
  fields ++ sshString (sshString (ascii "ssh-ed25519") ++
    sshString (sampleSignature pub (sshString [] ++ 50 :: fields)))

/-- A login with the key of `sampleEntry`. -/
def keyLogin : AuthInput where
  payload := Payload.ofFields (keyRequest (List.replicate 32 7) sampleBlob []) (by decide +kernel)
  authfile := some { contents := sampleEntry }

/-- The file lists only the name of the key type, and the key is added by the request. -/
def cutKeyLogin : AuthInput where
  payload := Payload.ofFields (keyRequest (List.replicate 32 9) (sshString (ascii "ssh-ed25519"))
    (sshString (List.replicate 32 9))) (by decide +kernel)
  authfile := some { contents := ascii "ssh-ed25519 AAAAC3NzaC1lZDI1NTE5" }

/-- The payload of such a request behind the name, the service and the method. -/
def keyFieldsBuf (inp : AuthInput) : Buffer :=
  inp.payload.buf.advance
    (encodeFields [ascii "root", ascii "ssh-connection", ascii "publickey"]).length

/-- A test on the key of a verdict. -/
def PubkeyVerdict.testKey (p : VerifiedKey → Bool) : PubkeyVerdict → Bool
  | .verified w => p w
  | _ => false

theorem exists_verified_of_testKey {x : Except Exit PubkeyVerdict} {p : VerifiedKey → Bool}
    (h : x.toOption.any (PubkeyVerdict.testKey p) = true) :
    ∃ w, x = .ok (.verified w) ∧ p w = true := by
  obtain ⟨verdict, rfl, hp⟩ := exists_ok_of_any h
  cases verdict with
  | verified w => exact ⟨w, rfl, hp⟩
  | _ => cases hp

/-- The state of a fresh session behind `checkusername` for `root`. -/
def rootState (H : Host) (o : SvrOpts) : AuthState :=
  (svrAuthinitialise o none).adopt H (ascii "root")

set_option maxRecDepth 8000 in
/-- The login with the whole key. -/
theorem keyFromBlob_iff_keyLogin :
    ∃ s' w, svrAuthPubkey (signingHost (List.replicate 32 7)) {} []
        (rootState (signingHost (List.replicate 32 7)) {}) keyLogin (keyFieldsBuf keyLogin) true =
          .ok s' ∧ s'.authdone = true ∧
      pubkeyVerdict (signingHost (List.replicate 32 7)) [] keyLogin (keyFieldsBuf keyLogin) true =
        .ok (.verified w) ∧
      (KeyFromBlob w ↔ ∃ fields, fields.length = keyFieldCount w.keytype ∧
        w.keyblob = encodeFields fields) := by
  obtain ⟨s', hs', hlog⟩ := exists_ok_of_any (x := svrAuthPubkey
    (signingHost (List.replicate 32 7)) {} [] (rootState (signingHost (List.replicate 32 7)) {})
    keyLogin (keyFieldsBuf keyLogin) true)
    (p := fun s' => s'.authdone && s'.log == [.pubkey (ascii "root")]) (by decide)
  rw [Bool.and_eq_true, beq_iff_eq] at hlog
  obtain ⟨w, hw, hiff⟩ := keyFromBlob_iff _ _ _ _ s' _ _ _ hs' (by rw [hlog.2]; decide)
  exact ⟨s', w, hs', hlog.1, hw, hiff⟩

set_option maxRecDepth 8000 in
/-- With the truncated entry, the login succeeds under a key that is not in the file. -/
theorem cutKeyLogin_not_keyFromBlob :
    ∃ s' w, svrAuthPubkey (signingHost (List.replicate 32 9)) {} []
        (rootState (signingHost (List.replicate 32 9)) {}) cutKeyLogin (keyFieldsBuf cutKeyLogin)
        true = .ok s' ∧ s'.authdone = true ∧
      pubkeyVerdict (signingHost (List.replicate 32 9)) [] cutKeyLogin (keyFieldsBuf cutKeyLogin)
        true = .ok (.verified w) ∧
      w.keyblob = sshString (ascii "ssh-ed25519") ∧
      w.key.ed25519key = some (List.replicate 32 9) ∧ ¬ KeyFromBlob w := by
  obtain ⟨s', hs', hdone⟩ := exists_ok_of_any (x := svrAuthPubkey
    (signingHost (List.replicate 32 9)) {} [] (rootState (signingHost (List.replicate 32 9)) {})
    cutKeyLogin (keyFieldsBuf cutKeyLogin) true) (p := fun s' => s'.authdone)
    (by decide)
  obtain ⟨w, hw, htest⟩ := exists_verified_of_testKey (x := pubkeyVerdict
    (signingHost (List.replicate 32 9)) [] cutKeyLogin (keyFieldsBuf cutKeyLogin) true)
    (p := fun w => w.keyblob == sshString (ascii "ssh-ed25519") &&
      w.key.ed25519key == some (List.replicate 32 9) &&
      w.stop.pos != w.start.pos + w.keyblob.length) (by decide)
  simp only [Bool.and_eq_true, beq_iff_eq, bne_iff_ne] at htest
  exact ⟨s', w, hs', hdone, hw, htest.1.1, htest.1.2, fun hk => htest.2 hk.1⟩

end Ps4Dropbear
