import Ps4Dropbear.LTS.Basic
import Ps4Dropbear.Session.Algorithms

/-!
# Host keys

Which host key algorithms the server advertises, and whether it can use them: `load_all_hostkeys`
(`svr-runopts.c`), `svr_algos_initialise` (`svr-session.c`), `svr_ensure_hostkey` (`svr-kex.c`),
and the two functions of `signkey.c` that `send_msg_kexdh_reply` hands the key to.

The model is for every choice of compiled key types, so it has types of its own for keys and
signatures.  What a key is does not matter.

`load_all_hostkeys` clears the flags of the types without a key and of the ones that can only
verify.  At the start of each session `svr_algos_initialise` sets all of them again.

* `loadAllHostkeys`, `serialKeys` : the start of the server, and its sessions.
* `advertised_hostkeys_iff` : when every advertised algorithm can be used.
-/

namespace Ps4Dropbear

/-- The options of the build about keys. -/
structure KeyBuild where
  ed25519 : Bool
  skEd25519 : Bool
  ecdsa : Bool
  ecc256 : Bool
  ecc384 : Bool
  ecc521 : Bool
  skEcdsa : Bool
  rsa : Bool
  rsaSha256 : Bool
  rsaSha1 : Bool
  dss : Bool
  ecdsaDefaultSize : ℕ
  deriving DecidableEq, Repr

/-- The build for the PS4. -/
def ps4Build : KeyBuild where
  ed25519 := true
  skEd25519 := true
  ecdsa := false
  ecc256 := false
  ecc384 := false
  ecc521 := false
  skEcdsa := false
  rsa := true
  rsaSha256 := true
  rsaSha1 := false
  dss := false
  ecdsaDefaultSize := 256

/-- `enum signkey_type` of any build. -/
inductive HostkeyType
  | rsa
  | dss
  | ecdsaNistp256
  | ecdsaNistp384
  | ecdsaNistp521
  | skEcdsaNistp256
  | ed25519
  | skEd25519
  deriving DecidableEq, Repr

/-- `enum signature_type` of any build. -/
inductive HostSig
  | rsaSha1
  | rsaSha256
  | key (type : HostkeyType)
  deriving DecidableEq, Repr

/-- `signkey_type_from_signature`. -/
def HostSig.keytype : HostSig → HostkeyType
  | .rsaSha1 => .rsa
  | .rsaSha256 => .rsa
  | .key t => t

/-- The fields of `struct SIGN_key` for keys. -/
inductive KeySlot
  | rsakey
  | dsskey
  | ecckey256
  | ecckey384
  | ecckey521
  | ed25519key
  deriving DecidableEq, Repr

/-- `struct SIGN_key`. -/
abbrev HostKeys (κ : Type) := KeySlot → Option κ

section Model

variable {κ : Type} (b : KeyBuild)

/-- An entry of the table `sigalgs`. -/
def sigalg (name : String) (val : HostSig) : AlgoType HostSig Unit :=
  { name := ascii name, val := val, data := () }

/-- The table `sigalgs` as it is compiled in. -/
def compiledSigalgs : List (AlgoType HostSig Unit) :=
  (if b.ed25519 then
    [sigalg "ssh-ed25519" (.key .ed25519)] ++
      if b.skEd25519 then [sigalg "sk-ssh-ed25519@openssh.com" (.key .skEd25519)] else []
    else []) ++
  (if b.ecdsa then
    (if b.ecc256 then [sigalg "ecdsa-sha2-nistp256" (.key .ecdsaNistp256)] else []) ++
    (if b.ecc384 then [sigalg "ecdsa-sha2-nistp384" (.key .ecdsaNistp384)] else []) ++
    (if b.ecc521 then [sigalg "ecdsa-sha2-nistp521" (.key .ecdsaNistp521)] else []) ++
    if b.skEcdsa then [sigalg "sk-ecdsa-sha2-nistp256@openssh.com" (.key .skEcdsaNistp256)]
    else []
    else []) ++
  (if b.rsa then
    (if b.rsaSha256 then [sigalg "rsa-sha2-256" .rsaSha256] else []) ++
    if b.rsaSha1 then [sigalg "ssh-rsa" .rsaSha1] else []
    else []) ++
  if b.dss then [sigalg "ssh-dss" (.key .dss)] else []

/-- `signkey_key_ptr`. -/
def signkeyKeyPtr : HostkeyType → Option KeySlot
  | .ed25519 => if b.ed25519 then some .ed25519key else none
  | .skEd25519 => if b.ed25519 && b.skEd25519 then some .ed25519key else none
  | .ecdsaNistp256 => if b.ecdsa && b.ecc256 then some .ecckey256 else none
  | .skEcdsaNistp256 => if b.ecdsa && b.ecc256 && b.skEcdsa then some .ecckey256 else none
  | .ecdsaNistp384 => if b.ecdsa && b.ecc384 then some .ecckey384 else none
  | .ecdsaNistp521 => if b.ecdsa && b.ecc521 then some .ecckey521 else none
  | .rsa => if b.rsa then some .rsakey else none
  | .dss => if b.dss then some .dsskey else none

/-! ### The start of the server -/

/-- `disablekey`: the first entry with this value. -/
def disablekey : List (AlgoType HostSig Unit) → HostSig → List (AlgoType HostSig Unit)
  | [], _ => []
  | a :: as, type =>
    if a.val = type then { a with usable := false } :: as else a :: disablekey as type

/-- The field that `loadhostkey` fills for a type, with the name in its message. -/
def loadSlot : HostkeyType → Option (String × KeySlot)
  | .rsa => if b.rsa then some ("RSA", .rsakey) else none
  | .dss => if b.dss then some ("DSS", .dsskey) else none
  | .ecdsaNistp256 => if b.ecdsa && b.ecc256 then some ("ECDSA256", .ecckey256) else none
  | .ecdsaNistp384 => if b.ecdsa && b.ecc384 then some ("ECDSA384", .ecckey384) else none
  | .ecdsaNistp521 => if b.ecdsa && b.ecc521 then some ("ECDSA521", .ecckey521) else none
  | .ed25519 => if b.ed25519 then some ("ed25519", .ed25519key) else none
  | _ => none

/-- `loadhostkey`, with what `readhostkey` gets from the file: nothing, or the type and the key,
which is missing if the rest of the file is bad. -/
def loadhostkey (hostkey : HostKeys κ) (file : Option (HostkeyType × Option κ))
    (fatalDuplicate : Bool) : Except Exit (HostKeys κ) :=
  match file with
  | none => .ok hostkey
  | some (type, key) =>
    match loadSlot b type with
    | none => .ok hostkey
    | some (name, slot) =>
      -- `loadhostkey_helper`
      match hostkey slot with
      | some _ =>
        if fatalDuplicate then dropbearExit ("Only one " ++ name ++ " key can be specified")
        else .ok hostkey
      | none => .ok (Function.update hostkey slot key)

/-- What `readhostkey` gets from the files of the defaults. -/
structure DefaultFiles (κ : Type) where
  rsa : Option (HostkeyType × Option κ) := none
  dss : Option (HostkeyType × Option κ) := none
  ecdsa : Option (HostkeyType × Option κ) := none
  ed25519 : Option (HostkeyType × Option κ) := none

/-- The default files that this build looks at. -/
def DefaultFiles.list (d : DefaultFiles κ) : List (Option (HostkeyType × Option κ)) :=
  (if b.rsa then [d.rsa] else []) ++ (if b.dss then [d.dss] else []) ++
    (if b.ecdsa then [d.ecdsa] else []) ++ if b.ed25519 then [d.ed25519] else []

/-- The first half of `load_all_hostkeys`: the files given by the user, or the defaults. -/
def loadHostkeyFiles (files : List (Option (HostkeyType × Option κ))) (defaults : DefaultFiles κ) :
    Except Exit (HostKeys κ) :=
  if files.isEmpty then
    (defaults.list b).foldlM (fun hostkey file => loadhostkey b hostkey file false) fun _ => none
  else files.foldlM (fun hostkey file => loadhostkey b hostkey file true) fun _ => none

/-- `loaded_any_ecdsa`. -/
def loadedAnyEcdsa (hostkey : HostKeys κ) : Bool :=
  (b.ecc256 && (hostkey .ecckey256).isSome) || (b.ecc384 && (hostkey .ecckey384).isSome) ||
    (b.ecc521 && (hostkey .ecckey521).isSome)

/-- The condition for an ECDSA size to be disabled. -/
def ecdsaDisabled (delayHostkey : Bool) (hostkey : HostKeys κ) (slot : KeySlot) (size : ℕ) : Bool :=
  (hostkey slot).isNone &&
    (!delayHostkey || loadedAnyEcdsa b hostkey || decide (b.ecdsaDefaultSize ≠ size))

/-- The call of `disablekey` under a condition. -/
def disableIf (c : Bool) (sigtype : HostSig) : List HostSig := if c then [sigtype] else []

/-- The types for which `load_all_hostkeys` calls `disablekey`. -/
def disabledTypes (delayHostkey : Bool) (hostkey : HostKeys κ) : List HostSig :=
  let missing := fun slot => !delayHostkey && (hostkey slot).isNone
  disableIf (b.rsa && missing .rsakey && b.rsaSha256) .rsaSha256 ++
  disableIf (b.rsa && missing .rsakey && b.rsaSha1) .rsaSha1 ++
  disableIf (b.dss && missing .dsskey) (.key .dss) ++
  disableIf (b.ecdsa && b.ecc256 && ecdsaDisabled b delayHostkey hostkey .ecckey256 256)
    (.key .ecdsaNistp256) ++
  disableIf (b.ecdsa && b.ecc384 && ecdsaDisabled b delayHostkey hostkey .ecckey384 384)
    (.key .ecdsaNistp384) ++
  disableIf (b.ecdsa && b.ecc521 && ecdsaDisabled b delayHostkey hostkey .ecckey521 521)
    (.key .ecdsaNistp521) ++
  disableIf (b.ed25519 && missing .ed25519key) (.key .ed25519) ++
  disableIf b.skEcdsa (.key .skEcdsaNistp256) ++
  disableIf b.skEd25519 (.key .skEd25519)

/-- `any_keys`. -/
def anyKeys (delayHostkey : Bool) (hostkey : HostKeys κ) : Bool :=
  (b.rsa && (delayHostkey || (hostkey .rsakey).isSome)) ||
    (b.dss && (delayHostkey || (hostkey .dsskey).isSome)) ||
    (b.ecdsa && (loadedAnyEcdsa b hostkey || delayHostkey)) ||
    (b.ed25519 && (delayHostkey || (hostkey .ed25519key).isSome))

/-- What the sessions share: the table `sigalgs` and `svr_opts.hostkey`. -/
structure ServerKeys (κ : Type) where
  sigalgs : List (AlgoType HostSig Unit)
  hostkey : HostKeys κ

/-- `load_all_hostkeys`. -/
def loadAllHostkeys (delayHostkey : Bool) (files : List (Option (HostkeyType × Option κ)))
    (defaults : DefaultFiles κ) : Except Exit (ServerKeys κ) := do
  let hostkey ← loadHostkeyFiles b files defaults
  let sigalgs := (disabledTypes b delayHostkey hostkey).foldl disablekey (compiledSigalgs b)
  if !anyKeys b delayHostkey hostkey then
    dropbearExit "No hostkeys available. 'dropbear -R' may be useful or run dropbearkey."
  else return ⟨sigalgs, hostkey⟩

/-! ### The sessions -/

/-- The value that `svr_algos_initialise` gives an entry, by its name. -/
def restoreSig (name : Bytes) (val : HostSig) : HostSig :=
  if b.ed25519 ∧ name = ascii "ssh-ed25519" then .key .ed25519
  else if b.ed25519 ∧ b.skEd25519 ∧ name = ascii "sk-ssh-ed25519@openssh.com" then .key .skEd25519
  else if b.rsa ∧ b.rsaSha256 ∧ name = ascii "rsa-sha2-256" then .rsaSha256
  else val

/-- `svr_algos_initialise` on the table `sigalgs`, with `__ORBIS__`. -/
def initialiseSigalgs (sigalgs : List (AlgoType HostSig Unit)) : List (AlgoType HostSig Unit) :=
  sigalgs.map fun a => { a.restore with val := restoreSig b a.name a.val }

/-- What the system does with the file of a host key: what is read from it, whether
`signkey_generate` makes one, and what is read then. -/
structure HostkeyFile (κ : Type) where
  read : Option κ
  generate : Bool
  reread : Option κ

/-- The file name in `svr_ensure_hostkey`; without one there is the assertion. -/
def hostkeyFn : HostkeyType → Option String
  | .rsa => if b.rsa then some "/data/dropbear/dropbear_rsa_host_key" else none
  | .dss => if b.dss then some "/etc/dropbear/dropbear_dss_host_key" else none
  | .ecdsaNistp256 => if b.ecdsa then some "/etc/dropbear/dropbear_ecdsa_host_key" else none
  | .ecdsaNistp384 => if b.ecdsa then some "/etc/dropbear/dropbear_ecdsa_host_key" else none
  | .ecdsaNistp521 => if b.ecdsa then some "/etc/dropbear/dropbear_ecdsa_host_key" else none
  | .ed25519 => if b.ed25519 then some "/data/dropbear/dropbear_ed25519_host_key" else none
  | _ => none

/-- `svr_ensure_hostkey`.  The message of an assertion also has the file and the line. -/
def svrEnsureHostkey (hostkey : HostKeys κ) (type : HostkeyType) (file : HostkeyFile κ) :
    Except Exit (HostKeys κ) :=
  if ((signkeyKeyPtr b type).bind hostkey).isSome then .ok hostkey
  else
    match hostkeyFn b type, signkeyKeyPtr b type with
    | some fn, some slot =>
      match file.read with
      | some key => .ok (Function.update hostkey slot (some key))
      | none =>
        match if file.generate then file.reread else none with
        | some key => .ok (Function.update hostkey slot (some key))
        | none => dropbearExit ("Couldn't read or generate hostkey " ++ fn)
    | some fn, none => dropbearExit ("Couldn't read or generate hostkey " ++ fn)
    | none, _ => dropbearExit "Failed assertion: 0"

/-- The assertion about a key that is there. -/
def assertKey (key : Option κ) : Except Exit Unit :=
  if key.isNone then dropbearExit "Failed assertion: key != NULL" else .ok ()

/-- `buf_put_pub_key`. -/
def bufPutPubKey (hostkey : HostKeys κ) (type : HostkeyType) : Except Exit Unit :=
  match type with
  | .dss => if b.dss then assertKey (hostkey .dsskey)
    else dropbearExit "Bad key types in buf_put_pub_key"
  | .rsa => if b.rsa then assertKey (hostkey .rsakey)
    else dropbearExit "Bad key types in buf_put_pub_key"
  | .ed25519 => if b.ed25519 then assertKey (hostkey .ed25519key)
    else dropbearExit "Bad key types in buf_put_pub_key"
  | .skEd25519 => if b.ed25519 && b.skEd25519 then assertKey (hostkey .ed25519key)
    else dropbearExit "Bad key types in buf_put_pub_key"
  | type =>
    if ((signkeyKeyPtr b type).bind hostkey).isSome then .ok ()
    else dropbearExit "Bad key types in buf_put_pub_key"

/-- `signkey_is_ecdsa`. -/
def signkeyIsEcdsa : HostkeyType → Bool
  | .ecdsaNistp256 => true
  | .ecdsaNistp384 => true
  | .ecdsaNistp521 => true
  | _ => false

/-- `buf_put_sign`. -/
def bufPutSign (hostkey : HostKeys κ) (sigtype : HostSig) : Except Exit Unit :=
  match sigtype.keytype with
  | .dss => if b.dss then assertKey (hostkey .dsskey) else dropbearExit "Non-matching signing type"
  | .rsa => if b.rsa then assertKey (hostkey .rsakey) else dropbearExit "Non-matching signing type"
  | .ed25519 => if b.ed25519 then assertKey (hostkey .ed25519key)
    else dropbearExit "Non-matching signing type"
  | type =>
    if b.ecdsa && signkeyIsEcdsa type && ((signkeyKeyPtr b type).bind hostkey).isSome then .ok ()
    else dropbearExit "Non-matching signing type"

/-- The host key in `send_msg_kexdh_reply`: it is loaded if need be, its public half is sent, and
it signs. -/
def sendMsgKexdhReply (delayHostkey : Bool) (hostkey : HostKeys κ) (sigtype : HostSig)
    (file : HostkeyFile κ) : Except Exit (HostKeys κ) := do
  let hostkey ← (if delayHostkey then svrEnsureHostkey b hostkey sigtype.keytype file
    else .ok hostkey)
  bufPutPubKey b hostkey sigtype.keytype
  bufPutSign b hostkey sigtype
  return hostkey

/-- What happens to the keys while the server runs. -/
inductive KeysEvent (κ : Type)
  /-- A session starts, with `svr_algos_initialise`. -/
  | session
  /-- A client has chosen an advertised algorithm, in the first exchange of a session or in a later
  one. -/
  | exchange (sigtype : HostSig) (file : HostkeyFile κ) (first : Bool)

/-- One session after the other. -/
def serialKeys (delayHostkey : Bool) : LTS (ServerKeys κ) (KeysEvent κ) where
  step st ev :=
    match ev with
    | .session => some { st with sigalgs := initialiseSigalgs b st.sigalgs }
    | .exchange sigtype file first =>
      if ∃ a ∈ st.sigalgs, a.usable = true ∧ a.val = sigtype then
        match sendMsgKexdhReply b delayHostkey st.hostkey sigtype file with
        | .ok hostkey =>
          some ⟨if first then st.sigalgs.map fun a =>
            if a.val ≠ sigtype then { a with usable := false } else a else st.sigalgs, hostkey⟩
        -- the session ends; what was loaded stays
        | .error _ =>
          some { st with hostkey := if delayHostkey then
            (svrEnsureHostkey b st.hostkey sigtype.keytype file).toOption.getD st.hostkey
            else st.hostkey }
      else none

/-! ### The table -/

/-- A compiled entry, with the options that bring it in. -/
theorem mem_compiledSigalgs {a : AlgoType HostSig Unit} (h : a ∈ compiledSigalgs b) :
    a.usable = true ∧
    ((b.ed25519 = true ∧ a.name = ascii "ssh-ed25519" ∧ a.val = .key .ed25519) ∨
      (b.ed25519 = true ∧ b.skEd25519 = true ∧ a.name = ascii "sk-ssh-ed25519@openssh.com" ∧
        a.val = .key .skEd25519) ∨
      (b.ecdsa = true ∧ b.ecc256 = true ∧ a.name = ascii "ecdsa-sha2-nistp256" ∧
        a.val = .key .ecdsaNistp256) ∨
      (b.ecdsa = true ∧ b.ecc384 = true ∧ a.name = ascii "ecdsa-sha2-nistp384" ∧
        a.val = .key .ecdsaNistp384) ∨
      (b.ecdsa = true ∧ b.ecc521 = true ∧ a.name = ascii "ecdsa-sha2-nistp521" ∧
        a.val = .key .ecdsaNistp521) ∨
      (b.ecdsa = true ∧ b.skEcdsa = true ∧ a.name = ascii "sk-ecdsa-sha2-nistp256@openssh.com" ∧
        a.val = .key .skEcdsaNistp256) ∨
      (b.rsa = true ∧ b.rsaSha256 = true ∧ a.name = ascii "rsa-sha2-256" ∧ a.val = .rsaSha256) ∨
      (b.rsa = true ∧ b.rsaSha1 = true ∧ a.name = ascii "ssh-rsa" ∧ a.val = .rsaSha1) ∨
      (b.dss = true ∧ a.name = ascii "ssh-dss" ∧ a.val = .key .dss)) := by
  simp only [compiledSigalgs, List.mem_append, List.mem_ite_nil_right, List.mem_singleton] at h
  rcases h with ((⟨h₁, rfl | ⟨h₂, rfl⟩⟩ | ⟨h₁, ((⟨h₂, rfl⟩ | ⟨h₂, rfl⟩) | ⟨h₂, rfl⟩) | ⟨h₂, rfl⟩⟩) |
    ⟨h₁, ⟨h₂, rfl⟩ | ⟨h₂, rfl⟩⟩) | ⟨h₁, rfl⟩
  all_goals simp [sigalg, *]

/-- The value of a compiled entry is the one for its name. -/
theorem restoreSig_compiled {a : AlgoType HostSig Unit} (h : a ∈ compiledSigalgs b) :
    restoreSig b a.name a.val = a.val := by
  have hval : (a.name = ascii "ssh-ed25519" → a.val = .key .ed25519) ∧
      (a.name = ascii "sk-ssh-ed25519@openssh.com" → a.val = .key .skEd25519) ∧
      (a.name = ascii "rsa-sha2-256" → a.val = .rsaSha256) := by
    obtain ⟨-, hentry⟩ := mem_compiledSigalgs b h
    obtain ⟨-, hn, hv⟩ | ⟨-, -, hn, hv⟩ | ⟨-, -, hn, hv⟩ | ⟨-, -, hn, hv⟩ | ⟨-, -, hn, hv⟩ |
      ⟨-, -, hn, hv⟩ | ⟨-, -, hn, hv⟩ | ⟨-, -, hn, hv⟩ | ⟨-, hn, hv⟩ := hentry
    all_goals
      rw [hn, hv]
      decide
  unfold restoreSig
  split_ifs with h₁ h₂ h₃
  · exact (hval.1 h₁.2).symm
  · exact (hval.2.1 h₂.2.2).symm
  · exact (hval.2.2 h₃.2.2).symm
  · rfl

/-- Two tables that differ only in their flags. -/
def SameEntries (t t' : List (AlgoType HostSig Unit)) : Prop :=
  t.map (fun a => (a.name, a.val)) = t'.map fun a => (a.name, a.val)

theorem sameEntries_disablekey (t : List (AlgoType HostSig Unit)) (type : HostSig) :
    SameEntries (disablekey t type) t := by
  unfold SameEntries
  induction t with
  | nil => rfl
  | cons a as ih =>
    unfold disablekey
    split_ifs with h
    · rfl
    · simp only [List.map_cons, ih]

theorem sameEntries_disablekeys (t : List (AlgoType HostSig Unit)) (types : List HostSig) :
    SameEntries (types.foldl disablekey t) t := by
  induction types generalizing t with
  | nil => rfl
  | cons type types ih => exact (ih (disablekey t type)).trans (sameEntries_disablekey t type)

theorem sameEntries_disableSigExcept (t : List (AlgoType HostSig Unit)) (type : HostSig) :
    SameEntries (t.map fun a => if a.val ≠ type then { a with usable := false } else a) t := by
  unfold SameEntries
  rw [List.map_map]
  refine List.map_congr_left fun a _ => ?_
  simp only [Function.comp_apply]
  split_ifs <;> rfl

/-- At the start of a session the table is as it was compiled. -/
theorem initialiseSigalgs_eq {t : List (AlgoType HostSig Unit)}
    (h : SameEntries t (compiledSigalgs b)) : initialiseSigalgs b t = compiledSigalgs b := by
  have hfactor : ∀ u : List (AlgoType HostSig Unit), initialiseSigalgs b u =
      (u.map fun a => (a.name, a.val)).map fun nv =>
        { name := nv.1, val := restoreSig b nv.1 nv.2, data := (), usable := true } := by
    intro u
    rw [List.map_map]
    rfl
  rw [hfactor, h, ← hfactor, initialiseSigalgs]
  conv_rhs => rw [← List.map_id (compiledSigalgs b)]
  refine List.map_congr_left fun a ha => ?_
  rw [restoreSig_compiled b ha, AlgoType.restore, ← (mem_compiledSigalgs b ha).1]
  rfl

/-! ### What a type needs -/

/-- The field with the key that signs; there is none for a type that can only verify. -/
def signSlot : HostkeyType → Option KeySlot
  | .rsa => some .rsakey
  | .dss => some .dsskey
  | .ecdsaNistp256 => some .ecckey256
  | .ecdsaNistp384 => some .ecckey384
  | .ecdsaNistp521 => some .ecckey521
  | .ed25519 => some .ed25519key
  | .skEcdsaNistp256 => none
  | .skEd25519 => none

/-- `svr_opts.hostkey` holds a key for this signature type. -/
def HoldsKey (hostkey : HostKeys κ) (sigtype : HostSig) : Prop :=
  ((signSlot sigtype.keytype).bind hostkey).isSome = true

/-- `svr_ensure_hostkey` can read or generate one. -/
def CanEnsure (sigtype : HostSig) (file : HostkeyFile κ) : Prop :=
  (hostkeyFn b sigtype.keytype).isSome = true ∧
    (file.read.isSome = true ∨ (file.generate = true ∧ file.reread.isSome = true))

theorem assertKey_ok {key : Option κ} {u : Unit} : assertKey key = .ok u ↔ key.isSome = true := by
  unfold assertKey
  cases key <;> simp

theorem bufPutPubKey_ok {hostkey : HostKeys κ} {type : HostkeyType} {slot : KeySlot}
    (hslot : signSlot type = some slot) (hptr : signkeyKeyPtr b type = some slot) :
    bufPutPubKey b hostkey type = .ok () ↔ (hostkey slot).isSome = true := by
  have hbind : ((signkeyKeyPtr b type).bind hostkey).isSome = (hostkey slot).isSome := by
    rw [hptr]
    rfl
  cases type with
  | rsa | dss | ed25519 =>
    cases hslot
    simp only [signkeyKeyPtr, Option.ite_none_right_eq_some, and_true] at hptr
    simp [bufPutPubKey, hptr, assertKey_ok]
  | ecdsaNistp256 | ecdsaNistp384 | ecdsaNistp521 =>
    simp only [bufPutPubKey, hbind]
    cases (hostkey slot).isSome <;> simp
  | skEcdsaNistp256 | skEd25519 => cases hslot

theorem bufPutSign_ok {hostkey : HostKeys κ} {sigtype : HostSig} {slot : KeySlot}
    (hslot : signSlot sigtype.keytype = some slot)
    (hptr : signkeyKeyPtr b sigtype.keytype = some slot) :
    bufPutSign b hostkey sigtype = .ok () ↔ (hostkey slot).isSome = true := by
  have hbind : ((signkeyKeyPtr b sigtype.keytype).bind hostkey).isSome =
      (hostkey slot).isSome := by
    rw [hptr]
    rfl
  unfold bufPutSign
  generalize sigtype.keytype = type at hslot hptr hbind ⊢
  cases type with
  | rsa | dss | ed25519 =>
    cases hslot
    simp only [signkeyKeyPtr, Option.ite_none_right_eq_some, and_true] at hptr
    simp [hptr, assertKey_ok]
  | ecdsaNistp256 | ecdsaNistp384 | ecdsaNistp521 =>
    simp only [signkeyKeyPtr, Option.ite_none_right_eq_some, Bool.and_eq_true] at hptr
    simp only [hbind, hptr.1.1, signkeyIsEcdsa, Bool.and_self, Bool.true_and]
    cases (hostkey slot).isSome <;> simp
  | skEcdsaNistp256 | skEd25519 => cases hslot

/-- `svr_ensure_hostkey` for a type that signs. -/
theorem svrEnsureHostkey_signs {hostkey : HostKeys κ} {sigtype : HostSig} {file : HostkeyFile κ}
    {slot : KeySlot} (hptr : signkeyKeyPtr b sigtype.keytype = some slot)
    (hfn : (hostkeyFn b sigtype.keytype).isSome = true) :
    ((hostkey slot).isSome = true ∨ CanEnsure b sigtype file ↔
      ∃ hostkey', svrEnsureHostkey b hostkey sigtype.keytype file = .ok hostkey') ∧
    ∀ hostkey', svrEnsureHostkey b hostkey sigtype.keytype file = .ok hostkey' →
      (hostkey' slot).isSome = true := by
  obtain ⟨fn, hfn'⟩ := Option.isSome_iff_exists.1 hfn
  unfold svrEnsureHostkey CanEnsure
  rw [hptr, hfn', Option.bind_some]
  cases hkey : hostkey slot with
  | some key => simp [hkey]
  | none =>
    cases hread : file.read with
    | some key => simp
    | none =>
      cases hgen : file.generate with
      | false => simp
      | true =>
        cases hreread : file.reread with
        | none => simp
        | some key => simp

/-- The reply for a type that signs. -/
theorem sendMsgKexdhReply_signs {delayHostkey : Bool} {hostkey : HostKeys κ} {sigtype : HostSig}
    {file : HostkeyFile κ} {slot : KeySlot} (hslot : signSlot sigtype.keytype = some slot)
    (hptr : signkeyKeyPtr b sigtype.keytype = some slot)
    (hfn : (hostkeyFn b sigtype.keytype).isSome = true) :
    (∃ hostkey', sendMsgKexdhReply b delayHostkey hostkey sigtype file = .ok hostkey') ↔
      HoldsKey hostkey sigtype ∨ (delayHostkey = true ∧ CanEnsure b sigtype file) := by
  have hholds : HoldsKey hostkey sigtype ↔ (hostkey slot).isSome = true := by
    rw [HoldsKey, hslot]
    rfl
  -- with the key, both halves of the reply succeed
  have hput : ∀ hostkey' hk : HostKeys κ, (do
      bufPutPubKey b hostkey' sigtype.keytype
      bufPutSign b hostkey' sigtype
      return hostkey' : Except Exit (HostKeys κ)) = .ok hk ↔
        (hostkey' slot).isSome = true ∧ hostkey' = hk := by
    intro hostkey' hk
    simp only [bind_eq_ok, pure_eq_ok]
    constructor
    · rintro ⟨_, hpub, _, -, rfl⟩
      exact ⟨(bufPutPubKey_ok b hslot hptr).1 hpub, rfl⟩
    · rintro ⟨hkey, rfl⟩
      exact ⟨(), (bufPutPubKey_ok b hslot hptr).2 hkey, (), (bufPutSign_ok b hslot hptr).2 hkey, rfl⟩
  rw [hholds]
  unfold sendMsgKexdhReply
  cases delayHostkey with
  | false =>
    simp only [Bool.false_eq_true, if_false, ok_bind, hput, false_and, or_false]
    constructor
    · rintro ⟨_, hkey, -⟩
      exact hkey
    · exact fun hkey => ⟨hostkey, hkey, rfl⟩
  | true =>
    obtain ⟨hensure, hloaded⟩ : ((hostkey slot).isSome = true ∨ CanEnsure b sigtype file ↔
        ∃ hostkey', svrEnsureHostkey b hostkey sigtype.keytype file = .ok hostkey') ∧ _ :=
      svrEnsureHostkey_signs b hptr hfn
    simp only [if_true, true_and, hensure]
    constructor
    · rintro ⟨hk, h⟩
      obtain ⟨hostkey', hensured, -⟩ := bind_eq_ok.1 h
      exact ⟨hostkey', hensured⟩
    · rintro ⟨hostkey', hensured⟩
      exact ⟨hostkey', bind_eq_ok.2 ⟨hostkey', hensured,
        (hput hostkey' hostkey').2 ⟨hloaded hostkey' hensured, rfl⟩⟩⟩

/-- A type that can only verify has no reply. -/
theorem sendMsgKexdhReply_verifies {delayHostkey : Bool} {hostkey : HostKeys κ}
    {sigtype : HostSig} {file : HostkeyFile κ} (hslot : signSlot sigtype.keytype = none) :
    ¬ ∃ hostkey', sendMsgKexdhReply b delayHostkey hostkey sigtype file = .ok hostkey' := by
  have hsign : ∀ hostkey' : HostKeys κ, bufPutSign b hostkey' sigtype ≠ .ok () := by
    intro hostkey'
    unfold bufPutSign
    generalize sigtype.keytype = type at hslot
    cases type with
    | skEcdsaNistp256 | skEd25519 => simp [signkeyIsEcdsa]
    | _ => cases hslot
  rintro ⟨hk, h⟩
  simp only [sendMsgKexdhReply, bind_eq_ok, pure_eq_ok] at h
  obtain ⟨hostkey', -, _, -, _, hput, -⟩ := h
  exact hsign hostkey' hput

/-- A compiled type signs with a key of its own, or it can only verify. -/
theorem compiled_slot {a : AlgoType HostSig Unit} (ha : a ∈ compiledSigalgs b) :
    (signSlot a.val.keytype = none ∧ hostkeyFn b a.val.keytype = none) ∨
      ∃ slot, signSlot a.val.keytype = some slot ∧ signkeyKeyPtr b a.val.keytype = some slot ∧
        (hostkeyFn b a.val.keytype).isSome = true := by
  obtain ⟨-, hentry⟩ := mem_compiledSigalgs b ha
  obtain ⟨h₁, -, hv⟩ | ⟨-, -, -, hv⟩ | ⟨h₁, h₂, -, hv⟩ | ⟨h₁, h₂, -, hv⟩ | ⟨h₁, h₂, -, hv⟩ |
    ⟨-, -, -, hv⟩ | ⟨h₁, -, -, hv⟩ | ⟨h₁, -, -, hv⟩ | ⟨h₁, -, hv⟩ := hentry
  all_goals simp [HostSig.keytype, signSlot, signkeyKeyPtr, hostkeyFn, *]

/-- The reply for a compiled type. -/
theorem sendMsgKexdhReply_compiled {delayHostkey : Bool} {hostkey : HostKeys κ}
    {a : AlgoType HostSig Unit} {file : HostkeyFile κ} (ha : a ∈ compiledSigalgs b) :
    (∃ hostkey', sendMsgKexdhReply b delayHostkey hostkey a.val file = .ok hostkey') ↔
      HoldsKey hostkey a.val ∨ (delayHostkey = true ∧ CanEnsure b a.val file) := by
  obtain ⟨hslot, hfn⟩ | ⟨slot, hslot, hptr, hfn⟩ := compiled_slot b ha
  · refine iff_of_false (sendMsgKexdhReply_verifies b hslot) ?_
    simp [HoldsKey, CanEnsure, hslot, hfn]
  · exact sendMsgKexdhReply_signs b hslot hptr hfn

/-! ### Runs -/

/-- A type that can verify a signature, but not make one. -/
def VerifyOnly (sigtype : HostSig) : Prop := signSlot sigtype.keytype = none

/-- Every advertised type can be used: there is a key, or one can be read or made, and the reply
does not exit. -/
def AllUsable (delayHostkey : Bool) (files : HostkeyType → HostkeyFile κ) (st : ServerKeys κ) :
    Prop :=
  ∀ a ∈ st.sigalgs, a.usable = true →
    (HoldsKey st.hostkey a.val ∨
      (delayHostkey = true ∧ CanEnsure b a.val (files a.val.keytype))) ∧
    ∃ hostkey', sendMsgKexdhReply b delayHostkey st.hostkey a.val (files a.val.keytype) =
      .ok hostkey'

variable {b}

theorem sameEntries_load {delayHostkey : Bool} {files : List (Option (HostkeyType × Option κ))}
    {defaults : DefaultFiles κ} {st : ServerKeys κ}
    (h : loadAllHostkeys b delayHostkey files defaults = .ok st) :
    SameEntries st.sigalgs (compiledSigalgs b) := by
  simp only [loadAllHostkeys, bind_eq_ok, ite_exit_eq_ok, pure_eq_ok] at h
  obtain ⟨hostkey, -, -, rfl⟩ := h
  exact sameEntries_disablekeys _ _

theorem sameEntries_step {delayHostkey : Bool} {st st' : ServerKeys κ} {ev : KeysEvent κ}
    (h : SameEntries st.sigalgs (compiledSigalgs b))
    (hst : (serialKeys b delayHostkey).step st ev = some st') :
    SameEntries st'.sigalgs (compiledSigalgs b) := by
  cases ev with
  | session =>
    cases hst
    exact congrArg _ (initialiseSigalgs_eq b h)
  | exchange sigtype file first =>
    simp only [serialKeys, Option.ite_none_right_eq_some] at hst
    obtain ⟨-, hst⟩ := hst
    split at hst
    · cases hst
      dsimp only
      split_ifs
      · exact (sameEntries_disableSigExcept _ _).trans h
      · exact h
    · cases hst
      exact h

/-! ### What the start of the server leaves -/

/-- No value is twice in the compiled table. -/
theorem nodup_compiledSigalgs (b : KeyBuild) : ((compiledSigalgs b).map (·.val)).Nodup := by
  have hsub : ((compiledSigalgs b).map (·.val)).Sublist
      ([HostSig.key .ed25519, HostSig.key .skEd25519] ++
        [HostSig.key .ecdsaNistp256, HostSig.key .ecdsaNistp384, HostSig.key .ecdsaNistp521,
          HostSig.key .skEcdsaNistp256] ++ [HostSig.rsaSha256, HostSig.rsaSha1] ++
        [HostSig.key .dss]) := by
    unfold compiledSigalgs
    simp only [List.map_append]
    refine List.Sublist.append (List.Sublist.append (List.Sublist.append ?_ ?_) ?_) ?_
    all_goals
      split_ifs
      all_goals decide
  exact hsub.nodup (by decide)

/-- What is disabled is not usable any more. -/
theorem disablekey_usable {t : List (AlgoType HostSig Unit)} {type : HostSig}
    (hnodup : (t.map (·.val)).Nodup) {a : AlgoType HostSig Unit} (ha : a ∈ disablekey t type)
    (husable : a.usable = true) : a.val ≠ type ∧ a ∈ t := by
  induction t with
  | nil => cases ha
  | cons c t ih =>
    rw [List.map_cons, List.nodup_cons] at hnodup
    unfold disablekey at ha
    split_ifs at ha with hc
    · rcases List.mem_cons.1 ha with rfl | ha
      · cases husable
      · refine ⟨fun heq => hnodup.1 ?_, List.mem_cons_of_mem c ha⟩
        rw [hc, ← heq]
        exact List.mem_map_of_mem ha
    · rcases List.mem_cons.1 ha with rfl | ha
      · exact ⟨hc, List.mem_cons_self⟩
      · obtain ⟨hne, hmem⟩ := ih hnodup.2 ha
        exact ⟨hne, List.mem_cons_of_mem c hmem⟩

theorem disablekeys_usable {t : List (AlgoType HostSig Unit)} {types : List HostSig}
    (hnodup : (t.map (·.val)).Nodup) {a : AlgoType HostSig Unit}
    (ha : a ∈ types.foldl disablekey t) (husable : a.usable = true) : a.val ∉ types ∧ a ∈ t := by
  induction types generalizing t with
  | nil => exact ⟨List.not_mem_nil, ha⟩
  | cons type types ih =>
    have hvals : (disablekey t type).map (·.val) = t.map (·.val) := by
      have hsame := congrArg (List.map Prod.snd) (sameEntries_disablekey t type)
      rw [List.map_map, List.map_map] at hsame
      exact hsame
    obtain ⟨hnot, hmem⟩ := ih (t := disablekey t type) (hvals.symm ▸ hnodup) ha
    obtain ⟨hne, hmem⟩ := disablekey_usable hnodup hmem husable
    exact ⟨by simp [hne, hnot], hmem⟩

/-- `load_all_hostkeys` leaves only types that sign and have a key, or whose key can be made on
demand. -/
theorem loadAllHostkeys_usable {b : KeyBuild} {delayHostkey : Bool}
    {files : List (Option (HostkeyType × Option κ))} {defaults : DefaultFiles κ}
    {st : ServerKeys κ} (h : loadAllHostkeys b delayHostkey files defaults = .ok st)
    {a : AlgoType HostSig Unit} (ha : a ∈ st.sigalgs) (husable : a.usable = true) :
    ¬ VerifyOnly a.val ∧ (HoldsKey st.hostkey a.val ∨ delayHostkey = true) := by
  simp only [loadAllHostkeys, bind_eq_ok, ite_exit_eq_ok, pure_eq_ok] at h
  obtain ⟨hostkey, -, -, rfl⟩ := h
  obtain ⟨hnot, hmem⟩ := disablekeys_usable (nodup_compiledSigalgs b) ha husable
  obtain ⟨-, hentry⟩ := mem_compiledSigalgs b hmem
  simp only [disabledTypes, disableIf, ecdsaDisabled, List.mem_append, List.mem_ite_nil_right,
    not_or] at hnot
  obtain ⟨h₁, -, hv⟩ | ⟨-, h₂, -, hv⟩ | ⟨h₁, h₂, -, hv⟩ | ⟨h₁, h₂, -, hv⟩ | ⟨h₁, h₂, -, hv⟩ |
    ⟨-, h₂, -, hv⟩ | ⟨h₁, h₂, -, hv⟩ | ⟨h₁, h₂, -, hv⟩ | ⟨h₁, -, hv⟩ := hentry
  all_goals
    rw [hv] at hnot ⊢
    cases delayHostkey
    all_goals simp_all [VerifyOnly, HoldsKey, HostSig.keytype, signSlot, Option.isSome_iff_ne_none]

/-- A compiled type that signs can be used if its key is loaded, or can be read or made. -/
theorem compiled_available {delayHostkey : Bool} {hostkey : HostKeys κ}
    {a : AlgoType HostSig Unit} {file : HostkeyFile κ} (ha : a ∈ compiledSigalgs b) :
    HoldsKey hostkey a.val ∨ (delayHostkey = true ∧ CanEnsure b a.val file) ↔
      ¬ VerifyOnly a.val ∧ (((signkeyKeyPtr b a.val.keytype).bind hostkey).isSome = true ∨
        (delayHostkey = true ∧ (file.read.isSome = true ∨
          (file.generate = true ∧ file.reread.isSome = true)))) := by
  obtain ⟨hslot, hfn⟩ | ⟨slot, hslot, hptr, hfn⟩ := compiled_slot b ha
  · simp [HoldsKey, CanEnsure, VerifyOnly, hslot, hfn]
  · simp [HoldsKey, CanEnsure, VerifyOnly, hslot, hptr, hfn]

/-- **When every advertised host key algorithm can be used.**  At the start of each session, after
any sessions before it: if and only if no type is compiled in that can only verify and the key of
every compiled type is loaded, or keys are made on demand and the file of the type can be read or
generated.  What `load_all_hostkeys` has disabled does not matter. -/
theorem advertised_hostkeys_iff (b : KeyBuild) (delayHostkey : Bool)
    (userFiles : List (Option (HostkeyType × Option κ))) (defaults : DefaultFiles κ)
    (st₀ st : ServerKeys κ) (ls : List (KeysEvent κ)) (files : HostkeyType → HostkeyFile κ)
    (hload : loadAllHostkeys b delayHostkey userFiles defaults = .ok st₀)
    (hrun : (serialKeys b delayHostkey).exec st₀ ls = some st) :
    AllUsable b delayHostkey files { st with sigalgs := initialiseSigalgs b st.sigalgs } ↔
      (∀ a ∈ compiledSigalgs b, ¬ VerifyOnly a.val) ∧
      ∀ a ∈ compiledSigalgs b, ((signkeyKeyPtr b a.val.keytype).bind st.hostkey).isSome = true ∨
        (delayHostkey = true ∧ ((files a.val.keytype).read.isSome = true ∨
          ((files a.val.keytype).generate = true ∧
            (files a.val.keytype).reread.isSome = true))) := by
  have hsame : SameEntries st.sigalgs (compiledSigalgs b) :=
    LTS.exec_invariant' (I := fun st => SameEntries st.sigalgs (compiledSigalgs b))
      (sameEntries_load hload) (fun _ _ _ hI hst => sameEntries_step hI hst) hrun
  unfold AllUsable
  rw [initialiseSigalgs_eq b hsame, ← forall₂_and]
  refine forall₂_congr fun a ha => ?_
  rw [sendMsgKexdhReply_compiled b ha, compiled_available ha]
  simp [(mem_compiledSigalgs b ha).1]

end Model

/-- The files with both keys of the PS4 build. -/
def ps4DefaultFiles : DefaultFiles Unit where
  rsa := some (.rsa, some ())
  ed25519 := some (.ed25519, some ())

/-- The PS4 build without security keys. -/
def noSkBuild : KeyBuild := { ps4Build with skEd25519 := false }

/-- No file can be read or made. -/
def noFile (_ : HostkeyType) : HostkeyFile Unit := ⟨none, false, none⟩

/-- With both keys and without security keys, all that is advertised can be used. -/
theorem advertised_hostkeys_iff_noSk :
    ∃ st, loadAllHostkeys noSkBuild false [] ps4DefaultFiles = .ok st ∧
      AllUsable noSkBuild false noFile
        { st with sigalgs := initialiseSigalgs noSkBuild st.sigalgs } := by
  have hload : (loadAllHostkeys noSkBuild false [] ps4DefaultFiles).toOption.any (fun st =>
      (st.hostkey .rsakey).isSome && (st.hostkey .ed25519key).isSome) = true := by
    decide
  obtain ⟨st, hload, hkeys⟩ := exists_ok_of_any hload
  rw [Bool.and_eq_true] at hkeys
  refine ⟨st, hload, (advertised_hostkeys_iff noSkBuild false [] ps4DefaultFiles st st [] noFile
    hload rfl).2 ⟨?_, ?_⟩⟩
  · simp [compiledSigalgs, sigalg, noSkBuild, ps4Build, VerifyOnly, signSlot, HostSig.keytype]
  · simp [compiledSigalgs, sigalg, noSkBuild, ps4Build, signkeyKeyPtr, HostSig.keytype, hkeys]

/-- The PS4 build, with both keys loaded: `sk-ssh-ed25519@openssh.com` is disabled by
`load_all_hostkeys`, advertised by the first session, and a client that chooses it ends the
session. -/
theorem advertised_hostkey_exits :
    ∃ st, loadAllHostkeys ps4Build false [] ps4DefaultFiles = .ok st ∧
      (∃ a ∈ initialiseSigalgs ps4Build st.sigalgs, a.usable = true ∧
        a.name = ascii "sk-ssh-ed25519@openssh.com" ∧
        ∀ hostkey', sendMsgKexdhReply ps4Build false st.hostkey a.val (noFile a.val.keytype) ≠
          .ok hostkey') ∧
      ¬ AllUsable ps4Build false noFile
        { st with sigalgs := initialiseSigalgs ps4Build st.sigalgs } := by
  have hload : (loadAllHostkeys ps4Build false [] ps4DefaultFiles).toOption.any (fun st =>
      decide (initialiseSigalgs ps4Build st.sigalgs = compiledSigalgs ps4Build)) = true := by
    decide
  obtain ⟨st, hload, htable⟩ := exists_ok_of_any hload
  rw [decide_eq_true_eq] at htable
  have hsk : sigalg "sk-ssh-ed25519@openssh.com" (.key .skEd25519) ∈
      initialiseSigalgs ps4Build st.sigalgs := by
    rw [htable]
    simp [compiledSigalgs, ps4Build]
  have hexit : ¬ ∃ hostkey', sendMsgKexdhReply ps4Build false st.hostkey (.key .skEd25519)
      (noFile .skEd25519) = .ok hostkey' := sendMsgKexdhReply_verifies ps4Build rfl
  exact ⟨st, hload, ⟨_, hsk, rfl, rfl, fun hostkey' h => hexit ⟨hostkey', h⟩⟩,
    fun hall => hexit (hall _ hsk rfl).2⟩

/-- The names are those of `ps4AlgoTables`. -/
example : (compiledSigalgs ps4Build).map (·.name) = ps4AlgoTables.sigalgs.map (·.name) := by
  decide

end Ps4Dropbear
