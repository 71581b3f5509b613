import Ps4Dropbear.Session.Kex

/-!
# Algorithm tables

The tables `sshkex`, `sigalgs`, `sshciphers`, `sshhashes` and `ssh_nocompress` (`common-algo.c`),
the name lists that are sent and received, and what negotiation takes from the peer's KEXINIT
(`read_kex_algos` of `common-kex.c`).

The tables are globals: `svr_algos_initialise` restores their flags at the start of a session, and
`disable_sig_except` clears flags after the first key exchange.

* `bufMatchAlgo`, `bufHasAlgo`, `algolistAll` : name lists against a table.
* `readKexAlgos` : the choice of algorithms.
* `svrAlgosInitialise_disableSigExcept` : what a session does to the tables is undone by the
  start of the next one.
-/

namespace Ps4Dropbear

/-- `MAX_PROPOSED_ALGO`. -/
def maxProposedAlgo : ℕ := 50

/-- `struct Algo_Type`, with the value of `val` and the data of `data` and `mode`. -/
structure AlgoType (ν δ : Type) where
  name : Bytes
  val : ν
  data : δ
  usable : Bool := true
  deriving DecidableEq, Repr

/-- The `struct dropbear_kex` constants of the build. -/
inductive DropbearKex
  | sntrup761
  | mlkem768
  | curve25519
  | dhGroup14Sha256
  deriving DecidableEq, Repr

/-- The ciphers with their modes. -/
inductive CipherMode
  | chachapoly
  | aes256Ctr
  | aes128Ctr
  deriving DecidableEq, Repr

/-- `aead_crypt` is not `NULL`. -/
def CipherMode.aead : CipherMode → Bool
  | .chachapoly => true
  | _ => false

/-- The `struct dropbear_hash` constants of the build, with the one of `chachapoly`. -/
inductive DropbearHash
  | sha2x256
  | chachapoly
  deriving DecidableEq, Repr

/-- The tables of `common-algo.c`.  An entry of `sshkex` without data marks an extension. -/
structure AlgoTables where
  sshkex : List (AlgoType Unit (Option DropbearKex))
  sigalgs : List (AlgoType SignatureType Unit)
  sshciphers : List (AlgoType Unit CipherMode)
  sshhashes : List (AlgoType Unit DropbearHash)
  sshNocompress : List (AlgoType Unit Unit)
  deriving DecidableEq, Repr

/-- `KEXGUESS2_ALGO_NAME`. -/
def kexguess2AlgoName : Bytes := ascii "kexguess2@matt.ucc.asn.au"

/-- `SSH_EXT_INFO_C`. -/
def sshExtInfoC : Bytes := ascii "ext-info-c"

/-- `SSH_STRICT_KEX_C`. -/
def sshStrictKexC : Bytes := ascii "kex-strict-c-v00@openssh.com"

/-- `SSH_STRICT_KEX_S`. -/
def sshStrictKexS : Bytes := ascii "kex-strict-s-v00@openssh.com"

/-- The tables of the PS4 build as they are compiled in. -/
def ps4AlgoTables : AlgoTables where
  sshkex :=
    [{ name := ascii "sntrup761x25519-sha512", val := (), data := some .sntrup761 },
      { name := ascii "sntrup761x25519-sha512@openssh.com", val := (), data := some .sntrup761 },
      { name := ascii "mlkem768x25519-sha256", val := (), data := some .mlkem768 },
      { name := ascii "curve25519-sha256", val := (), data := some .curve25519 },
      { name := ascii "curve25519-sha256@libssh.org", val := (), data := some .curve25519 },
      { name := ascii "diffie-hellman-group14-sha256", val := (), data := some .dhGroup14Sha256 },
      { name := kexguess2AlgoName, val := (), data := none },
      { name := sshStrictKexS, val := (), data := none }]
  sigalgs :=
    [{ name := ascii "ssh-ed25519", val := .key .ed25519, data := () },
      { name := ascii "sk-ssh-ed25519@openssh.com", val := .key .skEd25519, data := () },
      { name := ascii "rsa-sha2-256", val := .rsaSha256, data := () }]
  sshciphers :=
    [{ name := ascii "chacha20-poly1305@openssh.com", val := (), data := .chachapoly },
      { name := ascii "aes256-ctr", val := (), data := .aes256Ctr },
      { name := ascii "aes128-ctr", val := (), data := .aes128Ctr }]
  sshhashes := [{ name := ascii "hmac-sha2-256", val := (), data := .sha2x256 }]
  sshNocompress := [{ name := ascii "none", val := (), data := () }]

section Lists

variable {ν δ : Type}

/-! ### Name lists -/

/-- The loop of `buf_put_algolist_all`; `donefirst` is set behind the first name. -/
def algolistLoop (useall : Bool) : Bool → List (AlgoType ν δ) → Bytes
  | _, [] => []
  | donefirst, a :: as =>
    if a.usable || useall then
      (if donefirst then ascii "," else []) ++ a.name ++ algolistLoop useall true as
    else algolistLoop useall donefirst as

/-- The name list that `buf_put_algolist_all` appends, without its length. -/
def algolistAll (localalgos : List (AlgoType ν δ)) (useall : Bool) : Bytes :=
  algolistLoop useall false localalgos

/-- `buf_put_algolist`, with the length. -/
def algolist (localalgos : List (AlgoType ν δ)) : Bytes := sshString (algolistAll localalgos false)

/-- The loop of `get_algolist`: `done` are the names that are complete, `cur` is the one that is
being read. -/
def getAlgolistLoop : List Bytes → Bytes → Bytes → Except Exit (List Bytes)
  | done, cur, [] => .ok (done ++ [cur])
  | done, cur, c :: cs =>
    -- someone is trying something strange
    if c = 0 then .ok []
    else if c = 44 then
      if done.length + 1 ≥ maxProposedAlgo then dropbearExit "Too many remote algorithms"
      else getAlgolistLoop (done ++ [cur]) [] cs
    else getAlgolistLoop done (cur ++ [c]) cs

/-- `get_algolist` with room for `MAX_PROPOSED_ALGO` names.  The count that the check of the length
clears is set to one right behind it. -/
def getAlgolist (algolist : Bytes) : Except Exit (List Bytes) := getAlgolistLoop [] [] algolist

/-- `buf_has_algo`. -/
def bufHasAlgo (buf : Buffer) (algo : Bytes) : Except Exit Bool := do
  let (list, _) ← bufGetstring buf
  let remotenames ← getAlgolist list
  return remotenames.contains algo

/-- The two loops of `buf_match_algo`: the first client name that is a server name, and the first
such server name; `none` stands for an algorithm that is not usable. -/
def matchNames (clinames servnames : List (Option Bytes)) : Option (ℕ × ℕ) :=
  (List.range clinames.length).findSome? fun i =>
    ((clinames.getD i none).bind fun name => servnames.findIdx? (· == some name)).map fun j => (i, j)

/-- `localnames` of `buf_match_algo`, with a hole for each entry that is not usable.  The array has
room for `MAX_PROPOSED_ALGO` entries of the table, usable or not, and nothing checks that they are
no more: what happens behind its end is not defined, and stands here as an error. -/
def localNames (localalgos : List (AlgoType ν δ)) : Except Exit (List (Option Bytes)) :=
  if localalgos.length > maxProposedAlgo then dropbearExit "localnames[] is overrun"
  else .ok (localalgos.map fun a => if a.usable then some a.name else none)

/-- `buf_match_algo`: the entry of the table, and whether the guess was good. -/
def bufMatchAlgo (isserver : Bool) (buf : Buffer) (localalgos : List (AlgoType ν δ))
    (kexguess2 : Bool) : Except Exit (Option (AlgoType ν δ) × Bool × Buffer) := do
  let (list, buf) ← bufGetstring buf
  let remotenames ← getAlgolist list
  let remotenames := remotenames.map some
  let localnames ← localNames localalgos
  let (clinames, servnames) :=
    if isserver then (remotenames, localnames) else (localnames, remotenames)
  match matchNames clinames servnames with
  | none => return (none, false, buf)
  | some (i, j) =>
    return (localalgos[if isserver then j else i]?,
      if kexguess2 then i == 0 else i == 0 && j == 0, buf)

end Lists

/-! ### Negotiation -/

/-- The algorithms that `read_kex_algos` notes in `ses.newkeys`. -/
structure KexChoice where
  algoKex : DropbearKex
  algoSignature : SignatureType
  recvCrypt : CipherMode
  transCrypt : CipherMode
  recvMac : DropbearHash
  transMac : DropbearHash
  deriving DecidableEq, Repr

/-- One list of the KEXINIT, with the exit when nothing matches. -/
def readAlgo {ν δ : Type} (buf : Buffer) (localalgos : List (AlgoType ν δ)) (erralgo : String) :
    Except Exit (AlgoType ν δ × Buffer) := do
  match ← bufMatchAlgo true buf localalgos false with
  | (none, _) => dropbearExit ("No matching algo " ++ erralgo)
  | (some a, _, buf) => return (a, buf)

/-- The MAC list for one direction: it is read, and does not count for an AEAD cipher. -/
def readMac (buf : Buffer) (cipher : CipherMode)
    (localalgos : List (AlgoType Unit DropbearHash)) (erralgo : String) :
    Except Exit (DropbearHash × Buffer) := do
  let (a, _, buf) ← bufMatchAlgo true buf localalgos false
  if cipher.aead then return (.chachapoly, buf)
  else
    match a with
    | none => dropbearExit ("No matching algo " ++ erralgo)
    | some a => return (a.data, buf)

/-- `read_kex_algos` on the payload behind the message type. -/
def readKexAlgos (t : AlgoTables) (buf : Buffer) : Except Exit (KexOffer × KexChoice) := do
  -- start after the cookie
  let buf ← bufIncrpos buf 16
  let kexguess2 ← bufHasAlgo buf kexguess2AlgoName
  let extInfo ← bufHasAlgo buf sshExtInfoC
  let strict ← bufHasAlgo buf sshStrictKexC
  let (kex, goodKex, buf) ← bufMatchAlgo true buf t.sshkex kexguess2
  -- kexguess2 and the extensions do not match negotiation
  match kex.bind (·.data) with
  | none => dropbearExit "No matching algo kex"
  | some algoKex =>
    let (sig, goodSig, buf) ← bufMatchAlgo true buf t.sigalgs kexguess2
    match sig with
    | none => dropbearExit "No matching algo hostkey"
    | some sig =>
      let (c2sCipher, buf) ← readAlgo buf t.sshciphers "enc c->s"
      let (s2cCipher, buf) ← readAlgo buf t.sshciphers "enc s->c"
      let (c2sMac, buf) ← readMac buf c2sCipher.data t.sshhashes "mac c->s"
      let (s2cMac, buf) ← readMac buf s2cCipher.data t.sshhashes "mac s->c"
      let (_, buf) ← readAlgo buf t.sshNocompress "comp c->s"
      let (_, buf) ← readAlgo buf t.sshNocompress "comp s->c"
      let buf ← bufEatstring buf
      let buf ← bufEatstring buf
      let (firstFollows, buf) ← bufGetbool buf
      let _ ← bufGetint buf
      return (⟨extInfo, strict, firstFollows, goodKex && goodSig⟩,
        ⟨algoKex, sig.val, c2sCipher.data, s2cCipher.data, c2sMac, s2cMac⟩)

/-- The payload of `send_msg_kexinit`; `cookie` are 16 random bytes. -/
def kexinitPayload (t : AlgoTables) (cookie : Bytes) : Bytes :=
  [20] ++ cookie ++ algolist t.sshkex ++ algolist t.sigalgs ++
    algolist t.sshciphers ++ algolist t.sshciphers ++ algolist t.sshhashes ++
    algolist t.sshhashes ++ algolist t.sshNocompress ++ algolist t.sshNocompress ++
    sshString [] ++ sshString [] ++ [0] ++ store32h 0

/-- The payload of `send_msg_ext_info`: all signature types, usable or not. -/
def extInfoPayload (t : AlgoTables) : Bytes :=
  [7] ++ store32h 1 ++ sshString (ascii "server-sig-algs") ++ sshString (algolistAll t.sigalgs true)

/-! ### The flags -/

/-- The first loops of `svr_algos_initialise` on an entry: it is usable. -/
def AlgoType.restore {ν δ : Type} (a : AlgoType ν δ) : AlgoType ν δ := { a with usable := true }

/-- The value that `svr_algos_initialise` gives an entry of `sigalgs`, by its name. -/
def restoreVal (name : Bytes) (val : SignatureType) : SignatureType :=
  if name = ascii "ssh-ed25519" then .key .ed25519
  else if name = ascii "sk-ssh-ed25519@openssh.com" then .key .skEd25519
  else if name = ascii "rsa-sha2-256" then .rsaSha256
  else val

/-- `svr_algos_initialise`. -/
def svrAlgosInitialise (t : AlgoTables) : AlgoTables where
  sshkex := t.sshkex.map fun a =>
    { a.restore with usable := !(a.name == sshExtInfoC || a.name == sshStrictKexC) }
  sigalgs := t.sigalgs.map fun a => { a.restore with val := restoreVal a.name a.val }
  sshciphers := t.sshciphers.map AlgoType.restore
  sshhashes := t.sshhashes.map AlgoType.restore
  sshNocompress := t.sshNocompress.map AlgoType.restore

/-- `disable_sig_except`. -/
def disableSigExcept (t : AlgoTables) (allowType : SignatureType) : AlgoTables :=
  { t with sigalgs := t.sigalgs.map fun a =>
      if a.val ≠ allowType then { a with usable := false } else a }

/-- What `disable_sig_except` clears is set again when the next session starts. -/
theorem svrAlgosInitialise_disableSigExcept (t : AlgoTables) (allowType : SignatureType) :
    svrAlgosInitialise (disableSigExcept t allowType) = svrAlgosInitialise t := by
  have hsig : ∀ a : AlgoType SignatureType Unit,
      (fun a : AlgoType SignatureType Unit => { a.restore with val := restoreVal a.name a.val })
        (if a.val ≠ allowType then { a with usable := false } else a) =
      { a.restore with val := restoreVal a.name a.val } := by
    intro a
    by_cases h : a.val ≠ allowType
    · rw [if_pos h]
      rfl
    · rw [if_neg h]
  simp only [svrAlgosInitialise, disableSigExcept, List.map_map]
  congr 1
  exact List.map_congr_left fun a _ => hsig a

theorem restoreVal_restoreVal (name : Bytes) (val : SignatureType) :
    restoreVal name (restoreVal name val) = restoreVal name val := by
  unfold restoreVal
  split_ifs <;> rfl

/-- Starting a session twice is starting it once. -/
theorem svrAlgosInitialise_idem (t : AlgoTables) :
    svrAlgosInitialise (svrAlgosInitialise t) = svrAlgosInitialise t := by
  simp only [svrAlgosInitialise, List.map_map]
  congr 1
  exact List.map_congr_left fun a _ => by
    simp only [Function.comp_apply, AlgoType.restore, restoreVal_restoreVal]

/-- The lists that this build offers at the start of a session. -/
example : algolistAll (svrAlgosInitialise ps4AlgoTables).sigalgs false =
    ascii "ssh-ed25519,sk-ssh-ed25519@openssh.com,rsa-sha2-256" := by
  decide

end Ps4Dropbear
