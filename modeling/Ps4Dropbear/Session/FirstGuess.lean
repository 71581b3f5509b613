import Ps4Dropbear.Session.Negotiation

/-!
# The first guess

A client may send KEXDH_INIT right behind its KEXINIT, for the algorithms that it expects to be
chosen.  Both sides then have to agree whether the guess was right: the server ignores the packet
if not, and the client sends it again.

`goodguess` compares positions with 0.  The position in the own table counts the entries that are
not usable, the position in the list of the peer does not, so with such entries at the front of a
table a right guess is taken for a wrong one by the side that has the table.

* `readKexGuess` : the part of `read_kex_algos` about the guess, for both sides.
* `first_guess_iff` : when the two sides agree.
-/

namespace Ps4Dropbear

variable {ν δ ν' δ' : Type}

/-- Both sides run `buf_match_algo` and get the same `goodguess`, which tells whether the guess is
right. -/
def GuessAgrees (g : Bool) (cli : List (AlgoType ν δ)) (srv : List (AlgoType ν' δ'))
    (buf buf' : Buffer) : Prop :=
  ∃ a a' good b b', bufMatchAlgo true buf srv g = .ok (a, good, b) ∧
    bufMatchAlgo false buf' cli g = .ok (a', good, b') ∧ (good = true ↔ GuessRight g cli srv)

/-- When both sides agree about one list. -/
theorem guessAgrees_iff {g : Bool} {cli : List (AlgoType ν δ)} {srv : List (AlgoType ν' δ')}
    {buf buf' : Buffer} {r r' : Bytes} (hcli : WellNamed cli) (hsrv : WellNamed srv)
    (hbuf : buf.rest = algolist cli ++ r) (hbuf' : buf'.rest = algolist srv ++ r') :
    GuessAgrees g cli srv buf buf' ↔ Fits cli ∧ Fits srv ∧
      (GuessRight g cli srv → HeadUsable cli ∧ (g = true ∨ HeadUsable srv)) := by
  have hs : (matchAlgo true (advertised cli) srv g).2 = true ↔
      GuessRight g cli srv ∧ (g = true ∨ HeadUsable srv) := (matchAlgo_server hsrv g).2
  have hc : (matchAlgo false (advertised srv) cli g).2 = true ↔
      GuessRight g cli srv ∧ HeadUsable cli := (matchAlgo_client hcli g).2
  constructor
  · rintro ⟨a, a', good, b, b', h, h', hgood⟩
    obtain ⟨⟨hread, hroom'⟩, hm, -⟩ := (bufMatchAlgo_ok_iff hcli hbuf).1 h
    obtain ⟨⟨hread', hroom⟩, hm', -⟩ := (bufMatchAlgo_ok_iff hsrv hbuf').1 h'
    rw [hm] at hs
    rw [hm'] at hc
    exact ⟨⟨hread.1, hroom⟩, ⟨hread'.1, hroom'⟩,
      fun hr => ⟨(hc.1 (hgood.2 hr)).2, (hs.1 (hgood.2 hr)).2⟩⟩
  · rintro ⟨hfits, hfits', hcond⟩
    have hs : (matchAlgo true (advertised cli) srv g).2 = true ↔ GuessRight g cli srv :=
      hs.trans ⟨And.left, fun hr => ⟨hr, (hcond hr).2⟩⟩
    have hc : (matchAlgo false (advertised srv) cli g).2 = true ↔ GuessRight g cli srv :=
      hc.trans ⟨And.left, fun hr => ⟨hr, (hcond hr).1⟩⟩
    have heq : (matchAlgo false (advertised srv) cli g).2 =
        (matchAlgo true (advertised cli) srv g).2 := Bool.eq_iff_iff.2 (hc.trans hs.symm)
    exact ⟨_, _, _, _, _,
      (bufMatchAlgo_ok_iff hcli hbuf).2 ⟨⟨hfits.readable, hfits'.2⟩, rfl, rfl⟩,
      (bufMatchAlgo_ok_iff hsrv hbuf').2 ⟨⟨hfits'.readable, hfits.2⟩, Prod.ext rfl heq, rfl⟩, hs⟩

/-! ### Both lists -/

/-- The beginning of `read_kex_algos`, behind the cookie: the guess was good for both lists.  The
other calls of `buf_has_algo` read the same list. -/
def readKexGuess (isserver : Bool) (sshkex : List (AlgoType Unit (Option DropbearKex)))
    (sigalgs : List (AlgoType SignatureType Unit)) (buf : Buffer) : Except Exit Bool := do
  let kexguess2 ← bufHasAlgo buf kexguess2AlgoName
  let (kex, goodKex, buf) ← bufMatchAlgo isserver buf sshkex kexguess2
  match kex.bind (·.data) with
  | none => dropbearExit "No matching algo kex"
  | some _ =>
    let (sig, goodSig, _) ← bufMatchAlgo isserver buf sigalgs kexguess2
    match sig with
    | none => dropbearExit "No matching algo hostkey"
    | some _ => return goodKex && goodSig

/-- The server's `allgood`. -/
theorem readKexAlgos_allgood {t : AlgoTables} {buf b : Buffer} {offer : KexOffer}
    {choice : KexChoice} (h : readKexAlgos t buf = .ok (offer, choice))
    (hb : bufIncrpos buf 16 = .ok b) :
    readKexGuess true t.sshkex t.sigalgs b = .ok offer.allgood := by
  simp only [readKexAlgos, hb, ok_bind, bind_eq_ok, Prod.exists] at h
  obtain ⟨kexguess2, hguess, _, -, strict, hstrict, kex, goodKex, b', hkex, h⟩ := h
  rw [readKexGuess, hguess, ok_bind, hkex, ok_bind]
  dsimp only
  cases hdata : kex.bind (·.data) with
  | none => rw [hdata] at h; simp at h
  | some algoKex =>
    rw [hdata] at h
    simp only [bind_eq_ok, Prod.exists] at h
    obtain ⟨sig, goodSig, b'', hsig, h⟩ := h
    dsimp only
    rw [hsig, ok_bind]
    cases sig with
    | none => simp at h
    | some sig =>
      simp only [bind_eq_ok, Prod.exists, pure_eq_ok, Prod.mk.injEq] at h
      obtain ⟨_, _, -, _, _, -, _, _, -, _, _, -, _, _, -, _, _, -, _, -, _, -, _, _, -, _, _, -,
        rfl, -⟩ := h
      rfl

theorem bufHasAlgo_kexguess2 {peer : List (AlgoType ν δ)} {buf : Buffer} {r : Bytes} {found : Bool}
    (hpeer : WellNamed peer) (hbuf : buf.rest = algolist peer ++ r)
    (h : bufHasAlgo buf kexguess2AlgoName = .ok found) : found = usesKexguess2 peer := by
  simp only [bufHasAlgo, bind_eq_ok, Prod.exists, pure_eq_ok] at h
  obtain ⟨list, b, hstr, names, hnames, rfl⟩ := h
  obtain ⟨⟨hlen, r', hrest⟩, -⟩ := bufGetstring_ok.1 hstr
  have hle := buf.length_rest_le
  have hlist : list = algolistAll peer false := by
    refine (sshString_append_inj ?_ ?_ (hrest.symm.trans hbuf)).1
    · rw [maxStringLen] at hlen
      omega
    · rw [hbuf, algolist, List.length_append, length_sshString, bufMaxIncr] at hle
      omega
  rw [hlist, algolistAll_false, getAlgolist_joinNames hpeer.isName] at hnames
  split_ifs at hnames with hcount hnil
  · cases hnames
    rw [usesKexguess2, hnil]
    decide
  · cases hnames
    simp [usesKexguess2]

/-- `allgood` on either side. -/
theorem readKexGuess_ok {peerKex : List (AlgoType Unit (Option DropbearKex))}
    {peerSig : List (AlgoType SignatureType Unit)} {isserver allgood : Bool}
    {sshkex : List (AlgoType Unit (Option DropbearKex))}
    {sigalgs : List (AlgoType SignatureType Unit)} {buf : Buffer} {r : Bytes}
    (hkex : WellNamed peerKex) (hsig : WellNamed peerSig)
    (hbuf : buf.rest = algolist peerKex ++ (algolist peerSig ++ r))
    (h : readKexGuess isserver sshkex sigalgs buf = .ok allgood) :
    allgood = ((matchAlgo isserver (advertised peerKex) sshkex (usesKexguess2 peerKex)).2 &&
      (matchAlgo isserver (advertised peerSig) sigalgs (usesKexguess2 peerKex)).2) := by
  simp only [readKexGuess, bind_eq_ok, Prod.exists] at h
  obtain ⟨g, hg, kex, goodKex, b, hmk, h⟩ := h
  cases bufHasAlgo_kexguess2 hkex hbuf hg
  obtain ⟨-, hgoodKex, rfl⟩ := (bufMatchAlgo_ok_iff hkex hbuf).1 hmk
  split at h
  · simp at h
  simp only [bind_eq_ok, Prod.exists] at h
  obtain ⟨sig, goodSig, b, hms, h⟩ := h
  obtain ⟨-, hgoodSig, rfl⟩ :=
    (bufMatchAlgo_ok_iff hsig (Buffer.rest_advance_of_append hbuf)).1 hms
  split at h
  · simp at h
  rw [pure_eq_ok] at h
  rw [hgoodKex, hgoodSig]
  exact h.symm

/-- The server takes the guess for a right one: its own tables must not begin with a hole, unless
the client advertises kexguess2. -/
def GoodForServer (cliKex srvKex : List (AlgoType Unit (Option DropbearKex)))
    (cliSig srvSig : List (AlgoType SignatureType Unit)) : Prop :=
  GuessRight (usesKexguess2 cliKex) cliKex srvKex ∧ GuessRight (usesKexguess2 cliKex) cliSig srvSig ∧
    (usesKexguess2 cliKex = true ∨ HeadUsable srvKex ∧ HeadUsable srvSig)

/-- The client takes the guess for a right one: its own tables must not begin with a hole. -/
def GoodForClient (cliKex srvKex : List (AlgoType Unit (Option DropbearKex)))
    (cliSig srvSig : List (AlgoType SignatureType Unit)) : Prop :=
  GuessRight (usesKexguess2 srvKex) cliKex srvKex ∧ GuessRight (usesKexguess2 srvKex) cliSig srvSig ∧
    HeadUsable cliKex ∧ HeadUsable cliSig

section Exchange

variable {cliKex srvKex : List (AlgoType Unit (Option DropbearKex))}
  {cliSig srvSig : List (AlgoType SignatureType Unit)} {buf : Buffer} {r : Bytes} {allgood : Bool}

theorem readKexGuess_server (hck : WellNamed cliKex) (hcs : WellNamed cliSig)
    (hsk : WellNamed srvKex) (hss : WellNamed srvSig)
    (hbuf : buf.rest = algolist cliKex ++ (algolist cliSig ++ r))
    (h : readKexGuess true srvKex srvSig buf = .ok allgood) :
    allgood = true ↔ GoodForServer cliKex srvKex cliSig srvSig := by
  rw [readKexGuess_ok hck hcs hbuf h, Bool.and_eq_true, (matchAlgo_server hsk _).2,
    (matchAlgo_server hss _).2, GoodForServer]
  constructor
  · rintro ⟨⟨hrk, huk⟩, hrs, hus⟩
    refine ⟨hrk, hrs, ?_⟩
    rcases huk with hg | huk
    · exact .inl hg
    · rcases hus with hg | hus
      · exact .inl hg
      · exact .inr ⟨huk, hus⟩
  · rintro ⟨hrk, hrs, hg | ⟨huk, hus⟩⟩
    · exact ⟨⟨hrk, .inl hg⟩, hrs, .inl hg⟩
    · exact ⟨⟨hrk, .inr huk⟩, hrs, .inr hus⟩

theorem readKexGuess_client (hck : WellNamed cliKex) (hcs : WellNamed cliSig)
    (hsk : WellNamed srvKex) (hss : WellNamed srvSig)
    (hbuf : buf.rest = algolist srvKex ++ (algolist srvSig ++ r))
    (h : readKexGuess false cliKex cliSig buf = .ok allgood) :
    allgood = true ↔ GoodForClient cliKex srvKex cliSig srvSig := by
  rw [readKexGuess_ok hsk hss hbuf h, Bool.and_eq_true, (matchAlgo_client hck _).2,
    (matchAlgo_client hcs _).2, GoodForClient]
  constructor
  · rintro ⟨⟨hrk, huk⟩, hrs, hus⟩
    exact ⟨hrk, hrs, huk, hus⟩
  · rintro ⟨hrk, hrs, huk, hus⟩
    exact ⟨⟨hrk, huk⟩, hrs, hus⟩

end Exchange

/-- **When the two sides agree about the guess.**  For one list: the list of each side can be read,
`localnames` has room for each table and, if the names at the front make the guess right, the
client's table does not begin with an entry that is not usable and, without kexguess2, neither does
the server's.  For an exchange: the server ignores the packet that follows exactly when the client
takes its guess for a wrong one, if and only if the guess is good for both of them or for none. -/
theorem first_guess_iff (g : Bool) (cli : List (AlgoType ν δ)) (srv : List (AlgoType ν' δ')) :
    (∀ (buf buf' : Buffer) (r r' : Bytes), WellNamed cli → WellNamed srv →
      buf.rest = algolist cli ++ r → buf'.rest = algolist srv ++ r' →
      (GuessAgrees g cli srv buf buf' ↔ Fits cli ∧ Fits srv ∧
        (GuessRight g cli srv → HeadUsable cli ∧ (g = true ∨ HeadUsable srv)))) ∧
    ∀ (t : AlgoTables) (cliKex : List (AlgoType Unit (Option DropbearKex)))
      (cliSig : List (AlgoType SignatureType Unit)) (K : KexMethods) (s s' : Session)
      (buf buf' : Buffer) (cookie r r' : Bytes) (offer : KexOffer) (choice : KexChoice)
      (allgood : Bool),
      WellNamed cliKex → WellNamed cliSig → WellNamed t.sshkex → WellNamed t.sigalgs →
      cookie.length = 16 → buf.rest = cookie ++ (algolist cliKex ++ (algolist cliSig ++ r)) →
      buf'.rest = algolist t.sshkex ++ (algolist t.sigalgs ++ r') →
      readKexAlgos t buf = .ok (offer, choice) → offer.firstFollows = true →
      K.readKexAlgos buf = .ok offer → s.ignorenext = false → readKexinit K s buf = .ok s' →
      readKexGuess false cliKex cliSig buf' = .ok allgood →
      ((s'.ignorenext = true ↔ allgood = false) ↔
        (GoodForServer cliKex t.sshkex cliSig t.sigalgs ↔
          GoodForClient cliKex t.sshkex cliSig t.sigalgs)) := by
  refine ⟨fun buf buf' r r' hcli hsrv hbuf hbuf' =>
    guessAgrees_iff hcli hsrv hbuf hbuf', ?_⟩
  intro t cliKex cliSig K s s' buf buf' cookie r r' offer choice allgood hck hcs hsk hss hcookie
    hbuf hbuf' hread hfollows hK hign hs hclient
  obtain ⟨offer', hoffer, -, hnext, -⟩ := readKexinit_spec hs
  rw [hK] at hoffer
  cases hoffer
  have hb : bufIncrpos buf 16 = .ok (buf.advance 16) := by
    refine bufIncrpos_ok.2 ⟨?_, rfl⟩
    rw [hbuf, List.length_append, hcookie]
    omega
  have hrest : (buf.advance 16).rest = algolist cliKex ++ (algolist cliSig ++ r) := by
    rw [← hcookie]
    exact Buffer.rest_advance_of_append hbuf
  have hserver := readKexGuess_server hck hcs hsk hss hrest (readKexAlgos_allgood hread hb)
  have hclient := readKexGuess_client hck hcs hsk hss hbuf' hclient
  rw [hnext, hign, hfollows, ← hserver, ← hclient]
  cases offer.allgood <;> cases allgood <;> decide

/-- A client that has only `rsa-sha2-256`. -/
def clientRsa : List (AlgoType SignatureType Unit) :=
  [{ name := ascii "rsa-sha2-256", val := .rsaSha256, data := () }]

/-- What it advertises. -/
def clientRsaList : Buffer := .ofBytes (algolist clientRsa) (by decide)

/-- What the server advertises in a rekey of an RSA session. -/
def rsaSigalgsList : Buffer := .ofBytes (algolist rsaSigalgs) (by decide)

/-- A client that guesses `curve25519-sha256`, and uses kexguess2. -/
def clientKex : List (AlgoType Unit (Option DropbearKex)) :=
  [{ name := ascii "curve25519-sha256", val := (), data := some .curve25519 },
    { name := kexguess2AlgoName, val := (), data := none }]

/-- Its KEXINIT behind the type; a packet follows. -/
def guessKexinit : Buffer :=
  .ofBytes (List.replicate 16 0 ++ (algolist clientKex ++ (algolist clientRsa ++
    (encodeFields [ascii "aes256-ctr", ascii "aes256-ctr", ascii "hmac-sha2-256",
      ascii "hmac-sha2-256", ascii "none", ascii "none", [], []] ++ [1] ++ store32h 0))))
    (by decide +kernel)

/-- A server in the rekey of an RSA session, with the key exchange of the client. -/
def rsaTables : AlgoTables := { ps4AlgoTables with sshkex := clientKex, sigalgs := rsaSigalgs }

/-- Its lists behind the cookie. -/
def rsaLists : Buffer :=
  .ofBytes (algolist clientKex ++ (algolist rsaSigalgs ++ [])) (by decide)

/-- `read_kex_algos` on its tables. -/
def rsaMethods : KexMethods where
  readKexAlgos buf := (readKexAlgos rsaTables buf).map (·.1)
  kexdhReply _ := .ok []

/-- With kexguess2 both sides take the guess of the client for a right one. -/
theorem first_guess_iff_kexguess2 :
    GuessAgrees true clientRsa rsaSigalgs clientRsaList rsaSigalgsList ∧
    ∃ s', readKexinit rsaMethods { authstate := svrAuthinitialise {} none, recvseq := 1 }
        guessKexinit = .ok s' ∧ s'.ignorenext = false ∧
      (GoodForServer clientKex clientKex clientRsa rsaSigalgs ↔
        GoodForClient clientKex clientKex clientRsa rsaSigalgs) := by
  have hrsa : WellNamed clientRsa := by decide
  have hsig : WellNamed rsaSigalgs := by decide
  have hkex : WellNamed clientKex := by decide
  obtain ⟨hlist, hexchange⟩ := first_guess_iff true clientRsa rsaSigalgs
  constructor
  · refine (hlist clientRsaList rsaSigalgsList [] [] hrsa hsig ?_ ?_).2 ⟨⟨by decide, by decide⟩,
        ⟨by decide, by decide⟩, fun _ => ⟨⟨_, rfl, rfl⟩, .inl rfl⟩⟩
    · rw [clientRsaList, Buffer.rest_ofBytes, List.append_nil]
    · rw [rsaSigalgsList, Buffer.rest_ofBytes, List.append_nil]
  · have hread : (readKexAlgos rsaTables guessKexinit).toOption.any
        (fun x => x.1.firstFollows) = true := by decide +kernel
    have hses : (readKexinit rsaMethods { authstate := svrAuthinitialise {} none, recvseq := 1 }
        guessKexinit).toOption.any (fun s => !s.ignorenext) = true := by decide +kernel
    have hclient : (readKexGuess false clientKex clientRsa rsaLists).toOption.any
        (fun allgood => allgood) = true := by decide
    obtain ⟨⟨offer, choice⟩, hread, hfollows⟩ := exists_ok_of_any hread
    obtain ⟨s', hses, hign⟩ := exists_ok_of_any hses
    obtain ⟨allgood, hclient, hgood⟩ := exists_ok_of_any hclient
    have hign : s'.ignorenext = false := (Bool.not_eq_true' _).mp hign
    have hK : rsaMethods.readKexAlgos guessKexinit = .ok offer := by
      simp only [rsaMethods, hread]
      rfl
    refine ⟨s', hses, hign, ?_⟩
    exact (hexchange rsaTables clientKex clientRsa rsaMethods
      { authstate := svrAuthinitialise {} none, recvseq := 1 } s' guessKexinit rsaLists
      (List.replicate 16 0) _ [] offer choice allgood hkex hrsa hkex hsig rfl
      (Buffer.rest_ofBytes _ _) (Buffer.rest_ofBytes _ _) hread hfollows hK rfl hses hclient).1
      (by rw [hign, hgood]; decide)

/-- Without kexguess2, in a rekey of an RSA session: both sides advertise one name, the same one.
The client takes its guess for a right one, and the server ignores the packet. -/
theorem first_guess_disagrees_rekey :
    usableNames clientRsa = usableNames rsaSigalgs ∧ GuessRight false clientRsa rsaSigalgs ∧
      (bufMatchAlgo true clientRsaList rsaSigalgs false).toOption.map (·.2.1) = some false ∧
      (bufMatchAlgo false rsaSigalgsList clientRsa false).toOption.map (·.2.1) = some true ∧
      ¬ GuessAgrees false clientRsa rsaSigalgs clientRsaList rsaSigalgsList := by
  have hserver : (bufMatchAlgo true clientRsaList rsaSigalgs false).toOption.map (·.2.1) =
      some false := by decide
  have hclient : (bufMatchAlgo false rsaSigalgsList clientRsa false).toOption.map (·.2.1) =
      some true := by decide
  refine ⟨by decide, ⟨ascii "rsa-sha2-256", by decide, by decide⟩, hserver,
    hclient, ?_⟩
  rintro ⟨a, a', good, b, b', h, h', -⟩
  rw [h] at hserver
  rw [h'] at hclient
  have hfalse : good = false := Option.some.inj hserver
  have htrue : good = true := Option.some.inj hclient
  exact absurd (hfalse.symm.trans htrue) (by decide)

end Ps4Dropbear
