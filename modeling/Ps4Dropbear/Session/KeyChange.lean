import Ps4Dropbear.Session.Transport

/-!
# When the keys change

An exchange goes through four phases, from the KEXINIT of this side to the NEWKEYS of the peer.
The phase and the number of the exchange determine the flags of `struct KEXState`, `requirenext`,
`ses.newkeys` and the keys in use (`AtPhase`); a packet that does not fit is rejected before it
reaches them.

So the record of what happens to the keys is the same in every run, up to its length: `keyCycle`
for the first exchange, for the second one, and so on.

* `KeyInv` : the invariant, `transport_keyInv` : a step keeps it.
* `keys_change_only_at_newkeys` : the keys change at NEWKEYS, and the session id never.
-/

namespace Ps4Dropbear

/-- How far the current exchange has come. -/
inductive ExchangePhase
  /-- Both sides use the keys of the exchange. -/
  | idle
  /-- Our KEXINIT is sent. -/
  | proposed
  /-- The KEXINIT of the peer is read, too. -/
  | agreed
  /-- Our NEWKEYS is sent. -/
  | finishing
  deriving DecidableEq, Repr

namespace ExchangePhase

/-- `sentkexinit`. -/
def sentkexinit : ExchangePhase → Bool
  | idle => false
  | _ => true

/-- `recvkexinit`. -/
def recvkexinit : ExchangePhase → Bool
  | agreed => true
  | finishing => true
  | _ => false

/-- `sentnewkeys`. -/
def sentnewkeys : ExchangePhase → Bool
  | finishing => true
  | _ => false

/-- Whether the keys for sending are the ones of the exchange already; then data is allowed. -/
def switched : ExchangePhase → Bool
  | idle => true
  | finishing => true
  | _ => false

/-- `ses.newkeys` in exchange `g`. -/
def newkeys (g : ℕ) : ExchangePhase → Option NewKeys
  | idle => none
  | proposed => some { generation := g }
  | agreed => some { generation := g }
  | finishing => some { generation := g, recvValid := true }

/-- `requirenext` in exchange `g`. -/
def requirenext (g : ℕ) : ExchangePhase → ℕ
  | idle => 0
  | proposed => if g = 1 then sshMsgKexinit else 0
  | agreed => sshMsgKexdhInit
  | finishing => sshMsgNewkeys

/-- How much of `keyCycle` has happened. -/
def events : ExchangePhase → ℕ
  | idle => 9
  | proposed => 1
  | agreed => 2
  | finishing => 6

end ExchangePhase

/-- A session in a phase of its exchange. -/
structure AtPhase (ph : ExchangePhase) (s : Session) : Prop where
  sentkexinit : s.kexstate.sentkexinit = ph.sentkexinit
  recvkexinit : s.kexstate.recvkexinit = ph.recvkexinit
  sentnewkeys : s.kexstate.sentnewkeys = ph.sentnewkeys
  recvnewkeys : s.kexstate.recvnewkeys = false
  donefirstkex : s.kexstate.donefirstkex = (decide (2 ≤ s.generation) || ph.switched)
  recvfirstnewkeys : s.kexstate.recvfirstnewkeys = (decide (2 ≤ s.generation) || ph == .idle)
  newkeys : s.newkeys = ph.newkeys s.generation
  dataallowed : s.dataallowed = ph.switched

/-- What the next packet has to be in a phase. -/
structure Requires (ph : ExchangePhase) (s : Session) : Prop where
  requirenext : s.requirenext = ph.requirenext s.generation
  ignorenext : s.ignorenext = true → ph = .agreed

/-- The keys in use. -/
structure UsesKeys (ph : ExchangePhase) (s : Session) : Prop where
  pos : 1 ≤ s.generation
  trans : s.keysTrans = if ph.switched then s.generation else s.generation - 1
  recv : s.keysRecv = if ph = .idle then s.generation else s.generation - 1

/-! ### One exchange -/

section Exchange

variable {K : KexMethods} {s s' : Session} {buf : Buffer} {ph : ExchangePhase}

/-- `send_msg_kexinit` starts an exchange. -/
theorem AtPhase.sendMsgKexinit (h : AtPhase .idle s) (hk : UsesKeys .idle s) :
    AtPhase .proposed (sendMsgKexinit s) ∧ UsesKeys .proposed (sendMsgKexinit s) := by
  have htwo : decide (2 ≤ s.generation + 1) = true := by simpa using hk.pos
  refine ⟨⟨rfl, h.recvkexinit, h.sentnewkeys, h.recvnewkeys, ?_, ?_, rfl, rfl⟩,
    ⟨Nat.le_add_left 1 s.generation, hk.trans, hk.recv⟩⟩
  · refine h.donefirstkex.trans ?_
    show (_ || true) = (decide (2 ≤ s.generation + 1) || false)
    rw [htwo, Bool.or_true, Bool.or_false]
  · refine h.recvfirstnewkeys.trans ?_
    show (_ || true) = (decide (2 ≤ s.generation + 1) || false)
    rw [htwo, Bool.or_true, Bool.or_false]

/-- The KEXINIT of the peer. -/
theorem AtPhase.readKexinit (h : AtPhase .proposed s) (hk : UsesKeys .proposed s)
    (hr : readKexinit K s buf = .ok s') :
    AtPhase .agreed s' ∧ UsesKeys .agreed s' ∧ Requires .agreed s' ∧
      s'.generation = s.generation ∧ s'.sessionId = s.sessionId := by
  simp only [Ps4Dropbear.readKexinit, ite_exit_eq_ok, bind_eq_ok, pure_eq_ok] at hr
  obtain ⟨-, offer, -, -, rfl⟩ := hr
  have hnew : (s.newkeys.map fun n => { n with recvValid := false, transValid := false }) =
      some { generation := s.generation } := by rw [h.newkeys]; rfl
  exact ⟨⟨h.sentkexinit, rfl, h.sentnewkeys, h.recvnewkeys, h.donefirstkex, h.recvfirstnewkeys,
    hnew, h.dataallowed⟩, ⟨hk.pos, hk.trans, hk.recv⟩, ⟨rfl, fun _ => rfl⟩, rfl, rfl⟩

theorem switchKeys_sent {g : ℕ} (h : switchKeys s = .ok s') (hsent : s.kexstate.sentkexinit = true)
    (hrecv : s.kexstate.recvkexinit = true) (hsn : s.kexstate.sentnewkeys = true)
    (hrn : s.kexstate.recvnewkeys = false) (hn : s.newkeys = some ⟨g, true, true⟩) :
    s' = { s with keysTrans := g, newkeys := some ⟨g, true, false⟩ } := by
  simp only [switchKeys, NewKeys.switchesRecv, NewKeys.switchesTrans, hsent, hrecv, hsn, hrn,
    hn] at h
  cases h
  rfl

theorem switchKeys_both {g : ℕ} (h : switchKeys s = .ok s') (hsent : s.kexstate.sentkexinit = true)
    (hrecv : s.kexstate.recvkexinit = true) (hsn : s.kexstate.sentnewkeys = true)
    (hrn : s.kexstate.recvnewkeys = true) (hn : s.newkeys = some ⟨g, true, false⟩) :
    s' = { s with keysRecv := g, newkeys := none, kexstate := kexinitialise s.kexstate } := by
  simp only [switchKeys, NewKeys.switchesRecv, NewKeys.switchesTrans, hsent, hrecv, hsn, hrn,
    hn] at h
  cases h
  rfl

/-- Without a KEXINIT of the peer, NEWKEYS is an error. -/
theorem switchKeys_early (hrecv : s.kexstate.recvkexinit = false) :
    switchKeys s ≠ .ok s' := by
  simp [switchKeys, hrecv]

/-- Our NEWKEYS: the keys for sending are those of the exchange from now on. -/
theorem AtPhase.sendMsgNewkeys (h : AtPhase .agreed s) (hk : UsesKeys .agreed s)
    (hr : sendMsgNewkeys s = .ok s') :
    AtPhase .finishing s' ∧ UsesKeys .finishing s' ∧ s'.generation = s.generation ∧
      s'.keysRecv = s.keysRecv ∧ s'.sessionId = s.sessionId ∧ s'.ignorenext = s.ignorenext ∧
      s'.kexstate.strictKex = s.kexstate.strictKex := by
  have hnew : (s.newkeys.map fun n => { n with recvValid := true, transValid := true }) =
      some ⟨s.generation, true, true⟩ := by rw [h.newkeys]; rfl
  simp only [Ps4Dropbear.sendMsgNewkeys, bind_eq_ok, pure_eq_ok] at hr
  obtain ⟨u, hu, rfl⟩ := hr
  cases switchKeys_sent hu h.sentkexinit h.recvkexinit rfl h.recvnewkeys hnew
  have hphase : ∀ n, AtPhase .finishing { s with
      sent := s.sent ++ [sshMsgNewkeys], dataallowed := true, transseq := n
      kexstate := { s.kexstate with
        sentnewkeys := true
        donesecondkex := s.kexstate.donesecondkex || s.kexstate.donefirstkex
        donefirstkex := true }
      keysTrans := s.generation, newkeys := some ⟨s.generation, true, false⟩ } := fun n =>
    ⟨h.sentkexinit, h.recvkexinit, rfl, h.recvnewkeys, (Bool.or_true _).symm, h.recvfirstnewkeys,
      rfl, rfl⟩
  dsimp only
  split_ifs
  · exact ⟨hphase 0, ⟨hk.pos, rfl, hk.recv⟩, rfl, rfl, rfl, rfl, rfl⟩
  · exact ⟨hphase s.transseq, ⟨hk.pos, rfl, hk.recv⟩, rfl, rfl, rfl, rfl, rfl⟩

/-- The NEWKEYS of the peer: the exchange is over. -/
theorem AtPhase.recvMsgNewkeys (h : AtPhase .finishing s) (hk : UsesKeys .finishing s)
    (hr : recvMsgNewkeys s = .ok s') :
    AtPhase .idle s' ∧ UsesKeys .idle s' ∧ s'.generation = s.generation ∧
      s'.keysTrans = s.keysTrans ∧ s'.sessionId = s.sessionId ∧
      s'.requirenext = s.requirenext ∧ s'.ignorenext = s.ignorenext ∧
      s'.kexstate.strictKex = s.kexstate.strictKex ∧
      (s.kexstate.strictKex = true → s'.recvseq = 0) := by
  simp only [Ps4Dropbear.recvMsgNewkeys, bind_eq_ok, pure_eq_ok] at hr
  obtain ⟨u, hu, rfl⟩ := hr
  cases switchKeys_both hu h.sentkexinit h.recvkexinit h.sentnewkeys rfl h.newkeys
  have hphase : ∀ n, AtPhase .idle { s with
      kexstate := { kexinitialise { s.kexstate with recvnewkeys := true } with
        recvfirstnewkeys := true }
      keysRecv := s.generation, newkeys := none, recvseq := n } := fun n =>
    ⟨rfl, rfl, rfl, rfl, h.donefirstkex, (Bool.or_true _).symm, rfl, h.dataallowed⟩
  dsimp only
  split_ifs with hstrict
  · exact ⟨hphase 0, ⟨hk.pos, hk.trans, rfl⟩, rfl, rfl, rfl, rfl, rfl, rfl, fun _ => rfl⟩
  · exact ⟨hphase s.recvseq, ⟨hk.pos, hk.trans, rfl⟩, rfl, rfl, rfl, rfl, rfl, rfl,
      fun h => absurd h hstrict⟩

end Exchange

/-! ### The record -/

/-- What happens to the keys in exchange `g`. -/
def keyCycle (g : ℕ) : List KeyEvent :=
  [.kexinitSent g, .kexinitRead g,
    .newkeysSent (g - 1), .genNewKeys (some g), .switchKeys true, .trans g,
    .newkeysRead, .switchKeys true, .recv g]

/-- What happens to the keys in the first `n` exchanges. -/
def keyCycles (n : ℕ) : List KeyEvent := (List.range n).flatMap fun i => keyCycle (i + 1)

theorem keyCycles_succ (n : ℕ) : keyCycles (n + 1) = keyCycles n ++ keyCycle (n + 1) := by
  simp [keyCycles, List.range_succ]

/-- What has happened up to a phase of exchange `g`. -/
def keyHistory (ph : ExchangePhase) (g : ℕ) : List KeyEvent :=
  keyCycles (g - 1) ++ (keyCycle g).take ph.events

theorem keyHistory_idle {g : ℕ} (hg : 1 ≤ g) : keyHistory .idle g = keyCycles g := by
  obtain ⟨n, rfl⟩ := Nat.exists_eq_add_of_le' hg
  rw [keyCycles_succ]
  rfl

theorem keyHistory_proposed {g : ℕ} (hg : 1 ≤ g) :
    keyHistory .idle g ++ [KeyEvent.kexinitSent (g + 1)] = keyHistory .proposed (g + 1) := by
  rw [keyHistory_idle hg]
  rfl

theorem keyHistory_agreed (g : ℕ) :
    keyHistory .proposed g ++ [KeyEvent.kexinitRead g] = keyHistory .agreed g := by
  simp only [keyHistory, List.append_assoc]
  rfl

theorem keyHistory_finishing (g : ℕ) :
    keyHistory .agreed g ++
      [KeyEvent.newkeysSent (g - 1), .genNewKeys (some g), .switchKeys true] ++
      [KeyEvent.trans g] = keyHistory .finishing g := by
  simp only [keyHistory, List.append_assoc]
  rfl

theorem keyHistory_done (g : ℕ) :
    keyHistory .finishing g ++ [KeyEvent.newkeysRead, .switchKeys true] ++ [KeyEvent.recv g] =
      keyHistory .idle g := by
  simp only [keyHistory, List.append_assoc]
  rfl

/-- The keys that the NEWKEYS packets in the write queue were encrypted with. -/
def Transport.newkeysKeys (t : Transport) : List ℕ :=
  (t.queued.filter fun w => packetType w.payload = sshMsgNewkeys).map (·.keys)

/-- What is recorded of the keys, in a phase of the current exchange. -/
structure KeyRecord (ph : ExchangePhase) (t : Transport) : Prop where
  keys : UsesKeys ph t.ses
  log : t.keylog = keyHistory ph t.ses.generation
  sent : t.newkeysKeys = List.range t.ses.keysTrans
  held : ∀ m ∈ t.replyQueue, packetIsOkayKex (packetType m) = false

/-- The invariant: the record, and for a session that has not ended its phase. -/
structure KeyInv (ph : ExchangePhase) (t : Transport) : Prop where
  record : KeyRecord ph t
  phase : t.ses.ended = none → AtPhase ph t.ses
  next : t.ses.ended = none → Requires ph t.ses

section Record

variable {K : KexCrypto} {t t' : Transport} {p : TransportPacket} {ph : ExchangePhase}
  {m : Bytes} {ms : List Bytes}

theorem newkeysKeys_encryptPacket (hm : packetType m ≠ sshMsgNewkeys) :
    (t.encryptPacket m).newkeysKeys = t.newkeysKeys := by
  unfold Transport.encryptPacket
  split_ifs
  · rfl
  · simp [Transport.newkeysKeys, List.filter_append, hm]

/-- Only messages that are not allowed during key exchange are held back. -/
theorem held_encryptPacket (h : ∀ m ∈ t.replyQueue, packetIsOkayKex (packetType m) = false) :
    ∀ m' ∈ (t.encryptPacket m).replyQueue, packetIsOkayKex (packetType m') = false := by
  unfold Transport.encryptPacket
  split_ifs with hc
  · simp only [List.mem_append, List.mem_singleton]
    rintro m' (hm' | rfl)
    · exact h m' hm'
    · simp only [Bool.and_eq_true, Bool.not_eq_true'] at hc
      exact hc.2
  · exact h

theorem KeyRecord.encryptPacket (h : KeyRecord ph t) (hm : packetType m ≠ sshMsgNewkeys) :
    KeyRecord ph (t.encryptPacket m) := by
  have honly := Transport.encryptPacket_only t m
  exact ⟨honly.ses ▸ h.keys, by rw [honly.keylog, honly.ses]; exact h.log,
    by rw [newkeysKeys_encryptPacket hm, honly.ses]; exact h.sent, held_encryptPacket h.held⟩

theorem KeyRecord.send (h : KeyRecord ph t) (hm : packetType m ≠ sshMsgNewkeys) :
    KeyRecord ph (t.send m) := by
  have hcalls : KeyRecord ph { t with calls := t.calls ++ [m] } := ⟨h.keys, h.log, h.sent, h.held⟩
  exact hcalls.encryptPacket hm

theorem KeyRecord.sends (h : KeyRecord ph t) (hms : ∀ m ∈ ms, IsPlain m) :
    KeyRecord ph (t.sends ms) := by
  induction ms generalizing t with
  | nil => exact h
  | cons m ms ih =>
    rw [List.forall_mem_cons] at hms
    exact ih (h.send hms.1.2) hms.2

/-- What is flushed had been held back. -/
theorem KeyRecord.maybeFlushReplyQueue (h : KeyRecord ph t) :
    KeyRecord ph t.maybeFlushReplyQueue := by
  unfold Transport.maybeFlushReplyQueue
  split_ifs
  · exact h
  · have hrec : KeyRecord ph (t.replyQueue.foldl Transport.encryptPacket t) :=
      Transport.encryptPacket_fold_invariant h (fun _ _ hm ht => ht.encryptPacket hm) h.held
    exact ⟨hrec.keys, hrec.log, hrec.sent, by simp⟩

/-- A record looks at the keys of the session, the log and the queues. -/
theorem KeyRecord.congr (h : KeyRecord ph t) (hs : SameKeys t.ses t'.ses)
    (hlog : t'.keylog = t.keylog) (hqueued : t'.queued = t.queued)
    (hreply : t'.replyQueue = t.replyQueue) : KeyRecord ph t' where
  keys := ⟨by rw [hs.generation]; exact h.keys.pos,
    by rw [hs.keysTrans, hs.generation]; exact h.keys.trans,
    by rw [hs.keysRecv, hs.generation]; exact h.keys.recv⟩
  log := by rw [hlog, hs.generation]; exact h.log
  sent := by rw [Transport.newkeysKeys, hqueued, hs.keysTrans]; exact h.sent
  held := by rw [hreply]; exact h.held

theorem AtPhase.withSes {s s' : Session} (h : AtPhase ph s) (hs : SameKeys s s') :
    AtPhase ph s' where
  sentkexinit := by rw [hs.kexstate]; exact h.sentkexinit
  recvkexinit := by rw [hs.kexstate]; exact h.recvkexinit
  sentnewkeys := by rw [hs.kexstate]; exact h.sentnewkeys
  recvnewkeys := by rw [hs.kexstate]; exact h.recvnewkeys
  donefirstkex := by rw [hs.kexstate, hs.generation]; exact h.donefirstkex
  recvfirstnewkeys := by rw [hs.kexstate, hs.generation]; exact h.recvfirstnewkeys
  newkeys := by rw [hs.newkeys, hs.generation]; exact h.newkeys
  dataallowed := by rw [hs.dataallowed]; exact h.dataallowed

/-! ### The handlers of key exchange -/

theorem packetType_kexinitPayload (tables : AlgoTables) (rand : Bytes) :
    packetType (kexinitPayload tables rand) = sshMsgKexinit := rfl

theorem KeyRecord.sendMsgKexinit (h : KeyRecord .idle t) (ha : AtPhase .idle t.ses)
    (rand : Bytes) :
    KeyRecord .proposed (t.sendMsgKexinit rand) ∧
      AtPhase .proposed (t.sendMsgKexinit rand).ses ∧
      (t.sendMsgKexinit rand).ses.sessionId = t.ses.sessionId := by
  have hsend : KeyRecord .idle (t.send (kexinitPayload t.tables rand)) :=
    h.send (by rw [packetType_kexinitPayload]; decide)
  have hses : (t.sendMsgKexinit rand).ses = Ps4Dropbear.sendMsgKexinit t.ses := by
    simp only [Transport.sendMsgKexinit, Transport.send_ses]
  obtain ⟨hphase, hkeys⟩ := ha.sendMsgKexinit h.keys
  refine ⟨⟨by rw [hses]; exact hkeys, ?_, ?_, hsend.held⟩, by rw [hses]; exact hphase,
    by rw [hses]; rfl⟩
  · rw [hses]
    show (t.send _).keylog ++ [KeyEvent.kexinitSent ((t.send _).ses.generation + 1)] = _
    rw [Transport.send_keylog, Transport.send_ses, h.log, keyHistory_proposed h.keys.pos]
    rfl
  · rw [hses]
    exact hsend.sent.trans (by rw [Transport.send_ses]; rfl)

/-- Our KEXINIT is sent before the one of the peer is read. -/
theorem KeyRecord.recvMsgKexinit (hph : ph = .idle ∨ ph = .proposed) (h : KeyRecord ph t)
    (ha : AtPhase ph t.ses) (hr : t.recvMsgKexinit K p = .ok t') :
    KeyRecord .agreed t' ∧ AtPhase .agreed t'.ses ∧ Requires .agreed t'.ses ∧
      t'.ses.sessionId = t.ses.sessionId := by
  have hour : KeyRecord .proposed
        (if t.ses.kexstate.sentkexinit then t else t.sendMsgKexinit p.rand) ∧
      AtPhase .proposed
        (if t.ses.kexstate.sentkexinit then t else t.sendMsgKexinit p.rand).ses ∧
      (if t.ses.kexstate.sentkexinit then t else t.sendMsgKexinit p.rand).ses.sessionId =
        t.ses.sessionId := by
    rcases hph with rfl | rfl
    · rw [if_neg (by rw [ha.sentkexinit]; decide)]
      exact h.sendMsgKexinit ha p.rand
    · rw [if_pos (show t.ses.kexstate.sentkexinit = true from ha.sentkexinit)]
      exact ⟨h, ha, rfl⟩
  simp only [Transport.recvMsgKexinit, bind_eq_ok, pure_eq_ok] at hr
  generalize (if t.ses.kexstate.sentkexinit then t else t.sendMsgKexinit p.rand) = u at hr hour
  obtain ⟨s, hs, rfl⟩ := hr
  obtain ⟨hphase, hkeys, hreq, hgen, hid⟩ := hour.2.1.readKexinit hour.1.keys hs
  refine ⟨⟨hkeys, ?_, ?_, hour.1.held⟩, hphase, hreq, hid.trans hour.2.2⟩
  · show u.keylog ++ [KeyEvent.kexinitRead u.ses.generation] = keyHistory .agreed s.generation
    rw [hour.1.log, hgen, keyHistory_agreed]
  · refine hour.1.sent.trans ?_
    rw [hour.1.keys.trans, hkeys.trans, hgen]
    rfl

/-- Our NEWKEYS makes `switch_keys` assign the keys for sending, and no others. -/
theorem replaced_genNewKeys {s : Session} (ha : AtPhase .agreed s) :
    Transport.replaced (genNewKeys s) = [.trans s.generation] := by
  have hn : (genNewKeys s).newkeys = some ⟨s.generation, true, true⟩ := by
    rw [genNewKeys, ha.newkeys]
    rfl
  have hrecv : (genNewKeys s).kexstate.recvnewkeys = false := ha.recvnewkeys
  have hsent : (genNewKeys s).kexstate.sentnewkeys = true := rfl
  simp only [Transport.replaced, hn, NewKeys.switchesRecv, NewKeys.switchesTrans, hrecv, hsent]
  rfl

/-- The NEWKEYS of the peer makes it assign those for receiving: the ones for sending are no longer
valid in `ses.newkeys`. -/
theorem replaced_noteNewkeys {s : Session} (ha : AtPhase .finishing s) :
    Transport.replaced (noteNewkeys s) = [.recv s.generation] := by
  have hn : (noteNewkeys s).newkeys = some ⟨s.generation, true, false⟩ := ha.newkeys
  have hrecv : (noteNewkeys s).kexstate.recvnewkeys = true := rfl
  simp only [Transport.replaced, hn, NewKeys.switchesRecv, NewKeys.switchesTrans, hrecv,
    Bool.and_false]
  rfl

/-- Our NEWKEYS goes out with the old keys, and then the keys for sending are replaced. -/
theorem KeyRecord.sendMsgNewkeys (h : KeyRecord .agreed t) (ha : AtPhase .agreed t.ses)
    (hr : t.sendMsgNewkeys = .ok t') :
    KeyRecord .finishing t' ∧ AtPhase .finishing t'.ses ∧
      t'.ses.ignorenext = t.ses.ignorenext ∧ t'.ses.sessionId = t.ses.sessionId := by
  simp only [Transport.sendMsgNewkeys, bind_eq_ok, pure_eq_ok] at hr
  obtain ⟨s, hs, rfl⟩ := hr
  rw [Transport.send_ses] at hs
  obtain ⟨hphase, hkeys, hgen, hrecv, hid, hign, -⟩ := ha.sendMsgNewkeys h.keys hs
  have htrans : t.ses.keysTrans = t.ses.generation - 1 := h.keys.trans
  have htrans' : s.keysTrans = t.ses.generation := hkeys.trans.trans hgen
  have hpos := h.keys.pos
  have hreplaced := replaced_genNewKeys ha
  refine ⟨⟨hkeys, ?_, ?_, ?_⟩, hphase, hign, hid⟩
  · simp only [Transport.send_ses, Transport.send_keylog]
    rw [hreplaced, h.log, htrans, ha.newkeys, hgen, ← keyHistory_finishing]
    rfl
  · show Transport.newkeysKeys { t.send [21] with ses := s, .. } = List.range s.keysTrans
    have hsucc : t.ses.generation = t.ses.keysTrans + 1 := by omega
    have hlast : (t.send [21]).newkeysKeys = t.newkeysKeys ++ [t.ses.keysTrans] := by
      rw [Transport.send_newkeys]
      simp only [Transport.newkeysKeys, List.filter_append, List.map_append]
      rfl
    refine hlast.trans ?_
    rw [h.sent, htrans', hsucc, List.range_succ]
  · show ∀ m ∈ (t.send [21]).replyQueue, _
    rw [Transport.send_newkeys]
    exact h.held

/-- KEXDH_INIT is answered, and our NEWKEYS is sent. -/
theorem KeyRecord.recvMsgKexdhInit (h : KeyRecord .agreed t) (ha : AtPhase .agreed t.ses)
    (hign : t.ses.ignorenext = false) (hr : t.recvMsgKexdhInit K p = .ok t') :
    KeyRecord .finishing t' ∧ AtPhase .finishing t'.ses ∧ Requires .finishing t'.ses ∧
      ∃ hash, t'.ses.sessionId = some (t.ses.sessionId.getD hash) := by
  simp only [Transport.recvMsgKexdhInit, ite_exit_eq_ok, bind_eq_ok, pure_eq_ok, Prod.exists] at hr
  obtain ⟨-, reply, hash, -, t₁, ht₁, rfl⟩ := hr
  have hreply : KeyRecord .agreed ({ t with ses := { t.ses with
      sent := t.ses.sent ++ [sshMsgKexdhReply]
      sessionId := some (t.ses.sessionId.getD hash) } }.send (31 :: reply.drop 1)) := by
    refine KeyRecord.send ?_ (show (31 : ℕ) ≠ 21 by decide)
    exact ⟨⟨h.keys.pos, h.keys.trans, h.keys.recv⟩, h.log, h.sent, h.held⟩
  have hphase : AtPhase .agreed { t.ses with
      sent := t.ses.sent ++ [sshMsgKexdhReply]
      sessionId := some (t.ses.sessionId.getD hash) } :=
    ⟨ha.sentkexinit, ha.recvkexinit, ha.sentnewkeys, ha.recvnewkeys, ha.donefirstkex,
      ha.recvfirstnewkeys, ha.newkeys, ha.dataallowed⟩
  obtain ⟨hrec₁, hphase₁, hign₁, hid₁⟩ :=
    hreply.sendMsgNewkeys (by rw [Transport.send_ses]; exact hphase) ht₁
  rw [Transport.send_ses] at hign₁ hid₁
  have hign₁ : t₁.ses.ignorenext = false := hign₁.trans hign
  have hext : KeyRecord .finishing (if !t₁.ses.kexstate.donesecondkex && t₁.ses.allowExtInfo then
      t₁.send (extInfoPayload t₁.tables) else t₁) := by
    split_ifs
    · exact hrec₁.send (show (7 : ℕ) ≠ 21 by decide)
    · exact hrec₁
  have hextses : (if !t₁.ses.kexstate.donesecondkex && t₁.ses.allowExtInfo then
      t₁.send (extInfoPayload t₁.tables) else t₁).ses = t₁.ses := by
    split_ifs
    · exact Transport.send_ses
    · rfl
  generalize (if !t₁.ses.kexstate.donesecondkex && t₁.ses.allowExtInfo then
      t₁.send (extInfoPayload t₁.tables) else t₁) = t₂ at hext hextses ⊢
  rw [← hextses] at hphase₁ hign₁ hid₁
  exact ⟨⟨⟨hext.keys.pos, hext.keys.trans, hext.keys.recv⟩, hext.log, hext.sent, hext.held⟩,
    ⟨hphase₁.sentkexinit, hphase₁.recvkexinit, hphase₁.sentnewkeys, hphase₁.recvnewkeys,
      hphase₁.donefirstkex, hphase₁.recvfirstnewkeys, hphase₁.newkeys, hphase₁.dataallowed⟩,
    ⟨rfl, fun hi => absurd (hign₁.symm.trans hi) (by decide)⟩, hash, hid₁⟩

/-- The NEWKEYS of the peer replaces the keys for receiving. -/
theorem KeyRecord.recvMsgNewkeys (h : KeyRecord .finishing t) (ha : AtPhase .finishing t.ses)
    (hign : t.ses.ignorenext = false) (hreq : t.ses.requirenext = 0)
    (hr : t.recvMsgNewkeys = .ok t') :
    KeyRecord .idle t' ∧ AtPhase .idle t'.ses ∧ Requires .idle t'.ses ∧
      t'.ses.sessionId = t.ses.sessionId := by
  simp only [Transport.recvMsgNewkeys, bind_eq_ok, pure_eq_ok] at hr
  obtain ⟨s, hs, rfl⟩ := hr
  obtain ⟨hphase, hkeys, hgen, htrans, hid, hreq', hign', -⟩ := ha.recvMsgNewkeys h.keys hs
  have hrecv : t.ses.keysRecv = t.ses.generation - 1 := h.keys.recv
  have hrecv' : s.keysRecv = t.ses.generation := hkeys.recv.trans hgen
  have hpos := h.keys.pos
  have hreplaced := replaced_noteNewkeys ha
  refine ⟨⟨hkeys, ?_, ?_, h.held⟩, hphase, ⟨hreq'.trans hreq, fun hi => ?_⟩, hid⟩
  · show t.keylog ++ [KeyEvent.newkeysRead, .switchKeys t.ses.newkeys.isSome] ++
      Transport.replaced (noteNewkeys t.ses) = keyHistory .idle s.generation
    rw [hreplaced, h.log, ha.newkeys, hgen, ← keyHistory_done]
    rfl
  · show t.newkeysKeys = List.range s.keysTrans
    rw [htrans]
    exact h.sent
  · rw [hign', hign] at hi
    cases hi

/-! ### Packets and steps -/

/-- The session id, once there is one, stays. -/
def KeepsId (s s' : Session) : Prop := ∀ x, s.sessionId = some x → s'.sessionId = some x

theorem KeepsId.of_eq {s s' : Session} (h : s'.sessionId = s.sessionId) : KeepsId s s' :=
  fun _ hx => h.trans hx

/-- `requirenext` is clear, or it is a type of key exchange. -/
theorem requirenext_kex (ph : ExchangePhase) (g : ℕ) :
    ph.requirenext g = 0 ∨ ph.requirenext g = sshMsgKexinit ∨ ph.requirenext g = sshMsgKexdhInit ∨
      ph.requirenext g = sshMsgNewkeys := by
  cases ph with
  | idle => exact .inl rfl
  | proposed =>
    by_cases hg : g = 1
    · exact .inr (.inl (if_pos hg))
    · exact .inl (if_neg hg)
  | agreed => exact .inr (.inr (.inl rfl))
  | finishing => exact .inr (.inr (.inr rfl))

/-- A packet outside of key exchange leaves what is required next. -/
theorem Requires.next {type : ℕ} {s s' : Session} (h : Requires ph s) (hs : SameKeys s s')
    (hnext : NextEffect type s s') : Requires ph s' := by
  cases hnext with
  | tolerated hstrict htype hreq hign hran =>
    exact ⟨by rw [hreq, hs.generation]; exact h.requirenext,
      fun hi => h.ignorenext (hign.symm.trans hi)⟩
  | ignored hign hign' htype hreq hran =>
    exact ⟨by rw [hreq, hs.generation]; exact h.requirenext,
      fun hi => absurd (hign'.symm.trans hi) (by decide)⟩
  | other htype hreq hign hkex hran =>
    refine ⟨?_, fun hi => h.ignorenext (hign.symm.trans hi)⟩
    have hzero : ph.requirenext s.generation = 0 := by
      rw [← h.requirenext]
      rcases htype with hz | ht
      · exact hz
      · rcases requirenext_kex ph s.generation with hz | hk | hk | hk
        · exact h.requirenext.trans hz
        · exact absurd (ht.symm.trans (h.requirenext.trans hk)) hkex.1
        · exact absurd (ht.symm.trans (h.requirenext.trans hk)) hkex.2.1
        · exact absurd (ht.symm.trans (h.requirenext.trans hk)) hkex.2.2
    rw [hreq, hs.generation, hzero]

theorem sameKeys_accepted (t : Transport) (type : ℕ) (hdl : Handler) :
    SameKeys t.ses (t.accepted type hdl).ses := ⟨rfl, rfl, rfl, rfl, rfl, rfl, rfl, rfl⟩

theorem sameKeys_done (t : Transport) (type : ℕ) : SameKeys t.ses (t.done type).ses :=
  ⟨rfl, rfl, rfl, rfl, rfl, rfl, rfl, rfl⟩

theorem KeyRecord.accepted {type : ℕ} {hdl : Handler} (h : KeyRecord ph t) :
    KeyRecord ph (t.accepted type hdl) := h.congr (sameKeys_accepted t type hdl) rfl rfl rfl

/-- The phases in which a packet of key exchange gets through. -/
theorem phase_of_requirenext {g type : ℕ}
    (h : ph.requirenext g = 0 ∨ ph.requirenext g = type) :
    (type = sshMsgKexinit → ph = .idle ∨ ph = .proposed) ∧
    (type = sshMsgKexdhInit → ph = .idle ∨ ph = .proposed ∨ ph = .agreed) ∧
    (type = sshMsgNewkeys → ph = .idle ∨ ph = .proposed ∨ ph = .finishing) := by
  cases ph with
  | idle => simp
  | proposed => simp
  | agreed =>
    have h : sshMsgKexdhInit = 0 ∨ sshMsgKexdhInit = type := h
    refine ⟨?_, ?_, ?_⟩ <;> rintro rfl
    · exact absurd h (by decide)
    · exact .inr (.inr rfl)
    · exact absurd h (by decide)
  | finishing =>
    have h : sshMsgNewkeys = 0 ∨ sshMsgNewkeys = type := h
    refine ⟨?_, ?_, ?_⟩ <;> rintro rfl
    · exact absurd h (by decide)
    · exact absurd h (by decide)
    · exact .inr (.inr rfl)

/-- Without a KEXINIT of the peer, KEXDH_INIT is an error. -/
theorem recvMsgKexdhInit_early (hrecv : t.ses.kexstate.recvkexinit = false) :
    t.recvMsgKexdhInit K p ≠ .ok t' := by
  simp [Transport.recvMsgKexdhInit, hrecv]

/-- Without a KEXINIT of the peer, NEWKEYS is an error. -/
theorem recvMsgNewkeys_early (hrecv : t.ses.kexstate.recvkexinit = false) :
    t.recvMsgNewkeys ≠ .ok t' := by
  intro h
  simp only [Transport.recvMsgNewkeys, recvMsgNewkeys, bind_eq_ok, pure_eq_ok] at h
  obtain ⟨s, ⟨u, hu, -⟩, -⟩ := h
  exact switchKeys_early (s := { t.ses with kexstate := { t.ses.kexstate with
    recvnewkeys := true } }) hrecv hu

/-- The KEXINIT of the peer is read before or after ours is sent. -/
theorem Requires.kexinit_phase (h : Requires ph t.ses)
    (htype : t.ses.requirenext = 0 ∨ t.ses.requirenext = sshMsgKexinit) :
    ph = .idle ∨ ph = .proposed := by
  rw [h.requirenext] at htype
  exact (phase_of_requirenext htype).1 rfl

/-- KEXDH_INIT is handled behind both KEXINITs. -/
theorem Requires.kexdhInit_phase (h : Requires ph t.ses) (ha : AtPhase ph t.ses)
    (htype : t.ses.requirenext = 0 ∨ t.ses.requirenext = sshMsgKexdhInit)
    (hr : (t.accepted sshMsgKexdhInit .recvMsgKexdhInit).recvMsgKexdhInit K p = .ok t') :
    ph = .agreed := by
  rw [h.requirenext] at htype
  have hacc := ha.withSes (sameKeys_accepted t sshMsgKexdhInit .recvMsgKexdhInit)
  rcases (phase_of_requirenext htype).2.1 rfl with rfl | rfl | hph
  · exact absurd hr (recvMsgKexdhInit_early hacc.recvkexinit)
  · exact absurd hr (recvMsgKexdhInit_early hacc.recvkexinit)
  · exact hph

/-- NEWKEYS is handled behind ours. -/
theorem Requires.newkeys_phase (h : Requires ph t.ses) (ha : AtPhase ph t.ses)
    (htype : t.ses.requirenext = 0 ∨ t.ses.requirenext = sshMsgNewkeys)
    (hr : (t.accepted sshMsgNewkeys .recvMsgNewkeys).recvMsgNewkeys = .ok t') :
    ph = .finishing := by
  rw [h.requirenext] at htype
  have hacc := ha.withSes (sameKeys_accepted t sshMsgNewkeys .recvMsgNewkeys)
  rcases (phase_of_requirenext htype).2.2 rfl with rfl | rfl | hph
  · exact absurd hr (recvMsgNewkeys_early hacc.recvkexinit)
  · exact absurd hr (recvMsgNewkeys_early hacc.recvkexinit)
  · exact hph

/-- The state behind a handler of key exchange. -/
theorem KeyInv.of_done {type : ℕ} (h : KeyRecord ph t) (ha : AtPhase ph t.ses)
    (hn : Requires ph t.ses) : KeyInv ph (t.done type) :=
  ⟨h.congr (sameKeys_done t type) rfl rfl rfl, fun _ => ha.withSes (sameKeys_done t type),
    fun _ => ⟨hn.requirenext, hn.ignorenext⟩⟩

/-- The invariant does not look at the other fields. -/
theorem KeyInv.congr (h : KeyInv ph t) (hs : SameKeys t.ses t'.ses)
    (hended : t'.ses.ended = t.ses.ended) (hreq : t'.ses.requirenext = t.ses.requirenext)
    (hign : t'.ses.ignorenext = t.ses.ignorenext) (hlog : t'.keylog = t.keylog)
    (hqueued : t'.queued = t.queued) (hreply : t'.replyQueue = t.replyQueue) : KeyInv ph t' where
  record := h.record.congr hs hlog hqueued hreply
  phase := fun he => (h.phase (hended.symm.trans he)).withSes hs
  next := fun he =>
    ⟨by rw [hreq, hs.generation]; exact (h.next (hended.symm.trans he)).requirenext,
      fun hi => (h.next (hended.symm.trans he)).ignorenext (hign.symm.trans hi)⟩

/-- The invariant does not look at the sequence number. -/
theorem KeyInv.counted (h : KeyInv ph t) : KeyInv ph t.counted where
  record := ⟨⟨h.record.keys.pos, h.record.keys.trans, h.record.keys.recv⟩, h.record.log,
    h.record.sent, h.record.held⟩
  phase := fun he => ⟨(h.phase he).sentkexinit, (h.phase he).recvkexinit, (h.phase he).sentnewkeys,
    (h.phase he).recvnewkeys, (h.phase he).donefirstkex, (h.phase he).recvfirstnewkeys,
    (h.phase he).newkeys, (h.phase he).dataallowed⟩
  next := fun he => ⟨(h.next he).requirenext, (h.next he).ignorenext⟩

theorem KeyInv.sends (h : KeyInv ph t) (hms : ∀ m ∈ ms, IsPlain m) : KeyInv ph (t.sends ms) where
  record := h.record.sends hms
  phase := by rw [Transport.sends_ses]; exact h.phase
  next := by rw [Transport.sends_ses]; exact h.next

/-- A packet outside of key exchange keeps the phase. -/
theorem KeyInv.plainPacket {type : ℕ} {s : Session} {r : List ℕ} (h : KeyInv ph t)
    (hlive : t.ses.ended = none) (hs : SameKeys t.ses s) (hnext : NextEffect type t.ses s)
    (hms : ∀ m ∈ ms, IsPlain m) : KeyInv ph ({ t with ses := s, received := r }.sends ms) := by
  have hinv : KeyInv ph { t with ses := s, received := r } :=
    ⟨h.record.congr hs rfl rfl rfl, fun _ => (h.phase hlive).withSes hs,
      fun _ => (h.next hlive).next hs hnext⟩
  exact hinv.sends hms

/-- **A packet keeps the invariant**, and the session id. -/
theorem KeyInv.packet (h : KeyInv ph t) (hlive : t.ses.ended = none)
    (he : PacketEffect K t p t') : (∃ ph', KeyInv ph' t') ∧ KeepsId t.ses t'.ses := by
  have hphase := h.phase hlive
  have hnext := h.next hlive
  cases he with
  | exits s received hs hended hrec =>
    have hne : s.ended ≠ none := Option.isSome_iff_ne_none.1 hended
    exact ⟨⟨ph, h.record.congr hs rfl rfl rfl, fun hn => absurd hn hne,
      fun hn => absurd hn hne⟩, .of_eq hs.sessionId⟩
  | plain type s payloads hs hended hne hplain =>
    refine ⟨⟨ph, h.plainPacket hlive hs hne hplain⟩, ?_⟩
    rw [Transport.sends_ses]
    exact .of_eq hs.sessionId
  | kexinit t₁ hp hign htype hr =>
    obtain ⟨hrec, hphase', hreq, hid⟩ := h.record.accepted.recvMsgKexinit
      (hnext.kexinit_phase htype) (hphase.withSes (sameKeys_accepted t _ _)) hr
    exact ⟨⟨.agreed, .of_done hrec hphase' hreq⟩, .of_eq hid⟩
  | kexdhInit t₁ hign htype hr =>
    cases hnext.kexdhInit_phase hphase htype hr
    obtain ⟨hrec, hphase', hreq, hash, hid⟩ := h.record.accepted.recvMsgKexdhInit
      (hphase.withSes (sameKeys_accepted t _ _)) hign hr
    refine ⟨⟨.finishing, .of_done hrec hphase' hreq⟩, ?_⟩
    intro x hx
    have hget : (t.accepted sshMsgKexdhInit .recvMsgKexdhInit).ses.sessionId = some x := hx
    rw [hget] at hid
    exact hid
  | newkeys t₁ hign htype hr =>
    cases hnext.newkeys_phase hphase htype hr
    obtain ⟨hrec, hphase', hreq, hid⟩ := h.record.accepted.recvMsgNewkeys
      (hphase.withSes (sameKeys_accepted t _ _)) hign rfl hr
    exact ⟨⟨.idle, .of_done hrec hphase' hreq⟩, .of_eq hid⟩

/-- A step outside of key exchange keeps the phase. -/
theorem KeyInv.plainStep {s : Session} {kex : KexBuffers} {written : ℕ} {place : LoopPlace}
    (h : KeyInv ph t) (hs : SameKeys t.ses s) (hended : s.ended = t.ses.ended)
    (hreq : s.requirenext = t.ses.requirenext) (hign : s.ignorenext = t.ses.ignorenext)
    (hms : ∀ m ∈ ms, IsPlain m) :
    KeyInv ph { { t with ses := s, kex := kex, written := written }.sends ms with
      place := place } := by
  have hinv : KeyInv ph { t with ses := s, kex := kex, written := written } :=
    h.congr hs hended hreq hign rfl rfl rfl
  exact (hinv.sends hms).congr ⟨rfl, rfl, rfl, rfl, rfl, rfl, rfl, rfl⟩ rfl rfl rfl rfl rfl rfl

/-- Flushing keeps the phase. -/
theorem KeyInv.flush {place : LoopPlace} (h : KeyInv ph t) :
    KeyInv ph { t.maybeFlushReplyQueue with place := place } := by
  have honly := (Transport.maybeFlushReplyQueue_only t).ses
  have hinv : KeyInv ph t.maybeFlushReplyQueue :=
    ⟨h.record.maybeFlushReplyQueue, by rw [honly]; exact h.phase, by rw [honly]; exact h.next⟩
  exact hinv.congr ⟨rfl, rfl, rfl, rfl, rfl, rfl, rfl, rfl⟩ rfl rfl rfl rfl rfl rfl

/-- **A step keeps the invariant**, and the session id. -/
theorem KeyInv.step {ev : TransportEvent} (h : KeyInv ph t) (hlive : t.ses.ended = none)
    (he : StepEffect K t ev t') : (∃ ph', KeyInv ph' t') ∧ KeepsId t.ses t'.ses := by
  have hphase := h.phase hlive
  have hnext := h.next hlive
  cases he with
  | exits _ msg place =>
    have hrec : KeyRecord ph { t.exit msg with place := place } :=
      h.record.congr ⟨rfl, rfl, rfl, rfl, rfl, rfl, rfl, rfl⟩ rfl rfl rfl
    exact ⟨⟨ph, hrec, (fun hn => by cases hn), (fun hn => by cases hn)⟩, .of_eq rfl⟩
  | rekey _ rand payloads hsent hplace hplain =>
    have hidle : ph = .idle := by
      have hs := hphase.sentkexinit
      rw [hsent] at hs
      cases ph <;> first | rfl | cases hs
    subst hidle
    have hrec : KeyRecord .idle { t with ses := { t.ses with
        kexstate := { t.ses.kexstate with needrekey := false } } } :=
      ⟨⟨h.record.keys.pos, h.record.keys.trans, h.record.keys.recv⟩, h.record.log, h.record.sent,
        h.record.held⟩
    have hat : AtPhase .idle { t.ses with
        kexstate := { t.ses.kexstate with needrekey := false } } :=
      ⟨hphase.sentkexinit, hphase.recvkexinit, hphase.sentnewkeys, hphase.recvnewkeys,
        hphase.donefirstkex, hphase.recvfirstnewkeys, hphase.newkeys, hphase.dataallowed⟩
    obtain ⟨hrec', hat', hid⟩ := hrec.sendMsgKexinit hat rand
    have hinv := KeyInv.sends ⟨hrec', fun _ => hat', fun _ => ?_⟩ hplain
    · refine ⟨⟨.proposed, hinv.congr ⟨rfl, rfl, rfl, rfl, rfl, rfl, rfl, rfl⟩ rfl rfl rfl rfl rfl
        rfl⟩, .of_eq ?_⟩
      rw [Transport.sends_ses]
      exact hid
    · -- after the first exchange nothing is required before the KEXINIT of the peer
      have hgen : t.ses.generation + 1 ≠ 1 := by
        have := h.record.keys.pos
        omega
      rw [Transport.sendMsgKexinit, Transport.send_ses]
      exact ⟨hnext.requirenext.trans (if_neg hgen).symm,
        fun hi => absurd (hnext.ignorenext hi) (by decide)⟩
  | plain _ s kex written payloads place hs hended hreq hign hran hpeer hplace hplain =>
    refine ⟨⟨ph, h.plainStep hs hended hreq hign hplain⟩, .of_eq ?_⟩
    rw [Transport.sends_ses]
    exact hs.sessionId
  | packet p t₁ hplace heff =>
    obtain ⟨⟨ph', hinv'⟩, hid⟩ := h.counted.packet hlive heff
    exact ⟨⟨ph', hinv'.congr ⟨rfl, rfl, rfl, rfl, rfl, rfl, rfl, rfl⟩ rfl rfl rfl rfl rfl rfl⟩, hid⟩
  | flush hplace =>
    exact ⟨⟨ph, h.flush⟩, .of_eq (congrArg Session.sessionId
      (Transport.maybeFlushReplyQueue_only t).ses)⟩

end Record

/-! ### Runs -/

/-- The keys for sending that come into use. -/
def KeyEvent.transKeys : KeyEvent → Option ℕ
  | .trans g => some g
  | _ => none

/-- The keys for receiving that come into use. -/
def KeyEvent.recvKeys : KeyEvent → Option ℕ
  | .recv g => some g
  | _ => none

theorem keyCycles_transKeys (n : ℕ) :
    (keyCycles n).filterMap KeyEvent.transKeys = (List.range n).map (· + 1) := by
  induction n with
  | zero => rfl
  | succ n ih =>
    rw [keyCycles_succ, List.filterMap_append, ih, List.range_succ, List.map_append]
    rfl

theorem keyCycles_recvKeys (n : ℕ) :
    (keyCycles n).filterMap KeyEvent.recvKeys = (List.range n).map (· + 1) := by
  induction n with
  | zero => rfl
  | succ n ih =>
    rw [keyCycles_succ, List.filterMap_append, ih, List.range_succ, List.map_append]
    rfl

/-- The keys of a phase are the last ones that have come into use. -/
theorem keyHistory_transKeys (ph : ExchangePhase) {g : ℕ} (hg : 1 ≤ g) :
    (keyHistory ph g).filterMap KeyEvent.transKeys =
      (List.range (if ph.switched then g else g - 1)).map (· + 1) := by
  obtain ⟨n, rfl⟩ := Nat.exists_eq_add_of_le' hg
  rw [keyHistory, List.filterMap_append, Nat.add_sub_cancel, keyCycles_transKeys]
  cases ph with
  | idle =>
    show _ = (List.range (n + 1)).map (· + 1)
    rw [List.range_succ, List.map_append]
    rfl
  | proposed => exact List.append_nil _
  | agreed => exact List.append_nil _
  | finishing =>
    show _ = (List.range (n + 1)).map (· + 1)
    rw [List.range_succ, List.map_append]
    rfl

theorem keyHistory_recvKeys (ph : ExchangePhase) {g : ℕ} (hg : 1 ≤ g) :
    (keyHistory ph g).filterMap KeyEvent.recvKeys =
      (List.range (if ph = .idle then g else g - 1)).map (· + 1) := by
  obtain ⟨n, rfl⟩ := Nat.exists_eq_add_of_le' hg
  rw [keyHistory, List.filterMap_append, Nat.add_sub_cancel, keyCycles_recvKeys]
  cases ph with
  | idle =>
    rw [if_pos rfl, List.range_succ, List.map_append]
    rfl
  | proposed => exact List.append_nil _
  | agreed => exact List.append_nil _
  | finishing => exact List.append_nil _

theorem keyHistory_prefix (ph : ExchangePhase) {g : ℕ} (hg : 1 ≤ g) :
    keyHistory ph g <+: keyCycles g := by
  obtain ⟨n, rfl⟩ := Nat.exists_eq_add_of_le' hg
  rw [keyHistory, keyCycles_succ, Nat.add_sub_cancel]
  exact (List.prefix_append_right_inj _).2 (List.take_prefix _ _)

section Runs

variable {H : Host} {o : SvrOpts} {K : KexCrypto} {banner : Option Bytes} {tables : AlgoTables}
  {rand : Bytes} {t : Transport} {ls : List TransportEvent}

theorem KeyInv.start : KeyInv .proposed (transportStart o banner tables rand) := by
  have hses : (transportStart o banner tables rand).ses =
      sendMsgKexinit { authstate := svrAuthinitialise o banner } := by
    simp only [transportStart, Transport.sendMsgKexinit, Transport.send_ses]
  refine ⟨⟨?_, ?_, ?_, ?_⟩, fun _ => ?_, fun _ => ?_⟩
  · rw [hses]
    exact ⟨Nat.le_refl 1, rfl, rfl⟩
  · rw [hses]
    simp only [transportStart, Transport.sendMsgKexinit, Transport.send_ses, Transport.send_keylog]
    rfl
  · rw [hses]
    rfl
  · exact fun m hm => absurd hm List.not_mem_nil
  · rw [hses]
    exact ⟨rfl, rfl, rfl, rfl, rfl, rfl, rfl, rfl⟩
  · rw [hses]
    exact ⟨rfl, fun hi => by cases hi⟩

/-- The invariant holds in every state that is reached. -/
theorem transport_keyInv
    (h : (transport H o K).exec (transportStart o banner tables rand) ls = some t) :
    ∃ ph, KeyInv ph t :=
  LTS.exec_invariant' (I := fun t => ∃ ph, KeyInv ph t) ⟨_, .start⟩
    (fun _ _ _ ⟨_, hI⟩ hst => (hI.step (transport_live hst) (transport_effect hst)).1) h

/-- **Keys change only at NEWKEYS.**  In every run, what happens to the keys is a part of
`keyCycles`: the exchanges one after the other, each with the two KEXINITs, our NEWKEYS under the
old keys, `gen_new_keys`, the replacement of the keys for sending, the NEWKEYS of the peer, and the
replacement of those for receiving; `switch_keys` always finds `ses.newkeys`.  The keys in use are
the last ones that the record has for their direction, the NEWKEYS packets in the write queue are
encrypted with the keys before, and a session id stays to the end of the run. -/
theorem keys_change_only_at_newkeys (H : Host) (o : SvrOpts) (K : KexCrypto)
    (banner : Option Bytes) (tables : AlgoTables) (rand : Bytes) (ls : List TransportEvent)
    (t : Transport) (h : (transport H o K).exec (transportStart o banner tables rand) ls = some t) :
    (∃ n, t.keylog <+: keyCycles n) ∧
    t.keylog.filterMap KeyEvent.transKeys = (List.range t.ses.keysTrans).map (· + 1) ∧
    t.keylog.filterMap KeyEvent.recvKeys = (List.range t.ses.keysRecv).map (· + 1) ∧
    t.newkeysKeys = List.range t.ses.keysTrans ∧
    ∀ pre post u x, ls = pre ++ post →
      (transport H o K).exec (transportStart o banner tables rand) pre = some u →
      u.ses.sessionId = some x → t.ses.sessionId = some x := by
  obtain ⟨ph, hinv⟩ := transport_keyInv h
  have hlog := hinv.record.log
  have hpos := hinv.record.keys.pos
  refine ⟨⟨t.ses.generation, ?_⟩, ?_, ?_, hinv.record.sent, ?_⟩
  · rw [hlog]
    exact keyHistory_prefix ph hpos
  · rw [hlog, keyHistory_transKeys ph hpos, hinv.record.keys.trans]
  · rw [hlog, keyHistory_recvKeys ph hpos, hinv.record.keys.recv]
  · rintro pre post u x rfl hu hx
    obtain ⟨v, hv, hrest⟩ := LTS.exec_append_eq_some.1 h
    rw [hu] at hv
    cases hv
    exact (LTS.exec_invariant'
      (I := fun t => (∃ ph, KeyInv ph t) ∧ t.ses.sessionId = some x) ⟨transport_keyInv hu, hx⟩
      (fun _ _ _ hI hst => by
        obtain ⟨⟨ph, hI⟩, hx⟩ := hI
        have hstep := hI.step (transport_live hst) (transport_effect hst)
        exact ⟨hstep.1, hstep.2 x hx⟩) hrest).2

/-- An exchange and the KEXINIT of a rekey. -/
theorem keys_change_only_at_newkeys_rekey :
    ∃ t, (transport bareHost {} plainCrypto).exec (transportStart {} none ps4AlgoTables [])
        (firstExchange plainKexinit ++ [TransportEvent.timeouts (some []) [] none]) = some t ∧
      t.keylog = keyCycle 1 ++ [KeyEvent.kexinitSent 2] ∧ (∃ n, t.keylog <+: keyCycles n) ∧
      t.newkeysKeys = List.range t.ses.keysTrans := by
  have hrun : ((transport bareHost {} plainCrypto).exec (transportStart {} none ps4AlgoTables [])
      (firstExchange plainKexinit ++ [TransportEvent.timeouts (some []) [] none])).any
        (fun t => t.keylog == keyCycle 1 ++ [KeyEvent.kexinitSent 2]) = true := by
    decide +kernel
  obtain ⟨t, ht, hlog⟩ := (Option.any_eq_true _ _).1 hrun
  rw [beq_iff_eq] at hlog
  obtain ⟨hcycles, -, -, hsent, -⟩ := keys_change_only_at_newkeys bareHost {} plainCrypto none
    ps4AlgoTables [] _ t ht
  exact ⟨t, ht, hlog, hcycles, hsent⟩

end Runs

end Ps4Dropbear
