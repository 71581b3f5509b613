import Ps4Dropbear.Session.KeyChange

/-!
# Strict key exchange

A client that offers `kex-strict-c` in its first KEXINIT gets a first exchange into which nothing
can be inserted: `recvseq` shows that KEXINIT was the first packet, and then `requirenext` and the
flag `first_strict_kex` of `process_packet` leave no room, apart from the KEXDH_INIT of a wrong
guess.  From then on the sequence numbers start again at every NEWKEYS.

The peer can count up to `2 ^ 32`, so the result about `recvseq` is for shorter sessions.

* `StrictAt` : what is known in each phase of the exchange.
* `SeqReset` : the packet behind a NEWKEYS has the sequence number 0.
* `strict_kex` : the packets received, and the sequence numbers, in every run.
-/

namespace Ps4Dropbear

/-- `buf_has_algo` finds `kex-strict-c` in the first list of the KEXINIT. -/
def OffersStrict (p : TransportPacket) : Prop :=
  ∃ b, bufIncrpos p.buf 16 = .ok b ∧ bufHasAlgo b sshStrictKexC = .ok true

/-- If this is the first KEXINIT of the client, it offers `kex-strict-c`. -/
def FirstKexinitStrict (t : Transport) (ev : TransportEvent) : Prop :=
  ∀ p, ev = .packet p → p.type = some sshMsgKexinit → sshMsgKexinit ∉ t.received → OffersStrict p

/-- The last KEXINIT that was read announces a first packet that follows, and the guess is wrong. -/
def WrongGuess (tables : AlgoTables) (t : Transport) : Prop :=
  ∃ p offer choice, p.raw.contents = t.kex.peerKexinit ∧
    readKexAlgos tables (TransportPacket.buf p) = .ok (offer, choice) ∧
    offer.firstFollows = true ∧ offer.allgood = false

/-- `read_kex_algos` notes what `buf_has_algo` finds. -/
theorem readKexAlgos_strict {tables : AlgoTables} {buf b : Buffer} {offer : KexOffer}
    {choice : KexChoice} (h : readKexAlgos tables buf = .ok (offer, choice))
    (hb : bufIncrpos buf 16 = .ok b) : bufHasAlgo b sshStrictKexC = .ok offer.strict := by
  simp only [readKexAlgos, hb, ok_bind, bind_eq_ok, Prod.exists] at h
  obtain ⟨_, -, _, -, strict, hstrict, kex, _, _, -, h⟩ := h
  split at h
  · simp at h
  simp only [bind_eq_ok, Prod.exists] at h
  obtain ⟨sig, _, _, -, h⟩ := h
  split at h
  · simp at h
  simp only [bind_eq_ok, Prod.exists, pure_eq_ok, Prod.mk.injEq] at h
  obtain ⟨_, _, -, _, _, -, _, _, -, _, _, -, _, _, -, _, _, -, _, -, _, -, _, _, -, _, _, -,
    rfl, -⟩ := h
  exact hstrict

/-! ### Sequence numbers of sent packets -/

/-- Behind every NEWKEYS the next packet, or the next one to be sent, has the number 0. -/
def SeqReset (queued : List WirePacket) (transseq : ℕ) : Prop :=
  ∀ pre w post, queued = pre ++ w :: post → packetType w.payload = sshMsgNewkeys →
    (post.head?.map WirePacket.seq).getD transseq = 0

theorem SeqReset.append {q : List WirePacket} {w : WirePacket} {n n' : ℕ} (h : SeqReset q n)
    (hseq : w.seq = n) (hw : packetType w.payload = sshMsgNewkeys → n' = 0) :
    SeqReset (q ++ [w]) n' := by
  intro pre w' post heq htype
  rcases List.eq_nil_or_concat post with rfl | ⟨post', x, rfl⟩
  · obtain ⟨rfl, hlast⟩ := List.append_inj' heq rfl
    cases hlast
    exact hw htype
  · rw [List.concat_eq_append, ← List.cons_append, ← List.append_assoc] at heq
    obtain ⟨rfl, hlast⟩ := List.append_inj' heq rfl
    cases hlast
    have hold := h pre w' post' rfl htype
    cases post' with
    | nil => exact hseq.trans hold
    | cons y ys => exact hold

section Sending

variable {K : KexCrypto} {t t' : Transport} {p : TransportPacket} {ph : ExchangePhase}
  {tables : AlgoTables} {m : Bytes} {ms : List Bytes}

theorem SeqReset.encryptPacket (h : SeqReset t.queued t.transseq)
    (hm : packetType m ≠ sshMsgNewkeys) :
    SeqReset (t.encryptPacket m).queued (t.encryptPacket m).transseq := by
  unfold Transport.encryptPacket
  split_ifs
  · exact h
  · exact h.append rfl fun hnew => absurd hnew hm

theorem SeqReset.send (h : SeqReset t.queued t.transseq) (hm : packetType m ≠ sshMsgNewkeys) :
    SeqReset (t.send m).queued (t.send m).transseq :=
  SeqReset.encryptPacket (t := { t with calls := t.calls ++ [m] }) h hm

theorem SeqReset.sends (h : SeqReset t.queued t.transseq) (hms : ∀ m ∈ ms, IsPlain m) :
    SeqReset (t.sends ms).queued (t.sends ms).transseq := by
  induction ms generalizing t with
  | nil => exact h
  | cons m ms ih =>
    rw [List.forall_mem_cons] at hms
    exact ih (h.send hms.1.2) hms.2

theorem SeqReset.maybeFlushReplyQueue (h : SeqReset t.queued t.transseq)
    (hheld : ∀ m ∈ t.replyQueue, packetIsOkayKex (packetType m) = false) :
    SeqReset t.maybeFlushReplyQueue.queued t.maybeFlushReplyQueue.transseq := by
  unfold Transport.maybeFlushReplyQueue
  split_ifs
  · exact h
  · exact Transport.encryptPacket_fold_invariant
      (P := fun t => SeqReset t.queued t.transseq) h (fun _ _ hm ht => ht.encryptPacket hm) hheld

/-- A strict session starts the sequence again behind its NEWKEYS. -/
theorem SeqReset.sendMsgNewkeys (h : SeqReset t.queued t.transseq) (ha : AtPhase .agreed t.ses)
    (hk : UsesKeys .agreed t.ses) (hstrict : t.ses.kexstate.strictKex = true)
    (hr : t.sendMsgNewkeys = .ok t') : SeqReset t'.queued t'.transseq := by
  simp only [Transport.sendMsgNewkeys, bind_eq_ok, pure_eq_ok] at hr
  obtain ⟨s, hs, rfl⟩ := hr
  rw [Transport.send_ses] at hs
  have hstrict' : s.kexstate.strictKex = true :=
    (ha.sendMsgNewkeys hk hs).2.2.2.2.2.2.trans hstrict
  rw [Transport.send_newkeys]
  simp only [hstrict', if_true]
  exact h.append rfl fun _ => rfl

/-! ### The first exchange -/

/-- What is known in a phase of an exchange, if the first KEXINIT offers `kex-strict-c`.  `tables`
are the tables of the first exchange. -/
structure StrictAt (tables : AlgoTables) (ph : ExchangePhase) (t : Transport) : Prop where
  /-- No KEXINIT yet. -/
  before : ph = .proposed → t.ses.generation = 1 →
    sshMsgKexinit ∉ t.received ∧ t.ses.recvseq = t.received.length ∧ t.ses.ran = [] ∧
      t.tables = tables
  after : ¬ (ph = .proposed ∧ t.ses.generation = 1) →
    t.ses.kexstate.strictKex = true ∧ sshMsgKexinit ∈ t.received
  agreed : ph = .agreed → t.ses.generation = 1 →
    t.ses.ran = [(sshMsgKexinit, .recvMsgKexinit)] ∧
      ((t.received = [sshMsgKexinit] ∧ (t.ses.ignorenext = true → WrongGuess tables t)) ∨
        (t.received = [sshMsgKexinit, sshMsgKexdhInit] ∧ t.ses.ignorenext = false ∧
          WrongGuess tables t))
  finishing : ph = .finishing → t.ses.generation = 1 →
    t.ses.ran = [(sshMsgKexinit, .recvMsgKexinit), (sshMsgKexdhInit, .recvMsgKexdhInit)] ∧
      (t.received = [sshMsgKexinit, sshMsgKexdhInit] ∨
        (t.received = [sshMsgKexinit, sshMsgKexdhInit, sshMsgKexdhInit] ∧ WrongGuess tables t))

/-- The packets up to the first NEWKEYS: with a wrong guess, one KEXDH_INIT more, which is
ignored. -/
def FirstPackets (tables : AlgoTables) (t : Transport) : Prop :=
  t.ses.ran = [(sshMsgKexinit, .recvMsgKexinit), (sshMsgKexdhInit, .recvMsgKexdhInit),
      (sshMsgNewkeys, .recvMsgNewkeys)] ∧
    (t.received = [sshMsgKexinit, sshMsgKexdhInit, sshMsgNewkeys] ∨
      (t.received = [sshMsgKexinit, sshMsgKexdhInit, sshMsgKexdhInit, sshMsgNewkeys] ∧
        WrongGuess tables t))

/-- The step has called `recv_msg_newkeys`, and the session is alive. -/
def ProcessedNewkeys (t t' : Transport) : Prop :=
  t'.ses.ran = t.ses.ran ++ [(sshMsgNewkeys, Handler.recvMsgNewkeys)] ∧ t'.ses.ended = none

/-- What holds behind a step of a strict session. -/
structure StrictStep (tables : AlgoTables) (t t' : Transport) : Prop where
  state : ∃ ph, KeyInv ph t' ∧ (t'.ses.ended = none → StrictAt tables ph t')
  seqs : SeqReset t'.queued t'.transseq
  newkeys : ProcessedNewkeys t t' → t'.ses.recvseq = 0 ∧
    (t.ses.kexstate.recvfirstnewkeys = false → FirstPackets tables t')

/-- What is known does not depend on what is sent. -/
theorem StrictAt.congr (h : StrictAt tables ph t) (hs : SameKeys t.ses t'.ses)
    (hrec : t'.received = t.received) (hran : t'.ses.ran = t.ses.ran)
    (hign : t'.ses.ignorenext = t.ses.ignorenext) (htables : t'.tables = t.tables)
    (hpeer : t'.kex.peerKexinit = t.kex.peerKexinit) : StrictAt tables ph t' where
  before := by rw [hs.generation, hrec, hs.recvseq, hran, htables]; exact h.before
  after := by rw [hs.generation, hs.kexstate, hrec]; exact h.after
  agreed := by
    simp only [WrongGuess, hs.generation, hran, hrec, hign, hpeer]
    exact h.agreed
  finishing := by
    simp only [WrongGuess, hs.generation, hran, hrec, hpeer]
    exact h.finishing

/-! ### The handlers -/

/-- What a handler of key exchange leaves alone. -/
structure KexFrame (t t' : Transport) : Prop where
  received : t'.received = t.received
  ran : t'.ses.ran = t.ses.ran
  peer : t'.kex.peerKexinit = t.kex.peerKexinit

theorem KexFrame.of_sends (h : Transport.SendsOnly t t') : KexFrame t t' :=
  ⟨h.received, by rw [h.ses], by rw [h.kex]⟩

theorem KexFrame.trans {t₁ t₂ t₃ : Transport} (h : KexFrame t₁ t₂) (h' : KexFrame t₂ t₃) :
    KexFrame t₁ t₃ :=
  ⟨h'.received.trans h.received, h'.ran.trans h.ran, h'.peer.trans h.peer⟩

theorem sendMsgKexinit_frame (t : Transport) (rand : Bytes) :
    KexFrame t (t.sendMsgKexinit rand) := by
  have hsend := KexFrame.of_sends (Transport.send_only t (kexinitPayload t.tables rand))
  exact hsend.trans ⟨rfl, rfl, rfl⟩

theorem sendMsgNewkeys_frame (hr : t.sendMsgNewkeys = .ok t') : KexFrame t t' := by
  simp only [Transport.sendMsgNewkeys, bind_eq_ok, pure_eq_ok] at hr
  obtain ⟨s, hs, rfl⟩ := hr
  have hsend := KexFrame.of_sends (Transport.send_only t [21])
  exact hsend.trans ⟨rfl, (sendMsgNewkeys_ok hs).1.ran, rfl⟩

/-- What `read_kex_algos` and the checks behind it look at. -/
structure SameOffer (t t' : Transport) : Prop where
  tables : t'.tables = t.tables
  strictKex : t'.ses.kexstate.strictKex = t.ses.kexstate.strictKex
  donefirstkex : t'.ses.kexstate.donefirstkex = t.ses.kexstate.donefirstkex
  ignorenext : t'.ses.ignorenext = t.ses.ignorenext
  recvseq : t'.ses.recvseq = t.ses.recvseq

theorem sendMsgKexinit_sameOffer (t : Transport) (rand : Bytes) :
    SameOffer t (t.sendMsgKexinit rand) := by
  have hses : (t.sendMsgKexinit rand).ses = Ps4Dropbear.sendMsgKexinit t.ses := by
    simp only [Transport.sendMsgKexinit, Transport.send_ses]
  refine ⟨Transport.send_tables, ?_, ?_, ?_, ?_⟩ <;> rw [hses] <;> rfl

theorem recvMsgKexdhInit_frame (hr : t.recvMsgKexdhInit K p = .ok t') : KexFrame t t' := by
  simp only [Transport.recvMsgKexdhInit, ite_exit_eq_ok, bind_eq_ok, pure_eq_ok, Prod.exists] at hr
  obtain ⟨-, reply, hash, -, t₁, ht₁, rfl⟩ := hr
  have hnew := (KexFrame.of_sends (Transport.send_only { t with ses := { t.ses with
      sent := t.ses.sent ++ [sshMsgKexdhReply]
      sessionId := some (t.ses.sessionId.getD hash) } } (31 :: reply.drop 1))).trans
    (sendMsgNewkeys_frame ht₁)
  have hall : KexFrame t t₁ := ⟨hnew.received, hnew.ran, hnew.peer⟩
  split
  · have hext := KexFrame.of_sends (Transport.send_only t₁ (extInfoPayload t₁.tables))
    exact hall.trans (hext.trans ⟨rfl, rfl, rfl⟩)
  · exact hall.trans ⟨rfl, rfl, rfl⟩

/-- What `recv_msg_kexdh_init` does in a strict session. -/
theorem recvMsgKexdhInit_strict (h : KeyRecord .agreed t) (ha : AtPhase .agreed t.ses)
    (hstrict : t.ses.kexstate.strictKex = true) (hq : SeqReset t.queued t.transseq)
    (hr : t.recvMsgKexdhInit K p = .ok t') :
    t'.ses.generation = t.ses.generation ∧ t'.ses.kexstate.strictKex = true ∧
      SeqReset t'.queued t'.transseq := by
  simp only [Transport.recvMsgKexdhInit, ite_exit_eq_ok, bind_eq_ok, pure_eq_ok, Prod.exists] at hr
  obtain ⟨-, reply, hash, -, t₁, ht₁, rfl⟩ := hr
  have hphase : AtPhase .agreed { t.ses with
      sent := t.ses.sent ++ [sshMsgKexdhReply]
      sessionId := some (t.ses.sessionId.getD hash) } :=
    ⟨ha.sentkexinit, ha.recvkexinit, ha.sentnewkeys, ha.recvnewkeys, ha.donefirstkex,
      ha.recvfirstnewkeys, ha.newkeys, ha.dataallowed⟩
  have hkeys : UsesKeys .agreed { t.ses with
      sent := t.ses.sent ++ [sshMsgKexdhReply]
      sessionId := some (t.ses.sessionId.getD hash) } :=
    ⟨h.keys.pos, h.keys.trans, h.keys.recv⟩
  have hreply := SeqReset.send (t := { t with ses := { t.ses with
      sent := t.ses.sent ++ [sshMsgKexdhReply]
      sessionId := some (t.ses.sessionId.getD hash) } }) (m := 31 :: reply.drop 1) hq
    (show (31 : ℕ) ≠ 21 by decide)
  have hnewkeys := sendMsgNewkeys_ses ht₁
  rw [Transport.send_ses] at hnewkeys
  obtain ⟨-, -, hgen, -, -, -, hsame⟩ := hphase.sendMsgNewkeys hkeys hnewkeys
  have hseq : SeqReset t₁.queued t₁.transseq :=
    hreply.sendMsgNewkeys (by rw [Transport.send_ses]; exact hphase)
      (by rw [Transport.send_ses]; exact hkeys) (by rw [Transport.send_ses]; exact hstrict) ht₁
  have hstrict₁ : t₁.ses.kexstate.strictKex = true := hsame.trans hstrict
  split
  · refine ⟨?_, ?_, hseq.send (show (7 : ℕ) ≠ 21 by decide)⟩
    · rw [Transport.send_ses]
      exact hgen
    · rw [Transport.send_ses]
      exact hstrict₁
  · exact ⟨hgen, hstrict₁, hseq⟩

theorem recvMsgKexinit_received (hr : t.recvMsgKexinit K p = .ok t') :
    t'.received = t.received := by
  simp only [Transport.recvMsgKexinit, bind_eq_ok, pure_eq_ok] at hr
  obtain ⟨s, -, rfl⟩ := hr
  dsimp only
  split_ifs
  · rfl
  · exact (sendMsgKexinit_frame t p.rand).received

/-- What `recv_msg_kexinit` does; `offer` is what it has read. -/
theorem recvMsgKexinit_strict (hph : ph = .idle ∨ ph = .proposed) (h : KeyRecord ph t)
    (ha : AtPhase ph t.ses) (hq : SeqReset t.queued t.transseq)
    (hr : t.recvMsgKexinit K p = .ok t') :
    t'.ses.ran = t.ses.ran ∧ SeqReset t'.queued t'.transseq ∧
      t'.kex.peerKexinit = p.raw.contents ∧
      (t'.ses.generation = 1 → ph = .proposed ∧ t.ses.generation = 1) ∧
      ∃ offer choice, readKexAlgos t.tables p.buf = .ok (offer, choice) ∧
        t'.ses.kexstate.strictKex =
          (t.ses.kexstate.strictKex || (!t.ses.kexstate.donefirstkex && offer.strict)) ∧
        t'.ses.ignorenext = (t.ses.ignorenext || (offer.firstFollows && !offer.allgood)) ∧
        (t'.ses.kexstate.strictKex = true → t.ses.kexstate.donefirstkex = false →
          t.ses.recvseq = 1) := by
  have hour : KexFrame t (if t.ses.kexstate.sentkexinit then t else t.sendMsgKexinit p.rand) ∧
      SeqReset (if t.ses.kexstate.sentkexinit then t else t.sendMsgKexinit p.rand).queued
        (if t.ses.kexstate.sentkexinit then t else t.sendMsgKexinit p.rand).transseq ∧
      SameOffer t (if t.ses.kexstate.sentkexinit then t else t.sendMsgKexinit p.rand) ∧
      ((if t.ses.kexstate.sentkexinit then t else t.sendMsgKexinit p.rand).ses.generation = 1 →
        ph = .proposed ∧ t.ses.generation = 1) := by
    rcases hph with rfl | rfl
    · rw [if_neg (by rw [ha.sentkexinit]; decide)]
      refine ⟨sendMsgKexinit_frame t p.rand, hq.send (by rw [packetType_kexinitPayload]; decide),
        sendMsgKexinit_sameOffer t p.rand, fun hgen => ?_⟩
      -- a new exchange
      have hpos := h.keys.pos
      rw [Transport.sendMsgKexinit, Transport.send_ses] at hgen
      have hgen : t.ses.generation + 1 = 1 := hgen
      omega
    · rw [if_pos (show t.ses.kexstate.sentkexinit = true from ha.sentkexinit)]
      exact ⟨⟨rfl, rfl, rfl⟩, hq, ⟨rfl, rfl, rfl, rfl, rfl⟩, fun hgen => ⟨rfl, hgen⟩⟩
  simp only [Transport.recvMsgKexinit, bind_eq_ok, pure_eq_ok] at hr
  generalize (if t.ses.kexstate.sentkexinit then t else t.sendMsgKexinit p.rand) = u at hr hour
  obtain ⟨s, hs, rfl⟩ := hr
  obtain ⟨hframe, hseq, hsame, hgen⟩ := hour
  obtain ⟨offer, hoffer, hstrict, hign, hran, hgens, hone⟩ := readKexinit_spec hs
  rw [hsame.strictKex, hsame.donefirstkex] at hstrict
  rw [hsame.ignorenext] at hign
  rw [hsame.donefirstkex, hsame.recvseq] at hone
  have hoffer : (readKexAlgos u.tables p.buf).map (·.1) = .ok offer := hoffer
  rw [hsame.tables] at hoffer
  cases hread : readKexAlgos t.tables p.buf with
  | error msg => rw [hread] at hoffer; cases hoffer
  | ok x =>
    obtain ⟨read, choice⟩ := x
    rw [hread] at hoffer
    cases hoffer
    exact ⟨hran.trans hframe.ran, hseq, rfl, fun h1 => hgen (hgens ▸ h1),
      read, choice, rfl, hstrict, hign, hone⟩

/-! ### Packets -/

theorem StrictAt.sends (h : StrictAt tables ph t) (ms : List Bytes) :
    StrictAt tables ph (t.sends ms) := by
  have honly := Transport.sends_only t ms
  have hs : SameKeys t.ses (t.sends ms).ses := by
    rw [honly.ses]
    exact ⟨rfl, rfl, rfl, rfl, rfl, rfl, rfl, rfl⟩
  exact h.congr hs honly.received (by rw [honly.ses]) (by rw [honly.ses]) honly.tables
    (by rw [honly.kex])

/-- A packet outside of key exchange; in the first exchange of a strict session, it can only be the
one after a wrong guess. -/
theorem StrictAt.plainPacket {type : ℕ} {s : Session} (h : StrictAt tables ph t)
    (hat : AtPhase ph t.ses) (hreq : Requires ph t.ses) (hlen : t.received.length + 1 < 2 ^ 32)
    (hs : SameKeys t.counted.ses s) (hnext : NextEffect type t.counted.ses s) :
    StrictAt tables ph { t.counted with ses := s, received := t.received ++ [type] } := by
  have hgen : s.generation = t.ses.generation := hs.generation
  have hkex : s.kexstate = t.ses.kexstate := hs.kexstate
  have hafter : ¬ (ph = .proposed ∧ s.generation = 1) →
      s.kexstate.strictKex = true ∧ sshMsgKexinit ∈ t.received ++ [type] := by
    rw [hgen, hkex]
    exact fun hn => ⟨(h.after hn).1, List.mem_append_left _ (h.after hn).2⟩
  cases hnext with
  | tolerated hstrict htype hreq' hign hran =>
    -- not in the first exchange, once it is known to be strict
    have hfirst : ph = .agreed ∨ ph = .finishing → s.generation ≠ 1 := by
      intro hph hone
      have hstrict : (t.ses.kexstate.strictKex && !t.ses.kexstate.recvfirstnewkeys) = false :=
        hstrict
      rw [hgen] at hone
      rw [hat.recvfirstnewkeys, (h.after (by rcases hph with rfl | rfl <;> simp)).1, hone]
        at hstrict
      rcases hph with rfl | rfl <;> exact absurd hstrict (by decide)
    refine ⟨fun hph hone => ?_, hafter, fun hph hone => absurd hone (hfirst (.inl hph)),
      fun hph hone => absurd hone (hfirst (.inr hph))⟩
    rw [hgen] at hone
    obtain ⟨hnot, hseq, hrun, htab⟩ := h.before hph hone
    refine ⟨?_, ?_, hran.trans hrun, htab⟩
    · simp only [List.mem_append, List.mem_singleton, not_or]
      exact ⟨hnot, fun heq => htype heq.symm⟩
    · refine hs.recvseq.trans ?_
      show (t.ses.recvseq + 1) % 2 ^ 32 = (t.received ++ [type]).length
      rw [hseq, List.length_append, Nat.mod_eq_of_lt hlen]
      rfl
  | ignored hign hign' htype hreq' hran =>
    cases hreq.ignorenext hign
    refine ⟨(fun hph => by cases hph), hafter, fun _ hone => ?_, (fun hph => by cases hph)⟩
    have htype : sshMsgKexdhInit = type := by
      rcases htype with hz | ht
      · exact absurd (hreq.requirenext.symm.trans hz) (show sshMsgKexdhInit ≠ 0 by decide)
      · exact hreq.requirenext.symm.trans ht
    subst htype
    rw [hgen] at hone
    obtain ⟨hrun, ⟨hrec, hguess⟩ | ⟨-, hno, -⟩⟩ := h.agreed rfl hone
    · exact ⟨hran.trans hrun, .inr ⟨by rw [hrec]; rfl, hign', hguess hign⟩⟩
    · exact absurd (hno.symm.trans hign) (by decide)
  | other htype hreq' hign hne hran =>
    have hreq₁ : Requires ph t.counted.ses := ⟨hreq.requirenext, hreq.ignorenext⟩
    have hzero : ph.requirenext s.generation = 0 :=
      (hreq₁.next hs (.other htype hreq' hign hne hran)).requirenext.symm.trans hreq'
    refine ⟨fun hph hone => ?_, hafter, fun hph _ => ?_, fun hph _ => ?_⟩
    · subst hph
      rw [hone] at hzero
      exact absurd hzero (by decide)
    · subst hph
      exact absurd hzero (show sshMsgKexdhInit ≠ 0 by decide)
    · subst hph
      exact absurd hzero (show sshMsgNewkeys ≠ 0 by decide)

theorem not_processedNewkeys_of_quiet (hran : t'.ses.ran = t.ses.ran) :
    ¬ ProcessedNewkeys t t' := by
  rintro ⟨hnew, -⟩
  simpa using congrArg List.length (hran.symm.trans hnew)

/-- A handler that is not the one of NEWKEYS. -/
theorem not_processedNewkeys_of_ran {type : ℕ} {hdl : Handler} (hne : type ≠ sshMsgNewkeys)
    (hran : t'.ses.ran = t.ses.ran ++ [(type, hdl)]) : ¬ ProcessedNewkeys t t' := by
  rintro ⟨hnew, -⟩
  have hlast := List.append_cancel_left (hran.symm.trans hnew)
  exact hne (by simpa using congrArg (List.map Prod.fst) hlast)

theorem StrictStep.plainPacket {type : ℕ} {s : Session} (h : StrictAt tables ph t)
    (hinv : KeyInv ph t) (hlive : t.ses.ended = none) (hq : SeqReset t.queued t.transseq)
    (hlen : t.received.length + 1 < 2 ^ 32) (hs : SameKeys t.counted.ses s)
    (hnext : NextEffect type t.counted.ses s) (hms : ∀ m ∈ ms, IsPlain m) :
    StrictStep tables t
      ({ t.counted with ses := s, received := t.received ++ [type] }.sends ms) where
  state := ⟨ph, hinv.counted.plainPacket hlive hs hnext hms, fun _ =>
    (h.plainPacket (hinv.phase hlive) (hinv.next hlive) hlen hs hnext).sends ms⟩
  seqs := SeqReset.sends (t := { t.counted with ses := s, received := t.received ++ [type] }) hq hms
  newkeys := by
    have hses : ({ t.counted with ses := s, received := t.received ++ [type] }.sends ms).ses = s :=
      Transport.sends_ses
    have hquiet : s.ran = t.ses.ran → ¬ ProcessedNewkeys t
        ({ t.counted with ses := s, received := t.received ++ [type] }.sends ms) :=
      fun hran => not_processedNewkeys_of_quiet (by rw [hses]; exact hran)
    intro hnew
    cases hnext with
    | tolerated hstrict htype hreq hign hran => exact absurd hnew (hquiet hran)
    | ignored hign hign' htype hreq hran => exact absurd hnew (hquiet hran)
    | other htype hreq hign hkex hran =>
      rcases hran with hran | ⟨hdl, hran⟩
      · exact absurd hnew (hquiet hran)
      · exact absurd hnew (not_processedNewkeys_of_ran hkex.2.2 (by rw [hses]; exact hran))

/-- The KEXINIT of the client. -/
theorem StrictStep.kexinit (h : StrictAt tables ph t) (hinv : KeyInv ph t)
    (hlive : t.ses.ended = none) (hq : SeqReset t.queued t.transseq)
    (hlen : t.received.length + 1 < 2 ^ 32)
    (hoffers : sshMsgKexinit ∉ t.received → OffersStrict p) (hign : t.ses.ignorenext = false)
    (htype : t.ses.requirenext = 0 ∨ t.ses.requirenext = sshMsgKexinit)
    (hr : (t.counted.accepted sshMsgKexinit .recvMsgKexinit).recvMsgKexinit K p = .ok t') :
    StrictStep tables t (t'.done sshMsgKexinit) := by
  have hat := hinv.counted.phase hlive
  have hph := (hinv.next hlive).kexinit_phase htype
  have hacc := hat.withSes (sameKeys_accepted t.counted sshMsgKexinit .recvMsgKexinit)
  have hrecord : KeyRecord ph (t.counted.accepted sshMsgKexinit .recvMsgKexinit) :=
    hinv.counted.record.accepted
  obtain ⟨hrec, hat', hreq', -⟩ := hrecord.recvMsgKexinit hph hacc hr
  have hreceived := recvMsgKexinit_received hr
  obtain ⟨hran, hseqs, hpeer, hfirst, offer, choice, hread, hstrict, hignore, hone⟩ :=
    recvMsgKexinit_strict hph hrecord hacc hq hr
  refine ⟨⟨.agreed, .of_done hrec hat' hreq', fun _ => ?_⟩, hseqs, fun hnew => ?_⟩
  · have hmem : sshMsgKexinit ∈ t'.received := by
      rw [hreceived]
      exact List.mem_append_right _ (List.mem_singleton_self _)
    by_cases hnew : ph = .proposed ∧ t.ses.generation = 1
    · obtain ⟨rfl, hgen⟩ := hnew
      obtain ⟨hnot, hseq, hrun, htab⟩ := h.before rfl hgen
      have hdone : t.ses.kexstate.donefirstkex = false := by
        rw [(hinv.phase hlive).donefirstkex, hgen]
        decide
      obtain ⟨b, hb, hhas⟩ := hoffers hnot
      have hoffer : offer.strict = true :=
        Except.ok.inj ((readKexAlgos_strict hread hb).symm.trans hhas)
      have hon : t'.ses.kexstate.strictKex = true := by
        rw [hstrict]
        show (_ || (!t.ses.kexstate.donefirstkex && offer.strict)) = true
        rw [hdone, hoffer, Bool.not_false, Bool.and_true, Bool.or_true]
      -- so the KEXINIT is the first packet
      have hseq₁ : (t.ses.recvseq + 1) % 2 ^ 32 = 1 := hone hon hdone
      rw [hseq, Nat.mod_eq_of_lt hlen] at hseq₁
      have hnil : t.received = [] := List.length_eq_zero_iff.1 (by omega)
      have hrec₁ : t'.received = [sshMsgKexinit] := by
        rw [hreceived]
        show t.received ++ [sshMsgKexinit] = _
        rw [hnil, List.nil_append]
      have hran₁ : t'.ses.ran = [(sshMsgKexinit, .recvMsgKexinit)] := by
        rw [hran]
        show t.ses.ran ++ [(sshMsgKexinit, Handler.recvMsgKexinit)] = _
        rw [hrun, List.nil_append]
      refine ⟨(fun hph => by cases hph), fun _ => ⟨hon, hmem⟩,
        fun _ _ => ⟨hran₁, .inl ⟨hrec₁, fun hi => ?_⟩⟩, (fun hph => by cases hph)⟩
      have hi : t'.ses.ignorenext = true := hi
      rw [hignore] at hi
      have hi : (t.ses.ignorenext || (offer.firstFollows && !offer.allgood)) = true := hi
      rw [hign, Bool.false_or, Bool.and_eq_true, Bool.not_eq_true'] at hi
      have hread : readKexAlgos tables p.buf = .ok (offer, choice) := htab ▸ hread
      exact ⟨p, offer, choice, hpeer.symm, hread, hi.1, hi.2⟩
    · have hon : t'.ses.kexstate.strictKex = true := by
        rw [hstrict]
        show (t.ses.kexstate.strictKex || _) = true
        rw [(h.after hnew).1, Bool.true_or]
      exact ⟨(fun hph => by cases hph), fun _ => ⟨hon, hmem⟩,
        fun _ hgen => absurd (hfirst hgen) hnew, (fun hph => by cases hph)⟩
  · exact absurd hnew (not_processedNewkeys_of_ran (by decide) hran)

/-- The KEXDH_INIT that is answered. -/
theorem StrictStep.kexdhInit (h : StrictAt tables ph t) (hinv : KeyInv ph t)
    (hlive : t.ses.ended = none) (hq : SeqReset t.queued t.transseq)
    (hign : t.ses.ignorenext = false)
    (htype : t.ses.requirenext = 0 ∨ t.ses.requirenext = sshMsgKexdhInit)
    (hr : (t.counted.accepted sshMsgKexdhInit .recvMsgKexdhInit).recvMsgKexdhInit K p = .ok t') :
    StrictStep tables t (t'.done sshMsgKexdhInit) := by
  have hat := hinv.counted.phase hlive
  cases (hinv.counted.next hlive).kexdhInit_phase hat htype hr
  have hacc := hat.withSes (sameKeys_accepted t.counted sshMsgKexdhInit .recvMsgKexdhInit)
  have hrecord : KeyRecord .agreed (t.counted.accepted sshMsgKexdhInit .recvMsgKexdhInit) :=
    hinv.counted.record.accepted
  obtain ⟨hstrict, hmem⟩ := h.after (by simp)
  obtain ⟨hrec, hat', hreq', -⟩ := hrecord.recvMsgKexdhInit hacc hign hr
  have hframe := recvMsgKexdhInit_frame hr
  obtain ⟨hgen, hon, hseqs⟩ := recvMsgKexdhInit_strict hrecord hacc hstrict hq hr
  have hreceived : t'.received = t.received ++ [sshMsgKexdhInit] := hframe.received
  have hran : t'.ses.ran = t.ses.ran ++ [(sshMsgKexdhInit, Handler.recvMsgKexdhInit)] := hframe.ran
  have hpeer : t'.kex.peerKexinit = t.kex.peerKexinit := hframe.peer
  refine ⟨⟨.finishing, .of_done hrec hat' hreq', fun _ => ?_⟩, hseqs, fun hnew => ?_⟩
  · refine ⟨(fun hph => by cases hph), fun _ => ⟨hon, ?_⟩, (fun hph => by cases hph),
      fun _ hone => ?_⟩
    · show sshMsgKexinit ∈ t'.received
      rw [hreceived]
      exact List.mem_append_left _ hmem
    · show t'.ses.ran = _ ∧ (t'.received = _ ∨ (t'.received = _ ∧ WrongGuess tables t'))
      rw [hreceived, hran, WrongGuess, hpeer]
      obtain ⟨hrun, ⟨hrec₀, -⟩ | ⟨hrec₀, -, hguess⟩⟩ := h.agreed rfl (hgen ▸ hone)
      · rw [hrun, hrec₀]
        exact ⟨rfl, .inl rfl⟩
      · rw [hrun, hrec₀]
        exact ⟨rfl, .inr ⟨rfl, hguess⟩⟩
  · exact absurd hnew (not_processedNewkeys_of_ran (by decide) hran)

/-- The NEWKEYS of the client. -/
theorem StrictStep.newkeysPacket (h : StrictAt tables ph t) (hinv : KeyInv ph t)
    (hlive : t.ses.ended = none) (hq : SeqReset t.queued t.transseq)
    (hign : t.ses.ignorenext = false)
    (htype : t.ses.requirenext = 0 ∨ t.ses.requirenext = sshMsgNewkeys)
    (hr : (t.counted.accepted sshMsgNewkeys .recvMsgNewkeys).recvMsgNewkeys = .ok t') :
    StrictStep tables t (t'.done sshMsgNewkeys) := by
  have hat := hinv.counted.phase hlive
  cases (hinv.counted.next hlive).newkeys_phase hat htype hr
  have hacc := hat.withSes (sameKeys_accepted t.counted sshMsgNewkeys .recvMsgNewkeys)
  have hrecord : KeyRecord .finishing (t.counted.accepted sshMsgNewkeys .recvMsgNewkeys) :=
    hinv.counted.record.accepted
  obtain ⟨hstrict, hmem⟩ := h.after (by simp)
  obtain ⟨hrec, hat', hreq', -⟩ := hrecord.recvMsgNewkeys hacc hign rfl hr
  simp only [Transport.recvMsgNewkeys, bind_eq_ok, pure_eq_ok] at hr
  obtain ⟨s, hs, rfl⟩ := hr
  obtain ⟨-, -, -, -, -, -, -, hsame, hzero⟩ := hacc.recvMsgNewkeys hrecord.keys hs
  have hran : s.ran = t.ses.ran ++ [(sshMsgNewkeys, Handler.recvMsgNewkeys)] :=
    (recvMsgNewkeys_ok hs).1.ran
  refine ⟨⟨.idle, .of_done hrec hat' hreq', fun _ => ?_⟩, hq, fun _ => ⟨hzero hstrict, ?_⟩⟩
  · exact ⟨(fun hph => by cases hph), fun _ => ⟨hsame.trans hstrict, List.mem_append_left _ hmem⟩,
      (fun hph => by cases hph), (fun hph => by cases hph)⟩
  · intro hfirst
    have hgen : t.ses.generation = 1 := by
      have hpos := hinv.record.keys.pos
      rw [(hinv.phase hlive).recvfirstnewkeys, Bool.or_eq_false_iff, decide_eq_false_iff_not]
        at hfirst
      omega
    obtain ⟨hrun, hrec₀⟩ := h.finishing rfl hgen
    refine ⟨?_, ?_⟩
    · show s.ran = _
      rw [hran, hrun]
      rfl
    · show t.received ++ [sshMsgNewkeys] = _ ∨ (t.received ++ [sshMsgNewkeys] = _ ∧ WrongGuess _ t)
      rcases hrec₀ with hrec₀ | ⟨hrec₀, hguess⟩
      · rw [hrec₀]
        exact .inl rfl
      · rw [hrec₀]
        exact .inr ⟨rfl, hguess⟩

/-- A session that has ended. -/
theorem StrictStep.of_ended (hinv : ∃ ph, KeyInv ph t') (hended : t'.ses.ended ≠ none)
    (hq : SeqReset t'.queued t'.transseq) : StrictStep tables t t' :=
  ⟨hinv.imp fun _ h => ⟨h, fun hn => absurd hn hended⟩, hq, fun hnew => absurd hnew.2 hended⟩

/-- **What a packet does** in a strict session. -/
theorem StrictStep.packet (h : StrictAt tables ph t) (hinv : KeyInv ph t)
    (hlive : t.ses.ended = none) (hq : SeqReset t.queued t.transseq)
    (hlen : t'.received.length < 2 ^ 32) (hoffers : FirstKexinitStrict t (.packet p))
    (he : PacketEffect K t.counted p t') : StrictStep tables t t' := by
  have hstep := (hinv.counted.packet hlive he).1
  cases he with
  | exits s received hs hended hrec =>
    exact .of_ended hstep (Option.isSome_iff_ne_none.1 hended) hq
  | plain type s payloads hs hended hnext hplain =>
    rw [(Transport.sends_only _ _).received, List.length_append] at hlen
    exact .plainPacket h hinv hlive hq hlen hs hnext hplain
  | kexinit t₁ hp hign htype hr =>
    refine .kexinit h hinv hlive hq ?_ (hoffers p rfl hp) hign htype hr
    have hrec : t₁.received = t.received ++ [sshMsgKexinit] := recvMsgKexinit_received hr
    have hlen : t₁.received.length < 2 ^ 32 := hlen
    rw [hrec, List.length_append] at hlen
    exact hlen
  | kexdhInit t₁ hign htype hr => exact .kexdhInit h hinv hlive hq hign htype hr
  | newkeys t₁ hign htype hr => exact .newkeysPacket h hinv hlive hq hign htype hr

/-- After the first exchange, only the flag matters. -/
theorem StrictAt.of_later (hgen : t.ses.generation ≠ 1)
    (hstrict : t.ses.kexstate.strictKex = true) (hmem : sshMsgKexinit ∈ t.received) :
    StrictAt tables ph t :=
  ⟨fun _ hone => absurd hone hgen, fun _ => ⟨hstrict, hmem⟩, fun _ hone => absurd hone hgen,
    fun _ hone => absurd hone hgen⟩

/-- **What a step does** in a strict session. -/
theorem StrictStep.step {ev : TransportEvent} (h : StrictAt tables ph t) (hinv : KeyInv ph t)
    (hlive : t.ses.ended = none) (hq : SeqReset t.queued t.transseq)
    (hlen : t'.received.length < 2 ^ 32) (hoffers : FirstKexinitStrict t ev)
    (he : StepEffect K t ev t') : StrictStep tables t t' := by
  have hstep := (hinv.step hlive he).1
  cases he with
  | exits _ msg place => exact .of_ended hstep (by rintro ⟨⟩) hq
  | rekey _ rand payloads hsent hplace hplain =>
    have hat := (hinv.phase hlive).sentkexinit
    have hidle : ph = .idle := by
      rw [hsent] at hat
      cases ph <;> first | rfl | cases hat
    subst hidle
    obtain ⟨hstrict, hmem⟩ := h.after (by simp)
    have hses : (({ t with ses := { t.ses with kexstate := { t.ses.kexstate with
          needrekey := false } } }.sendMsgKexinit rand).sends payloads).ses =
        sendMsgKexinit { t.ses with kexstate := { t.ses.kexstate with needrekey := false } } := by
      rw [Transport.sends_ses, Transport.sendMsgKexinit, Transport.send_ses]
    have hframe := (sendMsgKexinit_frame { t with ses := { t.ses with
      kexstate := { t.ses.kexstate with needrekey := false } } } rand).trans
        (.of_sends (Transport.sends_only _ payloads))
    have hseqs := SeqReset.send (t := { t with ses := { t.ses with
        kexstate := { t.ses.kexstate with needrekey := false } } })
      (m := kexinitPayload t.tables rand) hq (by rw [packetType_kexinitPayload]; decide)
    refine ⟨hstep.imp fun _ h => ⟨h, fun _ => .of_later ?_ ?_ ?_⟩, ?_, fun hnew => ?_⟩
    · show (Transport.sends _ payloads).ses.generation ≠ 1
      rw [hses]
      have hpos := hinv.record.keys.pos
      show t.ses.generation + 1 ≠ 1
      omega
    · show (Transport.sends _ payloads).ses.kexstate.strictKex = true
      rw [hses]
      exact hstrict
    · show sshMsgKexinit ∈ (Transport.sends _ payloads).received
      rw [hframe.received]
      exact hmem
    · exact SeqReset.sends (t := { t with ses := { t.ses with
        kexstate := { t.ses.kexstate with needrekey := false } } }.sendMsgKexinit rand) hseqs hplain
    · exact absurd hnew (not_processedNewkeys_of_quiet hframe.ran)
  | plain _ s kex written payloads place hs hended hreq hign hran hpeer hplace hplain =>
    have hat : StrictAt tables ph { t with ses := s, kex := kex, written := written } :=
      h.congr hs rfl hran hign rfl hpeer
    refine ⟨⟨ph, hinv.plainStep hs hended hreq hign hplain, fun _ => ?_⟩, ?_, fun hnew => ?_⟩
    · exact (hat.sends payloads).congr ⟨rfl, rfl, rfl, rfl, rfl, rfl, rfl, rfl⟩ rfl rfl rfl rfl rfl
    · exact SeqReset.sends (t := { t with ses := s, kex := kex, written := written }) hq hplain
    · refine absurd hnew (not_processedNewkeys_of_quiet ?_)
      rw [Transport.sends_ses]
      exact hran
  | packet p t₁ hplace heff =>
    have hlen : t₁.received.length < 2 ^ 32 := hlen
    obtain ⟨⟨ph', hinv', hat'⟩, hseqs, hnew⟩ := StrictStep.packet h hinv hlive hq hlen hoffers heff
    exact ⟨⟨ph', hinv'.congr ⟨rfl, rfl, rfl, rfl, rfl, rfl, rfl, rfl⟩ rfl rfl rfl rfl rfl rfl,
      fun hn => (hat' hn).congr ⟨rfl, rfl, rfl, rfl, rfl, rfl, rfl, rfl⟩ rfl rfl rfl rfl rfl⟩,
      hseqs, hnew⟩
  | flush hplace =>
    have honly := Transport.maybeFlushReplyQueue_only t
    refine ⟨⟨ph, hinv.flush, fun _ => ?_⟩, hq.maybeFlushReplyQueue hinv.record.held,
      fun hnew => absurd hnew (not_processedNewkeys_of_quiet (congrArg Session.ran honly.ses))⟩
    have hs : SameKeys t.ses t.maybeFlushReplyQueue.ses := by
      rw [honly.ses]
      exact ⟨rfl, rfl, rfl, rfl, rfl, rfl, rfl, rfl⟩
    have hat := h.congr hs honly.received (congrArg Session.ran honly.ses)
      (congrArg Session.ignorenext honly.ses) honly.tables
      (congrArg KexBuffers.peerKexinit honly.kex)
    exact hat.congr ⟨rfl, rfl, rfl, rfl, rfl, rfl, rfl, rfl⟩ rfl rfl rfl rfl rfl

/-- Packets are only added. -/
theorem received_length_le {ev : TransportEvent} (he : StepEffect K t ev t') :
    t.received.length ≤ t'.received.length := by
  have hadd : ∀ type, t.received.length ≤ (t.received ++ [type]).length := fun type => by simp
  cases he with
  | exits _ msg place => exact Nat.le.refl
  | rekey _ rand payloads hsent hplace hplain =>
    exact (((sendMsgKexinit_frame _ rand).trans
      (.of_sends (Transport.sends_only _ payloads))).received.symm ▸ Nat.le.refl)
  | plain _ s kex written payloads place hs hended hreq hign hran hpeer hplace hplain =>
    exact ((Transport.sends_only _ payloads).received.symm ▸ Nat.le.refl)
  | packet p t₁ hplace heff =>
    show t.received.length ≤ t₁.received.length
    cases heff with
    | exits s received hs hended hrec => exact hrec
    | plain type s payloads hs hended hnext hplain =>
      rw [(Transport.sends_only _ payloads).received]
      exact hadd type
    | kexinit t₂ hp hign htype hr =>
      show _ ≤ t₂.received.length
      rw [recvMsgKexinit_received hr]
      exact hadd _
    | kexdhInit t₂ hign htype hr =>
      show _ ≤ t₂.received.length
      rw [(recvMsgKexdhInit_frame hr).received]
      exact hadd _
    | newkeys t₂ hign htype hr =>
      simp only [Transport.recvMsgNewkeys, bind_eq_ok, pure_eq_ok] at hr
      obtain ⟨s, -, rfl⟩ := hr
      exact hadd _
  | flush hplace =>
    exact ((Transport.maybeFlushReplyQueue_only t).received.symm ▸ Nat.le.refl)

end Sending

/-! ### Runs -/

section Runs

variable {H : Host} {o : SvrOpts} {K : KexCrypto} {banner : Option Bytes} {tables : AlgoTables}
  {rand : Bytes} {t : Transport} {ls : List TransportEvent}

/-- The invariant of a strict session with less than `2 ^ 32` packets. -/
def StrictInv (tables : AlgoTables) (t : Transport) : Prop :=
  t.received.length < 2 ^ 32 →
    (∃ ph, KeyInv ph t ∧ (t.ses.ended = none → StrictAt tables ph t)) ∧
      SeqReset t.queued t.transseq

theorem StrictInv.step {t' : Transport} {ev : TransportEvent} (h : StrictInv tables t)
    (hoffers : FirstKexinitStrict t ev) (hst : (transport H o K).step t ev = some t')
    (hlen : t'.received.length < 2 ^ 32) : StrictStep tables t t' := by
  have hlive := transport_live hst
  have he := transport_effect hst
  obtain ⟨⟨ph, hinv, hat⟩, hq⟩ := h (Nat.lt_of_le_of_lt (received_length_le he) hlen)
  exact .step (hat hlive) hinv hlive hq hlen hoffers he

theorem StrictInv.start :
    StrictInv (svrAlgosInitialise tables) (transportStart o banner tables rand) := by
  intro _
  have hses : (transportStart o banner tables rand).ses =
      sendMsgKexinit { authstate := svrAuthinitialise o banner } := by
    simp only [transportStart, Transport.sendMsgKexinit, Transport.send_ses]
  have hempty : SeqReset [] 0 := fun pre w post heq => by simp at heq
  refine ⟨⟨.proposed, KeyInv.start, fun _ => ?_⟩,
    hempty.append rfl fun hnew => absurd hnew (by rw [packetType_kexinitPayload]; decide)⟩
  refine ⟨fun _ _ => ⟨List.not_mem_nil, ?_, ?_, ?_⟩, fun hnot => ?_, (fun hph => by cases hph),
    (fun hph => by cases hph)⟩
  · rw [hses]
    rfl
  · rw [hses]
    rfl
  · simp only [transportStart, Transport.sendMsgKexinit, Transport.send_tables]
  · rw [hses] at hnot
    exact absurd ⟨rfl, rfl⟩ hnot

/-- **Strict key exchange.**  Let every KEXINIT that comes first offer `kex-strict-c`, in a run in
which less than `2 ^ 32` packets are received.  Whenever `recv_msg_newkeys` has run and the session
is alive, `recvseq` is 0; at the first time the packets received are KEXINIT, KEXDH_INIT and
NEWKEYS, with one more KEXDH_INIT, that has been ignored, in case of a wrong guess, and nothing
else.  The packet behind each NEWKEYS that was sent has the sequence number 0. -/
theorem strict_kex (H : Host) (o : SvrOpts) (K : KexCrypto) (banner : Option Bytes)
    (tables : AlgoTables) (rand : Bytes) (ls : List TransportEvent) (t : Transport)
    (h : (transport H o K).exec (transportStart o banner tables rand) ls = some t)
    (hoffers : (transport H o K).Along FirstKexinitStrict
      (transportStart o banner tables rand) ls)
    (hlen : t.received.length < 2 ^ 32) :
    (∀ pre ev post u v, ls = pre ++ ev :: post →
      (transport H o K).exec (transportStart o banner tables rand) pre = some u →
      (transport H o K).step u ev = some v → ProcessedNewkeys u v →
      v.ses.recvseq = 0 ∧ (u.ses.kexstate.recvfirstnewkeys = false →
        FirstPackets (svrAlgosInitialise tables) v)) ∧
    SeqReset t.queued t.transseq := by
  have hstep : ∀ u ev v, StrictInv (svrAlgosInitialise tables) u → FirstKexinitStrict u ev →
      (transport H o K).step u ev = some v → StrictInv (svrAlgosInitialise tables) v :=
    fun _ _ _ hI hC hst hlen => ⟨(hI.step hC hst hlen).state, (hI.step hC hst hlen).seqs⟩
  refine ⟨?_, (LTS.exec_invariant .start hstep hoffers h hlen).2⟩
  rintro pre ev post u v rfl hu hst hnew
  obtain ⟨w, hw, hrest⟩ := LTS.exec_append_eq_some.1 h
  rw [hu] at hw
  cases hw
  obtain ⟨w, hw, hrest⟩ := LTS.exec_cons_eq_some.1 hrest
  rw [hst] at hw
  cases hw
  have hpre : (transport H o K).Along FirstKexinitStrict
      (transportStart o banner tables rand) pre :=
    LTS.along_iff.2 fun pre' ev' post' u' heq hu' =>
      LTS.along_iff.1 hoffers pre' ev' (post' ++ ev :: post) u' (by rw [heq]; simp) hu'
  have hlen_v : v.received.length < 2 ^ 32 := by
    refine Nat.lt_of_le_of_lt ?_ hlen
    exact LTS.exec_invariant' (I := fun w => v.received.length ≤ w.received.length) Nat.le.refl
      (fun _ _ _ hI hst => Nat.le_trans hI (received_length_le (transport_effect hst))) hrest
  exact ((LTS.exec_invariant .start hstep hpre hu).step
    (LTS.along_iff.1 hoffers pre ev post u rfl hu) hst hlen_v).newkeys hnew

theorem firstKexinitStrict_of_type {p : TransportPacket} (hp : p.type ≠ some sshMsgKexinit)
    (t : Transport) : FirstKexinitStrict t (.packet p) := by
  rintro _ ⟨⟩ htype
  exact absurd htype hp

theorem firstKexinitStrict_of_ne {ev : TransportEvent} (hev : ∀ p, ev ≠ .packet p) (t : Transport) :
    FirstKexinitStrict t ev :=
  fun p heq => absurd heq (hev p)

theorem firstKexinitStrict_iteration {ev : TransportEvent} (h : ∀ t, FirstKexinitStrict t ev) :
    ∀ e ∈ iteration ev, ∀ t, FirstKexinitStrict t e := by
  simp only [iteration, List.forall_mem_cons]
  exact ⟨firstKexinitStrict_of_ne nofun, h, firstKexinitStrict_of_ne nofun,
    firstKexinitStrict_of_ne nofun, by simp⟩

theorem offersStrict_strictKexinit : OffersStrict strictKexinit := by
  have hfound : ((bufIncrpos strictKexinit.buf 16).toOption.any fun b =>
      (bufHasAlgo b sshStrictKexC).toOption == some true) = true := by
    decide +kernel
  cases hb : bufIncrpos strictKexinit.buf 16 with
  | error msg =>
    rw [hb] at hfound
    cases hfound
  | ok b =>
    refine ⟨b, hb, ?_⟩
    rw [hb] at hfound
    cases hh : bufHasAlgo b sshStrictKexC with
    | error msg =>
      simp [hh, Except.toOption] at hfound
    | ok found =>
      simpa [hh, Except.toOption] using hfound

/-- A strict exchange up to the NEWKEYS of the client. -/
theorem strict_kex_first :
    ∃ u v, (transport bareHost {} plainCrypto).exec (transportStart {} none ps4AlgoTables [])
        (iteration (.ident (ascii "SSH-2.0-client")) ++ iteration (.packet strictKexinit) ++
          iteration (.packet (.ofFields 30 [] (by decide))) ++
          [TransportEvent.timeouts none [] none]) = some u ∧
      (transport bareHost {} plainCrypto).step u (.packet (.ofFields 21 [] (by decide))) =
        some v ∧
      ProcessedNewkeys u v ∧ v.ses.recvseq = 0 ∧
      FirstPackets (svrAlgosInitialise ps4AlgoTables) v ∧ SeqReset v.queued v.transseq := by
  have hrun : (((transport bareHost {} plainCrypto).exec (transportStart {} none ps4AlgoTables [])
        (iteration (.ident (ascii "SSH-2.0-client")) ++ iteration (.packet strictKexinit) ++
          iteration (.packet (.ofFields 30 [] (by decide))) ++
          [TransportEvent.timeouts none [] none])).any fun u =>
      !u.ses.kexstate.recvfirstnewkeys &&
        ((transport bareHost {} plainCrypto).step u (.packet (.ofFields 21 [] (by decide)))).any
          fun v => decide (v.ses.ran = u.ses.ran ++ [(sshMsgNewkeys, Handler.recvMsgNewkeys)]) &&
            v.ses.ended.isNone && decide (v.received.length < 2 ^ 32)) = true := by
    decide +kernel
  obtain ⟨u, hu, hv⟩ := (Option.any_eq_true _ _).1 hrun
  rw [Bool.and_eq_true, Bool.not_eq_true'] at hv
  obtain ⟨hfirst, hv⟩ := hv
  obtain ⟨v, hst, hv⟩ := (Option.any_eq_true _ _).1 hv
  simp only [Bool.and_eq_true, decide_eq_true_eq, Option.isNone_iff_eq_none] at hv
  have hnew : ProcessedNewkeys u v := hv.1
  have hrun : (transport bareHost {} plainCrypto).exec (transportStart {} none ps4AlgoTables [])
      (iteration (.ident (ascii "SSH-2.0-client")) ++ iteration (.packet strictKexinit) ++
        iteration (.packet (.ofFields 30 [] (by decide))) ++
        [TransportEvent.timeouts none [] none] ++
        [.packet (.ofFields 21 [] (by decide))]) = some v :=
    LTS.exec_append_eq_some.2 ⟨u, hu, LTS.exec_cons_eq_some.2 ⟨v, hst, rfl⟩⟩
  have hoffers : ∀ ev ∈ iteration (.ident (ascii "SSH-2.0-client")) ++
        iteration (.packet strictKexinit) ++ iteration (.packet (.ofFields 30 [] (by decide))) ++
        [TransportEvent.timeouts none [] none] ++
        [TransportEvent.packet (.ofFields 21 [] (by decide))],
      ∀ t, FirstKexinitStrict t ev := by
    rw [List.forall_mem_append, List.forall_mem_append, List.forall_mem_append,
      List.forall_mem_append, List.forall_mem_singleton, List.forall_mem_singleton]
    exact ⟨⟨⟨⟨firstKexinitStrict_iteration (firstKexinitStrict_of_ne nofun),
      firstKexinitStrict_iteration fun t p heq _ _ => by cases heq; exact offersStrict_strictKexinit⟩,
      firstKexinitStrict_iteration (firstKexinitStrict_of_type (by decide))⟩,
      firstKexinitStrict_of_ne nofun⟩, firstKexinitStrict_of_type (by decide)⟩
  obtain ⟨hsteps, hseqs⟩ := strict_kex bareHost {} plainCrypto none ps4AlgoTables [] _ v hrun
    (LTS.along_of_forall hoffers _) hv.2
  obtain ⟨hzero, hpackets⟩ := hsteps _ _ [] u v rfl hu hst hnew
  exact ⟨u, v, hu, hst, hnew, hzero, hpackets hfirst, hseqs⟩

end Runs

end Ps4Dropbear
