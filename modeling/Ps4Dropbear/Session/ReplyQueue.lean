import Mathlib.Data.List.Induction
import Ps4Dropbear.Session.KeyChange

/-!
# Messages that wait for the end of key exchange

A message that is not allowed during key exchange goes straight to the write queue or, during an
exchange, to the reply queue, which `maybe_flush_reply_queue` empties later in the iteration.  Its
place in the write queue is right because nothing is sent between the NEWKEYS that allows data again
and the flush, apart from messages that are always allowed.

* `QueueInv` : the messages in the write queue and those in the reply queue are the ones for which
  `encrypt_packet` was called, in this order, and none of them was placed during an exchange.
* `held_messages_in_order` : it holds in every run.
-/

namespace Ps4Dropbear

/-- A message that is not allowed during key exchange: one of user authentication or of the
connection protocol, or a service message. -/
def heldBack (payload : Bytes) : Bool :=
  packetType payload ≥ sshMsgUserauthRequest || packetType payload = sshMsgServiceRequest ||
    packetType payload = sshMsgServiceAccept

/-- Whether behind these packets an exchange is under way: the last KEXINIT has no NEWKEYS behind
it. -/
def inKex (queued : List WirePacket) : Bool :=
  queued.foldl (fun b w => packetType w.payload = sshMsgKexinit ||
    (b && packetType w.payload ≠ sshMsgNewkeys)) false

theorem inKex_append (q : List WirePacket) (w : WirePacket) :
    inKex (q ++ [w]) = (decide (packetType w.payload = sshMsgKexinit) ||
      (inKex q && decide (packetType w.payload ≠ sshMsgNewkeys))) := by
  simp [inKex, List.foldl_append]

/-- An exchange is under way behind a KEXINIT that has no NEWKEYS behind it. -/
theorem inKex_of_kexinit {a b : List WirePacket} {k : WirePacket}
    (hk : packetType k.payload = sshMsgKexinit)
    (hb : ∀ w ∈ b, packetType w.payload ≠ sshMsgNewkeys) : inKex (a ++ k :: b) = true := by
  induction b using List.reverseRecOn with
  | nil =>
    rw [inKex_append, hk]
    rfl
  | append_singleton b w ih =>
    have hw := hb w (List.mem_append_right b (List.mem_singleton_self w))
    have hpre := ih fun x hx => hb x (List.mem_append_left [w] hx)
    rw [← List.cons_append, ← List.append_assoc, inKex_append, hpre]
    simp [hw]

theorem packetIsOkayKex_eq (payload : Bytes) :
    packetIsOkayKex (packetType payload) =
      (!heldBack payload && decide (packetType payload ≠ sshMsgKexinit)) := by
  unfold packetIsOkayKex heldBack
  split_ifs with h₁ h₂
  · simp [h₁]
  · rcases h₂ with h₂ | h₂ <;> simp [h₂]
  · rw [not_or] at h₂
    simp [h₁, h₂.1, h₂.2]

/-- The messages for which `encrypt_packet` was called and that are held back during an exchange
are those in the write queue, and then those in the reply queue. -/
structure QueueInv (t : Transport) : Prop where
  order : t.calls.filter heldBack =
    (t.queued.map WirePacket.payload).filter heldBack ++ t.replyQueue
  held : ∀ m ∈ t.replyQueue, heldBack m = true
  placed : ∀ (pre : List WirePacket) (w : WirePacket) post, t.queued = pre ++ w :: post →
    heldBack w.payload = true → inKex pre = false
  kex : inKex t.queued = !t.ses.dataallowed

section Sending

variable {K : KexCrypto} {t t' : Transport} {p : TransportPacket} {ph : ExchangePhase}
  {m : Bytes} {ms : List Bytes}

theorem QueueInv.congr (h : QueueInv t) (hcalls : t'.calls = t.calls)
    (hqueued : t'.queued = t.queued) (hreply : t'.replyQueue = t.replyQueue)
    (hdata : t'.ses.dataallowed = t.ses.dataallowed) : QueueInv t' where
  order := by rw [hcalls, hqueued, hreply]; exact h.order
  held := by rw [hreply]; exact h.held
  placed := by rw [hqueued]; exact h.placed
  kex := by rw [hqueued, hdata]; exact h.kex

/-- A packet behind the others. -/
theorem placed_append {q : List WirePacket} {w : WirePacket}
    (h : ∀ (pre : List WirePacket) (w : WirePacket) post, q = pre ++ w :: post →
      heldBack w.payload = true → inKex pre = false)
    (hw : heldBack w.payload = true → inKex q = false) :
    ∀ (pre : List WirePacket) (w' : WirePacket) post, q ++ [w] = pre ++ w' :: post →
      heldBack w'.payload = true → inKex pre = false := by
  intro pre w' post heq hheld
  rcases List.eq_nil_or_concat post with rfl | ⟨post', x, rfl⟩
  · obtain ⟨rfl, hlast⟩ := List.append_inj' heq rfl
    cases hlast
    exact hw hheld
  · rw [List.concat_eq_append, ← List.cons_append, ← List.append_assoc] at heq
    obtain ⟨rfl, -⟩ := List.append_inj' heq rfl
    exact h pre w' post' rfl hheld

/-- With data allowed, a message goes to the write queue. -/
theorem encryptPacket_data (hd : t.ses.dataallowed = true) :
    t.encryptPacket m = { t with
      queued := t.queued ++ [⟨m, t.transseq, t.ses.keysTrans⟩]
      transseq := (t.transseq + 1) % 2 ^ 32 } := by
  simp [Transport.encryptPacket, hd]

/-- A message joins the write queue: if it is one that is held back, then data is allowed and
nothing waits. -/
theorem QueueInv.queue (h : QueueInv t) (hm : IsPlain m) {w : WirePacket} (hw : w.payload = m)
    (hheld : heldBack m = true → t.ses.dataallowed = true ∧ t.replyQueue = [])
    (hcalls : t'.calls = t.calls ++ [m]) (hqueued : t'.queued = t.queued ++ [w])
    (hreply : t'.replyQueue = t.replyQueue) (hses : t'.ses = t.ses) : QueueInv t' where
  order := by
    rw [hcalls, hqueued, hreply, List.filter_append, h.order, List.map_append, List.filter_append,
      List.map_singleton, hw]
    by_cases hh : heldBack m = true
    · rw [(hheld hh).2, List.append_nil, List.append_nil]
    · have hnone : [m].filter heldBack = [] := by simp [hh]
      rw [hnone, List.append_nil, List.append_nil]
  held := by rw [hreply]; exact h.held
  placed := by
    rw [hqueued]
    refine placed_append h.placed fun hh => ?_
    rw [hw] at hh
    rw [h.kex, (hheld hh).1]
    rfl
  kex := by
    rw [hqueued, inKex_append, h.kex, hses, hw]
    simp [hm.1, hm.2]

/-- A plain message is sent: it waits, or nothing waits. -/
theorem QueueInv.send (h : QueueInv t) (hm : IsPlain m)
    (hnone : t.ses.dataallowed = true → heldBack m = true → t.replyQueue = []) :
    QueueInv (t.send m) := by
  by_cases hwait : t.ses.dataallowed = false ∧ packetIsOkayKex (packetType m) = false
  · have heq : t.send m = { t with
        calls := t.calls ++ [m], replyQueue := t.replyQueue ++ [m] } := by
      simp [Transport.send, Transport.encryptPacket, hwait.1, hwait.2]
    have hheld : heldBack m = true := by
      have hok := hwait.2
      rw [packetIsOkayKex_eq] at hok
      simpa [hm.1] using hok
    rw [heq]
    refine ⟨?_, ?_, h.placed, h.kex⟩
    · show (t.calls ++ [m]).filter heldBack = _ ++ (t.replyQueue ++ [m])
      rw [List.filter_append, h.order, List.append_assoc]
      simp [hheld]
    · intro m' hm'
      rcases List.mem_append.1 hm' with hm' | hm'
      · exact h.held m' hm'
      · rw [List.mem_singleton.1 hm']
        exact hheld
  · have heq : t.send m = { t with
        calls := t.calls ++ [m]
        queued := t.queued ++ [⟨m, t.transseq, t.ses.keysTrans⟩]
        transseq := (t.transseq + 1) % 2 ^ 32 } := by
      rw [not_and_or, Bool.not_eq_false, Bool.not_eq_false] at hwait
      rcases hwait with hd | hok
      · exact encryptPacket_data hd
      · exact Transport.encryptPacket_okay hok
    rw [heq]
    refine h.queue hm rfl (fun hh => ?_) rfl rfl rfl rfl
    have hd : t.ses.dataallowed = true := by
      by_contra hd
      refine hwait ⟨by simpa using hd, ?_⟩
      rw [packetIsOkayKex_eq, hh]
      rfl
    exact ⟨hd, hnone hd hh⟩

theorem send_replyQueue (hd : t.ses.dataallowed = true) :
    (t.send m).replyQueue = t.replyQueue := by
  simp [Transport.send, Transport.encryptPacket, hd]

theorem sends_replyQueue (hd : t.ses.dataallowed = true) :
    (t.sends ms).replyQueue = t.replyQueue := by
  induction ms generalizing t with
  | nil => rfl
  | cons m ms ih =>
    have hsend : (t.send m).ses.dataallowed = true := by rw [Transport.send_ses]; exact hd
    exact (ih hsend).trans (send_replyQueue hd)

/-- Plain messages are sent. -/
theorem QueueInv.sends (h : QueueInv t) (hms : ∀ m ∈ ms, IsPlain m)
    (hnone : t.ses.dataallowed = true → t.replyQueue = []) : QueueInv (t.sends ms) := by
  induction ms generalizing t with
  | nil => exact h
  | cons m ms ih =>
    rw [List.forall_mem_cons] at hms
    refine ih (h.send hms.1 fun hd _ => hnone hd) hms.2 ?_
    rw [Transport.send_ses]
    intro hd
    rw [send_replyQueue hd]
    exact hnone hd

theorem isPlain_of_heldBack (h : heldBack m = true) : IsPlain m := by
  simp only [heldBack, Bool.or_eq_true, decide_eq_true_eq] at h
  refine ⟨fun heq => ?_, fun heq => ?_⟩
  · rw [heq] at h
    exact absurd h (by decide)
  · rw [heq] at h
    exact absurd h (by decide)

/-- What waited joins the write queue, in its order. -/
theorem QueueInv.flushed (hd : t.ses.dataallowed = true) (hms : ∀ m ∈ ms, heldBack m = true)
    (horder : t.calls.filter heldBack = (t.queued.map WirePacket.payload).filter heldBack ++ ms)
    (hplaced : ∀ (pre : List WirePacket) (w : WirePacket) post, t.queued = pre ++ w :: post →
      heldBack w.payload = true → inKex pre = false) (hkex : inKex t.queued = false) :
    QueueInv { ms.foldl Transport.encryptPacket t with replyQueue := [] } := by
  induction ms generalizing t with
  | nil =>
    refine ⟨horder, fun m hm => absurd hm List.not_mem_nil, hplaced, ?_⟩
    exact hkex.trans (congrArg not hd).symm
  | cons m ms ih =>
    rw [List.forall_mem_cons] at hms
    have hplain := isPlain_of_heldBack hms.1
    have heq := encryptPacket_data (m := m) hd
    refine ih ?_ hms.2 ?_ ?_ ?_
    · rw [heq]
      exact hd
    · rw [heq]
      show t.calls.filter heldBack = _
      rw [horder, List.map_append, List.filter_append, List.append_assoc]
      simp [hms.1]
    · rw [heq]
      exact placed_append hplaced fun _ => hkex
    · rw [heq]
      show inKex (t.queued ++ _) = false
      rw [inKex_append, hkex]
      simp [hplain.1]

theorem QueueInv.maybeFlushReplyQueue (h : QueueInv t) : QueueInv t.maybeFlushReplyQueue := by
  unfold Transport.maybeFlushReplyQueue
  by_cases hd : t.ses.dataallowed = true
  · rw [if_neg (by simp [hd])]
    refine .flushed hd h.held h.order h.placed ?_
    rw [h.kex, hd]
    rfl
  · rw [if_pos (by simpa using hd)]
    exact h

/-! ### Key exchange -/

/-- A message that is not held back joins the write queue. -/
theorem QueueInv.queueFree (h : QueueInv t) (hm : heldBack m = false) {w : WirePacket}
    (hw : w.payload = m) (hcalls : t'.calls = t.calls ++ [m])
    (hqueued : t'.queued = t.queued ++ [w]) (hreply : t'.replyQueue = t.replyQueue)
    (hkex : (decide (packetType m = sshMsgKexinit) ||
      (inKex t.queued && decide (packetType m ≠ sshMsgNewkeys))) = !t'.ses.dataallowed) :
    QueueInv t' where
  order := by
    have hnone : [m].filter heldBack = [] := by simp [hm]
    rw [hcalls, hqueued, hreply, List.filter_append, h.order, List.map_append, List.filter_append,
      List.map_singleton, hw, hnone, List.append_nil, List.append_nil]
  held := by rw [hreply]; exact h.held
  placed := by
    rw [hqueued]
    refine placed_append h.placed fun hh => ?_
    rw [hw, hm] at hh
    cases hh
  kex := by rw [hqueued, inKex_append, hw, hkex]

/-- Our KEXINIT, which closes the write queue. -/
theorem QueueInv.sendMsgKexinit (h : QueueInv t) (hd : t.ses.dataallowed = true) (rand : Bytes) :
    QueueInv (t.sendMsgKexinit rand) := by
  have htype := packetType_kexinitPayload t.tables rand
  simp only [Transport.sendMsgKexinit]
  generalize kexinitPayload t.tables rand = own at htype ⊢
  have heq : t.send own = { t with
      calls := t.calls ++ [own]
      queued := t.queued ++ [⟨own, t.transseq, t.ses.keysTrans⟩]
      transseq := (t.transseq + 1) % 2 ^ 32 } := encryptPacket_data hd
  have hnot : heldBack own = false := by
    rw [heldBack, htype]
    decide
  rw [heq]
  refine h.queueFree hnot rfl rfl rfl rfl ?_
  rw [htype]
  rfl

/-- Our NEWKEYS, which opens the write queue. -/
theorem QueueInv.sendMsgNewkeys (h : QueueInv t) (ha : AtPhase .agreed t.ses)
    (hk : UsesKeys .agreed t.ses) (hr : t.sendMsgNewkeys = .ok t') : QueueInv t' := by
  simp only [Transport.sendMsgNewkeys, bind_eq_ok, pure_eq_ok] at hr
  obtain ⟨s, hs, rfl⟩ := hr
  rw [Transport.send_ses] at hs
  have hd : s.dataallowed = true := (ha.sendMsgNewkeys hk hs).1.dataallowed
  rw [Transport.send_newkeys]
  refine h.queueFree (m := [21]) (by decide) rfl rfl rfl rfl ?_
  show (false || (inKex t.queued && false)) = !s.dataallowed
  rw [hd, Bool.and_false]
  rfl

theorem QueueInv.recvMsgKexinit (h : QueueInv t) (hph : ph = .idle ∨ ph = .proposed)
    (hrec : KeyRecord ph t) (ha : AtPhase ph t.ses) (hr : t.recvMsgKexinit K p = .ok t') :
    QueueInv t' := by
  have hd' : t'.ses.dataallowed = false :=
    (hrec.recvMsgKexinit hph ha hr).2.1.dataallowed
  have hour : QueueInv (if t.ses.kexstate.sentkexinit then t else t.sendMsgKexinit p.rand) ∧
      (if t.ses.kexstate.sentkexinit then t else t.sendMsgKexinit p.rand).ses.dataallowed =
        false := by
    rcases hph with rfl | rfl
    · rw [if_neg (by rw [ha.sentkexinit]; decide)]
      exact ⟨h.sendMsgKexinit ha.dataallowed p.rand, rfl⟩
    · rw [if_pos (show t.ses.kexstate.sentkexinit = true from ha.sentkexinit)]
      exact ⟨h, ha.dataallowed⟩
  simp only [Transport.recvMsgKexinit, bind_eq_ok, pure_eq_ok] at hr
  obtain ⟨s, hs, rfl⟩ := hr
  exact hour.1.congr rfl rfl rfl (hd'.trans hour.2.symm)

theorem QueueInv.recvMsgKexdhInit (h : QueueInv t) (hrec : KeyRecord .agreed t)
    (ha : AtPhase .agreed t.ses) (hr : t.recvMsgKexdhInit K p = .ok t') : QueueInv t' := by
  simp only [Transport.recvMsgKexdhInit, ite_exit_eq_ok, bind_eq_ok, pure_eq_ok, Prod.exists] at hr
  obtain ⟨-, reply, hash, -, t₁, ht₁, rfl⟩ := hr
  have hreply : QueueInv ({ t with ses := { t.ses with
      sent := t.ses.sent ++ [sshMsgKexdhReply]
      sessionId := some (t.ses.sessionId.getD hash) } }.send (31 :: reply.drop 1)) := by
    have hfree : heldBack (31 :: reply.drop 1) = false := rfl
    refine QueueInv.send ?_ (isPlain_cons (by decide)) fun _ hh => ?_
    · exact h.congr rfl rfl rfl rfl
    · rw [hfree] at hh
      cases hh
  have hat : AtPhase .agreed { t.ses with
      sent := t.ses.sent ++ [sshMsgKexdhReply]
      sessionId := some (t.ses.sessionId.getD hash) } :=
    ⟨ha.sentkexinit, ha.recvkexinit, ha.sentnewkeys, ha.recvnewkeys, ha.donefirstkex,
      ha.recvfirstnewkeys, ha.newkeys, ha.dataallowed⟩
  have hnew : QueueInv t₁ := by
    refine hreply.sendMsgNewkeys ?_ ?_ ht₁
    · rw [Transport.send_ses]
      exact hat
    · rw [Transport.send_ses]
      exact ⟨hrec.keys.pos, hrec.keys.trans, hrec.keys.recv⟩
  have hfree : heldBack (extInfoPayload t₁.tables) = false := rfl
  have hext : QueueInv (t₁.send (extInfoPayload t₁.tables)) := by
    refine hnew.send (isPlain_cons (by decide)) fun _ hh => ?_
    rw [hfree] at hh
    cases hh
  split
  · exact hext.congr rfl rfl rfl rfl
  · exact hnew.congr rfl rfl rfl rfl

/-- A packet keeps the order. -/
theorem QueueInv.packet (h : QueueInv t) (hk : KeyInv ph t) (hlive : t.ses.ended = none)
    (hnone : t.ses.dataallowed = true → t.replyQueue = []) (he : PacketEffect K t p t') :
    QueueInv t' := by
  have hphase := hk.phase hlive
  have hnext := hk.next hlive
  have hacc : ∀ type hdl, QueueInv (t.accepted type hdl) := fun _ _ => h.congr rfl rfl rfl rfl
  cases he with
  | exits s received hs hended hrec => exact h.congr rfl rfl rfl hs.dataallowed
  | plain type s payloads hs hended hne hplain =>
    refine QueueInv.sends (h.congr rfl rfl rfl hs.dataallowed) hplain fun hd => ?_
    exact hnone (hs.dataallowed.symm.trans hd)
  | kexinit t₁ hp hign htype hr =>
    have hq := (hacc _ _).recvMsgKexinit (hnext.kexinit_phase htype) hk.record.accepted
      (hphase.withSes (sameKeys_accepted t _ _)) hr
    exact hq.congr rfl rfl rfl rfl
  | kexdhInit t₁ hign htype hr =>
    cases hnext.kexdhInit_phase hphase htype hr
    have hq := (hacc _ _).recvMsgKexdhInit hk.record.accepted
      (hphase.withSes (sameKeys_accepted t _ _)) hr
    exact hq.congr rfl rfl rfl rfl
  | newkeys t₁ hign htype hr =>
    cases hnext.newkeys_phase hphase htype hr
    have hd := (hk.record.accepted.recvMsgNewkeys (hphase.withSes (sameKeys_accepted t _ _)) hign
      rfl hr).2.1.dataallowed
    simp only [Transport.recvMsgNewkeys, bind_eq_ok, pure_eq_ok] at hr
    obtain ⟨s, hs, rfl⟩ := hr
    exact h.congr rfl rfl rfl (hd.trans hphase.dataallowed.symm)

/-- The order in every state of the loop; outside of the gap between a packet and the flush,
nothing waits when data is allowed. -/
structure LoopQueueInv (t : Transport) : Prop where
  keys : ∃ ph, KeyInv ph t
  queues : QueueInv t
  waiting : t.ses.ended = none → t.place ≠ .replies → t.ses.dataallowed = true → t.replyQueue = []

theorem LoopQueueInv.step {ev : TransportEvent} (h : LoopQueueInv t) (hlive : t.ses.ended = none)
    (he : StepEffect K t ev t') : LoopQueueInv t' := by
  obtain ⟨ph, hk⟩ := h.keys
  have hkeys := (hk.step hlive he).1
  have hphase := hk.phase hlive
  cases he with
  | exits _ msg place =>
    exact ⟨hkeys, h.queues.congr rfl rfl rfl rfl, (fun hn => by cases hn)⟩
  | rekey _ rand payloads hsent hplace hplain =>
    have hidle : ph = .idle := by
      have hs := hphase.sentkexinit
      rw [hsent] at hs
      cases ph <;> first | rfl | cases hs
    subst hidle
    have hours := QueueInv.sendMsgKexinit (t := { t with ses := { t.ses with
      kexstate := { t.ses.kexstate with needrekey := false } } })
      (h.queues.congr rfl rfl rfl rfl) hphase.dataallowed rand
    have hclosed : ∀ u : Transport, (u.sendMsgKexinit rand).ses.dataallowed = false :=
      fun _ => rfl
    have hsends := hours.sends hplain fun hd => by rw [hclosed] at hd; cases hd
    refine ⟨hkeys, hsends.congr rfl rfl rfl rfl, fun _ _ hd => ?_⟩
    rw [Transport.sends_ses, hclosed] at hd
    cases hd
  | plain _ s kex written payloads place hs hended hreq hign hran hpeer hplace hplain =>
    have hnone : s.dataallowed = true → t.replyQueue = [] := fun hd =>
      h.waiting hlive hplace (hs.dataallowed.symm.trans hd)
    have hq : QueueInv { t with ses := s, kex := kex, written := written } :=
      h.queues.congr rfl rfl rfl hs.dataallowed
    refine ⟨hkeys, (hq.sends hplain hnone).congr rfl rfl rfl rfl, fun _ _ hd => ?_⟩
    rw [Transport.sends_ses] at hd
    exact (sends_replyQueue hd).trans (hnone hd)
  | packet p t₁ hplace heff =>
    have hplace' : t.place ≠ .replies := by rw [hplace]; decide
    have hcounted : QueueInv t.counted := h.queues.congr rfl rfl rfl rfl
    have hq := hcounted.packet hk.counted hlive (h.waiting hlive hplace') heff
    exact ⟨hkeys, hq.congr rfl rfl rfl rfl, fun _ hne => absurd rfl hne⟩
  | flush hplace =>
    refine ⟨hkeys, h.queues.maybeFlushReplyQueue.congr rfl rfl rfl rfl, fun _ _ hd => ?_⟩
    rw [show Transport.ses _ = t.ses from (Transport.maybeFlushReplyQueue_only t).ses] at hd
    show t.maybeFlushReplyQueue.replyQueue = []
    rw [Transport.maybeFlushReplyQueue, if_neg (by simp [hd])]

end Sending

/-! ### Runs -/

theorem LoopQueueInv.start {o : SvrOpts} {banner : Option Bytes} {tables : AlgoTables}
    {rand : Bytes} : LoopQueueInv (transportStart o banner tables rand) := by
  have hempty : QueueInv { ses := { authstate := svrAuthinitialise o banner }
                           tables := svrAlgosInitialise tables } :=
    ⟨rfl, (fun m hm => absurd hm List.not_mem_nil),
      (fun pre w post heq => by simp at heq), rfl⟩
  exact ⟨⟨_, .start⟩, hempty.sendMsgKexinit rfl rand, fun _ _ hd => by cases hd⟩

/-- **Outgoing order across rekeys.**  In every run, the messages that are not allowed during key
exchange and for which `encrypt_packet` was called are, in this order, those in the write queue
followed by those that wait; nothing waits outside of an exchange once the flush of the iteration
is over; and no such message was placed behind a KEXINIT without a NEWKEYS between them. -/
theorem held_messages_in_order (H : Host) (o : SvrOpts) (K : KexCrypto) (banner : Option Bytes)
    (tables : AlgoTables) (rand : Bytes) (ls : List TransportEvent) (t : Transport)
    (h : (transport H o K).exec (transportStart o banner tables rand) ls = some t) :
    t.calls.filter heldBack = (t.queued.map WirePacket.payload).filter heldBack ++ t.replyQueue ∧
    (t.ses.ended = none → t.place ≠ .replies → inKex t.queued = false → t.replyQueue = []) ∧
    ∀ (pre : List WirePacket) (w : WirePacket) post, t.queued = pre ++ w :: post →
      heldBack w.payload = true →
      ∀ (a : List WirePacket) (k : WirePacket) (b : List WirePacket), pre = a ++ k :: b →
        packetType k.payload = sshMsgKexinit → ∃ x ∈ b, packetType x.payload = sshMsgNewkeys := by
  have hinv : LoopQueueInv t := LTS.exec_invariant' .start
    (fun _ _ _ hI hst => hI.step (transport_live hst) (transport_effect hst)) h
  refine ⟨hinv.queues.order, fun hlive hplace hkex => ?_, ?_⟩
  · refine hinv.waiting hlive hplace ?_
    have hk := hinv.queues.kex
    rw [hkex] at hk
    simpa using hk.symm
  · rintro pre w post hq hw a k b rfl hk
    by_contra hnone
    have hout := hinv.queues.placed _ w post hq hw
    rw [inKex_of_kexinit hk fun x hx heq => hnone ⟨x, hx, heq⟩] at hout
    cases hout

/-- A service request, answered in the exchange of a rekey: it waits for NEWKEYS. -/
def rekeyEvents : List TransportEvent :=
  firstExchange plainKexinit ++ [TransportEvent.timeouts (some []) [] none,
    .packet (.ofFields 5 (sshString (ascii "ssh-userauth")) (by decide)), .flush, .write 0] ++
    iteration (.packet plainKexinit) ++ iteration (.packet (.ofFields 30 [] kexdhInit_fits))

theorem held_messages_in_order_rekey :
    ∃ t, (transport bareHost {} plainCrypto).exec (transportStart {} none ps4AlgoTables [])
        rekeyEvents = some t ∧
      t.calls.filter heldBack = [[6] ++ sshString (ascii "ssh-userauth")] ∧
      t.replyQueue = [] ∧
      t.calls.filter heldBack =
        (t.queued.map WirePacket.payload).filter heldBack ++ t.replyQueue := by
  have hrun : ((transport bareHost {} plainCrypto).exec (transportStart {} none ps4AlgoTables [])
      rekeyEvents).any (fun t => t.calls.filter heldBack == [[6] ++ sshString (ascii "ssh-userauth")]
        && t.ses.ended.isNone && t.place == .timeouts && !inKex t.queued) = true := by
    decide +kernel
  obtain ⟨t, ht, htest⟩ := (Option.any_eq_true _ _).1 hrun
  simp only [Bool.and_eq_true, beq_iff_eq, Option.isNone_iff_eq_none, Bool.not_eq_true'] at htest
  obtain ⟨⟨⟨hcalls, hlive⟩, hplace⟩, hkex⟩ := htest
  obtain ⟨horder, hnone, -⟩ := held_messages_in_order bareHost {} plainCrypto none ps4AlgoTables []
    rekeyEvents t ht
  exact ⟨t, ht, hcalls, hnone hlive (by rw [hplace]; decide) hkex, horder⟩

end Ps4Dropbear
