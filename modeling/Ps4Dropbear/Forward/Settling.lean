import Mathlib.Data.List.Nodup
import Ps4Dropbear.Channel.AfterClose
import Ps4Dropbear.Forward.Netio

/-!
# Pending connections are settled once

The two loops over the pending connections call callbacks, and a callback may remove a channel,
which rewrites the callback of the connection that is being looked at.  The invariant ties the two
kinds of pointers together: a connection whose callback is `channel_connect_done` points to a
channel that is there and points back, and a connection that was cancelled was made for a channel
that is gone.

* `Netio.Inv` : the invariant.
* `Netio.Inv.finish` : calling a callback and freeing the connection.
* `Netio.Inv.step` : a step of the session keeps it.
-/

namespace Ps4Dropbear

namespace ChannelLife

variable {R : Restriction} {recvWindow : ℕ} {s t : ChannelLife}

theorem connPending_closeUp (c : Channel) (allowed : Bool)
    (h : (c.closeUp allowed).present = true) :
    (c.closeUp allowed).connPending = c.connPending := by
  -- only the removal touches it, and then the channel is gone
  have hrule : (c.closeUp allowed).present = true →
      (c.closeUp allowed).connPending = c.connPending := by
    refine Channel.closeUp_rule (P := fun d => d.present = true → d.connPending = c.connPending)
      (fun _ => rfl) ?_ ?_ ?_ ?_
    · intro d hd _ hpresent
      rw [(Channel.closeChanFd_shuts d d.writefd .wr).rest] at hpresent ⊢
      exact hd hpresent
    · intro d hd _ _ hpresent
      exact hd hpresent
    · intro d hd _ _ _ hpresent
      obtain ⟨d', hshuts, -, -, heq⟩ := Channel.sendMsgChannelClose_eq d
      rw [heq, hshuts.rest] at hpresent ⊢
      exact hd hpresent
    · intro d _ hpresent
      cases hpresent
  exact hrule h

/-- A channel that stays keeps its connection, unless the connection comes to its end. -/
theorem connPending_step {e : LifeEvent} (he : e.isConnectDone = false)
    (hst : (channelLife R recvWindow).step s e = some t) (hpresent : t.chan.present = true) :
    t.chan.connPending = s.chan.connPending := by
  obtain ⟨u, hu, rfl⟩ := channelLife_step.1 hst
  obtain ⟨wire, hwire⟩ := u.transmit_eq
  rw [hwire] at hpresent ⊢
  cases perform_cases hu with
  | recvRequest hmain hfresh h =>
    rcases recvRequest_cases h with ⟨wantreply, rfl⟩ | ⟨-, wantreply, ret, st, stores, cs', -, -, rfl⟩
    · rfl
    · dsimp only
      rw [(handled_chan s _ s.chan.session cs').1]
      rfl
  | recvData hmain h => exact h.keeps.2.2.2.2.2
  | writable h => exact h.keeps.2.2.2.2.2
  | readEnd hmain hfd hend => exact (Channel.closeChanFd_shuts _ _ _).keeps.2.2.2.2.2
  | connectDone hmain hpending => cases he
  | check hmain =>
    obtain ⟨flushing, backendFd, cancelFd, heq⟩ := s.chan.checked_eq
    simp only [check, heq]
  | flush hmain =>
    unfold Channel.flush
    split_ifs
    · exact (Channel.closeChanFd_shuts _ _ _).keeps.2.2.2.2.2
    · rfl
  | closeUp hmain => exact connPending_closeUp _ _ hpresent
  | reply hmain =>
    unfold reply Channel.sendReply
    split_ifs <;> rfl
  | workerStore h =>
    unfold ChannelLife.workerStore at h
    cases hw : s.worker <;> rw [hw] at h <;> cases h <;> rfl
  | _ => rfl

end ChannelLife

/-! ### Lists of connections -/

section Lists

variable {l : List Progress} {c d : Progress}

theorem eq_of_id (hn : (l.map (·.id)).Nodup) (hc : c ∈ l) (hd : d ∈ l) (h : c.id = d.id) :
    c = d :=
  List.inj_on_of_nodup_map hn hc hd h

/-- One connection, and the others. -/
theorem perm_cons_filter (hn : (l.map (·.id)).Nodup) (hc : c ∈ l) :
    l.Perm (c :: l.filter (·.id ≠ c.id)) := by
  have hfilter : l.filter (·.id ≠ c.id) = l.filter (· != c) := by
    refine List.filter_congr fun d hd => ?_
    rw [Bool.eq_iff_iff, decide_eq_true_iff, bne_iff_ne]
    exact not_congr ⟨eq_of_id hn hd hc, fun h => h ▸ rfl⟩
  rw [hfilter, ← List.Nodup.erase_eq_filter (List.Nodup.of_map _ hn) c]
  exact List.perm_cons_erase hc

/-- The others are the same when one connection is replaced. -/
theorem perm_cons_replace (hn : (l.map (·.id)).Nodup) (hc : c ∈ l) (d : Progress) :
    (l.map fun e => if e.id = c.id then d else e).Perm (d :: l.filter (·.id ≠ c.id)) := by
  have hperm := (perm_cons_filter hn hc).map fun e => if e.id = c.id then d else e
  rw [List.map_cons, if_pos rfl] at hperm
  have hrest : (l.filter (·.id ≠ c.id)).map (fun e => if e.id = c.id then d else e) =
      l.filter (·.id ≠ c.id) := by
    refine (List.map_congr_left fun e he => ?_).trans (List.map_id _)
    rw [if_neg (by simpa using (List.mem_filter.1 he).2)]
    rfl
  rwa [hrest] at hperm

/-- Cancelling a connection does not matter when it is taken out. -/
theorem filter_map_cancel (l : List Progress) (k : ℕ) :
    (l.map fun e => if e.id = k then { e with cb := .cancelCallback } else e).filter (·.id ≠ k) =
      l.filter (·.id ≠ k) := by
  induction l with
  | nil => rfl
  | cons e l ih =>
    by_cases he : e.id = k
    · rw [List.map_cons, if_pos he, List.filter_cons_of_neg (by simp [he]),
        List.filter_cons_of_neg (by simp [he]), ih]
    · rw [List.map_cons, if_neg he, List.filter_cons_of_pos (by simp [he]),
        List.filter_cons_of_pos (by simp [he]), ih]

end Lists

/-! ### The invariant -/

namespace Progress

/-- What trying addresses does: the connection keeps its identity and its callback, there is a
socket or no address left, and every socket that was made is held or closed. -/
structure Tries (held rest : List ℕ) (c : Progress) (k : Sockets) (r : Progress × Sockets) :
    Prop where
  id : r.1.id = c.id
  chan : r.1.chan = c.chan
  cb : r.1.cb = c.cb
  going : r.1.resIter = [] ∨ r.1.sock.isSome
  socks : Ledger held (k.closed ++ rest) k.made →
    Ledger (r.1.sock.toList ++ held) (r.2.closed ++ rest) r.2.made

theorem Tries.close {held rest : List ℕ} {c : Progress} {k : Sockets} {r : Progress × Sockets}
    {text : Option Bytes}
    (h : Tries held rest { c with errstring := text } (k.socket.close k.made) r) :
    Tries held rest c k r where
  id := h.id
  chan := h.chan
  cb := h.cb
  going := h.going
  socks hk := h.socks hk.issue.settle

theorem tryAddresses_tries (attempt : ℕ → Attempt) (held rest : List ℕ) (c : Progress)
    (k : Sockets) (hsock : c.sock = none) (res : List AiFamily) :
    Tries held rest c k (c.tryAddresses attempt k res) := by
  induction res generalizing c k with
  | nil =>
    refine ⟨rfl, rfl, rfl, .inl rfl, fun hk => ?_⟩
    simpa [tryAddresses, hsock] using hk
  | cons r res ih =>
    have hgoing : Tries held rest c k ({ c with sock := some k.made, resIter := res }, k.socket) :=
      ⟨rfl, rfl, rfl, .inr rfl, fun hk => hk.issue⟩
    have hfailed (text : Bytes) : Tries held rest c k
        (tryAddresses attempt { c with errstring := some text } (k.socket.close k.made) res) :=
      (ih { c with errstring := some text } (k.socket.close k.made) hsock).close
    unfold tryAddresses
    dsimp only
    split
    · exact ih c k hsock
    · split
      · exact hfailed _
      · split
        · split
          · exact hfailed _
          · exact hgoing
        · exact hgoing

theorem setGoing_tries (attempt : ℕ → Attempt) (held rest : List ℕ) (c : Progress)
    (k : Sockets) :
    c.sock = none ∧ Tries held rest c k (c.setGoing attempt k) ∨
      c.sock.isSome ∧ c.setGoing attempt k = (c, k) := by
  unfold setGoing
  cases hsock : c.sock with
  | some sock => exact .inr ⟨rfl, if_neg (by simp)⟩
  | none =>
    refine .inl ⟨rfl, ?_⟩
    split
    · exact tryAddresses_tries attempt held rest c k hsock c.resIter
    · next hres =>
      refine ⟨rfl, rfl, rfl, .inl (by simpa using hres), fun hk => ?_⟩
      simpa [hsock] using hk

end Progress

/-- The callback was the right one: `channel_connect_done` for the channel of the connection, which
was there, or `cancel_callback` for a channel that was gone. -/
def ConnectCall.Right (x : ConnectCall) : Prop :=
  x.cb = .channelConnectDone x.chan ∧ x.present = true ∨
    x.cb = .cancelCallback ∧ x.present = false

/-- The socket that a callback hands to a channel. -/
def ConnectCall.hands (x : ConnectCall) : Option (ℕ × ℕ) :=
  match x.cb, x.result with
  | .channelConnectDone i, .success sock => some (sock, i)
  | _, _ => none

namespace Netio

/-- The channel is there and waits for this connection. -/
def WaitsFor (ch : NetChannel) (k : ℕ) : Prop :=
  ch.life.chan.present = true ∧ ch.life.chan.connPending = true ∧ ch.conn = some k

/-- A pending connection has the right callback. -/
def Waits (chans : List NetChannel) (c : Progress) : Prop :=
  ∃ ch, chans[c.chan]? = some ch ∧
    (c.cb = .channelConnectDone c.chan ∧ WaitsFor ch c.id ∨
      c.cb = .cancelCallback ∧ ch.life.chan.present = false)

/-- The invariant. -/
structure Inv (s : Netio) : Prop where
  /-- Each connection is pending, or its callback has been called; and that once. -/
  conns : Ledger (s.pending.map (·.id)) (s.calls.map (·.conn)) s.made
  /-- Each socket is held by a connection, or has been closed, or handed to a channel. -/
  socks : Ledger (s.pending.filterMap (·.sock)) (s.sockets.closed ++ s.handed.map (·.1))
    s.sockets.made
  waits : ∀ c ∈ s.pending, Waits s.chans c
  /-- `conn_pending` points to a connection that is there and points back. -/
  refers : ∀ i ch k, s.chans[i]? = some ch → WaitsFor ch k →
    ∃ c ∈ s.pending, c.id = k ∧ c.cb = .channelConnectDone i
  right : ∀ x ∈ s.calls, x.Right
  /-- What channels have, they have from their callbacks. -/
  hands : s.handed = s.calls.filterMap ConnectCall.hands

theorem Inv.empty : Inv {} where
  conns := Ledger.empty
  socks := Ledger.empty
  waits _ hc := absurd hc List.not_mem_nil
  refers i ch k hi := by simp at hi
  right _ hx := absurd hx List.not_mem_nil
  hands := rfl

namespace Inv

variable {s : Netio} {c : Progress}

theorem nodup (h : s.Inv) : (s.pending.map (·.id)).Nodup := h.conns.nodup_opened

/-- The order of the connections does not matter. -/
theorem of_perm (h : s.Inv) {l : List Progress} (hl : s.pending.Perm l) :
    Inv { s with pending := l } where
  conns := h.conns.perm (hl.map _) (.refl _)
  socks := h.socks.perm (hl.filterMap _) (.refl _)
  waits c hc := h.waits c (hl.mem_iff.2 hc)
  refers i ch k hi hk := by
    obtain ⟨c, hc, hid⟩ := h.refers i ch k hi hk
    exact ⟨c, hl.mem_iff.1 hc, hid⟩
  right := h.right
  hands := h.hands

/-- The connection that a channel waits for is the one with its callback. -/
theorem eq_of_waitsFor (h : s.Inv) {i : ℕ} {ch : NetChannel} (hi : s.chans[i]? = some ch)
    (hc : c ∈ s.pending) (hw : WaitsFor ch c.id) : c.cb = .channelConnectDone i := by
  obtain ⟨d, hd, hid, hcb⟩ := h.refers i ch c.id hi hw
  rw [← eq_of_id h.nodup hd hc hid]
  exact hcb

/-! ### Sockets -/

theorem filterMap_sock_cons (c : Progress) (l : List Progress) :
    (c :: l).filterMap (·.sock) = c.sock.toList ++ l.filterMap (·.sock) := by
  rw [List.filterMap_cons]
  cases c.sock <;> rfl

/-- A connection has changed, but not its identity nor its callback. -/
theorem update (h : s.Inv) (hc : c ∈ s.pending) {d : Progress} {sockets : Sockets}
    (hid : d.id = c.id) (hchan : d.chan = c.chan) (hcb : d.cb = c.cb)
    (hsocks : Ledger (d.sock.toList ++ (s.pending.filter (·.id ≠ c.id)).filterMap (·.sock))
      (sockets.closed ++ s.handed.map (·.1)) sockets.made) :
    Inv { s.replace c.id d with sockets := sockets } := by
  have hperm := perm_cons_filter h.nodup hc
  have hnew := (perm_cons_replace h.nodup hc d).symm
  have hsplit := h.of_perm hperm
  suffices hfirst : Inv { s with
      pending := d :: s.pending.filter (·.id ≠ c.id), sockets := sockets } from hfirst.of_perm hnew
  refine ⟨?_, ?_, ?_, ?_, h.right, h.hands⟩
  · have hconns := hsplit.conns
    simp only [List.map_cons] at hconns ⊢
    rwa [hid]
  · simp only [filterMap_sock_cons]
    exact hsocks
  · refine List.forall_mem_cons.2 ⟨?_, fun e he => hsplit.waits e (List.mem_cons_of_mem c he)⟩
    have hwaits := h.waits c hc
    unfold Waits at hwaits ⊢
    rwa [hid, hchan, hcb]
  · intro i ch k hi hk
    obtain ⟨e, he, hek, hecb⟩ := hsplit.refers i ch k hi hk
    rcases List.mem_cons.1 he with rfl | he
    · exact ⟨d, List.mem_cons_self, hid.trans hek, hcb.trans hecb⟩
    · exact ⟨e, List.mem_cons_of_mem d he, hek, hecb⟩

/-- What the other connections hold, the closed and the handed sockets are in order, with the
socket of the connection itself. -/
theorem socks_cons (h : s.Inv) (hc : c ∈ s.pending) :
    Ledger (c.sock.toList ++ (s.pending.filter (·.id ≠ c.id)).filterMap (·.sock))
      (s.sockets.closed ++ s.handed.map (·.1)) s.sockets.made := by
  have hsocks := (h.of_perm (perm_cons_filter h.nodup hc)).socks
  simp only [filterMap_sock_cons] at hsocks
  exact hsocks

/-! ### Callbacks -/

/-- A connection has been settled: it is gone, and the others and their channels are as they
were. -/
theorem settle (h : s.Inv) (hc : c ∈ s.pending) {t : Netio} {x : ConnectCall}
    (hpending : t.pending = s.pending.filter (·.id ≠ c.id)) (hmade : t.made = s.made)
    (hcalls : t.calls = x :: s.calls) (hconn : x.conn = c.id) (hx : x.Right)
    (hhanded : t.handed = x.hands.toList ++ s.handed)
    (hsocks : Ledger ((s.pending.filter (·.id ≠ c.id)).filterMap (·.sock))
      (t.sockets.closed ++ t.handed.map (·.1)) t.sockets.made)
    (hchans : ∀ i ch, (∃ d ∈ s.pending, d.id ≠ c.id ∧ d.chan = i) → s.chans[i]? = some ch →
      t.chans[i]? = some ch)
    (hrefers : ∀ i ch k, t.chans[i]? = some ch → WaitsFor ch k → s.chans[i]? = some ch ∧
      c.cb ≠ .channelConnectDone i) :
    Inv t where
  conns := by
    have hsplit := (h.of_perm (perm_cons_filter h.nodup hc)).conns
    rw [hpending, hmade, hcalls, List.map_cons, hconn]
    simp only [List.map_cons] at hsplit
    exact hsplit.settle
  socks := by
    rw [hpending]
    exact hsocks
  waits d hd := by
    rw [hpending] at hd
    obtain ⟨hd, hne⟩ := List.mem_filter.1 hd
    obtain ⟨ch, hch, hcase⟩ := h.waits d hd
    exact ⟨ch, hchans _ _ ⟨d, hd, by simpa using hne, rfl⟩ hch, hcase⟩
  refers i ch k hi hk := by
    obtain ⟨hold, hcb⟩ := hrefers i ch k hi hk
    obtain ⟨d, hd, hdk, hdcb⟩ := h.refers i ch k hold hk
    refine ⟨d, ?_, hdk, hdcb⟩
    rw [hpending]
    refine List.mem_filter.2 ⟨hd, ?_⟩
    rw [decide_eq_true_iff]
    intro hid
    rw [eq_of_id h.nodup hd hc hid] at hdcb
    exact hcb hdcb
  right y hy := by
    rw [hcalls] at hy
    rcases List.mem_cons.1 hy with rfl | hy
    · exact hx
    · exact h.right y hy
  hands := by
    rw [hhanded, hcalls, h.hands, List.filterMap_cons]
    cases x.hands <;> rfl

/-- The socket that a callback is given. -/
def resultSock : ConnectResult → Option ℕ
  | .success sock => some sock
  | .failure _ => none

theorem chan_transmit (life : ChannelLife) : life.transmit.chan = life.chan := by
  obtain ⟨wire, hwire⟩ := life.transmit_eq
  rw [hwire]

/-- `channel_connect_done` leaves the channel without a pending connection. -/
theorem not_waitsFor_connectDone (ch : NetChannel) (sock : Option ℕ) (k : ℕ) :
    ¬ WaitsFor (ch.connectDone sock) k := by
  rintro ⟨-, hpending, -⟩
  rw [NetChannel.connectDone, chan_transmit] at hpending
  cases sock <;> cases hpending

theorem finish_success {ch : NetChannel} {n : ℕ} (hch : s.chans[c.chan]? = some ch)
    (hcb : c.cb = .channelConnectDone c.chan) : s.finish c (.success n) = { s with
      chans := s.chans.set c.chan (ch.connectDone (some n))
      pending := s.pending.filter (·.id ≠ c.id)
      handed := (n, c.chan) :: s.handed
      calls := ⟨c.id, c.chan, c.cb, .success n, s.present c.chan⟩ :: s.calls } := by
  simp only [finish, callback, hcb, channelConnectDone, hch, removeConnect]

/-- The removal of the channel rewrites the callback of the connection, which is freed next. -/
theorem finish_failure {ch : NetChannel} {text : Bytes} (hch : s.chans[c.chan]? = some ch)
    (hcb : c.cb = .channelConnectDone c.chan) (hw : WaitsFor ch c.id) :
    s.finish c (.failure text) = { s with
      chans := s.chans.set c.chan (ch.connectDone none)
      pending := s.pending.filter (·.id ≠ c.id)
      calls := ⟨c.id, c.chan, c.cb, .failure text, s.present c.chan⟩ :: s.calls } := by
  obtain ⟨-, hpending, hconn⟩ := hw
  simp only [finish, callback, hcb, channelConnectDone, hch, cancelPending, hconn, hpending,
    if_true, cancelConnect, removeConnect, filter_map_cancel]

/-- `channel_connect_done` for the channel that waits for the connection. -/
theorem finish_done (h : s.Inv) (hc : c ∈ s.pending) {result : ConnectResult} {ch : NetChannel}
    (hsock : c.sock = resultSock result) (hch : s.chans[c.chan]? = some ch)
    (hcb : c.cb = .channelConnectDone c.chan) (hw : WaitsFor ch c.id) :
    (s.finish c result).Inv := by
  have hpresent : s.present c.chan = true := by
    rw [present, hch]
    exact hw.1
  have hlen : c.chan < s.chans.length := (List.getElem?_eq_some_iff.1 hch).1
  have hsocks := h.socks_cons hc
  rw [hsock] at hsocks
  -- the other connections were not made for this channel
  have hother : ∀ i, (∃ d ∈ s.pending, d.id ≠ c.id ∧ d.chan = i) → i ≠ c.chan := by
    rintro i ⟨d, hd, hne, rfl⟩ heq
    obtain ⟨ch', hch', hcase⟩ := h.waits d hd
    rw [heq, hch] at hch'
    cases hch'
    rcases hcase with ⟨-, hw'⟩ | ⟨-, hgone⟩
    · exact hne (Option.some.inj (hw'.2.2.symm.trans hw.2.2))
    · rw [hw.1] at hgone
      cases hgone
  have hchans (sock : Option ℕ) : ∀ i ch', (∃ d ∈ s.pending, d.id ≠ c.id ∧ d.chan = i) →
      s.chans[i]? = some ch' → (s.chans.set c.chan (ch.connectDone sock))[i]? = some ch' := by
    intro i ch' hd hi
    rw [List.getElem?_set_ne (hother i hd).symm]
    exact hi
  have hrefers (sock : Option ℕ) : ∀ i ch' k,
      (s.chans.set c.chan (ch.connectDone sock))[i]? = some ch' → WaitsFor ch' k →
      s.chans[i]? = some ch' ∧ c.cb ≠ .channelConnectDone i := by
    intro i ch' k hi hk
    by_cases hne : i = c.chan
    · subst hne
      rw [List.getElem?_set_self hlen] at hi
      cases hi
      exact absurd hk (not_waitsFor_connectDone ch sock k)
    · rw [List.getElem?_set_ne (Ne.symm hne)] at hi
      refine ⟨hi, ?_⟩
      rw [hcb]
      simpa using Ne.symm hne
  cases result with
  | success n =>
    rw [finish_success hch hcb]
    have hhands : ConnectCall.hands ⟨c.id, c.chan, c.cb, .success n, s.present c.chan⟩ =
        some (n, c.chan) := by
      simp only [ConnectCall.hands, hcb]
    refine h.settle hc rfl rfl rfl rfl (.inl ⟨hcb, hpresent⟩) ?_ ?_ (hchans _) (hrefers _)
    · rw [hhands]
      rfl
    · exact hsocks.settle.perm (.refl _) List.perm_middle.symm
  | failure text =>
    rw [finish_failure hch hcb hw]
    have hhands : ConnectCall.hands ⟨c.id, c.chan, c.cb, .failure text, s.present c.chan⟩ =
        none := by
      simp only [ConnectCall.hands, hcb]
    refine h.settle hc rfl rfl rfl rfl (.inl ⟨hcb, hpresent⟩) ?_ hsocks (hchans _) (hrefers _)
    rw [hhands]
    rfl

/-- `cancel_callback`. -/
theorem finish_cancel (h : s.Inv) (hc : c ∈ s.pending) {result : ConnectResult} {ch : NetChannel}
    (hsock : c.sock = resultSock result) (hch : s.chans[c.chan]? = some ch)
    (hcb : c.cb = .cancelCallback) (hgone : ch.life.chan.present = false) :
    (s.finish c result).Inv := by
  have hpresent : s.present c.chan = false := by
    rw [present, hch]
    exact hgone
  have hsocks := h.socks_cons hc
  rw [hsock] at hsocks
  have hrefers : ∀ i ch' k, s.chans[i]? = some ch' → WaitsFor ch' k →
      s.chans[i]? = some ch' ∧ c.cb ≠ .channelConnectDone i := by
    intro i ch' k hi _
    refine ⟨hi, ?_⟩
    rw [hcb]
    exact nofun
  have hhands (result : ConnectResult) :
      ConnectCall.hands ⟨c.id, c.chan, c.cb, result, s.present c.chan⟩ = none := by
    simp only [ConnectCall.hands, hcb]
  cases result with
  | success n =>
    have heq : s.finish c (.success n) = { s with
        sockets := s.sockets.close n
        pending := s.pending.filter (·.id ≠ c.id)
        calls := ⟨c.id, c.chan, c.cb, .success n, s.present c.chan⟩ :: s.calls } := by
      simp only [finish, callback, hcb, removeConnect]
    rw [heq]
    exact h.settle hc rfl rfl rfl rfl (.inr ⟨hcb, hpresent⟩) (by rw [hhands]; rfl) hsocks.settle
      (fun _ _ _ => id) hrefers
  | failure text =>
    have heq : s.finish c (.failure text) = { s with
        pending := s.pending.filter (·.id ≠ c.id)
        calls := ⟨c.id, c.chan, c.cb, .failure text, s.present c.chan⟩ :: s.calls } := by
      simp only [finish, callback, hcb, removeConnect]
    rw [heq]
    exact h.settle hc rfl rfl rfl rfl (.inr ⟨hcb, hpresent⟩) (by rw [hhands]; rfl) hsocks
      (fun _ _ _ => id) hrefers

/-- **A callback** keeps the invariant, when it is given the socket of the connection or told that
there is none. -/
theorem finish (h : s.Inv) (hc : c ∈ s.pending) {result : ConnectResult}
    (hsock : c.sock = resultSock result) : (s.finish c result).Inv := by
  obtain ⟨ch, hch, ⟨hcb, hw⟩ | ⟨hcb, hgone⟩⟩ := h.waits c hc
  · exact h.finish_done hc hsock hch hcb hw
  · exact h.finish_cancel hc hsock hch hcb hgone

/-! ### The loops -/

theorem of_find? {k : ℕ} (hfind : s.pending.find? (·.id = k) = some c) :
    c ∈ s.pending ∧ c.id = k :=
  ⟨List.mem_of_find?_eq_some hfind, by simpa using List.find?_some hfind⟩

theorem mem_replace (hc : c ∈ s.pending) (d : Progress) : d ∈ (s.replace c.id d).pending :=
  List.mem_map.2 ⟨c, hc, if_pos rfl⟩

/-- **One round of `set_connect_fds`.** -/
theorem setRound (h : s.Inv) (attempt : ℕ → ℕ → Attempt) (k : ℕ) : (s.setRound attempt k).Inv := by
  unfold Netio.setRound
  split
  · exact h
  · next c hfind =>
    obtain ⟨hc, rfl⟩ := of_find? hfind
    -- with its socket or without, the connection is the same one
    have hnext : Inv { s.replace c.id (c.setGoing (attempt c.id) s.sockets).1 with
        sockets := (c.setGoing (attempt c.id) s.sockets).2 } ∧
        (c.setGoing (attempt c.id) s.sockets).1.id = c.id := by
      have hsocks := h.socks_cons hc
      obtain ⟨hnone, htries⟩ | ⟨-, hsame⟩ := Progress.setGoing_tries (attempt c.id)
        ((s.pending.filter (·.id ≠ c.id)).filterMap (·.sock)) (s.handed.map (·.1)) c s.sockets
      · rw [hnone] at hsocks
        exact ⟨h.update hc htries.id htries.chan htries.cb (htries.socks hsocks), htries.id⟩
      · rw [hsame]
        exact ⟨h.update hc rfl rfl rfl hsocks, rfl⟩
    dsimp only
    split
    · exact hnext.1
    · next hsock =>
      exact hnext.1.finish (mem_replace hc _) (by simpa [resultSock, Progress.failure] using hsock)

theorem setConnectFds (h : s.Inv) (attempt : ℕ → ℕ → Attempt) : (s.setConnectFds attempt).Inv := by
  unfold Netio.setConnectFds
  generalize s.pending.map (·.id) = ks
  induction ks generalizing s with
  | nil => exact h
  | cons k ks ih => exact ih (h.setRound attempt k)

/-- A connection has lost its socket. -/
theorem dropSocket (h : s.Inv) (hc : c ∈ s.pending) {sock : ℕ} (hsock : c.sock = some sock)
    (errstring : Option Bytes) :
    Inv { s.replace c.id { c with sock := none, errstring := errstring } with
      sockets := s.sockets.close sock } := by
  have hsocks := h.socks_cons hc
  rw [hsock] at hsocks
  exact h.update hc rfl rfl rfl hsocks.settle

/-- **The rounds of `handle_connect_fds`.** -/
theorem handleRounds (h : s.Inv) (ready : ℕ → Bool) (status : ℕ → SockStatus) (ks : List ℕ) :
    (s.handleRounds ready status ks).Inv := by
  induction ks generalizing s with
  | nil => exact h
  | cons k ks ih =>
    unfold Netio.handleRounds
    split
    · exact ih h
    · next c hfind =>
      obtain ⟨hc, rfl⟩ := of_find? hfind
      cases hsock : c.sock with
      | none => exact ih h
      | some sock =>
        dsimp only
        split
        · exact ih h
        · split
          · exact ih (h.dropSocket hc hsock c.errstring)
          · exact ih (h.dropSocket hc hsock _)
          · exact h.finish hc hsock

/-! ### Channels -/

/-- A step in the life of a channel that stays. -/
theorem life_stays (h : s.Inv) {i : ℕ} {ch : NetChannel} {life : ChannelLife}
    (hch : s.chans[i]? = some ch) (hpresent : ch.life.chan.present = true)
    (hstays : life.chan.present = true) (hconn : life.chan.connPending = ch.life.chan.connPending) :
    Inv { s with chans := s.chans.set i { ch with life := life } } := by
  have hlen : i < s.chans.length := (List.getElem?_eq_some_iff.1 hch).1
  have hwaitsFor (k : ℕ) : WaitsFor { ch with life := life } k ↔ WaitsFor ch k := by
    simp only [WaitsFor, hstays, hconn, hpresent]
  refine ⟨h.conns, h.socks, fun c hc => ?_, fun j ch' k hj hk => ?_, h.right, h.hands⟩
  · obtain ⟨ch', hch', hcase⟩ := h.waits c hc
    by_cases hi : c.chan = i
    · rw [hi, hch] at hch'
      cases hch'
      refine ⟨{ ch with life := life }, ?_, ?_⟩
      · rw [hi, List.getElem?_set_self hlen]
      · rcases hcase with ⟨hcb, hw⟩ | ⟨-, hgone⟩
        · exact .inl ⟨hcb, (hwaitsFor _).2 hw⟩
        · rw [hpresent] at hgone
          cases hgone
    · exact ⟨ch', by rw [List.getElem?_set_ne (Ne.symm hi), hch'], hcase⟩
  · by_cases hi : j = i
    · subst hi
      rw [List.getElem?_set_self hlen] at hj
      cases hj
      exact h.refers j ch k hch ((hwaitsFor k).1 hk)
    · rw [List.getElem?_set_ne (Ne.symm hi)] at hj
      exact h.refers j ch' k hj hk

/-- A connection that was not made for the channel is not touched by what happens to it. -/
theorem waits_set {chans : List NetChannel} {i : ℕ} {ch : NetChannel} (hne : c.chan ≠ i)
    (hw : Waits chans c) : Waits (chans.set i ch) c := by
  obtain ⟨ch', hch', hcase⟩ := hw
  exact ⟨ch', by rw [List.getElem?_set_ne (Ne.symm hne), hch'], hcase⟩

/-- The connection that was made for a channel that is there is the one that it waits for. -/
theorem waitsFor_of_chan (h : s.Inv) (hc : c ∈ s.pending) {ch : NetChannel}
    (hch : s.chans[c.chan]? = some ch) (hpresent : ch.life.chan.present = true) :
    WaitsFor ch c.id := by
  obtain ⟨ch', hch', hcase⟩ := h.waits c hc
  rw [hch] at hch'
  cases hch'
  rcases hcase with ⟨-, hw⟩ | ⟨-, hgone⟩
  · exact hw
  · rw [hpresent] at hgone
    cases hgone

/-- A channel that waits for nothing is removed. -/
theorem life_removed_free (h : s.Inv) {i : ℕ} {ch : NetChannel} {life : ChannelLife}
    (hch : s.chans[i]? = some ch) (hpresent : ch.life.chan.present = true)
    (hgone : life.chan.present = false) (hfree : ∀ k, ¬ WaitsFor ch k) :
    Inv { s with chans := s.chans.set i { ch with life := life } } := by
  have hlen : i < s.chans.length := (List.getElem?_eq_some_iff.1 hch).1
  refine ⟨h.conns, h.socks, fun c hc => waits_set ?_ (h.waits c hc), fun j ch' k hj hk => ?_,
    h.right, h.hands⟩
  · rintro rfl
    exact hfree _ (h.waitsFor_of_chan hc hch hpresent)
  · by_cases hi : j = i
    · subst hi
      rw [List.getElem?_set_self hlen] at hj
      cases hj
      exact absurd (hgone.symm.trans hk.1) Bool.false_ne_true
    · rw [List.getElem?_set_ne (Ne.symm hi)] at hj
      exact h.refers j ch' k hj hk

/-- A channel that waits for a connection is removed, and the connection is cancelled. -/
theorem life_removed_waiting (h : s.Inv) {i k : ℕ} {ch : NetChannel} {life : ChannelLife}
    (hch : s.chans[i]? = some ch) (hw : WaitsFor ch k) (hgone : life.chan.present = false) :
    Inv ({ s with chans := s.chans.set i { ch with life := life } }.cancelConnect k) := by
  have hlen : i < s.chans.length := (List.getElem?_eq_some_iff.1 hch).1
  have hcb : ∀ c ∈ s.pending, c.id = k → c.cb = .channelConnectDone i := by
    rintro c hc rfl
    exact h.eq_of_waitsFor hch hc hw
  refine ⟨?_, ?_, fun c' hc' => ?_, fun j ch' k' hj hk => ?_, h.right, h.hands⟩
  · have hids : (s.pending.map fun c => if c.id = k then { c with cb := .cancelCallback } else c).map
        (·.id) = s.pending.map (·.id) := by
      rw [List.map_map]
      refine List.map_congr_left fun c _ => ?_
      simp only [Function.comp_apply]
      split_ifs <;> rfl
    simp only [cancelConnect, hids]
    exact h.conns
  · have hsocks : (s.pending.map fun c =>
        if c.id = k then { c with cb := .cancelCallback } else c).filterMap (·.sock) =
        s.pending.filterMap (·.sock) := by
      rw [List.filterMap_map]
      refine List.filterMap_congr fun c _ => ?_
      simp only [Function.comp_apply]
      split_ifs <;> rfl
    simp only [cancelConnect, hsocks]
    exact h.socks
  · obtain ⟨c, hc, rfl⟩ := List.mem_map.1 hc'
    by_cases hid : c.id = k
    · rw [if_pos hid]
      -- this one was made for the channel
      obtain ⟨ch', hch', ⟨hcb', -⟩ | ⟨hcb', -⟩⟩ := h.waits c hc
      · have hchan : c.chan = i := by
          have := hcb'.symm.trans (hcb c hc hid)
          simpa using this
        refine ⟨{ ch with life := life }, ?_, .inr ⟨rfl, hgone⟩⟩
        rw [hchan]
        exact List.getElem?_set_self hlen
      · rw [hcb c hc hid] at hcb'
        cases hcb'
    · rw [if_neg hid]
      refine waits_set ?_ (h.waits c hc)
      rintro rfl
      have hw' := h.waitsFor_of_chan hc hch hw.1
      exact hid (Option.some.inj (hw'.2.2.symm.trans hw.2.2))
  · by_cases hi : j = i
    · subst hi
      rw [cancelConnect, List.getElem?_set_self hlen] at hj
      cases hj
      exact absurd (hgone.symm.trans hk.1) Bool.false_ne_true
    · rw [cancelConnect, List.getElem?_set_ne (Ne.symm hi)] at hj
      obtain ⟨c, hc, hck, hccb⟩ := h.refers j ch' k' hj hk
      refine ⟨c, List.mem_map.2 ⟨c, hc, if_neg fun hid => ?_⟩, hck, hccb⟩
      rw [hcb c hc hid] at hccb
      exact hi (by simpa using hccb.symm)

/-- **A step in the life of a channel.** -/
theorem lifeStep (h : s.Inv) {R : Restriction} {recvWindow i : ℕ} {e : LifeEvent} {t : Netio}
    (hpresent : s.present i = true) (he : e.isConnectDone = false)
    (hst : s.lifeStep R recvWindow i e = some t) : t.Inv := by
  unfold Netio.lifeStep at hst
  simp only [Option.bind_eq_bind, Option.bind_eq_some_iff] at hst
  obtain ⟨ch, hch, life, hlife, hst⟩ := hst
  rw [present, hch] at hpresent
  replace hpresent : ch.life.chan.present = true := hpresent
  by_cases hstays : life.chan.present = true
  · rw [if_pos hstays] at hst
    cases hst
    exact h.life_stays hch hpresent hstays (ChannelLife.connPending_step he hlife hstays)
  · rw [if_neg hstays] at hst
    cases hst
    have hgone : life.chan.present = false := by simpa using hstays
    unfold cancelPending
    split
    · next k hk =>
      split
      · next hpending => exact h.life_removed_waiting hch ⟨hpresent, hpending, hk⟩ hgone
      · next hpending =>
        exact h.life_removed_free hch hpresent hgone fun _ hw => hpending hw.2.1
    · next hk =>
      refine h.life_removed_free hch hpresent hgone fun k hw => ?_
      exact Option.some_ne_none k (hw.2.2.symm.trans hk)

theorem waits_append {chans : List NetChannel} (ch : NetChannel) (hw : Waits chans c) :
    Waits (chans ++ [ch]) c := by
  obtain ⟨ch', hch', hcase⟩ := hw
  exact ⟨ch', List.getElem?_append_left (List.getElem?_eq_some_iff.1 hch').1 ▸ hch', hcase⟩

/-- A channel is an old one or the new one. -/
theorem getElem?_concat {chans : List NetChannel} {ch ch' : NetChannel} {i : ℕ}
    (h : (chans ++ [ch])[i]? = some ch') :
    chans[i]? = some ch' ∨ i = chans.length ∧ ch' = ch := by
  rw [List.getElem?_append] at h
  split at h
  · exact .inl h
  · next hlen =>
    obtain ⟨hi, hget⟩ := List.getElem?_eq_some_iff.1 h
    rw [List.getElem_singleton] at hget
    have hle : i - chans.length < 1 := hi
    exact .inr ⟨by omega, hget.symm⟩

/-- **A channel with a connection is opened.** -/
theorem openDirect (h : s.Inv) (recvWindow sunPathSize transwindow transmaxpacket : ℕ)
    (target : Target) :
    (s.openDirect recvWindow sunPathSize transwindow transmaxpacket target).Inv := by
  have hnew : WaitsFor ⟨.opened recvWindow target.type transwindow transmaxpacket, some s.made⟩
      s.made := by
    refine ⟨rfl, ?_, rfl⟩
    cases target <;> rfl
  unfold Netio.openDirect
  dsimp only
  refine ⟨?_, ?_, fun c hc => ?_, fun i ch k hi hk => ?_, h.right, h.hands⟩
  · refine h.conns.issue.perm ?_ (.refl _)
    rw [List.map_append]
    exact (List.perm_append_singleton _ _).symm
  · simp only [List.filterMap_append]
    simpa using h.socks
  · rcases List.mem_append.1 hc with hc | hc
    · exact waits_append _ (h.waits c hc)
    · rw [List.mem_singleton.1 hc]
      exact ⟨_, List.getElem?_concat_length, .inl ⟨rfl, hnew⟩⟩
  · rcases getElem?_concat hi with hi | ⟨rfl, rfl⟩
    · obtain ⟨c, hc, hck⟩ := h.refers i ch k hi hk
      exact ⟨c, List.mem_append_left _ hc, hck⟩
    · exact ⟨_, List.mem_append_right _ List.mem_cons_self,
        Option.some.inj hk.2.2, rfl⟩

/-- A channel without a connection appears. -/
theorem openOther (h : s.Inv) {life : ChannelLife} (hlife : life.chan.connPending = false) :
    Inv { s with chans := s.chans ++ [{ life := life }] } where
  conns := h.conns
  socks := h.socks
  waits c hc := waits_append _ (h.waits c hc)
  refers i ch k hi hk := by
    rcases getElem?_concat hi with hi | ⟨-, rfl⟩
    · exact h.refers i ch k hi hk
    · exact absurd (hlife.symm.trans hk.2.1) Bool.false_ne_true
  right := h.right
  hands := h.hands

/-- **One step** keeps the invariant. -/
theorem step (h : s.Inv) {R : Restriction} {recvWindow sunPathSize : ℕ} {e : NetioEvent}
    {t : Netio} (hst : (netio R recvWindow sunPathSize).step s e = some t) : t.Inv := by
  cases e with
  | openDirect transwindow transmaxpacket target =>
    obtain ⟨-, hst⟩ := Option.ite_none_right_eq_some.1 hst
    cases hst
    exact h.openDirect recvWindow sunPathSize transwindow transmaxpacket target
  | openOther life =>
    obtain ⟨⟨-, hlife⟩, hst⟩ := Option.ite_none_right_eq_some.1 hst
    cases hst
    exact h.openOther hlife
  | life i e =>
    obtain ⟨⟨hpresent, he⟩, hst⟩ := Option.ite_none_right_eq_some.1 hst
    exact h.lifeStep hpresent (by simpa using he) hst
  | setConnectFds attempt =>
    obtain ⟨-, hst⟩ := Option.ite_none_right_eq_some.1 hst
    cases hst
    exact h.setConnectFds attempt
  | handleConnectFds ready status =>
    obtain ⟨-, hst⟩ := Option.ite_none_right_eq_some.1 hst
    cases hst
    exact h.handleRounds ready status _

end Inv

end Netio

end Ps4Dropbear
