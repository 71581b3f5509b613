import Mathlib.Data.List.Forall2
import Ps4Dropbear.Forward.Settling

/-!
# A pending connection comes to its end

The addresses of a connection are tried across many turns of the session loop.  The work that is
left for a connection is what is left of its addresses, with the one that is being tried, and the
same for the connections in front of it, since `handle_connect_fds` returns behind the first
connection that stands.  Each time the socket of the connection is found ready some of that work is
done, and nothing adds to it: new connections are put behind the others.

* `Netio.work` : the work left.
* `Netio.Winds` : what happens to the connections, apart from new ones.
* `netio_settles` : what holds in every state of a session.
-/

namespace Ps4Dropbear

namespace Progress

/-- How many addresses may still fail or stand. -/
def weight (c : Progress) : ℕ := c.resIter.length + c.sock.isSome.toNat

/-- The same connection, and not more to do for it. -/
def Below (d c : Progress) : Prop := d.id = c.id ∧ d.weight ≤ c.weight

theorem Below.rfl {c : Progress} : Below c c := ⟨.refl _, Nat.le_refl _⟩

instance : Std.Refl Below := ⟨fun _ => Below.rfl⟩

instance : IsTrans Progress Below :=
  ⟨fun _ _ _ h h' => ⟨h.1.trans h'.1, Nat.le_trans h.2 h'.2⟩⟩

theorem tryAddresses_below (attempt : ℕ → Attempt) (c : Progress) (k : Sockets)
    (hsock : c.sock = none) (res : List AiFamily) :
    (c.tryAddresses attempt k res).1.id = c.id ∧
      (c.tryAddresses attempt k res).1.weight ≤ res.length := by
  induction res generalizing c k with
  | nil => simp [tryAddresses, weight, hsock]
  | cons r res ih =>
    have hnext (d : Progress) (k' : Sockets) (hid : d.id = c.id) (hd : d.sock = none) :
        (d.tryAddresses attempt k' res).1.id = c.id ∧
          (d.tryAddresses attempt k' res).1.weight ≤ (r :: res).length := by
      obtain ⟨hid', hle⟩ := ih d k' hd
      exact ⟨hid'.trans hid, hle.trans (Nat.le_succ _)⟩
    unfold tryAddresses
    dsimp only
    split
    · exact hnext c k rfl hsock
    · split
      · exact hnext _ _ rfl hsock
      · split
        · split
          · exact hnext _ _ rfl hsock
          · exact ⟨rfl, Nat.le_refl _⟩
        · exact ⟨rfl, Nat.le_refl _⟩

theorem setGoing_below (attempt : ℕ → Attempt) (c : Progress) (k : Sockets) :
    Below (c.setGoing attempt k).1 c := by
  unfold setGoing
  split
  · next hgoing =>
    obtain ⟨hid, hle⟩ := tryAddresses_below attempt c k hgoing.2 c.resIter
    exact ⟨hid, hle.trans (Nat.le_add_right _ _)⟩
  · exact Below.rfl

end Progress

open Progress (Below)

/-! ### The work that is left -/

section Work

variable {k : ℕ} {l l' : List Progress} {c : Progress}

/-- What a connection adds to the work for connection `k`. -/
def share (k : ℕ) (c : Progress) : ℕ := if c.id ≤ k then c.weight else 0

/-- The work for connection `k` and those in front of it. -/
def shares (k : ℕ) (l : List Progress) : ℕ := (l.map (share k)).sum

theorem share_le {d : Progress} (h : Below d c) : share k d ≤ share k c := by
  unfold share
  rw [h.1]
  split
  · exact h.2
  · exact Nat.le_refl _

theorem shares_le (h : List.SublistForall₂ Below l' l) : shares k l' ≤ shares k l := by
  unfold shares
  induction h with
  | nil => exact Nat.zero_le _
  | cons hd _ ih =>
    rw [List.map_cons, List.map_cons, List.sum_cons, List.sum_cons]
    exact Nat.add_le_add (share_le hd) ih
  | cons_right _ ih =>
    rw [List.map_cons, List.sum_cons]
    exact ih.trans (Nat.le_add_left _ _)

theorem shares_perm (h : l.Perm l') : shares k l = shares k l' := (h.map (share k)).sum_nat

/-- The work for one connection, and for the others. -/
theorem shares_split (hn : (l.map (·.id)).Nodup) (hc : c ∈ l) :
    shares k l = share k c + shares k (l.filter (·.id ≠ c.id)) :=
  shares_perm (perm_cons_filter hn hc)

theorem shares_replace (hn : (l.map (·.id)).Nodup) (hc : c ∈ l) (d : Progress) :
    shares k (l.map fun e => if e.id = c.id then d else e) =
      share k d + shares k (l.filter (·.id ≠ c.id)) :=
  shares_perm (perm_cons_replace hn hc d)

theorem below_map {f : Progress → Progress} (h : ∀ c ∈ l, Below (f c) c) :
    List.SublistForall₂ Below (l.map f) l := by
  induction l with
  | nil => exact .nil
  | cons c l ih =>
    exact .cons (h c List.mem_cons_self) (ih fun d hd => h d (List.mem_cons_of_mem c hd))

theorem below_filter (p : Progress → Bool) : List.SublistForall₂ Below (l.filter p) l :=
  List.filter_sublist.sublistForall₂

/-- The connections stay in the order in which they were made. -/
theorem ids_sublist (h : List.SublistForall₂ Below l' l) :
    List.Sublist (l'.map (·.id)) (l.map (·.id)) := by
  induction h with
  | nil => exact List.nil_sublist _
  | cons hd _ ih =>
    rw [List.map_cons, List.map_cons, hd.1]
    exact ih.cons_cons _
  | cons_right _ ih => exact ih.cons _

end Work

namespace Netio

variable {s t u : Netio} {c d : Progress} {k : ℕ}

/-- The work that is left until connection `k` has come to its end. -/
def work (k : ℕ) (s : Netio) : ℕ := shares k s.pending

/-- What may happen to the connections, when there are no new ones. -/
structure Winds (s t : Netio) : Prop where
  made : t.made = s.made
  pending : List.SublistForall₂ Below t.pending s.pending

namespace Winds

theorem refl (s : Netio) : Winds s s := ⟨rfl, Std.Refl.refl _⟩

theorem trans (h : Winds s t) (h' : Winds t u) : Winds s u :=
  ⟨h'.made.trans h.made, IsTrans.trans _ _ _ h'.pending h.pending⟩

theorem work_le (h : Winds s t) : work k t ≤ work k s := shares_le h.pending

end Winds

theorem winds_cancelConnect (s : Netio) (k : ℕ) : Winds s (s.cancelConnect k) := by
  refine ⟨rfl, below_map fun c _ => ?_⟩
  split
  · exact ⟨rfl, Nat.le_refl _⟩
  · exact Below.rfl

theorem winds_cancelPending (s : Netio) (ch : NetChannel) : Winds s (s.cancelPending ch) := by
  unfold cancelPending
  split
  · split
    · exact winds_cancelConnect s _
    · exact .refl s
  · exact .refl s

theorem winds_callback (s : Netio) (c : Progress) (result : ConnectResult) :
    Winds s (s.callback c result) := by
  unfold callback
  split
  · unfold channelConnectDone
    split
    · exact .refl s
    · next ch _ =>
      split
      · exact ⟨rfl, Std.Refl.refl _⟩
      · have hchans (chans : List NetChannel) : Winds s { s with chans := chans } :=
          ⟨rfl, Std.Refl.refl _⟩
        exact (hchans _).trans (winds_cancelPending _ ch)
  · split
    · exact ⟨rfl, Std.Refl.refl _⟩
    · exact .refl s

theorem winds_finish (s : Netio) (c : Progress) (result : ConnectResult) :
    Winds s (s.finish c result) :=
  (winds_callback s c result).trans ⟨rfl, below_filter _⟩

/-- A connection that has a socket leaves nothing to do behind it. -/
theorem pending_finish_success (s : Netio) (c : Progress) (sock : ℕ) :
    (s.finish c (.success sock)).pending = s.pending.filter (·.id ≠ c.id) := by
  unfold finish callback
  split
  · unfold channelConnectDone
    split <;> rfl
  · rfl

theorem winds_replace (h : s.Inv) (hc : c ∈ s.pending) (hd : Below d c) (sockets : Sockets) :
    Winds s { s.replace c.id d with sockets := sockets } := by
  refine ⟨rfl, below_map fun e he => ?_⟩
  split
  · next hid =>
    rw [eq_of_id h.nodup he hc hid]
    exact hd
  · exact Below.rfl

/-! ### The loops -/

theorem winds_setRound (h : s.Inv) (attempt : ℕ → ℕ → Attempt) (k : ℕ) :
    Winds s (s.setRound attempt k) := by
  unfold setRound
  split
  · exact .refl s
  · next c hfind =>
    obtain ⟨hc, rfl⟩ := Inv.of_find? hfind
    have hnext := winds_replace h hc (c.setGoing_below (attempt c.id) s.sockets)
      (c.setGoing (attempt c.id) s.sockets).2
    dsimp only
    split
    · exact hnext
    · exact hnext.trans (winds_finish _ _ _)

theorem winds_setConnectFds (h : s.Inv) (attempt : ℕ → ℕ → Attempt) :
    Winds s (s.setConnectFds attempt) := by
  unfold setConnectFds
  generalize s.pending.map (·.id) = ks
  induction ks generalizing s with
  | nil => exact .refl s
  | cons k ks ih => exact (winds_setRound h attempt k).trans (ih (h.setRound attempt k))

/-- A connection without its socket has one address less. -/
theorem weight_dropSocket {sock : ℕ} (hsock : c.sock = some sock) (errstring : Option Bytes) :
    Progress.weight { c with sock := none, errstring := errstring } < c.weight := by
  simp [Progress.weight, hsock]

theorem winds_dropSocket (h : s.Inv) (hc : c ∈ s.pending) {sock : ℕ} (hsock : c.sock = some sock)
    (errstring : Option Bytes) :
    Winds s { s.replace c.id { c with sock := none, errstring := errstring } with
      sockets := s.sockets.close sock } := by
  have hbelow : Below { c with sock := none, errstring := errstring } c :=
    ⟨rfl, Nat.le_of_lt (weight_dropSocket hsock errstring)⟩
  exact winds_replace h hc hbelow _

theorem winds_handleRounds (h : s.Inv) (ready : ℕ → Bool) (status : ℕ → SockStatus)
    (ks : List ℕ) : Winds s (s.handleRounds ready status ks) := by
  induction ks generalizing s with
  | nil => exact .refl s
  | cons k ks ih =>
    unfold handleRounds
    split
    · exact ih h
    · next c hfind =>
      obtain ⟨hc, rfl⟩ := Inv.of_find? hfind
      cases hsock : c.sock with
      | none => exact ih h
      | some sock =>
        have hdrop (errstring : Option Bytes) := winds_dropSocket h hc hsock errstring
        dsimp only
        split
        · exact ih h
        · split
          · exact (hdrop c.errstring).trans (ih (h.dropSocket hc hsock c.errstring))
          · exact (hdrop _).trans (ih (h.dropSocket hc hsock _))
          · exact winds_finish s c _

/-- The socket of connection `k` is looked at in this step, and is ready. -/
def foundReady (k : ℕ) (s : Netio) : NetioEvent → Bool
  | .handleConnectFds ready _ => ready k && (s.pending.find? (·.id = k)).any (·.sock.isSome)
  | _ => false

/-- **Work is done**: in the loop of `handle_connect_fds` either the connection is reached, or one
in front of it stands. -/
theorem work_handleRounds_lt (h : s.Inv) {ready : ℕ → Bool} {status : ℕ → SockStatus}
    {ks : List ℕ} (hks : ks.Pairwise (· < ·)) (hk : k ∈ ks) (hready : ready k = true)
    (hsome : (s.pending.find? (·.id = k)).any (·.sock.isSome) = true) :
    work k (s.handleRounds ready status ks) < work k s := by
  induction ks generalizing s with
  | nil => exact absurd hk List.not_mem_nil
  | cons k' ks ih =>
    have hle : k' ≤ k := by
      rcases List.mem_cons.1 hk with rfl | hk
      · exact Nat.le_refl _
      · exact Nat.le_of_lt ((List.pairwise_cons.1 hks).1 k hk)
    have hrest (hne : k ≠ k') : work k (s.handleRounds ready status ks) < work k s :=
      ih h (List.pairwise_cons.1 hks).2 ((List.mem_cons.1 hk).resolve_left hne) hsome
    unfold handleRounds
    split
    · next hfind =>
      refine hrest ?_
      rintro rfl
      rw [hfind] at hsome
      cases hsome
    · next c hfind =>
      obtain ⟨hc, rfl⟩ := Inv.of_find? hfind
      cases hsock : c.sock with
      | none =>
        refine hrest ?_
        rintro rfl
        rw [hfind] at hsome
        simp [hsock] at hsome
      | some sock =>
        have hshare : share k c = c.weight := if_pos hle
        have hdrop (errstring : Option Bytes) :
            work k ({ s.replace c.id { c with sock := none, errstring := errstring } with
              sockets := s.sockets.close sock } : Netio) < work k s := by
          have hlt := weight_dropSocket hsock errstring
          have hless : share k { c with sock := none, errstring := errstring } < share k c := by
            rw [hshare]
            exact lt_of_eq_of_lt (if_pos hle) hlt
          unfold work
          rw [shares_split h.nodup hc]
          exact lt_of_eq_of_lt (shares_replace h.nodup hc _) (Nat.add_lt_add_right hless _)
        have hdropped (errstring : Option Bytes) :
            work k (({ s.replace c.id { c with sock := none, errstring := errstring } with
              sockets := s.sockets.close sock } : Netio).handleRounds ready status ks) <
              work k s :=
          Nat.lt_of_le_of_lt (winds_handleRounds (h.dropSocket hc hsock errstring) ready status
            ks).work_le (hdrop errstring)
        dsimp only
        split
        · next hnot =>
          refine hrest ?_
          rintro rfl
          simp [hready] at hnot
        · split
          · exact hdropped c.errstring
          · exact hdropped _
          · have hpos : 0 < c.weight := by simp [Progress.weight, hsock]
            unfold work
            rw [pending_finish_success, shares_split h.nodup hc, hshare]
            omega

/-! ### Behind `set_connect_fds` every connection has a socket -/

/-- A callback changes no socket of a connection. -/
theorem mem_callback {x : Progress} {result : ConnectResult}
    (hc : c ∈ (s.callback x result).pending) : ∃ d ∈ s.pending, d.id = c.id ∧ d.sock = c.sock := by
  have hcancel : ∀ {s' : Netio} {k : ℕ}, s'.pending = s.pending →
      c ∈ (s'.cancelConnect k).pending → ∃ d ∈ s.pending, d.id = c.id ∧ d.sock = c.sock := by
    intro s' k hs' hc
    obtain ⟨d, hd, rfl⟩ := List.mem_map.1 hc
    refine ⟨d, hs' ▸ hd, ?_⟩
    split <;> exact ⟨rfl, rfl⟩
  unfold callback at hc
  split at hc
  · unfold channelConnectDone at hc
    split at hc
    · exact ⟨c, hc, rfl, rfl⟩
    · split at hc
      · exact ⟨c, hc, rfl, rfl⟩
      · unfold cancelPending at hc
        split at hc
        · split at hc
          · exact hcancel rfl hc
          · exact ⟨c, hc, rfl, rfl⟩
        · exact ⟨c, hc, rfl, rfl⟩
  · split at hc
    · exact ⟨c, hc, rfl, rfl⟩
    · exact ⟨c, hc, rfl, rfl⟩

/-- What a round of `set_connect_fds` leaves: its own connection only with a socket, and the others
with what they had. -/
theorem mem_setRound {attempt : ℕ → ℕ → Attempt} (hc : c ∈ (s.setRound attempt k).pending) :
    c.id = k ∧ c.sock.isSome ∨ c.id ≠ k ∧ ∃ d ∈ s.pending, d.id = c.id ∧ d.sock = c.sock := by
  unfold setRound at hc
  split at hc
  · next hfind =>
    have hne : c.id ≠ k := by simpa using List.find?_eq_none.1 hfind c hc
    exact .inr ⟨hne, c, hc, rfl, rfl⟩
  · next x hfind =>
    obtain ⟨hx, rfl⟩ := Inv.of_find? hfind
    -- a connection is the one that was tried, or as it was
    have hreplace : ∀ e ∈ (s.replace x.id (x.setGoing (attempt x.id) s.sockets).1).pending,
        e = (x.setGoing (attempt x.id) s.sockets).1 ∨ e.id ≠ x.id ∧ e ∈ s.pending := by
      intro e he
      obtain ⟨d, hd, rfl⟩ := List.mem_map.1 he
      split
      · exact .inl rfl
      · next hne => exact .inr ⟨hne, hd⟩
    have hid := (x.setGoing_below (attempt x.id) s.sockets).1
    dsimp only at hc
    split at hc
    · next hsome =>
      rcases hreplace c hc with rfl | ⟨hne, hc⟩
      · exact .inl ⟨hid, hsome⟩
      · exact .inr ⟨hne, c, hc, rfl, rfl⟩
    · obtain ⟨hc, hne⟩ := List.mem_filter.1 hc
      replace hne : c.id ≠ x.id := by simpa [hid] using hne
      obtain ⟨d, hd, hdid, hdsock⟩ := mem_callback hc
      rcases hreplace d hd with rfl | ⟨-, hd⟩
      · exact absurd (hdid.symm.trans hid) hne
      · exact .inr ⟨hne, d, hd, hdid, hdsock⟩

theorem isSome_of_mem_setConnectFds {attempt : ℕ → ℕ → Attempt}
    (hc : c ∈ (s.setConnectFds attempt).pending) : c.sock.isSome := by
  have hrounds : ∀ (ks : List ℕ) (s : Netio), (∀ d ∈ s.pending, d.id ∈ ks ∨ d.sock.isSome) →
      ∀ d ∈ (ks.foldl (setRound attempt) s).pending, d.sock.isSome := by
    intro ks
    induction ks with
    | nil =>
      intro s hs d hd
      exact (hs d hd).resolve_left List.not_mem_nil
    | cons k ks ih =>
      intro s hs
      refine ih _ fun d hd => ?_
      rcases mem_setRound hd with ⟨-, hsome⟩ | ⟨hne, e, he, hid, hsock⟩
      · exact .inr hsome
      · rcases hs e he with hmem | hsome
        · rw [hid] at hmem
          exact .inl ((List.mem_cons.1 hmem).resolve_left hne)
        · rw [hsock] at hsome
          exact .inr hsome
  exact hrounds _ s (fun d hd => .inl (List.mem_map_of_mem hd)) c hc

/-! ### Runs -/

/-- The connections are in the order in which they were made. -/
def Ordered (s : Netio) : Prop := (s.pending.map (·.id)).Pairwise (· < ·)

section Runs

variable {R : Restriction} {recvWindow sunPathSize : ℕ} {e : NetioEvent}

theorem winds_lifeStep {i : ℕ} {ev : LifeEvent} (hst : s.lifeStep R recvWindow i ev = some t) :
    Winds s t := by
  unfold lifeStep at hst
  simp only [Option.bind_eq_bind, Option.bind_eq_some_iff] at hst
  obtain ⟨ch, hch, life, hlife, hst⟩ := hst
  have hchans (chans : List NetChannel) : Winds s { s with chans := chans } :=
    ⟨rfl, Std.Refl.refl _⟩
  split at hst
  · cases hst
    exact hchans _
  · cases hst
    exact (hchans _).trans (winds_cancelPending _ ch)

/-- A step makes a connection behind the others, or none. -/
theorem step_winds (h : s.Inv) (hst : (netio R recvWindow sunPathSize).step s e = some t) :
    Winds s t ∨ t.made = s.made + 1 ∧
      ∃ c : Progress, c.id = s.made ∧ t.pending = s.pending ++ [c] := by
  cases e with
  | openDirect transwindow transmaxpacket target =>
    obtain ⟨-, hst⟩ := Option.ite_none_right_eq_some.1 hst
    cases hst
    exact .inr ⟨rfl, _, rfl, rfl⟩
  | openOther life =>
    obtain ⟨-, hst⟩ := Option.ite_none_right_eq_some.1 hst
    cases hst
    exact .inl ⟨rfl, Std.Refl.refl _⟩
  | life i e =>
    obtain ⟨-, hst⟩ := Option.ite_none_right_eq_some.1 hst
    exact .inl (winds_lifeStep hst)
  | setConnectFds attempt =>
    obtain ⟨-, hst⟩ := Option.ite_none_right_eq_some.1 hst
    cases hst
    exact .inl (winds_setConnectFds h attempt)
  | handleConnectFds ready status =>
    obtain ⟨-, hst⟩ := Option.ite_none_right_eq_some.1 hst
    cases hst
    exact .inl (winds_handleRounds h ready status _)

theorem Ordered.step (ho : s.Ordered) (h : s.Inv)
    (hst : (netio R recvWindow sunPathSize).step s e = some t) : t.Ordered := by
  unfold Ordered at ho ⊢
  rcases step_winds h hst with hwinds | ⟨-, c, hid, hpending⟩
  · exact ho.sublist (ids_sublist hwinds.pending)
  · rw [hpending, List.map_append]
    refine List.pairwise_append.2 ⟨ho, List.pairwise_singleton _ _, fun k hk k' hk' => ?_⟩
    rw [List.map_singleton, List.mem_singleton] at hk'
    rw [hk', hid]
    exact h.conns.open_or_settled.2 (.inl hk)

theorem made_le_step (h : s.Inv) (hst : (netio R recvWindow sunPathSize).step s e = some t) :
    s.made ≤ t.made := by
  rcases step_winds h hst with hwinds | ⟨hmade, -⟩
  · exact Nat.le_of_eq hwinds.made.symm
  · rw [hmade]
    exact Nat.le_succ _

/-- No step adds to the work for a connection. -/
theorem work_step_le (h : s.Inv) (hk : k < s.made)
    (hst : (netio R recvWindow sunPathSize).step s e = some t) : work k t ≤ work k s := by
  rcases step_winds h hst with hwinds | ⟨-, c, hid, hpending⟩
  · exact hwinds.work_le
  · -- the new connection is behind this one
    have hshare : share k c = 0 := by
      refine if_neg ?_
      rw [hid]
      exact Nat.not_le.2 hk
    simp [work, shares, hpending, hshare]

/-- A step that finds the socket of a connection ready takes from it. -/
theorem work_step_lt (h : s.Inv) (ho : s.Ordered) (hready : s.foundReady k e = true)
    (hst : (netio R recvWindow sunPathSize).step s e = some t) : work k t < work k s := by
  cases e with
  | handleConnectFds ready status =>
    obtain ⟨-, hst⟩ := Option.ite_none_right_eq_some.1 hst
    cases hst
    simp only [foundReady, Bool.and_eq_true] at hready
    obtain ⟨hready, hsome⟩ := hready
    have hmem : k ∈ s.pending.map (·.id) := by
      obtain ⟨c, hfind, -⟩ := (Option.any_eq_true _ _).1 hsome
      obtain ⟨hc, rfl⟩ := Inv.of_find? hfind
      exact List.mem_map_of_mem hc
    exact work_handleRounds_lt h ho hmem hready hsome
  | _ => cases hready

/-- A connection with a socket has work left. -/
theorem work_pos (h : s.Inv) (hc : c ∈ s.pending) (hsome : c.sock.isSome) : 0 < work c.id s := by
  have hshare : share c.id c = c.weight := if_pos (Nat.le_refl _)
  have hpos : 0 < c.weight := by simp [Progress.weight, hsome]
  unfold work
  rw [shares_split h.nodup hc, hshare]
  omega

/-- What the runs keep. -/
structure RunInv (s : Netio) : Prop extends s.Inv where
  ordered : s.Ordered

theorem RunInv.step (h : s.RunInv) (hst : (netio R recvWindow sunPathSize).step s e = some t) :
    t.RunInv :=
  ⟨h.toInv.step hst, h.ordered.step h.toInv hst⟩

theorem RunInv.of_reachable (h : (netio R recvWindow sunPathSize).Reachable {} s) : s.RunInv :=
  h.invariant ⟨Inv.empty, List.Pairwise.nil⟩ fun _ _ _ hs hst => hs.step hst

/-- **A connection comes to its end**: when its socket has been found ready as often as there was
work to do, `set_connect_fds` leaves it settled. -/
theorem settled_of_work_le (h : s.RunInv) (hk : k < s.made) {es : List NetioEvent}
    (hrun : (netio R recvWindow sunPathSize).exec s es = some t)
    (hcount : work k s ≤ (netio R recvWindow sunPathSize).count (foundReady k) s es)
    (attempt : ℕ → ℕ → Attempt) : k ∈ (t.setConnectFds attempt).calls.map (·.conn) := by
  have hrank := LTS.count_add_le (G := foundReady k) (J := fun s => s.RunInv ∧ k < s.made)
    (f := work k) ⟨h, hk⟩
    (fun s e t hs hst => ⟨hs.1.step hst, hs.2.trans_le (made_le_step hs.1.toInv hst)⟩)
    (fun s e t hs hst => work_step_le hs.1.toInv hs.2 hst)
    (fun s e t hs hready hst => work_step_lt hs.1.toInv hs.1.ordered hready hst) hrun
  have hend : t.RunInv ∧ k < t.made :=
    LTS.exec_invariant' (I := fun s => s.RunInv ∧ k < s.made) ⟨h, hk⟩
      (fun s e t hs hst => ⟨hs.1.step hst, hs.2.trans_le (made_le_step hs.1.toInv hst)⟩) hrun
  have hnext := hend.1.toInv.setConnectFds attempt
  have hwinds := winds_setConnectFds hend.1.toInv attempt
  have hlt : k < (t.setConnectFds attempt).made := by
    rw [hwinds.made]
    exact hend.2
  rcases hnext.conns.open_or_settled.1 hlt with hopen | hsettled
  · -- it would have a socket, and work left
    obtain ⟨c, hc, rfl⟩ := List.mem_map.1 hopen
    have hpos := work_pos hnext hc (isSome_of_mem_setConnectFds hc)
    have hle := hwinds.work_le (k := c.id)
    omega
  · exact hsettled

end Runs

end Netio

/-- **Pending connections are settled exactly once.**  In every state of a session:

* each connection that was made is pending, or its callback has been called, once; and not both;
* each socket that was made is held by a pending connection, or was closed, or was handed to a
  channel, once;
* the sockets of channels were handed to them by their callbacks;
* a pending connection will call `channel_connect_done` for its own channel, which is there, or
  `cancel_callback` if that channel is gone;
* so did every call that was made;
* from here on, the connection is settled when its socket has been found ready as often as there
  is work left for it and those before it, whatever else happens. -/
theorem netio_settles {R : Restriction} {recvWindow sunPathSize : ℕ} {s : Netio}
    (h : (netio R recvWindow sunPathSize).Reachable {} s) :
    Ledger (s.pending.map (·.id)) (s.calls.map (·.conn)) s.made ∧
      Ledger (s.pending.filterMap (·.sock)) (s.sockets.closed ++ s.handed.map (·.1))
        s.sockets.made ∧
      s.handed = s.calls.filterMap ConnectCall.hands ∧
      (∀ c ∈ s.pending, Netio.Waits s.chans c) ∧
      (∀ x ∈ s.calls, x.Right) ∧
      ∀ k < s.made, ∀ es t attempt, (netio R recvWindow sunPathSize).exec s es = some t →
        s.work k ≤ (netio R recvWindow sunPathSize).count (Netio.foundReady k) s es →
        k ∈ (t.setConnectFds attempt).calls.map (·.conn) := by
  have hinv := Netio.RunInv.of_reachable h
  refine ⟨hinv.conns, hinv.socks, hinv.hands, hinv.waits, hinv.right, ?_⟩
  intro k hk es t attempt hrun hcount
  exact Netio.settled_of_work_le hinv hk hrun hcount attempt

/-- Every address lets itself be tried. -/
def goingAttempt (_ _ : ℕ) : Attempt := ⟨true, none, none⟩

/-- Two channels are opened, one to a host with two addresses and one to a socket, and the first is
closed by the peer while its connection is on its way.  Its first address fails, and the second
connection stands. -/
def closedEarly : List NetioEvent :=
  [.openDirect 1000 1000 (.remote (.ok [.inet, .inet])),
    .openDirect 1000 1000 (.streamlocal (ascii "/tmp/s")),
    .setConnectFds goingAttempt,
    .life 0 .recvClose, .life 0 .check, .life 0 .flush, .life 0 .closeUp,
    .handleConnectFds (fun _ => true) fun k => if k = 0 then .error [] else .connected]

/-- Then the other address is tried. -/
def secondAddress : List NetioEvent :=
  [.setConnectFds goingAttempt, .handleConnectFds (fun _ => true) fun _ => .connected]

/-- The connection of the channel that went early is settled by `cancel_callback`. -/
theorem netio_settles_closedEarly : ∃ s t,
    (netio ⟨none, none⟩ 24576 104).exec {} closedEarly = some s ∧
      (netio ⟨none, none⟩ 24576 104).exec s secondAddress = some t ∧
      s.calls.map (fun x => (x.conn, x.cb)) = [(1, .channelConnectDone 1)] ∧
      t.calls.map (fun x => (x.conn, x.cb)) = [(0, .cancelCallback), (1, .channelConnectDone 1)] ∧
      t.sockets.closed = [2, 0] ∧ t.handed = [(1, 1)] ∧
      Ledger (t.pending.map (·.id)) (t.calls.map (·.conn)) t.made ∧
      0 ∈ (t.setConnectFds goingAttempt).calls.map (·.conn) := by
  obtain ⟨s, hs⟩ := Option.isSome_iff_exists.1
    (show ((netio ⟨none, none⟩ 24576 104).exec {} closedEarly).isSome by decide)
  obtain ⟨t, ht⟩ := Option.isSome_iff_exists.1
    (show ((netio ⟨none, none⟩ 24576 104).exec {} (closedEarly ++ secondAddress)).isSome by
      decide)
  obtain ⟨s', hs', hst⟩ := LTS.exec_append_eq_some.1 ht
  cases hs.symm.trans hs'
  have hlook : (((netio ⟨none, none⟩ 24576 104).exec {} closedEarly).map fun s =>
      (s.calls.map fun x => (x.conn, x.cb), decide (0 < s.made), decide (s.work 0 ≤
        (netio ⟨none, none⟩ 24576 104).count (Netio.foundReady 0) s secondAddress))) =
      some ([(1, .channelConnectDone 1)], true, true) := by
    decide
  have hend : (((netio ⟨none, none⟩ 24576 104).exec {} (closedEarly ++ secondAddress)).map fun t =>
      (t.calls.map fun x => (x.conn, x.cb), t.sockets.closed, t.handed)) =
      some ([(0, .cancelCallback), (1, .channelConnectDone 1)], [2, 0], [(1, 1)]) := by
    decide
  rw [hs] at hlook
  rw [ht] at hend
  simp only [Option.map_some, Option.some.injEq, Prod.mk.injEq, decide_eq_true_eq] at hlook hend
  refine ⟨s, t, hs, hst, hlook.1, hend.1, hend.2.1, hend.2.2, ?_, ?_⟩
  · exact (netio_settles ⟨_, ht⟩).1
  · exact (netio_settles ⟨_, hs⟩).2.2.2.2.2 0 hlook.2.1 _ t goingAttempt hst hlook.2.2

end Ps4Dropbear
