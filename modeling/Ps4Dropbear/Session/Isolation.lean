import Ps4Dropbear.Session.Serial

/-!
# Isolation of serial sessions

A session is isolated from the earlier ones if it sends what it would have sent as the first
session of the process, whatever the client sends and the system answers.  Clearing `ses` and
`svr_ses` and restoring the tables is enough for this, but two things outlive a session: the banner
is freed by the first request for authentication, and a login of an account other than `root`
changes the ids of the process for good.

* `serialSession_cases` : what a step does to the globals.
* `SessionInv` : what holds throughout a session.
* `Serial.retarget` : up to its first request for authentication, a session does not depend on the
  banner and the ids.
* `serial_isolated_iff` : the exact condition under which a further session is isolated.
-/

namespace Ps4Dropbear

variable {C : Type} {kern : IdCalls C} {o : SvrOpts} {K : KexCrypto} {host host' : C → Host}
  {σ τ : Serial C} {s s' : Session} {p : SerialPacket C} {h : Handler} {ev : SerialEvent C}
  {g g' g₀ : Globals C} {script : Script C}

/-- A request for authentication has been handled. -/
def HandledUserauth (s : Session) : Prop :=
  ∃ type, (type, Handler.recvMsgUserauthRequest) ∈ s.ran

instance (s : Session) : Decidable (HandledUserauth s) :=
  decidable_of_iff (∃ e ∈ s.ran, e.2 = .recvMsgUserauthRequest)
    ⟨fun ⟨e, he, h⟩ => ⟨e.1, h ▸ he⟩, fun ⟨_, h⟩ => ⟨_, h, rfl⟩⟩

/-! ### What a step does to the globals -/

/-- The globals are the same for the next session. -/
structure SameGlobals (g g' : Globals C) : Prop where
  banner : g'.banner = g.banner
  creds : g'.creds = g.creds
  tables : svrAlgosInitialise g'.tables = svrAlgosInitialise g.tables

theorem SameGlobals.refl (g : Globals C) : SameGlobals g g := ⟨rfl, rfl, rfl⟩

theorem serialKexdhInit_glob : SameGlobals σ.glob (serialKexdhInit K σ s p).glob := by
  unfold serialKexdhInit
  dsimp only
  split
  · exact .refl _
  · refine ⟨rfl, rfl, ?_⟩
    dsimp only
    split
    · split_ifs
      · rfl
      · exact svrAlgosInitialise_disableSigExcept _ _
    · rfl

/-- Only a request for authentication changes the banner and the ids. -/
theorem serialHandler_glob (hne : h ≠ .recvMsgUserauthRequest) :
    SameGlobals σ.glob (serialHandler kern o K host σ s p h).glob := by
  cases h with
  | recvMsgUserauthRequest => exact absurd rfl hne
  | recvMsgKexdhInit => exact serialKexdhInit_glob
  | _ => exact .refl _

theorem serialUserauthRequest_glob :
    (serialUserauthRequest kern o host σ s p).glob.tables = σ.glob.tables ∧
      (serialUserauthRequest kern o host σ s p).glob.banner =
        if s.authstate.authdone then σ.glob.banner else none := by
  unfold serialUserauthRequest
  split_ifs
  · exact ⟨rfl, rfl⟩
  · dsimp only
    split
    · exact ⟨rfl, rfl⟩
    · split <;> exact ⟨rfl, rfl⟩

/-- The other handlers leave user authentication alone. -/
theorem runHandler_authstate {H : Host} {M : KexMethods} {q : Packet}
    (hne : h ≠ .recvMsgUserauthRequest) (hr : runHandler H o M s h q = .ok s') :
    s'.authstate = s.authstate := by
  cases h with
  | recvMsgUserauthRequest => exact absurd rfl hne
  | recvMsgKexinit => exact (recvMsgKexinit_ok hr).1.authstate
  | recvMsgKexdhInit => exact (recvMsgKexdhInit_ok hr).1.authstate
  | recvMsgNewkeys => exact (recvMsgNewkeys_ok hr).1.authstate
  | recvMsgServiceRequest =>
    obtain ⟨sent, rfl⟩ := recvMsgServiceRequest_ok hr
    rfl
  | _ =>
    simp only [runHandler, bind_eq_ok, pure_eq_ok] at hr
    obtain ⟨c, -, rfl⟩ := hr
    rfl

theorem mem_append_handler {ran : List (ℕ × Handler)} {type : ℕ}
    (hne : h ≠ .recvMsgUserauthRequest) :
    (∃ t, (t, Handler.recvMsgUserauthRequest) ∈ ran ++ [(type, h)]) ↔
      ∃ t, (t, Handler.recvMsgUserauthRequest) ∈ ran := by
  refine exists_congr fun t => ?_
  rw [List.mem_append, List.mem_singleton, Prod.mk.injEq]
  exact or_iff_left fun hth => hne hth.2.symm

/-- The step handles no request: the globals are as good as before, and so is the state of user
authentication. -/
structure QuietStep (σ τ : Serial C) : Prop where
  glob : SameGlobals σ.glob τ.glob
  authstate : τ.ses.authstate = σ.ses.authstate
  handled : HandledUserauth τ.ses ↔ HandledUserauth σ.ses

/-- The step handles a request; the first one takes the banner. -/
structure RequestStep (σ τ : Serial C) : Prop where
  handled : HandledUserauth τ.ses
  tables : τ.glob.tables = σ.glob.tables
  banner : τ.glob.banner = if σ.ses.authstate.authdone then σ.glob.banner else none

/-- The packet that a handler is called for, and what the handler finds. -/
def Session.calling (s : Session) (type : ℕ) (h : Handler) : Session :=
  { s with requirenext := 0, ran := s.ran ++ [(type, h)] }

theorem serialHandler_ok (hr : (serialHandler kern o K host σ s p h).result = .ok s') :
    s'.ran = s.ran ∧ (h ≠ .recvMsgUserauthRequest → s'.authstate = s.authstate) := by
  obtain ⟨r, hrun⟩ : ∃ r, (serialHandler kern o K host σ s p h).result = _ :=
    serialHandler_result h
  rw [hr] at hrun
  exact ⟨(runHandler_effect hrun.symm).ran, fun hne => runHandler_authstate hne hrun.symm⟩

/-- A packet is answered without a handler, or a handler is called. -/
theorem serialPacket_inv :
    ((serialPacket kern o K host σ s p).glob = σ.glob ∧
      (serialPacket kern o K host σ s p).ses.ran = s.ran ∧
      (serialPacket kern o K host σ s p).ses.authstate = s.authstate) ∨
    ∃ type h,
      (serialPacket kern o K host σ s p).glob =
        (serialHandler kern o K host σ (s.calling type h) p h).glob ∧
      (serialPacket kern o K host σ s p).ses.ran = s.ran ++ [(type, h)] ∧
      (h ≠ .recvMsgUserauthRequest →
        (serialPacket kern o K host σ s p).ses.authstate = s.authstate) := by
  unfold serialPacket
  split
  · exact .inl ⟨rfl, rfl, rfl⟩
  · next type buf _ =>
    split
    · exact .inl ⟨rfl, rfl, rfl⟩
    · next s₁ ha =>
      obtain ⟨⟨hauth, -, hran⟩, -⟩ := acceptPacket_none ha
      exact .inl ⟨rfl, hran, hauth⟩
    · next s₁ h ha =>
      obtain ⟨rfl, -⟩ := acceptPacket_some ha
      refine .inr ⟨type.toNat, h, ?_⟩
      dsimp only
      split
      · exact ⟨rfl, rfl, fun _ => rfl⟩
      · next s₂ hr =>
        obtain ⟨hran, hauth⟩ := serialHandler_ok hr
        exact ⟨rfl, hran, hauth⟩

theorem serialPacket_cases (hauth : s.authstate = σ.ses.authstate) (hran : s.ran = σ.ses.ran) :
    QuietStep σ (serialPacket kern o K host σ s p) ∨
      RequestStep σ (serialPacket kern o K host σ s p) := by
  rcases serialPacket_inv with ⟨hglob, hran', hauth'⟩ | ⟨type, h, hglob, hran', hauth'⟩
  · refine .inl ⟨?_, hauth'.trans hauth, ?_⟩
    · rw [hglob]
      exact .refl _
    · simp only [HandledUserauth, hran', hran]
  · by_cases hreq : h = .recvMsgUserauthRequest
    · subst hreq
      obtain ⟨htables, hbanner⟩ : _ ∧ (serialUserauthRequest kern o host σ
          (s.calling type .recvMsgUserauthRequest) p).glob.banner = _ := serialUserauthRequest_glob
      refine .inr ⟨⟨type, ?_⟩, ?_, ?_⟩
      · rw [hran']
        exact List.mem_append_right _ List.mem_cons_self
      · rw [hglob]
        exact htables
      · rw [hglob, ← hauth]
        exact hbanner
    · refine .inl ⟨?_, (hauth' hreq).trans hauth, ?_⟩
      · rw [hglob]
        exact serialHandler_glob hreq
      · simp only [HandledUserauth, hran', hran]
        exact mem_append_handler hreq

/-- **What a step does to the globals**: nothing that the next session sees, unless it handles a
request for authentication. -/
theorem serialSession_cases (h : (serialSession kern o K host).step σ ev = some τ) :
    QuietStep σ τ ∨ RequestStep σ τ := by
  simp only [serialSession] at h
  by_cases hend : σ.ses.ended.isSome = true
  · rw [if_pos hend] at h
    cases h
  rw [if_neg hend] at h
  cases ev with
  | ident line =>
    cases h
    exact .inl ⟨.refl _, rfl, Iff.rfl⟩
  | packet p =>
    simp only at h
    split_ifs at h
    cases h
    exact serialPacket_cases rfl rfl
  | timer rekey close rand =>
    cases close with
    | some msg =>
      cases h
      exact .inl ⟨.refl _, rfl, Iff.rfl⟩
    | none =>
      simp only at h
      split_ifs at h <;> cases h <;> exact .inl ⟨.refl _, rfl, Iff.rfl⟩
  | channelDone index unlistens =>
    cases h
    exact .inl ⟨.refl _, rfl, Iff.rfl⟩
  | accept listener opens =>
    simp only at h
    split_ifs at h <;> cases h <;> exact .inl ⟨.refl _, rfl, Iff.rfl⟩
  | loop sends =>
    simp only at h
    split_ifs at h
    cases h
    exact .inl ⟨.refl _, rfl, Iff.rfl⟩

/-! ### Sessions -/

/-- What holds throughout a session that starts with the globals `g`: nothing has been lost yet, or
a request has been handled and the banner is gone. -/
structure SessionInv (o : SvrOpts) (g : Globals C) (σ : Serial C) : Prop where
  tables : svrAlgosInitialise σ.glob.tables = svrAlgosInitialise g.tables
  fresh : ¬ HandledUserauth σ.ses → σ.ses.authstate = svrAuthinitialise o g.banner ∧
    σ.glob.banner = g.banner ∧ σ.glob.creds = g.creds
  banner : HandledUserauth σ.ses → σ.glob.banner = none

theorem SessionInv.start (g : Globals C) (rand : Bytes) : SessionInv o g (serialStart o g rand) where
  tables := svrAlgosInitialise_idem g.tables
  fresh := fun _ => ⟨rfl, rfl, rfl⟩
  banner := by rintro ⟨type, hmem⟩; cases hmem

theorem SessionInv.step (hI : SessionInv o g σ)
    (hst : (serialSession kern o K host).step σ ev = some τ) : SessionInv o g τ := by
  rcases serialSession_cases hst with hq | hr
  · refine ⟨hq.glob.tables.trans hI.tables, ?_, ?_⟩
    · intro hnot
      obtain ⟨hauth, hbanner, hcreds⟩ := hI.fresh (fun hh => hnot (hq.handled.2 hh))
      exact ⟨hq.authstate.trans hauth, hq.glob.banner.trans hbanner, hq.glob.creds.trans hcreds⟩
    · intro hh
      exact hq.glob.banner.trans (hI.banner (hq.handled.1 hh))
  · refine ⟨?_, fun hnot => absurd hr.handled hnot, ?_⟩
    · rw [hr.tables]
      exact hI.tables
    · intro _
      rw [hr.banner]
      by_cases hh : HandledUserauth σ.ses
      · rw [hI.banner hh]
        split_ifs <;> rfl
      · -- before the first request there is no authentication
        rw [(hI.fresh hh).1]
        rfl

theorem SessionInv.serve (hs : serveSession kern o K g script = some σ) : SessionInv o g σ :=
  LTS.exec_invariant' (.start g script.rand) (fun _ _ _ hI hst => hI.step hst) hs

/-! ### The process -/

/-- The session of a connection handles a request for authentication. -/
def HandlesUserauth (kern : IdCalls C) (o : SvrOpts) (K : KexCrypto) (g : Globals C)
    (script : Script C) : Prop :=
  ∃ σ, serveSession kern o K g script = some σ ∧ HandledUserauth σ.ses

theorem serialProcess_step (hst : (serialProcess kern o K).step g script = some g') :
    ∃ σ, serveSession kern o K g script = some σ ∧ g' = σ.glob := by
  simp only [serialProcess, Option.bind_eq_some_iff] at hst
  obtain ⟨σ, hσ, hend⟩ := hst
  split_ifs at hend
  cases hend
  exact ⟨σ, hσ, rfl⟩

/-- Whatever the sessions do, the next one starts with the same tables. -/
theorem serialProcess_tables {earlier : List (Script C)}
    (hrun : (serialProcess kern o K).exec g₀ earlier = some g) :
    svrAlgosInitialise g.tables = svrAlgosInitialise g₀.tables := by
  refine LTS.exec_invariant'
    (I := fun g => svrAlgosInitialise g.tables = svrAlgosInitialise g₀.tables) rfl ?_ hrun
  intro g script g' hI hst
  obtain ⟨σ, hσ, rfl⟩ := serialProcess_step hst
  exact (SessionInv.serve hσ).tables.trans hI

/-- Sessions without a request for authentication leave the banner and the ids. -/
theorem serialProcess_same {earlier : List (Script C)}
    (hquiet : (serialProcess kern o K).Along (fun g script => ¬ HandlesUserauth kern o K g script)
      g₀ earlier)
    (hrun : (serialProcess kern o K).exec g₀ earlier = some g) :
    g.banner = g₀.banner ∧ g.creds = g₀.creds := by
  refine LTS.exec_invariant (I := fun g : Globals C => g.banner = g₀.banner ∧ g.creds = g₀.creds)
    ⟨rfl, rfl⟩ ?_ hquiet hrun
  rintro g script g' ⟨hbanner, hcreds⟩ hnot hst
  obtain ⟨σ, hσ, rfl⟩ := serialProcess_step hst
  obtain ⟨-, hb, hc⟩ := (SessionInv.serve hσ).fresh fun hh => hnot ⟨σ, hσ, hh⟩
  exact ⟨hb.trans hbanner, hc.trans hcreds⟩

/-- A banner that is gone does not come back. -/
theorem serialProcess_banner_none (hnone : g.banner = none)
    (hst : (serialProcess kern o K).step g script = some g') : g'.banner = none := by
  obtain ⟨σ, hσ, rfl⟩ := serialProcess_step hst
  have hI := SessionInv.serve hσ
  by_cases hh : HandledUserauth σ.ses
  · exact hI.banner hh
  · exact (hI.fresh hh).2.1.trans hnone

/-- If a session has handled a request, the banner is gone. -/
theorem serialProcess_handled {earlier : List (Script C)}
    (hrun : (serialProcess kern o K).exec g₀ earlier = some g)
    (hnot : ¬ (serialProcess kern o K).Along
      (fun g script => ¬ HandlesUserauth kern o K g script) g₀ earlier) :
    g.banner = none ∧ ∃ g₁ script, svrAlgosInitialise g₁.tables = svrAlgosInitialise g₀.tables ∧
      HandlesUserauth kern o K g₁ script := by
  rw [LTS.along_iff] at hnot
  push Not at hnot
  obtain ⟨pre, script, post, g₁, rfl, hpre, hhandles⟩ := hnot
  refine ⟨?_, g₁, script, serialProcess_tables hpre, hhandles⟩
  rw [LTS.exec_append, hpre, Option.bind_some] at hrun
  obtain ⟨g₂, hst, hpost⟩ := LTS.exec_cons_eq_some.1 hrun
  refine LTS.exec_invariant' (I := fun g : Globals C => g.banner = none) ?_
    (fun _ _ _ hI hst => serialProcess_banner_none hI hst) hpost
  obtain ⟨σ, hσ, rfl⟩ := serialProcess_step hst
  obtain ⟨σ', hσ', hh⟩ := hhandles
  rw [hσ] at hσ'
  cases hσ'
  exact (SessionInv.serve hσ).banner hh

/-! ### The same session with another banner and other ids -/

/-- The session with another banner. -/
def Session.setBanner (s : Session) (b : Option Bytes) : Session :=
  { s with authstate := { s.authstate with banner := b } }

/-- The session in a process with another banner and other ids. -/
def Serial.retarget (σ : Serial C) (b : Option Bytes) (c : C) : Serial C :=
  { σ with glob := ⟨b, σ.glob.tables, c⟩, ses := σ.ses.setBanner b }

theorem switchKeys_setBanner (s : Session) (b : Option Bytes) :
    switchKeys (s.setBanner b) = (switchKeys s).map (·.setBanner b) := by
  simp only [switchKeys]
  by_cases hk : (!(s.kexstate.sentkexinit && s.kexstate.recvkexinit)) = true
  · rw [if_pos hk]
    exact if_pos hk
  · rw [if_neg hk]
    refine (if_neg hk).trans ?_
    have hnewkeys : (s.setBanner b).newkeys = s.newkeys := rfl
    rw [hnewkeys]
    cases s.newkeys with
    | none => rfl
    | some n =>
      dsimp only
      by_cases hb : (s.kexstate.sentnewkeys && s.kexstate.recvnewkeys) = true
      · rw [if_pos hb]
        exact if_pos hb
      · rw [if_neg hb]
        exact if_neg hb

/-- The rule for a computation in two parts. -/
theorem bind_setBanner {x x' : Except Exit Session} {f f' : Session → Except Exit Session}
    {b : Option Bytes} (hx : x.map (·.setBanner b) = x')
    (hf : ∀ s, f' (s.setBanner b) = (f s).map (·.setBanner b)) :
    x' >>= f' = (x >>= f).map (·.setBanner b) := by
  rw [← hx]
  cases x with
  | error msg => rfl
  | ok s => exact hf s

theorem sendMsgNewkeys_setBanner (s : Session) (b : Option Bytes) :
    sendMsgNewkeys (s.setBanner b) = (sendMsgNewkeys s).map (·.setBanner b) := by
  refine bind_setBanner (switchKeys_setBanner _ b).symm fun s₁ => ?_
  by_cases hk : s₁.kexstate.strictKex = true
  · simp only [if_pos hk, if_pos (show (s₁.setBanner b).kexstate.strictKex = true from hk)]
    rfl
  · simp only [if_neg hk, if_neg (show ¬ (s₁.setBanner b).kexstate.strictKex = true from hk)]
    rfl

theorem recvMsgNewkeys_setBanner (s : Session) (b : Option Bytes) :
    recvMsgNewkeys (s.setBanner b) = (recvMsgNewkeys s).map (·.setBanner b) := by
  refine bind_setBanner (switchKeys_setBanner _ b).symm fun s₁ => ?_
  by_cases hk : s₁.kexstate.strictKex = true
  · simp only [if_pos hk, if_pos (show (s₁.setBanner b).kexstate.strictKex = true from hk)]
    rfl
  · simp only [if_neg hk, if_neg (show ¬ (s₁.setBanner b).kexstate.strictKex = true from hk)]
    rfl

theorem readKexinit_setBanner (M : KexMethods) (s : Session) (b : Option Bytes) (buf : Buffer) :
    readKexinit M (s.setBanner b) buf = (readKexinit M s buf).map (·.setBanner b) := by
  simp only [readKexinit]
  by_cases hk : s.kexstate.recvkexinit = true
  · rw [if_pos hk]
    exact if_pos hk
  · rw [if_neg hk]
    refine (if_neg hk).trans ?_
    cases M.readKexAlgos buf with
    | error msg => rfl
    | ok offer =>
      simp only [ok_bind]
      by_cases hstrict : ((s.kexstate.strictKex || (!s.kexstate.donefirstkex && offer.strict)) &&
          !s.kexstate.donefirstkex && s.recvseq != 1) = true
      · rw [if_pos hstrict]
        exact if_pos hstrict
      · rw [if_neg hstrict]
        exact if_neg hstrict

theorem recvMsgKexinit_setBanner (M : KexMethods) (s : Session) (b : Option Bytes)
    (buf : Buffer) :
    recvMsgKexinit M (s.setBanner b) buf = (recvMsgKexinit M s buf).map (·.setBanner b) := by
  unfold recvMsgKexinit
  by_cases hk : s.kexstate.sentkexinit = true
  · rw [if_pos hk, if_pos (show (s.setBanner b).kexstate.sentkexinit = true from hk)]
    exact readKexinit_setBanner M s b buf
  · rw [if_neg hk, if_neg (show ¬ (s.setBanner b).kexstate.sentkexinit = true from hk)]
    exact readKexinit_setBanner M (sendMsgKexinit s) b buf

theorem recvMsgKexdhInit_setBanner (M : KexMethods) (s : Session) (b : Option Bytes)
    (buf : Buffer) :
    recvMsgKexdhInit M (s.setBanner b) buf = (recvMsgKexdhInit M s buf).map (·.setBanner b) := by
  simp only [recvMsgKexdhInit]
  by_cases hk : (!s.kexstate.recvkexinit) = true
  · rw [if_pos hk]
    exact if_pos hk
  · rw [if_neg hk]
    refine (if_neg hk).trans ?_
    cases M.kexdhReply buf with
    | error msg => rfl
    | ok hash => exact bind_setBanner (sendMsgNewkeys_setBanner _ b).symm fun s₁ => rfl

theorem recvMsgServiceRequest_setBanner (s : Session) (b : Option Bytes) (buf : Buffer) :
    recvMsgServiceRequest (s.setBanner b) buf =
      (recvMsgServiceRequest s buf).map (·.setBanner b) := by
  simp only [recvMsgServiceRequest]
  cases bufGetstring buf with
  | error msg => rfl
  | ok x =>
    simp only [ok_bind]
    change (if _ then _ else if _ then (if (!s.authstate.authdone) = true then _ else _) else _) = _
    split_ifs <;> rfl

theorem acceptPacket_setBanner (s : Session) (b : Option Bytes) (type : ℕ) :
    acceptPacket (s.setBanner b) type =
      (acceptPacket s type).map fun x => (x.1.setBanner b, x.2) := by
  simp only [acceptPacket]
  have hauth : (s.setBanner b).authstate.authdone = s.authstate.authdone := rfl
  have hkex : (s.setBanner b).kexstate = s.kexstate := rfl
  have hreq : (s.setBanner b).requirenext = s.requirenext := rfl
  have hign : (s.setBanner b).ignorenext = s.ignorenext := rfl
  rw [hauth, hkex, hreq, hign]
  split_ifs
  all_goals first | rfl | skip
  cases findHandler type <;> rfl

/-- The outcome in a process with another banner and other ids. -/
def HandlerOutcome.retarget (out : HandlerOutcome C) (b : Option Bytes) (c : C) : HandlerOutcome C :=
  ⟨out.result.map (·.setBanner b), ⟨b, out.glob.tables, c⟩, out.kex, out.sent⟩

theorem serialKexdhInit_retarget (b : Option Bytes) (c : C) :
    serialKexdhInit K (σ.retarget b c) (s.setBanner b) p =
      (serialKexdhInit K σ s p).retarget b c := by
  have hrun := recvMsgKexdhInit_setBanner (kexMethods K σ.glob.tables σ.kex p.rand) s b
    (p.at σ.glob.creds).payload.buf
  unfold serialKexdhInit
  dsimp only
  rw [show recvMsgKexdhInit (kexMethods K (σ.retarget b c).glob.tables (σ.retarget b c).kex p.rand)
    (s.setBanner b) (p.at (σ.retarget b c).glob.creds).payload.buf = _ from hrun]
  cases recvMsgKexdhInit (kexMethods K σ.glob.tables σ.kex p.rand) s
    (p.at σ.glob.creds).payload.buf <;> rfl

/-- Before authentication, the handlers other than the one for requests do not look at the banner
and the ids. -/
theorem serialHandler_retarget (b : Option Bytes) (c : C) (hne : h ≠ .recvMsgUserauthRequest)
    (hconn : ¬ h.IsConnection) :
    serialHandler kern o K host' (σ.retarget b c) (s.setBanner b) p h =
      (serialHandler kern o K host σ s p h).retarget b c := by
  cases h with
  | recvMsgUserauthRequest => exact absurd rfl hne
  | recvMsgKexinit =>
    have hrun := recvMsgKexinit_setBanner (kexMethods K σ.glob.tables σ.kex p.rand) s b
      (p.at σ.glob.creds).payload.buf
    exact congrArg (fun r => (⟨r, _, _, _⟩ : HandlerOutcome C)) hrun
  | recvMsgKexdhInit => exact serialKexdhInit_retarget b c
  | recvMsgNewkeys =>
    exact congrArg (fun r => (⟨r, _, _, _⟩ : HandlerOutcome C)) (recvMsgNewkeys_setBanner s b)
  | recvMsgServiceRequest =>
    have hrun := recvMsgServiceRequest_setBanner s b (p.at σ.glob.creds).payload.buf
    exact congrArg (fun r => (⟨r, _, _, _⟩ : HandlerOutcome C)) hrun
  | _ => exact absurd trivial hconn

theorem serialPacket_retarget (b : Option Bytes) (c : C) (hauth : s.authstate.authdone = false)
    (hnot : ¬ HandledUserauth (serialPacket kern o K host σ s p).ses) :
    serialPacket kern o K host' (σ.retarget b c) (s.setBanner b) p =
      (serialPacket kern o K host σ s p).retarget b c := by
  unfold serialPacket at hnot ⊢
  cases hbyte : bufGetbyte p.raw with
  | error msg => rfl
  | ok x =>
    obtain ⟨type, buf⟩ := x
    simp only [hbyte] at hnot
    simp only [acceptPacket_setBanner]
    cases ha : acceptPacket s type.toNat with
    | error msg => rfl
    | ok y =>
      obtain ⟨s₁, h⟩ := y
      simp only [ha] at hnot
      cases h with
      | none => rfl
      | some h =>
        obtain ⟨rfl, hfound, -, hgate⟩ := acceptPacket_some ha
        have hconn : ¬ h.IsConnection := by
          intro hc
          have := hgate (findHandler_connection hfound hc)
          rw [hauth] at this
          cases this
        have hne : h ≠ .recvMsgUserauthRequest := by
          rintro rfl
          apply hnot
          refine ⟨type.toNat, ?_⟩
          simp only
          split
          · exact List.mem_append_right _ List.mem_cons_self
          · next s₂ hr =>
            refine (serialHandler_ok hr).1 ▸ ?_
            exact List.mem_append_right _ List.mem_cons_self
        have hout : serialHandler kern o K host' (σ.retarget b c)
            (Session.setBanner { s with requirenext := 0, ran := s.ran ++ [(type.toNat, h)] } b) p h =
            (serialHandler kern o K host σ
              { s with requirenext := 0, ran := s.ran ++ [(type.toNat, h)] } p h).retarget b c :=
          serialHandler_retarget b c hne hconn
        simp only [Except.map]
        rw [show serialHandler kern o K host' (σ.retarget b c)
          { ({ s with requirenext := 0 } : Session).setBanner b with
            ran := (({ s with requirenext := 0 } : Session).setBanner b).ran ++ [(type.toNat, h)] }
          p h = _ from hout]
        clear hnot hout
        generalize serialHandler kern o K host σ _ p h = out
        obtain ⟨result, glob, kex, sent⟩ := out
        cases result <;> rfl

/-- Up to the first request for authentication, a step does not depend on the banner and the
ids. -/
theorem serialSession_retarget (b : Option Bytes) (c : C)
    (hauth : σ.ses.authstate.authdone = false)
    (hst : (serialSession kern o K host).step σ ev = some τ) (hnot : ¬ HandledUserauth τ.ses) :
    (serialSession kern o K host').step (σ.retarget b c) ev = some (τ.retarget b c) := by
  simp only [serialSession] at hst ⊢
  by_cases hend : σ.ses.ended.isSome = true
  · rw [if_pos hend] at hst
    cases hst
  rw [if_neg hend] at hst
  rw [if_neg (show ¬ (σ.retarget b c).ses.ended.isSome = true from hend)]
  cases ev with
  | ident line =>
    cases hst
    rfl
  | packet p =>
    simp only at hst ⊢
    split_ifs at hst with hid
    cases hst
    rw [if_pos (show (σ.retarget b c).ses.remoteident = true from hid)]
    exact congrArg some (serialPacket_retarget
      (s := { σ.ses with recvseq := (σ.ses.recvseq + 1) % 2 ^ 32 }) b c hauth hnot)
  | timer rekey close rand =>
    cases close with
    | some msg =>
      cases hst
      rfl
    | none =>
      simp only at hst ⊢
      split_ifs at hst with hdue <;> cases hst
      · exact if_pos hdue
      · exact if_neg hdue
  | channelDone index unlistens =>
    cases hst
    rfl
  | accept listener opens =>
    simp only at hst ⊢
    split_ifs at hst with hmem hopens <;> cases hst
    · rw [if_pos (show listener ∈ (σ.retarget b c).ses.conn.listeners from hmem), if_pos hopens]
      rfl
    · rw [if_pos (show listener ∈ (σ.retarget b c).ses.conn.listeners from hmem), if_neg hopens]
  | loop sends =>
    simp only [hauth] at hst
    cases hst

theorem HandledUserauth.step (hh : HandledUserauth σ.ses)
    (hst : (serialSession kern o K host).step σ ev = some τ) : HandledUserauth τ.ses := by
  rcases serialSession_cases hst with hq | hr
  · exact hq.handled.2 hh
  · exact hr.handled

/-- Up to the first request for authentication, a session does not depend on the banner and the
ids. -/
theorem exec_retarget (b : Option Bytes) (c : C) {evs : List (SerialEvent C)}
    (hI : SessionInv o g σ) (hrun : (serialSession kern o K host).exec σ evs = some τ)
    (hnot : ¬ HandledUserauth τ.ses) :
    (serialSession kern o K host').exec (σ.retarget b c) evs = some (τ.retarget b c) := by
  induction evs generalizing σ with
  | nil =>
    cases hrun
    rfl
  | cons ev evs ih =>
    obtain ⟨σ₁, hst, hrest⟩ := LTS.exec_cons_eq_some.1 hrun
    -- a request that has been handled stays in the record
    have hnot₁ : ¬ HandledUserauth σ₁.ses := fun hh =>
      hnot (LTS.exec_invariant' (I := fun σ => HandledUserauth σ.ses) hh
        (fun _ _ _ hh hst => hh.step hst) hrest)
    have hnot₀ : ¬ HandledUserauth σ.ses := fun hh => hnot₁ (hh.step hst)
    have hauth : σ.ses.authstate.authdone = false := by
      rw [(hI.fresh hnot₀).1]
      rfl
    exact LTS.exec_cons_eq_some.2
      ⟨σ₁.retarget b c, serialSession_retarget b c hauth hst hnot₁, ih (hI.step hst) hrest⟩

theorem serialStart_retarget {g₁ : Globals C} (rand : Bytes)
    (ht : svrAlgosInitialise g.tables = svrAlgosInitialise g₁.tables) :
    serialStart o g rand = (serialStart o g₁ rand).retarget g.banner g.creds := by
  simp only [serialStart, ht]
  rfl

/-! ### A request that tells the processes apart -/

/-- The session is about to take a request for authentication. -/
structure AwaitsUserauth (σ : Serial C) : Prop where
  live : σ.ses.ended = none
  remoteident : σ.ses.remoteident = true
  accepts : ∃ s₁, acceptPacket { σ.ses with recvseq := (σ.ses.recvseq + 1) % 2 ^ 32 } 50 =
    .ok (s₁, some .recvMsgUserauthRequest)

/-- The packet for which the first request is handled has the type of one. -/
theorem awaitsUserauth_of_step (hst : (serialSession kern o K host).step σ ev = some τ)
    (hnot : ¬ HandledUserauth σ.ses) (hh : HandledUserauth τ.ses) : AwaitsUserauth σ := by
  have htable : ∀ e ∈ svrPackettypes, e.2 = Handler.recvMsgUserauthRequest → e.1 = 50 := by
    decide
  simp only [serialSession] at hst
  by_cases hend : σ.ses.ended.isSome = true
  · rw [if_pos hend] at hst
    cases hst
  rw [if_neg hend] at hst
  have hlive : σ.ses.ended = none := by simpa using hend
  cases ev with
  | ident line =>
    cases hst
    exact absurd hh hnot
  | packet p =>
    simp only at hst
    split_ifs at hst with hid
    cases hst
    refine ⟨hlive, hid, ?_⟩
    unfold serialPacket at hh
    split at hh
    · exact absurd hh hnot
    · next type buf _ =>
      split at hh
      · exact absurd hh hnot
      · next s₁ ha =>
        obtain ⟨⟨-, -, hran⟩, -⟩ := acceptPacket_none ha
        refine absurd ?_ hnot
        simpa only [HandledUserauth, hran] using hh
      · next s₁ h ha =>
        by_cases hreq : h = .recvMsgUserauthRequest
        · subst hreq
          have hfound := (acceptPacket_some ha).2.1
          have htype : type.toNat = 50 := htable _ (findHandler_mem hfound) rfl
          exact ⟨s₁, htype ▸ ha⟩
        · obtain ⟨rfl, -⟩ := acceptPacket_some ha
          have hmem : ∃ t, (t, Handler.recvMsgUserauthRequest) ∈
              σ.ses.ran ++ [(type.toNat, h)] := by
            simp only at hh
            split at hh
            · exact hh
            · next s₂ hr =>
              obtain ⟨t, ht⟩ := hh
              have hran := (serialHandler_ok hr).1
              exact ⟨t, (congrArg ((t, Handler.recvMsgUserauthRequest) ∈ ·) hran).mp ht⟩
          exact absurd ((mem_append_handler hreq).1 hmem) hnot
  | timer rekey close rand =>
    cases close with
    | some msg =>
      cases hst
      exact absurd hh hnot
    | none =>
      simp only at hst
      split_ifs at hst <;> cases hst <;> exact absurd hh hnot
  | channelDone index unlistens =>
    cases hst
    exact absurd hh hnot
  | accept listener opens =>
    simp only at hst
    split_ifs at hst <;> cases hst <;> exact absurd hh hnot
  | loop sends =>
    simp only at hst
    split_ifs at hst
    cases hst
    exact absurd hh hnot

/-- The blob of the probe: only the name of the key type. -/
def probeBlob : Bytes := sshString (ascii "ssh-ed25519")

/-- The `authorized_keys` with the entry that the probe asks for. -/
def probeFile : AuthFile where
  contents := ascii "ssh-ed25519 AAAAC3NzaC1lZDI1NTE5"

/-- The payload of a `publickey` query of the user `a`. -/
def probeRaw : Buffer :=
  Buffer.ofBytes (50 :: (encodeFields [ascii "a", ascii "ssh-connection", ascii "publickey"] ++
    [0] ++ encodeFields [ascii "ssh-ed25519", probeBlob])) (by decide)

/-- The query, with the file as it is readable. -/
def probePacket (authfile : C → Option AuthFile) : SerialPacket C where
  raw := probeRaw
  authfile := authfile
  conn := fun _ => {}
  replies := fun _ => []

/-- A system with the account `a`, which has the given id. -/
def probeHost (uid : ℕ) : Host :=
  { bareHost with
    getpwnam := fun u =>
      if u = ascii "a" then
        some ⟨uid, 0, ascii "a", ascii "/", ascii "/bin/sh", ascii "!!"⟩
      else none
    getpwnam_name := by
      intro u pw hpw
      split_ifs at hpw with hu
      cases hpw
      exact hu.symm
    checkGroupMembership := fun _ _ _ => true
    usershells := [ascii "/bin/sh"] }

/-- The payload of the query behind the method. -/
def probeBuf : Buffer := probeRaw.advance 37

theorem parse_probe :
    parseUserauthRequest (probeRaw.advance 1) = .ok (⟨ascii "a", ascii "publickey"⟩, probeBuf) :=
  rfl

theorem pubkeyVerdict_probe_some {H : Host} {sessionId : Bytes} {inp : AuthInput}
    (hf : inp.authfile = some probeFile) : pubkeyVerdict H sessionId inp probeBuf true =
      .ok (.query (ascii "ssh-ed25519") probeBlob) := by
  unfold pubkeyVerdict
  rw [hf]
  rfl

theorem pubkeyVerdict_probe_none {H : Host} {sessionId : Bytes} {inp : AuthInput}
    (hf : inp.authfile = none) : pubkeyVerdict H sessionId inp probeBuf true =
      .ok .unauthorised := by
  unfold pubkeyVerdict
  rw [hf]
  rfl

theorem pubkeyVerdict_probe_false {H : Host} {sessionId : Bytes} {inp : AuthInput} :
    pubkeyVerdict H sessionId inp probeBuf false = .ok .refused := rfl

/-- The answer to a query of a fresh session. -/
def probeReply (o : SvrOpts) (answered : Bool) : AuthReply :=
  if answered then .pkOk (ascii "ssh-ed25519") probeBlob
  else .failure (authMethods (svrAuthinitialise o none)) false

/-- A failure message for a session without failures does not end it. -/
theorem sendMsgUserauthFailure_first {a : AuthState} {incrfail : Bool} (hf : a.failcount = 0)
    (hi : incrfail = true → 0 < o.maxauthtries) :
    ∃ a', sendMsgUserauthFailure o a false incrfail = .ok a' ∧
      a'.sent = a.sent ++ [AuthReply.failure (authMethods a) false] ∧ a'.authdone = a.authdone := by
  unfold sendMsgUserauthFailure
  dsimp only
  rw [if_neg]
  · exact ⟨_, rfl, rfl, rfl⟩
  · rw [hf]
    split_ifs with h
    · have := hi h
      omega
    · omega

theorem checkAccount_of_pw {H : Host} {a : AuthState} {pw : Passwd} (hpw : a.pw = some pw)
    (hf : a.checkusernameFailed = false) :
    checkAccount H o a = (accountAllowed H o pw,
      { a with checkusernameFailed := !accountAllowed H o pw }) := by
  unfold checkAccount
  rw [hf, hpw]
  cases hacc : accountAllowed H o pw with
  | false => simp [hacc]
  | true =>
    simp only [hacc, Bool.false_eq_true, if_false, if_true, Bool.not_true, Prod.mk.injEq, true_and]
    rw [← hf, ← hpw]

/-- **The answer to the probe**: the banner if it is still there, and then the query is answered
if the account is allowed and the file is readable. -/
theorem recvMsgUserauthRequest_probe (H : Host) (sessionId : Bytes) (inp : AuthInput)
    (b : Option Bytes) (pw : Passwd) (hbuf : inp.payload.buf = probeRaw.advance 1)
    (hpw : fillPasswd H (ascii "a") = some pw)
    (hfile : inp.authfile = none ∨ inp.authfile = some probeFile) :
    ∃ a, recvMsgUserauthRequest H o sessionId (svrAuthinitialise o b) inp = .ok a ∧
      a.sent = (b.map AuthReply.banner).toList ++
        [probeReply o (accountAllowed H o pw && inp.authfile.isSome)] ∧ a.authdone = false := by
  have hcheck : checkusername H o (svrAuthinitialise o b).sendBanner (ascii "a") =
      .ok (accountAllowed H o pw,
        { (svrAuthinitialise o b).sendBanner.adopt H (ascii "a") with
          checkusernameFailed := !accountAllowed H o pw }) :=
    congrArg Except.ok (checkAccount_of_pw hpw rfl)
  rw [recvMsgUserauthRequest_eq rfl (hbuf ▸ parse_probe) hcheck, userauthMethod,
    if_neg (by decide), if_neg (by rintro ⟨-, h⟩; revert h; decide), if_pos rfl]
  unfold svrAuthPubkey
  cases accountAllowed H o pw with
  | false =>
    rw [pubkeyVerdict_probe_false, ok_bind]
    exact sendMsgUserauthFailure_first rfl (fun h => by cases h)
  | true =>
    rcases hfile with hf | hf
    · rw [pubkeyVerdict_probe_none hf, hf, ok_bind]
      -- the first failure ends no session: it is free, or there are tries left
      have hfree : decide (0 ≥ freeQueryLimit o.maxauthtries) = true → 0 < o.maxauthtries := by
        intro hle
        rcases Nat.eq_zero_or_pos o.maxauthtries with hz | hpos
        · rw [hz] at hle
          exact absurd hle (by decide)
        · exact hpos
      obtain ⟨a, ha, hsent, hdone⟩ := sendMsgUserauthFailure_first
        (a := { (svrAuthinitialise o b).sendBanner.adopt H (ascii "a") with
          checkusernameFailed := !true }) rfl hfree
      exact ⟨_, congrArg (· >>= _) ha, hsent, hdone⟩
    · rw [pubkeyVerdict_probe_some hf, hf, ok_bind]
      exact ⟨_, rfl, rfl, rfl⟩

/-- The account `a` of `probeHost`. -/
def probeAccount (uid : ℕ) : Passwd :=
  ⟨uid, 0, ascii "a", ascii "/", ascii "/bin/sh", ascii "!!"⟩

/-- What a process with the ids `c` answers to the probe. -/
def probeAnswered (kern : IdCalls C) (o : SvrOpts) (uid : ℕ) (authfile : C → Option AuthFile)
    (c : C) : Bool :=
  accountAllowed (hostAt kern (fun _ => probeHost uid) c (.ok ())) o (probeAccount uid) &&
    (authfile c).isSome

theorem serialUserauthRequest_probe (kern : IdCalls C) (uid : ℕ) (authfile : C → Option AuthFile)
    (σ : Serial C) (s : Session) (b : Option Bytes) (hs : s.authstate = svrAuthinitialise o b)
    (hfile : ∀ c, authfile c = none ∨ authfile c = some probeFile) :
    ∃ s', (serialUserauthRequest kern o (fun _ => probeHost uid) σ s (probePacket authfile)).result =
        .ok s' ∧
      (serialUserauthRequest kern o (fun _ => probeHost uid) σ s (probePacket authfile)).sent =
        ((b.map AuthReply.banner).toList ++
          [probeReply o (probeAnswered kern o uid authfile σ.glob.creds)]).map
            AuthReply.payload := by
  obtain ⟨a, ha, hsent, hdone⟩ : ∃ a, _ = Except.ok a ∧ _ := recvMsgUserauthRequest_probe (o := o)
    (hostAt kern (fun _ => probeHost uid) σ.glob.creds (.ok ())) (s.sessionId.getD [])
    ⟨((probePacket authfile).at σ.glob.creds).payload, authfile σ.glob.creds⟩ b
    (probeAccount uid) rfl rfl (hfile σ.glob.creds)
  unfold serialUserauthRequest
  rw [if_neg (by rw [hs]; exact Bool.false_ne_true)]
  dsimp only
  rw [hs, show recvMsgUserauthRequest _ o _ (svrAuthinitialise o b)
    ⟨((probePacket authfile).at σ.glob.creds).payload, (probePacket authfile).authfile σ.glob.creds⟩
      = _ from ha]
  simp only [hdone]
  refine ⟨_, rfl, ?_⟩
  rw [show (svrAuthinitialise o b).sent.length = 0 from rfl, List.drop_zero, hsent]
  rfl

/-- The account of the probe is allowed for a process whose ids fit. -/
theorem accountAllowed_probe {uid : ℕ} {c : C} (h₀ : uid ≠ 0)
    (h : kern.geteuid c ≠ 0 → kern.geteuid c = uid) :
    accountAllowed (hostAt kern (fun _ => probeHost uid) c (.ok ())) o (probeAccount uid) =
      true := by
  unfold accountAllowed
  rw [if_neg (by show ¬ ascii "a" = ascii "root"; decide), if_neg, if_neg, if_neg]
  · rfl
  · simp [hostAt, Host.withSwitch, probeHost]
  · rintro ⟨-, hz⟩
    exact h₀ hz
  · rintro ⟨hne, hne'⟩
    exact hne' (h hne)

/-- The step that takes the probe. -/
theorem serialSession_probe (kern : IdCalls C) (K : KexCrypto) (uid : ℕ)
    {authfile : C → Option AuthFile} (hI : SessionInv o g σ)
    (hnot : ¬ HandledUserauth σ.ses) (hw : AwaitsUserauth σ)
    (hfile : ∀ c, authfile c = none ∨ authfile c = some probeFile) (b : Option Bytes) (c : C) :
    ∃ τ, (serialSession kern o K fun _ => probeHost uid).step (σ.retarget b c)
        (.packet (probePacket authfile)) = some τ ∧
      τ.sent = σ.sent ++ ((b.map AuthReply.banner).toList ++
        [probeReply o (probeAnswered kern o uid authfile c)]).map AuthReply.payload := by
  obtain ⟨s₁, ha⟩ := hw.accepts
  obtain ⟨rfl, -⟩ := acceptPacket_some ha
  obtain ⟨buf, hbyte⟩ : ∃ buf, bufGetbyte (probePacket authfile).raw = .ok (50, buf) := ⟨_, rfl⟩
  have haccept := acceptPacket_setBanner { σ.ses with recvseq := (σ.ses.recvseq + 1) % 2 ^ 32 } b 50
  rw [ha] at haccept
  obtain ⟨s', hr, hsent⟩ := serialUserauthRequest_probe kern uid authfile (σ.retarget b c)
    { Session.setBanner
        { σ.ses with recvseq := (σ.ses.recvseq + 1) % 2 ^ 32, requirenext := 0 } b with
      ran := σ.ses.ran ++ [((50 : UInt8).toNat, .recvMsgUserauthRequest)] } b
    (by simp only [Session.setBanner, (hI.fresh hnot).1]; rfl) hfile
  simp only [serialSession]
  rw [if_neg (by simp [Serial.retarget, Session.setBanner, hw.live]),
    if_pos (show (σ.retarget b c).ses.remoteident = true from hw.remoteident)]
  refine ⟨_, rfl, ?_⟩
  unfold serialPacket
  simp only [hbyte]
  rw [show acceptPacket { (σ.retarget b c).ses with
    recvseq := ((σ.retarget b c).ses.recvseq + 1) % 2 ^ 32 } (50 : UInt8).toNat = _ from haccept]
  simp only [Except.map, serialHandler]
  split
  · next msg herr => cases hr.symm.trans herr
  · exact congrArg (σ.sent ++ ·) hsent

/-! ### The exact condition -/

/-- A session that handles a request for authentication passes a state in which it awaits one. -/
theorem exists_awaitsUserauth (hh : HandlesUserauth kern o K g script) :
    ∃ evs σ, (serialSession kern o K script.host).exec (serialStart o g script.rand) evs = some σ ∧
      ¬ HandledUserauth σ.ses ∧ AwaitsUserauth σ := by
  obtain ⟨τ, hτ, hhandled⟩ := hh
  have hstart : ¬ HandledUserauth (serialStart o g script.rand).ses := by
    rintro ⟨type, hmem⟩
    cases hmem
  obtain ⟨pre, ev, post, σ, σ', -, hpre, hnot, hst, hyes, -⟩ :=
    LTS.exec_turning_point (P := fun σ : Serial C => HandledUserauth σ.ses) hstart hhandled hτ
  exact ⟨pre, σ, hpre, hnot, awaitsUserauth_of_step hst hnot hyes⟩

/-- A session that is shown to be isolated by the probe finds the banner and the ids of the first
session. -/
theorem same_of_isolated {g₁ : Globals C} (hhandles : HandlesUserauth kern o K g₁ script)
    (ht : svrAlgosInitialise g.tables = svrAlgosInitialise g₁.tables)
    (ht₀ : svrAlgosInitialise g₀.tables = svrAlgosInitialise g₁.tables) (hnone : g.banner = none)
    (hiso : ∀ script, sentMessages kern o K g script = sentMessages kern o K g₀ script) :
    g₀.banner = none ∧ g.creds = g₀.creds := by
  classical
  obtain ⟨evs, σ, hrun, hnot, hw⟩ := exists_awaitsUserauth hhandles
  have hI : SessionInv o g₁ σ :=
    LTS.exec_invariant' (.start g₁ script.rand) (fun _ _ _ hI hst => hI.step hst) hrun
  -- the account is allowed for the ids of the first session, and the file is readable for them
  let uid := if kern.geteuid g₀.creds = 0 then 1 else kern.geteuid g₀.creds
  let authfile : C → Option AuthFile := fun c => if c = g₀.creds then some probeFile else none
  have hfile : ∀ c, authfile c = none ∨ authfile c = some probeFile := by
    intro c
    simp only [authfile]
    split_ifs
    · exact .inr rfl
    · exact .inl rfl
  have hsent : ∀ g' : Globals C, svrAlgosInitialise g'.tables = svrAlgosInitialise g₁.tables →
      sentMessages kern o K g'
        ⟨script.rand, fun _ => probeHost uid, evs ++ [SerialEvent.packet (probePacket authfile)]⟩ =
      some (σ.sent ++ ((g'.banner.map AuthReply.banner).toList ++
        [probeReply o (probeAnswered kern o uid authfile g'.creds)]).map AuthReply.payload) := by
    intro g' ht'
    obtain ⟨τ, hst, hτ⟩ := serialSession_probe kern K uid hI hnot hw hfile g'.banner
      g'.creds
    simp only [sentMessages, serveSession, serialStart_retarget script.rand ht', LTS.exec_append,
      exec_retarget g'.banner g'.creds (.start g₁ script.rand) hrun hnot, Option.bind_some,
      LTS.exec_cons, hst, LTS.exec_nil, Option.map_some, hτ]
  have hallowed : probeAnswered kern o uid authfile g₀.creds = true := by
    rw [probeAnswered, accountAllowed_probe]
    · simp [authfile]
    · simp only [uid]
      split_ifs with hz
      · exact Nat.one_ne_zero
      · exact hz
    · intro hne
      simp only [uid, if_neg hne]
  have heq := hiso
    ⟨script.rand, fun _ => probeHost uid, evs ++ [SerialEvent.packet (probePacket authfile)]⟩
  rw [hsent g ht, hsent g₀ ht₀, hnone, hallowed] at heq
  have hlist := List.append_cancel_left (Option.some.inj heq)
  cases hb : g₀.banner with
  | some text =>
    rw [hb] at hlist
    have := congrArg List.length hlist
    simp at this
  | none =>
    refine ⟨rfl, ?_⟩
    by_contra hne
    have hno : probeAnswered kern o uid authfile g.creds = false := by
      simp [probeAnswered, authfile, hne]
    rw [hb, hno] at hlist
    -- a failure message is not an answer to the query
    have hhead := congrArg (fun l : List Bytes => l.map List.head?) hlist
    simp [probeReply, AuthReply.payload] at hhead

/-- **When serial sessions are isolated.**  After every run of earlier sessions, a further session
sends exactly what it would have sent as the first one, whatever the client sends and the system
answers, iff there was no banner to lose or no earlier session has handled a request for
authentication, and the ids of the process are still those of the start. -/
theorem serial_isolated_iff (kern : IdCalls C) (o : SvrOpts) (K : KexCrypto) (g₀ g : Globals C)
    (earlier : List (Script C)) (hrun : (serialProcess kern o K).exec g₀ earlier = some g) :
    (∀ script, sentMessages kern o K g script = sentMessages kern o K g₀ script) ↔
      (g₀.banner = none ∨ (serialProcess kern o K).Along
        (fun g script => ¬ HandlesUserauth kern o K g script) g₀ earlier) ∧
      g.creds = g₀.creds := by
  have ht := serialProcess_tables hrun
  constructor
  · intro hiso
    by_cases hquiet : (serialProcess kern o K).Along
        (fun g script => ¬ HandlesUserauth kern o K g script) g₀ earlier
    · exact ⟨.inr hquiet, (serialProcess_same hquiet hrun).2⟩
    · obtain ⟨hnone, g₁, script, ht₁, hhandles⟩ := serialProcess_handled hrun hquiet
      obtain ⟨hnone₀, hcreds⟩ :=
        same_of_isolated hhandles (ht.trans ht₁.symm) ht₁.symm hnone hiso
      exact ⟨.inl hnone₀, hcreds⟩
  · rintro ⟨hbanner, hcreds⟩ script
    have hb : g.banner = g₀.banner := by
      rcases hbanner with hnone | hquiet
      · rw [hnone]
        exact LTS.exec_invariant' (I := fun g : Globals C => g.banner = none) hnone
          (fun _ _ _ hI hst => serialProcess_banner_none hI hst) hrun
      · exact (serialProcess_same hquiet hrun).1
    have hstart : serialStart o g script.rand = serialStart o g₀ script.rand := by
      rw [serialStart_retarget script.rand ht, hb, hcreds]
      rfl
    simp only [sentMessages, serveSession, hstart]

/-! ### A session up to its first request -/

/-- A kernel with one user id, which only `0` may change. -/
def simpleIdCalls : IdCalls ℕ where
  getuid c := c
  geteuid c := c
  setgid c _ := if c = 0 then some c else none
  initgroups c _ _ := if c = 0 then some c else none
  saveUtmpGid c := c
  setuid c uid := if c = 0 then some uid else none

/-- The packet with the given type and fields, on a system without files. -/
def SerialPacket.ofFields (type : UInt8) (fields : Bytes)
    (h : (type :: fields).length ≤ bufMaxSize) : SerialPacket ℕ where
  raw := Buffer.ofBytes (type :: fields) h
  authfile := fun _ => none
  conn := fun _ => {}
  replies := fun _ => []

/-- The lists of a client. -/
def clientKexinit : Bytes :=
  List.replicate 16 0 ++ encodeFields [ascii "curve25519-sha256", ascii "ssh-ed25519",
    ascii "aes256-ctr", ascii "aes256-ctr", ascii "hmac-sha2-256", ascii "hmac-sha2-256",
    ascii "none", ascii "none", [], []] ++ [0] ++ store32h 0

/-- A key exchange, a `none` request of `root`, and the end of the session. -/
def rootVisit : Script ℕ where
  rand := List.replicate 16 1
  host := fun _ => bareHost
  events :=
    [.ident (ascii "SSH-2.0-client"), .packet (.ofFields 20 clientKexinit (by decide +kernel)),
      .packet (.ofFields 30 [] kexdhInit_fits), .packet (.ofFields 21 [] newkeys_fits),
      .packet (.ofFields 50 (encodeFields [ascii "root", ascii "ssh-connection", ascii "none"])
        rootNone_fits),
      .packet (.ofFields 1 [] (by decide))]

/-- The process at its start. -/
def startGlobals (banner : Option Bytes) : Globals ℕ := ⟨banner, ps4AlgoTables, 0⟩

/-- Without a banner, a session behind the visit is isolated from it. -/
theorem serial_isolated_iff_rootVisit :
    ∃ g, (serialProcess simpleIdCalls {} plainCrypto).exec (startGlobals none) [rootVisit] =
        some g ∧ HandlesUserauth simpleIdCalls {} plainCrypto (startGlobals none) rootVisit ∧
      ∀ script, sentMessages simpleIdCalls {} plainCrypto g script =
        sentMessages simpleIdCalls {} plainCrypto (startGlobals none) script := by
  have hrun : ((serialProcess simpleIdCalls {} plainCrypto).exec (startGlobals none)
      [rootVisit]).any (fun g => g.creds == 0) = true := by
    decide +kernel
  have hvisit : (serveSession simpleIdCalls {} plainCrypto (startGlobals none) rootVisit).any
      (fun σ => decide (HandledUserauth σ.ses)) = true := by
    decide +kernel
  obtain ⟨g, hg, hcreds⟩ := (Option.any_eq_true _ _).1 hrun
  obtain ⟨σ, hσ, hh⟩ := (Option.any_eq_true _ _).1 hvisit
  exact ⟨g, hg, ⟨σ, hσ, of_decide_eq_true hh⟩,
    (serial_isolated_iff simpleIdCalls {} plainCrypto (startGlobals none) g [rootVisit] hg).2
      ⟨.inl rfl, of_decide_eq_true hcreds⟩⟩

/-- With a banner, the second of two equal visits does not get it. -/
theorem serial_banner_lost :
    ∃ g, (serialProcess simpleIdCalls {} plainCrypto).exec (startGlobals (some (ascii "hello")))
        [rootVisit] = some g ∧
      sentMessages simpleIdCalls {} plainCrypto g rootVisit ≠
        sentMessages simpleIdCalls {} plainCrypto (startGlobals (some (ascii "hello"))) rootVisit := by
  have hrun : ((serialProcess simpleIdCalls {} plainCrypto).exec
      (startGlobals (some (ascii "hello"))) [rootVisit]).any (fun g =>
        decide (sentMessages simpleIdCalls {} plainCrypto g rootVisit ≠
          sentMessages simpleIdCalls {} plainCrypto (startGlobals (some (ascii "hello")))
            rootVisit)) = true := by
    decide +kernel
  obtain ⟨g, hg, hne⟩ := (Option.any_eq_true _ _).1 hrun
  exact ⟨g, hg, of_decide_eq_true hne⟩

end Ps4Dropbear
