import Ps4Dropbear.Auth.OptionText
import Ps4Dropbear.Forward.GlobalRequest

/-!
# Forwarding restrictions of a key

From the text of the options in `authorized_keys` to the two places where a connection is made or a
port opened: `connect_remote` and `listen_tcpfwd`.

`permitopen="host:*"` is kept as the port number `PUBKEY_OPTIONS_ANY_PORT`, which `m_str_to_uint`
also accepts as a number; and `m_str_to_uint` accepts negative numbers, modulo `2 ^ 64`.

* `Collects` : what is left of the options after `svr_parse_pubkey_options`.
* `allowsLocal_iff`, `allowsRemote_iff` : what the two checks let through.
* `restrictions_enforced_iff` : **when the restrictions are enforced as written**.
-/

namespace Ps4Dropbear

/-! ### From the text to the options -/

/-- What the options `xs` add to `o`. -/
structure Collects (o : PubKeyOptions) (xs : List KeyOption) (o' : PubKeyOptions) : Prop where
  flag : o'.noPortForwardingFlag = true ↔
    o.noPortForwardingFlag = true ∨ .noPortForwarding ∈ xs ∨ .restrict ∈ xs
  opens_none : o'.permitOpenDestinations = none ↔
    o.permitOpenDestinations = none ∧ ∀ v, .permitopen v ∉ xs
  opens : ∀ e, e ∈ o'.permitOpenDestinations.getD [] ↔
    e ∈ o.permitOpenDestinations.getD [] ∨
      ∃ v, .permitopen v ∈ xs ∧ permitOpenEntry false (cstr v) = some e
  listens_none : o'.permitListens = none ↔ o.permitListens = none ∧ ∀ v, .permitlisten v ∉ xs
  listens : ∀ e, e ∈ o'.permitListens.getD [] ↔
    e ∈ o.permitListens.getD [] ∨
      ∃ v p, .permitlisten v ∈ xs ∧ mStrToUint false (cstr v) = some p ∧ e = ⟨none, p⟩

theorem Collects.refl (o : PubKeyOptions) : Collects o [] o := by
  constructor <;> simp

/-- One option. -/
theorem Collects.single {x : KeyOption} {o o' : PubKeyOptions} (h : x.apply false o = some o') :
    Collects o [x] o' := by
  cases x with
  | permitopen v =>
    obtain ⟨e, he, rfl⟩ := Option.map_eq_some_iff.1 h
    constructor <;> simp [he, @eq_comm _ e]
  | permitlisten v =>
    obtain ⟨p, hp, rfl⟩ := Option.map_eq_some_iff.1 h
    constructor <;> simp [hp]
  | command v =>
    obtain ⟨-, h⟩ := Option.ite_none_left_eq_some.1 h
    cases h
    constructor <;> simp
  | noPortForwarding | noAgentForwarding | noX11Forwarding | noPty | restrict | noTouchRequired
  | verifyRequired | empty =>
    cases h
    constructor <;> simp

theorem Collects.trans {o o' o'' : PubKeyOptions} {xs ys : List KeyOption} (h : Collects o xs o')
    (h' : Collects o' ys o'') : Collects o (xs ++ ys) o'' := by
  constructor
  · rw [h'.flag, h.flag]
    simp only [List.mem_append]
    grind
  · rw [h'.opens_none, h.opens_none]
    simp only [List.mem_append]
    grind
  · intro e
    rw [h'.opens, h.opens]
    simp only [List.mem_append]
    grind
  · rw [h'.listens_none, h.listens_none]
    simp only [List.mem_append]
    grind
  · intro e
    rw [h'.listens, h.listens]
    simp only [List.mem_append]
    grind

theorem collects_of_foldlM {xs : List KeyOption} {o o' : PubKeyOptions}
    (h : xs.foldlM (KeyOption.apply false) o = some o') : Collects o xs o' := by
  induction xs generalizing o with
  | nil =>
    cases h
    exact .refl _
  | cons x xs ih =>
    rw [List.foldlM_cons] at h
    obtain ⟨o₁, hx, hxs⟩ := Option.bind_eq_some_iff.1 h
    exact (Collects.single hx).trans (ih hxs)

/-- An accepted text has been read option by option. -/
theorem collects_of_parse {einval : Bool} {text : Bytes} {o : PubKeyOptions} {xs : List KeyOption}
    (h : svrParsePubkeyOptions einval (some text) = some o) (hreads : Reads text xs) :
    Collects {} xs o := by
  replace h := svrParsePubkeyOptions_of_einval h
  rw [svrParsePubkeyOptions, parseOptions_of_reads hreads (Nat.le_refl _)] at h
  exact collects_of_foldlM h

/-! ### What the text permits -/

/-- The value names the destination: the host, and `*` or this port. -/
def NamesDestination (v host : Bytes) (port : ℕ) : Prop :=
  ∃ p, SplitsAs (cstr v) host p ∧ (p = ascii "*" ∨ Denotes p port)

/-- The options let a connection to this destination be made. -/
def OpenAllowed (xs : List KeyOption) (host : Bytes) (port : ℕ) : Prop :=
  .noPortForwarding ∉ xs ∧ .restrict ∉ xs ∧
    ((∃ v, .permitopen v ∈ xs) → ∃ v, .permitopen v ∈ xs ∧ NamesDestination v host port)

/-- The options let this port be opened. -/
def ListenAllowed (xs : List KeyOption) (port : ℕ) : Prop :=
  .noPortForwarding ∉ xs ∧ .restrict ∉ xs ∧
    ((∃ v, .permitlisten v ∈ xs) → ∃ v, .permitlisten v ∈ xs ∧ Denotes (cstr v) port)

/-- A value for the host has a number for its port that is taken for another one: the number of the
wildcard, or a negative number that wraps around to the port. -/
def StrayOpen (xs : List KeyOption) (host : Bytes) (port : ℕ) : Prop :=
  ∃ v p n, .permitopen v ∈ xs ∧ SplitsAs (cstr v) host p ∧ Denotes p n ∧ n.natAbs < 2 ^ 64 ∧
    (n % 2 ^ 64 = 2 ^ 32 - 1 ∨ (n < 0 ∧ n % 2 ^ 64 = port))

/-- A value is a negative number that wraps around to the port. -/
def StrayListen (xs : List KeyOption) (port : ℕ) : Prop :=
  ∃ v n, .permitlisten v ∈ xs ∧ Denotes (cstr v) n ∧ n.natAbs < 2 ^ 64 ∧ n < 0 ∧
    n % 2 ^ 64 = port

/-! ### What the checks let through -/

theorem SplitsAs.cstr_host {v host p : Bytes} (h : SplitsAs (cstr v) host p) : cstr host = host := by
  refine cstr_eq_self fun hzero => ?_
  have hmem : (0 : UInt8) ∈ cstr v := by
    generalize cstr v = w at h
    cases h with
    | colon => exact List.mem_append_left _ hzero
    | brackets => exact List.mem_cons_of_mem _ (List.mem_append_left _ hzero)
  simpa using List.mem_takeWhile_imp hmem

/-- The wildcard is no number. -/
theorem not_denotes_star {n : Int} : ¬ Denotes (ascii "*") n := by
  intro h
  have hdigit : ∃ c, (ascii "*").getLast? = some c ∧ isDigit c = true := by
    generalize ascii "*" = t at h
    have hlast (ds : Bytes) (hne : ds ≠ []) (hds : ∀ c ∈ ds, isDigit c = true) :
        ∃ c, ds.getLast? = some c ∧ isDigit c = true :=
      ⟨ds.getLast hne, List.getLast?_eq_some_getLast hne, hds _ (List.getLast_mem hne)⟩
    cases h with
    | @plain ws ds hws hne hds =>
      rw [List.getLast?_append_of_ne_nil ws hne]
      exact hlast ds hne hds
    | @plus ws ds hws hne hds =>
      rw [List.getLast?_append_of_ne_nil ws (List.cons_ne_nil _ _), List.getLast?_cons_of_ne_nil hne]
      exact hlast ds hne hds
    | @minus ws ds hws hne hds =>
      rw [List.getLast?_append_of_ne_nil ws (List.cons_ne_nil _ _), List.getLast?_cons_of_ne_nil hne]
      exact hlast ds hne hds
  obtain ⟨c, hc, hdigit⟩ := hdigit
  cases hc
  revert hdigit
  decide

theorem permitOpenEntry_of_splits {v host p : Bytes} (h : SplitsAs v host p) :
    permitOpenEntry false v = if p = ascii "*" then some ⟨some host, pubkeyOptionsAnyPort⟩
      else (mStrToUint false p).map fun x => ⟨some host, x⟩ := by
  unfold permitOpenEntry
  rw [splitAddressPort_eq_some_iff.2 h]

theorem splits_of_permitOpenEntry {v : Bytes} {e : PermitTCPFwdEntry}
    (h : permitOpenEntry false v = some e) : ∃ host p, SplitsAs v host p ∧ e.host = some host := by
  unfold permitOpenEntry at h
  split at h
  · next host p hsplit =>
    refine ⟨host, p, splitAddressPort_eq_some_iff.1 hsplit, ?_⟩
    split_ifs at h
    · cases h
      rfl
    · obtain ⟨x, -, rfl⟩ := Option.map_eq_some_iff.1 h
      rfl
  · cases h

/-- What a `permitopen=` value lets through. -/
theorem permitOpenEntry_allows {v host : Bytes} {port : ℕ} (hport : port < 2 ^ 32 - 1) :
    (∃ e, permitOpenEntry false (cstr v) = some e ∧ e.host.any (strEq · host) = true ∧
        (e.port = pubkeyOptionsAnyPort ∨ e.port = port)) ↔
      NamesDestination v (cstr host) port ∨ ∃ p n, SplitsAs (cstr v) (cstr host) p ∧ Denotes p n ∧
        n.natAbs < 2 ^ 64 ∧ (n % 2 ^ 64 = 2 ^ 32 - 1 ∨ (n < 0 ∧ n % 2 ^ 64 = port)) := by
  have hany : pubkeyOptionsAnyPort = 2 ^ 32 - 1 := rfl
  constructor
  · rintro ⟨e, he, hhost, hp⟩
    obtain ⟨h, p, hsplit, heh⟩ := splits_of_permitOpenEntry he
    -- the host in the value is a C string already
    obtain rfl : h = cstr host := by
      rw [heh, Option.any_some, strEq, beq_iff_eq, hsplit.cstr_host] at hhost
      exact hhost
    rw [permitOpenEntry_of_splits hsplit] at he
    split_ifs at he with hstar
    · exact .inl ⟨p, hsplit, .inl hstar⟩
    · obtain ⟨x, hx, rfl⟩ := Option.map_eq_some_iff.1 he
      obtain ⟨n, hn, habs, hlt, hmod⟩ := mStrToUint_eq_some_iff.1 hx
      dsimp only at hp
      by_cases hnames : n = port
      · rw [hnames] at hn
        exact .inl ⟨p, hsplit, .inr hn⟩
      · refine .inr ⟨p, n, hsplit, hn, habs, ?_⟩
        rw [hany] at hp
        omega
  · rintro (⟨p, hsplit, rfl | hn⟩ | ⟨p, n, hsplit, hn, habs, hmod⟩)
    · refine ⟨_, (permitOpenEntry_of_splits hsplit).trans (if_pos rfl), ?_, .inl rfl⟩
      rw [Option.any_some, strEq, hsplit.cstr_host, beq_self_eq_true]
    · have hstar : p ≠ ascii "*" := by
        rintro rfl
        exact not_denotes_star hn
      have hx : mStrToUint false p = some port :=
        mStrToUint_eq_some_iff.2 ⟨port, hn, by omega, by omega, by omega⟩
      refine ⟨⟨some (cstr host), port⟩, ?_, ?_, .inr rfl⟩
      · rw [permitOpenEntry_of_splits hsplit, if_neg hstar, hx]
        rfl
      · rw [Option.any_some, strEq, hsplit.cstr_host, beq_self_eq_true]
    · have hstar : p ≠ ascii "*" := by
        rintro rfl
        exact not_denotes_star hn
      have hx : mStrToUint false p = some (n % 2 ^ 64).toNat :=
        mStrToUint_eq_some_iff.2 ⟨n, hn, habs, by omega, by omega⟩
      refine ⟨⟨some (cstr host), (n % 2 ^ 64).toNat⟩, ?_, ?_, ?_⟩
      · rw [permitOpenEntry_of_splits hsplit, if_neg hstar, hx]
        rfl
      · rw [Option.any_some, strEq, hsplit.cstr_host, beq_self_eq_true]
      · rw [hany]
        dsimp only
        omega

variable {cfg : FwdConfig} {xs : List KeyOption} {o : PubKeyOptions}

/-- What `svr_pubkey_allows_local_tcpfwd` lets through. -/
theorem allowsLocal_iff (hcfg : cfg.pubkeyOptions = some o) (h : Collects {} xs o) (host : Bytes)
    {port : ℕ} (hport : port < 2 ^ 32 - 1) :
    cfg.svrPubkeyAllowsLocalTcpfwd host port = true ↔ (∀ v, .permitopen v ∉ xs) ∨
      (∃ v, .permitopen v ∈ xs ∧ NamesDestination v (cstr host) port) ∨
      StrayOpen xs (cstr host) port := by
  have hnone := h.opens_none
  have hmem := h.opens
  unfold FwdConfig.svrPubkeyAllowsLocalTcpfwd
  rw [hcfg, Option.bind_some]
  cases hopen : o.permitOpenDestinations with
  | none =>
    rw [hopen] at hnone
    exact iff_of_true rfl (.inl (hnone.1 rfl).2)
  | some es =>
    rw [hopen] at hnone hmem
    have hsome : ¬ ∀ v, .permitopen v ∉ xs := fun hno => nomatch hnone.2 ⟨rfl, hno⟩
    simp only [Option.getD_some, Option.getD_none, List.not_mem_nil, false_or] at hmem
    rw [or_iff_right hsome, List.any_eq_true]
    simp only [Bool.and_eq_true, Bool.or_eq_true, beq_iff_eq, hmem]
    constructor
    · rintro ⟨e, ⟨v, hv, he⟩, hhost, hp⟩
      obtain hnames | ⟨p, n, hstray⟩ := (permitOpenEntry_allows hport).1 ⟨e, he, hhost, hp⟩
      · exact .inl ⟨v, hv, hnames⟩
      · exact .inr ⟨v, p, n, hv, hstray⟩
    · rintro (⟨v, hv, hnames⟩ | ⟨v, p, n, hv, hstray⟩)
      · obtain ⟨e, he, hhost, hp⟩ := (permitOpenEntry_allows hport).2 (.inl hnames)
        exact ⟨e, ⟨v, hv, he⟩, hhost, hp⟩
      · obtain ⟨e, he, hhost, hp⟩ := (permitOpenEntry_allows hport).2 (.inr ⟨p, n, hstray⟩)
        exact ⟨e, ⟨v, hv, he⟩, hhost, hp⟩

/-- What `svr_pubkey_allows_remote_tcpfwd` lets through. -/
theorem allowsRemote_iff (hcfg : cfg.pubkeyOptions = some o) (h : Collects {} xs o) (addr : Bytes)
    {port : ℕ} (hport : port < 2 ^ 32) :
    cfg.svrPubkeyAllowsRemoteTcpfwd addr port = true ↔ (∀ v, .permitlisten v ∉ xs) ∨
      (∃ v, .permitlisten v ∈ xs ∧ Denotes (cstr v) port) ∨ StrayListen xs port := by
  have hnone := h.listens_none
  have hmem := h.listens
  unfold FwdConfig.svrPubkeyAllowsRemoteTcpfwd
  rw [hcfg, Option.bind_some]
  cases hlisten : o.permitListens with
  | none =>
    rw [hlisten] at hnone
    exact iff_of_true rfl (.inl (hnone.1 rfl).2)
  | some es =>
    rw [hlisten] at hnone hmem
    have hsome : ¬ ∀ v, .permitlisten v ∉ xs := fun hno => nomatch hnone.2 ⟨rfl, hno⟩
    simp only [Option.getD_some, Option.getD_none, List.not_mem_nil, false_or] at hmem
    rw [or_iff_right hsome, List.any_eq_true]
    simp only [beq_iff_eq, hmem]
    constructor
    · rintro ⟨e, ⟨v, x, hv, hx, rfl⟩, rfl⟩
      obtain ⟨n, hn, habs, -, hmod⟩ := mStrToUint_eq_some_iff.1 hx
      dsimp only at hport ⊢
      by_cases hnames : n = x
      · rw [hnames] at hn
        exact .inl ⟨v, hv, hn⟩
      · exact .inr ⟨v, n, hv, hn, habs, by omega, by omega⟩
    · rintro (⟨v, hv, hn⟩ | ⟨v, n, hv, hn, habs, hneg, hmod⟩)
      · exact ⟨_, ⟨v, port, hv, mStrToUint_eq_some_iff.2
          ⟨port, hn, by omega, hport, by omega⟩, rfl⟩, rfl⟩
      · exact ⟨_, ⟨v, port, hv, mStrToUint_eq_some_iff.2
          ⟨n, hn, habs, hport, by omega⟩, rfl⟩, rfl⟩

/-! ### The two requests -/

/-- What reaches `connect_remote`. -/
theorem newtcpdirect_eq_some {payload b : Buffer} {host : Bytes} {port : ℕ}
    (h : newtcpdirect cfg payload = .ok (some (host, port), b)) :
    cfg.svrPubkeyAllowsTcpfwd = true ∧ port ≤ 65535 ∧
      ∃ desthost, desthost.length ≤ maxHostLen ∧ host = cstr desthost ∧
        cfg.svrPubkeyAllowsLocalTcpfwd desthost port = true := by
  unfold newtcpdirect at h
  by_cases hoff : cfg.nolocaltcp = true ∨ ¬ cfg.svrPubkeyAllowsTcpfwd = true
  · rw [if_pos hoff] at h
    cases h
  rw [if_neg hoff] at h
  obtain ⟨⟨desthost, b₁⟩, -, h⟩ := bind_eq_ok.1 h
  by_cases hlen : desthost.length > maxHostLen
  · simp [hlen] at h
  obtain ⟨⟨destport, b₂⟩, -, h⟩ := bind_eq_ok.1 ((if_neg hlen).symm.trans h)
  obtain ⟨⟨orighost, b₃⟩, -, h⟩ := bind_eq_ok.1 h
  by_cases horig : orighost.length > maxHostLen
  · simp [horig] at h
  obtain ⟨⟨origport, b₄⟩, -, h⟩ := bind_eq_ok.1 ((if_neg horig).symm.trans h)
  by_cases hport : origport > 65535 ∨ destport > 65535
  · simp [hport] at h
  replace h := (if_neg hport).symm.trans h
  by_cases hallow : ¬ cfg.svrPubkeyAllowsLocalTcpfwd desthost destport = true
  · simp [hallow] at h
  replace h := (if_neg hallow).symm.trans h
  cases h
  obtain ⟨-, hkey⟩ := not_or.1 hoff
  obtain ⟨-, hport⟩ := not_or.1 hport
  exact ⟨not_not.1 hkey, Nat.le_of_not_lt hport, desthost, Nat.le_of_not_lt hlen, rfl,
    not_not.1 hallow⟩

/-- An open with these contents reaches `connect_remote`. -/
theorem newtcpdirect_of_rest (payload : Buffer) {host r : Bytes} {port : ℕ}
    (hrest : payload.rest = sshString host ++ (store32h port ++ (sshString [] ++ (store32h 0 ++ r))))
    (hlocal : cfg.nolocaltcp = false) (hkey : cfg.svrPubkeyAllowsTcpfwd = true)
    (hhost : host.length ≤ maxHostLen) (hport : port ≤ 65535)
    (hallows : cfg.svrPubkeyAllowsLocalTcpfwd host port = true) :
    ∃ b, newtcpdirect cfg payload = .ok (some (cstr host, port), b) := by
  have hget₁ := bufGetstring_ok.2 ⟨⟨Nat.le_trans hhost (by decide), _, hrest⟩, rfl⟩
  have hrest₂ := Buffer.rest_advance_of_append hrest
  rw [length_sshString] at hrest₂
  have hget₂ := bufGetint_ok.2 ⟨⟨Nat.lt_of_le_of_lt hport (by decide), _, hrest₂⟩, rfl⟩
  have hrest₃ := Buffer.rest_advance_of_append hrest₂
  rw [length_store32h] at hrest₃
  have hget₃ := bufGetstring_ok.2 ⟨⟨Nat.zero_le _, _, hrest₃⟩, rfl⟩
  have hrest₄ := Buffer.rest_advance_of_append hrest₃
  rw [length_sshString] at hrest₄
  have hget₄ := bufGetint_ok.2 ⟨⟨by decide, _, hrest₄⟩, rfl⟩
  rw [List.length_nil] at hget₃ hget₄
  unfold newtcpdirect
  simp only [hlocal, hkey, hget₁, hget₂, hget₃, hget₄, hallows, Bool.false_eq_true,
    not_true_eq_false, or_self, if_false, ok_bind, Nat.not_lt.2 hhost, gt_iff_lt,
    List.length_nil, Nat.not_lt_zero, Nat.not_lt.2 hport]
  exact ⟨_, rfl⟩

/-- What a global request hands to `listen_tcpfwd`. -/
def ReachesListen (cfg : FwdConfig) (payload : Buffer) (info : FwdListener) : Prop :=
  ∃ wantreply b b', globalHeader cfg payload = .ok (.tcpipForward, wantreply, b) ∧
    remotetcpTarget cfg b = .ok (some info, b')

theorem globalHeader_handled {payload b : Buffer} {wantreply : Bool}
    (h : globalHeader cfg payload = .ok (.tcpipForward, wantreply, b)) :
    cfg.svrPubkeyAllowsTcpfwd = true := by
  unfold globalHeader at h
  obtain ⟨⟨reqname, b₁⟩, -, h⟩ := bind_eq_ok.1 h
  obtain ⟨⟨w, b₂⟩, -, h⟩ := bind_eq_ok.1 h
  by_cases hoff : cfg.noremotefwd = true ∨ ¬ cfg.svrPubkeyAllowsTcpfwd = true
  · dsimp only at h
    rw [if_pos hoff] at h
    cases h
  · exact not_not.1 (not_or.1 hoff).2

theorem remotetcpTarget_eq_some {payload b : Buffer} {info : FwdListener}
    (h : remotetcpTarget cfg payload = .ok (some info, b)) :
    info.listenport ≤ 65535 ∧
      ∃ addr, cfg.svrPubkeyAllowsRemoteTcpfwd addr info.listenport = true := by
  unfold remotetcpTarget at h
  obtain ⟨⟨addr, b₁⟩, -, h⟩ := bind_eq_ok.1 h
  by_cases hlen : addr.length > maxHostLen
  · simp [hlen] at h
  obtain ⟨⟨port, b₂⟩, -, h⟩ := bind_eq_ok.1 ((if_neg hlen).symm.trans h)
  dsimp only at h
  by_cases hrange : port ≠ 0 ∧ (port < 1 ∨ port > 65535)
  · rw [if_pos hrange] at h
    cases h
  rw [if_neg hrange] at h
  by_cases hpriv : port ≠ 0 ∧ ¬ cfg.allowprivport = true ∧ port < ipportReserved
  · rw [if_pos hpriv] at h
    cases h
  rw [if_neg hpriv] at h
  by_cases hallow : ¬ cfg.svrPubkeyAllowsRemoteTcpfwd addr port = true
  · rw [if_pos hallow] at h
    cases h
  rw [if_neg hallow] at h
  cases h
  exact ⟨by dsimp only; omega, addr, not_not.1 hallow⟩

/-- A `tcpip-forward` request with these contents reaches `listen_tcpfwd`. -/
theorem reachesListen_of_rest (payload : Buffer) {port : ℕ}
    (hrest : payload.rest = sshString (ascii "tcpip-forward") ++
      ([1] ++ (sshString [] ++ (store32h port ++ []))))
    (hremote : cfg.noremotefwd = false) (hkey : cfg.svrPubkeyAllowsTcpfwd = true)
    (hpriv : cfg.allowprivport = true) (hport : port ≤ 65535)
    (hallows : cfg.svrPubkeyAllowsRemoteTcpfwd [] port = true) :
    ∃ info, ReachesListen cfg payload info ∧ info.listenport = port := by
  have hget₁ := bufGetstring_ok.2 ⟨⟨by decide, _, hrest⟩, rfl⟩
  have hrest₂ := Buffer.rest_advance_of_append hrest
  rw [length_sshString] at hrest₂
  generalize payload.advance (4 + (ascii "tcpip-forward").length) = b₁ at hget₁ hrest₂
  have hbyte : bufGetbool b₁ = .ok (true, b₁.advance 1) := by
    unfold bufGetbool bufGetbyte
    rw [hrest₂]
    rfl
  have hrest₃ := Buffer.rest_advance_of_append hrest₂
  change (b₁.advance 1).rest = _ at hrest₃
  generalize b₁.advance 1 = b₂ at hbyte hrest₃
  have hget₃ := bufGetstring_ok.2 ⟨⟨Nat.zero_le _, _, hrest₃⟩, rfl⟩
  have hrest₄ := Buffer.rest_advance_of_append hrest₃
  rw [length_sshString] at hrest₄
  generalize b₂.advance (4 + ([] : Bytes).length) = b₃ at hget₃ hrest₄
  have hget₄ := bufGetint_ok.2 ⟨⟨Nat.lt_of_le_of_lt hport (by decide), _, hrest₄⟩, rfl⟩
  have hheader : globalHeader cfg payload = .ok (.tcpipForward, true, b₂) := by
    unfold globalHeader
    rw [hget₁, ok_bind]
    dsimp only
    have hname : GlobalRequest.ofName (ascii "tcpip-forward") = .tcpipForward := by decide
    have hshort : ¬ (ascii "tcpip-forward").length > maxNameLen := by decide
    rw [hbyte, ok_bind]
    simp only [hremote, hkey, Bool.false_eq_true, not_true_eq_false, or_self, if_false, hshort, hname]
    rfl
  have htarget : ∃ info b, remotetcpTarget cfg b₂ = .ok (some info, b) ∧
      info.listenport = port := by
    have hrange : ¬ (port ≠ 0 ∧ (port < 1 ∨ port > 65535)) := by omega
    unfold remotetcpTarget
    simp only [hget₃, hget₄, ok_bind, hrange, hpriv, hallows, not_true_eq_false, false_and, and_false,
      if_false, List.length_nil, gt_iff_lt, Nat.not_lt_zero]
    exact ⟨_, _, rfl, rfl⟩
  obtain ⟨info, b, hinfo, hlisten⟩ := htarget
  exact ⟨info, ⟨true, b₂, b, hheader, hinfo⟩, hlisten⟩

/-! ### The restrictions -/

/-- What the options let through is what they say: forwarding is off, or every destination and port
that a stray number lets through is also permitted by another value. -/
def SaysWhatItDoes (xs : List KeyOption) : Prop :=
  .noPortForwarding ∈ xs ∨ .restrict ∈ xs ∨
    ((∀ host port, host.length ≤ maxHostLen → port ≤ 65535 → StrayOpen xs host port →
        ∃ v, .permitopen v ∈ xs ∧ NamesDestination v host port) ∧
      ∀ port ≤ 65535, StrayListen xs port →
        ∃ v, .permitlisten v ∈ xs ∧ Denotes (cstr v) port)

/-- The restrictions are enforced in every session with these options. -/
def Enforced (o : PubKeyOptions) (xs : List KeyOption) : Prop :=
  ∀ (cfg : FwdConfig) (payload : Buffer), cfg.pubkeyOptions = some o →
    (∀ host port b, newtcpdirect cfg payload = .ok (some (host, port), b) →
      OpenAllowed xs host port) ∧
    ∀ info, ReachesListen cfg payload info → ListenAllowed xs info.listenport

theorem allowsTcpfwd_iff (hcfg : cfg.pubkeyOptions = some o) (h : Collects {} xs o) :
    cfg.svrPubkeyAllowsTcpfwd = true ↔ .noPortForwarding ∉ xs ∧ .restrict ∉ xs := by
  unfold FwdConfig.svrPubkeyAllowsTcpfwd
  rw [hcfg, Option.any_some, Bool.not_eq_true', ← Bool.not_eq_true, h.flag]
  simp

/-- A text that says what it does is enforced. -/
theorem enforced_of_meaning (h : Collects {} xs o) (hmeaning : SaysWhatItDoes xs) : Enforced o xs := by
  intro cfg payload hcfg
  have hflags := allowsTcpfwd_iff hcfg h
  constructor
  · intro host port b hopen
    obtain ⟨hkey, hport, desthost, hlen, rfl, hallow⟩ := newtcpdirect_eq_some hopen
    obtain ⟨hno, hrestrict⟩ := hflags.1 hkey
    obtain ⟨hopens, -⟩ := (hmeaning.resolve_left hno).resolve_left hrestrict
    refine ⟨hno, hrestrict, ?_⟩
    rintro ⟨v, hv⟩
    obtain hnone | hnames | hstray := (allowsLocal_iff hcfg h desthost (by omega)).1 hallow
    · exact absurd hv (hnone v)
    · exact hnames
    · refine hopens (cstr desthost) port ?_ hport hstray
      exact Nat.le_trans (List.takeWhile_prefix _).length_le hlen
  · rintro info ⟨w, b, b', hheader, htarget⟩
    obtain ⟨hport, addr, hallow⟩ := remotetcpTarget_eq_some htarget
    obtain ⟨hno, hrestrict⟩ := hflags.1 (globalHeader_handled hheader)
    obtain ⟨-, hlistens⟩ := (hmeaning.resolve_left hno).resolve_left hrestrict
    refine ⟨hno, hrestrict, ?_⟩
    rintro ⟨v, hv⟩
    obtain hnone | hnames | hstray := (allowsRemote_iff hcfg h addr (by omega)).1 hallow
    · exact absurd hv (hnone v)
    · exact hnames
    · exact hlistens _ hport hstray

/-- An open for this destination, with an empty originator. -/
def directTcpipPayload (host : Bytes) (port : ℕ) (hlen : host.length ≤ maxHostLen) : Buffer :=
  .ofBytes (sshString host ++ (store32h port ++ (sshString [] ++ (store32h 0 ++ [])))) (by
    simp only [List.length_append, length_sshString, length_store32h, List.length_nil, bufMaxSize]
    simp only [maxHostLen] at hlen
    omega)

/-- A request to listen on this port. -/
def listenPayload (port : ℕ) : Buffer :=
  .ofBytes (sshString (ascii "tcpip-forward") ++
    ([1] ++ (sshString [] ++ (store32h port ++ [])))) (by
      simp only [List.length_append, length_sshString, length_store32h, List.length_nil,
        List.length_singleton, bufMaxSize]
      decide)

/-- An enforced text says what it does: a stray number is found out by a request. -/
theorem says_of_enforced (h : Collects {} xs o) (henf : Enforced o xs) : SaysWhatItDoes xs := by
  by_cases hno : .noPortForwarding ∈ xs
  · exact .inl hno
  by_cases hrestrict : .restrict ∈ xs
  · exact .inr (.inl hrestrict)
  have hcfg : ({ allowprivport := true, pubkeyOptions := some o, sunPathSize := 0 } :
      FwdConfig).pubkeyOptions = some o := rfl
  have hkey := (allowsTcpfwd_iff hcfg h).2 ⟨hno, hrestrict⟩
  refine .inr (.inr ⟨fun host port hlen hport hstray => ?_, fun port hport hstray => ?_⟩)
  · have hhost : cstr host = host := by
      obtain ⟨v, p, n, -, hsplit, -⟩ := id hstray
      exact hsplit.cstr_host
    have hallow := (allowsLocal_iff hcfg h host (by omega : port < 2 ^ 32 - 1)).2
      (.inr (.inr (by rwa [hhost])))
    obtain ⟨b, hreach⟩ := newtcpdirect_of_rest (directTcpipPayload host port hlen)
      (Buffer.rest_ofBytes _ _) rfl hkey hlen hport hallow
    obtain ⟨-, -, hopens⟩ := (henf _ _ hcfg).1 _ _ _ hreach
    rw [hhost] at hopens
    obtain ⟨v, p, n, hv, -⟩ := hstray
    exact hopens ⟨v, hv⟩
  · have hallow := (allowsRemote_iff hcfg h [] (by omega : port < 2 ^ 32)).2 (.inr (.inr hstray))
    obtain ⟨info, hreach, rfl⟩ := reachesListen_of_rest (listenPayload port)
      (Buffer.rest_ofBytes _ _) rfl hkey rfl hport hallow
    obtain ⟨-, -, hlistens⟩ := (henf _ _ hcfg).2 _ hreach
    obtain ⟨v, n, hv, -⟩ := hstray
    exact hlistens ⟨v, hv⟩

/-- **When the restrictions are enforced as written.**  Every options text that is accepted is a list
of options, and what they say about forwarding is enforced in every session exactly when forwarding
is off altogether or no stray number lets more through than the other values do. -/
theorem restrictions_enforced_iff {einval : Bool} {text : Bytes} {o : PubKeyOptions}
    (h : svrParsePubkeyOptions einval (some text) = some o) :
    (∃ xs, Reads text xs) ∧ ∀ xs, Reads text xs → (Enforced o xs ↔ SaysWhatItDoes xs) := by
  refine ⟨exists_reads h, fun xs hreads => ?_⟩
  have hcollects := collects_of_parse h hreads
  exact ⟨says_of_enforced hcollects, enforced_of_meaning hcollects⟩

/-- A number as `m_str_to_uint` reads it. -/
theorem mStrToUint_of_denotes {p : Bytes} {n : Int} (h : Denotes p n) (habs : n.natAbs < 2 ^ 64)
    (hlt : n % 2 ^ 64 < 2 ^ 32) : mStrToUint false p = some (n % 2 ^ 64).toNat :=
  mStrToUint_eq_some_iff.2 ⟨n, h, habs, by omega, by omega⟩

theorem denotes_digits (ds : Bytes) (hne : ds ≠ []) (hds : ∀ c ∈ ds, isDigit c = true) :
    Denotes ds (decimal ds) :=
  @Denotes.plain [] ds nofun hne hds

/-- The option `permitopen="h:22"`. -/
theorem restrictions_enforced_plain :
    ∃ o, svrParsePubkeyOptions false (some (ascii "permitopen=\"h:22\"")) = some o ∧
      Enforced o [.permitopen (ascii "h:22")] := by
  obtain ⟨o, ho⟩ :
      ∃ o, svrParsePubkeyOptions false (some (ascii "permitopen=\"h:22\"")) = some o :=
    Option.isSome_iff_exists.1 (by decide)
  have hreads : Reads (ascii "permitopen=\"h:22\"") [.permitopen (ascii "h:22")] :=
    .last (.permitopen (t := ascii "permitopen=\"") rfl (by decide))
  refine ⟨o, ho, ((restrictions_enforced_iff ho).2 _ hreads).2 (.inr (.inr ⟨?_, ?_⟩))⟩
  · rintro host port - hport ⟨v, p, n, hv, hsplit, hn, habs, hstray⟩
    obtain ⟨⟩ := List.mem_singleton.1 hv
    have hp : splitAddressPort (cstr (ascii "h:22")) = some (some (ascii "h"), some (ascii "22")) := by
      decide
    rw [splitAddressPort_eq_some_iff.2 hsplit] at hp
    cases hp
    have hval : mStrToUint false (ascii "22") = some 22 := by decide
    rw [mStrToUint_of_denotes hn habs (by omega)] at hval
    have h22 : (n % 2 ^ 64).toNat = 22 := Option.some.inj hval
    obtain rfl : port = 22 := by omega
    exact ⟨_, hv, _, hsplit, .inr (denotes_digits (ascii "22") (by decide +kernel) (by decide +kernel))⟩
  · rintro port - ⟨v, n, hv, -⟩
    cases List.mem_singleton.1 hv

/-- With `permitopen="h:4294967295"` a connection to port 22 of the host is let through. -/
theorem restrictions_not_enforced :
    ∃ o, svrParsePubkeyOptions false (some (ascii "permitopen=\"h:4294967295\"")) = some o ∧
      Reads (ascii "permitopen=\"h:4294967295\"") [.permitopen (ascii "h:4294967295")] ∧
      ¬ Enforced o [.permitopen (ascii "h:4294967295")] := by
  obtain ⟨o, ho⟩ :
      ∃ o, svrParsePubkeyOptions false (some (ascii "permitopen=\"h:4294967295\"")) = some o :=
    Option.isSome_iff_exists.1 (by decide)
  have hreads : Reads (ascii "permitopen=\"h:4294967295\"")
      [.permitopen (ascii "h:4294967295")] :=
    .last (.permitopen (t := ascii "permitopen=\"") rfl (by decide))
  have hsplit : splitAddressPort (cstr (ascii "h:4294967295")) =
      some (some (ascii "h"), some (ascii "4294967295")) := by
    decide
  refine ⟨o, ho, hreads, fun henf => ?_⟩
  obtain h | h | ⟨hopens, -⟩ := says_of_enforced (collects_of_parse ho hreads) henf
  · cases List.mem_singleton.1 h
  · cases List.mem_singleton.1 h
  · have hstray : StrayOpen [.permitopen (ascii "h:4294967295")] (ascii "h") 22 :=
      ⟨_, _, _, List.mem_singleton.2 rfl, splitAddressPort_eq_some_iff.1 hsplit,
        denotes_digits _ (by decide +kernel) (by decide +kernel), by decide +kernel,
        .inl (by decide)⟩
    obtain ⟨v, hv, p, hv', hp⟩ := hopens (ascii "h") 22 (by decide) (by decide) hstray
    obtain ⟨⟩ := List.mem_singleton.1 hv
    have hp' := splitAddressPort_eq_some_iff.2 hv'
    rw [hsplit] at hp'
    cases hp'
    obtain hstar | h22 := hp
    · revert hstar
      decide
    · have hval : mStrToUint false (ascii "4294967295") = some 4294967295 := by decide
      rw [mStrToUint_of_denotes h22 (by decide) (by decide)] at hval
      cases hval

end Ps4Dropbear
