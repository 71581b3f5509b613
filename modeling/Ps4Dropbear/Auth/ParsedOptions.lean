import Mathlib.Data.List.Forall2
import Ps4Dropbear.Auth.LineScan
import Ps4Dropbear.Auth.OptionText

/-!
# What the options of a key become

`svr_parse_pubkey_options` keeps one structure for all options of a line.  It is built from the list
of options that the text consists of, and no other text makes it return one.

* `OpensEntry`, `ListensEntry` : the entry that a value is kept as.
* `OptionsKept` : what the options add to a structure.
* `foldlM_apply_iff` : the parser adds them one after the other.

**Main result**: the parser returns a structure exactly for the texts of options with well-formed
values and at most one `command=`, and everything in it comes from the options
(`svrParsePubkeyOptions_iff`).
-/

namespace Ps4Dropbear

/-! ### Values -/

variable {einval : Bool}

/-- The number is kept as this port; zero is not kept while `errno` holds `EINVAL`. -/
def KeptAsPort (einval : Bool) (p : Bytes) (port : ℕ) : Prop :=
  (∃ n : ℤ, Denotes p n ∧ n.natAbs < 2 ^ 64 ∧ port < 2 ^ 32 ∧ (port : ℤ) = n % 2 ^ 64) ∧
    ¬ (port = 0 ∧ einval = true)

/-- The entry for the value of a `permitopen=`. -/
def OpensEntry (einval : Bool) (v : Bytes) (e : PermitTCPFwdEntry) : Prop :=
  ∃ host p, SplitsAs (cstr v) host p ∧ e.host = some host ∧
    (p = ascii "*" ∧ e.port = pubkeyOptionsAnyPort ∨ KeptAsPort einval p e.port)

/-- The entry for the value of a `permitlisten=`. -/
def ListensEntry (einval : Bool) (v : Bytes) (e : PermitTCPFwdEntry) : Prop :=
  e.host = none ∧ KeptAsPort einval (cstr v) e.port

theorem mStrToUint_eq_some {p : Bytes} {port : ℕ} :
    mStrToUint einval p = some port ↔ KeptAsPort einval p port := by
  rw [mStrToUint_iff, mStrToUint_eq_some_iff, KeptAsPort]

theorem permitOpenEntry_eq_some {v : Bytes} {e : PermitTCPFwdEntry} :
    permitOpenEntry einval (cstr v) = some e ↔ OpensEntry einval v e := by
  have hstar : mStrToUint einval (ascii "*") = none := by cases einval <;> decide
  unfold permitOpenEntry OpensEntry
  constructor
  · intro h
    split at h
    · next host p hsplit =>
      have hsplits := splitAddressPort_eq_some_iff.1 hsplit
      split at h
      · next hp =>
        cases h
        exact ⟨host, p, hsplits, rfl, .inl ⟨hp, rfl⟩⟩
      · obtain ⟨port, hport, rfl⟩ := Option.map_eq_some_iff.1 h
        exact ⟨host, p, hsplits, rfl, .inr (mStrToUint_eq_some.1 hport)⟩
    · cases h
  · rintro ⟨host, p, hsplits, hhost, hport⟩
    obtain ⟨h, port⟩ := e
    dsimp only at hhost hport
    subst hhost
    rw [splitAddressPort_eq_some_iff.2 hsplits]
    dsimp only
    rcases hport with ⟨rfl, rfl⟩ | hport
    · rw [if_pos rfl]
    · have hne : p ≠ ascii "*" := by
        rintro rfl
        rw [← mStrToUint_eq_some, hstar] at hport
        cases hport
      rw [if_neg hne, mStrToUint_eq_some.2 hport]
      rfl

theorem listensEntry_iff {v : Bytes} {e : PermitTCPFwdEntry} :
    (mStrToUint einval (cstr v)).map (⟨none, ·⟩) = some e ↔ ListensEntry einval v e := by
  rw [Option.map_eq_some_iff, ListensEntry]
  constructor
  · rintro ⟨port, hport, rfl⟩
    exact ⟨rfl, mStrToUint_eq_some.1 hport⟩
  · rintro ⟨hhost, hport⟩
    refine ⟨e.port, mStrToUint_eq_some.2 hport, ?_⟩
    rw [← hhost]

theorem rightUnique_opensEntry : Relator.RightUnique (OpensEntry einval) := by
  intro v e e' h h'
  rw [← permitOpenEntry_eq_some] at h h'
  exact Option.some_inj.1 (h.symm.trans h')

theorem rightUnique_listensEntry : Relator.RightUnique (ListensEntry einval) := by
  intro v e e' h h'
  rw [← listensEntry_iff] at h h'
  exact Option.some_inj.1 (h.symm.trans h')

/-! ### The options one after the other -/

/-- The value of a `command=`. -/
@[simp] def KeyOption.commandValue : KeyOption → Option Bytes
  | .command v => some v
  | _ => none

/-- The value of a `permitopen=`. -/
@[simp] def KeyOption.openValue : KeyOption → Option Bytes
  | .permitopen v => some v
  | _ => none

/-- The value of a `permitlisten=`. -/
@[simp] def KeyOption.listenValue : KeyOption → Option Bytes
  | .permitlisten v => some v
  | _ => none

/-- The list has an entry for each of the values, behind those it had before. -/
def Extends (R : Bytes → PermitTCPFwdEntry → Prop) (vs : List Bytes)
    (old new : Option (List PermitTCPFwdEntry)) : Prop :=
  (new = none ↔ old = none ∧ vs = []) ∧
    ∃ es, List.Forall₂ R vs es ∧ new.getD [] = old.getD [] ++ es

/-- What the options `xs` add to `o`. -/
structure OptionsKept (einval : Bool) (o : PubKeyOptions) (xs : List KeyOption)
    (o' : PubKeyOptions) : Prop where
  noPortForwarding : o'.noPortForwardingFlag ↔
    o.noPortForwardingFlag ∨ .noPortForwarding ∈ xs ∨ .restrict ∈ xs
  noAgentForwarding : o'.noAgentForwardingFlag ↔
    o.noAgentForwardingFlag ∨ .noAgentForwarding ∈ xs ∨ .restrict ∈ xs
  noX11Forwarding : o'.noX11ForwardingFlag = o.noX11ForwardingFlag
  noPty : o'.noPtyFlag ↔ o.noPtyFlag ∨ .noPty ∈ xs ∨ .restrict ∈ xs
  noTouchRequired : o'.noTouchRequiredFlag ↔ o.noTouchRequiredFlag ∨ .noTouchRequired ∈ xs
  verifyRequired : o'.verifyRequiredFlag ↔ o.verifyRequiredFlag ∨ .verifyRequired ∈ xs
  /-- There is room for one command. -/
  command : o'.forcedCommand.toList =
    o.forcedCommand.toList ++ xs.filterMap KeyOption.commandValue
  permitopen : Extends (OpensEntry einval) (xs.filterMap KeyOption.openValue)
    o.permitOpenDestinations o'.permitOpenDestinations
  permitlisten : Extends (ListensEntry einval) (xs.filterMap KeyOption.listenValue) o.permitListens
    o'.permitListens
  infoEnv : o'.infoEnv = o.infoEnv

section Extends

variable {R : Bytes → PermitTCPFwdEntry → Prop} {vs vs' : List Bytes}
variable {old mid new : Option (List PermitTCPFwdEntry)}

theorem Extends.refl (old : Option (List PermitTCPFwdEntry)) : Extends R [] old old :=
  ⟨by simp, [], .nil, by simp⟩

theorem Extends.concat (old : Option (List PermitTCPFwdEntry)) {v : Bytes}
    {e : PermitTCPFwdEntry} (h : R v e) :
    Extends R [v] old (some (old.getD [] ++ [e])) :=
  ⟨by simp, [e], .cons h .nil, rfl⟩

theorem Extends.trans (h : Extends R vs old mid) (h' : Extends R vs' mid new) :
    Extends R (vs ++ vs') old new := by
  obtain ⟨hnone, es, hes, hmid⟩ := h
  obtain ⟨hnone', es', hes', hnew⟩ := h'
  refine ⟨?_, es ++ es', List.rel_append hes hes', ?_⟩
  · rw [hnone', hnone, List.append_eq_nil_iff, and_assoc]
  · rw [hnew, hmid, List.append_assoc]

theorem Extends.unique {new' : Option (List PermitTCPFwdEntry)} (hR : Relator.RightUnique R)
    (h : Extends R vs old new) (h' : Extends R vs old new') : new = new' := by
  obtain ⟨hnone, es, hes, hnew⟩ := h
  obtain ⟨hnone', es', hes', hnew'⟩ := h'
  rw [hR.forall₂ hes hes', ← hnew'] at hnew
  have hboth := hnone.trans hnone'.symm
  cases new <;> cases new' <;> simp_all

end Extends

section Options

variable {o o' o'' : PubKeyOptions} {x : KeyOption} {xs ys : List KeyOption}

theorem OptionsKept.refl (o : PubKeyOptions) : OptionsKept einval o [] o := by
  constructor <;> simp [Extends.refl]

/-- One option. -/
theorem OptionsKept.single (h : x.apply einval o = some o') : OptionsKept einval o [x] o' := by
  cases x with
  | permitopen v =>
    obtain ⟨e, he, rfl⟩ := Option.map_eq_some_iff.1 h
    have hopens := Extends.concat o.permitOpenDestinations (permitOpenEntry_eq_some.1 he)
    constructor <;> simp [List.filterMap_cons, hopens, Extends.refl]
  | permitlisten v =>
    obtain ⟨p, hp, rfl⟩ := Option.map_eq_some_iff.1 h
    have hlistens := Extends.concat o.permitListens
      (listensEntry_iff.1 (Option.map_eq_some_iff.2 ⟨p, hp, rfl⟩))
    constructor <;> simp [List.filterMap_cons, hlistens, Extends.refl]
  | command v =>
    obtain ⟨hnone, h⟩ := Option.ite_none_left_eq_some.1 h
    cases h
    rw [Bool.not_eq_true, Option.isSome_eq_false_iff, Option.isNone_iff_eq_none] at hnone
    constructor <;> simp [List.filterMap_cons, hnone, Extends.refl]
  | noPortForwarding | noAgentForwarding | noX11Forwarding | noPty | restrict | noTouchRequired
  | verifyRequired | empty =>
    cases h
    constructor <;> simp [List.filterMap_cons, Extends.refl]

theorem OptionsKept.trans (h : OptionsKept einval o xs o') (h' : OptionsKept einval o' ys o'') :
    OptionsKept einval o (xs ++ ys) o'' where
  noPortForwarding := by
    rw [h'.noPortForwarding, h.noPortForwarding, List.mem_append, List.mem_append]
    tauto
  noAgentForwarding := by
    rw [h'.noAgentForwarding, h.noAgentForwarding, List.mem_append, List.mem_append]
    tauto
  noX11Forwarding := h'.noX11Forwarding.trans h.noX11Forwarding
  noPty := by
    rw [h'.noPty, h.noPty, List.mem_append, List.mem_append]
    tauto
  noTouchRequired := by rw [h'.noTouchRequired, h.noTouchRequired, List.mem_append, or_assoc]
  verifyRequired := by rw [h'.verifyRequired, h.verifyRequired, List.mem_append, or_assoc]
  command := by rw [h'.command, h.command, List.filterMap_append, List.append_assoc]
  permitopen := by
    rw [List.filterMap_append]
    exact h.permitopen.trans h'.permitopen
  permitlisten := by
    rw [List.filterMap_append]
    exact h.permitlisten.trans h'.permitlisten
  infoEnv := h'.infoEnv.trans h.infoEnv

theorem optionsKept_of_foldlM (h : xs.foldlM (KeyOption.apply einval) o = some o') :
    OptionsKept einval o xs o' := by
  induction xs generalizing o with
  | nil =>
    cases h
    exact .refl _
  | cons x xs ih =>
    rw [List.foldlM_cons] at h
    obtain ⟨o₁, hx, hxs⟩ := Option.bind_eq_some_iff.1 h
    exact (OptionsKept.single hx).trans (ih hxs)

/-- The same options leave the same structure. -/
theorem OptionsKept.unique (h : OptionsKept einval o xs o') (h' : OptionsKept einval o xs o'') :
    o' = o'' := by
  have hcommand : o'.forcedCommand = o''.forcedCommand := by
    have heq := h.command.trans h'.command.symm
    generalize o'.forcedCommand = a at heq
    generalize o''.forcedCommand = b at heq
    cases a <;> cases b <;> simp_all
  have hx11 := h.noX11Forwarding.trans h'.noX11Forwarding.symm
  have hopens := h.permitopen.unique rightUnique_opensEntry h'.permitopen
  have hlistens := h.permitlisten.unique rightUnique_listensEntry h'.permitlisten
  have hinfo := h.infoEnv.trans h'.infoEnv.symm
  have hport := Bool.eq_iff_iff.2 (h.noPortForwarding.trans h'.noPortForwarding.symm)
  have hagent := Bool.eq_iff_iff.2 (h.noAgentForwarding.trans h'.noAgentForwarding.symm)
  have hpty := Bool.eq_iff_iff.2 (h.noPty.trans h'.noPty.symm)
  have htouch := Bool.eq_iff_iff.2 (h.noTouchRequired.trans h'.noTouchRequired.symm)
  have hverify := Bool.eq_iff_iff.2 (h.verifyRequired.trans h'.verifyRequired.symm)
  cases o'
  cases o''
  simp_all

/-- Options with well-formed values, of which at most one is a command, are all taken. -/
theorem exists_foldlM
    (hcommand : o.forcedCommand.toList.length +
      (xs.filterMap KeyOption.commandValue).length ≤ 1)
    (hopens : ∀ v ∈ xs.filterMap KeyOption.openValue, ∃ e, OpensEntry einval v e)
    (hlistens : ∀ v ∈ xs.filterMap KeyOption.listenValue, ∃ e, ListensEntry einval v e) :
    ∃ o', xs.foldlM (KeyOption.apply einval) o = some o' := by
  induction xs generalizing o with
  | nil => exact ⟨o, rfl⟩
  | cons x xs ih =>
    rw [← List.singleton_append, List.filterMap_append] at hcommand hopens hlistens
    obtain ⟨hopens₁, hopens⟩ := List.forall_mem_append.1 hopens
    obtain ⟨hlistens₁, hlistens⟩ := List.forall_mem_append.1 hlistens
    have hone : ∃ o₁, x.apply einval o = some o₁ := by
      cases x with
      | command v =>
        have hnone : ¬ o.forcedCommand.isSome := by
          intro hsome
          obtain ⟨v', hv'⟩ := Option.isSome_iff_exists.1 hsome
          have hold : o.forcedCommand.toList.length = 1 := by rw [hv']; rfl
          have hnew : ([KeyOption.command v].filterMap KeyOption.commandValue).length = 1 := rfl
          rw [List.length_append] at hcommand
          omega
        exact ⟨_, if_neg hnone⟩
      | permitopen v =>
        obtain ⟨e, he⟩ := hopens₁ v (by simp)
        rw [← permitOpenEntry_eq_some] at he
        exact ⟨_, by rw [KeyOption.apply, he, Option.map_some]⟩
      | permitlisten v =>
        obtain ⟨e, -, he⟩ := hlistens₁ v (by simp)
        rw [← mStrToUint_eq_some] at he
        exact ⟨_, by rw [KeyOption.apply, he, Option.map_some]⟩
      | noPortForwarding | noAgentForwarding | noX11Forwarding | noPty | restrict
      | noTouchRequired | verifyRequired | empty => exact ⟨_, rfl⟩
    obtain ⟨o₁, ho₁⟩ := hone
    rw [List.foldlM_cons, ho₁]
    refine ih ?_ hopens hlistens
    rw [(OptionsKept.single ho₁).command, List.length_append, Nat.add_assoc, ← List.length_append]
    exact hcommand

/-- **The parser goes through the options**, and keeps them all or returns nothing. -/
theorem foldlM_apply_iff :
    xs.foldlM (KeyOption.apply einval) o = some o' ↔ OptionsKept einval o xs o' := by
  constructor
  · exact optionsKept_of_foldlM
  · intro h
    have hcommand : o.forcedCommand.toList.length +
        (xs.filterMap KeyOption.commandValue).length ≤ 1 := by
      rw [← List.length_append, ← h.command]
      cases o'.forcedCommand <;> simp
    have hvalue {R : Bytes → PermitTCPFwdEntry → Prop} {vs : List Bytes}
        {old new : Option (List PermitTCPFwdEntry)} (h : Extends R vs old new) :
        ∀ v ∈ vs, ∃ e, R v e := by
      obtain ⟨-, es, hes, -⟩ := h
      intro v hv
      obtain ⟨i, hi, rfl⟩ := List.getElem_of_mem hv
      exact ⟨es.get ⟨i, hes.length_eq ▸ hi⟩, hes.get hi _⟩
    obtain ⟨o'', ho''⟩ := exists_foldlM hcommand (hvalue h.permitopen) (hvalue h.permitlisten)
    rw [ho'', (optionsKept_of_foldlM ho'').unique h]

end Options

/-- What the structure says of the options: all of it comes from them, and nothing is left out but
the flag for X11, which is never set. -/
structure Kept (einval : Bool) (xs : List KeyOption) (o : PubKeyOptions) : Prop where
  noPortForwarding : o.noPortForwardingFlag ↔ .noPortForwarding ∈ xs ∨ .restrict ∈ xs
  noAgentForwarding : o.noAgentForwardingFlag ↔ .noAgentForwarding ∈ xs ∨ .restrict ∈ xs
  noX11Forwarding : o.noX11ForwardingFlag = false
  noPty : o.noPtyFlag ↔ .noPty ∈ xs ∨ .restrict ∈ xs
  noTouchRequired : o.noTouchRequiredFlag ↔ .noTouchRequired ∈ xs
  verifyRequired : o.verifyRequiredFlag ↔ .verifyRequired ∈ xs
  command : o.forcedCommand.toList = xs.filterMap KeyOption.commandValue
  permitopen : List.Forall₂ (OpensEntry einval) (xs.filterMap KeyOption.openValue)
    (o.permitOpenDestinations.getD [])
  permitopen_none : o.permitOpenDestinations = none ↔ xs.filterMap KeyOption.openValue = []
  permitlisten : List.Forall₂ (ListensEntry einval) (xs.filterMap KeyOption.listenValue)
    (o.permitListens.getD [])
  permitlisten_none : o.permitListens = none ↔ xs.filterMap KeyOption.listenValue = []
  infoEnv : o.infoEnv = none

theorem optionsKept_iff_kept {xs : List KeyOption} {o : PubKeyOptions} :
    OptionsKept einval {} xs o ↔ Kept einval xs o := by
  constructor
  · intro h
    obtain ⟨hopens, es, hes, hnew⟩ := h.permitopen
    obtain ⟨hlistens, es', hes', hnew'⟩ := h.permitlisten
    refine ⟨by simpa using h.noPortForwarding, by simpa using h.noAgentForwarding,
      h.noX11Forwarding, by simpa using h.noPty, by simpa using h.noTouchRequired,
      by simpa using h.verifyRequired, by simpa using h.command, ?_, by simpa using hopens, ?_,
      by simpa using hlistens, h.infoEnv⟩
    · rw [hnew]
      exact hes
    · rw [hnew']
      exact hes'
  · intro h
    refine ⟨by simpa using h.noPortForwarding, by simpa using h.noAgentForwarding,
      h.noX11Forwarding, by simpa using h.noPty, by simpa using h.noTouchRequired,
      by simpa using h.verifyRequired, by simpa using h.command,
      ⟨by simpa using h.permitopen_none, _, h.permitopen, rfl⟩,
      ⟨by simpa using h.permitlisten_none, _, h.permitlisten, rfl⟩, h.infoEnv⟩

theorem parse_eq_some_iff {text : Bytes} {o : PubKeyOptions} :
    svrParsePubkeyOptions einval (some text) = some o ↔ ∃ xs, Reads text xs ∧ Kept einval xs o := by
  constructor
  · intro h
    obtain ⟨xs, hxs⟩ := exists_reads h
    rw [svrParsePubkeyOptions, parseOptions_of_reads hxs (le_refl _), foldlM_apply_iff] at h
    exact ⟨xs, hxs, optionsKept_iff_kept.1 h⟩
  · rintro ⟨xs, hxs, hkept⟩
    rw [svrParsePubkeyOptions, parseOptions_of_reads hxs (le_refl _), foldlM_apply_iff]
    exact optionsKept_iff_kept.2 hkept

/-- A line is accepted only if its options have been parsed. -/
theorem exists_parsed {line algo keyblob : Bytes} {o : PubKeyOptions}
    (h : checkpubkeyLine einval line algo keyblob = .ok (some o)) :
    ∃ options rest o' info, lineStart algo line = .ok (some (options, rest)) ∧
      svrParsePubkeyOptions einval options = some o' ∧ o = { o' with infoEnv := info } := by
  rw [checkpubkeyLine_eq] at h
  split at h
  · cases h
  split at h
  · cases h
  · cases h
  · next options rest hstart =>
    unfold lineRest at h
    split at h
    · cases h
    · obtain ⟨ok, -, h⟩ := bind_eq_ok.1 h
      split at h
      · obtain ⟨o', ho', rfl⟩ := Option.map_eq_some_iff.1 ((pure_eq_ok _ _).1 h)
        exact ⟨options, rest, o', _, hstart, ho', rfl⟩
      · cases (pure_eq_ok _ _).1 h

/-- **What the parser returns.**  It returns a structure for the texts of options with well-formed
values and at most one command, and what is in it comes from these options; more rounds of its loop
change nothing.  A line whose options are any other text is not accepted. -/
theorem svrParsePubkeyOptions_iff (einval : Bool) (text : Bytes) :
    (∀ o, svrParsePubkeyOptions einval (some text) = some o ↔
      ∃ xs, Reads text xs ∧ Kept einval xs o) ∧
    (∀ n o, text.length ≤ n →
      parseOptions einval n o text = parseOptions einval text.length o text) ∧
    ∀ line algo keyblob rest o, lineStart algo line = .ok (some (some text, rest)) →
      checkpubkeyLine einval line algo keyblob = .ok (some o) →
      ∃ xs, Reads text xs ∧ Kept einval xs { o with infoEnv := none } := by
  refine ⟨fun o => parse_eq_some_iff, fun n o hn => parseOptions_fuel hn, ?_⟩
  intro line algo keyblob rest o hstart h
  obtain ⟨options, rest', o', info, hstart', ho', rfl⟩ := exists_parsed h
  rw [hstart] at hstart'
  cases hstart'
  obtain ⟨xs, hxs, hkept⟩ := parse_eq_some_iff.1 ho'
  exact ⟨xs, hxs, hkept.infoEnv ▸ hkept⟩

/-- `no-X11-forwarding` is accepted and sets no flag. -/
theorem noX11Forwarding_ignored :
    ¬ ∀ text xs o, svrParsePubkeyOptions false (some text) = some o → Reads text xs →
      (o.noX11ForwardingFlag ↔ .noX11Forwarding ∈ xs ∨ .restrict ∈ xs) := by
  intro h
  have hreads : Reads (ascii "no-X11-forwarding") [.noX11Forwarding] := .last (.noX11Forwarding rfl)
  have hparse : svrParsePubkeyOptions false (some (ascii "no-X11-forwarding")) = some {} := by decide
  have hflag := (h _ _ _ hparse hreads).2 (.inl List.mem_cons_self)
  cases hflag

end Ps4Dropbear
