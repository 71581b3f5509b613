import Mathlib.Data.List.ReduceOption
import Ps4Dropbear.Session.Algorithms

/-!
# Negotiation

Client and server run the same `buf_match_algo`, each on the list that the other one advertises
and on its own table, in which the entries that are not usable leave holes.

The name that both of them find does not depend on the holes (`negotiated`).  The value of
`goodguess` does: it is computed from positions, and the one in the own table counts the holes.

* `getAlgolist_joinNames` : a name list is read as it was written.
* `matchNames_none`, `matchNames_some` : what the two loops of `buf_match_algo` find.
* `matchAlgo_server`, `matchAlgo_client` : the name and `goodguess` on the two sides.
* `negotiation_agrees` : both sides choose the same name.
-/

namespace Ps4Dropbear

section Names

variable {ν δ : Type}

/-- The names that a table advertises. -/
def usableNames (algos : List (AlgoType ν δ)) : List Bytes :=
  (algos.filter (·.usable)).map (·.name)

/-- A name that can stand in a name list. -/
def IsName (name : Bytes) : Prop := name ≠ [] ∧ 44 ∉ name ∧ 0 ∉ name

/-- A table of such names. -/
def WellNamed (algos : List (AlgoType ν δ)) : Prop := ∀ a ∈ algos, IsName a.name

instance (name : Bytes) : Decidable (IsName name) := inferInstanceAs (Decidable (_ ∧ _ ∧ _))

instance (algos : List (AlgoType ν δ)) : Decidable (WellNamed algos) :=
  inferInstanceAs (Decidable (∀ a ∈ algos, IsName a.name))

theorem usableNames_cons (a : AlgoType ν δ) (as : List (AlgoType ν δ)) :
    usableNames (a :: as) = if a.usable then a.name :: usableNames as else usableNames as := by
  unfold usableNames
  cases h : a.usable <;> simp [h]

theorem WellNamed.isName {algos : List (AlgoType ν δ)} (h : WellNamed algos) :
    ∀ n ∈ usableNames algos, IsName n := by
  simp only [usableNames, List.mem_map, List.mem_filter]
  rintro _ ⟨a, ⟨ha, -⟩, rfl⟩
  exact h a ha

/-- Names with a comma before each. -/
def commaNames (names : List Bytes) : Bytes := names.flatMap (44 :: ·)

/-- Names with commas between them. -/
def joinNames : List Bytes → Bytes
  | [] => []
  | n :: ns => n ++ commaNames ns

/-- The names that `buf_put_algolist_all` writes. -/
def selectedNames (algos : List (AlgoType ν δ)) (useall : Bool) : List Bytes :=
  (algos.filter fun a => a.usable || useall).map (·.name)

/-- `buf_put_algolist_all` writes them with commas between them. -/
theorem algolistAll_eq (algos : List (AlgoType ν δ)) (useall : Bool) :
    algolistAll algos useall = joinNames (selectedNames algos useall) := by
  have htrue : ∀ as : List (AlgoType ν δ),
      algolistLoop useall true as = commaNames (selectedNames as useall) := by
    intro as
    induction as with
    | nil => rfl
    | cons a as ih =>
      rw [algolistLoop, ih]
      cases h : a.usable || useall <;> simp [commaNames, ascii, selectedNames, h]
  unfold algolistAll
  induction algos with
  | nil => rfl
  | cons a as ih =>
    rw [algolistLoop]
    cases h : a.usable || useall
    · simpa [selectedNames, h] using ih
    · simp [joinNames, htrue, selectedNames, h]

/-- `buf_put_algolist` writes the usable names. -/
theorem algolistAll_false (algos : List (AlgoType ν δ)) :
    algolistAll algos false = joinNames (usableNames algos) := by
  rw [algolistAll_eq]
  simp only [selectedNames, usableNames, Bool.or_false]

/-- A name is read up to its end. -/
theorem getAlgolistLoop_name {n : Bytes} (hn : IsName n) (done : List Bytes) (cur rest : Bytes) :
    getAlgolistLoop done cur (n ++ rest) = getAlgolistLoop done (cur ++ n) rest := by
  obtain ⟨-, hcomma, hnul⟩ := hn
  revert hcomma hnul
  induction n generalizing cur with
  | nil => simp
  | cons c n ih =>
    intro hcomma hnul
    simp only [List.mem_cons, not_or] at hcomma hnul
    rw [List.cons_append, getAlgolistLoop, if_neg (Ne.symm hnul.1), if_neg (Ne.symm hcomma.1),
      ih _ hcomma.2 hnul.2]
    simp

/-- The names behind the first one, as long as there is room. -/
theorem getAlgolistLoop_commaNames {ns : List Bytes} (hns : ∀ n ∈ ns, IsName n)
    (done : List Bytes) (cur : Bytes) (hdone : done.length < maxProposedAlgo) :
    getAlgolistLoop done cur (commaNames ns) =
      if done.length + 1 + ns.length ≤ maxProposedAlgo then .ok (done ++ cur :: ns)
      else .error "Too many remote algorithms" := by
  induction ns generalizing done cur with
  | nil =>
    rw [List.length_nil, Nat.add_zero, if_pos (Nat.succ_le_of_lt hdone)]
    rfl
  | cons n ns ih =>
    rw [List.forall_mem_cons] at hns
    have hcons : commaNames (n :: ns) = 44 :: (n ++ commaNames ns) := rfl
    rw [hcons, getAlgolistLoop, if_neg (by decide), if_pos rfl]
    by_cases hroom : done.length + 1 ≥ maxProposedAlgo
    · rw [if_pos hroom, if_neg (by simp only [List.length_cons]; omega)]
      rfl
    · rw [if_neg hroom, getAlgolistLoop_name hns.1, List.nil_append,
        ih hns.2 _ _ (by simpa using hroom)]
      simp only [List.length_append, List.length_cons, List.length_nil, List.append_assoc,
        List.cons_append, List.nil_append]
      congr 2
      omega

/-- A list of names is read as it was written; an empty list is one empty name. -/
theorem getAlgolist_joinNames {names : List Bytes} (h : ∀ n ∈ names, IsName n) :
    getAlgolist (joinNames names) =
      if names.length ≤ maxProposedAlgo then .ok (if names = [] then [[]] else names)
      else .error "Too many remote algorithms" := by
  unfold getAlgolist
  cases names with
  | nil => rfl
  | cons n ns =>
    rw [List.forall_mem_cons] at h
    rw [joinNames, getAlgolistLoop_name h.1, List.nil_append,
      getAlgolistLoop_commaNames h.2 [] n (by decide)]
    simp only [List.length_nil, Nat.zero_add, List.nil_append, List.length_cons,
      Nat.add_comm 1, reduceCtorEq, if_false]

end Names

/-! ### The two loops -/

section Match

variable {cli srv : List (Option Bytes)}

/-- The outer loop, one name at a time. -/
theorem matchNames_cons (c : Option Bytes) (cli srv : List (Option Bytes)) :
    matchNames (c :: cli) srv =
      match c.bind fun name => srv.findIdx? (· == some name) with
      | some j => some (0, j)
      | none => (matchNames cli srv).map fun ij => (ij.1 + 1, ij.2) := by
  unfold matchNames
  rw [List.length_cons, List.range_succ_eq_map, List.findSome?_cons, List.getD_cons_zero]
  cases c.bind fun name => srv.findIdx? (· == some name) with
  | some j => rfl
  | none =>
    simp only [Option.map_none, List.findSome?_map, Function.comp_def, List.getD_cons_succ,
      List.map_findSome?, Option.map_map]

theorem findIdx?_eq_none_iff_reduceOption {name : Bytes} :
    srv.findIdx? (· == some name) = none ↔ name ∉ srv.reduceOption := by
  rw [List.findIdx?_eq_none_iff, List.reduceOption_mem_iff]
  constructor
  · intro h hmem
    simpa using h _ hmem
  · intro h x hx
    rw [beq_eq_false_iff_ne]
    rintro rfl
    exact h hx

/-- Without a match, no name is on both sides. -/
theorem matchNames_none (h : matchNames cli srv = none) :
    cli.reduceOption.find? (· ∈ srv.reduceOption) = none := by
  induction cli with
  | nil => rfl
  | cons c cli ih =>
    rw [matchNames_cons] at h
    cases c with
    | none =>
      rw [List.reduceOption_cons_of_none]
      exact ih (by simpa using h)
    | some name =>
      rw [Option.bind_some] at h
      cases hj : srv.findIdx? (· == some name) with
      | some j => rw [hj] at h; cases h
      | none =>
        rw [hj] at h
        rw [List.reduceOption_cons_of_some,
          List.find?_cons_of_neg (by simpa using findIdx?_eq_none_iff_reduceOption.1 hj)]
        exact ih (by simpa using h)

/-- What the loops find: the first name of the client that the server has, too.  The positions are
0 if it is at the front. -/
theorem matchNames_some {i j : ℕ} (h : matchNames cli srv = some (i, j)) :
    ∃ name, cli[i]? = some (some name) ∧ srv[j]? = some (some name) ∧
      cli.reduceOption.find? (· ∈ srv.reduceOption) = some name ∧
      (i = 0 ↔ cli.head? = some (some name)) ∧ (j = 0 ↔ srv.head? = some (some name)) := by
  have hsrv : ∀ name, srv.findIdx? (· == some name) = some j →
      srv[j]? = some (some name) ∧ (j = 0 ↔ srv.head? = some (some name)) := by
    intro name hj
    obtain ⟨hlt, hget, hfirst⟩ := List.findIdx?_eq_some_iff_getElem.1 hj
    have hget : srv[j]? = some (some name) := by
      rw [List.getElem?_eq_getElem hlt]
      exact congrArg some (by simpa using hget)
    refine ⟨hget, fun hzero => ?_, fun hhead => ?_⟩
    · rw [List.head?_eq_getElem?, ← hzero]
      exact hget
    · by_contra hne
      have hpos : 0 < j := Nat.pos_of_ne_zero hne
      have h0 := hfirst 0 hpos
      rw [List.head?_eq_getElem?, List.getElem?_eq_getElem (by omega), Option.some.injEq] at hhead
      simp [hhead] at h0
  induction cli generalizing i with
  | nil => cases h
  | cons c cli ih =>
    rw [matchNames_cons] at h
    cases c with
    | none =>
      obtain ⟨⟨i', j'⟩, hij, heq⟩ := Option.map_eq_some_iff.1 h
      cases heq
      obtain ⟨name, hget, hget', hfind, -, hj⟩ := ih hij
      exact ⟨name, hget, hget', hfind, by simp, hj⟩
    | some name =>
      rw [Option.bind_some] at h
      cases hj : srv.findIdx? (· == some name) with
      | some j' =>
        rw [hj] at h
        cases h
        have hmem : name ∈ srv.reduceOption := by
          by_contra hne
          rw [findIdx?_eq_none_iff_reduceOption.2 hne] at hj
          cases hj
        refine ⟨name, rfl, (hsrv name hj).1, ?_, by simp, (hsrv name hj).2⟩
        rw [List.reduceOption_cons_of_some, List.find?_cons_of_pos (by simpa using hmem)]
      | none =>
        rw [hj] at h
        obtain ⟨⟨i', j'⟩, hij, heq⟩ := Option.map_eq_some_iff.1 h
        cases heq
        have hnot := findIdx?_eq_none_iff_reduceOption.1 hj
        obtain ⟨name', hget, hget', hfind, -, hj'⟩ := ih hij
        refine ⟨name', hget, hget', ?_, ?_, hj'⟩
        · rw [List.reduceOption_cons_of_some, List.find?_cons_of_neg (by simpa using hnot)]
          exact hfind
        · -- the name at the front is not the one that is found
          have hne : name ≠ name' := by
            rintro rfl
            exact hnot (by simpa using List.find?_some hfind)
          simp [hne]

end Match

/-! ### `buf_match_algo` -/

section Tables

variable {ν δ ν' δ' : Type}

/-- The names of a table, with a hole for each entry that is not usable. -/
def holedNames (algos : List (AlgoType ν δ)) : List (Option Bytes) :=
  algos.map fun a => if a.usable then some a.name else none

/-- The names that the peer reads from the list of a table. -/
def advertised (algos : List (AlgoType ν δ)) : List Bytes :=
  if usableNames algos = [] then [[]] else usableNames algos

/-- A table that both sides have room for: its list is not too long for the peer, and its entries
fit into `localnames`. -/
def Fits (algos : List (AlgoType ν δ)) : Prop :=
  (algolistAll algos false).length ≤ maxStringLen ∧ algos.length ≤ maxProposedAlgo

/-- The list of a table can be read: it is not too long, and does not have too many names. -/
def Readable (algos : List (AlgoType ν δ)) : Prop :=
  (algolistAll algos false).length ≤ maxStringLen ∧ (usableNames algos).length ≤ maxProposedAlgo

theorem length_usableNames_le (algos : List (AlgoType ν δ)) :
    (usableNames algos).length ≤ algos.length := by
  rw [usableNames, List.length_map]
  exact List.length_filter_le _ algos

theorem Fits.readable {algos : List (AlgoType ν δ)} (h : Fits algos) : Readable algos :=
  ⟨h.1, (length_usableNames_le algos).trans h.2⟩

/-- The first entry of a table is usable. -/
def HeadUsable (algos : List (AlgoType ν δ)) : Prop := ∃ a, algos.head? = some a ∧ a.usable = true

/-- The first name that the client advertises and the server has, too. -/
def negotiated (cli : List (AlgoType ν δ)) (srv : List (AlgoType ν' δ')) : Option Bytes :=
  (usableNames cli).find? (· ∈ usableNames srv)

/-- The peer advertises kexguess2. -/
def usesKexguess2 (sshkex : List (AlgoType ν δ)) : Bool :=
  decide (kexguess2AlgoName ∈ usableNames sshkex)

@[simp] theorem reduceOption_holedNames (algos : List (AlgoType ν δ)) :
    (holedNames algos).reduceOption = usableNames algos := by
  induction algos with
  | nil => rfl
  | cons a as ih =>
    rw [usableNames_cons, ← ih, holedNames, List.map_cons]
    cases h : a.usable
    · rfl
    · rfl

@[simp] theorem reduceOption_map_some (names : List Bytes) :
    (names.map some).reduceOption = names := by
  simp [List.reduceOption]

/-- The name at the front of a table, if there is no hole. -/
theorem head?_holedNames {algos : List (AlgoType ν δ)} {name : Bytes} :
    (holedNames algos).head? = some (some name) ↔
      (usableNames algos).head? = some name ∧ HeadUsable algos := by
  cases algos with
  | nil => simp [holedNames, HeadUsable]
  | cons a as =>
    rw [usableNames_cons]
    cases h : a.usable <;> simp [holedNames, HeadUsable, h]

/-- The name at the front of what the peer reads. -/
theorem head?_advertised {algos : List (AlgoType ν δ)} {name : Bytes} (hne : name ≠ []) :
    ((advertised algos).map some).head? = some (some name) ↔
      (usableNames algos).head? = some name := by
  unfold advertised
  split_ifs with h
  · simp [h, Ne.symm hne]
  · simp

/-- The names at the front make the guess right: the client's is the one that is chosen, without
kexguess2 also the server's. -/
def GuessRight (kexguess2 : Bool) (cli : List (AlgoType ν δ)) (srv : List (AlgoType ν' δ')) :
    Prop :=
  ∃ name, (usableNames cli).head? = some name ∧
    if kexguess2 then negotiated cli srv = some name else (usableNames srv).head? = some name

/-- The loops of `buf_match_algo` on the names that were read. -/
def matchAlgo (isserver : Bool) (remotenames : List Bytes) (localalgos : List (AlgoType ν δ))
    (kexguess2 : Bool) : Option (AlgoType ν δ) × Bool :=
  match if isserver then matchNames (remotenames.map some) (holedNames localalgos)
    else matchNames (holedNames localalgos) (remotenames.map some) with
  | none => (none, false)
  | some (i, j) => (localalgos[if isserver then j else i]?,
      if kexguess2 then i == 0 else i == 0 && j == 0)

theorem bufMatchAlgo_eq (isserver : Bool) (buf : Buffer) (localalgos : List (AlgoType ν δ))
    (kexguess2 : Bool) :
    bufMatchAlgo isserver buf localalgos kexguess2 = (do
      let (list, buf) ← bufGetstring buf
      let remotenames ← getAlgolist list
      let _ ← localNames localalgos
      return ((matchAlgo isserver remotenames localalgos kexguess2).1,
        (matchAlgo isserver remotenames localalgos kexguess2).2, buf)) := by
  unfold bufMatchAlgo matchAlgo
  congr 1
  funext x
  obtain ⟨list, b⟩ := x
  dsimp only
  congr 1
  funext remotenames
  by_cases hmany : localalgos.length > maxProposedAlgo
  · have hover : localNames localalgos = .error "localnames[] is overrun" := if_pos hmany
    rw [hover]
    rfl
  have hnames : localNames localalgos = .ok (holedNames localalgos) := if_neg hmany
  rw [hnames, ok_bind, ok_bind]
  cases isserver
  · simp only [Bool.false_eq_true, if_false]
    cases matchNames _ _ <;> rfl
  · simp only [if_true]
    cases matchNames _ _ <;> rfl

/-- A string that is too long. -/
theorem bufGetstring_long {buf : Buffer} {s r : Bytes} (hbuf : buf.rest = sshString s ++ r)
    (hlong : s.length > maxStringLen) : bufGetstring buf = .error "String too long" := by
  have hint : bufGetint buf = .ok (s.length, buf.advance 4) := by
    refine bufGetint_ok.2 ⟨⟨?_, s ++ r, by rw [hbuf, sshString, List.append_assoc]⟩, rfl⟩
    have hle := buf.length_rest_le
    rw [hbuf, List.length_append, length_sshString, bufMaxIncr] at hle
    omega
  rw [bufGetstring, hint, ok_bind]
  exact if_pos hlong

/-- `buf_match_algo` on the list of a table. -/
theorem bufMatchAlgo_algolist {peer : List (AlgoType ν' δ')} {buf : Buffer} {r : Bytes}
    (hpeer : WellNamed peer) (hbuf : buf.rest = algolist peer ++ r) (isserver : Bool)
    (localalgos : List (AlgoType ν δ)) (kexguess2 : Bool) :
    bufMatchAlgo isserver buf localalgos kexguess2 =
      if (algolistAll peer false).length > maxStringLen then .error "String too long"
      else if (usableNames peer).length > maxProposedAlgo then .error "Too many remote algorithms"
      else if localalgos.length > maxProposedAlgo then .error "localnames[] is overrun"
      else .ok ((matchAlgo isserver (advertised peer) localalgos kexguess2).1,
        (matchAlgo isserver (advertised peer) localalgos kexguess2).2,
        buf.advance (algolist peer).length) := by
  rw [bufMatchAlgo_eq]
  split_ifs with hlong hmany hfull
  · rw [bufGetstring_long hbuf hlong]
    rfl
  all_goals
    have hread : bufGetstring buf = .ok (algolistAll peer false, buf.advance
        (4 + (algolistAll peer false).length)) :=
      bufGetstring_ok.2 ⟨⟨Nat.le_of_not_lt hlong, r, hbuf⟩, rfl⟩
    have hnames := getAlgolist_joinNames hpeer.isName
    rw [← algolistAll_false] at hnames
    rw [hread, ok_bind]
    dsimp only
  · rw [hnames, if_neg (Nat.not_le_of_lt hmany)]
    rfl
  · rw [hnames, if_pos (Nat.le_of_not_lt hmany), ok_bind, localNames, if_pos hfull]
    rfl
  · rw [hnames, if_pos (Nat.le_of_not_lt hmany), ok_bind, localNames, if_neg hfull, algolist,
      length_sshString]
    rfl

/-- It returns exactly if the list can be read, and there is room for the table. -/
theorem bufMatchAlgo_ok_iff {peer : List (AlgoType ν' δ')} {buf b : Buffer} {r : Bytes}
    {a : Option (AlgoType ν δ)} {good : Bool} (hpeer : WellNamed peer)
    (hbuf : buf.rest = algolist peer ++ r) {isserver : Bool} {localalgos : List (AlgoType ν δ)}
    {kexguess2 : Bool} :
    bufMatchAlgo isserver buf localalgos kexguess2 = .ok (a, good, b) ↔
      (Readable peer ∧ localalgos.length ≤ maxProposedAlgo) ∧
        matchAlgo isserver (advertised peer) localalgos kexguess2 = (a, good) ∧
        b = buf.advance (algolist peer).length := by
  rw [bufMatchAlgo_algolist hpeer hbuf]
  unfold Readable
  split_ifs with hlong hmany hfull
  · simp [Nat.not_le_of_lt hlong]
  · simp [Nat.not_le_of_lt hmany]
  · simp [Nat.not_le_of_lt hfull]
  · simp [Nat.le_of_not_lt hlong, Nat.le_of_not_lt hmany, Nat.le_of_not_lt hfull, Prod.ext_iff,
      and_assoc, eq_comm]

/-! ### What both sides find -/

variable {cli : List (AlgoType ν δ)} {srv : List (AlgoType ν' δ')}

theorem mem_advertised {algos : List (AlgoType ν δ)} {name : Bytes} (hne : name ≠ []) :
    name ∈ advertised algos ↔ name ∈ usableNames algos := by
  unfold advertised
  split_ifs with h
  · simp [h, hne]
  · rfl

theorem find?_advertised_server (hsrv : WellNamed srv) :
    (advertised cli).find? (· ∈ usableNames srv) = negotiated cli srv := by
  unfold advertised negotiated
  split_ifs with h
  · have hnil : [] ∉ usableNames srv := fun hmem => (hsrv.isName [] hmem).1 rfl
    simp [h, hnil]
  · rfl

theorem find?_advertised_client (hcli : WellNamed cli) :
    (usableNames cli).find? (· ∈ advertised srv) = negotiated cli srv := by
  rw [negotiated, ← List.head?_filter, ← List.head?_filter]
  refine congrArg List.head? (List.filter_congr fun name hmem => ?_)
  rw [decide_eq_decide]
  exact mem_advertised (hcli.isName name hmem).1

/-- An entry of the table is found by its name. -/
theorem getElem?_of_holedNames {algos : List (AlgoType ν δ)} {j : ℕ} {name : Bytes}
    (h : (holedNames algos)[j]? = some (some name)) :
    ∃ a, algos[j]? = some a ∧ a.usable = true ∧ a.name = name := by
  rw [holedNames, List.getElem?_map] at h
  obtain ⟨a, ha, hname⟩ := Option.map_eq_some_iff.1 h
  refine ⟨a, ha, ?_⟩
  split_ifs at hname with husable
  exact ⟨husable, Option.some.inj hname⟩

/-- A name that is first on both sides is chosen. -/
theorem negotiated_of_head {name : Bytes} (hc : (usableNames cli).head? = some name)
    (hs : (usableNames srv).head? = some name) : negotiated cli srv = some name := by
  obtain ⟨ns, hns⟩ := List.head?_eq_some_iff.1 hc
  have hmem : name ∈ usableNames srv := List.mem_of_head? hs
  rw [negotiated, hns, List.find?_cons_of_pos (by simpa using hmem)]

/-- A right guess is chosen. -/
theorem GuessRight.negotiated {g : Bool} (h : GuessRight g cli srv) :
    ∃ name, negotiated cli srv = some name ∧ (usableNames cli).head? = some name ∧
      (g = false → (usableNames srv).head? = some name) := by
  obtain ⟨name, hc, hs⟩ := h
  cases g with
  | false => exact ⟨name, negotiated_of_head hc hs, hc, fun _ => hs⟩
  | true => exact ⟨name, hs, hc, fun hg => by cases hg⟩

theorem not_guessRight {g : Bool} (h : negotiated cli srv = none) : ¬ GuessRight g cli srv := by
  intro hr
  obtain ⟨name, hname, -⟩ := hr.negotiated
  rw [h] at hname
  cases hname

/-- A right guess, when the name that is chosen is known. -/
theorem guessRight_iff {g : Bool} {name : Bytes} (h : negotiated cli srv = some name) :
    GuessRight g cli srv ↔ (usableNames cli).head? = some name ∧
      (g = true ∨ (usableNames srv).head? = some name) := by
  constructor
  · intro hr
    obtain ⟨name', hn, hc, hs⟩ := hr.negotiated
    rw [h] at hn
    cases hn
    refine ⟨hc, ?_⟩
    cases g with
    | false => exact .inr (hs rfl)
    | true => exact .inl rfl
  · rintro ⟨hc, hs⟩
    refine ⟨name, hc, ?_⟩
    cases g with
    | false => simpa using hs
    | true => exact h

/-- The server's side: the name, and `goodguess`. -/
theorem matchAlgo_server (hsrv : WellNamed srv) (g : Bool) :
    (matchAlgo true (advertised cli) srv g).1.map (·.name) = negotiated cli srv ∧
      ((matchAlgo true (advertised cli) srv g).2 = true ↔
        GuessRight g cli srv ∧ (g = true ∨ HeadUsable srv)) := by
  unfold matchAlgo
  rw [if_pos rfl]
  have hfind : (advertised cli).find? (· ∈ usableNames srv) = negotiated cli srv :=
    find?_advertised_server hsrv
  cases hm : matchNames ((advertised cli).map some) (holedNames srv) with
  | none =>
    have hnone := matchNames_none hm
    simp only [reduceOption_map_some, reduceOption_holedNames] at hnone
    rw [hfind] at hnone
    refine ⟨hnone.symm, ?_⟩
    simp [not_guessRight hnone]
  | some ij =>
    obtain ⟨i, j⟩ := ij
    obtain ⟨name, -, hgetj, hname, hi, hj⟩ := matchNames_some hm
    simp only [reduceOption_map_some, reduceOption_holedNames] at hname
    rw [hfind] at hname
    obtain ⟨a, ha, -, haname⟩ := getElem?_of_holedNames hgetj
    have hmem : name ∈ usableNames srv := by
      have := List.find?_some hname
      simpa using this
    have hne : name ≠ [] := (hsrv.isName name hmem).1
    rw [head?_advertised hne] at hi
    rw [head?_holedNames] at hj
    refine ⟨by simp [ha, haname, hname], ?_⟩
    rw [guessRight_iff hname]
    cases g with
    | false => simp [hi, hj, and_assoc]
    | true => simp [hi]

/-- The client's side. -/
theorem matchAlgo_client (hcli : WellNamed cli) (g : Bool) :
    (matchAlgo false (advertised srv) cli g).1.map (·.name) = negotiated cli srv ∧
      ((matchAlgo false (advertised srv) cli g).2 = true ↔
        GuessRight g cli srv ∧ HeadUsable cli) := by
  unfold matchAlgo
  rw [if_neg (by decide)]
  have hfind : (usableNames cli).find? (· ∈ advertised srv) = negotiated cli srv :=
    find?_advertised_client hcli
  cases hm : matchNames (holedNames cli) ((advertised srv).map some) with
  | none =>
    have hnone := matchNames_none hm
    simp only [reduceOption_map_some, reduceOption_holedNames] at hnone
    rw [hfind] at hnone
    refine ⟨hnone.symm, ?_⟩
    simp [not_guessRight hnone]
  | some ij =>
    obtain ⟨i, j⟩ := ij
    obtain ⟨name, hgeti, -, hname, hi, hj⟩ := matchNames_some hm
    simp only [reduceOption_map_some, reduceOption_holedNames] at hname
    rw [hfind] at hname
    obtain ⟨a, ha, -, haname⟩ := getElem?_of_holedNames hgeti
    have hmem : name ∈ usableNames cli := List.mem_of_find?_eq_some hname
    have hne : name ≠ [] := (hcli.isName name hmem).1
    rw [head?_holedNames] at hi
    rw [head?_advertised hne] at hj
    refine ⟨by simp [ha, haname, hname], ?_⟩
    rw [guessRight_iff hname]
    cases g with
    | false =>
      simp only [Bool.false_eq_true, if_false, Bool.and_eq_true, beq_iff_eq, hi, hj, false_or]
      exact and_right_comm
    | true => simp [hi]

/-- **Agreement.**  The server reads the list of the client's table `cli`, and the client the one of
the server's table `srv`, each with any value of `kexguess2`; the tables have no more entries than
`localnames` has room for.  With lists of at most `MAX_STRING_LEN` bytes both get the first name
that is usable in `cli` and in `srv`, or both get none; a longer list ends the side that reads
it. -/
theorem negotiation_agrees (cli : List (AlgoType ν δ)) (srv : List (AlgoType ν' δ'))
    (hcli : WellNamed cli) (hsrv : WellNamed srv)
    (hcount : cli.length ≤ maxProposedAlgo) (hcount' : srv.length ≤ maxProposedAlgo)
    (g g' : Bool) (buf buf' : Buffer) (r r' : Bytes) (hbuf : buf.rest = algolist cli ++ r)
    (hbuf' : buf'.rest = algolist srv ++ r') :
    ((algolistAll cli false).length ≤ maxStringLen →
      ∃ a good b, bufMatchAlgo true buf srv g = .ok (a, good, b) ∧
        a.map (·.name) = negotiated cli srv) ∧
    ((algolistAll srv false).length ≤ maxStringLen →
      ∃ a good b, bufMatchAlgo false buf' cli g' = .ok (a, good, b) ∧
        a.map (·.name) = negotiated cli srv) ∧
    ((algolistAll cli false).length > maxStringLen →
      bufMatchAlgo true buf srv g = .error "String too long") ∧
    ((algolistAll srv false).length > maxStringLen →
      bufMatchAlgo false buf' cli g' = .error "String too long") := by
  refine ⟨fun hlen => ?_, fun hlen => ?_, fun hlong => ?_, fun hlong => ?_⟩
  · have hfits : Fits cli := ⟨hlen, hcount⟩
    exact ⟨_, _, _, (bufMatchAlgo_ok_iff hcli hbuf).2 ⟨⟨hfits.readable, hcount'⟩, rfl, rfl⟩,
      (matchAlgo_server hsrv g).1⟩
  · have hfits : Fits srv := ⟨hlen, hcount'⟩
    exact ⟨_, _, _, (bufMatchAlgo_ok_iff hsrv hbuf').2 ⟨⟨hfits.readable, hcount⟩, rfl, rfl⟩,
      (matchAlgo_client hcli g').1⟩
  · rw [bufMatchAlgo_algolist hcli hbuf, if_pos hlong]
  · rw [bufMatchAlgo_algolist hsrv hbuf', if_pos hlong]

end Tables

/-- The `sigalgs` of this build behind `disable_sig_except`, with the RSA key. -/
def rsaSigalgs : List (AlgoType SignatureType Unit) :=
  (disableSigExcept (svrAlgosInitialise ps4AlgoTables) .rsaSha256).sigalgs

/-- A client that prefers an algorithm that the server has disabled. -/
theorem negotiation_agrees_rekey :
    ∃ a good b a' good' b',
      bufMatchAlgo true (.ofBytes (algolist ps4AlgoTables.sigalgs) (by decide)) rsaSigalgs
        false = .ok (a, good, b) ∧
      bufMatchAlgo false (.ofBytes (algolist rsaSigalgs) (by decide))
        ps4AlgoTables.sigalgs false = .ok (a', good', b') ∧
      a.map (·.name) = some (ascii "rsa-sha2-256") ∧
      a'.map (·.name) = some (ascii "rsa-sha2-256") := by
  have hname : negotiated ps4AlgoTables.sigalgs rsaSigalgs = some (ascii "rsa-sha2-256") := by
    decide
  obtain ⟨hserver, hclient, -, -⟩ := negotiation_agrees ps4AlgoTables.sigalgs rsaSigalgs
    (by decide) (by decide) (by decide) (by decide) false false
    (.ofBytes (algolist ps4AlgoTables.sigalgs) (by decide))
    (.ofBytes (algolist rsaSigalgs) (by decide)) [] [] (by simp) (by simp)
  obtain ⟨a, good, b, hm, ha⟩ := hserver (by decide)
  obtain ⟨a', good', b', hm', ha'⟩ := hclient (by decide)
  exact ⟨a, good, b, a', good', b', hm, hm', ha.trans hname, ha'.trans hname⟩

/-- A table with one name. -/
def oneAlgo (name : Bytes) : List (AlgoType Unit Unit) := [{ name := name, val := (), data := () }]

theorem algolistAll_oneAlgo (name : Bytes) : algolistAll (oneAlgo name) false = name := by
  rw [algolistAll_false]
  exact List.append_nil name

theorem negotiated_oneAlgo (name : Bytes) :
    negotiated (oneAlgo name) (oneAlgo name) = some name :=
  negotiated_of_head rfl rfl

/-- A name of 9001 bytes. -/
def longName : Bytes := List.replicate 9001 97

theorem length_longName : longName.length = 9001 := List.length_replicate

theorem isName_longName : IsName longName := by
  refine ⟨fun h => ?_, fun h => ?_, fun h => ?_⟩
  · have := length_longName
    rw [h] at this
    cases this
  · exact absurd (List.eq_of_mem_replicate h) (by decide)
  · exact absurd (List.eq_of_mem_replicate h) (by decide)

theorem length_algolist_longName : (algolist (oneAlgo longName)).length ≤ bufMaxSize := by
  rw [algolist, length_sshString, algolistAll_oneAlgo, length_longName]
  decide

/-- Both tables have the same single name, and both sides exit. -/
theorem negotiation_exits_long_name :
    WellNamed (oneAlgo longName) ∧ (usableNames (oneAlgo longName)).Nodup ∧
      (usableNames (oneAlgo longName)).length ≤ maxProposedAlgo ∧
      negotiated (oneAlgo longName) (oneAlgo longName) = some longName ∧
      ∀ isserver, ¬ ∃ a good b,
        bufMatchAlgo isserver (.ofBytes (algolist (oneAlgo longName)) length_algolist_longName)
          (oneAlgo longName) false = .ok (a, good, b) := by
  have hnamed : WellNamed (oneAlgo longName) := List.forall_mem_singleton.2 isName_longName
  have hnames : usableNames (oneAlgo longName) = [longName] := rfl
  refine ⟨hnamed, ?_, ?_, negotiated_oneAlgo longName, fun isserver => ?_⟩
  · rw [hnames]
    simp
  · rw [hnames, List.length_singleton]
    decide
  · rintro ⟨a, good, b, h⟩
    have hrest := Buffer.rest_ofBytes (algolist (oneAlgo longName)) length_algolist_longName
    have hlen := ((bufMatchAlgo_ok_iff hnamed (hrest.trans (List.append_nil _).symm)).1 h).1.1.1
    rw [algolistAll_oneAlgo, length_longName] at hlen
    exact absurd hlen (by decide)

end Ps4Dropbear
