import Mathlib.Algebra.Ring.Parity
import Mathlib.Data.List.DropRight
import Ps4Dropbear.Session.NameList

/-!
# Algorithm lists from the command line

`check_user_algos`, on a copy of the string in memory.  The cursor of its loop is advanced in the
body, behind a comma, and again in the header, so it skips the first byte of every item but the
first one.  That is a byte of a name as a rule; a comma there is not seen, and a terminator there
is behind the cursor.

* `checkUserAlgos` : the function, with the reads of its cursor.
* `scannedItems` : the items that the cursor finds.
* `ItemsLeft` : what the commas of a list leave of its items, with a given table.
* `checkUserAlgos_iff` : **which lists are parsed as they are written**, with which table.
-/

namespace Ps4Dropbear

variable {ν δ : Type}

/-- How `check_user_algos` ends. -/
inductive AlgoScan (ν δ : Type) where
  /-- The entries for the table; their number is returned. -/
  | done (newAlgos : List (AlgoType ν δ))
  | exited (msg : Bytes)
  /-- A byte behind the terminator is examined. -/
  | beyond
  deriving DecidableEq

/-- `check_algo`. -/
def checkAlgo (algoName : Bytes) (algos : List (AlgoType ν δ)) : Option (AlgoType ν δ) :=
  algos.find? fun a => a.name == algoName

/-- What the loop of `check_user_algos` does with an item. -/
def takeAlgo (algos newAlgos : List (AlgoType ν δ)) (start : Bytes) : List (AlgoType ν δ) :=
  match checkAlgo start algos with
  | some matchAlgo =>
    if (checkAlgo start newAlgos).isSome then newAlgos else newAlgos ++ [matchAlgo]
  | none => newAlgos

/-- The exit for more than `MAX_PROPOSED_ALGO` entries. -/
def tooManyAlgorithms (userAlgoList : Bytes) : AlgoScan ν δ :=
  .exited (ascii "Too many algorithms '" ++ userAlgoList ++ ascii "'")

/-- The loop of `check_user_algos`: the cursor `c` and the pointer `start` are indices into
`workList`.  The cursor is behind the memory when no turns are left. -/
def userAlgosLoop (userAlgoList : Bytes) (algos : List (AlgoType ν δ)) :
    ℕ → Bytes → ℕ → ℕ → List (AlgoType ν δ) → AlgoScan ν δ
  | 0, _, _, _, _ => .beyond
  | turns + 1, workList, c, start, newAlgos =>
    match workList[c]? with
    | none => .beyond
    | some oc =>
      if newAlgos.length ≥ maxProposedAlgo then tooManyAlgorithms userAlgoList
      else if oc = 44 ∨ oc = 0 then
        let workList := workList.set c 0
        let newAlgos := takeAlgo algos newAlgos (cstr (workList.drop start))
        -- `start = c` behind the first increment, and the loop goes on behind the second one
        if oc = 0 then .done newAlgos
        else userAlgosLoop userAlgoList algos turns workList (c + 2) (c + 1) newAlgos
      else userAlgosLoop userAlgoList algos turns workList (c + 1) start newAlgos

/-- `check_user_algos`. -/
def checkUserAlgos (userAlgoList : Bytes) (algos : List (AlgoType ν δ)) : AlgoScan ν δ :=
  userAlgosLoop userAlgoList algos (userAlgoList.length + 1) (userAlgoList ++ [0]) 0 0 []

/-- The entries for the items, in order of their first occurrence and without repeats. -/
def entriesOf (algos : List (AlgoType ν δ)) (items : List Bytes) : List (AlgoType ν δ) :=
  items.eraseDups.filterMap (checkAlgo · algos)

/-- The scan ends at the terminator with the entries that the items of the list name. -/
def ParsedAsWritten (userAlgoList : Bytes) (algos : List (AlgoType ν δ)) : Prop :=
  checkUserAlgos userAlgoList algos = .done (entriesOf algos (userAlgoList.splitOn 44))

/-- Behind the first item, an empty one takes the next one with it: the items without these empty
ones, and whether they are taken. -/
def pairItems : List Bytes → List (Bytes × Bool)
  | [] => []
  | [item] => if item = [] then [] else [(item, false)]
  | item :: next :: items =>
    if item = [] then (next, true) :: pairItems items else (item, false) :: pairItems (next :: items)

/-- The items of a list, and whether the empty item in front of them takes them. -/
def pairedItems (userAlgoList : Bytes) : List (Bytes × Bool) :=
  let items := userAlgoList.splitOn 44
  (items.headD [], false) :: pairItems items.tail

/-- The items that are not taken. -/
def leftItems (paired : List (Bytes × Bool)) : List Bytes := (paired.filter (!·.2)).map (·.1)

/-- What the commas of a list leave of its items, with this table. -/
structure ItemsLeft (userAlgoList : Bytes) (algos : List (AlgoType ν δ)) : Prop where
  /-- The commas at the end are even in number. -/
  ends : Even (userAlgoList.rtakeWhile (· == 44)).length
  /-- A comma and an item that is taken are no name. -/
  comma : ∀ item ∈ pairedItems userAlgoList, item.2 = true → checkAlgo (44 :: item.1) algos = none
  /-- Without the items that are taken, the list names the same entries in the same order. -/
  same : entriesOf algos (leftItems (pairedItems userAlgoList)) =
    entriesOf algos (userAlgoList.splitOn 44)
  /-- There is room for the last entry. -/
  room : (entriesOf algos (leftItems (pairedItems userAlgoList).dropLast)).length < maxProposedAlgo

/-! ### What the cursor finds -/

/-- The items that the cursor finds behind the part `cur` of one; `none` when it jumps over the
terminator. -/
def scannedItems : Bytes → Bytes → Option (List Bytes)
  | cur, [] => some [cur]
  | cur, [c] => if c = 44 then none else some [cur ++ [c]]
  | cur, c :: d :: cs =>
    if c = 44 then (scannedItems [d] cs).map (cur :: ·) else scannedItems (cur ++ [c]) (d :: cs)

/-- The loop of `check_user_algos` over items. -/
def selectItems (userAlgoList : Bytes) (algos : List (AlgoType ν δ)) :
    List (AlgoType ν δ) → List Bytes → AlgoScan ν δ
  | newAlgos, [] => .done newAlgos
  | newAlgos, item :: items =>
    if newAlgos.length ≥ maxProposedAlgo then tooManyAlgorithms userAlgoList
    else selectItems userAlgoList algos (takeAlgo algos newAlgos item) items

section Cursor

variable {s cur cs front : Bytes} {algos newAlgos : List (AlgoType ν δ)} {turns start : ℕ}

theorem set_front (c : UInt8) (t : Bytes) :
    (front ++ c :: t).set front.length 0 = front ++ 0 :: t := by
  simp [List.set_append_right]

theorem getElem?_front (c : UInt8) (t : Bytes) : (front ++ c :: t)[front.length]? = some c := by
  simp

theorem cstr_drop_front (hcur : 0 ∉ cur) (hstart : start ≤ front.length)
    (hname : front.drop start = cur) (t : Bytes) :
    cstr ((front ++ 0 :: t).drop start) = cur := by
  rw [List.drop_append_of_le_length hstart, hname, cstr_append_nul hcur]

theorem scannedItems_ne_nil (cur cs : Bytes) : scannedItems cur cs ≠ some [] := by
  induction cur, cs using scannedItems.induct with
  | case1 cur => simp [scannedItems]
  | case2 cur => simp [scannedItems]
  | case3 cur c hc => simp [scannedItems, hc]
  | case4 cur d cs ih => simp [scannedItems]
  | case5 cur c d cs hc ih => simpa [scannedItems, hc] using ih

/-- With `MAX_PROPOSED_ALGO` entries no other byte is examined. -/
theorem userAlgosLoop_full (hfull : newAlgos.length ≥ maxProposedAlgo) (c : UInt8) (t : Bytes) :
    userAlgosLoop s algos (turns + 1) (front ++ c :: t) front.length start newAlgos =
      tooManyAlgorithms s := by
  rw [userAlgosLoop, getElem?_front]
  dsimp only
  rw [if_pos hfull]

theorem userAlgosLoop_nul (hroom : ¬ newAlgos.length ≥ maxProposedAlgo) (hcur : 0 ∉ cur)
    (hstart : start ≤ front.length) (hname : front.drop start = cur) (t : Bytes) :
    userAlgosLoop s algos (turns + 1) (front ++ 0 :: t) front.length start newAlgos =
      .done (takeAlgo algos newAlgos cur) := by
  rw [userAlgosLoop, getElem?_front]
  dsimp only
  rw [if_neg hroom, if_pos (Or.inr rfl), set_front, cstr_drop_front hcur hstart hname, if_pos rfl]

theorem userAlgosLoop_comma (hroom : ¬ newAlgos.length ≥ maxProposedAlgo) (hcur : 0 ∉ cur)
    (hstart : start ≤ front.length) (hname : front.drop start = cur) (t : Bytes) :
    userAlgosLoop s algos (turns + 1) (front ++ 44 :: t) front.length start newAlgos =
      userAlgosLoop s algos turns (front ++ 0 :: t) (front.length + 2) (front.length + 1)
        (takeAlgo algos newAlgos cur) := by
  rw [userAlgosLoop, getElem?_front]
  dsimp only
  rw [if_neg hroom, if_pos (Or.inl rfl), set_front, cstr_drop_front hcur hstart hname,
    if_neg (by decide)]

theorem userAlgosLoop_other {c : UInt8} (hroom : ¬ newAlgos.length ≥ maxProposedAlgo)
    (hcomma : c ≠ 44) (hnul : c ≠ 0) (t : Bytes) :
    userAlgosLoop s algos (turns + 1) (front ++ c :: t) front.length start newAlgos =
      userAlgosLoop s algos turns (front ++ [c] ++ t) (front ++ [c]).length start newAlgos := by
  rw [userAlgosLoop, getElem?_front]
  dsimp only
  rw [if_neg hroom, if_neg (not_or.2 ⟨hcomma, hnul⟩), List.append_assoc, List.length_append]
  rfl

theorem userAlgosLoop_beyond {workList : Bytes} {c : ℕ} (h : workList.length ≤ c) :
    userAlgosLoop s algos turns workList c start newAlgos = .beyond := by
  cases turns with
  | zero => rfl
  | succ turns =>
    rw [userAlgosLoop, List.getElem?_eq_none h]

/-- What the loop does when the cursor is behind the memory `front`, in an item of which `cur` has
been passed, and `cs` is before it. -/
def FollowsItems (s : Bytes) (algos : List (AlgoType ν δ)) (cur cs front : Bytes)
    (turns start : ℕ) (newAlgos : List (AlgoType ν δ)) : Prop :=
  (∀ items, scannedItems cur cs = some items →
    userAlgosLoop s algos turns (front ++ (cs ++ [0])) front.length start newAlgos =
      selectItems s algos newAlgos items) ∧
  (scannedItems cur cs = none → ∀ r,
    userAlgosLoop s algos turns (front ++ (cs ++ [0])) front.length start newAlgos ≠ .done r)

theorem followsItems_full (hfull : newAlgos.length ≥ maxProposedAlgo) :
    FollowsItems s algos cur cs front (turns + 1) start newAlgos := by
  have hexit : userAlgosLoop s algos (turns + 1) (front ++ (cs ++ [0])) front.length start
      newAlgos = tooManyAlgorithms s := by
    cases cs with
    | nil => exact userAlgosLoop_full hfull 0 []
    | cons c cs => exact userAlgosLoop_full hfull c (cs ++ [0])
  unfold FollowsItems
  rw [hexit]
  refine ⟨fun items hitems => ?_, fun _ _ => nofun⟩
  cases items with
  | nil => exact absurd hitems (scannedItems_ne_nil cur cs)
  | cons item items => rw [selectItems, if_pos hfull]

/-- The loop goes over the items that the cursor finds. -/
theorem userAlgosLoop_followsItems (hturns : cs.length < turns) (hcur : 0 ∉ cur) (hcs : 0 ∉ cs)
    (hstart : start ≤ front.length) (hname : front.drop start = cur) :
    FollowsItems s algos cur cs front turns start newAlgos := by
  induction cur, cs using scannedItems.induct generalizing front start newAlgos turns with
  | case1 cur =>
    -- the terminator
    obtain ⟨turns, rfl⟩ := Nat.exists_eq_succ_of_ne_zero (Nat.ne_zero_of_lt hturns)
    by_cases hfull : newAlgos.length ≥ maxProposedAlgo
    · exact followsItems_full hfull
    refine ⟨fun items hitems => ?_, nofun⟩
    cases hitems
    rw [List.nil_append, userAlgosLoop_nul hfull hcur hstart hname, selectItems, if_neg hfull,
      selectItems]
  | case2 cur =>
    -- a comma before the terminator
    obtain ⟨turns, rfl⟩ := Nat.exists_eq_succ_of_ne_zero (Nat.ne_zero_of_lt hturns)
    by_cases hfull : newAlgos.length ≥ maxProposedAlgo
    · exact followsItems_full hfull
    refine ⟨nofun, fun _ r => ?_⟩
    rw [List.singleton_append, userAlgosLoop_comma hfull hcur hstart hname,
      userAlgosLoop_beyond (by simp)]
    nofun
  | case3 cur c hc =>
    -- the last byte
    obtain ⟨turns, rfl⟩ := Nat.exists_eq_add_of_lt hturns
    by_cases hfull : newAlgos.length ≥ maxProposedAlgo
    · exact followsItems_full hfull
    rw [List.mem_singleton] at hcs
    refine ⟨fun items hitems => ?_, fun hnone => ?_⟩
    · rw [scannedItems, if_neg hc] at hitems
      cases hitems
      rw [List.singleton_append, userAlgosLoop_other hfull hc (Ne.symm hcs)]
      have hcur' : 0 ∉ cur ++ [c] := by
        rw [List.mem_append, List.mem_singleton, not_or]
        exact ⟨hcur, hcs⟩
      have hnul : userAlgosLoop s algos (turns + 1) (front ++ [c] ++ [0]) (front ++ [c]).length
          start newAlgos = .done (takeAlgo algos newAlgos (cur ++ [c])) :=
        userAlgosLoop_nul hfull hcur' (by rw [List.length_append]; omega)
          (by rw [List.drop_append_of_le_length hstart, hname]) []
      rw [selectItems, if_neg hfull, selectItems, ← hnul, List.length_singleton, Nat.add_comm 1]
    · rw [scannedItems, if_neg hc] at hnone
      cases hnone
  | case4 cur d cs ih =>
    obtain ⟨turns, rfl⟩ := Nat.exists_eq_succ_of_ne_zero (Nat.ne_zero_of_lt hturns)
    by_cases hfull : newAlgos.length ≥ maxProposedAlgo
    · exact followsItems_full hfull
    simp only [List.mem_cons, not_or] at hcs
    -- the byte behind the comma is passed with it
    have hstep : userAlgosLoop s algos turns.succ (front ++ (44 :: d :: cs ++ [0])) front.length
        start newAlgos = userAlgosLoop s algos turns (front ++ [0, d] ++ (cs ++ [0]))
          (front ++ [0, d]).length (front.length + 1) (takeAlgo algos newAlgos cur) := by
      rw [List.cons_append, List.cons_append, userAlgosLoop_comma hfull hcur hstart hname,
        List.append_assoc, List.length_append]
      rfl
    have hrest : FollowsItems s algos [d] cs (front ++ [0, d]) turns (front.length + 1)
        (takeAlgo algos newAlgos cur) :=
      ih (by simp only [List.length_cons] at hturns; omega)
        (by rw [List.mem_singleton]; exact hcs.2.1) hcs.2.2 (by simp) (by simp)
    unfold FollowsItems at hrest ⊢
    rw [hstep, scannedItems, if_pos rfl]
    refine ⟨fun items hitems => ?_, fun hnone => ?_⟩
    · obtain ⟨items', hitems', rfl⟩ := Option.map_eq_some_iff.1 hitems
      rw [hrest.1 items' hitems', selectItems, if_neg hfull]
    · exact hrest.2 (Option.map_eq_none_iff.1 hnone)
  | case5 cur c d cs hc ih =>
    obtain ⟨turns, rfl⟩ := Nat.exists_eq_succ_of_ne_zero (Nat.ne_zero_of_lt hturns)
    by_cases hfull : newAlgos.length ≥ maxProposedAlgo
    · exact followsItems_full hfull
    have hnul : 0 ∉ d :: cs := fun h => hcs (List.mem_cons_of_mem c h)
    have hc0 : 0 ≠ c := fun h => hcs (h ▸ List.mem_cons_self)
    have hrest : FollowsItems s algos (cur ++ [c]) (d :: cs) (front ++ [c]) turns start
        newAlgos :=
      ih (by simp only [List.length_cons] at hturns ⊢; omega)
        (by rw [List.mem_append, List.mem_singleton, not_or]; exact ⟨hcur, hc0⟩) hnul
        (by rw [List.length_append]; omega)
        (by rw [List.drop_append_of_le_length hstart, hname])
    unfold FollowsItems at hrest ⊢
    rw [List.cons_append, userAlgosLoop_other hfull hc hc0.symm, scannedItems, if_neg hc]
    exact hrest

end Cursor

/-! ### The entries of the items -/

section Entries

variable {s item : Bytes} {algos : List (AlgoType ν δ)} {items seen : List Bytes}

theorem checkAlgo_name {name : Bytes} {a : AlgoType ν δ} (h : checkAlgo name algos = some a) :
    a.name = name := by
  simpa using List.find?_some h

theorem checkAlgo_eq_none {name : Bytes} :
    checkAlgo name algos = none ↔ ∀ a ∈ algos, a.name ≠ name := by
  simp [checkAlgo]

theorem mem_entriesOf {a : AlgoType ν δ} :
    a ∈ entriesOf algos items ↔ ∃ x ∈ items, checkAlgo x algos = some a := by
  simp [entriesOf]

theorem checkAlgo_entriesOf (name : Bytes) :
    (checkAlgo name (entriesOf algos items)).isSome ↔
      name ∈ items ∧ (checkAlgo name algos).isSome := by
  rw [← not_iff_not, Option.not_isSome_iff_eq_none, checkAlgo_eq_none]
  constructor
  · rintro h ⟨hmem, hsome⟩
    obtain ⟨a, ha⟩ := Option.isSome_iff_exists.1 hsome
    exact h a (mem_entriesOf.2 ⟨name, hmem, ha⟩) (checkAlgo_name ha)
  · rintro h a ha rfl
    obtain ⟨x, hx, hfind⟩ := mem_entriesOf.1 ha
    have hx' := checkAlgo_name hfind
    subst hx'
    exact h ⟨hx, by rw [hfind]; rfl⟩

theorem entriesOf_append (items items' : List Bytes) :
    entriesOf algos (items ++ items') = entriesOf algos items ++
      (items'.removeAll items).eraseDups.filterMap (checkAlgo · algos) := by
  unfold entriesOf
  rw [List.eraseDups_append, List.filterMap_append]

theorem length_entriesOf_append (items items' : List Bytes) :
    (entriesOf algos items).length ≤ (entriesOf algos (items ++ items')).length := by
  rw [entriesOf_append, List.length_append]
  omega

/-- An item adds its entry, unless it has been added. -/
theorem takeAlgo_entriesOf :
    takeAlgo algos (entriesOf algos seen) item = entriesOf algos (seen ++ [item]) := by
  rw [entriesOf_append]
  unfold takeAlgo
  by_cases hseen : item ∈ seen
  · have hremove : [item].removeAll seen = [] := by simp [List.removeAll, hseen]
    rw [hremove, List.eraseDups_nil, List.filterMap_nil, List.append_nil]
    cases hfind : checkAlgo item algos with
    | none => rfl
    | some a =>
      dsimp only
      rw [if_pos ((checkAlgo_entriesOf item).2 ⟨hseen, by rw [hfind]; rfl⟩)]
  · have hremove : [item].removeAll seen = [item] := by simp [List.removeAll, hseen]
    have honce : [item].eraseDups = [item] := by simp [List.eraseDups_cons]
    rw [hremove, honce]
    cases hfind : checkAlgo item algos with
    | none => simp [hfind]
    | some a =>
      dsimp only
      rw [if_neg fun h => hseen ((checkAlgo_entriesOf item).1 h).1]
      simp [hfind]

/-- The loop over items ends with their entries, or exits when there are `MAX_PROPOSED_ALGO` of
them before the last item. -/
theorem selectItems_eq (hitems : items ≠ []) :
    selectItems s algos (entriesOf algos seen) items =
      if (entriesOf algos (seen ++ items.dropLast)).length < maxProposedAlgo then
        .done (entriesOf algos (seen ++ items))
      else tooManyAlgorithms s := by
  induction items generalizing seen with
  | nil => exact absurd rfl hitems
  | cons item items ih =>
    have hmono : (entriesOf algos seen).length ≤
        (entriesOf algos (seen ++ (item :: items).dropLast)).length :=
      length_entriesOf_append seen _
    rw [selectItems]
    by_cases hfull : (entriesOf algos seen).length ≥ maxProposedAlgo
    · rw [if_pos hfull, if_neg (by omega)]
    rw [if_neg hfull, takeAlgo_entriesOf]
    cases items with
    | nil =>
      rw [selectItems, if_pos (by rw [List.dropLast_singleton, List.append_nil]; omega)]
    | cons item' items =>
      rw [ih (List.cons_ne_nil _ _), List.dropLast_cons_cons, List.append_assoc,
        List.append_assoc]
      rfl

/-- A list is parsed as it is written when the cursor finds the entries of its items, and none of
them is one too many. -/
theorem parsedAsWritten_iff_scanned (hs : 0 ∉ s) :
    ParsedAsWritten s algos ↔ ∃ items, scannedItems [] s = some items ∧
      (entriesOf algos items.dropLast).length < maxProposedAlgo ∧
      entriesOf algos items = entriesOf algos (s.splitOn 44) := by
  have hfollows : FollowsItems s algos [] s [] (s.length + 1) 0 [] :=
    userAlgosLoop_followsItems (Nat.lt_succ_self _) List.not_mem_nil hs (Nat.le_refl 0) rfl
  unfold ParsedAsWritten checkUserAlgos
  cases hscan : scannedItems [] s with
  | none => exact iff_of_false (hfollows.2 hscan _) (by rintro ⟨_, h, _⟩; cases h)
  | some items =>
    have hne : items ≠ [] := fun h => scannedItems_ne_nil [] s (h ▸ hscan)
    have hloop : userAlgosLoop s algos (s.length + 1) (s ++ [0]) 0 0 [] =
        if (entriesOf algos items.dropLast).length < maxProposedAlgo then
          .done (entriesOf algos items) else tooManyAlgorithms s :=
      (hfollows.1 items hscan).trans (@selectItems_eq _ _ _ _ _ [] hne)
    rw [hloop]
    constructor
    · intro h
      by_cases hroom : (entriesOf algos items.dropLast).length < maxProposedAlgo
      · rw [if_pos hroom] at h
        exact ⟨items, rfl, hroom, AlgoScan.done.inj h⟩
      · rw [if_neg hroom] at h
        cases h
    · rintro ⟨_, hscan', hroom, hsame⟩
      cases hscan'
      rw [if_pos hroom, hsame]

end Entries

/-! ### Which items the cursor finds -/

section Commas

variable {s cur cs : Bytes}

/-- The text of an item for the cursor. -/
def pairText (item : Bytes × Bool) : Bytes := if item.2 then 44 :: item.1 else item.1

theorem exists_splitOn_cons (cs : Bytes) : ∃ item items, cs.splitOn 44 = item :: items :=
  List.exists_cons_of_ne_nil (List.splitOn_ne_nil 44 cs)

theorem splitOn_comma (cs : Bytes) : (44 :: cs).splitOn 44 = [] :: cs.splitOn 44 := by
  rw [List.splitOn_cons_eq_if_modifyHead, if_pos (beq_self_eq_true _)]

theorem splitOn_cons_of_ne {c : UInt8} {item : Bytes} {items : List Bytes} (hc : c ≠ 44)
    (h : cs.splitOn 44 = item :: items) : (c :: cs).splitOn 44 = (c :: item) :: items := by
  rw [List.splitOn_cons_eq_if_modifyHead, if_neg (by simpa using hc), h, List.modifyHead_cons]

theorem pairItems_empty (item : Bytes) (items : List Bytes) :
    pairItems ([] :: item :: items) = (item, true) :: pairItems items := by
  rw [pairItems, if_pos rfl]

theorem pairItems_of_ne {item : Bytes} (h : item ≠ []) (items : List Bytes) :
    pairItems (item :: items) = (item, false) :: pairItems items := by
  cases items with
  | nil => exact if_neg h
  | cons next items => rw [pairItems, if_neg h]

/-- A byte at the front does not matter, unless all are commas. -/
theorem rtakeWhile_cons {c : UInt8} {cs : Bytes} (hall : ¬∀ x ∈ c :: cs, x = 44) :
    (c :: cs).rtakeWhile (· == 44) = cs.rtakeWhile (· == 44) := by
  induction cs using List.reverseRecOn with
  | nil =>
    have hc : c ≠ 44 := fun hc => hall (by simpa using hc)
    have hlast : [c].rtakeWhile (· == 44) = [] :=
      List.rtakeWhile_concat_neg (l := []) _ _ (by simpa using hc)
    rw [hlast, List.rtakeWhile_nil]
  | append_singleton cs d ih =>
    rw [← List.cons_append]
    by_cases hd : d = 44
    · rw [List.rtakeWhile_concat_pos _ _ _ (by simpa using hd),
        List.rtakeWhile_concat_pos _ _ _ (by simpa using hd), ih fun h => hall ?_]
      intro x hx
      rw [← List.cons_append, List.mem_append, List.mem_singleton] at hx
      exact hx.elim (h x) fun hx => hx.trans hd
    · rw [List.rtakeWhile_concat_neg _ _ _ (by simpa using hd),
        List.rtakeWhile_concat_neg _ _ _ (by simpa using hd)]

/-- Two bytes at the front do not matter, unless the second one is a comma of its own. -/
theorem even_rtakeWhile {c d : UInt8} (hcd : d = 44 → c = 44) :
    Even ((c :: d :: cs).rtakeWhile (· == 44)).length ↔
      Even (cs.rtakeWhile (· == 44)).length := by
  have hself : ∀ {x : Bytes}, (∀ b ∈ x, b = 44) → x.rtakeWhile (· == 44) = x :=
    fun h => List.rtakeWhile_eq_self_iff.2 (by simpa using h)
  by_cases hall : ∀ x ∈ d :: cs, x = 44
  · obtain ⟨hd, hcs⟩ := List.forall_mem_cons.1 hall
    have hboth : ∀ x ∈ c :: d :: cs, x = 44 := List.forall_mem_cons.2 ⟨hcd hd, hall⟩
    rw [hself hboth, hself hcs, List.length_cons, List.length_cons, Nat.even_add_one,
      Nat.even_add_one, not_not]
  · rw [rtakeWhile_cons fun h => hall (List.forall_mem_cons.1 h).2, rtakeWhile_cons hall]

/-- **What the cursor finds**: behind the first item, an empty one is a comma in front of the next
item, and at the end it hides the terminator. -/
theorem scannedItems_eq {item : Bytes} {items : List Bytes} (h : cs.splitOn 44 = item :: items) :
    scannedItems cur cs =
      if Even (cs.rtakeWhile (· == 44)).length then
        some ((cur ++ item) :: (pairItems items).map pairText)
      else none := by
  induction cur, cs using scannedItems.induct generalizing item items with
  | case1 cur =>
    cases h
    simp [scannedItems, pairItems]
  | case2 cur =>
    have hone : [(44 : UInt8)].rtakeWhile (· == 44) = [44] :=
      List.rtakeWhile_eq_self_iff.2 (by simp)
    rw [scannedItems, if_pos rfl, hone, if_neg (by decide)]
  | case3 cur c hc =>
    rw [List.splitOn_eq_singleton (by simpa using Ne.symm hc)] at h
    cases h
    have hlast : [c].rtakeWhile (· == 44) = [] :=
      List.rtakeWhile_concat_neg (l := []) _ _ (by simpa using hc)
    rw [scannedItems, if_neg hc, hlast, if_pos (by decide)]
    rfl
  | case4 cur d cs ih =>
    obtain ⟨item', items', hsplit⟩ := exists_splitOn_cons cs
    rw [scannedItems, if_pos rfl, ih hsplit]
    simp only [even_rtakeWhile (c := 44) (d := d) fun _ => rfl]
    rw [splitOn_comma] at h
    obtain ⟨rfl, htail⟩ := List.cons.inj h
    have hpair : (pairItems items).map pairText =
        ([d] ++ item') :: (pairItems items').map pairText := by
      by_cases hd : d = 44
      · rw [hd, splitOn_comma, hsplit] at htail
        rw [← htail, pairItems_empty, List.map_cons, hd]
        rfl
      · rw [splitOn_cons_of_ne hd hsplit] at htail
        rw [← htail, pairItems_of_ne (List.cons_ne_nil _ _), List.map_cons]
        rfl
    rw [hpair, List.append_nil]
    split_ifs <;> rfl
  | case5 cur c d cs hc ih =>
    obtain ⟨item', items', hsplit⟩ := exists_splitOn_cons (d :: cs)
    rw [splitOn_cons_of_ne hc hsplit] at h
    obtain ⟨rfl, rfl⟩ := List.cons.inj h
    have hlast : (c :: d :: cs).rtakeWhile (· == 44) = (d :: cs).rtakeWhile (· == 44) := by
      rw [rtakeWhile_cons fun hall => hc (hall c List.mem_cons_self)]
    rw [scannedItems, if_neg hc, ih hsplit, hlast, List.append_assoc]
    rfl

end Commas

/-! ### Lists that are parsed as they are written -/

section Parsed

variable {s : Bytes} {algos : List (AlgoType ν δ)} {paired : List (Bytes × Bool)}

theorem leftItems_concat (paired : List (Bytes × Bool)) (item : Bytes × Bool) :
    leftItems (paired ++ [item]) = leftItems paired ++ if item.2 then [] else [item.1] := by
  obtain ⟨x, b⟩ := item
  cases b <;> simp [leftItems]

/-- Items that are no names do not count. -/
theorem entriesOf_pairText
    (h : ∀ item ∈ paired, item.2 = true → checkAlgo (44 :: item.1) algos = none) :
    entriesOf algos (paired.map pairText) = entriesOf algos (leftItems paired) := by
  induction paired using List.reverseRecOn with
  | nil => rfl
  | append_singleton paired item ih =>
    rw [List.map_append, List.map_singleton, leftItems_concat, ← takeAlgo_entriesOf,
      ih fun item' hitem => h item' (List.mem_append_left _ hitem)]
    have hnone := h item (List.mem_append_right _ (List.mem_singleton_self item))
    obtain ⟨x, taken⟩ := item
    cases taken with
    | false => exact takeAlgo_entriesOf
    | true =>
      have hskip : checkAlgo (pairText (x, true)) algos = none := hnone rfl
      rw [takeAlgo, hskip, if_pos rfl, List.append_nil]

/-- **Which lists are parsed as they are written with which tables**: the list does not end in an
odd number of commas, the items that an empty item takes with it are not missed, and no comma in
front of them makes a name of them; and fewer than `MAX_PROPOSED_ALGO` entries are named before the
last item. -/
theorem checkUserAlgos_iff {s : Bytes} (hs : 0 ∉ s) (algos : List (AlgoType ν δ)) :
    ParsedAsWritten s algos ↔ ItemsLeft s algos := by
  obtain ⟨item, items, hsplit⟩ := exists_splitOn_cons s
  have hpaired : pairedItems s = (item, false) :: pairItems items := by
    rw [pairedItems, hsplit]
    rfl
  have hfound : scannedItems [] s = if Even (s.rtakeWhile (· == 44)).length then
      some ((pairedItems s).map pairText) else none := by
    rw [scannedItems_eq hsplit, hpaired]
    rfl
  rw [parsedAsWritten_iff_scanned hs, hfound]
  constructor
  · rintro ⟨found, hfound, hroom, hsame⟩
    split_ifs at hfound with heven
    cases hfound
    have hcomma : ∀ item ∈ pairedItems s, item.2 = true → checkAlgo (44 :: item.1) algos = none := by
      -- an item of the list has no comma in it
      rintro ⟨x, taken⟩ hmem rfl
      by_contra hne
      have hname := (checkAlgo_entriesOf (44 :: x)).2
        ⟨List.mem_map_of_mem (f := pairText) hmem, Option.isSome_iff_ne_none.2 hne⟩
      rw [hsame, checkAlgo_entriesOf] at hname
      exact not_mem_of_mem_splitOn hname.1 List.mem_cons_self
    rw [entriesOf_pairText hcomma] at hsame
    rw [← List.map_dropLast, entriesOf_pairText fun item hmem =>
      hcomma item (List.dropLast_subset _ hmem)] at hroom
    exact ⟨heven, hcomma, hsame, hroom⟩
  · rintro ⟨heven, hcomma, hsame, hroom⟩
    refine ⟨_, if_pos heven, ?_, ?_⟩
    · rw [← List.map_dropLast, entriesOf_pairText fun item hmem =>
        hcomma item (List.dropLast_subset _ hmem)]
      exact hroom
    · rw [entriesOf_pairText hcomma]
      exact hsame

end Parsed

instance (s : Bytes) (algos : List (AlgoType ν δ)) [DecidableEq ν] [DecidableEq δ] :
    Decidable (ItemsLeft s algos) :=
  decidable_of_iff (_ ∧ _ ∧ _ ∧ _)
    ⟨fun h => ⟨h.1, h.2.1, h.2.2.1, h.2.2.2⟩, fun h => ⟨h.ends, h.comma, h.same, h.room⟩⟩

/-- An item behind an empty one that the list has again, and commas at the end. -/
theorem checkUserAlgos_iff_ctr :
    ParsedAsWritten (ascii "aes128-ctr,,aes256-ctr,aes256-ctr,rot13,,")
      ps4AlgoTables.sshciphers :=
  (checkUserAlgos_iff (by decide) _).2 (by decide)

/-- An empty item takes the next one with it, and a comma at the end takes the cursor behind the
terminator. -/
theorem checkUserAlgos_skips :
    checkUserAlgos (ascii "aes128-ctr,,aes256-ctr") ps4AlgoTables.sshciphers =
        checkUserAlgos (ascii "aes128-ctr") ps4AlgoTables.sshciphers ∧
      ¬ ParsedAsWritten (ascii "aes128-ctr,,aes256-ctr") ps4AlgoTables.sshciphers ∧
      checkUserAlgos (ascii "aes128-ctr,") ps4AlgoTables.sshciphers = .beyond := by
  unfold ParsedAsWritten
  decide

end Ps4Dropbear
