import Ps4Dropbear.Buffer.Content
import Ps4Dropbear.Session.Negotiation
import Ps4Dropbear.Text.Paths

/-!
# Name lists in memory

`get_algolist` turns the commas of a string into the ends of its names, and returns pointers into
it; `buf_put_algolist_all` writes a list with a placeholder for its length; `buf_has_algo` puts the
position of the buffer back.

* `getAlgolistNames_eq` : the pointers lead to the names that `getAlgolist` returns.
* `getAlgolist_eq` : which these are.
* `bufPutAlgolistAll_has` : what is written.
* `nameList_spec` : **the items of a list, and the round trip of a table**.
-/

namespace Ps4Dropbear

/-- The loop of `get_algolist`, with `k` bytes left from the index `i` on; `retList` are indices
into the memory. -/
def namelistLoop (maxCount : ℕ) : ℕ → ℕ → Bytes → List ℕ → Except Exit (Bytes × List ℕ)
  | 0, _, algolist, retList => .ok (algolist, retList)
  | k + 1, i, algolist, retList =>
    if algolist.getD i 0 = 0 then .ok (algolist, [])
    else if algolist.getD i 0 = 44 then
      if retList.length ≥ maxCount then dropbearExit "Too many remote algorithms"
      else namelistLoop maxCount k (i + 1) (algolist.set i 0) (retList ++ [i + 1])
    else namelistLoop maxCount k (i + 1) algolist retList

/-- `get_algolist`: the memory behind it, and the indices of the names in it.  For a list that is
longer than `MAX_PROPOSED_ALGO*(MAX_NAME_LEN+1)` the count is set to zero, and then to one as for
every other list. -/
def getAlgolistAt (algolist : Bytes) (algolistLen retCount : ℕ) : Except Exit (Bytes × List ℕ) :=
  if retCount = 0 then .ok (algolist, [])
  else namelistLoop retCount algolistLen 0 algolist [0]

/-- The names that `get_algolist` returns for a string that `buf_getstring` has read. -/
def getAlgolistNames (algolist : Bytes) : Except Exit (List Bytes) := do
  let (memory, retList) ← getAlgolistAt (algolist ++ [0]) algolist.length maxProposedAlgo
  return retList.map fun p => cstr (memory.drop p)

/-- `buf_has_algo` with the buffer that it leaves. -/
def bufHasAlgoAt (buf : Buffer) (algo : Bytes) : Except Exit (Bool × Buffer) := do
  let origPos := buf.pos
  let (algolist, buf) ← bufGetstring buf
  let remotenames ← getAlgolistNames algolist
  let buf ← bufSetpos buf origPos
  return (remotenames.contains algo, buf)

section Put

variable {ν δ : Type}

/-- The loop of `buf_put_algolist_all`. -/
def putNamesLoop (useall : Bool) : Bool → List (AlgoType ν δ) → Buffer → Except Exit Buffer
  | _, [], buf => .ok buf
  | donefirst, a :: as, buf =>
    if a.usable || useall then do
      let buf ← (if donefirst then bufPutbyte buf 44 else .ok buf)
      let buf ← bufPutbytes buf a.name
      putNamesLoop useall true as buf
    else putNamesLoop useall donefirst as buf

/-- `buf_put_algolist_all`. -/
def bufPutAlgolistAll (buf : Buffer) (localalgos : List (AlgoType ν δ)) (useall : Bool) :
    Except Exit Buffer := do
  let startpos := buf.pos
  -- placeholder for length
  let buf ← bufPutint buf 0
  let buf ← putNamesLoop useall false localalgos buf
  let len := buf.pos - startpos - 4
  let buf ← bufSetpos buf startpos
  let buf ← bufPutint buf len
  bufIncrwritepos buf len

end Put

/-! ### The names behind the pointers -/

theorem cstr_append_nul {name : Bytes} (h : 0 ∉ name) (t : Bytes) :
    cstr (name ++ 0 :: t) = name := by
  unfold cstr
  rw [List.takeWhile_append_of_pos]
  · simp
  · intro c hc
    exact decide_eq_true fun h0 => h (h0 ▸ hc)

/-- The loop, behind the bytes `front` of the memory: `offs` point to the names `done`, and `o` to
the name `cur`, which goes on. -/
theorem namelistLoop_eq {front cur rest : Bytes} {done : List Bytes} {offs : List ℕ} {o : ℕ}
    (hcur : 0 ∉ cur) (ho : o ≤ front.length) (hname : front.drop o = cur)
    (hdone : ∀ t, offs.map (fun p => cstr ((front ++ t).drop p)) = done) :
    ((namelistLoop maxProposedAlgo rest.length front.length (front ++ (rest ++ [0]))
      (offs ++ [o])).map fun r => r.2.map fun p => cstr (r.1.drop p)) =
      getAlgolistLoop done cur rest := by
  have hlen : done.length = offs.length := by
    rw [← hdone [], List.length_map]
  have hlast : ∀ t, (front ++ t).drop o = cur ++ t := fun t => by
    rw [List.drop_append_of_le_length ho, hname]
  induction rest generalizing front cur done offs o with
  | nil =>
    change Except.ok ((offs ++ [o]).map _) = Except.ok (done ++ [cur])
    rw [List.map_append, hdone, List.map_singleton, hlast, List.nil_append, cstr_append_nul hcur]
  | cons c cs ih =>
    have hget : (front ++ (c :: cs ++ [0])).getD front.length 0 = c := by
      simp [List.getD_eq_getElem?_getD]
    have hcount : (offs ++ [o]).length = done.length + 1 := by
      rw [List.length_append, List.length_singleton, hlen]
    unfold getAlgolistLoop
    rw [List.length_cons, namelistLoop, hget, hcount]
    by_cases hnul : c = 0
    · rw [if_pos hnul, if_pos hnul]
      rfl
    rw [if_neg hnul, if_neg hnul]
    by_cases hcomma : c = 44
    · rw [if_pos hcomma, if_pos hcomma]
      by_cases hroom : done.length + 1 ≥ maxProposedAlgo
      · rw [if_pos hroom, if_pos hroom]
        rfl
      · -- the comma becomes the end of `cur`
        rw [if_neg hroom, if_neg hroom]
        have hset : (front ++ (c :: cs ++ [0])).set front.length 0 =
            front ++ [0] ++ (cs ++ [0]) := by
          simp [List.set_append_right]
        rw [hset]
        have hnext := @ih (front ++ [0]) [] (done ++ [cur]) (offs ++ [o]) (front.length + 1)
          List.not_mem_nil (by simp) (by simp) (fun t => by
            rw [List.map_append, List.append_assoc, hdone, List.map_singleton, hlast,
              List.singleton_append, cstr_append_nul hcur])
          (by simp [hlen]) (fun t => by simp)
        rw [List.length_append, List.length_singleton] at hnext
        exact hnext
    · rw [if_neg hcomma, if_neg hcomma]
      have hmem : front ++ (c :: cs ++ [0]) = front ++ [c] ++ (cs ++ [0]) := by simp
      rw [hmem]
      have hnext := @ih (front ++ [c]) (cur ++ [c]) done offs o
        (by
          rw [List.mem_append, List.mem_singleton, not_or]
          exact ⟨hcur, Ne.symm hnul⟩)
        (by rw [List.length_append]; omega) (hlast [c])
        (fun t => by rw [List.append_assoc]; exact hdone _)
        hlen (fun t => by rw [List.append_assoc, hlast, List.append_assoc])
      rw [List.length_append, List.length_singleton] at hnext
      exact hnext

/-- The pointers lead to the names. -/
theorem getAlgolistNames_eq (s : Bytes) : getAlgolistNames s = getAlgolist s := by
  have hloop := @namelistLoop_eq [] [] s [] [] 0 List.not_mem_nil (Nat.le_refl 0) rfl
    fun _ => rfl
  rw [List.nil_append, List.nil_append, List.length_nil] at hloop
  unfold getAlgolistNames getAlgolistAt getAlgolist
  rw [if_neg (by decide), ← hloop]
  cases namelistLoop maxProposedAlgo s.length 0 (s ++ [0]) [0] <;> rfl

/-! ### Which names these are -/

theorem length_splitOn_pos (s : Bytes) : 0 < (s.splitOn 44).length :=
  List.length_pos_iff.2 (List.splitOn_ne_nil 44 s)

/-- The loop, for the rest `s` of the list behind `done` and a part `cur` of a name. -/
theorem getAlgolistLoop_eq {done : List Bytes} {cur s : Bytes} (hcur : 44 ∉ cur)
    (hdone : done.length < maxProposedAlgo) :
    getAlgolistLoop done cur s =
      if maxProposedAlgo < done.length + ((cur ++ s.takeWhile (· ≠ 0)).splitOn 44).length then
        dropbearExit "Too many remote algorithms"
      else if 0 ∈ s then .ok [] else .ok (done ++ (cur ++ s).splitOn 44) := by
  induction s generalizing done cur with
  | nil =>
    rw [List.takeWhile_nil, List.append_nil, List.splitOn_eq_singleton hcur, List.length_singleton,
      if_neg (by omega), if_neg List.not_mem_nil]
    rfl
  | cons c cs ih =>
    unfold getAlgolistLoop
    by_cases hnul : c = 0
    · have htake : (c :: cs).takeWhile (· ≠ 0) = [] := by simp [hnul]
      rw [if_pos hnul, htake, List.append_nil, List.splitOn_eq_singleton hcur,
        List.length_singleton, if_neg (by omega), if_pos (by rw [hnul]; exact List.mem_cons_self)]
    have htake : (c :: cs).takeWhile (· ≠ 0) = c :: cs.takeWhile (· ≠ 0) := by simp [hnul]
    have hmem : 0 ∈ c :: cs ↔ 0 ∈ cs := by
      rw [List.mem_cons]
      exact or_iff_right (Ne.symm hnul)
    rw [if_neg hnul, htake, if_congr hmem rfl rfl]
    by_cases hcomma : c = 44
    · rw [if_pos hcomma, hcomma, List.splitOn_append_cons_self_of_not_mem hcur,
        List.splitOn_append_cons_self_of_not_mem hcur, List.length_cons]
      have hpos := length_splitOn_pos (cs.takeWhile (· ≠ 0))
      by_cases hroom : done.length + 1 ≥ maxProposedAlgo
      · rw [if_pos hroom, if_pos (by omega)]
      · have hsame : done.length + (((cs.takeWhile (· ≠ 0)).splitOn 44).length + 1) =
            (done ++ [cur]).length + ((cs.takeWhile (· ≠ 0)).splitOn 44).length := by
          rw [List.length_append, List.length_singleton]
          omega
        rw [if_neg hroom,
          ih List.not_mem_nil (by rw [List.length_append, List.length_singleton]; omega),
          List.nil_append, List.nil_append, hsame, List.append_assoc, List.singleton_append]
    · have hcur' : 44 ∉ cur ++ [c] := by
        rw [List.mem_append, List.mem_singleton, not_or]
        exact ⟨hcur, Ne.symm hcomma⟩
      rw [if_neg hcomma, ih hcur' hdone, List.append_assoc, List.append_assoc,
        List.singleton_append, List.singleton_append]

/-- `get_algolist` reads up to a NUL: too many items before it end the session. -/
theorem getAlgolist_eq (s : Bytes) :
    getAlgolist s =
      if maxProposedAlgo < ((s.takeWhile (· ≠ 0)).splitOn 44).length then
        dropbearExit "Too many remote algorithms"
      else if 0 ∈ s then .ok [] else .ok (s.splitOn 44) := by
  unfold getAlgolist
  rw [getAlgolistLoop_eq List.not_mem_nil (by decide)]
  simp only [List.length_nil, Nat.zero_add, List.nil_append]

theorem splitOn_joinNames {names : List Bytes} (h : ∀ n ∈ names, 44 ∉ n) :
    (joinNames names).splitOn 44 = if names = [] then [[]] else names := by
  cases names with
  | nil => rfl
  | cons n ns =>
    rw [if_neg (List.cons_ne_nil n ns)]
    induction ns generalizing n with
    | nil =>
      change (n ++ []).splitOn 44 = [n]
      rw [List.append_nil, List.splitOn_eq_singleton (h n List.mem_cons_self)]
    | cons m ms ih =>
      have hjoin : joinNames (n :: m :: ms) = n ++ 44 :: joinNames (m :: ms) := rfl
      rw [hjoin, List.splitOn_append_cons_self_of_not_mem (h n List.mem_cons_self),
        ih m fun k hk => h k (List.mem_cons_of_mem n hk)]

theorem not_mem_joinNames {names : List Bytes} (h : ∀ n ∈ names, 0 ∉ n) : 0 ∉ joinNames names := by
  cases names with
  | nil => exact List.not_mem_nil
  | cons n ns =>
    simp only [joinNames, commaNames, List.mem_append, List.mem_flatMap, List.mem_cons, not_or,
      not_exists, not_and]
    exact ⟨h n List.mem_cons_self, fun m hm => ⟨by decide, h m (List.mem_cons_of_mem n hm)⟩⟩

/-- A table is read as it was written; a table without a selected name is one empty name. -/
theorem getAlgolist_algolistAll {ν δ : Type} {algos : List (AlgoType ν δ)} {useall : Bool}
    (hnames : ∀ n ∈ selectedNames algos useall, 44 ∉ n ∧ 0 ∉ n)
    (hlen : (selectedNames algos useall).length ≤ maxProposedAlgo) :
    getAlgolist (algolistAll algos useall) =
      .ok (if selectedNames algos useall = [] then [[]] else selectedNames algos useall) := by
  have hnul : 0 ∉ joinNames (selectedNames algos useall) :=
    not_mem_joinNames fun n hn => (hnames n hn).2
  have hsplit := splitOn_joinNames fun n hn => (hnames n hn).1
  have htake : (joinNames (selectedNames algos useall)).takeWhile (· ≠ 0) =
      joinNames (selectedNames algos useall) :=
    List.takeWhile_eq_self_iff.2 fun c hc => decide_eq_true fun h0 => hnul (h0 ▸ hc)
  rw [algolistAll_eq, getAlgolist_eq, htake, hsplit, if_neg, if_neg hnul]
  split_ifs
  · decide
  · exact Nat.not_lt.2 hlen

/-! ### What is written -/

section Put

variable {ν δ : Type} {size : ℕ} {u : Bytes} {b : Buffer}

theorem putNamesLoop_has (useall : Bool) (as : List (AlgoType ν δ)) (donefirst : Bool)
    (hb : b.Has size u u.length)
    (hroom : u.length + (algolistLoop useall donefirst as).length ≤ size) :
    ∃ b', putNamesLoop useall donefirst as b = .ok b' ∧
      b'.Has size (u ++ algolistLoop useall donefirst as)
        (u ++ algolistLoop useall donefirst as).length := by
  induction as generalizing u b donefirst with
  | nil => exact ⟨b, rfl, by rwa [algolistLoop, List.append_nil]⟩
  | cons a as ih =>
    unfold putNamesLoop
    unfold algolistLoop at hroom ⊢
    by_cases hsel : (a.usable || useall) = true
    · rw [if_pos hsel] at hroom ⊢
      rw [if_pos hsel]
      simp only [List.length_append] at hroom
      -- the comma
      have hcomma : ∃ b₁, (if donefirst then bufPutbyte b 44 else .ok b) = .ok b₁ ∧
          b₁.Has size (u ++ if donefirst then ascii "," else [])
            (u ++ if donefirst then ascii "," else []).length := by
        cases donefirst with
        | true =>
          have hone : u.length + 1 ≤ size := by
            have hlen : (ascii ",").length = 1 := rfl
            rw [if_pos rfl, hlen] at hroom
            omega
          obtain ⟨b₁, h₁, hb₁⟩ := hb.putbyte (d := 44) hone
          exact ⟨b₁, h₁, by rw [List.length_append]; exact hb₁⟩
        | false => exact ⟨b, rfl, by rwa [if_neg Bool.false_ne_true, List.append_nil]⟩
      obtain ⟨b₁, h₁, hb₁⟩ := hcomma
      obtain ⟨b₂, h₂, hb₂⟩ := hb₁.putbytes (x := a.name) (by rw [List.length_append]; omega)
      rw [← List.length_append] at hb₂
      obtain ⟨b₃, h₃, hb₃⟩ := ih true hb₂ (by simp only [List.length_append]; omega)
      rw [h₁, ok_bind, h₂, ok_bind, h₃]
      refine ⟨b₃, rfl, ?_⟩
      simpa only [List.append_assoc] using hb₃
    · rw [if_neg hsel] at hroom ⊢
      rw [if_neg hsel]
      exact ih donefirst hb hroom

/-- `buf_put_algolist_all` writes the list with its length. -/
theorem bufPutAlgolistAll_has (algos : List (AlgoType ν δ)) (useall : Bool)
    (hb : b.Has size u u.length)
    (hroom : u.length + (4 + (algolistAll algos useall).length) ≤ size) :
    ∃ b', bufPutAlgolistAll b algos useall = .ok b' ∧
      b'.Has size (u ++ sshString (algolistAll algos useall))
        (u ++ sshString (algolistAll algos useall)).length := by
  obtain ⟨b₁, h₁, hb₁⟩ := hb.putbytes (x := store32h 0) (by rw [length_store32h]; omega)
  rw [← List.length_append] at hb₁
  obtain ⟨b₂, h₂, hb₂⟩ := putNamesLoop_has useall algos false hb₁
    (by
      rw [List.length_append, length_store32h]
      change _ + (algolistAll algos useall).length ≤ _
      omega)
  change b₂.Has size (u ++ store32h 0 ++ algolistAll algos useall)
    (u ++ store32h 0 ++ algolistAll algos useall).length at hb₂
  generalize algolistAll algos useall = list at hroom hb₂ ⊢
  have hpos : b₂.pos - b.pos - 4 = list.length := by
    rw [hb₂.pos, hb.pos]
    simp only [List.length_append, length_store32h]
    omega
  obtain ⟨b₃, h₃, hb₃⟩ := hb₂.setpos (n := u.length) (by simp only [List.length_append]; omega)
  obtain ⟨b₄, h₄, hb₄⟩ := hb₃.putbytes_within (x := store32h list.length)
    (by simp only [length_store32h])
  rw [← List.length_append] at hb₄
  obtain ⟨b₅, h₅, hb₅⟩ := hb₄.incrwritepos (n := list.length)
    (by simp only [List.length_append]; omega)
  refine ⟨b₅, ?_, ?_⟩
  · unfold bufPutAlgolistAll
    rw [bufPutint, h₁, ok_bind, h₂, ok_bind, hpos, hb.pos, h₃, ok_bind, bufPutint, h₄, ok_bind, h₅]
  · rw [← List.length_append] at hb₅
    simpa only [sshString, List.append_assoc] using hb₅

end Put

/-! ### Looking for a name -/

/-- A string that is read, and the position put back. -/
theorem bufGetstring_setpos {buf : Buffer} {list r : Bytes} (h : buf.rest = sshString list ++ r)
    (hlen : list.length ≤ maxStringLen) :
    ∃ b, bufGetstring buf = .ok (list, b) ∧ bufSetpos b buf.pos = .ok buf := by
  have hread : bufGetstring buf = .ok (list, buf.advance (4 + list.length)) :=
    bufGetstring_ok.2 ⟨⟨hlen, r, h⟩, rfl⟩
  refine ⟨_, hread, ?_⟩
  have hpos : buf.pos ≤ (buf.advance (4 + list.length)).len := buf.pos_le
  unfold bufSetpos
  rw [dif_neg (Nat.not_lt.2 hpos)]
  rfl

/-- `buf_has_algo` answers for the names of the list, and leaves the buffer as it was. -/
theorem bufHasAlgoAt_eq {buf : Buffer} {list r : Bytes} (h : buf.rest = sshString list ++ r)
    (hlen : list.length ≤ maxStringLen) (algo : Bytes) :
    bufHasAlgoAt buf algo =
      (getAlgolistNames list).map fun names => (names.contains algo, buf) := by
  obtain ⟨b, hread, hset⟩ := bufGetstring_setpos h hlen
  unfold bufHasAlgoAt
  rw [hread, ok_bind]
  dsimp only
  cases getAlgolistNames list with
  | error e => rfl
  | ok names =>
    rw [ok_bind, hset]
    rfl

/-- **Name lists.**  A list that is not too long is refused for too many items before a NUL, read
as no names for a NUL, and otherwise read as its items.  What a table writes is read as the names
it has selected, or as one empty name when it has none.  `buf_has_algo` looks for a name among
these, and puts the position back. -/
theorem nameList_spec {ν δ : Type} :
    (∀ s : Bytes, s.length ≤ maxProposedAlgo * (maxNameLen + 1) →
      getAlgolistNames s =
        if maxProposedAlgo < ((s.takeWhile (· ≠ 0)).splitOn 44).length then
          dropbearExit "Too many remote algorithms"
        else if 0 ∈ s then .ok [] else .ok (s.splitOn 44)) ∧
    (∀ (algos : List (AlgoType ν δ)) (useall : Bool) (b : Buffer) (size : ℕ) (u : Bytes),
      (∀ n ∈ selectedNames algos useall, 44 ∉ n ∧ 0 ∉ n) →
      (selectedNames algos useall).length ≤ maxProposedAlgo →
      (algolistAll algos useall).length ≤ maxProposedAlgo * (maxNameLen + 1) →
      b.Has size u u.length → u.length + (4 + (algolistAll algos useall).length) ≤ size →
      ∃ b₁ b₂ b₃ list, bufPutAlgolistAll b algos useall = .ok b₁ ∧
        bufSetpos b₁ u.length = .ok b₂ ∧ bufGetstring b₂ = .ok (list, b₃) ∧
        getAlgolistNames list =
          .ok (if selectedNames algos useall = [] then [[]] else selectedNames algos useall)) ∧
    ∀ (buf : Buffer) (list r algo : Bytes), buf.rest = sshString list ++ r →
      list.length ≤ maxProposedAlgo * (maxNameLen + 1) →
      bufHasAlgoAt buf algo =
        (getAlgolistNames list).map fun names => (names.contains algo, buf) := by
  refine ⟨fun s _ => ?_, ?_, fun buf list r algo h hlen => ?_⟩
  · rw [getAlgolistNames_eq, getAlgolist_eq]
  · intro algos useall b size u hnames hcount hlen hb hroom
    have hmax : (algolistAll algos useall).length ≤ maxStringLen := hlen.trans (by decide)
    obtain ⟨b₁, h₁, hb₁⟩ := bufPutAlgolistAll_has algos useall hb hroom
    obtain ⟨b₂, h₂, hb₂⟩ := hb₁.setpos (n := u.length) (by rw [List.length_append]; omega)
    have hrest : b₂.rest = sshString (algolistAll algos useall) ++ [] := by
      rw [hb₂.rest, List.drop_left, List.append_nil]
    obtain ⟨b₃, h₃, -⟩ := bufGetstring_setpos hrest hmax
    refine ⟨b₁, b₂, b₃, _, h₁, h₂, h₃, ?_⟩
    rw [getAlgolistNames_eq, getAlgolist_algolistAll hnames hcount]
  · exact bufHasAlgoAt_eq h (hlen.trans (by decide)) algo

/-- No name is selected, and one is read. -/
theorem nameList_empty_table :
    selectedNames ([] : List (AlgoType Unit Unit)) false = [] ∧
      getAlgolistNames (algolistAll ([] : List (AlgoType Unit Unit)) false) ≠
        .ok (selectedNames ([] : List (AlgoType Unit Unit)) false) := by
  refine ⟨rfl, fun h => ?_⟩
  have hone : getAlgolistNames (algolistAll ([] : List (AlgoType Unit Unit)) false) =
    .ok [[]] := rfl
  rw [hone] at h
  cases h

theorem nameList_spec_hashes :
    getAlgolistNames (ascii "hmac-sha2-256,none") = .ok [ascii "hmac-sha2-256", ascii "none"] :=
  ((nameList_spec (ν := Unit) (δ := Unit)).1 _ (by decide)).trans rfl

end Ps4Dropbear
