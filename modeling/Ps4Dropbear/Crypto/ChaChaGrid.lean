import Mathlib.Data.Fin.VecNotation
import Mathlib.Tactic.FinCases
import Ps4Dropbear.Crypto.ChaCha

/-!
# The block of ChaCha20

What a block of ChaCha20 is, on a grid of four rows of four words: a round mixes the four columns,
or the four diagonals, which are columns when every row is turned by its number.  `_chacha_block`
writes the eight quarter rounds out on a vector of sixteen words.

* `columnRound`, `diagonalRound`, `chacha20Block` : the block, for a key, an `iv` and a counter.
* `doubleRound_grid` : the code's two rounds are these.
* `ivStream_setup` : **the code's key stream is made of these blocks**.
-/

namespace Ps4Dropbear

/-- Four rows of four words. -/
abbrev Grid := Fin 4 → Fin 4 → BitVec 32

/-- One half of a quarter round, with its two rotations. -/
def halfQuarter (j k : ℕ) (x : Fin 4 → BitVec 32) : Fin 4 → BitVec 32 :=
  let a := x 0 + x 1
  let d := (x 3 ^^^ a).rotateLeft j
  let c := x 2 + d
  ![a, (x 1 ^^^ c).rotateLeft k, c, d]

/-- The four words of a column are mixed. -/
def quarter (x : Fin 4 → BitVec 32) : Fin 4 → BitVec 32 := halfQuarter 8 7 (halfQuarter 16 12 x)

/-- All four columns. -/
def columnRound (x : Grid) : Grid := fun i j => quarter (fun i => x i j) i

/-- The row `i` is turned by `i` places, so that a diagonal is a column. -/
def turnRows (x : Grid) : Grid := fun i j => x i (j + i)

/-- The rows are turned back. -/
def turnBack (x : Grid) : Grid := fun i j => x i (j - i)

/-- All four diagonals. -/
def diagonalRound (x : Grid) : Grid := turnBack (columnRound (turnRows x))

/-- The input of a block: a constant, the key, the counter and the `iv`. -/
def chacha20Input (key iv : Bytes) (counter : ℕ) : Bytes :=
  ascii "expand 32-byte k" ++ key.take 32 ++ leBytes 8 counter ++ iv

/-- Sixty-four bytes as words, the lowest byte first. -/
def gridOf (x : Bytes) : Grid :=
  fun i j => BitVec.ofNat 32 (leNat ((x.drop (4 * (4 * i + j))).take 4))

/-- Twenty rounds. -/
def twentyRounds (x : Grid) : Grid := (diagonalRound ∘ columnRound)^[10] x

/-- The bytes of the words, the lowest first. -/
def gridBytes (x : Grid) : Bytes :=
  (List.ofFn fun i => (List.ofFn fun j => leBytes 4 (x i j).toNat).flatten).flatten

/-- A block: the words after the rounds, with the words before them added. -/
def chacha20Block (key iv : Bytes) (counter : ℕ) : Bytes :=
  let x := gridOf (chacha20Input key iv counter)
  gridBytes fun i j => twentyRounds x i j + x i j

/-- The key stream from the block `counter` on. -/
def chacha20Stream (key iv : Bytes) (counter : ℕ) (i : ℕ) : UInt8 :=
  (chacha20Block key iv (counter + i / 64)).getD (i % 64) 0

/-! ### Quarter rounds -/

/-- The index of a word in the vector. -/
def place (i j : Fin 4) : Fin 16 := ⟨4 * i.val + j.val, by omega⟩

/-- The words of a vector, as a grid. -/
def gridView (v : ChachaInput) : Grid := fun i j => (v.get (place i j)).toBitVec

/-- Quarter rounds, one after the other, of the words `p j`. -/
def quarterrounds (p : Fin 4 → Fin 4 → Fin 16) (js : List (Fin 4)) (x : ChachaInput) :
    ChachaInput :=
  js.foldl (fun x j => quarterround (p j 0) (p j 1) (p j 2) (p j 3) x) x

/-- The words of a column. -/
def column (j i : Fin 4) : Fin 16 := place i j

/-- The words of a diagonal. -/
def diagonal (j i : Fin 4) : Fin 16 := place i (j + i)

section Quarter

variable {p : Fin 4 → Fin 16}

theorem rol_toBitVec (w : UInt32) :
    (rol w 16).toBitVec = w.toBitVec.rotateLeft 16 ∧
      (rol w 12).toBitVec = w.toBitVec.rotateLeft 12 ∧
      (rol w 8).toBitVec = w.toBitVec.rotateLeft 8 ∧
      (rol w 7).toBitVec = w.toBitVec.rotateLeft 7 :=
  ⟨rfl, rfl, rfl, rfl⟩

theorem quarterround_eq (a b c d : Fin 16) (x : ChachaInput) :
    quarterround a b c d x = halfround 8 7 a b c d (halfround 16 12 a b c d x) := rfl

/-- The four words of a half round. -/
theorem halfround_get {j k : UInt32} {j' k' : ℕ}
    (hj : ∀ w : UInt32, (rol w j).toBitVec = w.toBitVec.rotateLeft j')
    (hk : ∀ w : UInt32, (rol w k).toBitVec = w.toBitVec.rotateLeft k') (hp : p.Injective)
    (x : ChachaInput) (i : Fin 4) :
    (halfround j k (p 0) (p 1) (p 2) (p 3) x)[p i].toBitVec =
      halfQuarter j' k' (fun i => x[p i].toBitVec) i := by
  have hne : ∀ {i i' : Fin 4}, i ≠ i' → (p i : ℕ) ≠ p i' := fun hi h => hi (hp (Fin.ext h))
  have h01 := hne (show (0 : Fin 4) ≠ 1 by decide)
  have h02 := hne (show (0 : Fin 4) ≠ 2 by decide)
  have h03 := hne (show (0 : Fin 4) ≠ 3 by decide)
  have h12 := hne (show (1 : Fin 4) ≠ 2 by decide)
  have h13 := hne (show (1 : Fin 4) ≠ 3 by decide)
  have h23 := hne (show (2 : Fin 4) ≠ 3 by decide)
  unfold halfround halfQuarter
  fin_cases i <;>
    simp [h01, h01.symm, h02, h02.symm, h03, h03.symm, h12, h12.symm, h13, h13.symm, h23, h23.symm,
      hj, hk]

/-- The other words stay. -/
theorem halfround_other (j k : UInt32) (x : ChachaInput) {n : Fin 16} (hn : ∀ i, p i ≠ n) :
    (halfround j k (p 0) (p 1) (p 2) (p 3) x).get n = x.get n := by
  have hne : ∀ i, (p i : ℕ) ≠ n := fun i h => hn i (Fin.ext h)
  change (halfround j k (p 0) (p 1) (p 2) (p 3) x)[n] = x[n]
  unfold halfround
  simp [Vector.getElem_set, hne]

theorem quarterround_get (hp : p.Injective) (x : ChachaInput) (i : Fin 4) :
    ((quarterround (p 0) (p 1) (p 2) (p 3) x).get (p i)).toBitVec =
      quarter (fun i => (x.get (p i)).toBitVec) i := by
  have hfirst : (fun i => (halfround 16 12 (p 0) (p 1) (p 2) (p 3) x)[p i].toBitVec) =
      halfQuarter 16 12 fun i => x[p i].toBitVec :=
    funext fun i => halfround_get (fun w => (rol_toBitVec w).1)
      (fun w => (rol_toBitVec w).2.1) hp x i
  rw [quarterround_eq]
  refine (halfround_get (fun w => (rol_toBitVec w).2.2.1) (fun w => (rol_toBitVec w).2.2.2) hp
    _ i).trans ?_
  rw [hfirst]
  rfl

theorem quarterround_other (x : ChachaInput) {n : Fin 16} (hn : ∀ i, p i ≠ n) :
    (quarterround (p 0) (p 1) (p 2) (p 3) x).get n = x.get n := by
  rw [quarterround_eq]
  exact (halfround_other _ _ _ hn).trans (halfround_other _ _ _ hn)

end Quarter

/-! ### The rounds -/

section Rounds

variable {p : Fin 4 → Fin 4 → Fin 16} {js : List (Fin 4)}

theorem quarterrounds_other {n : Fin 16} (hn : ∀ j ∈ js, ∀ i, p j i ≠ n) (x : ChachaInput) :
    (quarterrounds p js x).get n = x.get n := by
  unfold quarterrounds
  induction js generalizing x with
  | nil => rfl
  | cons j js ih =>
    obtain ⟨hj, hjs⟩ := List.forall_mem_cons.1 hn
    rw [List.foldl_cons, ih hjs, quarterround_other x hj]

/-- Quarter rounds of different words do not disturb each other. -/
theorem quarterrounds_get (hp : ∀ {j i j' i'}, p j i = p j' i' → j = j' ∧ i = i')
    (hjs : js.Nodup) (x : ChachaInput) {j : Fin 4} (hj : j ∈ js) (i : Fin 4) :
    ((quarterrounds p js x).get (p j i)).toBitVec =
      quarter (fun i => (x.get (p j i)).toBitVec) i := by
  induction js generalizing x with
  | nil => exact absurd hj List.not_mem_nil
  | cons k js ih =>
    obtain ⟨hk, hrest⟩ := List.nodup_cons.1 hjs
    change ((quarterrounds p js (quarterround (p k 0) (p k 1) (p k 2) (p k 3) x)).get
      (p j i)).toBitVec = _
    rcases List.mem_cons.1 hj with rfl | hmem
    · have hother : ∀ k ∈ js, ∀ i', p k i' ≠ p j i := fun k hmem i' h => hk ((hp h).1 ▸ hmem)
      rw [quarterrounds_other hother, quarterround_get fun i i' h => (hp h).2]
    · rw [ih hrest _ hmem]
      congr 1
      funext i'
      have hother : ∀ i, p k i ≠ p j i' := fun i h => hk ((hp h).1 ▸ hmem)
      rw [quarterround_other x hother]

theorem place_inj {i j i' j' : Fin 4} (h : place i j = place i' j') : i = i' ∧ j = j' := by
  have hval : 4 * i.val + j.val = 4 * i'.val + j'.val := congrArg Fin.val h
  omega

theorem columns_gridView (x : ChachaInput) :
    gridView (quarterrounds column [0, 1, 2, 3] x) = columnRound (gridView x) := by
  funext i j
  have hmem : ∀ j : Fin 4, j ∈ [0, 1, 2, 3] := by decide
  exact quarterrounds_get (fun h => (place_inj h).symm) (by decide) x (hmem j) i

theorem diagonals_gridView (x : ChachaInput) :
    gridView (quarterrounds diagonal [0, 1, 2, 3] x) = diagonalRound (gridView x) := by
  funext i j
  have hmem : ∀ j : Fin 4, j ∈ [0, 1, 2, 3] := by decide
  have hturn : ∀ i j : Fin 4, j - i + i = j := by decide
  have hadd : ∀ i j j' : Fin 4, j + i = j' + i → j = j' := by decide
  have hplace : place i j = diagonal (j - i) i := congrArg (place i) (hturn i j).symm
  unfold gridView
  rw [hplace]
  refine quarterrounds_get ?_ (by decide) x (hmem (j - i)) i
  intro j i j' i' h
  obtain ⟨rfl, hj⟩ := place_inj h
  exact ⟨hadd i j j' hj, rfl⟩

/-- **The loop's body** is a round of the columns and one of the diagonals. -/
theorem doubleRound_grid (x : ChachaInput) :
    gridView (doubleRound x) = diagonalRound (columnRound (gridView x)) := by
  have hbody : doubleRound x =
      quarterrounds diagonal [0, 1, 2, 3] (quarterrounds column [0, 1, 2, 3] x) := by
    unfold doubleRound quarterrounds
    simp only [List.foldl_cons, List.foldl_nil]
    congr 1
  rw [hbody, diagonals_gridView, columns_gridView]

theorem iterate_grid (n : ℕ) (x : ChachaInput) :
    gridView (doubleRound^[n] x) = (diagonalRound ∘ columnRound)^[n] (gridView x) :=
  (show Function.Semiconj gridView doubleRound (diagonalRound ∘ columnRound) from
    doubleRound_grid).iterate_right n x

theorem gridBytes_gridView (v : ChachaInput) :
    (v.toList.map store32l).flatten = gridBytes (gridView v) := by
  have hlist : v.toList = List.ofFn v.get := by
    refine List.ext_getElem (by rw [Vector.length_toList, List.length_ofFn]) fun n h _ => ?_
    rw [List.getElem_ofFn]
    exact Vector.getElem_toList h
  have hrows := List.ofFn_mul' (m := 4) (n := 4) v.get
  rw [hlist]
  refine (congrArg (fun l => (l.map store32l).flatten) hrows).trans ?_
  unfold gridBytes
  simp only [List.map_flatten, List.flatten_flatten, List.map_ofFn, Function.comp_def]
  rfl

/-- **`_chacha_block`** on a grid. -/
theorem chachaBlock_grid (input : ChachaInput) :
    chachaBlock input 20 =
      gridBytes fun i j => twentyRounds (gridView input) i j + gridView input i j := by
  unfold chachaBlock twentyRounds
  dsimp only
  rw [gridBytes_gridView, ← iterate_grid]
  refine congrArg gridBytes (funext fun i => funext fun j => ?_)
  exact congrArg UInt32.toBitVec (Vector.getElem_zipWith (place i j).isLt)

end Rounds

/-! ### The input -/

section Input

variable {key iv : Bytes}

theorem load32l_append {x : Bytes} (h : 4 ≤ x.length) (y : Bytes) :
    load32l (x ++ y) = load32l x := by
  unfold load32l
  rw [List.take_append_of_le_length h]

/-- A word in the second part of a text. -/
theorem load32l_drop_append (x y : Bytes) {n k : ℕ} (hn : x.length + k = n) :
    load32l ((x ++ y).drop n) = load32l (y.drop k) := by
  rw [← hn, List.drop_append, List.drop_of_length_le (Nat.le_add_right _ _), List.nil_append,
    Nat.add_sub_cancel_left]

/-- A word that is in the first part of a text. -/
theorem load32l_drop_left {x : Bytes} {n : ℕ} (hn : n + 4 ≤ x.length) (y : Bytes) :
    load32l ((x ++ y).drop n) = load32l (x.drop n) := by
  rw [List.drop_append_of_le_length (by omega), load32l_append]
  rw [List.length_drop]
  omega

/-- The words of the input are those of its bytes. -/
theorem setup_words (hkey : 32 ≤ key.length) (iv : Bytes) (c : ℕ) (k : Fin 16) :
    (setCounter (withIv (chachaSetup key 20).input iv) c).get k =
      load32l ((chacha20Input key iv c).drop (4 * k)) := by
  have hsigma : chachaSigma = ascii "expand 32-byte k" := by decide
  have hlen : (key.take 32).length = 32 := by rw [List.length_take, Nat.min_eq_left hkey]
  have hhead : chachaSigma.length = 16 := rfl
  have hcount : (leBytes 8 c).length = 8 := length_leBytes 8 c
  unfold chacha20Input
  rw [← hsigma, List.append_assoc, List.append_assoc]
  change (setCounter (withIv (chachaSetup key 20).input iv) c)[k.val] = _
  unfold setCounter withIv chachaSetup
  simp only [Vector.getElem_set, Vector.getElem_ofFn]
  obtain ⟨k, hk⟩ := k
  dsimp only
  -- a word behind the constant and the key
  have hbehind : ∀ {n m : ℕ} (y : Bytes), 48 + m = n →
      load32l ((chachaSigma ++ (key.take 32 ++ y)).drop n) = load32l (y.drop m) := by
    intro n m y hn
    rw [load32l_drop_append chachaSigma _ (k := 32 + m) (by omega),
      load32l_drop_append _ _ (k := m) (by omega)]
  split_ifs with h13 h12 h15 h14 hsig hkeyed
  · rw [hbehind (m := 4) _ (by omega), load32l_drop_left (by omega)]
    refine UInt32.toNat_inj.1 ?_
    rw [UInt32.toNat_ofNat', load32l_drop_toNat, leNat_leBytes]
    omega
  · rw [hbehind (m := 0) _ (by omega), load32l_drop_left (by omega)]
    refine UInt32.toNat_inj.1 ?_
    rw [UInt32.toNat_ofNat', load32l_drop_toNat, leNat_leBytes]
    omega
  · rw [hbehind (m := 12) _ (by omega), load32l_drop_append _ _ (k := 4) (by omega)]
  · rw [hbehind (m := 8) _ (by omega), load32l_drop_append _ _ (k := 0) (by omega)]
    rfl
  · exact (load32l_drop_left (by omega) _).symm
  · rw [load32l_drop_append chachaSigma _ (k := 4 * (k - 4)) (by omega),
      load32l_drop_left (by omega)]
    conv_lhs => rw [← List.take_append_drop 32 key]
    exact load32l_drop_left (by omega) _
  · omega

theorem chachaBlock_setup (hkey : 32 ≤ key.length) (iv : Bytes) (c : ℕ) :
    chachaBlock (setCounter (withIv (chachaSetup key 20).input iv) c) 20 =
      chacha20Block key iv c := by
  have hview : gridView (setCounter (withIv (chachaSetup key 20).input iv) c) =
      gridOf (chacha20Input key iv c) :=
    funext fun i => funext fun j => congrArg UInt32.toBitVec (setup_words hkey iv c (place i j))
  rw [chachaBlock_grid, hview]
  rfl

example : (chacha20Block (List.replicate 32 0) (List.replicate 8 0) 0).take 4 =
    [0x76, 0xb8, 0xe0, 0xad] := by
  rw [← chachaBlock_setup (Nat.le_of_eq List.length_replicate.symm)]
  decide +kernel

/-- **The key stream** of `chacha_setup` and `chacha_ivctr64`. -/
theorem ivStream_setup (hkey : 32 ≤ key.length) (iv : Bytes) (c : ℕ) :
    ivStream (chachaSetup key 20) iv c = chacha20Stream key iv c := by
  funext i
  exact congrArg (fun block => block.getD (i % 64) 0) (chachaBlock_setup hkey iv (c + i / 64))

end Input

end Ps4Dropbear
