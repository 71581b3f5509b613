import Ps4Dropbear.Crypto.KeyStream
import Ps4Dropbear.Number.LittleEndian

/-!
# ChaCha20

`chacha_setup.c`, `chacha_ivctr64.c`, `chacha_crypt.c` and `chacha_keystream.c` of the cryptographic
library.

* `chachaBlock`, `chachaCrypt` : a block, and a text.
* `chachaCrypt_follows` : the states are places of a key stream, which ends where the counter
  overflows.
-/

namespace Ps4Dropbear

/-- The words of a block. -/
abbrev ChachaInput := Vector UInt32 16

/-- `ROL`. -/
def rol (x : UInt32) (n : UInt32) : UInt32 := (x <<< n) ||| (x >>> (32 - n))

/-- `QUARTERROUND`. -/
def quarterround (a b c d : Fin 16) (x : ChachaInput) : ChachaInput :=
  let x := x.set a (x[a] + x[b])
  let x := x.set d (rol (x[d] ^^^ x[a]) 16)
  let x := x.set c (x[c] + x[d])
  let x := x.set b (rol (x[b] ^^^ x[c]) 12)
  let x := x.set a (x[a] + x[b])
  let x := x.set d (rol (x[d] ^^^ x[a]) 8)
  let x := x.set c (x[c] + x[d])
  x.set b (rol (x[b] ^^^ x[c]) 7)

/-- One half of `QUARTERROUND`. -/
def halfround (j k : UInt32) (a b c d : Fin 16) (x : ChachaInput) : ChachaInput :=
  let x := x.set a (x[a] + x[b])
  let x := x.set d (rol (x[d] ^^^ x[a]) j)
  let x := x.set c (x[c] + x[d])
  x.set b (rol (x[b] ^^^ x[c]) k)

/-- The loop's body in `_chacha_block`. -/
def doubleRound (x : ChachaInput) : ChachaInput :=
  let x := quarterround 0 4 8 12 x
  let x := quarterround 1 5 9 13 x
  let x := quarterround 2 6 10 14 x
  let x := quarterround 3 7 11 15 x
  let x := quarterround 0 5 10 15 x
  let x := quarterround 1 6 11 12 x
  let x := quarterround 2 7 8 13 x
  quarterround 3 4 9 14 x

/-- `_chacha_block`. -/
def chachaBlock (input : ChachaInput) (rounds : ℕ) : Bytes :=
  let x := doubleRound^[(rounds + 1) / 2] input
  ((x.zipWith (· + ·) input).toList.map store32l).flatten

/-- `chacha_state`. -/
structure ChachaState where
  input : ChachaInput
  /-- The last `ksleft` bytes of `kstream`. -/
  left : Bytes
  ivlen : ℕ
  rounds : ℕ

/-- `sigma`, "expand 32-byte k". -/
def chachaSigma : Bytes :=
  [101, 120, 112, 97, 110, 100, 32, 51, 50, 45, 98, 121, 116, 101, 32, 107]

/-- `chacha_setup`, for a key of 32 bytes. -/
def chachaSetup (key : Bytes) (rounds : ℕ) : ChachaState where
  input := Vector.ofFn fun i =>
    if i.val < 4 then load32l (chachaSigma.drop (4 * i))
    else if i.val < 12 then load32l (key.drop (4 * (i - 4))) else 0
  left := []
  ivlen := 0
  rounds := if rounds = 0 then 20 else rounds

/-- A 64-bit counter in the input. -/
def setCounter (input : ChachaInput) (counter : ℕ) : ChachaInput :=
  (input.set 12 (UInt32.ofNat counter)).set 13 (UInt32.ofNat (counter / 2 ^ 32))

/-- `chacha_ivctr64`. -/
def chachaIvctr64 (st : ChachaState) (iv : Bytes) (counter : ℕ) : ChachaState where
  input := ((setCounter st.input counter).set 14 (load32l iv)).set 15 (load32l (iv.drop 4))
  left := []
  ivlen := iv.length
  rounds := st.rounds

/-- The counter behind a block, or `CRYPT_OVERFLOW`. -/
def nextInput (ivlen : ℕ) (input : ChachaInput) : Option ChachaInput :=
  let input := input.set 12 (input[12] + 1)
  if ivlen = 8 then
    if input[12] = 0 then
      let input := input.set 13 (input[13] + 1)
      if input[13] = 0 then none else some input
    else some input
  else if input[12] = 0 then none else some input

/-- The loop of `chacha_crypt`. -/
def chachaCryptLoop (st : ChachaState) (inp : Bytes) : Option (Bytes × ChachaState) := do
  let buf := chachaBlock st.input st.rounds
  let input ← nextInput st.ivlen st.input
  if hlen : inp.length ≤ 64 then
    return (List.zipWith (· ^^^ ·) inp buf,
      { st with input := input, left := buf.drop inp.length })
  else
    have : (inp.drop 64).length < inp.length := by
      rw [List.length_drop]
      omega
    let (out, st) ← chachaCryptLoop { st with input := input } (inp.drop 64)
    return (List.zipWith (· ^^^ ·) (inp.take 64) buf ++ out, st)
termination_by inp.length

/-- `chacha_crypt`.  Without an `ivctr` before it, the library's check of its arguments fails. -/
def chachaCrypt (inp : Bytes) (st : ChachaState) : Option (Bytes × ChachaState) :=
  if inp.length = 0 then some ([], st)
  else if st.ivlen = 0 then none
  else
    let j := min st.left.length inp.length
    let out := List.zipWith (· ^^^ ·) (inp.take j) (st.left.take j)
    let st := { st with left := st.left.drop j }
    if inp.length - j = 0 then some (out, st)
    else do
      let (out', st) ← chachaCryptLoop st (inp.drop j)
      return (out ++ out', st)

/-- `chacha_keystream`. -/
def chachaKeystream (st : ChachaState) (outlen : ℕ) : Option (Bytes × ChachaState) :=
  chachaCrypt (List.replicate outlen 0) st

/-! ### The counter -/

@[simp] theorem length_chachaBlock (input : ChachaInput) (rounds : ℕ) :
    (chachaBlock input rounds).length = 64 := by
  unfold chachaBlock
  dsimp only
  generalize doubleRound^[(rounds + 1) / 2] input = x
  rw [List.length_flatten, List.map_map]
  have hconst : List.map (List.length ∘ store32l) (x.zipWith (· + ·) input).toList =
      List.replicate 16 4 := by
    refine List.eq_replicate_iff.2 ⟨?_, ?_⟩
    · rw [List.length_map, Vector.length_toList]
    · intro k hk
      obtain ⟨w, -, rfl⟩ := List.mem_map.1 hk
      exact length_store32l w
  rw [hconst]
  rfl

section Counter

variable (input : ChachaInput) (lo hi v : UInt32) (c : ℕ)

theorem set_low : ((input.set 12 lo).set 13 hi).set 12 v = (input.set 12 v).set 13 hi := by
  refine Vector.ext fun i hi => ?_
  simp only [Vector.getElem_set]
  split_ifs <;> first | rfl | omega

theorem set_high : ((input.set 12 lo).set 13 hi).set 13 v = (input.set 12 lo).set 13 v := by
  refine Vector.ext fun i hi => ?_
  simp only [Vector.getElem_set]
  split_ifs <;> rfl

theorem setCounter_low : (setCounter input c)[12] = UInt32.ofNat c := by
  unfold setCounter
  rw [Vector.getElem_set_ne (by decide) (by decide) (by decide), Vector.getElem_set_self]

theorem setCounter_high : (setCounter input c)[13] = UInt32.ofNat (c / 2 ^ 32) :=
  Vector.getElem_set_self _

theorem ofNat_eq_zero_iff {n : ℕ} : UInt32.ofNat n = 0 ↔ n % 2 ^ 32 = 0 := by
  rw [← UInt32.toNat_inj, UInt32.toNat_ofNat', UInt32.toNat_zero]

/-- The counter is one of 64 bits. -/
theorem nextInput_setCounter (h : c < 2 ^ 64) :
    nextInput 8 (setCounter input c) =
      if c + 1 = 2 ^ 64 then none else some (setCounter input (c + 1)) := by
  have hlow : (setCounter input c)[12] + 1 = UInt32.ofNat (c + 1) := by
    rw [setCounter_low, UInt32.ofNat_add]
    rfl
  unfold nextInput
  dsimp only
  rw [if_pos rfl, Vector.getElem_set_self, hlow]
  have hset : (setCounter input c).set 12 (UInt32.ofNat (c + 1)) =
      (input.set 12 (UInt32.ofNat (c + 1))).set 13 (UInt32.ofNat (c / 2 ^ 32)) := set_low _ _ _ _
  have hhigh : ((input.set 12 (UInt32.ofNat (c + 1))).set 13 (UInt32.ofNat (c / 2 ^ 32)))[13] + 1 =
      UInt32.ofNat (c / 2 ^ 32 + 1) := by
    rw [Vector.getElem_set_self, UInt32.ofNat_add]
    rfl
  rw [hset, hhigh, Vector.getElem_set_self, set_high]
  simp only [ofNat_eq_zero_iff]
  split_ifs with hwrap hover hlast hlast hlast
  · rfl
  · omega
  · omega
  · -- a carry into the high word
    have hnext : c / 2 ^ 32 + 1 = (c + 1) / 2 ^ 32 := by omega
    rw [setCounter, hnext]
  · omega
  · have hsame : c / 2 ^ 32 = (c + 1) / 2 ^ 32 := by omega
    rw [setCounter, hsame]

end Counter

/-! ### The key stream -/

/-- The key stream of the blocks from the counter `c` on. -/
def chachaStream (input : ChachaInput) (rounds c : ℕ) (i : ℕ) : UInt8 :=
  (chachaBlock (setCounter input (c + i / 64)) rounds).getD (i % 64) 0

/-- The state is at the place `n` of the stream. -/
structure ChachaAt (input : ChachaInput) (rounds c : ℕ) (n : ℕ) (st : ChachaState) : Prop where
  ivlen_eq : st.ivlen = 8
  rounds_eq : st.rounds = rounds
  counter : ∃ j, st.input = setCounter input (c + j) ∧ n + st.left.length = 64 * j ∧
    c + j < 2 ^ 64
  left : ∀ i < st.left.length, st.left[i]? = some (chachaStream input rounds c (n + i))

section Stream

variable {input : ChachaInput} {rounds c n j : ℕ} {st : ChachaState}

theorem chachaStream_block {i : ℕ} (hi : i < 64) :
    (chachaBlock (setCounter input (c + j)) rounds)[i]? =
      some (chachaStream input rounds c (64 * j + i)) := by
  have hdiv : (64 * j + i) / 64 = j := by omega
  have hmod : (64 * j + i) % 64 = i := by omega
  unfold chachaStream
  rw [hdiv, hmod, List.getD_eq_getElem?_getD,
    List.getElem?_eq_getElem (by rw [length_chachaBlock]; exact hi), Option.getD_some]

/-- Blocks, as many as the text needs. -/
theorem chachaCryptLoop_spec (st : ChachaState) (hiv : st.ivlen = 8) (hrounds : st.rounds = rounds)
    (hinput : st.input = setCounter input (c + j)) {inp : Bytes} (hpos : 0 < inp.length)
    (hfits : c + j + (inp.length + 63) / 64 < 2 ^ 64) :
    ∃ st', chachaCryptLoop st inp = some (masked (chachaStream input rounds c) (64 * j) inp, st') ∧
      ChachaAt input rounds c (64 * j + inp.length) st' := by
  induction hn : inp.length using Nat.strong_induction_on generalizing inp st j with
  | _ n ih =>
    have hnext : nextInput st.ivlen st.input = some (setCounter input (c + (j + 1))) := by
      rw [hiv, hinput, nextInput_setCounter _ _ (by omega), if_neg (by omega)]
      rfl
    have hbuf : chachaBlock st.input st.rounds = chachaBlock (setCounter input (c + j)) rounds := by
      rw [hinput, hrounds]
    rw [chachaCryptLoop, hbuf, hnext]
    change ∃ st', (if h : inp.length ≤ 64 then _ else _) = _ ∧ _
    split_ifs with hlen
    · refine ⟨_, congrArg some (Prod.ext (zipWith_eq_masked fun i hi => ?_) rfl), hiv, hrounds,
        ⟨j + 1, rfl, ?_, by omega⟩, fun i hi => ?_⟩
      · exact chachaStream_block (Nat.lt_of_lt_of_le hi hlen)
      · dsimp only
        rw [List.length_drop, length_chachaBlock]
        omega
      · dsimp only at hi ⊢
        rw [List.length_drop, length_chachaBlock] at hi
        rw [List.getElem?_drop, chachaStream_block (by omega), ← hn, Nat.add_assoc]
    · have htake : (inp.take 64).length = 64 := by
        rw [List.length_take]
        omega
      have hdrop : (inp.drop 64).length = inp.length - 64 := List.length_drop
      obtain ⟨st', hloop, hat⟩ := ih (inp.length - 64) (by omega)
        { st with input := setCounter input (c + (j + 1)) } hiv hrounds rfl
        (show 0 < (inp.drop 64).length by omega) (by omega) hdrop
      refine ⟨st', ?_, ?_⟩
      · change (chachaCryptLoop _ _).bind _ = _
        rw [hloop]
        refine congrArg some (Prod.ext ?_ rfl)
        have hfirst : List.zipWith (· ^^^ ·) (inp.take 64)
            (chachaBlock (setCounter input (c + j)) rounds) =
            masked (chachaStream input rounds c) (64 * j) (inp.take 64) :=
          zipWith_eq_masked fun i hi => chachaStream_block (by rwa [htake] at hi)
        change List.zipWith (· ^^^ ·) (inp.take 64) _ ++ _ = _
        rw [hfirst]
        conv_rhs => rw [← List.take_append_drop 64 inp, masked_append, htake]
        rfl
      · have hplace : 64 * (j + 1) + (inp.length - 64) = 64 * j + n := by omega
        rwa [hplace] at hat

/-- **Every state is a place of a key stream**, up to the block whose counter would overflow. -/
theorem chachaCrypt_follows (input : ChachaInput) (rounds c : ℕ) :
    FollowsStream chachaCrypt (chachaStream input rounds c) (ChachaAt input rounds c)
      fun n => c + (n + 63) / 64 < 2 ^ 64 := by
  rintro n st x ⟨hiv, hrounds, ⟨j, hinput, hplace, hsmall⟩, hleft⟩ hfits
  unfold chachaCrypt
  split_ifs with hnil hno
  · rw [List.length_eq_zero_iff.1 hnil]
    exact ⟨st, rfl, hiv, hrounds, ⟨j, hinput, hplace, hsmall⟩, hleft⟩
  · rw [hiv] at hno
    exact absurd hno (by decide)
  · dsimp only
    have htake : (x.take (min st.left.length x.length)).length = min st.left.length x.length := by
      rw [List.length_take]
      omega
    have hfirst : List.zipWith (· ^^^ ·) (x.take (min st.left.length x.length))
        (st.left.take (min st.left.length x.length)) =
        masked (chachaStream input rounds c) n (x.take (min st.left.length x.length)) := by
      refine zipWith_eq_masked fun i hi => ?_
      rw [htake] at hi
      rw [List.getElem?_take_of_lt hi]
      exact hleft i (by omega)
    rw [hfirst]
    split_ifs with hall
    · have hwhole : x.take (min st.left.length x.length) = x := List.take_of_length_le (by omega)
      rw [hwhole]
      refine ⟨_, rfl, hiv, hrounds, ⟨j, hinput, ?_, hsmall⟩, fun i hi => ?_⟩
      · dsimp only
        rw [List.length_drop]
        omega
      · dsimp only at hi ⊢
        rw [List.length_drop] at hi
        have hmin : min st.left.length x.length = x.length := by omega
        rw [List.getElem?_drop, hmin, hleft _ (by omega), Nat.add_assoc]
    · have hmin : min st.left.length x.length = st.left.length := by omega
      rw [hmin] at htake ⊢
      have hdrop : (x.drop st.left.length).length = x.length - st.left.length := List.length_drop
      obtain ⟨st', hloop, hat⟩ := chachaCryptLoop_spec (c := c) (j := j)
        { st with left := st.left.drop st.left.length } hiv hrounds hinput
        (show 0 < (x.drop st.left.length).length by omega) (by omega)
      refine ⟨st', ?_, ?_⟩
      · rw [hloop]
        refine congrArg some (Prod.ext ?_ rfl)
        conv_rhs => rw [← List.take_append_drop st.left.length x, masked_append, htake, hplace]
      · have hend : 64 * j + (x.drop st.left.length).length = n + x.length := by omega
        rwa [hend] at hat

end Stream

/-! ### The key -/

/-- The words of the key, and the number of rounds; `chacha_ivctr64` sets the others. -/
structure SameKey (s t : ChachaState) : Prop where
  rounds : s.rounds = t.rounds
  input : ∀ i (hi : i < 12), s.input[i] = t.input[i]

/-- The input with the words of `iv`. -/
def withIv (input : ChachaInput) (iv : Bytes) : ChachaInput :=
  (input.set 14 (load32l iv)).set 15 (load32l (iv.drop 4))

/-- The key stream of a key and `iv`, from the block `counter` on. -/
def ivStream (st : ChachaState) (iv : Bytes) (counter : ℕ) : ℕ → UInt8 :=
  chachaStream (withIv st.input iv) st.rounds counter

section Key

variable {s t u : ChachaState} {iv : Bytes} {c : ℕ}

theorem SameKey.refl (s : ChachaState) : SameKey s s := ⟨rfl, fun _ _ => rfl⟩

theorem SameKey.symm (h : SameKey s t) : SameKey t s :=
  ⟨h.rounds.symm, fun i hi => (h.input i hi).symm⟩

theorem SameKey.trans (h : SameKey s t) (h' : SameKey t u) : SameKey s u :=
  ⟨h.rounds.trans h'.rounds, fun i hi => (h.input i hi).trans (h'.input i hi)⟩

theorem setCounter_withIv (h : SameKey s t) (iv : Bytes) (c : ℕ) :
    setCounter (withIv s.input iv) c = setCounter (withIv t.input iv) c := by
  unfold setCounter withIv
  refine Vector.ext fun i hi => ?_
  simp only [Vector.getElem_set]
  split_ifs
  · rfl
  · rfl
  · rfl
  · rfl
  · exact h.input i (by omega)

theorem ivStream_congr (h : SameKey s t) (iv : Bytes) (c : ℕ) :
    ivStream s iv c = ivStream t iv c := by
  funext i
  unfold ivStream chachaStream
  rw [setCounter_withIv h, h.rounds]

/-- `chacha_ivctr64` is at the start of a stream. -/
theorem chachaIvctr64_at (st : ChachaState) (hiv : iv.length = 8) (hc : c < 2 ^ 64) :
    ChachaAt (withIv st.input iv) st.rounds c 0 (chachaIvctr64 st iv c) := by
  refine ⟨hiv, rfl, ⟨0, ?_, rfl, hc⟩, fun i hi => absurd hi (Nat.not_lt_zero i)⟩
  unfold chachaIvctr64 setCounter withIv
  refine Vector.ext fun i hi => ?_
  simp only [Vector.getElem_set, Nat.add_zero]
  split_ifs <;> first | rfl | omega

theorem ChachaAt.sameKey {n : ℕ} (h : ChachaAt (withIv s.input iv) s.rounds c n t) :
    SameKey t s := by
  obtain ⟨-, hrounds, ⟨j, hinput, -, -⟩, -⟩ := h
  refine ⟨hrounds, fun i hi => ?_⟩
  rw [hinput]
  unfold setCounter withIv
  rw [Vector.getElem_set_ne _ _ (by omega), Vector.getElem_set_ne _ _ (by omega),
    Vector.getElem_set_ne _ _ (by omega), Vector.getElem_set_ne _ _ (by omega)]

/-- A text under a new `iv`. -/
theorem chachaCrypt_ivctr64 (h : SameKey s t) (hiv : iv.length = 8) {x : Bytes}
    (hfits : c + (x.length + 63) / 64 < 2 ^ 64) :
    ∃ s', chachaCrypt x (chachaIvctr64 s iv c) = some (masked (ivStream t iv c) 0 x, s') ∧
      SameKey s' t := by
  have hat := chachaIvctr64_at s hiv (c := c) (by omega)
  obtain ⟨s', hcrypt, hat'⟩ := chachaCrypt_follows _ _ _ _ _ x hat (by rwa [Nat.zero_add])
  rw [← ivStream_congr h]
  exact ⟨s', hcrypt, hat'.sameKey.trans h⟩

/-- **The inputs of two blocks differ** in the counter or in the `iv`, whatever the keys are. -/
theorem setCounter_withIv_inj {input input' : ChachaInput} {iv iv' : Bytes} {c c' : ℕ}
    (hiv : iv.length = 8) (hiv' : iv'.length = 8) (hc : c < 2 ^ 64) (hc' : c' < 2 ^ 64)
    (h : setCounter (withIv input iv) c = setCounter (withIv input' iv') c') :
    iv = iv' ∧ c = c' := by
  have hword : ∀ {n m : ℕ}, UInt32.ofNat n = UInt32.ofNat m → n % 2 ^ 32 = m % 2 ^ 32 := by
    intro n m hnm
    have hnat := congrArg UInt32.toNat hnm
    rwa [UInt32.toNat_ofNat', UInt32.toNat_ofNat'] at hnat
  have hiv14 : ∀ (input : ChachaInput) (iv : Bytes) (c : ℕ),
      (setCounter (withIv input iv) c)[14] = load32l iv := by
    intro input iv c
    unfold setCounter withIv
    simp
  have hiv15 : ∀ (input : ChachaInput) (iv : Bytes) (c : ℕ),
      (setCounter (withIv input iv) c)[15] = load32l (iv.drop 4) := by
    intro input iv c
    unfold setCounter withIv
    simp
  have h12 := congrArg (fun v : ChachaInput => v[12]) h
  have h13 := congrArg (fun v : ChachaInput => v[13]) h
  have h14 := congrArg (fun v : ChachaInput => v[14].toNat) h
  have h15 := congrArg (fun v : ChachaInput => v[15].toNat) h
  simp only [setCounter_low, setCounter_high] at h12 h13
  simp only [hiv14, hiv15, load32l_toNat, leNat_drop] at h14 h15
  have hlow := hword h12
  have hhigh := hword h13
  have hlt := leNat_lt iv
  have hlt' := leNat_lt iv'
  rw [hiv] at hlt
  rw [hiv'] at hlt'
  refine ⟨leNat_inj (hiv.trans hiv'.symm) ?_, ?_⟩
  · omega
  · omega

end Key

end Ps4Dropbear
