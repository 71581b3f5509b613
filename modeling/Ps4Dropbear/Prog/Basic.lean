import Mathlib.Data.List.Basic
import Mathlib.Tactic.Common

/-!
# Programs that make calls

A program computes, makes calls to its environment, looks at the answers and loops.  The calls
are a type `C`, and a call `c` is answered by a value of `R c`.  A program says nothing about
which answers are possible: that is a relation `H c w a w'` (the call `c` in the world `w` may be
answered `a` and leave `w'`), chosen where the program is run.

## Main definitions

* `Prog C R α` : programs that return a value of `α`, a monad.
* `Prog.Eval H p w a w'` : the program `p`, started in `w`, can return `a` in `w'`.
* `Prog.Steps p h q` : after the calls and answers `h` the program `p` is at `q`.
* `Prog.Only K p` : whatever the answers, `p` makes calls from `K` only.
* `Prog.run h n p w`, `Prog.history h n p w` : `p` run for `n` steps with an answer for each call.

## Main results

* `Prog.eval_bind` : running a sequence is running its parts.
* `Prog.eval_loop_invariant` : the rule for loops.
* `Prog.Only.of_steps` : along every history the calls are from `K`.
* `Prog.Only.eval_eq` : a program does not change what none of its calls changes.
* `Prog.eval_of_run` : what the interpreter computes is a run.
-/

namespace Ps4Dropbear

/-- Programs with calls from `C`, answered by values of `R c`.  A loop runs its body until the
body returns a value on the right, and goes on with that value. -/
inductive Prog (C : Type) (R : C → Type) : Type → Type 1
  | ret {α : Type} (a : α) : Prog C R α
  | call {α : Type} (c : C) (k : R c → Prog C R α) : Prog C R α
  | loop {α σ β : Type} (body : σ → Prog C R (σ ⊕ β)) (s : σ) (k : β → Prog C R α) : Prog C R α

namespace Prog

variable {C : Type} {R : C → Type} {α β γ σ W : Type}

/-- Run the first program, then the second on its value. -/
def bind : Prog C R α → (α → Prog C R β) → Prog C R β
  | ret a, f => f a
  | call c k, f => call c fun r => (k r).bind f
  | loop body s k, f => loop body s fun b => (k b).bind f

instance : Monad (Prog C R) where
  pure := ret
  bind := bind

/-- Make one call. -/
def perform (c : C) : Prog C R (R c) := call c ret

/-- Repeat the body until it returns a value on the right. -/
def iterate (body : σ → Prog C R (σ ⊕ β)) (s : σ) : Prog C R β := loop body s ret

/-- A loop with its body written out once. -/
def unfold (body : σ → Prog C R (σ ⊕ β)) (s : σ) (k : β → Prog C R α) : Prog C R α :=
  (body s).bind fun
    | .inl s' => loop body s' k
    | .inr b => k b

@[simp] theorem pure_eq_ret (a : α) : (pure a : Prog C R α) = ret a := rfl

@[simp] theorem bind_eq_bind (p : Prog C R α) (f : α → Prog C R β) : p >>= f = p.bind f := rfl

@[simp] theorem ret_bind (a : α) (f : α → Prog C R β) : (ret a : Prog C R α).bind f = f a := rfl

@[simp] theorem call_bind (c : C) (k : R c → Prog C R α) (f : α → Prog C R β) :
    (call c k).bind f = call c fun r => (k r).bind f := rfl

@[simp] theorem loop_bind {δ : Type} (body : σ → Prog C R (σ ⊕ δ)) (s : σ) (k : δ → Prog C R α)
    (f : α → Prog C R β) : (loop body s k).bind f = loop body s fun b => (k b).bind f := rfl

@[simp] theorem perform_bind (c : C) (f : R c → Prog C R β) :
    (perform c : Prog C R (R c)).bind f = call c f := rfl

@[simp] theorem iterate_bind (body : σ → Prog C R (σ ⊕ β)) (s : σ) (f : β → Prog C R γ) :
    (iterate body s).bind f = loop body s f := rfl

theorem bind_assoc (p : Prog C R α) (f : α → Prog C R β) (g : β → Prog C R γ) :
    (p.bind f).bind g = p.bind fun a => (f a).bind g := by
  induction p with
  | ret a => rfl
  | call c k ih =>
    simp only [call_bind]
    congr 1
    funext r
    exact ih r f
  | loop body s k _ ih =>
    simp only [loop_bind]
    congr 1
    funext b
    exact ih b f

theorem unfold_bind (body : σ → Prog C R (σ ⊕ β)) (s : σ) (k : β → Prog C R α)
    (f : α → Prog C R γ) :
    (unfold body s k).bind f = unfold body s fun b => (k b).bind f := by
  simp only [unfold, bind_assoc]
  congr 1
  funext x
  cases x <;> rfl

/-! ### Runs that return -/

/-- `Eval H p w a w'`: in an environment that answers calls by `H`, the program `p` can return
`a`, and the world goes from `w` to `w'`. -/
inductive Eval (H : (c : C) → W → R c → W → Prop) : {α : Type} → Prog C R α → W → α → W → Prop
  | ret {α : Type} (a : α) (w : W) : Eval H (ret a) w a w
  | call {α : Type} {c : C} {k : R c → Prog C R α} {w w' w'' : W} {r : R c} {a : α}
      (hc : H c w r w') (hk : Eval H (k r) w' a w'') : Eval H (call c k) w a w''
  | again {α σ β : Type} {body : σ → Prog C R (σ ⊕ β)} {s s' : σ} {k : β → Prog C R α}
      {w w' w'' : W} {a : α} (hb : Eval H (body s) w (.inl s') w')
      (hl : Eval H (loop body s' k) w' a w'') : Eval H (loop body s k) w a w''
  | stop {α σ β : Type} {body : σ → Prog C R (σ ⊕ β)} {s : σ} {b : β} {k : β → Prog C R α}
      {w w' w'' : W} {a : α} (hb : Eval H (body s) w (.inr b) w')
      (hk : Eval H (k b) w' a w'') : Eval H (loop body s k) w a w''

section Eval

variable {H : (c : C) → W → R c → W → Prop}

@[simp] theorem eval_ret {a b : α} {w w' : W} :
    Eval H (ret a : Prog C R α) w b w' ↔ b = a ∧ w' = w := by
  constructor
  · rintro ⟨⟩
    exact ⟨rfl, rfl⟩
  · rintro ⟨rfl, rfl⟩
    exact .ret _ _

@[simp] theorem eval_call {c : C} {k : R c → Prog C R α} {w w'' : W} {a : α} :
    Eval H (call c k) w a w'' ↔ ∃ r w', H c w r w' ∧ Eval H (k r) w' a w'' := by
  constructor
  · rintro ⟨⟩
    exact ⟨_, _, ‹_›, ‹_›⟩
  · rintro ⟨r, w', hc, hk⟩
    exact .call hc hk

theorem eval_perform_bind {c : C} {f : R c → Prog C R α} {w w'' : W} {a : α} :
    Eval H ((perform c).bind f) w a w'' ↔ ∃ r w', H c w r w' ∧ Eval H (f r) w' a w'' := eval_call

theorem eval_loop {body : σ → Prog C R (σ ⊕ β)} {s : σ} {k : β → Prog C R α} {w w'' : W} {a : α} :
    Eval H (loop body s k) w a w'' ↔
      (∃ s' w', Eval H (body s) w (.inl s') w' ∧ Eval H (loop body s' k) w' a w'') ∨
        ∃ b w', Eval H (body s) w (.inr b) w' ∧ Eval H (k b) w' a w'' := by
  constructor
  · rintro (_ | _ | ⟨hb, hl⟩ | ⟨hb, hk⟩)
    · exact .inl ⟨_, _, hb, hl⟩
    · exact .inr ⟨_, _, hb, hk⟩
  · rintro (⟨s', w', hb, hl⟩ | ⟨b, w', hb, hk⟩)
    · exact .again hb hl
    · exact .stop hb hk

/-- Induction over the rounds of a loop that returns. -/
theorem eval_loop_induction {body : σ → Prog C R (σ ⊕ β)} {k : β → Prog C R α} {a : α} {w'' : W}
    {P : σ → W → Prop}
    (again : ∀ s s' w w', Eval H (body s) w (.inl s') w' → P s' w' → P s w)
    (stop : ∀ s b w w', Eval H (body s) w (.inr b) w' → Eval H (k b) w' a w'' → P s w)
    {s : σ} {w : W} (h : Eval H (loop body s k) w a w'') : P s w := by
  generalize hp : loop body s k = p at h
  induction h generalizing s with
  | ret a w => cases hp
  | call hc hk => cases hp
  | again hb hl _ ih =>
    cases hp
    exact again _ _ _ _ hb (ih stop rfl)
  | stop hb hk =>
    cases hp
    exact stop _ _ _ _ hb hk

/-- A sequence runs iff its parts run one after the other. -/
theorem eval_bind {p : Prog C R α} {f : α → Prog C R β} {w w'' : W} {b : β} :
    Eval H (p.bind f) w b w'' ↔ ∃ a w', Eval H p w a w' ∧ Eval H (f a) w' b w'' := by
  constructor
  · intro h
    induction p generalizing w with
    | ret a => exact ⟨a, w, .ret a w, h⟩
    | call c k ih =>
      obtain ⟨r, w₁, hc, hk⟩ := eval_call.1 h
      obtain ⟨a, w', hp, hf⟩ := ih r hk
      exact ⟨a, w', .call hc hp, hf⟩
    | loop body s k _ ih =>
      -- the rounds are the same ones, so the induction is on them
      refine eval_loop_induction (P := fun s w => ∃ a w', Eval H (loop body s k) w a w' ∧
        Eval H (f a) w' b w'') ?_ ?_ h
      · rintro s s' w w₁ hb ⟨a, w', hl, hf⟩
        exact ⟨a, w', .again hb hl, hf⟩
      · intro s c w w₁ hb hk
        obtain ⟨a, w', hp, hf⟩ := ih c hk
        exact ⟨a, w', .stop hb hp, hf⟩
  · rintro ⟨a, w', hp, hf⟩
    induction hp with
    | ret a w => exact hf
    | call hc _ ih => exact .call hc (ih hf)
    | again hb _ _ ih => exact .again hb (ih hf)
    | stop hb _ _ ih => exact .stop hb (ih hf)

theorem eval_unfold {body : σ → Prog C R (σ ⊕ β)} {s : σ} {k : β → Prog C R α} {w w'' : W}
    {a : α} : Eval H (unfold body s k) w a w'' ↔ Eval H (loop body s k) w a w'' := by
  rw [unfold, eval_bind, eval_loop]
  constructor
  · rintro ⟨s' | b, w', hb, hk⟩
    · exact .inl ⟨s', w', hb, hk⟩
    · exact .inr ⟨b, w', hb, hk⟩
  · rintro (⟨s', w', hb, hl⟩ | ⟨b, w', hb, hk⟩)
    · exact ⟨.inl s', w', hb, hl⟩
    · exact ⟨.inr b, w', hb, hk⟩

/-- An environment with more answers has more runs. -/
theorem Eval.mono {H' : (c : C) → W → R c → W → Prop} (hH : ∀ c w r w', H c w r w' → H' c w r w')
    {p : Prog C R α} {w w' : W} {a : α} (h : Eval H p w a w') : Eval H' p w a w' := by
  induction h with
  | ret a w => exact .ret a w
  | call hc _ ih => exact .call (hH _ _ _ _ hc) ih
  | again _ _ ihb ihl => exact .again ihb ihl
  | stop _ _ ihb ihk => exact .stop ihb ihk

/-- In an environment with one answer to each call a program returns one value. -/
theorem Eval.deterministic
    (hH : ∀ c w r r' v v', H c w r v → H c w r' v' → r = r' ∧ v = v') {p : Prog C R α} {a b : α}
    {w v v' : W} (h : Eval H p w a v) (h' : Eval H p w b v') : a = b ∧ v = v' := by
  induction h generalizing v' with
  | ret a w =>
    obtain ⟨rfl, rfl⟩ := eval_ret.1 h'
    exact ⟨rfl, rfl⟩
  | call hc _ ih =>
    obtain ⟨r, w', hc', hk'⟩ := eval_call.1 h'
    obtain ⟨rfl, rfl⟩ := hH _ _ _ _ _ _ hc hc'
    exact ih hk'
  | again _ _ ihb ihl =>
    rcases eval_loop.1 h' with ⟨s', w', hb', hl'⟩ | ⟨b', w', hb', -⟩
    · obtain ⟨hs, rfl⟩ := ihb hb'
      cases hs
      exact ihl hl'
    · cases (ihb hb').1
  | stop _ _ ihb ihk =>
    rcases eval_loop.1 h' with ⟨s', w', hb', -⟩ | ⟨b', w', hb', hk'⟩
    · cases (ihb hb').1
    · obtain ⟨hb, rfl⟩ := ihb hb'
      cases hb
      exact ihk hk'

/-- **The rule for loops.**  What holds at the start of the first round and from one round to
the next holds at the start of the round that leaves the loop. -/
theorem eval_loop_invariant {body : σ → Prog C R (σ ⊕ β)} {s : σ} {k : β → Prog C R α} {a : α}
    {w w'' : W} (I : σ → W → Prop) (h : Eval H (loop body s k) w a w'') (h₀ : I s w)
    (hstep : ∀ s s' w w', I s w → Eval H (body s) w (.inl s') w' → I s' w') :
    ∃ s₁ w₁ b w₂, I s₁ w₁ ∧ Eval H (body s₁) w₁ (.inr b) w₂ ∧ Eval H (k b) w₂ a w'' := by
  refine eval_loop_induction (P := fun s w => I s w → ∃ s₁ w₁ b w₂, I s₁ w₁ ∧
    Eval H (body s₁) w₁ (.inr b) w₂ ∧ Eval H (k b) w₂ a w'') ?_ ?_ h h₀
  · intro s s' w w' hb ih hI
    exact ih (hstep s s' w w' hI hb)
  · intro s b w w' hb hk hI
    exact ⟨s, w, b, w', hI, hb, hk⟩

end Eval

/-! ### Histories -/

/-- `Steps p h q`: the program `p` has made the calls of `h`, with the answers given there, and
is at `q`. -/
inductive Steps : Prog C R α → List ((c : C) × R c) → Prog C R α → Prop
  | refl (p : Prog C R α) : Steps p [] p
  | call {c : C} {k : R c → Prog C R α} {r : R c} {h : List ((c : C) × R c)} {q : Prog C R α}
      (hk : Steps (k r) h q) : Steps (call c k) (⟨c, r⟩ :: h) q
  | loop {σ β : Type} {body : σ → Prog C R (σ ⊕ β)} {s : σ} {k : β → Prog C R α}
      {h : List ((c : C) × R c)} {q : Prog C R α} (hk : Steps (unfold body s k) h q) :
      Steps (loop body s k) h q

/-- The program makes calls from `K` only, whatever the answers are. -/
def Only (K : C → Prop) : {α : Type} → Prog C R α → Prop
  | _, ret _ => True
  | _, call c k => K c ∧ ∀ r, (k r).Only K
  | _, loop body _ k => (∀ s, (body s).Only K) ∧ ∀ b, (k b).Only K

namespace Only

variable {K : C → Prop}

theorem bind {p : Prog C R α} {f : α → Prog C R β} (hp : p.Only K) (hf : ∀ a, (f a).Only K) :
    (p.bind f).Only K := by
  induction p with
  | ret a => exact hf a
  | call c k ih =>
    obtain ⟨hc, hk⟩ := hp
    exact ⟨hc, fun r => ih r (hk r) hf⟩
  | loop body s k _ ih =>
    obtain ⟨hb, hk⟩ := hp
    exact ⟨hb, fun b => ih b (hk b) hf⟩

theorem mono {K' : C → Prop} {p : Prog C R α} (h : p.Only K) (hK : ∀ c, K c → K' c) :
    p.Only K' := by
  induction p with
  | ret a => trivial
  | call c k ih =>
    obtain ⟨hc, hk⟩ := h
    exact ⟨hK c hc, fun r => ih r (hk r)⟩
  | loop body s k ihb ih =>
    obtain ⟨hb, hk⟩ := h
    exact ⟨fun s => ihb s (hb s), fun b => ih b (hk b)⟩

/-- Every call that a program makes, at any point of any run, is one it may make. -/
theorem of_steps {p q : Prog C R α} {h : List ((c : C) × R c)} (hp : p.Only K)
    (hs : Steps p h q) : (∀ x ∈ h, K x.1) ∧ q.Only K := by
  induction hs with
  | refl p => exact ⟨by simp, hp⟩
  | call _ ih =>
    obtain ⟨hc, hk⟩ := hp
    obtain ⟨hh, hq⟩ := ih (hk _)
    exact ⟨List.forall_mem_cons.2 ⟨hc, hh⟩, hq⟩
  | @loop σ β body s k _ _ _ ih =>
    obtain ⟨hb, hk⟩ := hp
    refine ih (Only.bind (hb s) ?_)
    rintro (s' | b)
    · exact ⟨hb, hk⟩
    · exact hk b

/-- What none of the calls changes, the program does not change. -/
theorem eval_eq {H : (c : C) → W → R c → W → Prop} {X : Type} {f : W → X}
    (hK : ∀ c w r w', K c → H c w r w' → f w' = f w) {p : Prog C R α} (hp : p.Only K) {w w' : W}
    {a : α} (h : Eval H p w a w') : f w' = f w := by
  induction h with
  | ret a w => rfl
  | call hc _ ih =>
    obtain ⟨hKc, hk⟩ := hp
    rw [ih (hk _), hK _ _ _ _ hKc hc]
  | again _ _ ihb ihl =>
    obtain ⟨hb, hk⟩ := hp
    rw [ihl ⟨hb, hk⟩, ihb (hb _)]
  | stop _ _ ihb ihk =>
    obtain ⟨hb, hk⟩ := hp
    rw [ihk (hk _), ihb (hb _)]

end Only

/-! ### An interpreter -/

/-- Run the program for at most `n` steps, with `h` answering the calls. -/
def run (h : (c : C) → W → R c × W) : ℕ → Prog C R α → W → Option (α × W)
  | 0, _, _ => none
  | _ + 1, ret a, w => some (a, w)
  | n + 1, call c k, w => run h n (k (h c w).1) (h c w).2
  | n + 1, loop body s k, w => run h n (unfold body s k) w

/-- What the interpreter computes is a run, when it answers calls as the environment may. -/
theorem eval_of_run {H : (c : C) → W → R c → W → Prop} {h : (c : C) → W → R c × W}
    (hH : ∀ c w, H c w (h c w).1 (h c w).2) {n : ℕ} {p : Prog C R α} {w w' : W} {a : α}
    (hr : run h n p w = some (a, w')) : Eval H p w a w' := by
  induction n generalizing p w with
  | zero => simp [run] at hr
  | succ n ih =>
    cases p with
    | ret b =>
      simp only [run, Option.some.injEq, Prod.mk.injEq] at hr
      exact eval_ret.2 ⟨hr.1.symm, hr.2.symm⟩
    | call c k => exact .call (hH c w) (ih hr)
    | loop body s k => exact eval_unfold.1 (ih hr)

/-- The calls made in a run of the interpreter, with their answers. -/
def history (h : (c : C) → W → R c × W) : ℕ → Prog C R α → W → List ((c : C) × R c)
  | 0, _, _ => []
  | _ + 1, ret _, _ => []
  | n + 1, call c k, w => ⟨c, (h c w).1⟩ :: history h n (k (h c w).1) (h c w).2
  | n + 1, loop body s k, w => history h n (unfold body s k) w

theorem steps_history (h : (c : C) → W → R c × W) (n : ℕ) (p : Prog C R α) (w : W) :
    ∃ q, Steps p (history h n p w) q := by
  induction n generalizing p w with
  | zero => exact ⟨p, .refl p⟩
  | succ n ih =>
    cases p with
    | ret a => exact ⟨ret a, .refl _⟩
    | call c k =>
      obtain ⟨q, hq⟩ := ih (k (h c w).1) (h c w).2
      exact ⟨q, .call hq⟩
    | loop body s k =>
      obtain ⟨q, hq⟩ := ih (unfold body s k) w
      exact ⟨q, .loop hq⟩

/-- A run of the interpreter, looked at through a function of the last world. -/
theorem exists_eval_of_run {X : Type} {H : (c : C) → W → R c → W → Prop} {h : (c : C) → W → R c × W}
    (hH : ∀ c w, H c w (h c w).1 (h c w).2) {f : W → X} {n : ℕ} {p : Prog C R α} {w : W} {a : α}
    {x : X} (hr : (run h n p w).map (fun r => (r.1, f r.2)) = some (a, x)) :
    ∃ w', Eval H p w a w' ∧ f w' = x := by
  obtain ⟨⟨b, w'⟩, hrun, hb⟩ := Option.map_eq_some_iff.1 hr
  cases hb
  exact ⟨w', eval_of_run hH hrun, rfl⟩

end Prog

end Ps4Dropbear
