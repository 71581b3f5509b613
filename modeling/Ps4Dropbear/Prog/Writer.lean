import Mathlib.Data.Nat.Basic
import Mathlib.Order.Basic
import Ps4Dropbear.Prog.Basic

/-!
# Programs with a writer

A program that produces its output through a writer it was given: it hands a piece of output to
the writer and is told whether the writer took it.  All other calls (`loc`) have nothing to do
with the output.  The elements of the output are of any type `B`.

A writer is a state and a function `put` on it.  `WriterProg.withWriter` connects the program with
a writer; what is left makes the other calls only.

* `WriterProg.keepAll` : the writer that takes everything.
* `WriterProg.Exceeds` : some run hands more than `n` elements to `keepAll`.

## Main results

* `WriterProg.eval_withWriter` : the program behind a writer runs as the program in an environment
  that has the state of the writer in its world.
* `WriterProg.eval_of_keepAll`, `WriterProg.eval_keepAll_or_exceeds` : a writer with room for `n`
  elements and one that takes everything cannot be told apart by a run with at most `n`.
-/

namespace Ps4Dropbear

namespace Prog

variable {C : Type} {R : C → Type} {W α β : Type} {H : (c : C) → W → R c → W → Prop}

/-- `Reaches H p w q w'`: in an environment that answers calls by `H`, the program `p` started in
`w` can get to the point `q`, with the world at `w'`. -/
inductive Reaches (H : (c : C) → W → R c → W → Prop) :
    {α : Type} → Prog C R α → W → Prog C R α → W → Prop
  | refl {α : Type} (p : Prog C R α) (w : W) : Reaches H p w p w
  | call {α : Type} {c : C} {k : R c → Prog C R α} {r : R c} {q : Prog C R α} {w w' w'' : W}
      (hc : H c w r w') (hk : Reaches H (k r) w' q w'') : Reaches H (call c k) w q w''
  | loop {α σ β : Type} {body : σ → Prog C R (σ ⊕ β)} {s : σ} {k : β → Prog C R α}
      {q : Prog C R α} {w w' : W} (hk : Reaches H (unfold body s k) w q w') :
      Reaches H (loop body s k) w q w'

theorem Reaches.trans {p q r : Prog C R α} {w w' w'' : W} (h : Reaches H p w q w')
    (h' : Reaches H q w' r w'') : Reaches H p w r w'' := by
  induction h with
  | refl => exact h'
  | call hc _ ih => exact .call hc (ih h')
  | loop _ ih => exact .loop (ih h')

/-- The first part of a sequence reaches what it reaches alone. -/
theorem Reaches.bind {p q : Prog C R α} {w w' : W} (h : Reaches H p w q w')
    (f : α → Prog C R β) : Reaches H (p.bind f) w (q.bind f) w' := by
  induction h with
  | refl p w => exact .refl _ _
  | call hc _ ih => exact .call hc ih
  | loop _ ih =>
    refine .loop ?_
    rw [← unfold_bind]
    exact ih

/-- A run that returns reaches its end. -/
theorem Eval.reaches {p : Prog C R α} {w w' : W} {a : α} (h : Eval H p w a w') :
    Reaches H p w (.ret a) w' := by
  induction h with
  | ret a w => exact .refl _ _
  | call hc _ ih => exact .call hc ih
  | again _ _ ihb ihl => exact .loop ((ihb.bind _).trans ihl)
  | stop _ _ ihb ihk => exact .loop ((ihb.bind _).trans ihk)

end Prog

/-- Calls of a program with a writer and calls `C` of its own. -/
inductive WriterCall (B C : Type)
  | emit (bs : List B)
  | loc (c : C)

/-- What a call returns; the writer says whether it took the elements. -/
@[reducible] def WriterCall.Answer {B C : Type} (R : C → Type) : WriterCall B C → Type
  | emit _ => Bool
  | loc c => R c

/-- Programs with a writer. -/
abbrev WriterProg (B : Type) {C : Type} (R : C → Type) (α : Type) : Type 1 :=
  Prog (WriterCall B C) (WriterCall.Answer R) α

namespace WriterProg

variable {B C : Type} {R : C → Type} {W α β σ τ : Type}

/-- Hand elements to the writer. -/
def emit (bs : List B) : WriterProg B R Bool := Prog.perform (WriterCall.emit bs)

/-- A call of the program's own. -/
def loc (c : C) : WriterProg B R (R c) := Prog.perform (WriterCall.loc c)

/-- The state of the writer stays with the value, to the left or to the right. -/
def tag (x : (τ ⊕ β) × σ) : (τ × σ) ⊕ (β × σ) :=
  x.1.elim (fun t => .inl (t, x.2)) (fun b => .inr (b, x.2))

/-- The program with the writer `put` in the state `s`. -/
def withWriter (put : σ → List B → Bool × σ) :
    {α : Type} → WriterProg B R α → σ → Prog C R (α × σ)
  | _, .ret a, s => .ret (a, s)
  | _, .call (.emit bs) k, s => withWriter put (k (put s bs).1) (put s bs).2
  | _, .call (.loc c) k, s => .call c fun r => withWriter put (k r) s
  | _, .loop body t k, s =>
    .loop (fun x => (withWriter put (body x.1) x.2).bind fun y => .ret (tag y)) (t, s)
      fun y => withWriter put (k y.1) y.2

/-- An environment for the program itself, with the state of the writer in the world. -/
def Writes (put : σ → List B → Bool × σ) (H : (c : C) → W → R c → W → Prop) :
    (c : WriterCall B C) → W × σ → c.Answer R → W × σ → Prop
  | .emit bs, v, r, v' => v'.1 = v.1 ∧ put v.2 bs = (r, v'.2)
  | .loc c, v, r, v' => H c v.1 r v'.1 ∧ v'.2 = v.2

section Eval

variable {put : σ → List B → Bool × σ} {H : (c : C) → W → R c → W → Prop}

/-- A call that is not for the writer leaves its state alone. -/
theorem eval_loc_bind {c : C} {f : R c → WriterProg B R α} {w : W} {s : σ} {v : W × σ} {a : α} :
    Prog.Eval (Writes put H) ((loc c).bind f) (w, s) a v ↔
      ∃ r w₁, H c w r w₁ ∧ Prog.Eval (Writes put H) (f r) (w₁, s) a v := by
  constructor
  · intro h
    obtain ⟨r, ⟨w₁, s₁⟩, ⟨hc, rfl⟩, hrest⟩ := Prog.eval_perform_bind.1 h
    exact ⟨r, w₁, hc, hrest⟩
  · rintro ⟨r, w₁, hc, hrest⟩
    exact Prog.eval_perform_bind.2 ⟨r, (w₁, s), ⟨hc, rfl⟩, hrest⟩

/-- A round of the loop with its writer. -/
theorem eval_tag {p : Prog C R ((τ ⊕ β) × σ)} {w w' : W} {x : (τ × σ) ⊕ (β × σ)} :
    Prog.Eval H (p.bind fun y => .ret (tag y)) w x w' ↔
      ∃ y, Prog.Eval H p w y w' ∧ tag y = x := by
  rw [Prog.eval_bind]
  constructor
  · rintro ⟨y, w₁, hp, hret⟩
    obtain ⟨rfl, rfl⟩ := Prog.eval_ret.1 hret
    exact ⟨y, hp, rfl⟩
  · rintro ⟨y, hp, rfl⟩
    exact ⟨y, w', hp, .ret _ _⟩

theorem tag_eq_inl {y : (τ ⊕ β) × σ} {t : τ} {s : σ} (h : tag y = .inl (t, s)) :
    y = (.inl t, s) := by
  obtain ⟨t' | b, s'⟩ := y
  · cases h
    rfl
  · cases h

theorem tag_eq_inr {y : (τ ⊕ β) × σ} {b : β} {s : σ} (h : tag y = .inr (b, s)) :
    y = (.inr b, s) := by
  obtain ⟨t' | b', s'⟩ := y
  · cases h
  · cases h
    rfl

/-- **The program behind a writer** runs as the program itself does in a world that has the state
of the writer in it. -/
theorem eval_withWriter {p : WriterProg B R α} {s s' : σ} {w w' : W} {a : α} :
    Prog.Eval H (withWriter put p s) w (a, s') w' ↔
      Prog.Eval (Writes put H) p (w, s) a (w', s') := by
  constructor
  · intro h
    induction p generalizing w s w' s' with
    | ret b =>
      obtain ⟨hb, rfl⟩ := Prog.eval_ret.1 h
      cases hb
      exact .ret _ _
    | call c k ih =>
      cases c with
      | emit bs => exact Prog.eval_call.2 ⟨_, (w, (put s bs).2), ⟨rfl, rfl⟩, ih _ h⟩
      | loc c =>
        obtain ⟨r, w₁, hc, hk⟩ := Prog.eval_call.1 h
        exact Prog.eval_call.2 ⟨r, (w₁, s), ⟨hc, rfl⟩, ih r hk⟩
    | loop body t k ihb ihk =>
      -- the rounds are the same ones, so the induction is on them
      refine Prog.eval_loop_induction (P := fun x w =>
        Prog.Eval (Writes put H) (.loop body x.1 k) (w, x.2) a (w', s')) ?_ ?_ h
      · rintro ⟨t, s⟩ ⟨t₁, s₁⟩ w w₁ hb ih
        obtain ⟨y, hy, htag⟩ := eval_tag.1 hb
        rw [tag_eq_inl htag] at hy
        exact .again (ihb t hy) ih
      · rintro ⟨t, s⟩ ⟨b, s₁⟩ w w₁ hb hk
        obtain ⟨y, hy, htag⟩ := eval_tag.1 hb
        rw [tag_eq_inr htag] at hy
        exact .stop (ihb t hy) (ihk b hk)
  · intro h
    generalize hv : (w, s) = v at h
    generalize hv' : (w', s') = v' at h
    induction h generalizing w s w' s' with
    | ret b v =>
      cases hv
      cases hv'
      exact .ret _ _
    | @call _ c k v v₁ v₂ r a hc hk ih =>
      cases hv
      cases c with
      | emit bs =>
        obtain ⟨h₁, h₂⟩ := hc
        have hput : put s bs = (r, v₁.2) := h₂
        simp only [withWriter, hput]
        exact ih (Prod.ext h₁.symm rfl) hv'
      | loc c =>
        obtain ⟨h₁, h₂⟩ := hc
        exact .call h₁ (ih (Prod.ext rfl h₂.symm) hv')
    | @again _ _ _ body t t₁ k v v₁ v₂ a hb hl ihb ihl =>
      cases hv
      obtain ⟨w₁, s₁⟩ := v₁
      exact .again (eval_tag.2 ⟨_, ihb rfl rfl, rfl⟩) (ihl rfl hv')
    | @stop _ _ _ body t b k v v₁ v₂ a hb hk ihb ihk =>
      cases hv
      obtain ⟨w₁, s₁⟩ := v₁
      exact .stop (eval_tag.2 ⟨_, ihb rfl rfl, rfl⟩) (ihk rfl hv')

/-- What the writer keeps of its state, whatever it is handed, is kept over a run. -/
theorem eval_writes_invariant {I : σ → Prop} (hI : ∀ s bs, I s → I (put s bs).2)
    {p : WriterProg B R α} {v v' : W × σ} {a : α} (h : Prog.Eval (Writes put H) p v a v')
    (hv : I v.2) : I v'.2 := by
  induction h with
  | ret a v => exact hv
  | @call _ c k v v₁ v₂ r a hc hk ih =>
    refine ih ?_
    cases c with
    | emit bs =>
      obtain ⟨-, hput⟩ := hc
      have hnext := hI v.2 bs hv
      rwa [hput] at hnext
    | loc c =>
      obtain ⟨-, hs⟩ := hc
      rwa [hs]
  | again _ _ ihb ihl => exact ihl (ihb hv)
  | stop _ _ ihb ihk => exact ihk (ihb hv)

end Eval

/-! ### Writers with room for some elements -/

/-- The writer that takes everything. -/
def keepAll (out bs : List B) : Bool × List B := (true, out ++ bs)

/-- Some run of the program hands more than `n` elements to a writer that takes everything, whether
it returns or not. -/
def Exceeds (H : (c : C) → W → R c → W → Prop) (n : ℕ) (p : WriterProg B R α) (w : W)
    (out : List B) : Prop :=
  ∃ q w' out', Prog.Reaches (Writes keepAll H) p (w, out) q (w', out') ∧ n < out'.length

section Room

variable {put : List B → List B → Bool × List B} {H : (c : C) → W → R c → W → Prop} {n : ℕ}

/-- What has been kept stays. -/
theorem length_le_of_keepAll {p : WriterProg B R α} {v v' : W × List B} {a : α}
    (h : Prog.Eval (Writes keepAll H) p v a v') : v.2.length ≤ v'.2.length := by
  induction h with
  | ret a v => exact le_rfl
  | @call _ c k v v₁ v₂ r a hc hk ih =>
    refine le_trans ?_ ih
    cases c with
    | emit bs =>
      obtain ⟨-, hput⟩ := hc
      obtain ⟨-, hout⟩ := Prod.mk.inj hput
      simp [← hout]
    | loc c =>
      obtain ⟨-, hout⟩ := hc
      rw [hout]
  | again _ _ ihb ihl => exact ihb.trans ihl
  | stop _ _ ihb ihk => exact ihb.trans ihk

/-- A run that hands at most `n` elements to a writer that takes everything is also a run with a
writer that has room for `n`. -/
theorem eval_of_keepAll (hput : ∀ out bs, (out ++ bs).length ≤ n → put out bs = (true, out ++ bs))
    {p : WriterProg B R α} {v v' : W × List B} {a : α}
    (h : Prog.Eval (Writes keepAll H) p v a v') (hn : v'.2.length ≤ n) :
    Prog.Eval (Writes put H) p v a v' := by
  induction h with
  | ret a v => exact .ret a v
  | @call _ c k v v₁ v₂ r a hc hk ih =>
    refine .call ?_ (ih hn)
    cases c with
    | emit bs =>
      obtain ⟨hw, hkeep⟩ := hc
      obtain ⟨rfl, hout⟩ := Prod.mk.inj hkeep
      refine ⟨hw, ?_⟩
      rw [hput v.2 bs (hout ▸ (length_le_of_keepAll hk).trans hn), hout]
    | loc c => exact hc
  | again _ hl ihb ihl => exact .again (ihb ((length_le_of_keepAll hl).trans hn)) (ihl hn)
  | stop _ hk ihb ihk => exact .stop (ihb ((length_le_of_keepAll hk).trans hn)) (ihk hn)

/-- The other direction: a run with a writer that has room for `n` elements is a run with one that
takes everything, or that one can be handed more than `n`. -/
theorem eval_keepAll_or_exceeds
    (hput : ∀ out bs, (out ++ bs).length ≤ n → put out bs = (true, out ++ bs))
    {p : WriterProg B R α} {v v' : W × List B} {a : α} (h : Prog.Eval (Writes put H) p v a v') :
    Prog.Eval (Writes keepAll H) p v a v' ∨ Exceeds H n p v.1 v.2 := by
  induction h with
  | ret a v => exact .inl (.ret a v)
  | @call _ c k v v₁ v₂ r a hc hk ih =>
    cases c with
    | emit bs =>
      obtain ⟨hw, hr⟩ := hc
      by_cases hfit : (v.2 ++ bs).length ≤ n
      · rw [hput _ _ hfit] at hr
        have hstep : Writes keepAll H (.emit bs) v r v₁ := ⟨hw, hr⟩
        rcases ih with hrun | ⟨q, w', out', hreach, hmore⟩
        · exact .inl (.call hstep hrun)
        · exact .inr ⟨q, w', out', .call hstep hreach, hmore⟩
      · -- the piece that does not fit is the witness
        have hstep : Writes keepAll H (.emit bs) v true (v.1, v.2 ++ bs) := ⟨rfl, rfl⟩
        exact .inr ⟨k true, v.1, v.2 ++ bs, .call hstep (.refl _ _), not_le.1 hfit⟩
    | loc c =>
      rcases ih with hrun | ⟨q, w', out', hreach, hmore⟩
      · exact .inl (.call hc hrun)
      · exact .inr ⟨q, w', out', .call hc hreach, hmore⟩
  | again hb hl ihb ihl =>
    rcases ihb with hrun | ⟨q, w', out', hreach, hmore⟩
    · rcases ihl with hrest | ⟨q, w', out', hreach, hmore⟩
      · exact .inl (.again hrun hrest)
      · exact .inr ⟨q, w', out', .loop ((hrun.reaches.bind _).trans hreach), hmore⟩
    · exact .inr ⟨_, w', out', .loop (hreach.bind _), hmore⟩
  | stop hb hk ihb ihk =>
    rcases ihb with hrun | ⟨q, w', out', hreach, hmore⟩
    · rcases ihk with hrest | ⟨q, w', out', hreach, hmore⟩
      · exact .inl (.stop hrun hrest)
      · exact .inr ⟨q, w', out', .loop ((hrun.reaches.bind _).trans hreach), hmore⟩
    · exact .inr ⟨_, w', out', .loop (hreach.bind _), hmore⟩

end Room

end WriterProg

end Ps4Dropbear
