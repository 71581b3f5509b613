import Ps4Dropbear.Prog.Writer

/-!
# Programs that report a refusal

A writer may refuse what it is handed.  A program that ignores this goes on as if the output had
been written, and what it returns then says nothing about the output.  `ReportsRefusal P p` says
that `p` does not: each of its runs either is a run with the writer that takes everything, or
returns a value of which `P` holds.

`Returns P p` says that `P` holds of whatever `p` returns, in every environment; it is what a
program has to do once the writer has refused.

There is one rule for each construct in both cases, and `ReportsRefusal.emit_bind` is where the
two meet.

* `ReportsRefusal.eval` : with a value that does not report, nothing has been lost.
-/

namespace Ps4Dropbear

namespace Prog

variable {C : Type} {R : C → Type} {α β σ : Type} {P : α → Prop} {Q : β → Prop}

/-- Whatever the calls are answered, the program returns a value of which `P` holds. -/
def Returns (P : α → Prop) (p : Prog C R α) : Prop :=
  ∀ (W : Type) (H : (c : C) → W → R c → W → Prop) (w w' : W) (a : α), Eval H p w a w' → P a

namespace Returns

theorem ret {a : α} (h : P a) : Returns P (ret a : Prog C R α) := by
  intro W H w w' b hrun
  obtain ⟨rfl, rfl⟩ := eval_ret.1 hrun
  exact h

theorem bind {p : Prog C R α} {f : α → Prog C R β} (hp : Returns P p)
    (hf : ∀ a, P a → Returns Q (f a)) : Returns Q (p.bind f) := by
  intro W H w w' b hrun
  obtain ⟨a, w₁, hrun, hrest⟩ := eval_bind.1 hrun
  exact hf a (hp W H w w₁ a hrun) W H w₁ w' b hrest

theorem perform_bind {c : C} {f : R c → Prog C R β} (hf : ∀ r, Returns Q (f r)) :
    Returns Q ((perform c).bind f) := by
  intro W H w w' b hrun
  obtain ⟨r, w₁, -, hrest⟩ := eval_perform_bind.1 hrun
  exact hf r W H w₁ w' b hrest

end Returns

end Prog

namespace WriterProg

variable {B C : Type} {R : C → Type} {α β σ : Type} {P : α → Prop} {Q : β → Prop}

/-- With a writer that only says it took something when it did, a run is one with a writer that
takes everything, or its value reports that it is not. -/
def ReportsRefusal (P : α → Prop) (p : WriterProg B R α) : Prop :=
  ∀ (W : Type) (H : (c : C) → W → R c → W → Prop) (put : List B → List B → Bool × List B),
    (∀ out bs, (put out bs).1 = true → put out bs = (true, out ++ bs)) →
    ∀ (v v' : W × List B) (a : α), Prog.Eval (Writes put H) p v a v' →
      Prog.Eval (Writes keepAll H) p v a v' ∨ P a

namespace ReportsRefusal

theorem ret (a : α) : ReportsRefusal P (.ret a : WriterProg B R α) := by
  intro W H put _ v v' b hrun
  obtain ⟨rfl, rfl⟩ := Prog.eval_ret.1 hrun
  exact .inl (.ret b v')

theorem mono {P' : α → Prop} {p : WriterProg B R α} (h : ReportsRefusal P p)
    (hP : ∀ a, P a → P' a) : ReportsRefusal P' p :=
  fun W H put hput v v' a hrun => (h W H put hput v v' a hrun).imp_right (hP a)

/-- A sequence, whose second part goes on with the report of the first. -/
theorem bind {p : WriterProg B R α} {f : α → WriterProg B R β} (hp : ReportsRefusal P p)
    (hf : ∀ a, ReportsRefusal Q (f a)) (hreport : ∀ a, P a → Prog.Returns Q (f a)) :
    ReportsRefusal Q (p.bind f) := by
  intro W H put hput v v' b hrun
  obtain ⟨a, v₁, hrun, hrest⟩ := Prog.eval_bind.1 hrun
  rcases hp W H put hput v v₁ a hrun with hkeep | hP
  · exact (hf a W H put hput v₁ v' b hrest).imp_left fun h => Prog.eval_bind.2 ⟨a, v₁, hkeep, h⟩
  · exact .inr (hreport a hP _ _ v₁ v' b hrest)

/-- A sequence whose first part has nothing to report. -/
theorem silent_bind {p : WriterProg B R α} {f : α → WriterProg B R β}
    (hp : ReportsRefusal (fun _ => False) p) (hf : ∀ a, ReportsRefusal Q (f a)) :
    ReportsRefusal Q (p.bind f) :=
  hp.bind hf fun _ => False.elim

/-- A call that is not for the writer. -/
theorem loc_bind {c : C} {f : R c → WriterProg B R α} (hf : ∀ r, ReportsRefusal P (f r)) :
    ReportsRefusal P ((loc c).bind f) := by
  intro W H put hput v v' a hrun
  obtain ⟨r, v₁, hc, hrest⟩ := Prog.eval_perform_bind.1 hrun
  exact (hf r W H put hput v₁ v' a hrest).imp_left fun h =>
    Prog.eval_perform_bind.2 ⟨r, v₁, hc, h⟩

/-- Where the writer is asked: the program must look at its answer. -/
theorem emit_bind {bs : List B} {f : Bool → WriterProg B R α} (htook : ReportsRefusal P (f true))
    (hrefused : Prog.Returns P (f false)) : ReportsRefusal P ((emit bs).bind f) := by
  intro W H put hput v v' a hrun
  obtain ⟨r, v₁, ⟨hw, hr⟩, hrest⟩ := Prog.eval_perform_bind.1 hrun
  cases r with
  | true =>
    refine (htook W H put hput v₁ v' a hrest).imp_left fun h =>
      Prog.eval_perform_bind.2 ⟨true, v₁, ⟨hw, ?_⟩, h⟩
    exact (hput v.2 bs (congrArg Prod.fst hr)).symm.trans hr
  | false => exact .inr (hrefused _ _ v₁ v' a hrest)

/-- **The rule for loops**: a round that reports is the last one. -/
theorem iterate {body : σ → WriterProg B R (σ ⊕ β)} {s : σ}
    (hbody : ∀ s, ReportsRefusal (Sum.elim (fun _ => False) Q) (body s)) :
    ReportsRefusal Q (Prog.iterate body s) := by
  intro W H put hput v v' b hrun
  refine Prog.eval_loop_induction
    (P := fun s v => Prog.Eval (Writes keepAll H) (Prog.iterate body s) v b v' ∨ Q b) ?_ ?_ hrun
  · intro s s' v v₁ hround ih
    rcases hbody s W H put hput v v₁ _ hround with hkeep | hfalse
    · exact ih.imp_left fun h => .again hkeep h
    · exact hfalse.elim
  · intro s b' v v₁ hround hret
    obtain ⟨rfl, rfl⟩ := Prog.eval_ret.1 hret
    exact (hbody s W H put hput v v' _ hround).imp_left fun h => .stop h (.ret b v')

/-- **A run that does not report** is a run with the writer that takes everything. -/
theorem eval {p : WriterProg B R α} (h : ReportsRefusal P p) {W : Type}
    {H : (c : C) → W → R c → W → Prop} {put : List B → List B → Bool × List B}
    (hput : ∀ out bs, (put out bs).1 = true → put out bs = (true, out ++ bs)) {v v' : W × List B}
    {a : α} (hrun : Prog.Eval (Writes put H) p v a v') (ha : ¬ P a) :
    Prog.Eval (Writes keepAll H) p v a v' :=
  (h W H put hput v v' a hrun).resolve_right ha

end ReportsRefusal

end WriterProg

end Ps4Dropbear
