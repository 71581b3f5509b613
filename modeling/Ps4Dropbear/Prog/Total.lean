import Mathlib.Data.Nat.Basic
import Mathlib.Order.Basic
import Ps4Dropbear.Prog.Writer

/-!
# Total correctness of programs

In an environment that answers calls by `H` a program may have many runs.  `Prog.Total H Q p w`
says that every one of them ends, and with a value and a world of which `Q` holds; an environment
that has no answer for a call counts as a failure, so there is at least one run.

There is one rule for each construct: `Total.ret`, `Total.call`, `Total.bind`, `Total.iterate`.

* `Prog.Total.of_eval` : what a run of a program with this property returns.
* `Prog.Total.exists_eval` : there is such a run.
* `WriterProg.total_emit` : the rule for handing something to the writer that takes everything.
-/

namespace Ps4Dropbear

namespace Prog

variable {C : Type} {R : C → Type} {α β σ W : Type} {H : (c : C) → W → R c → W → Prop}

/-- Every run of the program ends, and `Q` holds then. -/
inductive Total (H : (c : C) → W → R c → W → Prop) (Q : α → W → Prop) : Prog C R α → W → Prop
  | ret {a : α} {w : W} (h : Q a w) : Total H Q (ret a) w
  | call {c : C} {k : R c → Prog C R α} {w : W} (hex : ∃ r w', H c w r w')
      (hk : ∀ r w', H c w r w' → Total H Q (k r) w') : Total H Q (call c k) w
  | loop {σ β : Type} {body : σ → Prog C R (σ ⊕ β)} {s : σ} {k : β → Prog C R α} {w : W}
      (hk : Total H Q (unfold body s k) w) : Total H Q (loop body s k) w

namespace Total

variable {Q : α → W → Prop}

theorem perform_bind {c : C} {f : R c → Prog C R α} {w : W} (hex : ∃ r w', H c w r w')
    (hf : ∀ r w', H c w r w' → Total H Q (f r) w') : Total H Q ((perform c).bind f) w :=
  .call hex hf

theorem mono {Q' : α → W → Prop} {p : Prog C R α} {w : W} (h : Total H Q p w)
    (hQ : ∀ a w, Q a w → Q' a w) : Total H Q' p w := by
  induction h with
  | ret h => exact .ret (hQ _ _ h)
  | call hex _ ih => exact .call hex ih
  | loop _ ih => exact .loop ih

/-- A sequence, part by part. -/
theorem bind {Q' : β → W → Prop} {p : Prog C R α} {f : α → Prog C R β} {w : W}
    (hp : Total H Q p w) (hf : ∀ a w, Q a w → Total H Q' (f a) w) :
    Total H Q' (p.bind f) w := by
  induction hp with
  | ret h => exact hf _ _ h
  | call hex _ ih => exact .call hex ih
  | loop _ ih =>
    refine .loop ?_
    rw [← unfold_bind]
    exact ih

/-- **The rule for loops**: an invariant of the rounds, and a measure that every round lowers. -/
theorem iterate {Q : β → W → Prop} {body : σ → Prog C R (σ ⊕ β)} {s : σ} {w : W}
    (I : σ → W → Prop) (f : σ → W → ℕ) (hI : I s w)
    (hbody : ∀ s w, I s w → Total H
      (fun x w' => Sum.elim (fun s' => I s' w' ∧ f s' w' < f s w) (fun b => Q b w') x)
      (body s) w) :
    Total H Q (iterate body s) w := by
  generalize hn : f s w = n
  induction n using Nat.strong_induction_on generalizing s w with
  | h n ih =>
    refine .loop (bind (hbody s w hI) ?_)
    rintro (s' | b) w' hx
    · exact ih (f s' w') (hn ▸ hx.2) hx.1 rfl
    · exact .ret hx

/-- Every run ends as it should. -/
theorem of_eval {p : Prog C R α} {w w' : W} {a : α} (h : Total H Q p w) (hrun : Eval H p w a w') :
    Q a w' := by
  induction h with
  | ret h =>
    obtain ⟨rfl, rfl⟩ := eval_ret.1 hrun
    exact h
  | call _ _ ih =>
    obtain ⟨r, w₁, hc, hk⟩ := eval_call.1 hrun
    exact ih r w₁ hc hk
  | loop _ ih => exact ih (eval_unfold.2 hrun)

/-- There is a run. -/
theorem exists_eval {p : Prog C R α} {w : W} (h : Total H Q p w) :
    ∃ a w', Eval H p w a w' ∧ Q a w' := by
  induction h with
  | ret h => exact ⟨_, _, .ret _ _, h⟩
  | call hex _ ih =>
    obtain ⟨r, w₁, hc⟩ := hex
    obtain ⟨a, w', hrun, hQ⟩ := ih r w₁ hc
    exact ⟨a, w', .call hc hrun, hQ⟩
  | loop _ ih =>
    obtain ⟨a, w', hrun, hQ⟩ := ih
    exact ⟨a, w', eval_unfold.1 hrun, hQ⟩

end Total

end Prog

namespace WriterProg

variable {B C : Type} {R : C → Type} {α W : Type} {H : (c : C) → W → R c → W → Prop}
variable {Q : α → W × List B → Prop}

/-- The writer that takes everything keeps what it is handed. -/
theorem total_emit {bs : List B} {f : Bool → WriterProg B R α} {w : W} {out : List B}
    (hf : Prog.Total (Writes keepAll H) Q (f true) (w, out ++ bs)) :
    Prog.Total (Writes keepAll H) Q ((emit bs).bind f) (w, out) := by
  refine .perform_bind ⟨true, (w, out ++ bs), rfl, rfl⟩ ?_
  rintro r ⟨w', out'⟩ ⟨hw, hput⟩
  obtain ⟨rfl, hout⟩ := Prod.mk.inj hput
  cases hw
  cases hout
  exact hf

/-- Another call, which leaves the output alone. -/
theorem total_loc {c : C} {f : R c → WriterProg B R α} {w : W} {out : List B}
    (hex : ∃ r w', H c w r w')
    (hf : ∀ r w', H c w r w' → Prog.Total (Writes keepAll H) Q (f r) (w', out)) :
    Prog.Total (Writes keepAll H) Q ((loc c).bind f) (w, out) := by
  obtain ⟨r, w', hc⟩ := hex
  refine .perform_bind ⟨r, (w', out), hc, rfl⟩ ?_
  rintro r ⟨w', out'⟩ ⟨hc, rfl⟩
  exact hf r w' hc

end WriterProg

end Ps4Dropbear
