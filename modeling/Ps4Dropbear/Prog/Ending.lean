import Mathlib.Order.Defs.Unbundled
import Mathlib.Order.WellFounded
import Ps4Dropbear.Prog.Total

/-!
# Programs that end

A program takes a step when it makes a call or enters a loop.  `Prog.Finishes H Q p w` says that it
cannot go on forever and that it only stops by returning, and is what a reader wants to know;
`Prog.Total` is what the rules prove.

Where nothing is said about the values of a program, only about how far it can go, `Prog.Ends`
is easier to use than `Prog.Total`: it is about all worlds at once, and a relation says what the
program cannot undo (what it has used up, for instance).

* `Prog.Step` : one step of a program with its world.
* `Prog.Total.finishes` : every run ends.
* `Prog.Total.refine` : fewer answers, as long as there are any.
* `Prog.Ends.bind`, `Prog.Ends.perform_bind`, `Prog.Ends.iterate` : one rule for each construct.
-/

namespace Ps4Dropbear

namespace Prog

variable {C : Type} {R : C → Type} {α β σ V W : Type} {H : (c : C) → W → R c → W → Prop}
variable {Q : α → W → Prop}

/-- One step: a call with its answer, or a loop with its body written out once. -/
inductive Step (H : (c : C) → W → R c → W → Prop) : Prog C R α × W → Prog C R α × W → Prop
  | call {c : C} {k : R c → Prog C R α} {r : R c} {w w' : W} (hc : H c w r w') :
      Step H (.call c k, w) (k r, w')
  | loop {σ β : Type} {body : σ → Prog C R (σ ⊕ β)} {s : σ} {k : β → Prog C R α} {w : W} :
      Step H (.loop body s k, w) (unfold body s k, w)

/-- The program takes only finitely many steps, and when it cannot take another one it has returned
and `Q` holds. -/
structure Finishes (H : (c : C) → W → R c → W → Prop) (Q : α → W → Prop) (p : Prog C R α) (w : W) :
    Prop where
  finite : ¬ ∃ run : ℕ → Prog C R α × W, run 0 = (p, w) ∧ ∀ n, Step H (run n) (run (n + 1))
  returns : ∀ q w', Reaches H p w q w' → (∃ x, Step H (q, w') x) ∨ ∃ a, q = .ret a ∧ Q a w'

namespace Total

theorem acc {p : Prog C R α} {w : W} (h : Total H Q p w) : Acc (fun y x => Step H x y) (p, w) := by
  induction h with
  | ret _ => exact ⟨_, fun y hy => nomatch hy⟩
  | call _ _ ih =>
    refine ⟨_, fun y hy => ?_⟩
    cases hy with
    | call hc => exact ih _ _ hc
  | loop _ ih =>
    refine ⟨_, fun y hy => ?_⟩
    cases hy
    exact ih

/-- What is left of a program at any point of a run. -/
theorem of_reaches {p q : Prog C R α} {w w' : W} (h : Total H Q p w) (hr : Reaches H p w q w') :
    Total H Q q w' := by
  induction hr with
  | refl => exact h
  | call hc _ ih =>
    cases h with
    | call _ hk => exact ih (hk _ _ hc)
  | loop _ ih =>
    cases h with
    | loop hk => exact ih hk

theorem progress {p : Prog C R α} {w : W} (h : Total H Q p w) :
    (∃ x, Step H (p, w) x) ∨ ∃ a, p = .ret a ∧ Q a w := by
  cases h with
  | ret h => exact .inr ⟨_, rfl, h⟩
  | call hex _ =>
    obtain ⟨r, w', hc⟩ := hex
    exact .inl ⟨_, .call hc⟩
  | loop _ => exact .inl ⟨_, .loop⟩

/-- **A program all of whose runs end** takes finitely many steps. -/
theorem finishes {p : Prog C R α} {w : W} (h : Total H Q p w) : Finishes H Q p w where
  finite hrun := not_acc_iff_exists_descending_chain.2 hrun h.acc
  returns _ _ hr := (h.of_reaches hr).progress

/-- An environment that answers every call, and only as another one does. -/
theorem refine {H' : (c : C) → V → R c → V → Prop} {Rel : W → V → Prop}
    (hex : ∀ c w v, Rel w v → ∃ r v', H' c v r v')
    (hsim : ∀ c w v r v', Rel w v → H' c v r v' → ∃ w', H c w r w' ∧ Rel w' v')
    {p : Prog C R α} {w : W} {v : V} (h : Total H Q p w) (hrel : Rel w v) :
    Total H' (fun a v' => ∃ w', Q a w' ∧ Rel w' v') p v := by
  induction h generalizing v with
  | ret h => exact .ret ⟨_, h, hrel⟩
  | call _ _ ih =>
    refine .call (hex _ _ _ hrel) fun r v' hc => ?_
    obtain ⟨w', hw, hrel'⟩ := hsim _ _ _ _ _ hrel hc
    exact ih r w' hw hrel'
  | loop _ ih => exact .loop (ih hrel)

end Total

/-- In every world the program ends, and in one that `Rel` leads to. -/
def Ends (H : (c : C) → W → R c → W → Prop) (Rel : W → W → Prop) (p : Prog C R α) : Prop :=
  ∀ w, Total H (fun _ w' => Rel w w') p w

namespace Ends

variable {Rel : W → W → Prop}

/-- A program that ends, as a part of one of which more is known. -/
theorem total_bind {p : Prog C R α} {f : α → Prog C R β} {Q : β → W → Prop} {w : W}
    (hp : Ends H Rel p) (hf : ∀ a w', Rel w w' → Total H Q (f a) w') :
    Total H Q (p.bind f) w :=
  (hp w).bind hf

theorem mono {Rel' : W → W → Prop} {p : Prog C R α} (h : Ends H Rel p)
    (hRel : ∀ w w', Rel w w' → Rel' w w') : Ends H Rel' p :=
  fun w => (h w).mono fun _ w' => hRel w w'

theorem ret [Std.Refl Rel] (a : α) : Ends H Rel (.ret a : Prog C R α) :=
  fun w => .ret (refl w)

theorem bind [IsTrans W Rel] {p : Prog C R α} {f : α → Prog C R β} (hp : Ends H Rel p)
    (hf : ∀ a, Ends H Rel (f a)) : Ends H Rel (p.bind f) :=
  fun _ => hp.total_bind fun a w' hw => (hf a w').mono fun _ _ => trans_of Rel hw

theorem perform_bind [IsTrans W Rel] {c : C} {f : R c → Prog C R α}
    (hex : ∀ w, ∃ r w', H c w r w') (hc : ∀ w r w', H c w r w' → Rel w w')
    (hf : ∀ r, Ends H Rel (f r)) : Ends H Rel ((perform c).bind f) :=
  fun w => .perform_bind (hex w) fun r w' h => (hf r w').mono fun _ _ => trans_of Rel (hc w r w' h)

theorem ite {c : Prop} [Decidable c] {p q : Prog C R α} (hp : Ends H Rel p) (hq : Ends H Rel q) :
    Ends H Rel (if c then p else q) := by
  split
  · exact hp
  · exact hq

/-- **The rule for loops**: a measure that every round lowers. -/
theorem iterate [IsPreorder W Rel] {body : σ → Prog C R (σ ⊕ β)} {s : σ} (f : σ → W → ℕ)
    (hbody : ∀ s w, Total H
      (fun x w' => Rel w w' ∧ ∀ s', x = .inl s' → f s' w' < f s w) (body s) w) :
    Ends H Rel (Prog.iterate body s) := by
  intro w
  refine .iterate (fun _ w' => Rel w w') f (refl w) ?_
  intro s w₁ hw
  refine (hbody s w₁).mono ?_
  rintro (s' | b) w₂ ⟨hrel, hlt⟩
  · exact ⟨trans_of Rel hw hrel, hlt s' rfl⟩
  · exact trans_of Rel hw hrel

end Ends

end Prog

end Ps4Dropbear
