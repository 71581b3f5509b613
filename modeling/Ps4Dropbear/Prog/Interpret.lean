import Ps4Dropbear.Prog.Total

/-!
# Programs in the place of calls

A call of one program can be a whole program of another kind: handing output to a writer, say, is a
loop of calls on a socket.  `Prog.interpret f p` is the program `p` with the program `f c` in the
place of each call `c`.

* `Prog.Total.interpret` : it ends if `p` ends in an environment that answers each call as `f` does.
* `WriterProg.total_withWriter` : the same for a writer that is a function.
-/

namespace Ps4Dropbear

namespace Prog

variable {C D : Type} {R : C → Type} {S : D → Type} {α β σ V W : Type}

/-- The program with a program in the place of each call. -/
def interpret (f : (c : C) → Prog D S (R c)) : {α : Type} → Prog C R α → Prog D S α
  | _, ret a => ret a
  | _, call c k => (f c).bind fun r => interpret f (k r)
  | _, loop body s k => loop (fun s => interpret f (body s)) s fun b => interpret f (k b)

variable {f : (c : C) → Prog D S (R c)}

theorem interpret_bind (p : Prog C R α) (g : α → Prog C R β) :
    interpret f (p.bind g) = (interpret f p).bind fun a => interpret f (g a) := by
  induction p with
  | ret a => rfl
  | call c k ih =>
    simp only [call_bind, interpret, bind_assoc]
    congr 1
    funext r
    exact ih r g
  | loop body s k _ ih =>
    simp only [loop_bind, interpret]
    congr 1
    funext b
    exact ih b g

theorem interpret_unfold (body : σ → Prog C R (σ ⊕ β)) (s : σ) (k : β → Prog C R α) :
    interpret f (unfold body s k) =
      unfold (fun s => interpret f (body s)) s fun b => interpret f (k b) := by
  simp only [unfold, interpret_bind]
  congr 1
  funext x
  cases x <;> rfl

/-- **Programs in the place of calls**: each of them ends and answers the call as the environment
may, as far as `Rel` can tell. -/
theorem Total.interpret {H : (c : C) → W → R c → W → Prop} {H' : (d : D) → V → S d → V → Prop}
    {Rel : W → V → Prop} {Q : α → W → Prop}
    (hf : ∀ c w v, Rel w v → Total H' (fun r v' => ∃ w', H c w r w' ∧ Rel w' v') (f c) v)
    {p : Prog C R α} {w : W} {v : V} (h : Total H Q p w) (hrel : Rel w v) :
    Total H' (fun a v' => ∃ w', Q a w' ∧ Rel w' v') (interpret f p) v := by
  induction h generalizing v with
  | ret h => exact .ret ⟨_, h, hrel⟩
  | call _ _ ih =>
    refine (hf _ _ _ hrel).bind ?_
    rintro r v' ⟨w', hc, hrel'⟩
    exact ih r w' hc hrel'
  | loop _ ih =>
    refine .loop ?_
    rw [← interpret_unfold]
    exact ih hrel

end Prog

namespace WriterProg

variable {B C : Type} {R : C → Type} {W α β σ τ : Type} {put : σ → List B → Bool × σ}

theorem withWriter_bind (p : WriterProg B R α) (g : α → WriterProg B R β) (s : σ) :
    withWriter put (p.bind g) s = (withWriter put p s).bind fun y => withWriter put (g y.1) y.2 := by
  induction p generalizing s with
  | ret a => rfl
  | call c k ih =>
    cases c with
    | emit bs => exact ih _ g _
    | loc c =>
      simp only [withWriter, Prog.call_bind]
      congr 1
      funext r
      exact ih r g s
  | loop body t k _ ih =>
    simp only [withWriter, Prog.loop_bind]
    congr 1
    funext y
    exact ih y.1 g y.2

theorem withWriter_unfold (body : τ → WriterProg B R (τ ⊕ β)) (t : τ) (k : β → WriterProg B R α)
    (s : σ) : withWriter put (Prog.unfold body t k) s =
      Prog.unfold (fun x => (withWriter put (body x.1) x.2).bind fun y => .ret (tag y)) (t, s)
        fun y => withWriter put (k y.1) y.2 := by
  simp only [Prog.unfold, withWriter_bind, Prog.bind_assoc]
  congr 1
  funext y
  obtain ⟨_ | _, _⟩ := y <;> rfl

/-- **A function as the writer**: the program ends if it does whatever the writer answers. -/
theorem total_withWriter {H : (c : C) → W → R c → W → Prop}
    {H' : (c : WriterCall B C) → W → c.Answer R → W → Prop}
    (hemit : ∀ bs w r, H' (.emit bs) w r w) (hloc : ∀ c w r w', H' (.loc c) w r w' ↔ H c w r w')
    {Q : α → W → Prop} {p : WriterProg B R α} {w : W} (h : Prog.Total H' Q p w) (s : σ) :
    Prog.Total H (fun y w' => Q y.1 w') (withWriter put p s) w := by
  induction h generalizing s with
  | ret h => exact .ret h
  | @call c k w hex _ ih =>
    cases c with
    | emit bs => exact ih _ w (hemit bs w _) _
    | loc c =>
      obtain ⟨r, w', hc⟩ := hex
      exact .call ⟨r, w', (hloc c w r w').1 hc⟩ fun r w' hc => ih r w' ((hloc c w r w').2 hc) s
  | loop _ ih =>
    refine .loop ?_
    rw [← withWriter_unfold]
    exact ih s

end WriterProg

end Ps4Dropbear
