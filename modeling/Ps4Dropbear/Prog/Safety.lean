import Ps4Dropbear.Prog.Basic

/-!
# Rules for histories

What holds at every point of every run of a program, whether the run ends or not.  The answers to
the calls are only known to be legal, by a predicate `L` on a call with its answer; the property is
about the history so far, so it can speak of what a program has sent or been told.

`Prog.Safe L I Q p g` : when `p` runs after the history `g`, the invariant `I` holds of the history
at all times, and `Q` of its value and the history when it returns.

There is one rule for each construct: `Safe.ret`, `Safe.call`, `Safe.bind`, `Safe.iterate`.
-/

namespace Ps4Dropbear

namespace Prog

variable {C : Type} {R : C → Type} {α β σ : Type}

/-- A sequence is in its first part, or past it. -/
theorem steps_bind {p : Prog C R α} {f : α → Prog C R β} {h : List ((c : C) × R c)}
    {q : Prog C R β} (hs : Steps (p.bind f) h q) :
    (∃ q', Steps p h q' ∧ q = q'.bind f) ∨
      ∃ a h₁ h₂, h = h₁ ++ h₂ ∧ Steps p h₁ (.ret a) ∧ Steps (f a) h₂ q := by
  generalize hp : p.bind f = p' at hs
  induction hs generalizing p with
  | refl => exact .inl ⟨p, .refl p, hp.symm⟩
  | @call c k r h q hk ih =>
    cases p with
    | ret a =>
      replace hp : f a = .call c k := hp
      exact .inr ⟨a, [], _, rfl, .refl _, by rw [hp]; exact .call hk⟩
    | call c' k' =>
      cases hp
      rcases ih rfl with ⟨q', hq', rfl⟩ | ⟨a, h₁, h₂, rfl, h', h''⟩
      · exact .inl ⟨q', .call hq', rfl⟩
      · exact .inr ⟨a, ⟨c, r⟩ :: h₁, h₂, rfl, .call h', h''⟩
    | loop body s k' => cases hp
  | @loop σ δ body s k h q hk ih =>
    cases p with
    | ret a =>
      replace hp : f a = .loop body s k := hp
      exact .inr ⟨a, [], _, rfl, .refl _, by rw [hp]; exact .loop hk⟩
    | call c k' => cases hp
    | loop body' s' k' =>
      cases hp
      rcases ih (unfold_bind body s k' f) with ⟨q', hq', rfl⟩ | ⟨a, h₁, h₂, rfl, h', h''⟩
      · exact .inl ⟨q', .loop hq', rfl⟩
      · exact .inr ⟨a, h₁, h₂, rfl, .loop h', h''⟩

theorem bind_eq_ret {p : Prog C R α} {f : α → Prog C R β} {b : β} (h : p.bind f = .ret b) :
    ∃ a, p = .ret a ∧ f a = .ret b := by
  cases p with
  | ret a => exact ⟨a, rfl, h⟩
  | call c k => cases h
  | loop body s k => cases h

theorem steps_ret {a : α} {h : List ((c : C) × R c)} {q : Prog C R α} :
    Steps (.ret a) h q ↔ h = [] ∧ q = .ret a := by
  constructor
  · rintro ⟨⟩
    exact ⟨rfl, rfl⟩
  · rintro ⟨rfl, rfl⟩
    exact .refl _

theorem steps_call_ret {c : C} {k : R c → Prog C R α} {h : List ((c : C) × R c)} {a : α}
    (hs : Steps (.call c k) h (.ret a)) : ∃ r h', h = ⟨c, r⟩ :: h' ∧ Steps (k r) h' (.ret a) := by
  cases hs with
  | call hk => exact ⟨_, _, rfl, hk⟩

/-- A sequence that has returned is past its first part. -/
theorem steps_bind_ret {p : Prog C R α} {f : α → Prog C R β} {h : List ((c : C) × R c)} {b : β}
    (hs : Steps (p.bind f) h (.ret b)) :
    ∃ a h₁ h₂, h = h₁ ++ h₂ ∧ Steps p h₁ (.ret a) ∧ Steps (f a) h₂ (.ret b) := by
  rcases steps_bind hs with ⟨q', hs', hq⟩ | hdone
  · obtain ⟨a, rfl, hfa⟩ := bind_eq_ret hq.symm
    exact ⟨a, h, [], by simp, hs', hfa ▸ .refl _⟩
  · exact hdone

/-- An interpreter that only gives legal answers has legal histories. -/
theorem forall_mem_history {W : Type} {L : (c : C) × R c → Prop} {h : (c : C) → W → R c × W}
    (hL : ∀ c w, L ⟨c, (h c w).1⟩) (n : ℕ) (p : Prog C R α) (w : W) :
    ∀ x ∈ history h n p w, L x := by
  induction n generalizing p w with
  | zero => exact nofun
  | succ n ih =>
    cases p with
    | ret a => exact nofun
    | call c k => exact List.forall_mem_cons.2 ⟨hL c w, ih (k (h c w).1) (h c w).2⟩
    | loop body s k => exact ih (unfold body s k) w

/-- Whatever the legal answers are, `I` holds of the history at all times, and `Q` when the program
returns; `g` is the history before it. -/
def Safe (L : (c : C) × R c → Prop) (I : List ((c : C) × R c) → Prop)
    (Q : α → List ((c : C) × R c) → Prop) (p : Prog C R α) (g : List ((c : C) × R c)) : Prop :=
  ∀ h q, Steps p h q → (∀ x ∈ h, L x) → I (g ++ h) ∧ ∀ a, q = .ret a → Q a (g ++ h)

namespace Safe

variable {L : (c : C) × R c → Prop} {I : List ((c : C) × R c) → Prop}
variable {Q : α → List ((c : C) × R c) → Prop} {g : List ((c : C) × R c)}

/-- The invariant holds at the start. -/
theorem start {p : Prog C R α} (h : Safe L I Q p g) : I g := by
  have hI := (h [] p (.refl p) nofun).1
  rwa [List.append_nil] at hI

theorem ret {a : α} (hI : I g) (hQ : Q a g) : Safe L I Q (.ret a) g := by
  intro h q hs _
  cases hs
  rw [List.append_nil]
  refine ⟨hI, fun b hb => ?_⟩
  cases hb
  exact hQ

theorem call {c : C} {k : R c → Prog C R α} (hI : I g)
    (hk : ∀ r, L ⟨c, r⟩ → Safe L I Q (k r) (g ++ [⟨c, r⟩])) : Safe L I Q (.call c k) g := by
  intro h q hs hL
  cases hs with
  | refl =>
    rw [List.append_nil]
    exact ⟨hI, nofun⟩
  | @call _ _ r h _ hs =>
    obtain ⟨hr, hL⟩ := List.forall_mem_cons.1 hL
    have hrest := hk r hr h q hs hL
    rwa [List.append_assoc, List.singleton_append] at hrest

theorem perform_bind {c : C} {f : R c → Prog C R α} (hI : I g)
    (hf : ∀ r, L ⟨c, r⟩ → Safe L I Q (f r) (g ++ [⟨c, r⟩])) :
    Safe L I Q ((perform c).bind f) g :=
  call hI hf

theorem mono {I' : List ((c : C) × R c) → Prop} {Q' : α → List ((c : C) × R c) → Prop}
    {p : Prog C R α} (h : Safe L I Q p g) (hI : ∀ h, I h → I' h) (hQ : ∀ a h, Q a h → Q' a h) :
    Safe L I' Q' p g := by
  intro h' q hs hL
  obtain ⟨hI', hQ'⟩ := h h' q hs hL
  exact ⟨hI _ hI', fun a ha => hQ a _ (hQ' a ha)⟩

theorem bind {Q' : β → List ((c : C) × R c) → Prop} {p : Prog C R α} {f : α → Prog C R β}
    (hp : Safe L I Q p g) (hf : ∀ a h, I h → Q a h → Safe L I Q' (f a) h) :
    Safe L I Q' (p.bind f) g := by
  intro h q hs hL
  rcases steps_bind hs with ⟨q', hs', rfl⟩ | ⟨a, h₁, h₂, rfl, hs₁, hs₂⟩
  · obtain ⟨hI, hQ⟩ := hp h q' hs' hL
    refine ⟨hI, fun b hb => ?_⟩
    -- the sequence returns only if its first part has
    obtain ⟨a, rfl, hfa⟩ := bind_eq_ret hb
    have hrest := hf a _ hI (hQ a rfl) [] (.ret b) (hfa ▸ .refl _) nofun
    rw [List.append_nil] at hrest
    exact hrest.2 b rfl
  · obtain ⟨hL₁, hL₂⟩ := List.forall_mem_append.1 hL
    obtain ⟨hI, hQ⟩ := hp h₁ _ hs₁ hL₁
    have hrest := hf a _ hI (hQ a rfl) h₂ q hs₂ hL₂
    rwa [List.append_assoc] at hrest

/-- What is left of a round of a loop, and the rounds behind it. -/
theorem round {J : σ → List ((c : C) × R c) → Prop} {Q : β → List ((c : C) × R c) → Prop}
    {body : σ → Prog C R (σ ⊕ β)}
    (hbody : ∀ s g, J s g → Safe L I
      (fun x h => Sum.elim (fun s' => J s' h) (fun b => Q b h) x) (body s) g)
    {p : Prog C R β} {h : List ((c : C) × R c)} {q : Prog C R β} (hs : Steps p h q)
    {r : Prog C R (σ ⊕ β)} (hp : p = r.bind fun
      | .inl s' => .loop body s' .ret
      | .inr b => .ret b) :
    ∀ {g}, Safe L I (fun x h => Sum.elim (fun s' => J s' h) (fun b => Q b h) x) r g →
      (∀ x ∈ h, L x) → I (g ++ h) ∧ ∀ b, q = .ret b → Q b (g ++ h) := by
  induction hs generalizing r with
  | refl p =>
    intro g hr _
    rw [List.append_nil]
    refine ⟨hr.start, fun b hb => ?_⟩
    obtain ⟨x, rfl, hx⟩ := bind_eq_ret (hp.symm.trans hb)
    have hQ := (hr [] _ (.refl _) nofun).2 x rfl
    rw [List.append_nil] at hQ
    cases x with
    | inl s' => cases hx
    | inr b' =>
      cases hx
      exact hQ
  | @call c k a h q hk ih =>
    intro g hr hL
    obtain ⟨ha, hL⟩ := List.forall_mem_cons.1 hL
    cases r with
    | ret x => cases x <;> cases hp
    | call c' k' =>
      cases hp
      have hk' : Safe L I (fun x h => Sum.elim (fun s' => J s' h) (fun b => Q b h) x) (k' a)
          (g ++ [⟨c, a⟩]) := by
        intro h' q' hs' hL'
        have hrest := hr (⟨c, a⟩ :: h') q' (.call hs') (List.forall_mem_cons.2 ⟨ha, hL'⟩)
        rwa [List.append_assoc, List.singleton_append]
      have hrest := ih rfl hk' hL
      rwa [List.append_assoc, List.singleton_append] at hrest
    | loop body' s' k' => cases hp
  | @loop τ δ body' s' k h q hk ih =>
    intro g hr hL
    cases r with
    | ret x =>
      cases x with
      | inr b => cases hp
      | inl s'' =>
        cases hp
        have hJ := (hr [] _ (.refl _) nofun).2 _ rfl
        rw [List.append_nil] at hJ
        exact ih rfl (hbody _ g hJ) hL
    | call c k' => cases hp
    | loop body'' s'' k' =>
      cases hp
      refine ih (unfold_bind _ _ _ _).symm (fun h' q' hs' hL' => ?_) hL
      exact hr h' q' (.loop hs') hL'

/-- **The rule for loops**: an invariant of the rounds, beside the one of the history. -/
theorem iterate {Q : β → List ((c : C) × R c) → Prop} {body : σ → Prog C R (σ ⊕ β)} {s : σ}
    (J : σ → List ((c : C) × R c) → Prop) (hJ : J s g)
    (hbody : ∀ s g, J s g → Safe L I
      (fun x h => Sum.elim (fun s' => J s' h) (fun b => Q b h) x) (body s) g) :
    Safe L I Q (iterate body s) g := by
  intro h q hs hL
  have hstart : Safe L I (fun x h => Sum.elim (fun s' => J s' h) (fun b => Q b h) x)
      (.ret (.inl s)) g := .ret (hbody s g hJ).start hJ
  exact round hbody hs rfl hstart hL

end Safe

end Prog

end Ps4Dropbear
