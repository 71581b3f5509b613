import Mathlib.Data.List.Basic
import Mathlib.Tactic.Common

/-!
# Computations that leave a log

A computation may end with an error, and the events of what it has done are kept in either case.
`Logged.Sim P φ x y` compares it with a computation without a log that works on other values: all
events meet `P`, and the results are the same through `φ`.

There is one rule for each construct: `Sim.pure`, `Sim.throw`, `Sim.event`, `Sim.bind`, `Sim.ite`;
`Sim.bind_of` and `Sim.seq` are for sequences that the other side computes in another way.
-/

namespace Ps4Dropbear

/-- A computation with the events `E`, the errors `ε` and a value of `α`. -/
structure Logged (E ε α : Type) where
  log : List E
  result : Except ε α

namespace Logged

variable {E ε α β γ δ : Type}

/-- The first computation, then the second on its value. -/
def bind (x : Logged E ε α) (f : α → Logged E ε β) : Logged E ε β :=
  match x.result with
  | .ok a => ⟨x.log ++ (f a).log, (f a).result⟩
  | .error e => ⟨x.log, .error e⟩

instance : Monad (Logged E ε) where
  pure a := ⟨[], .ok a⟩
  bind := bind

/-- The computation ends with an error. -/
def throw (e : ε) : Logged E ε α := ⟨[], .error e⟩

/-- Something happens and gives a value. -/
def event (e : E) (a : α) : Logged E ε α := ⟨[e], .ok a⟩

/-- The events of `x` meet `P`, and its result is that of `y`. -/
structure Sim (P : E → Prop) (φ : α → β) (x : Logged E ε β) (y : Except ε α) : Prop where
  log : ∀ e ∈ x.log, P e
  result : x.result = y.map φ

namespace Sim

variable {P : E → Prop} {φ : α → β} {ψ : γ → δ} {x : Logged E ε β} {y : Except ε α}

theorem pure {a : α} {b : β} (h : φ a = b) : Sim P φ (Pure.pure b : Logged E ε β) (.ok a) :=
  ⟨nofun, congrArg Except.ok h.symm⟩

theorem throw (e : ε) : Sim P φ (Logged.throw e : Logged E ε β) (.error e) := ⟨nofun, rfl⟩

theorem event {e : E} {a : α} {b : β} (he : P e) (h : φ a = b) :
    Sim P φ (Logged.event e b : Logged E ε β) (.ok a) :=
  ⟨fun e' h' => by rwa [List.mem_singleton.1 h'], congrArg Except.ok h.symm⟩

/-- A sequence ends with the error of its first part, or is what the second part makes of a value
of the first. -/
theorem bind_of {f : β → Logged E ε δ} {z : Except ε γ} (hx : Sim P φ x y)
    (herror : ∀ e, y = .error e → z = .error e)
    (hok : ∀ a, y = .ok a → Sim P ψ (f (φ a)) z) : Sim P ψ (x >>= f) z := by
  obtain ⟨log, result⟩ := x
  have hlog := hx.log
  have hresult : result = y.map φ := hx.result
  subst hresult
  cases y with
  | error e =>
    rw [herror e rfl]
    exact ⟨hlog, rfl⟩
  | ok a =>
    obtain ⟨hlog', hresult'⟩ := hok a rfl
    refine ⟨?_, hresult'⟩
    exact List.forall_mem_append.2 ⟨hlog, hlog'⟩

theorem bind {f : β → Logged E ε δ} {g : α → Except ε γ} (hx : Sim P φ x y)
    (hf : ∀ a, y = .ok a → Sim P ψ (f (φ a)) (g a)) : Sim P ψ (x >>= f) (y >>= g) := by
  refine hx.bind_of (fun e he => ?_) fun a ha => ?_
  · rw [he]
    rfl
  · rw [ha]
    exact hf a ha

/-- A first part that always has a value. -/
theorem seq {f : β → Logged E ε δ} {z : Except ε γ} {a : α} (hx : Sim P φ x (.ok a))
    (hf : Sim P ψ (f (φ a)) z) : Sim P ψ (x >>= f) z := by
  refine hx.bind_of nofun fun b hb => ?_
  cases hb
  exact hf

theorem ite {c d : Prop} [Decidable c] [Decidable d] {x' : Logged E ε β} {y' : Except ε α}
    (hcd : c ↔ d) (h : d → Sim P φ x y) (h' : ¬ d → Sim P φ x' y') :
    Sim P φ (if c then x else x') (if d then y else y') := by
  by_cases hd : d
  · rw [if_pos hd, if_pos (hcd.2 hd)]
    exact h hd
  · rw [if_neg hd, if_neg (mt hcd.1 hd)]
    exact h' hd

theorem congr {y' : Except ε α} (h : Sim P φ x y) (hy : y = y') : Sim P φ x y' := hy ▸ h

/-- What is true of all the values on the other side. -/
theorem of_result {R : β → Prop} (h : Sim P φ x y) (hR : ∀ a, R (φ a)) {b : β}
    (hb : x.result = .ok b) : R b := by
  have hresult := h.result
  cases y with
  | error e =>
    rw [hb] at hresult
    cases hresult
  | ok a =>
    rw [hb] at hresult
    cases hresult
    exact hR a

end Sim

end Logged

end Ps4Dropbear
