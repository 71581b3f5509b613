import Mathlib.Data.List.Basic
import Mathlib.Tactic.Common

/-!
# Labelled transition systems with a partial step function

A label says everything the environment decides about one step (the message that arrives, the
outcome of a system call, the thread that is scheduled), so a step is a partial function.  `none`
means that the step is not possible, or that the system ends in it.

## Main definitions

* `LTS.exec s ls` : the state after the labels `ls`, if every one of them is possible.
* `LTS.Reachable s₀ s` : some list of labels leads from `s₀` to `s`.
* `LTS.Along C s ls` : every step that the run `ls` takes meets the condition `C`, which looks at
  the label and at the state before the step.
* `LTS.count G s ls` : how many steps of the run meet `G`.

## Main results

* `LTS.exec_invariant` : an inductive invariant relative to a condition on the steps.
* `LTS.count_add_le`, `LTS.count_le_add_one` : a measure bounds how often something can happen in
  a run.
* `LTS.exec_turning_point` : a property gained in a run is gained in one of its steps.
* `LTS.exec_iff_along` : when meeting the condition keeps a property and failing it destroys the
  property for good, the property holds at the end of exactly the runs along the condition.
-/

namespace Ps4Dropbear

/-- A transition system with states `S` and labels `L`. -/
structure LTS (S : Type*) (L : Type*) where
  /-- The state after the label, or `none` when the label is not possible. -/
  step : S → L → Option S

namespace LTS

variable {S L : Type*} (A : LTS S L)

/-- The state after a list of labels. -/
def exec : S → List L → Option S
  | s, [] => some s
  | s, l :: ls => (A.step s l).bind fun s' => exec s' ls

/-- `s` can be reached from `s₀`. -/
def Reachable (s₀ s : S) : Prop := ∃ ls, A.exec s₀ ls = some s

/-- Every step taken by the run `ls` from `s` meets the condition `C`. -/
def Along (C : S → L → Prop) : S → List L → Prop
  | _, [] => True
  | s, l :: ls => C s l ∧ ∀ s', A.step s l = some s' → Along C s' ls

/-- How many steps of the run `ls` from `s` meet the condition `G`. -/
def count (G : S → L → Bool) : S → List L → ℕ
  | _, [] => 0
  | s, l :: ls => (G s l).toNat + ((A.step s l).map fun s' => count G s' ls).getD 0

variable {A}

@[simp] theorem exec_nil (s : S) : A.exec s [] = some s := rfl

@[simp] theorem exec_cons (s : S) (l : L) (ls : List L) :
    A.exec s (l :: ls) = (A.step s l).bind fun s' => A.exec s' ls := rfl

theorem exec_cons_eq_some {s t : S} {l : L} {ls : List L} :
    A.exec s (l :: ls) = some t ↔ ∃ s', A.step s l = some s' ∧ A.exec s' ls = some t := by
  simp [Option.bind_eq_some_iff]

theorem exec_append (s : S) (ls ms : List L) :
    A.exec s (ls ++ ms) = (A.exec s ls).bind fun t => A.exec t ms := by
  induction ls generalizing s with
  | nil => rfl
  | cons l ls ih =>
    rw [List.cons_append, exec_cons, exec_cons, Option.bind_assoc]
    congr 1
    funext s'
    exact ih s'

theorem exec_append_eq_some {s t : S} {ls ms : List L} :
    A.exec s (ls ++ ms) = some t ↔ ∃ u, A.exec s ls = some u ∧ A.exec u ms = some t := by
  rw [exec_append, Option.bind_eq_some_iff]

theorem Reachable.refl (s : S) : A.Reachable s s := ⟨[], rfl⟩

theorem Reachable.tail {s₀ s t : S} {l : L} (h : A.Reachable s₀ s) (hst : A.step s l = some t) :
    A.Reachable s₀ t := by
  obtain ⟨ls, hls⟩ := h
  exact ⟨ls ++ [l], exec_append_eq_some.2 ⟨s, hls, by simp [hst]⟩⟩

theorem Reachable.trans {s₀ s t : S} (h : A.Reachable s₀ s) (h' : A.Reachable s t) :
    A.Reachable s₀ t := by
  obtain ⟨ls, hls⟩ := h
  obtain ⟨ms, hms⟩ := h'
  exact ⟨ls ++ ms, exec_append_eq_some.2 ⟨s, hls, hms⟩⟩

/-- **Invariant rule**: what holds initially and is preserved by every step that meets `C` holds
after every run along `C`. -/
theorem exec_invariant {C : S → L → Prop} {I : S → Prop} {s t : S} {ls : List L} (h₀ : I s)
    (hstep : ∀ s l s', I s → C s l → A.step s l = some s' → I s') (hC : A.Along C s ls)
    (h : A.exec s ls = some t) : I t := by
  induction ls generalizing s with
  | nil => cases h; exact h₀
  | cons l ls ih =>
    obtain ⟨s', hst, hrest⟩ := exec_cons_eq_some.1 h
    exact ih (hstep s l s' h₀ hC.1 hst) (hC.2 s' hst) hrest

/-- A condition that the labels meet in every state. -/
theorem along_of_forall {C : S → L → Prop} {ls : List L} (h : ∀ l ∈ ls, ∀ s, C s l) (s : S) :
    A.Along C s ls := by
  induction ls generalizing s with
  | nil => trivial
  | cons l ls ih =>
    exact ⟨h l List.mem_cons_self s, fun s' _ => ih (fun m hm => h m (.tail l hm)) s'⟩

/-- A condition along a run in two parts. -/
theorem along_append {C : S → L → Prop} {s : S} {ls ms : List L} (hls : A.Along C s ls)
    (hms : ∀ t, A.exec s ls = some t → A.Along C t ms) : A.Along C s (ls ++ ms) := by
  induction ls generalizing s with
  | nil => exact hms s rfl
  | cons l ls ih =>
    refine ⟨hls.1, fun s' hst => ih (hls.2 s' hst) fun t ht => hms t ?_⟩
    exact exec_cons_eq_some.2 ⟨s', hst, ht⟩

/-- The invariant rule without a condition. -/
theorem exec_invariant' {I : S → Prop} {s t : S} {ls : List L} (h₀ : I s)
    (hstep : ∀ s l s', I s → A.step s l = some s' → I s') (h : A.exec s ls = some t) : I t :=
  exec_invariant (C := fun _ _ => True) h₀ (fun s l s' hI _ => hstep s l s' hI)
    (along_of_forall (fun _ _ _ => trivial) s) h

/-- Reachable states satisfy every inductive invariant. -/
theorem Reachable.invariant {I : S → Prop} {s₀ s : S} (h : A.Reachable s₀ s) (h₀ : I s₀)
    (hstep : ∀ s l s', I s → A.step s l = some s' → I s') : I s := by
  obtain ⟨ls, hls⟩ := h
  exact exec_invariant' h₀ hstep hls

/-- **Ranking**: a measure that no step increases and that drops whenever `G` is met bounds how
often that happens. -/
theorem count_add_le {G : S → L → Bool} {J : S → Prop} {f : S → ℕ} {s t : S} {ls : List L}
    (hJ : J s) (hJstep : ∀ s l s', J s → A.step s l = some s' → J s')
    (hle : ∀ s l s', J s → A.step s l = some s' → f s' ≤ f s)
    (hlt : ∀ s l s', J s → G s l = true → A.step s l = some s' → f s' < f s)
    (h : A.exec s ls = some t) : A.count G s ls + f t ≤ f s := by
  induction ls generalizing s with
  | nil =>
    cases h
    simp [count]
  | cons l ls ih =>
    obtain ⟨s', hst, hrest⟩ := exec_cons_eq_some.1 h
    have hrun := ih (hJstep s l s' hJ hst) hrest
    simp only [count, hst, Option.map_some, Option.getD_some]
    cases hG : G s l with
    | false =>
      have := hle s l s' hJ hst
      simp only [Bool.toNat_false]
      omega
    | true =>
      have := hlt s l s' hJ hG hst
      simp only [Bool.toNat_true]
      omega

/-- **Counting up**: a bounded measure that grows whenever `G` is met bounds how often that happens,
with the step in which the system may end. -/
theorem count_le_add_one {G : S → L → Bool} {J : S → Prop} {f : S → ℕ} {m : ℕ} {s : S}
    {ls : List L} (hJ : J s) (hJstep : ∀ s l s', J s → A.step s l = some s' → J s')
    (hgain : ∀ s l s', J s → A.step s l = some s' → f s + (G s l).toNat ≤ f s')
    (hbound : ∀ s, J s → f s ≤ m) : A.count G s ls + f s ≤ m + 1 := by
  induction ls generalizing s with
  | nil =>
    have := hbound s hJ
    simp only [count]
    omega
  | cons l ls ih =>
    unfold count
    cases hst : A.step s l with
    | none =>
      have hlast := Bool.toNat_le (G s l)
      have := hbound s hJ
      simp only [Option.map_none, Option.getD_none]
      omega
    | some s' =>
      have hrun := ih (hJstep s l s' hJ hst)
      have := hgain s l s' hJ hst
      simp only [Option.map_some, Option.getD_some]
      omega

/-- **Turning point**: a property that is absent at the start of a run and present at its end is
gained in one of its steps. -/
theorem exec_turning_point {P : S → Prop} {s t : S} {ls : List L} (hs : ¬ P s) (ht : P t)
    (h : A.exec s ls = some t) :
    ∃ pre l post u v, ls = pre ++ l :: post ∧ A.exec s pre = some u ∧ ¬ P u ∧
      A.step u l = some v ∧ P v ∧ A.exec v post = some t := by
  induction ls generalizing s with
  | nil => cases h; exact absurd ht hs
  | cons l ls ih =>
    obtain ⟨s', hst, hrest⟩ := exec_cons_eq_some.1 h
    by_cases hs' : P s'
    · exact ⟨[], l, ls, s, s', rfl, rfl, hs, hst, hs', hrest⟩
    · obtain ⟨pre, m, post, u, v, rfl, hpre, hu, huv, hv, hpost⟩ := ih hs' hrest
      exact ⟨l :: pre, m, post, u, v, rfl, exec_cons_eq_some.2 ⟨s', hst, hpre⟩, hu, huv, hv, hpost⟩

/-- A condition along a run, step by step: it holds before every label of the run. -/
theorem along_iff {C : S → L → Prop} {s : S} {ls : List L} :
    A.Along C s ls ↔
      ∀ pre l post t, ls = pre ++ l :: post → A.exec s pre = some t → C t l := by
  induction ls generalizing s with
  | nil => simp [Along]
  | cons l ls ih =>
    constructor
    · rintro ⟨hC, hrest⟩ pre m post t hls hpre
      cases pre with
      | nil =>
        cases hpre
        simp only [List.nil_append, List.cons.injEq] at hls
        exact hls.1 ▸ hC
      | cons p pre =>
        simp only [List.cons_append, List.cons.injEq] at hls
        obtain ⟨rfl, hls⟩ := hls
        obtain ⟨s', hst, hpre'⟩ := exec_cons_eq_some.1 hpre
        exact ih.1 (hrest s' hst) pre m post t hls hpre'
    · intro h
      refine ⟨h [] l ls s rfl rfl, fun s' hst => ih.2 fun pre m post t hls hpre => ?_⟩
      exact h (l :: pre) m post t (by rw [hls]; rfl) (exec_cons_eq_some.2 ⟨s', hst, hpre⟩)

/-- **Exact conditions.**  `J` is an invariant of the system.  If a step along `C` keeps `P`, a
step that fails `C` destroys it, and a state without `P` never regains it, then `P` holds at the
end of a run iff the run is along `C`. -/
theorem exec_iff_along {C : S → L → Prop} {J P : S → Prop} {s t : S} {ls : List L} (hJ : J s)
    (hP : P s) (hJstep : ∀ s l s', J s → A.step s l = some s' → J s')
    (hgood : ∀ s l s', J s → P s → C s l → A.step s l = some s' → P s')
    (hbad : ∀ s l s', J s → P s → ¬ C s l → A.step s l = some s' → ¬ P s')
    (hstable : ∀ s l s', J s → ¬ P s → A.step s l = some s' → ¬ P s')
    (h : A.exec s ls = some t) : P t ↔ A.Along C s ls := by
  induction ls generalizing s with
  | nil => cases h; exact ⟨fun _ => trivial, fun _ => hP⟩
  | cons l ls ih =>
    obtain ⟨s', hst, hrest⟩ := exec_cons_eq_some.1 h
    by_cases hC : C s l
    · have := ih (hJstep s l s' hJ hst) (hgood s l s' hJ hP hC hst) hrest
      rw [this]
      refine ⟨fun hal => ⟨hC, fun s'' hst' => ?_⟩, fun hal => hal.2 s' hst⟩
      rw [hst] at hst'
      cases hst'
      exact hal
    · have hlost : J t ∧ ¬ P t :=
        exec_invariant' (I := fun s => J s ∧ ¬ P s)
          ⟨hJstep s l s' hJ hst, hbad s l s' hJ hP hC hst⟩
          (fun u m u' hu hum => ⟨hJstep u m u' hu.1 hum, hstable u m u' hu.1 hu.2 hum⟩) hrest
      exact ⟨fun hPt => absurd hPt hlost.2, fun hal => absurd hal.1 hC⟩

end LTS

end Ps4Dropbear
