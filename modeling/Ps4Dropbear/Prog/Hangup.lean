import Ps4Dropbear.Prog.Ending
import Ps4Dropbear.Prog.Socket

/-!
# Sockets that are shut down

A program works on a stream socket until somebody shuts the socket down, at any time.  From then on
a read returns what was still queued and after that the end of the stream, a write fails, and calls
are interrupted a limited number of times.  Before that a read may return anything, a write may take
anything, and nothing limits the interruptions.

Nobody knows beforehand when the socket will be shut down.  But a program that has come to some
point has read so many elements and been interrupted so many times, and what follows the shutdown is
limited as well: so it is enough to look at the program from its start, with a `Budget` of elements
that it will ever read and of interruptions that it will ever see.

* `SocketProg.OnLine` : the answers before and after the shutdown.
* `SocketProg.Bounded` : the answers with a budget.

**Main result** (`SocketProg.finishes_of_bounded`): if the program ends for every budget, then it
ends after a shutdown at any point of any run.
-/

namespace Ps4Dropbear

/-- A socket that is in use, or that has been shut down: with what is left to read, and how often
calls will still be interrupted. -/
inductive Line (B : Type)
  | up
  | down (queued : List B) (interrupts : ℕ)

/-- The world of a program with a socket that can be shut down. -/
structure LineWorld (W B : Type) where
  own : W
  line : Line B

/-- The world of a program with a budget. -/
structure Budget (W : Type) where
  own : W
  /-- The elements that will be read. -/
  elements : ℕ
  /-- How often calls will be interrupted. -/
  interrupts : ℕ

/-- One is spent if `P` holds, and none if not. -/
def Spent (P : Prop) (n n' : ℕ) : Prop := P ∧ n = n' + 1 ∨ ¬ P ∧ n' = n

/-- A call has been interrupted if `P` holds, and not if not; it does nothing else to the socket. -/
def Line.Passed {B : Type} (P : Prop) : Line B → Line B → Prop
  | up, l' => l' = up
  | down queued n, l' => ∃ n', Spent P n n' ∧ l' = down queued n'

theorem Spent.le {P : Prop} {n n' : ℕ} (h : Spent P n n') : n' ≤ n := by
  rcases h with ⟨-, rfl⟩ | ⟨-, rfl⟩
  · exact Nat.le_succ _
  · exact Nat.le_refl _

theorem Spent.lt {P : Prop} {n n' : ℕ} (h : Spent P n n') (hP : P) : n' < n := by
  rcases h with ⟨-, rfl⟩ | ⟨hnot, -⟩
  · exact Nat.lt_succ_self _
  · exact absurd hP hnot

theorem Spent.of_not {P : Prop} (n : ℕ) (h : ¬ P) : Spent P n n := .inr ⟨h, rfl⟩

namespace SocketProg

variable {B L : Type} {RL : L → Type} {W α : Type}

section Answers

variable (eintr : (l : L) → RL l → Prop) (HL : (l : L) → W → RL l → W → Prop)

/-- The answers on a socket that somebody can shut down.  `eintr` says which answers of the
program's own calls are interruptions. -/
def OnLine : (c : IoCall B L) → LineWorld W B → c.Answer RL → LineWorld W B → Prop
  | .recv n, w, .ok bs, w' => bs.length ≤ n ∧ w'.own = w.own ∧
    (w.line = .up ∧ w'.line = .up ∨
      ∃ rest k, w.line = .down (bs ++ rest) k ∧ w'.line = .down rest k ∧
        (bs = [] → rest = [] ∨ n = 0))
  | .send bs, w, .ok n, w' => w.line = .up ∧ n ≤ bs.length ∧ w' = w
  | .recv _, w, .error e, w' => w'.own = w.own ∧ Line.Passed (e = .eintr) w.line w'.line
  | .send _, w, .error e, w' => w'.own = w.own ∧ Line.Passed (e = .eintr) w.line w'.line
  | .loc l, w, r, w' => HL l w.own r w'.own ∧ Line.Passed (eintr l r) w.line w'.line

/-- The answers when so many elements and so many interruptions are left. -/
def Bounded : (c : IoCall B L) → Budget W → c.Answer RL → Budget W → Prop
  | .recv n, w, .ok bs, w' => bs.length ≤ n ∧ w = { w' with elements := w'.elements + bs.length }
  | .send bs, w, .ok n, w' => n ≤ bs.length ∧ w' = w
  | .recv _, w, .error e, w' =>
    w'.own = w.own ∧ w'.elements = w.elements ∧ Spent (e = .eintr) w.interrupts w'.interrupts
  | .send _, w, .error e, w' =>
    w'.own = w.own ∧ w'.elements = w.elements ∧ Spent (e = .eintr) w.interrupts w'.interrupts
  | .loc l, w, r, w' => HL l w.own r w'.own ∧ w'.elements = w.elements ∧
    Spent (eintr l r) w.interrupts w'.interrupts

end Answers

variable {eintr : (l : L) → RL l → Prop} {HL : (l : L) → W → RL l → W → Prop}

/-! ### From a budget to a shutdown -/

/-- A step on the socket in use is one with a budget that is large enough. -/
theorem bounded_of_onLine {c : IoCall B L} {w w' : LineWorld W B} {r : c.Answer RL}
    (hup : w.line = .up) (h : OnLine eintr HL c w r w') : w'.line = .up ∧
      ∃ m k, ∀ m' k', Bounded eintr HL c ⟨w.own, m' + m, k' + k⟩ r ⟨w'.own, m', k'⟩ := by
  have hpass {P : Prop} (hp : Line.Passed P w.line w'.line) : w'.line = .up ∧
      ∃ k, ∀ k', Spent P (k' + k) k' := by
    rw [hup] at hp
    by_cases hP : P
    · exact ⟨hp, 1, fun k' => .inl ⟨hP, rfl⟩⟩
    · exact ⟨hp, 0, fun k' => .inr ⟨hP, rfl⟩⟩
  cases c with
  | recv n =>
    rcases r with e | bs
    · obtain ⟨hown, hp⟩ := h
      obtain ⟨hline, k, hk⟩ := hpass hp
      exact ⟨hline, 0, k, fun m' k' => ⟨hown, rfl, hk k'⟩⟩
    · obtain ⟨hlen, hown, ⟨-, hline⟩ | ⟨rest, k, hdown, -⟩⟩ := h
      · exact ⟨hline, bs.length, 0, fun m' k' => ⟨hlen, by rw [hown]; rfl⟩⟩
      · rw [hup] at hdown
        cases hdown
  | send bs =>
    rcases r with e | n
    · obtain ⟨hown, hp⟩ := h
      obtain ⟨hline, k, hk⟩ := hpass hp
      exact ⟨hline, 0, k, fun m' k' => ⟨hown, rfl, hk k'⟩⟩
    · obtain ⟨-, hn, rfl⟩ := h
      exact ⟨hup, 0, 0, fun m' k' => ⟨hn, rfl⟩⟩
  | loc l =>
    obtain ⟨hl, hp⟩ := h
    obtain ⟨hline, k, hk⟩ := hpass hp
    exact ⟨hline, 0, k, fun m' k' => ⟨hl, rfl, hk k'⟩⟩

/-- What a run on the socket in use takes out of the budget. -/
theorem reaches_bounded {p q : SocketProg B RL α} {w w' : LineWorld W B} (hup : w.line = .up)
    (h : Prog.Reaches (OnLine eintr HL) p w q w') :
    ∃ m k, ∀ m' k',
      Prog.Reaches (Bounded eintr HL) p ⟨w.own, m' + m, k' + k⟩ q ⟨w'.own, m', k'⟩ := by
  induction h with
  | refl p w => exact ⟨0, 0, fun m' k' => .refl _ _⟩
  | call hc _ ih =>
    obtain ⟨hup', m, k, hstep⟩ := bounded_of_onLine hup hc
    obtain ⟨m₁, k₁, hrest⟩ := ih hup'
    refine ⟨m₁ + m, k₁ + k, fun m' k' => ?_⟩
    rw [← Nat.add_assoc, ← Nat.add_assoc]
    exact .call (hstep _ _) (hrest m' k')
  | loop _ ih =>
    obtain ⟨m, k, hrest⟩ := ih hup
    exact ⟨m, k, fun m' k' => .loop (hrest m' k')⟩

/-- The budget of a socket that has been shut down. -/
def Covers (w : Budget W) (v : LineWorld W B) : Prop :=
  v.own = w.own ∧ ∃ queued, v.line = .down queued w.interrupts ∧ queued.length = w.elements

theorem covers_of_passed {P : Prop} {w : Budget W} {v v' : LineWorld W B} (h : Covers w v)
    (hp : Line.Passed P v.line v'.line) :
    ∃ k, Spent P w.interrupts k ∧ Covers ⟨v'.own, w.elements, k⟩ v' := by
  obtain ⟨-, queued, hline, hlen⟩ := h
  rw [hline] at hp
  obtain ⟨k, hk, hline'⟩ := hp
  exact ⟨k, hk, rfl, queued, hline', hlen⟩

/-- A step after the shutdown is one with the budget. -/
theorem bounded_of_covers {c : IoCall B L} {w : Budget W} {v v' : LineWorld W B} {r : c.Answer RL}
    (hcov : Covers w v) (h : OnLine eintr HL c v r v') :
    ∃ w', Bounded eintr HL c w r w' ∧ Covers w' v' := by
  have hown := hcov.1
  cases c with
  | recv n =>
    rcases r with e | bs
    · obtain ⟨hsame, hp⟩ := h
      obtain ⟨k, hk, hcov'⟩ := covers_of_passed hcov hp
      exact ⟨⟨v'.own, w.elements, k⟩, ⟨hsame.trans hown, rfl, hk⟩, hcov'⟩
    · obtain ⟨-, queued, hline, hlen⟩ := hcov
      obtain ⟨hbs, hsame, ⟨hup, -⟩ | ⟨rest, k, hdown, hline', -⟩⟩ := h
      · rw [hline] at hup
        cases hup
      · rw [hline] at hdown
        cases hdown
        refine ⟨⟨w.own, rest.length, w.interrupts⟩, ⟨hbs, ?_⟩, hsame.trans hown, rest, hline', rfl⟩
        rw [List.length_append, Nat.add_comm] at hlen
        rw [hlen]
  | send bs =>
    rcases r with e | n
    · obtain ⟨hsame, hp⟩ := h
      obtain ⟨k, hk, hcov'⟩ := covers_of_passed hcov hp
      exact ⟨⟨v'.own, w.elements, k⟩, ⟨hsame.trans hown, rfl, hk⟩, hcov'⟩
    · obtain ⟨-, queued, hline, -⟩ := hcov
      obtain ⟨hup, -⟩ := h
      rw [hline] at hup
      cases hup
  | loc l =>
    obtain ⟨hl, hp⟩ := h
    obtain ⟨k, hk, hcov'⟩ := covers_of_passed hcov hp
    rw [hown] at hl
    exact ⟨⟨v'.own, w.elements, k⟩, ⟨hl, rfl, hk⟩, hcov'⟩

/-- After the shutdown no call waits. -/
theorem exists_onLine (hex : ∀ l w, ∃ r w', HL l w r w' ∧ ¬ eintr l r) (c : IoCall B L)
    {w : Budget W} {v : LineWorld W B} (hcov : Covers w v) : ∃ r v', OnLine eintr HL c v r v' := by
  obtain ⟨-, queued, hline, -⟩ := hcov
  have hpass {P : Prop} (hP : ¬ P) : Line.Passed P v.line v.line := by
    rw [hline]
    exact ⟨_, .of_not _ hP, rfl⟩
  cases c with
  | recv n => exact ⟨.error .other, v, rfl, hpass nofun⟩
  | send bs => exact ⟨.error .other, v, rfl, hpass nofun⟩
  | loc l =>
    obtain ⟨r, o, hl, hr⟩ := hex l v.own
    exact ⟨r, ⟨o, v.line⟩, hl, hpass hr⟩

/-- **A shutdown at any point.**  A program that ends with every budget ends after a shutdown,
wherever it has come to by then and whatever is left to read. -/
theorem finishes_of_bounded (hex : ∀ l w, ∃ r w', HL l w r w' ∧ ¬ eintr l r) {Q : α → W → Prop}
    {p q : SocketProg B RL α} {own own' : W}
    (h : ∀ m k, Prog.Total (Bounded eintr HL) (fun a w => Q a w.own) p ⟨own, m, k⟩)
    (hrun : Prog.Reaches (OnLine eintr HL) p ⟨own, .up⟩ q ⟨own', .up⟩) (queued : List B) (k : ℕ) :
    Prog.Finishes (OnLine eintr HL) (fun a w => Q a w.own) q ⟨own', .down queued k⟩ := by
  obtain ⟨m₀, k₀, hbounded⟩ := reaches_bounded rfl hrun
  have hq := (h _ _).of_reaches (hbounded queued.length k)
  have hcov : Covers ⟨own', queued.length, k⟩ (⟨own', .down queued k⟩ : LineWorld W B) :=
    ⟨rfl, queued, rfl, rfl⟩
  have hsim (c : IoCall B L) (w : Budget W) (v : LineWorld W B) (r : c.Answer RL)
      (v' : LineWorld W B) (hrel : Covers w v) (hc : OnLine eintr HL c v r v') :
      ∃ w', Bounded eintr HL c w r w' ∧ Covers w' v' := bounded_of_covers hrel hc
  have hanswer (c : IoCall B L) (w : Budget W) (v : LineWorld W B) (hrel : Covers w v) :
      ∃ r v', OnLine eintr HL c v r v' := exists_onLine hex c hrel
  refine ((hq.refine hanswer hsim hcov).mono ?_).finishes
  rintro a v ⟨w, hQ, hown, -⟩
  rw [hown]
  exact hQ

/-! ### Rules for programs with a budget -/

/-- Nothing is put back into the budget. -/
def Left (w w' : Budget W) : Prop := w'.elements ≤ w.elements ∧ w'.interrupts ≤ w.interrupts

instance : IsPreorder (Budget W) Left where
  refl _ := ⟨Nat.le_refl _, Nat.le_refl _⟩
  trans _ _ _ h h' := ⟨h'.1.trans h.1, h'.2.trans h.2⟩

variable {β : Type}

theorem left_of_bounded {c : IoCall B L} {w w' : Budget W} {r : c.Answer RL}
    (h : Bounded eintr HL c w r w') : Left w w' := by
  cases c with
  | recv n =>
    rcases r with e | bs
    · exact ⟨Nat.le_of_eq h.2.1, h.2.2.le⟩
    · obtain ⟨-, rfl⟩ := h
      exact ⟨Nat.le_add_right _ _, Nat.le_refl _⟩
  | send bs =>
    rcases r with e | n
    · exact ⟨Nat.le_of_eq h.2.1, h.2.2.le⟩
    · obtain ⟨-, rfl⟩ := h
      exact refl w'
  | loc l => exact ⟨Nat.le_of_eq h.2.1, h.2.2.le⟩

theorem exists_bounded (hex : ∀ l w, ∃ r w', HL l w r w' ∧ ¬ eintr l r) (c : IoCall B L)
    (w : Budget W) : ∃ r w', Bounded eintr HL c w r w' := by
  cases c with
  | recv n => exact ⟨.error .other, w, rfl, rfl, .of_not _ nofun⟩
  | send bs => exact ⟨.error .other, w, rfl, rfl, .of_not _ nofun⟩
  | loc l =>
    obtain ⟨r, o, hl, hr⟩ := hex l w.own
    exact ⟨r, ⟨o, w.elements, w.interrupts⟩, hl, rfl, .of_not _ hr⟩

/-- One call. -/
theorem ends_perform_bind (hex : ∀ l w, ∃ r w', HL l w r w' ∧ ¬ eintr l r) {c : IoCall B L}
    {f : c.Answer RL → SocketProg B RL β} (hf : ∀ r, Prog.Ends (Bounded eintr HL) Left (f r)) :
    Prog.Ends (Bounded eintr HL) Left ((Prog.perform c).bind f) :=
  .perform_bind (exists_bounded hex c) (fun _ _ _ => left_of_bounded) hf

end SocketProg

end Ps4Dropbear
