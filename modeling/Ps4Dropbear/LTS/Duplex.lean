import Ps4Dropbear.LTS.Basic

/-!
# A feeder and a worker over two bounded queues

Two threads are joined by a pair of bounded queues.  The **feeder** writes blocks into one queue
and takes what it likes from the other, but not both at once: while a block is being written it
does nothing else.  The **worker** is a deterministic machine that reads, emits and halts.  Both
block: a write on a full queue, a read on an empty one.

The two can block each other: the feeder in a write, the worker in an emission, both queues full.
Whether the write of a block can end like that is decided when it starts: the worker, left alone
with the queued input and the block, has to read the elements that do not fit before its output
exceeds the room in the other queue (`Absorbs`).

## Main results

* `Duplex.Safe.not_deadlocked` : a write that is absorbed is not deadlocked.
* `Duplex.safe_push_iff`, `Duplex.safe_work_iff` : neither thread changes whether it is absorbed.
* `Duplex.exists_deadlock` : a write that is not absorbed can be driven into a deadlock.
-/

namespace Ps4Dropbear

/-- The next action of a worker. -/
inductive Act (W α : Type*)
  /-- Read an element, or `none` at the end of the input. -/
  | read (k : Option α → W)
  /-- Write an element. -/
  | emit (a : α) (next : W)
  | halt

/-- The two queues, what the feeder still has to write of its block, and the worker. -/
structure Duplex (W α : Type*) where
  toWorker : List α
  toFeeder : List α
  pending : List α
  worker : W
  /-- The feeder will not write again. -/
  eof : Bool
  /-- The feeder has shut the connection down. -/
  shut : Bool

namespace Duplex

variable {W α : Type*} (act : W → Act W α) (ci co : ℕ)

/-- The feeder copies one element of its block into the queue. -/
def push (d : Duplex W α) : Option (Duplex W α) :=
  match d.pending with
  | [] => none
  | a :: rest =>
    if d.toWorker.length < ci then
      some { d with toWorker := d.toWorker ++ [a], pending := rest }
    else none

/-- The worker takes a step.  Behind the last element it reads the end of its input, and what it
emits after a shutdown is lost. -/
def work (d : Duplex W α) : Option (Duplex W α) :=
  match act d.worker with
  | .read k =>
    match d.toWorker with
    | a :: rest => some { d with toWorker := rest, worker := k (some a) }
    | [] => if d.eof then some { d with worker := k none } else none
  | .emit a next =>
    if d.shut then some { d with worker := next }
    else if d.toFeeder.length < co then
      some { d with toFeeder := d.toFeeder ++ [a], worker := next }
    else none
  | .halt => none

/-- Both threads are blocked in a write. -/
def Deadlocked (d : Duplex W α) : Prop :=
  d.pending ≠ [] ∧ ci ≤ d.toWorker.length ∧ d.shut = false ∧ co ≤ d.toFeeder.length ∧
    ∃ a next, act d.worker = .emit a next

/-- The worker, alone with the input, reads `n` elements (or halts) before it has emitted more
than `room` of them. -/
inductive Absorbs : W → ℕ → ℕ → List α → Prop
  | done (w : W) (room : ℕ) (input : List α) : Absorbs w room 0 input
  | halt {w : W} {room n : ℕ} {input : List α} (h : act w = .halt) : Absorbs w room n input
  | read {w : W} {k : Option α → W} {room n : ℕ} {a : α} {input : List α} (h : act w = .read k)
      (ih : Absorbs (k (some a)) room n input) : Absorbs w room (n + 1) (a :: input)
  | emit {w next : W} {a : α} {room n : ℕ} {input : List α} (h : act w = .emit a next)
      (ih : Absorbs next room n input) : Absorbs w (room + 1) n input

/-- The number of elements that the worker has to read before the block fits. -/
def excess (d : Duplex W α) : ℕ := d.toWorker.length + d.pending.length - ci

/-- The write in progress, if there is one, is absorbed. -/
def Safe (d : Duplex W α) : Prop :=
  d.pending ≠ [] →
    Absorbs act d.worker (co - d.toFeeder.length) (d.excess ci) (d.toWorker ++ d.pending)

/-- The queues are within their bounds, and a write is in progress only while both are open. -/
structure Valid (d : Duplex W α) : Prop where
  input : d.toWorker.length ≤ ci
  output : d.toFeeder.length ≤ co
  opened : d.pending ≠ [] → d.eof = false ∧ d.shut = false

variable {act ci co} {d d' : Duplex W α}

/-! ### Steps -/

theorem push_eq_some (h : push ci d = some d') :
    ∃ a rest, d.pending = a :: rest ∧ d.toWorker.length < ci ∧
      d' = { d with toWorker := d.toWorker ++ [a], pending := rest } := by
  unfold push at h
  cases hp : d.pending with
  | nil => simp [hp] at h
  | cons a rest =>
    simp only [hp] at h
    split_ifs at h with hroom
    cases h
    exact ⟨a, rest, rfl, hroom, rfl⟩

/-- What a step of the worker is during a write. -/
theorem work_eq_some (hv : Valid ci co d) (hp : d.pending ≠ []) (h : work act co d = some d') :
    (∃ k a rest, act d.worker = .read k ∧ d.toWorker = a :: rest ∧
      d' = { d with toWorker := rest, worker := k (some a) }) ∨
    (∃ a next, act d.worker = .emit a next ∧ d.toFeeder.length < co ∧
      d' = { d with toFeeder := d.toFeeder ++ [a], worker := next }) := by
  obtain ⟨heof, hshut⟩ := hv.opened hp
  unfold work at h
  cases ha : act d.worker with
  | halt => simp [ha] at h
  | read k =>
    cases hq : d.toWorker with
    | nil => simp [ha, hq, heof] at h
    | cons a rest =>
      simp only [ha, hq, Option.some.injEq] at h
      exact .inl ⟨k, a, rest, rfl, rfl, h.symm⟩
  | emit a next =>
    rw [ha] at h
    simp only at h
    rw [if_neg (by simp [hshut])] at h
    split_ifs at h with hroom
    cases h
    exact .inr ⟨a, next, rfl, hroom, rfl⟩

/-- A step of the worker does not touch the feeder's side. -/
theorem work_frame (h : work act co d = some d') :
    d'.pending = d.pending ∧ d'.eof = d.eof ∧ d'.shut = d.shut := by
  unfold work at h
  split at h
  · split at h
    · cases h; exact ⟨rfl, rfl, rfl⟩
    · split_ifs at h
      cases h
      exact ⟨rfl, rfl, rfl⟩
  · split_ifs at h <;> cases h <;> exact ⟨rfl, rfl, rfl⟩
  · cases h

theorem Valid.push (hv : Valid ci co d) (h : push ci d = some d') : Valid ci co d' := by
  obtain ⟨a, rest, hp, hroom, rfl⟩ := push_eq_some h
  refine ⟨?_, hv.output, fun _ => hv.opened (by simp [hp])⟩
  simp only [List.length_append, List.length_singleton]
  omega

theorem Valid.work (hv : Valid ci co d) (h : work act co d = some d') : Valid ci co d' := by
  have hin := hv.input
  have hout := hv.output
  obtain ⟨hpend, heof, hshut⟩ := work_frame h
  have hopen : d'.pending ≠ [] → d'.eof = false ∧ d'.shut = false := by
    rw [hpend, heof, hshut]
    exact hv.opened
  unfold Duplex.work at h
  split at h
  · split at h
    · next hq =>
      cases h
      rw [hq] at hin
      simp only [List.length_cons] at hin
      exact ⟨by simp only; omega, hout, hopen⟩
    · split_ifs at h
      cases h
      exact ⟨hin, hout, hopen⟩
  · split_ifs at h
    · cases h
      exact ⟨hin, hout, hopen⟩
    · cases h
      refine ⟨hin, ?_, hopen⟩
      simp only [List.length_append, List.length_singleton]
      omega
  · cases h

/-! ### Writes that are absorbed -/

theorem absorbs_emit {w next : W} {a : α} {room n : ℕ} {input : List α}
    (ha : act w = .emit a next) :
    Absorbs act w room n input ↔ n = 0 ∨ ∃ r, room = r + 1 ∧ Absorbs act next r n input := by
  constructor
  · intro habs
    cases habs with
    | done => exact .inl rfl
    | halt h => rw [ha] at h; cases h
    | read h ih => rw [ha] at h; cases h
    | emit h ih =>
      rw [ha] at h
      cases h
      exact .inr ⟨_, rfl, ih⟩
  · rintro (rfl | ⟨r, rfl, ih⟩)
    · exact .done _ _ _
    · exact .emit ha ih

theorem absorbs_read {w : W} {k : Option α → W} {room n : ℕ} {a : α} {input : List α}
    (ha : act w = .read k) :
    Absorbs act w room n (a :: input) ↔ n = 0 ∨ Absorbs act (k (some a)) room (n - 1) input := by
  constructor
  · intro habs
    cases habs with
    | done => exact .inl rfl
    | halt h => rw [ha] at h; cases h
    | read h ih =>
      rw [ha] at h
      cases h
      exact .inr ih
    | emit h ih => rw [ha] at h; cases h
  · rintro (rfl | ih)
    · exact .done _ _ _
    · cases n with
      | zero => exact .done _ _ _
      | succ n => exact .read ha ih

/-- Whether a block is absorbed does not change while it is copied. -/
theorem safe_push_iff (h : push ci d = some d') : Safe act ci co d' ↔ Safe act ci co d := by
  obtain ⟨a, rest, hp, hroom, rfl⟩ := push_eq_some h
  have hexcess : excess ci { d with toWorker := d.toWorker ++ [a], pending := rest } =
      d.excess ci := by
    simp only [excess, hp, List.length_append, List.length_cons, List.length_nil]
    omega
  simp only [Safe, hexcess, hp, List.append_assoc, List.singleton_append, ne_eq, reduceCtorEq,
    not_false_eq_true, forall_const]
  by_cases hrest : rest = []
  · -- the last element of the block fits
    have hz : d.excess ci = 0 := by
      simp only [excess, hp, hrest, List.length_cons, List.length_nil]
      omega
    rw [hz]
    exact ⟨fun _ => .done _ _ _, fun _ _ => .done _ _ _⟩
  · simp only [hrest, not_false_eq_true, forall_const]

/-- Nor does it change while the worker runs. -/
theorem safe_work_iff (hv : Valid ci co d) (h : work act co d = some d') :
    Safe act ci co d' ↔ Safe act ci co d := by
  by_cases hp : d.pending = []
  · simp [Safe, (work_frame h).1, hp]
  have hpos := List.length_pos_of_ne_nil hp
  simp only [Safe, (work_frame h).1, hp, ne_eq, not_false_eq_true, forall_const]
  rcases work_eq_some hv hp h with ⟨k, a, rest, ha, hq, rfl⟩ | ⟨a, next, ha, hroom, rfl⟩
  · -- the worker has read one of the elements that count
    rw [hq, List.cons_append, absorbs_read ha]
    simp only [excess, hq, List.length_cons]
    rw [show rest.length + 1 + d.pending.length - ci - 1 = rest.length + d.pending.length - ci by
      omega]
    constructor
    · exact .inr
    · rintro (hz | habs)
      · rw [show rest.length + d.pending.length - ci = 0 by omega]
        exact .done _ _ _
      · exact habs
  · rw [absorbs_emit ha]
    simp only [excess, List.length_append, List.length_cons, List.length_nil]
    constructor
    · intro habs
      exact .inr ⟨co - (d.toFeeder.length + 1), by omega, by simpa using habs⟩
    · rintro (hz | ⟨r, hr, habs⟩)
      · rw [hz]
        exact .done _ _ _
      · rw [show co - (d.toFeeder.length + (0 + 1)) = r by omega]
        exact habs

/-- Between two blocks there is nothing to absorb. -/
theorem safe_of_idle (hp : d.pending = []) : Safe act ci co d := fun hne => absurd hp hne

/-- At a deadlock the block is not absorbed. -/
theorem Safe.not_deadlocked (hs : Safe act ci co d) : ¬ Deadlocked act ci co d := by
  rintro ⟨hp, hfull, hshut, hout, a, next, ha⟩
  have hpos := List.length_pos_of_ne_nil hp
  rcases (absorbs_emit ha).1 (hs hp) with hz | ⟨r, hr, -⟩
  · simp only [excess] at hz
    omega
  · omega

/-- The elements left over when the queue is full are those that the worker has to read. -/
theorem pending_ne_nil_of_not_safe (hs : ¬ Safe act ci co d) :
    ci < d.toWorker.length + d.pending.length ∧ d.pending ≠ [] := by
  simp only [Safe, not_forall] at hs
  obtain ⟨hp, habs⟩ := hs
  refine ⟨?_, hp⟩
  by_contra hle
  apply habs
  rw [show d.excess ci = 0 by simp only [excess]; omega]
  exact .done _ _ _

/-! ### Writes that are not absorbed -/

variable (act ci co) in
/-- The two threads during a write: `false` copies an element, `true` is a step of the worker. -/
def turns : LTS (Duplex W α) Bool where
  step d
    | false => push ci d
    | true => work act co d

variable (act) in
/-- The queue can be filled while the worker waits. -/
theorem exists_full (hv : Valid ci co d) (hex : ci < d.toWorker.length + d.pending.length) :
    ∃ q p, (turns act ci co).Reachable d { d with toWorker := q, pending := p } ∧
      q.length = ci ∧ p ≠ [] := by
  obtain ⟨m, hm⟩ : ∃ m, d.toWorker.length + m = ci :=
    ⟨ci - d.toWorker.length, by have := hv.input; omega⟩
  induction m generalizing d with
  | zero =>
    refine ⟨d.toWorker, d.pending, LTS.Reachable.refl d, by omega, ?_⟩
    rintro hnil
    rw [hnil] at hex
    simp only [List.length_nil] at hex
    omega
  | succ m ih =>
    cases hp : d.pending with
    | nil =>
      rw [hp] at hex
      simp only [List.length_nil] at hex
      omega
    | cons a rest =>
      have hpush : push ci d = some { d with toWorker := d.toWorker ++ [a], pending := rest } := by
        simp only [push, hp]
        rw [if_pos (by omega)]
      rw [hp] at hex
      simp only [List.length_cons] at hex
      obtain ⟨q, p, hr, hq, hne⟩ := ih (hv.push hpush)
        (by simp only [List.length_append, List.length_cons, List.length_nil]; omega)
        (by simp only [List.length_append, List.length_cons, List.length_nil]; omega)
      refine ⟨q, p, LTS.Reachable.trans ?_ hr, hq, hne⟩
      exact ⟨[false], by simp [turns, hpush]⟩

/-- A worker that has no room for its output is deadlocked with the feeder once the queue is
full. -/
theorem exists_deadlock_of_emit {a : α} {next : W} (hv : Valid ci co d) (hp : d.pending ≠ [])
    (hex : ci < d.toWorker.length + d.pending.length) (hfull : co ≤ d.toFeeder.length)
    (ha : act d.worker = .emit a next) :
    ∃ t, (turns act ci co).Reachable d t ∧ Deadlocked act ci co t := by
  obtain ⟨q, p, hr, hq, hne⟩ := exists_full act hv hex
  exact ⟨_, hr, hne, Nat.le_of_eq hq.symm, (hv.opened hp).2, hfull, a, next, ha⟩

/-- A step of the worker on a block that is not absorbed comes closer to the deadlock. -/
theorem work_measure (hv : Valid ci co d) (hs : ¬ Safe act ci co d)
    (h : work act co d = some d') :
    d'.excess ci + (co - d'.toFeeder.length) < d.excess ci + (co - d.toFeeder.length) ∧
      ¬ Safe act ci co d' := by
  obtain ⟨hex, hp⟩ := pending_ne_nil_of_not_safe hs
  refine ⟨?_, (safe_work_iff hv h).not.2 hs⟩
  rcases work_eq_some hv hp h with ⟨k, a, rest, ha, hq, rfl⟩ | ⟨a, next, ha, hroom, rfl⟩
  · rw [hq] at hex
    simp only [List.length_cons] at hex
    simp only [excess, hq, List.length_cons]
    omega
  · simp only [excess, List.length_append, List.length_cons, List.length_nil]
    omega

/-- **Every write that is not absorbed can end in a deadlock.** -/
theorem exists_deadlock (hci : 0 < ci) (hv : Valid ci co d) (hs : ¬ Safe act ci co d) :
    ∃ t, (turns act ci co).Reachable d t ∧ Deadlocked act ci co t := by
  -- induction on what the worker can still read and emit
  obtain ⟨m, hm⟩ : ∃ m, d.excess ci + (co - d.toFeeder.length) ≤ m := ⟨_, Nat.le_refl _⟩
  induction m generalizing d with
  | zero =>
    obtain ⟨hex, -⟩ := pending_ne_nil_of_not_safe hs
    simp only [excess] at hm
    omega
  | succ m ih =>
    have hstep : ∀ e e' : Duplex W α, Valid ci co e → ¬ Safe act ci co e →
        e.excess ci + (co - e.toFeeder.length) ≤ m + 1 → work act co e = some e' →
        ∃ t, (turns act ci co).Reachable e t ∧ Deadlocked act ci co t := by
      intro e e' hve hse hme hwork
      obtain ⟨hlt, hse'⟩ := work_measure hve hse hwork
      obtain ⟨t, hr, hdead⟩ := ih (hve.work hwork) hse' (by omega)
      exact ⟨t, LTS.Reachable.trans ⟨[true], by simp [turns, hwork]⟩ hr, hdead⟩
    obtain ⟨hex, hp⟩ := pending_ne_nil_of_not_safe hs
    cases ha : act d.worker with
    | halt => exact absurd (fun _ => Absorbs.halt ha) hs
    | emit a next =>
      by_cases hroom : d.toFeeder.length < co
      · exact hstep d { d with toFeeder := d.toFeeder ++ [a], worker := next } hv hs hm
          (by simp [work, ha, (hv.opened hp).2, hroom])
      · exact exists_deadlock_of_emit hv hp hex (by omega) ha
    | read k =>
      cases hq : d.toWorker with
      | cons a rest =>
        exact hstep d { d with toWorker := rest, worker := k (some a) } hv hs hm
          (by simp [work, ha, hq])
      | nil =>
        -- the worker waits, so the feeder goes first
        obtain ⟨a, rest, hpend⟩ := List.exists_cons_of_ne_nil hp
        have hpush : push ci d =
            some { d with toWorker := d.toWorker ++ [a], pending := rest } := by
          simp only [push, hpend]
          rw [if_pos (by rw [hq]; exact hci)]
        have hexcess : excess ci { d with toWorker := d.toWorker ++ [a], pending := rest } =
            d.excess ci := by
          simp only [excess, hpend, List.length_append, List.length_cons, List.length_nil]
          omega
        obtain ⟨t, hr, hdead⟩ :=
          hstep _ { d with toWorker := [], pending := rest, worker := k (some a) }
            (hv.push hpush) ((safe_push_iff hpush).not.2 hs) (by rw [hexcess]; exact hm)
            (by simp [work, ha, hq])
        exact ⟨t, LTS.Reachable.trans ⟨[false], by simp [turns, hpush]⟩ hr, hdead⟩

end Duplex

end Ps4Dropbear
