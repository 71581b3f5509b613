import Ps4Dropbear.Prog.Socket

/-!
# Two programs that talk to each other

Two programs hold the ends of a pair of connected stream sockets.  Each direction is a queue that
holds at most `cap` elements; a write takes any part of what is offered that finds room, a read
returns any chunk of what is queued, a program whose queue is empty (full, for a write) waits,
and the end of the stream is seen when the peer has returned and the queue is empty.  The
programs take steps in any order.

A *script* fixes what one program reads and writes, element by element and in which order, but
not in which chunks.  `Follows` says that a program keeps to a script on its own, whatever the
chunks are.  The main result is that two programs that follow dual scripts cannot get stuck and
cannot run forever, however their steps are interleaved.

## Main definitions

* `Party.Step` : the steps of one program, labelled with what happens on its socket.
* `Net.Step` : the steps of the two programs with the queues between them.
* `Net.Must Q` : every run from here ends, and ends in a state with both programs returned in `Q`.
* `Follows HL Q d p w` : the program `p` keeps to the script `d` and returns with `Q`.

## Main results

* `Follows.bind`, `Follows.round` : scripts of sequences and of loops.
* `Net.must_of_follows` : programs that follow dual scripts run to their ends.
* `Net.Must.exists_right_eval` : a run of both is a run of the right one on its own.
-/

namespace Ps4Dropbear

/-- One element of a script, or the end of the stream. -/
inductive Item (B : Type)
  | inp (b : B)
  | out (b : B)
  | fin

/-- What happens on the socket in one step. -/
inductive WireEvent (B : Type)
  | tau
  | got (bs : List B)
  | put (bs : List B)
  | eof

/-- The part of a script that an event stands for. -/
def WireEvent.items {B : Type} : WireEvent B → List (Item B)
  | tau => []
  | got bs => bs.map .inp
  | put bs => bs.map .out
  | eof => [Item.fin]

/-- The script of the peer. -/
def Item.dual {B : Type} : Item B → Item B
  | inp b => out b
  | out b => inp b
  | fin => fin

section Party

variable {B L : Type} {RL : L → Type} {W α : Type}

/-- The steps of one program. -/
inductive Party.Step (HL : (l : L) → W → RL l → W → Prop) :
    SocketProg B RL α → W → WireEvent B → SocketProg B RL α → W → Prop
  | loc {l : L} {k : RL l → SocketProg B RL α} {w w' : W} {r : RL l} (h : HL l w r w') :
      Party.Step HL (.call (.loc l) k) w .tau (k r) w'
  | loop {σ β : Type} {body : σ → SocketProg B RL (σ ⊕ β)} {s : σ} {k : β → SocketProg B RL α}
      {w : W} : Party.Step HL (.loop body s k) w .tau (Prog.unfold body s k) w
  | recv {n : ℕ} {k : Except IoError (List B) → SocketProg B RL α} {w : W} {bs : List B}
      (h₀ : bs ≠ []) (hn : bs.length ≤ n) :
      Party.Step HL (.call (.recv n) k) w (.got bs) (k (.ok bs)) w
  | eof {n : ℕ} {k : Except IoError (List B) → SocketProg B RL α} {w : W} :
      Party.Step HL (.call (.recv n) k) w .eof (k (.ok [])) w
  | send {bs rest : List B} {k : Except IoError ℕ → SocketProg B RL α} {w : W} (h₀ : bs ≠ []) :
      Party.Step HL (.call (.send (bs ++ rest)) k) w (.put bs) (k (.ok bs.length)) w

/-- The program `p` keeps to the script `d`, whatever the chunks of its reads and writes are and
however its own calls are answered, and returns with `Q`, which also looks at what is left of the
script.  It never asks for more elements than the script has for it before the next change of
direction. -/
inductive Follows (HL : (l : L) → W → RL l → W → Prop) (Q : α → W → List (Item B) → Prop) :
    List (Item B) → SocketProg B RL α → W → Prop
  | ret {d : List (Item B)} {a : α} {w : W} (h : Q a w d) : Follows HL Q d (.ret a) w
  | loc {d : List (Item B)} {l : L} {k : RL l → SocketProg B RL α} {w : W}
      (hex : ∃ r w', HL l w r w') (h : ∀ r w', HL l w r w' → Follows HL Q d (k r) w') :
      Follows HL Q d (.call (.loc l) k) w
  | loop {σ β : Type} {d : List (Item B)} {body : σ → SocketProg B RL (σ ⊕ β)} {s : σ}
      {k : β → SocketProg B RL α} {w : W} (h : Follows HL Q d (Prog.unfold body s k) w) :
      Follows HL Q d (.loop body s k) w
  | recv {d : List (Item B)} {bs : List B} {n : ℕ}
      {k : Except IoError (List B) → SocketProg B RL α} {w : W} (h₀ : 0 < n) (hn : n ≤ bs.length)
      (h : ∀ cs ds, bs = cs ++ ds → cs ≠ [] → cs.length ≤ n →
        Follows HL Q (ds.map .inp ++ d) (k (.ok cs)) w) :
      Follows HL Q (bs.map .inp ++ d) (.call (.recv n) k) w
  | eof {n : ℕ} {k : Except IoError (List B) → SocketProg B RL α} {w : W}
      (h : Follows HL Q [] (k (.ok [])) w) : Follows HL Q [Item.fin] (.call (.recv n) k) w
  | send {d : List (Item B)} {bs : List B} {k : Except IoError ℕ → SocketProg B RL α} {w : W}
      (h₀ : bs ≠ []) (h : ∀ cs ds, bs = cs ++ ds → cs ≠ [] →
        Follows HL Q (ds.map .out ++ d) (k (.ok cs.length)) w) :
      Follows HL Q (bs.map .out ++ d) (.call (.send bs) k) w

namespace Follows

variable {HL : (l : L) → W → RL l → W → Prop}

/-- The second program goes on with the script where the first one leaves it. -/
theorem bind {β : Type} {Q : α → W → List (Item B) → Prop} {Q' : β → W → List (Item B) → Prop}
    {d : List (Item B)} {p : SocketProg B RL α} {f : α → SocketProg B RL β} {w : W}
    (h : Follows HL Q d p w) (hf : ∀ a w' d', Q a w' d' → Follows HL Q' d' (f a) w') :
    Follows HL Q' d (p.bind f) w := by
  induction h with
  | ret h => exact hf _ _ _ h
  | loc hex _ ih => exact .loc hex ih
  | loop _ ih =>
    refine .loop ?_
    rw [← Prog.unfold_bind]
    exact ih
  | recv h₀ hn _ ih => exact .recv h₀ hn ih
  | eof _ ih => exact .eof ih
  | send h₀ _ ih => exact .send h₀ ih

theorem mono {Q Q' : α → W → List (Item B) → Prop} {d : List (Item B)} {p : SocketProg B RL α}
    {w : W} (h : Follows HL Q d p w) (hQ : ∀ a w' d', Q a w' d' → Q' a w' d') :
    Follows HL Q' d p w := by
  induction h with
  | ret h => exact .ret (hQ _ _ _ h)
  | loc hex _ ih => exact .loc hex ih
  | loop _ ih => exact .loop ih
  | recv h₀ hn _ ih => exact .recv h₀ hn ih
  | eof _ ih => exact .eof ih
  | send h₀ _ ih => exact .send h₀ ih

/-- A read of one element. -/
theorem recv_one {Q : α → W → List (Item B) → Prop} {d : List (Item B)} {b : B}
    {k : Except IoError (List B) → SocketProg B RL α} {w : W}
    (h : Follows HL Q d (k (.ok [b])) w) : Follows HL Q (.inp b :: d) (.call (.recv 1) k) w := by
  refine @Follows.recv _ _ _ _ _ _ _ d [b] 1 k w Nat.one_pos (Nat.le_refl 1) ?_
  intro cs ds hcs hne hle
  obtain ⟨c, rfl⟩ := List.length_eq_one_iff.1 (Nat.le_antisymm hle (List.length_pos_iff.2 hne))
  obtain ⟨rfl, rfl⟩ : b = c ∧ ds = [] := by simpa [eq_comm] using hcs
  exact h

/-- One round of a loop. -/
theorem round {σ β : Type} {Q : β → W → List (Item B) → Prop} {d : List (Item B)}
    {body : σ → SocketProg B RL (σ ⊕ β)} {s : σ} {w : W}
    (h : Follows HL (fun x w' d' => match x with
      | .inl s' => Follows HL Q d' (Prog.iterate body s') w'
      | .inr b => Q b w' d') d (body s) w) : Follows HL Q d (Prog.iterate body s) w := by
  refine .loop (h.bind ?_)
  rintro (s' | b) w' d' hx
  · exact hx
  · exact .ret hx

end Follows

/-! ### One step of a program that keeps to its script -/

/-- Whatever is next in the script, if anything, the program can do. -/
def Party.Ready (HL : (l : L) → W → RL l → W → Prop) (Q : α → W → Prop) (d : List (Item B))
    (p : SocketProg B RL α) (w : W) : Prop :=
  (∃ a, p = .ret a ∧ d = [] ∧ Q a w) ∨ (∃ p' w', Party.Step HL p w .tau p' w') ∨
    (∃ b d' p' w', d = .inp b :: d' ∧ Party.Step HL p w (.got [b]) p' w') ∨
    (∃ b d' p' w', d = .out b :: d' ∧ Party.Step HL p w (.put [b]) p' w') ∨
    (d = [Item.fin] ∧ ∃ p' w', Party.Step HL p w .eof p' w')

/-- `Follows` in terms of steps: what the script says is possible, what the program does on its
own account is in the script, and every step that agrees with the script leads on. -/
inductive Party.Keeps (HL : (l : L) → W → RL l → W → Prop) (Q : α → W → Prop) :
    List (Item B) → SocketProg B RL α → W → Prop
  | intro {d : List (Item B)} {p : SocketProg B RL α} {w : W} (ready : Party.Ready HL Q d p w)
      (put : ∀ bs p' w', Party.Step HL p w (.put bs) p' w' → ∃ d', d = bs.map .out ++ d')
      (quiet : ∀ ev p' w', d = [] → Party.Step HL p w ev p' w' → ev = .tau)
      (next : ∀ ev d' p' w', Party.Step HL p w ev p' w' → d = ev.items ++ d' →
        Party.Keeps HL Q d' p' w') :
      Party.Keeps HL Q d p w

section Keeps

variable {HL : (l : L) → W → RL l → W → Prop} {Q : α → W → Prop}

theorem map_inp_append_eq {bs cs : List B} {d d' : List (Item B)} (hle : cs.length ≤ bs.length)
    (h : bs.map Item.inp ++ d = cs.map .inp ++ d') :
    ∃ ds, bs = cs ++ ds ∧ d' = ds.map .inp ++ d := by
  induction cs generalizing bs with
  | nil => exact ⟨bs, rfl, h.symm⟩
  | cons c cs ih =>
    cases bs with
    | nil => simp at hle
    | cons b bs =>
      simp only [List.map_cons, List.cons_append, List.cons.injEq, Item.inp.injEq] at h
      obtain ⟨rfl, h⟩ := h
      obtain ⟨ds, rfl, hd⟩ := ih (by simpa using hle) h
      exact ⟨ds, rfl, hd⟩

/-- A script that is followed to its end. -/
theorem Follows.keeps {d : List (Item B)} {p : SocketProg B RL α} {w : W}
    (h : Follows HL (fun a w d => d = [] ∧ Q a w) d p w) : Party.Keeps HL Q d p w := by
  induction h with
  | @ret d a w h =>
    refine .intro (.inl ⟨a, rfl, h⟩) ?_ ?_ ?_
    · rintro bs p' w' ⟨⟩
    · rintro ev p' w' - ⟨⟩
    · rintro ev d' p' w' ⟨⟩
  | @loc d l k w hex _ ih =>
    obtain ⟨r, w₁, hr⟩ := hex
    refine .intro (.inr (.inl ⟨_, _, .loc hr⟩)) ?_ ?_ ?_
    · rintro bs p' w' ⟨⟩
    · rintro ev p' w' - ⟨⟩
      rfl
    · rintro ev d' p' w' ⟨hl⟩ rfl
      exact ih _ _ hl
  | @loop σ β d body s k w _ ih =>
    refine .intro (.inr (.inl ⟨_, _, .loop⟩)) ?_ ?_ ?_
    · rintro bs p' w' ⟨⟩
    · rintro ev p' w' - ⟨⟩
      rfl
    · rintro ev d' p' w' ⟨⟩ rfl
      exact ih
  | @recv d bs n k w h₀ hn _ ih =>
    obtain ⟨b, bs, rfl⟩ : ∃ b bs', bs = b :: bs' :=
      List.exists_cons_of_length_pos (Nat.lt_of_lt_of_le h₀ hn)
    refine .intro (.inr (.inr (.inl ⟨b, _, _, _, rfl, .recv (List.cons_ne_nil _ _) h₀⟩))) ?_ ?_ ?_
    · rintro cs p' w' ⟨⟩
    · rintro ev p' w' hd -
      simp at hd
    · rintro ev d' p' w' hstep hd
      cases hstep with
      | recv hcs hle =>
        obtain ⟨ds, hbs, rfl⟩ := map_inp_append_eq (Nat.le_trans hle hn) hd
        exact ih _ ds hbs hcs hle
      | eof => simp [WireEvent.items] at hd
  | @eof n k w _ ih =>
    refine .intro (.inr (.inr (.inr (.inr ⟨rfl, _, _, .eof⟩)))) ?_ ?_ ?_
    · rintro cs p' w' ⟨⟩
    · rintro ev p' w' hd -
      simp at hd
    · rintro ev d' p' w' hstep hd
      cases hstep with
      | @recv _ _ _ cs hcs hle =>
        cases cs with
        | nil => exact absurd rfl hcs
        | cons c cs => simp [WireEvent.items] at hd
      | eof =>
        obtain rfl : d' = [] := by simpa [WireEvent.items] using hd
        exact ih
  | @send d bs k w h₀ _ ih =>
    obtain ⟨b, bs, rfl⟩ := List.exists_cons_of_ne_nil h₀
    have hput : Party.Step HL (.call (.send (b :: bs)) k) w (.put [b]) (k (.ok 1)) w :=
      .send (List.cons_ne_nil b [])
    refine .intro (.inr (.inr (.inr (.inl ⟨b, _, _, _, rfl, hput⟩)))) ?_ ?_ ?_
    · intro cs p' w' hstep
      generalize hbs : b :: bs = bs' at hstep
      cases hstep with
      | @send _ rest => exact ⟨rest.map .out ++ d, by simp⟩
    · rintro ev p' w' hd -
      simp at hd
    · intro ev d' p' w' hstep hd
      generalize hbs : b :: bs = bs' at hstep
      cases hstep with
      | @send cs rest _ _ hcs =>
        have hd' : d' = rest.map .out ++ d := by
          rw [hbs, List.map_append, List.append_assoc] at hd
          exact (List.append_cancel_left hd).symm
        rw [hd']
        exact ih cs rest hbs hcs

end Keeps

end Party

/-! ### The two programs together -/

/-- What an event does to the queue a program reads from and the queue it writes to. -/
def WireEvent.Moves {B : Type} (cap : ℕ) (peerReturned : Prop) (inq outq inq' outq' : List B) :
    WireEvent B → Prop
  | tau => inq' = inq ∧ outq' = outq
  | got bs => inq = bs ++ inq' ∧ outq' = outq
  | put bs => inq' = inq ∧ outq' = outq ++ bs ∧ outq'.length ≤ cap
  | eof => inq = [] ∧ peerReturned ∧ inq' = inq ∧ outq' = outq

variable {B L M : Type} {RL : L → Type} {RM : M → Type} {V W α β : Type}

/-- Two programs with their worlds, and the queues between them. -/
structure Net (B : Type) {L M : Type} (RL : L → Type) (RM : M → Type) (V W α β : Type) where
  left : SocketProg B RL α
  leftWorld : V
  right : SocketProg B RM β
  rightWorld : W
  toRight : List B
  toLeft : List B

namespace Net

section Step

variable (HL : (l : L) → V → RL l → V → Prop) (HM : (m : M) → W → RM m → W → Prop) (cap : ℕ)

/-- The steps of the two programs, in any order. -/
inductive Step : Net B RL RM V W α β → Net B RL RM V W α β → Prop
  | left {p p' : SocketProg B RL α} {v v' : V} {q : SocketProg B RM β} {w : W}
      {toRight toLeft toRight' toLeft' : List B} {ev : WireEvent B}
      (h : Party.Step HL p v ev p' v')
      (hq : ev.Moves cap (∃ b, q = .ret b) toLeft toRight toLeft' toRight') :
      Step ⟨p, v, q, w, toRight, toLeft⟩ ⟨p', v', q, w, toRight', toLeft'⟩
  | right {p : SocketProg B RL α} {v : V} {q q' : SocketProg B RM β} {w w' : W}
      {toRight toLeft toRight' toLeft' : List B} {ev : WireEvent B}
      (h : Party.Step HM q w ev q' w')
      (hq : ev.Moves cap (∃ a, p = .ret a) toRight toLeft toRight' toLeft') :
      Step ⟨p, v, q, w, toRight, toLeft⟩ ⟨p, v, q', w', toRight', toLeft'⟩

/-- Every run from here ends, with both programs returned, empty queues and `Q`. -/
inductive Must (Q : α → V → β → W → Prop) : Net B RL RM V W α β → Prop
  | done {a : α} {v : V} {b : β} {w : W} (h : Q a v b w) : Must Q ⟨.ret a, v, .ret b, w, [], []⟩
  | step {s : Net B RL RM V W α β} (hex : ∃ s', Step HL HM cap s s')
      (h : ∀ s', Step HL HM cap s s' → Must Q s') : Must Q s

end Step

/-- How the scripts and the queues of the two programs fit together: what one has written and
the other has not read yet is in the queue between them.  The right program reads to the end of
the stream, so it outlives the left one. -/
inductive InSync (p : SocketProg B RL α) :
    List (Item B) → List (Item B) → List B → List B → Prop
  | ahead {d : List (Item B)} {toRight : List B} :
      InSync p d (toRight.map .inp ++ (d.map .dual ++ [Item.fin])) toRight []
  | behind {d : List (Item B)} {toLeft : List B} :
      InSync p (toLeft.map .inp ++ d) (d.map .dual ++ [Item.fin]) [] toLeft
  | finished {a : α} (hp : p = .ret a) : InSync p [] [] [] []

section Sync

variable {HL : (l : L) → V → RL l → V → Prop} {HM : (m : M) → W → RM m → W → Prop}
  {QL : α → V → Prop} {QM : β → W → Prop} {cap : ℕ} {p p' : SocketProg B RL α}
  {q q' : SocketProg B RM β} {v v' : V} {w w' : W} {d e : List (Item B)}
  {toRight toLeft toRight' toLeft' : List B} {ev : WireEvent B}

theorem map_dual_eq_map_out {bs : List B} (h : d.map Item.dual ++ [Item.fin] = bs.map .out ++ e) :
    ∃ d' : List (Item B), d = bs.map .inp ++ d' ∧ e = d'.map .dual ++ [Item.fin] := by
  induction bs generalizing d with
  | nil => exact ⟨d, rfl, h.symm⟩
  | cons b bs ih =>
    cases d with
    | nil => simp at h
    | cons x d =>
      simp only [List.map_cons, List.cons_append, List.cons.injEq] at h
      obtain ⟨hx, h⟩ := h
      obtain ⟨d', rfl, he⟩ := ih h
      refine ⟨d', ?_, he⟩
      cases x with
      | inp c =>
        simp only [Item.dual, Item.out.injEq] at hx
        rw [hx, List.map_cons, List.cons_append]
      | out c => simp [Item.dual] at hx
      | fin => simp [Item.dual] at hx

/-- A queue in front of a script that goes on with a write is empty. -/
theorem map_inp_eq_map_out {bs cs : List B} {d' : List (Item B)} (hbs : bs ≠ [])
    (h : cs.map Item.inp ++ d = bs.map .out ++ d') : cs = [] := by
  cases cs with
  | nil => rfl
  | cons c cs =>
    obtain ⟨b, bs, rfl⟩ := List.exists_cons_of_ne_nil hbs
    simp at h

theorem ne_nil_of_put {bs : List B} (h : Party.Step HL p v (.put bs) p' v') : bs ≠ [] := by
  cases h with
  | send h₀ => exact h₀

theorem ne_nil_of_got {bs : List B} (h : Party.Step HL p v (.got bs) p' v') : bs ≠ [] := by
  cases h with
  | recv h₀ => exact h₀

/-- A program that has returned has done its script. -/
theorem nil_of_returned {b : β} (h : Party.Keeps HM QM e (.ret b) w) : e = [] ∧ QM b w := by
  obtain ⟨hr, -, -, -⟩ := h
  obtain ⟨_, hb, he, hq⟩ | ⟨_, _, ⟨⟩⟩ | ⟨_, _, _, _, -, ⟨⟩⟩ | ⟨_, _, _, _, -, ⟨⟩⟩ |
    ⟨-, _, _, ⟨⟩⟩ := hr
  cases hb
  exact ⟨he, hq⟩

theorem InSync.left_step (h : InSync p d e toRight toLeft) (hd : Party.Keeps HL QL d p v)
    (he : Party.Keeps HM QM e q w) (hs : Party.Step HL p v ev p' v')
    (hq : ev.Moves cap (∃ b, q = .ret b) toLeft toRight toLeft' toRight') :
    ∃ d', d = ev.items ++ d' ∧ InSync p' d' e toRight' toLeft' := by
  cases ev with
  | tau =>
    obtain ⟨rfl, rfl⟩ := hq
    refine ⟨d, rfl, ?_⟩
    cases h with
    | ahead => exact .ahead
    | behind => exact .behind
    | finished hp =>
      subst hp
      cases hs
  | got bs =>
    obtain ⟨rfl, rfl⟩ := hq
    generalize hl : bs ++ toLeft' = l at h
    cases h with
    | ahead => exact absurd (List.append_eq_nil_iff.1 hl).1 (ne_nil_of_got hs)
    | @behind d =>
      subst hl
      exact ⟨toLeft'.map .inp ++ d, by simp [WireEvent.items], .behind⟩
    | finished => exact absurd (List.append_eq_nil_iff.1 hl).1 (ne_nil_of_got hs)
  | put bs =>
    obtain ⟨rfl, rfl, -⟩ := hq
    obtain ⟨d', hd'⟩ : ∃ d', d = bs.map .out ++ d' := by
      obtain ⟨-, hput, -, -⟩ := hd
      exact hput bs p' v' hs
    refine ⟨d', hd', ?_⟩
    cases h with
    | ahead =>
      have hdual : toRight.map .inp ++ (d.map .dual ++ [Item.fin]) =
          (toRight ++ bs).map .inp ++ (d'.map .dual ++ [Item.fin]) := by
        simp [hd', Item.dual, Function.comp_def]
      rw [hdual]
      exact .ahead
    | behind =>
      obtain rfl := map_inp_eq_map_out (ne_nil_of_put hs) hd'
      simp only [List.map_nil, List.nil_append] at hd'
      subst hd'
      have hdual : (bs.map Item.out ++ d').map .dual ++ [Item.fin] =
          bs.map .inp ++ (d'.map .dual ++ [Item.fin]) := by
        simp [Item.dual, Function.comp_def]
      rw [hdual]
      exact .ahead
    | finished =>
      have := ne_nil_of_put hs
      simp [this] at hd'
  | eof =>
    obtain ⟨rfl, ⟨b, rfl⟩, rfl, rfl⟩ := hq
    obtain ⟨he, -⟩ := nil_of_returned he
    cases h with
    | ahead => simp at he
    | behind => simp at he
    | finished hp =>
      subst hp
      cases hs

theorem InSync.right_step (h : InSync p d e toRight toLeft) (hd : Party.Keeps HL QL d p v)
    (he : Party.Keeps HM QM e q w) (hs : Party.Step HM q w ev q' w')
    (hq : ev.Moves cap (∃ a, p = .ret a) toRight toLeft toRight' toLeft') :
    ∃ e', e = ev.items ++ e' ∧ InSync p d e' toRight' toLeft' := by
  cases ev with
  | tau =>
    obtain ⟨rfl, rfl⟩ := hq
    exact ⟨e, rfl, h⟩
  | got bs =>
    obtain ⟨rfl, rfl⟩ := hq
    generalize hl : bs ++ toRight' = l at h
    cases h with
    | ahead =>
      subst hl
      exact ⟨toRight'.map .inp ++ (d.map .dual ++ [Item.fin]), by simp [WireEvent.items], .ahead⟩
    | behind => exact absurd (List.append_eq_nil_iff.1 hl).1 (ne_nil_of_got hs)
    | finished => exact absurd (List.append_eq_nil_iff.1 hl).1 (ne_nil_of_got hs)
  | put bs =>
    obtain ⟨rfl, rfl, -⟩ := hq
    obtain ⟨e', he'⟩ : ∃ e', e = bs.map .out ++ e' := by
      obtain ⟨-, hput, -, -⟩ := he
      exact hput bs q' w' hs
    refine ⟨e', he', ?_⟩
    cases h with
    | ahead =>
      obtain rfl := map_inp_eq_map_out (ne_nil_of_put hs) he'
      obtain ⟨d', rfl, rfl⟩ := map_dual_eq_map_out he'
      exact .behind
    | @behind d =>
      obtain ⟨d', rfl, rfl⟩ := map_dual_eq_map_out he'
      rw [← List.append_assoc, ← List.map_append]
      exact .behind
    | finished =>
      have := ne_nil_of_put hs
      simp [this] at he'
  | eof =>
    obtain ⟨rfl, ⟨a, rfl⟩, rfl, rfl⟩ := hq
    obtain ⟨rfl, -⟩ := nil_of_returned hd
    refine ⟨[], ?_⟩
    generalize hd₀ : ([] : List (Item B)) = d₀ at h
    cases h with
    | ahead =>
      subst hd₀
      exact ⟨rfl, .finished rfl⟩
    | @behind d =>
      obtain ⟨hl, rfl⟩ := List.append_eq_nil_iff.1 hd₀.symm
      obtain rfl := List.map_eq_nil_iff.1 hl
      exact ⟨rfl, .finished rfl⟩
    | finished =>
      obtain ⟨-, -, hquiet, -⟩ := he
      have := hquiet _ _ _ rfl hs
      simp at this

/-- The right program can take a step when the queue to it is not empty. -/
theorem right_moves_of_queued {b : B} (he : Party.Keeps HM QM (.inp b :: e) q w) :
    ∃ s', Step HL HM cap ⟨p, v, q, w, b :: toRight, toLeft⟩ s' := by
  obtain ⟨hr, -, -, -⟩ := he
  obtain ⟨_, -, hnil, -⟩ | ⟨q', w', hs⟩ | ⟨b', _, q', w', hb, hs⟩ | ⟨_, _, _, _, hb, -⟩ |
    ⟨hb, -⟩ := hr
  · simp at hnil
  · exact ⟨_, .right hs ⟨rfl, rfl⟩⟩
  · simp only [List.cons.injEq, Item.inp.injEq] at hb
    obtain ⟨rfl, -⟩ := hb
    exact ⟨_, .right hs ⟨rfl, rfl⟩⟩
  · simp at hb
  · simp at hb

/-- The right program can take a step when it is its turn to write. -/
theorem right_moves_of_out {b : B} (hcap : 0 < cap) (he : Party.Keeps HM QM (.out b :: e) q w) :
    ∃ s', Step HL HM cap ⟨p, v, q, w, toRight, []⟩ s' := by
  obtain ⟨hr, -, -, -⟩ := he
  obtain ⟨_, -, hnil, -⟩ | ⟨q', w', hs⟩ | ⟨_, _, _, _, hb, -⟩ | ⟨b', _, q', w', hb, hs⟩ |
    ⟨hb, -⟩ := hr
  · simp at hnil
  · exact ⟨_, .right hs ⟨rfl, rfl⟩⟩
  · simp at hb
  · exact ⟨_, .right hs ⟨rfl, rfl, hcap⟩⟩
  · simp at hb

/-- The right program can take a step when the left one has returned. -/
theorem right_moves_of_returned {a : α} (he : Party.Keeps HM QM [Item.fin] q w) :
    ∃ s', Step HL HM cap ⟨.ret a, v, q, w, [], toLeft⟩ s' := by
  obtain ⟨hr, -, -, -⟩ := he
  obtain ⟨_, -, hnil, -⟩ | ⟨q', w', hs⟩ | ⟨_, _, _, _, hb, -⟩ | ⟨_, _, _, _, hb, -⟩ |
    ⟨-, q', w', hs⟩ := hr
  · simp at hnil
  · exact ⟨_, .right hs ⟨rfl, rfl⟩⟩
  · simp at hb
  · simp at hb
  · exact ⟨_, .right hs ⟨rfl, ⟨a, rfl⟩, rfl, rfl⟩⟩

/-- Two programs in step with each other have returned, or one of them can go on. -/
theorem InSync.progress (hcap : 0 < cap) (h : InSync p d e toRight toLeft) (hfin : Item.fin ∉ d)
    (hd : Party.Keeps HL QL d p v) (he : Party.Keeps HM QM e q w) :
    (∃ a b, p = .ret a ∧ q = .ret b ∧ toRight = [] ∧ toLeft = [] ∧ QL a v ∧ QM b w) ∨
      ∃ s', Step HL HM cap ⟨p, v, q, w, toRight, toLeft⟩ s' := by
  obtain ⟨hr, -, -, -⟩ := hd
  obtain ⟨a, rfl, rfl, ha⟩ | ⟨p', v', hs⟩ | ⟨b, d', p', v', rfl, hs⟩ | ⟨b, d', p', v', rfl, hs⟩ |
    ⟨rfl, -⟩ := hr
  · -- the left program has returned: the right one has the rest of the queue to read
    generalize hd₀ : ([] : List (Item B)) = d₀ at h
    cases h with
    | ahead =>
      subst hd₀
      cases toRight with
      | nil => exact .inr (right_moves_of_returned he)
      | cons b toRight => exact .inr (right_moves_of_queued he)
    | @behind d =>
      obtain ⟨hl, rfl⟩ := List.append_eq_nil_iff.1 hd₀.symm
      exact .inr (right_moves_of_returned he)
    | finished =>
      obtain ⟨hr, -, -, -⟩ := he
      obtain ⟨b, rfl, -, hb⟩ | ⟨q', w', hs⟩ | ⟨_, _, _, _, hb, -⟩ | ⟨_, _, _, _, hb, -⟩ |
        ⟨hb, -⟩ := hr
      · exact .inl ⟨a, b, rfl, rfl, rfl, rfl, ha, hb⟩
      · exact .inr ⟨_, .right hs ⟨rfl, rfl⟩⟩
      · simp at hb
      · simp at hb
      · simp at hb
  · exact .inr ⟨_, .left hs ⟨rfl, rfl⟩⟩
  · -- the left program wants to read: from its queue, or after a step of the right one
    refine .inr ?_
    generalize hd₀ : Item.inp b :: d' = d₀ at h
    cases h with
    | ahead =>
      subst hd₀
      cases toRight with
      | nil => exact right_moves_of_out hcap he
      | cons c toRight => exact right_moves_of_queued he
    | @behind d =>
      cases toLeft with
      | nil =>
        simp only [List.map_nil, List.nil_append] at hd₀
        subst hd₀
        exact right_moves_of_out hcap he
      | cons c toLeft =>
        simp only [List.map_cons, List.cons_append, List.cons.injEq, Item.inp.injEq] at hd₀
        obtain ⟨rfl, -⟩ := hd₀
        exact ⟨_, .left hs ⟨rfl, rfl⟩⟩
    | finished => simp at hd₀
  · -- the left program wants to write: into the queue, unless the right one has to read first
    refine .inr ?_
    by_cases hroom : toRight = []
    · subst hroom
      exact ⟨_, .left hs ⟨rfl, rfl, hcap⟩⟩
    · obtain ⟨c, toRight, rfl⟩ := List.exists_cons_of_ne_nil hroom
      generalize hd₀ : Item.out b :: d' = d₀ at h
      cases h with
      | ahead => exact right_moves_of_queued he
  · simp at hfin

/-- **Programs that follow dual scripts run to their ends**, in every order of their steps, for
every size of the chunks and of the queues. -/
theorem must_of_follows (hcap : 0 < cap) (hfin : Item.fin ∉ d)
    (hd : Follows HL (fun a v d => d = [] ∧ QL a v) d p v)
    (he : Follows HM (fun b w e => e = [] ∧ QM b w) (d.map .dual ++ [Item.fin]) q w) :
    Must HL HM cap (fun a v b w => QL a v ∧ QM b w) ⟨p, v, q, w, [], []⟩ := by
  suffices hmain : ∀ {d p v}, Party.Keeps HL QL d p v → ∀ {e q w}, Party.Keeps HM QM e q w →
      ∀ {toRight toLeft}, Item.fin ∉ d → InSync p d e toRight toLeft →
        Must HL HM cap (fun a v b w => QL a v ∧ QM b w) ⟨p, v, q, w, toRight, toLeft⟩ from
    hmain hd.keeps he.keeps hfin (@InSync.ahead _ _ _ _ p d [])
  intro d p v hd
  induction hd with
  | @intro d p v hr hp hqu hnext ihd =>
    intro e q w he
    induction he with
    | @intro e q w hr' hp' hqu' hnext' ihe =>
      intro toRight toLeft hfin hsync
      have hd : Party.Keeps HL QL d p v := .intro hr hp hqu hnext
      have he : Party.Keeps HM QM e q w := .intro hr' hp' hqu' hnext'
      obtain ⟨a, b, rfl, rfl, rfl, rfl, ha, hb⟩ | hex := hsync.progress hcap hfin hd he
      · exact .done ⟨ha, hb⟩
      · refine .step hex ?_
        rintro s' (⟨hs, hq⟩ | ⟨hs, hq⟩)
        · obtain ⟨d', rfl, hsync'⟩ := hsync.left_step hd he hs hq
          refine ihd _ d' _ _ hs rfl he ?_ hsync'
          intro hmem
          exact hfin (List.mem_append_right _ hmem)
        · obtain ⟨e', rfl, hsync'⟩ := hsync.right_step hd he hs hq
          exact ihe _ e' _ _ hs rfl hfin hsync'

theorem Must.mono {Q Q' : α → V → β → W → Prop} {s : Net B RL RM V W α β}
    (h : Must HL HM cap Q s) (hQ : ∀ a v b w, Q a v b w → Q' a v b w) : Must HL HM cap Q' s := by
  induction h with
  | done h => exact .done (hQ _ _ _ _ h)
  | step hex _ ih => exact .step hex ih

/-- A run of both programs is a run of the right one on the stream that the left one sends. -/
theorem Must.exists_right_eval {Q : α → V → β → W → Prop} {s : Net B RL RM V W α β}
    (h : Must HL HM cap Q s) (sent : List B) :
    ∃ a v b w rest sent', Q a v b w ∧ ((∃ a, s.left = .ret a) → rest = []) ∧
      Prog.Eval (SocketProg.Answers HM) s.right ⟨s.rightWorld, s.toRight ++ rest, sent⟩ b
        ⟨w, [], sent'⟩ := by
  induction h generalizing sent with
  | @done a v b w hq => exact ⟨a, v, b, w, [], sent, hq, fun _ => rfl, .ret _ _⟩
  | @step s hex _ ih =>
    obtain ⟨s', hs⟩ := hex
    cases id hs with
    | @left p p' v v' q w toRight toLeft toRight' toLeft' ev hp hq =>
      obtain ⟨a, v₁, b, w₁, rest, sent', hQ, -, heval⟩ := ih _ hs sent
      -- the left program takes a step, so it has not returned
      have hret : ¬ ∃ a, p = .ret a := by
        rintro ⟨a, rfl⟩
        cases hp
      cases ev with
      | tau =>
        obtain ⟨rfl, rfl⟩ := hq
        exact ⟨a, v₁, b, w₁, rest, sent', hQ, fun h => absurd h hret, heval⟩
      | got bs =>
        obtain ⟨rfl, rfl⟩ := hq
        exact ⟨a, v₁, b, w₁, rest, sent', hQ, fun h => absurd h hret, heval⟩
      | put bs =>
        obtain ⟨rfl, rfl, -⟩ := hq
        rw [List.append_assoc] at heval
        exact ⟨a, v₁, b, w₁, bs ++ rest, sent', hQ, fun h => absurd h hret, heval⟩
      | eof =>
        obtain ⟨rfl, -, rfl, rfl⟩ := hq
        exact ⟨a, v₁, b, w₁, rest, sent', hQ, fun h => absurd h hret, heval⟩
    | @right p v q q' w w' toRight toLeft toRight' toLeft' ev hp hq =>
      cases hp with
      | loc hloc =>
        obtain ⟨rfl, rfl⟩ := hq
        obtain ⟨a, v₁, b, w₁, rest, sent', hQ, hret, heval⟩ := ih _ hs sent
        exact ⟨a, v₁, b, w₁, rest, sent', hQ, hret, .call ⟨_, hloc, rfl⟩ heval⟩
      | loop =>
        obtain ⟨rfl, rfl⟩ := hq
        obtain ⟨a, v₁, b, w₁, rest, sent', hQ, hret, heval⟩ := ih _ hs sent
        exact ⟨a, v₁, b, w₁, rest, sent', hQ, hret, Prog.eval_unfold.1 heval⟩
      | @recv n k w bs h₀ hn =>
        obtain ⟨rfl, rfl⟩ := hq
        obtain ⟨a, v₁, b, w₁, rest, sent', hQ, hret, heval⟩ := ih _ hs sent
        have hans : SocketProg.Answers HM (.recv n) ⟨w, bs ++ toRight' ++ rest, sent⟩ (.ok bs)
            ⟨w, toRight' ++ rest, sent⟩ :=
          ⟨by rw [List.append_assoc], hn, fun h => absurd h h₀⟩
        exact ⟨a, v₁, b, w₁, rest, sent', hQ, hret, .call hans heval⟩
      | @eof n k w =>
        obtain ⟨rfl, hdone, rfl, rfl⟩ := hq
        obtain ⟨a, v₁, b, w₁, rest, sent', hQ, hret, heval⟩ := ih _ hs sent
        obtain rfl := hret hdone
        have hans : SocketProg.Answers HM (.recv n) ⟨w, [], sent⟩ (.ok []) ⟨w, [], sent⟩ :=
          ⟨rfl, Nat.zero_le _, fun _ => .inl rfl⟩
        exact ⟨a, v₁, b, w₁, [], sent', hQ, fun _ => rfl, .call hans heval⟩
      | @send bs rest k w h₀ =>
        obtain ⟨rfl, rfl, -⟩ := hq
        obtain ⟨a, v₁, b, w₁, rest', sent', hQ, hret, heval⟩ := ih _ hs (sent ++ bs)
        have hans : SocketProg.Answers HM (.send (bs ++ rest)) ⟨w, toRight' ++ rest', sent⟩
            (.ok bs.length) ⟨w, toRight' ++ rest', sent ++ bs⟩ := ⟨by simp, by simp⟩
        exact ⟨a, v₁, b, w₁, rest', sent', hQ, hret, .call hans heval⟩

end Sync

end Net

end Ps4Dropbear
