import Ps4Dropbear.Prog.Basic

/-!
# Programs on a stream socket

A program with one stream socket: it reads from the socket, writes to it, and makes calls of its
own (`loc`) that have nothing to do with the socket.  The elements of the stream are of any type
`B`.

`SocketProg.Answers` is the least one can say about a socket: a read returns a chunk of what the
peer sends, of any size up to the one asked for, and nothing only at the end of the stream; a
write takes any part of what is offered; and every call may fail and then has no effect.  The end
of the stream is where the peer stops sending, so a run with a shorter `incoming` is a run in
which the stream breaks off earlier.
-/

namespace Ps4Dropbear

/-- The values of `errno` that a caller tells apart. -/
inductive IoError
  | eintr
  | eagain
  | other
  deriving DecidableEq, Repr

/-- Calls of a program with a socket and calls `L` of its own. -/
inductive IoCall (B L : Type)
  | recv (n : ℕ)
  | send (bs : List B)
  | loc (l : L)

/-- What a call returns; a read returns no element at the end of the stream. -/
@[reducible] def IoCall.Answer {B L : Type} (RL : L → Type) : IoCall B L → Type
  | recv _ => Except IoError (List B)
  | send _ => Except IoError ℕ
  | loc l => RL l

/-- Programs with a stream socket. -/
abbrev SocketProg (B : Type) {L : Type} (RL : L → Type) (α : Type) : Type 1 :=
  Prog (IoCall B L) (IoCall.Answer RL) α

/-- The world of such a program: its own part, what the peer still sends, and what has been
written. -/
structure SocketWorld (W B : Type) where
  own : W
  incoming : List B
  sent : List B

namespace SocketProg

variable {B L : Type} {RL : L → Type} {W α : Type}

/-- `read` on the socket. -/
def recv (n : ℕ) : SocketProg B RL (Except IoError (List B)) := Prog.perform (IoCall.recv n)

/-- `send` on the socket. -/
def send (bs : List B) : SocketProg B RL (Except IoError ℕ) := Prog.perform (IoCall.send bs)

/-- A call of the program's own. -/
def loc (l : L) : SocketProg B RL (RL l) := Prog.perform (IoCall.loc l)

/-- The answers of a socket, with `HL` for the program's own calls. -/
def Answers (HL : (l : L) → W → RL l → W → Prop) :
    (c : IoCall B L) → SocketWorld W B → c.Answer RL → SocketWorld W B → Prop
  | .recv n, w, .ok bs, w' => w = { w' with incoming := bs ++ w'.incoming } ∧ bs.length ≤ n ∧
      (bs = [] → w.incoming = [] ∨ n = 0)
  | .recv _, w, .error _, w' => w' = w
  | .send bs, w, .ok n, w' => n ≤ bs.length ∧ w' = { w with sent := w.sent ++ bs.take n }
  | .send _, w, .error _, w' => w' = w
  | .loc l, w, r, w' => ∃ o, HL l w.own r o ∧ w' = { w with own := o }

/-- The answers when nothing fails and every call takes as much as it can. -/
def answer (h : (l : L) → W → RL l × W) :
    (c : IoCall B L) → SocketWorld W B → c.Answer RL × SocketWorld W B
  | .recv n, w => (.ok (w.incoming.take n), { w with incoming := w.incoming.drop n })
  | .send bs, w => (.ok bs.length, { w with sent := w.sent ++ bs })
  | .loc l, w => ((h l w.own).1, { w with own := (h l w.own).2 })

theorem answers_answer {HL : (l : L) → W → RL l → W → Prop} {h : (l : L) → W → RL l × W}
    (hH : ∀ l w, HL l w (h l w).1 (h l w).2) (c : IoCall B L) (w : SocketWorld W B) :
    Answers HL c w (answer h c w).1 (answer h c w).2 := by
  cases c with
  | recv n =>
    refine ⟨?_, List.length_take_le _ _, ?_⟩
    · simp [answer]
    · intro h
      exact (List.take_eq_nil_iff.1 h).symm
  | send bs =>
    refine ⟨Nat.le_refl _, ?_⟩
    simp [answer]
  | loc l => exact ⟨_, hH l w.own, rfl⟩

theorem Answers.mono {HL HL' : (l : L) → W → RL l → W → Prop}
    (hH : ∀ l w r w', HL l w r w' → HL' l w r w') {c : IoCall B L} {w w' : SocketWorld W B}
    {r : c.Answer RL} (h : Answers HL c w r w') : Answers HL' c w r w' := by
  cases c with
  | recv n => cases r <;> exact h
  | send bs => cases r <;> exact h
  | loc l =>
    obtain ⟨o, ho, hw⟩ := h
    exact ⟨o, hH l _ r o ho, hw⟩

end SocketProg

end Ps4Dropbear
