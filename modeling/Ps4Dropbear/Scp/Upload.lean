import Ps4Dropbear.Scp.Serve

/-!
# One upload

What the functions of `ps4-scp.c` that receive do in an environment in which everything but `stat`
and `unlink` may fail at any time: one inversion lemma for each loop body, one specification for
each function.

* `ScpProg.readLine_eval`, `ScpProg.readAll_eval` : what is taken off the stream.
* `ScpProg.receiveFile_eval` : the outcomes of `receive_file`.
* `ScpProg.receiveFile_atomic` : the destination is as it was or complete, and no temporary file
  is left behind.
-/

namespace Ps4Dropbear

/-- The world of the worker. -/
abbrev ScpWorld := SocketWorld Files UInt8

namespace ScpProg

/-- Calls that write to the socket. -/
def Sends : IoCall UInt8 FileCall → Prop
  | .send _ => True
  | _ => False

/-- The worker in an environment in which everything but `stat` and `unlink` may fail. -/
abbrev Evals {α : Type} (p : ScpProg α) (w : ScpWorld) (a : α) (w' : ScpWorld) : Prop :=
  Prog.Eval (SocketProg.Answers FileCall.May) p w a w'

theorem writeAll_only (data : Bytes) : (writeAll data).Only Sends := by
  refine ⟨?_, fun _ => trivial⟩
  rintro ⟨bytes, retries⟩
  by_cases hb : bytes = []
  · simp only [writeAllBody, if_pos hb]
    trivial
  · simp only [writeAllBody, if_neg hb]
    refine ⟨trivial, ?_⟩
    rintro (e | sent)
    · trivial
    · by_cases hz : sent = 0
      · simp [hz, Prog.Only]
      · simp [hz, Prog.Only]

theorem sendStatus_only (status : UInt8) (message : Option Bytes) :
    (sendStatus status message).Only Sends := by
  refine (writeAll_only _).bind fun r => ?_
  split
  · trivial
  · split
    · trivial
    · split
      · trivial
      · refine (writeAll_only _).bind fun r => ?_
        split
        · trivial
        · refine (writeAll_only _).bind fun r => ?_
          split <;> trivial

/-- Writing to the socket changes nothing else. -/
theorem sends_frame {α : Type} {p : ScpProg α} (hp : p.Only Sends) {w w' : ScpWorld} {a : α}
    (h : Evals p w a w') : w'.own = w.own ∧ w'.incoming = w.incoming := by
  let f := fun w : ScpWorld => (w.own, w.incoming)
  have hframe : f w' = f w := by
    refine hp.eval_eq ?_ h
    rintro (n | bs | l) w₁ r w₂ hc hr
    · exact hc.elim
    · cases r with
      | error e => rw [show w₂ = w₁ from hr]
      | ok n => rw [hr.2]
    · exact hc.elim
  simpa [f] using hframe

theorem sendStatus_frame {status : UInt8} {message : Option Bytes} {w w' : ScpWorld} {r : ℤ}
    (h : Evals (sendStatus status message) w r w') :
    w'.own = w.own ∧ w'.incoming = w.incoming :=
  sends_frame (sendStatus_only status message) h

/-- One round of `read_line`. -/
theorem readLineBody_cases {size retries : ℕ} {line : Bytes} {w w' : ScpWorld}
    {x : (Bytes × ℕ) ⊕ LineStatus} (h : Evals (readLineBody size (line, retries)) w x w') :
    (∃ r, x = .inl (line, r) ∧ w' = w) ∨ (x = .inr .error ∧ w' = w) ∨
      (x = .inr .eof ∧ line = [] ∧ w.incoming = [] ∧ w' = w) ∨
      ∃ c, w = { w' with incoming := c :: w'.incoming } ∧ line.length + 1 < size ∧
        ((c = 10 ∧ x = .inr (.line (line ++ [c]))) ∨ (c ≠ 10 ∧ x = .inl (line ++ [c], 0))) := by
  by_cases hs : line.length + 1 < size
  · simp only [readLineBody, if_pos hs] at h
    obtain ⟨r, w₁, hr, hk⟩ := Prog.eval_perform_bind.1 h
    match r, hr, hk with
    | .error e, hr, hk =>
      obtain rfl : w₁ = w := hr
      obtain ⟨rfl, rfl⟩ := Prog.eval_ret.1 hk
      obtain ⟨r, hr⟩ | hr := retryOr_cases (fun r => (line, r)) LineStatus.error retries e
      · exact .inl ⟨r, hr, rfl⟩
      · exact .inr (.inl ⟨hr, rfl⟩)
    | .ok [], hr, hk =>
      obtain ⟨hw, -, hnil⟩ := hr
      obtain ⟨rfl, rfl⟩ := Prog.eval_ret.1 hk
      have hin : w.incoming = [] := (hnil rfl).resolve_right (by decide)
      by_cases hl : line = []
      · exact .inr (.inr (.inl ⟨by rw [if_pos hl], hl, hin, hw.symm⟩))
      · exact .inr (.inl ⟨by rw [if_neg hl], hw.symm⟩)
    | .ok (c :: cs), hr, hk =>
      obtain ⟨hw, hle, -⟩ := hr
      obtain rfl : cs = [] := by simpa using hle
      by_cases hc : c = 10
      · obtain ⟨rfl, rfl⟩ : x = .inr (.line (line ++ [c])) ∧ w' = w₁ := by simpa [hc] using hk
        exact .inr (.inr (.inr ⟨c, hw, hs, .inl ⟨hc, rfl⟩⟩))
      · obtain ⟨rfl, rfl⟩ : x = .inl (line ++ [c], 0) ∧ w' = w₁ := by simpa [hc] using hk
        exact .inr (.inr (.inr ⟨c, hw, hs, .inr ⟨hc, rfl⟩⟩))
  · simp only [readLineBody, if_neg hs] at h
    obtain ⟨rfl, rfl⟩ := Prog.eval_ret.1 h
    exact .inr (.inl ⟨rfl, rfl⟩)

/-- `read_line` takes a line off the stream, or sees its end, or fails. -/
theorem readLine_eval {size : ℕ} {w w' : ScpWorld} {x : LineStatus}
    (h : Evals (readLine size) w x w') :
    (∃ l, x = .line (l ++ [10]) ∧ 10 ∉ l ∧
      w = { w' with incoming := l ++ [10] ++ w'.incoming }) ∨
      (x = .eof ∧ w.incoming = [] ∧ w' = w) ∨ (x = .error ∧ w'.own = w.own) := by
  obtain ⟨⟨line, retries⟩, w₁, y, w₂, ⟨hw, hline⟩, hb, hk⟩ := Prog.eval_loop_invariant
    (fun (s : Bytes × ℕ) w₁ => w = { w₁ with incoming := s.1 ++ w₁.incoming } ∧ 10 ∉ s.1) h
    ⟨rfl, by simp⟩ (by
      rintro ⟨line, retries⟩ ⟨line', retries'⟩ w₁ w₂ ⟨hw, hline⟩ hb
      obtain ⟨r, hx, rfl⟩ | ⟨hx, -⟩ | ⟨hx, -⟩ | ⟨c, hc, -, ⟨-, hx⟩ | ⟨hne, hx⟩⟩ :=
        readLineBody_cases hb
      · cases hx
        exact ⟨hw, hline⟩
      · cases hx
      · cases hx
      · cases hx
      · cases hx
        refine ⟨?_, by simp [hline, hne.symm]⟩
        rw [hw, hc]
        simp)
  obtain ⟨rfl, rfl⟩ := Prog.eval_ret.1 hk
  obtain ⟨r, hx, -⟩ | ⟨hx, rfl⟩ | ⟨hx, rfl, hin, rfl⟩ | ⟨c, hc, -, ⟨rfl, hx⟩ | ⟨hne, hx⟩⟩ :=
    readLineBody_cases hb
  · cases hx
  · cases hx
    exact .inr (.inr ⟨rfl, by rw [hw]⟩)
  · cases hx
    obtain rfl : w = w' := hw
    exact .inr (.inl ⟨rfl, hin, rfl⟩)
  · cases hx
    refine .inl ⟨line, rfl, hline, ?_⟩
    rw [hw, hc]
    simp
  · cases hx

/-- One round of `read_all`. -/
theorem readAllBody_cases {len retries : ℕ} {data : Bytes} {w w' : ScpWorld}
    {x : (Bytes × ℕ) ⊕ Option Bytes} (h : Evals (readAllBody len (data, retries)) w x w') :
    (∃ r, x = .inl (data, r) ∧ w' = w) ∨ (x = .inr none ∧ w' = w) ∨
      (x = .inr (some data) ∧ len ≤ data.length ∧ w' = w) ∨
      ∃ got, w = { w' with incoming := got ++ w'.incoming } ∧ data.length + got.length ≤ len ∧
        x = .inl (data ++ got, 0) := by
  by_cases hs : data.length ≥ len
  · simp only [readAllBody, if_pos hs] at h
    obtain ⟨rfl, rfl⟩ := Prog.eval_ret.1 h
    exact .inr (.inr (.inl ⟨rfl, hs, rfl⟩))
  · simp only [readAllBody, if_neg hs] at h
    obtain ⟨r, w₁, hr, hk⟩ := Prog.eval_perform_bind.1 h
    match r, hr, hk with
    | .error e, hr, hk =>
      obtain rfl : w₁ = w := hr
      obtain ⟨rfl, rfl⟩ := Prog.eval_ret.1 hk
      obtain ⟨r, hr⟩ | hr := retryOr_cases (fun r => (data, r)) (none : Option Bytes) retries e
      · exact .inl ⟨r, hr, rfl⟩
      · exact .inr (.inl ⟨hr, rfl⟩)
    | .ok got, hr, hk =>
      obtain ⟨hw, hle, -⟩ := hr
      by_cases hg : got = []
      · subst hg
        obtain ⟨rfl, rfl⟩ : x = .inr none ∧ w' = w₁ := by simpa using hk
        exact .inr (.inl ⟨rfl, hw.symm⟩)
      · obtain ⟨rfl, rfl⟩ : x = .inl (data ++ got, 0) ∧ w' = w₁ := by simpa [hg] using hk
        exact .inr (.inr (.inr ⟨got, hw, by omega, rfl⟩))

/-- `read_all` takes as many bytes off the stream as it is asked for, or fails. -/
theorem readAll_eval {len : ℕ} {w w' : ScpWorld} {x : Option Bytes}
    (h : Evals (readAll len) w x w') :
    ∃ data, w = { w' with incoming := data ++ w'.incoming } ∧
      (x = none ∨ (x = some data ∧ data.length = len)) := by
  obtain ⟨⟨data, retries⟩, w₁, y, w₂, ⟨hw, hdata⟩, hb, hk⟩ := Prog.eval_loop_invariant
    (fun (s : Bytes × ℕ) w₁ => w = { w₁ with incoming := s.1 ++ w₁.incoming } ∧
      s.1.length ≤ len) h ⟨rfl, Nat.zero_le _⟩ (by
      rintro ⟨data, retries⟩ ⟨data', retries'⟩ w₁ w₂ ⟨hw, hdata⟩ hb
      obtain ⟨r, hx, rfl⟩ | ⟨hx, -⟩ | ⟨hx, -⟩ | ⟨got, hgot, hle, hx⟩ := readAllBody_cases hb
      · cases hx
        exact ⟨hw, hdata⟩
      · cases hx
      · cases hx
      · cases hx
        refine ⟨?_, by simpa using hle⟩
        rw [hw, hgot]
        simp)
  obtain ⟨rfl, rfl⟩ := Prog.eval_ret.1 hk
  obtain ⟨r, hx, -⟩ | ⟨hx, rfl⟩ | ⟨hx, hlen, rfl⟩ | ⟨got, -, -, hx⟩ := readAllBody_cases hb
  · cases hx
  · cases hx
    exact ⟨data, hw, .inl rfl⟩
  · cases hx
    exact ⟨data, hw, .inr ⟨rfl, Nat.le_antisymm hdata hlen⟩⟩
  · cases hx

/-! ### One file -/

section Upload

variable {temporary : Bytes} (f : Files) (m : ℕ)

/-- One round of the loop that writes to the temporary file, which holds `c` before it. -/
theorem writeOutBody_cases {c rest : Bytes} {w w' : ScpWorld} {x : Bytes ⊕ Bool}
    (ht : temporary ≠ []) (hown : w.own = f.set temporary (some (.file c m)))
    (h : Evals (writeOutBody temporary rest) w x w') :
    (x = .inr false ∧ rest = [] ∧ w' = w) ∨ (x = .inr true ∧ w' = w) ∨
      ∃ n, x = .inl (rest.drop n) ∧
        w' = { w with own := f.set temporary (some (.file (c ++ rest.take n) m)) } := by
  by_cases hr : rest = []
  · simp only [writeOutBody, if_pos hr] at h
    obtain ⟨rfl, rfl⟩ := Prog.eval_ret.1 h
    exact .inl ⟨rfl, hr, rfl⟩
  · simp only [writeOutBody, if_neg hr] at h
    obtain ⟨r, w₁, ⟨o, hmay, rfl⟩, hk⟩ := Prog.eval_perform_bind.1 h
    have happ (n : ℕ) : w.own.append temporary (rest.take n) =
        f.set temporary (some (.file (c ++ rest.take n) m)) := by
      rw [hown, Files.append_set ht]
    have hsame : w = { w with
        own := f.set temporary (some (.file (c ++ rest.take 0) m)) } := by
      rw [List.take_zero, List.append_nil, ← hown]
    obtain ⟨n, hn, hn0, rfl, rfl⟩ | ⟨-, ⟨e, rfl⟩ | rfl, rfl⟩ := hmay
    · have hne : n ≠ 0 := fun h0 => hr (hn0 h0)
      obtain ⟨rfl, rfl⟩ : x = .inl (rest.drop n) ∧ w' = _ := by simpa [hne] using hk
      exact .inr (.inr ⟨n, rfl, by rw [happ]⟩)
    · cases e with
      | eintr =>
        obtain ⟨rfl, rfl⟩ := Prog.eval_ret.1 hk
        exact .inr (.inr ⟨0, rfl, hsame⟩)
      | eagain =>
        obtain ⟨rfl, rfl⟩ := Prog.eval_ret.1 hk
        exact .inr (.inl ⟨rfl, rfl⟩)
      | other =>
        obtain ⟨rfl, rfl⟩ := Prog.eval_ret.1 hk
        exact .inr (.inl ⟨rfl, rfl⟩)
    · obtain ⟨rfl, rfl⟩ : x = .inr true ∧ w' = _ := by simpa using hk
      exact .inr (.inl ⟨rfl, rfl⟩)

/-- The temporary file has grown by all of a chunk, or the loop has failed. -/
theorem writeOut_eval {c got : Bytes} {w w' : ScpWorld} {failed : Bool} (ht : temporary ≠ [])
    (hown : w.own = f.set temporary (some (.file c m)))
    (h : Evals (Prog.iterate (writeOutBody temporary) got) w failed w') :
    ∃ bs, w' = { w with own := f.set temporary (some (.file (c ++ bs) m)) } ∧
      (failed = false → bs = got) := by
  obtain ⟨rest, w₁, y, w₂, ⟨bs, hbs, hw⟩, hb, hk⟩ := Prog.eval_loop_invariant
    (fun rest w₁ => ∃ bs, got = bs ++ rest ∧
      w₁ = { w with own := f.set temporary (some (.file (c ++ bs) m)) }) h
    ⟨[], rfl, by rw [List.append_nil, ← hown]⟩ (by
      rintro rest rest' w₁ w₂ ⟨bs, hbs, rfl⟩ hb
      obtain ⟨hx, -⟩ | ⟨hx, -⟩ | ⟨n, hx, rfl⟩ := writeOutBody_cases f m ht rfl hb
      · cases hx
      · cases hx
      · cases hx
        refine ⟨bs ++ rest.take n, ?_, by rw [List.append_assoc]⟩
        rw [List.append_assoc, List.take_append_drop, hbs])
  obtain ⟨rfl, rfl⟩ := Prog.eval_ret.1 hk
  subst hw
  obtain ⟨hx, rfl, rfl⟩ | ⟨hx, rfl⟩ | ⟨n, hx, -⟩ := writeOutBody_cases f m ht rfl hb
  · exact ⟨bs, rfl, fun _ => by rw [hbs, List.append_nil]⟩
  · cases hx
    exact ⟨bs, rfl, fun h => by cases h⟩
  · cases hx

/-- One round of the loop over the data of a file. -/
theorem receiveDataBody_cases {c : Bytes} {remaining retries : ℕ} {w w' : ScpWorld}
    {x : (ℕ × ℕ) ⊕ Bool} (ht : temporary ≠ []) (hown : w.own = f.set temporary (some (.file c m)))
    (h : Evals (receiveDataBody temporary (remaining, retries)) w x w') :
    (x = .inr false ∧ remaining = 0 ∧ w' = w) ∨
      (x = .inr true ∧ ∃ bs, w'.own = f.set temporary (some (.file (c ++ bs) m))) ∨
      ∃ bs r, x = .inl (remaining - bs.length, r) ∧ bs.length ≤ remaining ∧
        w'.own = f.set temporary (some (.file (c ++ bs) m)) ∧
        w.incoming = bs ++ w'.incoming := by
  by_cases hr : remaining = 0
  · simp only [receiveDataBody, if_pos hr] at h
    obtain ⟨rfl, rfl⟩ := Prog.eval_ret.1 h
    exact .inl ⟨rfl, hr, rfl⟩
  · simp only [receiveDataBody, if_neg hr] at h
    have hnil : w.own = f.set temporary (some (.file (c ++ []) m)) := by
      rw [hown, List.append_nil]
    obtain ⟨r, w₁, hr, hk⟩ := Prog.eval_perform_bind.1 h
    match r, hr, hk with
    | .error e, hr, hk =>
      obtain rfl : w₁ = w := hr
      obtain ⟨rfl, rfl⟩ := Prog.eval_ret.1 hk
      obtain ⟨r, hr⟩ | hr := retryOr_cases (fun r => (remaining, r)) true retries e
      · exact .inr (.inr ⟨[], r, hr, Nat.zero_le _, hnil, rfl⟩)
      · exact .inr (.inl ⟨hr, [], hnil⟩)
    | .ok got, hr, hk =>
      obtain ⟨hw, hle, -⟩ := hr
      have hin : w.incoming = got ++ w₁.incoming := by rw [hw]
      have hown₁ : w₁.own = f.set temporary (some (.file c m)) := by rw [← hown, hw]
      by_cases hg : got = []
      · obtain ⟨rfl, rfl⟩ : x = .inr true ∧ w' = w₁ := by simpa [hg] using hk
        exact .inr (.inl ⟨rfl, [], by rw [hown₁, List.append_nil]⟩)
      · simp only [if_neg hg] at hk
        obtain ⟨failed, w₂, hout, hk⟩ := Prog.eval_bind.1 hk
        obtain ⟨bs, rfl, hbs⟩ := writeOut_eval f m ht hown₁ hout
        cases failed with
        | true =>
          obtain ⟨rfl, rfl⟩ := Prog.eval_ret.1 hk
          exact .inr (.inl ⟨rfl, bs, rfl⟩)
        | false =>
          obtain ⟨rfl, rfl⟩ := Prog.eval_ret.1 hk
          obtain rfl := hbs rfl
          exact .inr (.inr ⟨bs, 0, rfl, by omega, rfl, hin⟩)

/-- The temporary file holds the announced number of bytes and a zero byte has followed them, or
the transfer has failed. -/
theorem receiveData_eval {size : ℕ} {w w' : ScpWorld} {failed : Bool} (ht : temporary ≠ [])
    (hown : w.own = f.set temporary (some (.file [] m)))
    (h : Evals (receiveData temporary size) w failed w') :
    ∃ data, w'.own = f.set temporary (some (.file data m)) ∧
      (failed = false → data.length = size ∧ w.incoming = data ++ 0 :: w'.incoming) := by
  obtain ⟨lost, w₁, hloop, hrest⟩ := Prog.eval_bind.1 h
  have hdata : ∃ data, w₁.own = f.set temporary (some (.file data m)) ∧
      (lost = false → data.length = size ∧ w.incoming = data ++ w₁.incoming) := by
    obtain ⟨⟨remaining, retries⟩, w₂, y, w₃, ⟨data, hw, hlen, hin⟩, hb, hk⟩ :=
      Prog.eval_loop_invariant (fun (s : ℕ × ℕ) w₂ => ∃ data,
        w₂.own = f.set temporary (some (.file data m)) ∧ data.length + s.1 = size ∧
          w.incoming = data ++ w₂.incoming) hloop ⟨[], hown, Nat.zero_add _, rfl⟩ (by
        rintro ⟨remaining, retries⟩ ⟨remaining', retries'⟩ w₂ w₃ ⟨data, hw, hlen, hin⟩ hb
        obtain ⟨hx, -⟩ | ⟨hx, -⟩ | ⟨bs, r, hx, hle, hown', hin'⟩ :=
          receiveDataBody_cases f m ht hw hb
        · cases hx
        · cases hx
        · cases hx
          refine ⟨data ++ bs, hown', ?_, by rw [hin, hin', List.append_assoc]⟩
          simp only [List.length_append]
          omega)
    obtain ⟨rfl, rfl⟩ := Prog.eval_ret.1 hk
    obtain ⟨hx, rfl, rfl⟩ | ⟨hx, bs, hown'⟩ | ⟨bs, r, hx, -⟩ := receiveDataBody_cases f m ht hw hb
    · exact ⟨data, hw, fun _ => ⟨hlen, hin⟩⟩
    · cases hx
      exact ⟨_, hown', fun h => by cases h⟩
    · cases hx
  obtain ⟨data, hown₁, hlost⟩ := hdata
  cases lost with
  | true =>
    obtain ⟨rfl, rfl⟩ := Prog.eval_ret.1 hrest
    exact ⟨data, hown₁, fun h => by cases h⟩
  | false =>
    obtain ⟨hlen, hin⟩ := hlost rfl
    obtain ⟨x, w₂, hread, hk⟩ := Prog.eval_bind.1 hrest
    obtain ⟨last, hw₁, hx⟩ := readAll_eval hread
    have hown₂ : w₂.own = f.set temporary (some (.file data m)) := by rw [← hown₁, hw₁]
    have hin₁ : w₁.incoming = last ++ w₂.incoming := by rw [hw₁]
    obtain rfl | ⟨rfl, hlast⟩ := hx
    · obtain ⟨rfl, rfl⟩ := Prog.eval_ret.1 hk
      exact ⟨data, hown₂, fun h => by cases h⟩
    · obtain ⟨z, rfl⟩ := List.length_eq_one_iff.1 hlast
      by_cases hz : z = 0
      · subst hz
        obtain ⟨rfl, rfl⟩ := Prog.eval_ret.1 hk
        exact ⟨data, hown₂, fun _ => ⟨hlen, by rw [hin, hin₁]; rfl⟩⟩
      · have hk : Evals (pure true : ScpProg Bool) w₂ failed w' := by
          simpa [hz] using hk
        obtain ⟨rfl, rfl⟩ := Prog.eval_ret.1 hk
        exact ⟨data, hown₂, fun h => by cases h⟩

end Upload

theorem temporaryPath_ne_nil (path : Bytes) : temporaryPath path ≠ [] := by
  simp [temporaryPath, ascii]

theorem temporaryPath_ne (path : Bytes) : temporaryPath path ≠ path := by
  intro h
  have := congrArg List.length h
  simp [temporaryPath, ascii] at this

/-- What an upload to `path` leaves of the file system when it has not replaced the destination:
only the temporary name may have changed. -/
def Abandoned (path : Bytes) (w w' : Files) : Prop :=
  ∀ p, p ≠ temporaryPath path → w'.lookup p = w.lookup p

/-- What a complete upload of `data` to `path` leaves.  It has had a temporary file, so there was
room for its name. -/
structure Stored (path data : Bytes) (w w' : Files) : Prop where
  pathFits : (temporaryPath path).length < ps4ScpPathMax
  nameFits : (baseName (temporaryPath path)).length ≤ nameMax
  other : ∀ p, p ≠ path → p ≠ temporaryPath path → w'.lookup p = w.lookup p
  temporary : w'.lookup (temporaryPath path) = none
  destination : ∃ mode, w'.lookup path = some (.file data mode)

theorem unlink_eval {α : Type} {p : Bytes} {k : Except IoError Unit → ScpProg α} {w w' : ScpWorld}
    {a : α} (h : Evals ((file (.unlink p)).bind k) w a w') :
    ∃ r, Evals (k r) { w with own := (w.own.unlink p).getD w.own } a w' := by
  obtain ⟨r, w₁, ⟨o, hmay, rfl⟩, hk⟩ := Prog.eval_perform_bind.1 h
  refine ⟨r, ?_⟩
  obtain hworks | ⟨⟨⟩, -⟩ := hmay
  simp only [FileCall.Works, FileCall.Settles] at hworks
  split at hworks
  · next w₂ hu =>
    obtain ⟨-, rfl⟩ := hworks
    rw [hu]
    exact hk
  · next hu =>
    obtain ⟨-, rfl⟩ := hworks
    rw [hu]
    exact hk

/-- The file system after the first `unlink` of `receive_file`. -/
theorem unlinked_lookup {path p : Bytes} {w : Files} (hp : p ≠ path) :
    ((w.unlink path).getD w).lookup p = w.lookup p := by
  cases hu : w.unlink path with
  | none => rfl
  | some w' =>
    rw [Option.getD_some, Files.unlink_eq_some hu, Files.lookup_set_of_ne hp]

/-- A temporary file that is given up is removed. -/
theorem discard_eval {path c : Bytes} {m : ℕ} {g : Files} {w w' : ScpWorld} {r : ℤ}
    (hown : w.own = g.set (temporaryPath path) (some (.file c m)))
    (h : Evals ((file (.unlink (temporaryPath path))).bind fun _ => pure (-1)) w r w') :
    r = -1 ∧ w'.own = g.set (temporaryPath path) none := by
  obtain ⟨-, h⟩ := unlink_eval h
  obtain ⟨rfl, rfl⟩ := Prog.eval_ret.1 h
  refine ⟨rfl, ?_⟩
  rw [hown, Files.unlink_set_file (temporaryPath_ne_nil path), Option.getD_some]

/-- The end of `receive_file`: the temporary file is removed or has become the destination. -/
theorem finishFile_eval {path c : Bytes} {m : ℕ} {failed : Bool} {g : Files} {w w' : ScpWorld}
    {r : ℤ} (hown : w.own = g.set (temporaryPath path) (some (.file c m)))
    (h : Evals (finishFile path failed) w r w') :
    (r = -1 ∧ w'.own = g.set (temporaryPath path) none) ∨
      (failed = false ∧ w'.incoming = w.incoming ∧ path ≠ [] ∧
        w'.own = (g.set (temporaryPath path) none).set path (some (.file c m))) := by
  obtain ⟨closed, w₁, ⟨o, hmay, rfl⟩, hk⟩ := Prog.eval_perform_bind.1 h
  have ho : o = w.own := by
    obtain ⟨-, rfl⟩ | ⟨-, -, rfl⟩ := hmay <;> rfl
  subst ho
  match closed, failed, hk with
  | .error e, _, hk => exact .inl (discard_eval hown hk)
  | .ok (), true, hk => exact .inl (discard_eval hown hk)
  | .ok (), false, hk =>
    obtain ⟨renamed, w₂, ⟨o, hmay, rfl⟩, hk⟩ := Prog.eval_perform_bind.1 hk
    match renamed, hmay, hk with
    | .error e, hmay, hk =>
      have ho : o = w.own := by
        obtain hworks | ⟨-, -, rfl⟩ := hmay
        · simp only [FileCall.Works, FileCall.Settles] at hworks
          split at hworks
          · cases hworks.1
          · exact hworks.2
        · rfl
      subst ho
      exact .inl (discard_eval hown hk)
    | .ok (), hmay, hk =>
      have hrename : w.own.rename (temporaryPath path) path = some o := by
        obtain hworks | ⟨-, ⟨e, he⟩, -⟩ := hmay
        · simp only [FileCall.Works, FileCall.Settles] at hworks
          split at hworks
          · next hr => rw [hr, hworks.2]
          · cases hworks.1
        · cases he
      rw [hown] at hrename
      obtain ⟨hpath, rfl⟩ :=
        Files.rename_set_file (temporaryPath_ne_nil path) (temporaryPath_ne path) hrename
      obtain ⟨hown', hin'⟩ := sendStatus_frame hk
      exact .inr ⟨rfl, hin', hpath, hown'⟩

/-- The start of `receive_file`: nothing but the temporary name changes, and when the temporary
file has been created it is empty. -/
theorem openTemporary_eval {path : Bytes} {mode : ℕ} {w w' : ScpWorld} {created : Bool}
    (h : Evals (openTemporary path mode) w created w') :
    w'.incoming = w.incoming ∧ Abandoned path w.own w'.own ∧
      (created = true → (temporaryPath path).length < ps4ScpPathMax ∧
        (baseName (temporaryPath path)).length ≤ nameMax ∧
        ∃ m, w'.own = w'.own.set (temporaryPath path) (some (.file [] m))) := by
  unfold openTemporary at h
  by_cases hlong : (temporaryPath path).length ≥ ps4ScpPathMax
  · simp only [if_pos hlong] at h
    obtain ⟨rfl, rfl⟩ := Prog.eval_ret.1 h
    exact ⟨rfl, fun _ _ => rfl, fun h => by cases h⟩
  simp only [if_neg hlong] at h
  obtain ⟨_, h⟩ := unlink_eval h
  generalize hg : (w.own.unlink (temporaryPath path)).getD w.own = g at h
  have hother (p : Bytes) (hp : p ≠ temporaryPath path) : g.lookup p = w.own.lookup p := by
    rw [← hg, unlinked_lookup hp]
  obtain ⟨r, w₁, ⟨o, hmay, rfl⟩, h⟩ := Prog.eval_perform_bind.1 h
  match r, hmay, h with
  | .error e, hmay, h =>
    obtain ⟨rfl, rfl⟩ := Prog.eval_ret.1 h
    refine ⟨rfl, ?_, fun h => by cases h⟩
    obtain hworks | ⟨-, -, rfl⟩ := hmay
    · simp only [FileCall.Works, FileCall.Settles] at hworks
      split at hworks
      · cases hworks.1
      · rw [hworks.2]
        exact hother
    · exact hother
  | .ok (), hmay, h =>
    obtain ⟨rfl, rfl⟩ := Prog.eval_ret.1 h
    obtain hworks | ⟨-, ⟨e, he⟩, -⟩ := hmay
    · simp only [FileCall.Works, FileCall.Settles] at hworks
      split at hworks
      · next hc =>
        obtain ⟨-, hplace, ho⟩ := Files.creat_eq_some hc
        obtain rfl := hworks.2.trans ho
        refine ⟨rfl, ?_, fun _ => ⟨by omega, hplace.2.1, _, Files.set_set.symm⟩⟩
        intro p hp
        rw [Files.lookup_set_of_ne hp, hother p hp]
      · cases hworks.1
    · cases he

/-- `receive_file` once the temporary file has been created: it is removed or has become the
destination, with the announced number of bytes. -/
theorem receiveOpened_eval {path : Bytes} {size m : ℕ} {g : Files} {w w' : ScpWorld} {r : ℤ}
    (hown : w.own = g.set (temporaryPath path) (some (.file [] m)))
    (h : Evals (receiveOpened path size) w r w') :
    (r = -1 ∧ w'.own = g.set (temporaryPath path) none) ∨
      ∃ data, data.length = size ∧ w.incoming = data ++ 0 :: w'.incoming ∧ path ≠ [] ∧
        w'.own = (g.set (temporaryPath path) none).set path (some (.file data m)) := by
  obtain ⟨status, w₁, hstatus, h⟩ := Prog.eval_bind.1 h
  obtain ⟨hown₁, hin₁⟩ := sendStatus_frame hstatus
  rw [hown] at hown₁
  split at h
  · obtain hgone | ⟨hf, -⟩ := finishFile_eval hown₁ h
    · exact .inl hgone
    · cases hf
  · obtain ⟨failed, w₂, hdata, h⟩ := Prog.eval_bind.1 h
    obtain ⟨data, hown₂, hgood⟩ := receiveData_eval g m (temporaryPath_ne_nil path) hown₁ hdata
    obtain hgone | ⟨hf, hin', hpath, hown'⟩ := finishFile_eval hown₂ h
    · exact .inl hgone
    · obtain ⟨hlen, hin₂⟩ := hgood hf
      exact .inr ⟨data, hlen, by rw [← hin₁, hin₂, hin'], hpath, hown'⟩

/-- **`receive_file`**, in whatever environment: the destination is as it was, or it holds the
announced number of bytes, taken off the stream in order and followed by a zero byte.  Only in
the second case is the result `0`. -/
theorem receiveFile_eval {path : Bytes} {mode size : ℕ} {w w' : ScpWorld} {r : ℤ}
    (h : Evals (receiveFile path mode size) w r w') :
    (r = -1 ∧ Abandoned path w.own w'.own) ∨
      ∃ data, data.length = size ∧ w.incoming = data ++ 0 :: w'.incoming ∧
        Stored path data w.own w'.own := by
  have ht := temporaryPath_ne_nil path
  obtain ⟨created, w₁, hopen, h⟩ := Prog.eval_bind.1 h
  obtain ⟨hin₁, hother, hcreated⟩ := openTemporary_eval hopen
  cases created with
  | false =>
    obtain ⟨rfl, rfl⟩ := Prog.eval_ret.1 h
    exact .inl ⟨rfl, hother⟩
  | true =>
    obtain ⟨hfits, hname, m, hown₁⟩ := hcreated rfl
    obtain ⟨rfl, hown'⟩ | ⟨data, hlen, hin, hpath, hown'⟩ := receiveOpened_eval hown₁ h
    · refine .inl ⟨rfl, ?_⟩
      intro p hp
      rw [hown', Files.lookup_set_of_ne hp, hother p hp]
    · refine .inr ⟨data, hlen, by rw [← hin₁, hin], hfits, hname, ?_, ?_, m, ?_⟩
      · intro p hp hpt
        rw [hown', Files.lookup_set_of_ne hp, Files.lookup_set_of_ne hpt, hother p hpt]
      · rw [hown', Files.lookup_set_of_ne (temporaryPath_ne path), Files.lookup_set_self ht]
      · rw [hown', Files.lookup_set_self hpath]

/-- The destination holds exactly the announced number of bytes, taken off the stream in order
and followed there by a zero byte. -/
def UploadComplete (path : Bytes) (size : ℕ) (w w' : ScpWorld) : Prop :=
  ∃ data mode, data.length = size ∧ w.incoming = data ++ 0 :: w'.incoming ∧
    w'.own.lookup path = some (.file data mode)

/-- **An upload is atomic.**  Whatever the client sends, however reads and writes are cut up and
wherever they, `close` or `rename` fail, `receive_file` leaves the destination as it was or
complete, and it returns `0` only when it is complete.  When it returns anything else after it
has created its temporary file, that file does not exist any more. -/
theorem receiveFile_atomic {path : Bytes} {mode size : ℕ} {w w' : ScpWorld} {r : ℤ}
    (h : Evals (receiveFile path mode size) w r w') :
    (w'.own.lookup path = w.own.lookup path ∨ UploadComplete path size w w') ∧
      (r = 0 → UploadComplete path size w w') ∧
      ∀ w₁, Evals (openTemporary path mode) w true w₁ →
        Evals (receiveOpened path size) w₁ r w' → r ≠ 0 →
          w'.own.lookup (temporaryPath path) = none := by
  refine ⟨?_, ?_, ?_⟩
  · obtain ⟨-, hother⟩ | ⟨data, hlen, hin, -, -, -, -, m, hdest⟩ := receiveFile_eval h
    · exact .inl (hother path (temporaryPath_ne path).symm)
    · exact .inr ⟨data, m, hlen, hin, hdest⟩
  · rintro rfl
    obtain ⟨hr, -⟩ | ⟨data, hlen, hin, -, -, -, -, m, hdest⟩ := receiveFile_eval h
    · cases hr
    · exact ⟨data, m, hlen, hin, hdest⟩
  · intro w₁ hopen hrest _
    obtain ⟨-, -, hcreated⟩ := openTemporary_eval hopen
    obtain ⟨-, -, m, hown₁⟩ := hcreated rfl
    have ht := temporaryPath_ne_nil path
    obtain ⟨-, hown'⟩ | ⟨data, -, -, -, hown'⟩ := receiveOpened_eval hown₁ hrest
    · rw [hown', Files.lookup_set_self ht]
    · rw [hown', Files.lookup_set_of_ne (temporaryPath_ne path), Files.lookup_set_self ht]

/-- The file system with one empty directory. -/
def emptyDirectory (path : Bytes) : Files where
  entry p := if p = path then some .dir else none
  umask := 0o22
  offset _ := 0

/-- An environment in which nothing fails. -/
theorem answers_may (c : IoCall UInt8 FileCall) (w : ScpWorld) :
    SocketProg.Answers FileCall.May c w (SocketProg.answer FileCall.answer c w).1
      (SocketProg.answer FileCall.answer c w).2 :=
  SocketProg.answers_answer (fun l w => .inl (FileCall.works_answer l w)) c w

/-- A stream that breaks off after one of two bytes: the upload fails and leaves nothing. -/
theorem receiveFile_atomic_broken_off :
    ∃ w', Evals (receiveFile (ascii "/d/a") 0o644 2) ⟨emptyDirectory (ascii "/d"), ascii "h", []⟩
        (-1) w' ∧ w'.own.lookup (ascii "/d/a") = none ∧
      (w'.own.lookup (ascii "/d/a") = (emptyDirectory (ascii "/d")).lookup (ascii "/d/a") ∨
        UploadComplete (ascii "/d/a") 2 ⟨emptyDirectory (ascii "/d"), ascii "h", []⟩ w') := by
  obtain ⟨w', hrun, hlook⟩ := Prog.exists_eval_of_run answers_may (n := 100)
    (f := fun w : ScpWorld => w.own.lookup (ascii "/d/a"))
    (p := receiveFile (ascii "/d/a") 0o644 2) (a := -1)
    (w := ⟨emptyDirectory (ascii "/d"), ascii "h", []⟩) (x := none) (by decide)
  exact ⟨w', hrun, hlook, (receiveFile_atomic hrun).1⟩

end ScpProg

end Ps4Dropbear
