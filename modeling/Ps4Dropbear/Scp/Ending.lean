import Ps4Dropbear.Prog.Hangup
import Ps4Dropbear.Scp.Serve

/-!
# `scp` comes to an end

Every loop of `ps4-scp.c` uses something up: bytes that are still to be written or read, the retries
of `retry_pause`, interruptions, or what the peer sends.  So a transfer ends, with whatever the
socket and the file system answer, once the peer stops sending.

* `roundsLeft` : the measure of the loops on the socket, which retry.
* `ScpProg.ends_writeAll`, `ScpProg.ends_readAll`, … : one lemma for each function of the source.

**Main result** (`ScpProg.ends_ps4ScpServe`): a request is served in finitely many steps.
-/

namespace Ps4Dropbear

/-- The call has been interrupted. -/
def FileCall.Interrupted : (c : FileCall) → c.Answer → Prop
  | .stat _, r => r = .error .eintr
  | .unlink _, r => r = .error .eintr
  | .creat _ _, r => r = .error .eintr
  | .openRead _, r => r = .error .eintr
  | .read _ _, r => r = .error .eintr
  | .write _ _, r => r = .error .eintr
  | .close _, r => r = .error .eintr
  | .rename _ _, r => r = .error .eintr

/-- A file system has an answer for every call, and it need not be an interruption. -/
theorem FileCall.exists_may (c : FileCall) (w : Files) :
    ∃ r w', c.May w r w' ∧ ¬ c.Interrupted r := by
  have hsettle (done : Option Files) : (answer.settle w done).1 ≠ .error .eintr := by
    cases done <;> exact nofun
  refine ⟨_, _, .inl (works_answer c w), ?_⟩
  cases c with
  | stat path =>
    change (w.stat path).elim (.error .other) .ok ≠ (.error .eintr : Except IoError Stat)
    cases w.stat path <;> exact nofun
  | unlink | creat | openRead | rename => exact hsettle _
  | read | write | close => exact nofun

/-- The rounds that a loop with `left` elements to go can still take: each element allows
`retry_pause` to be called 30000 times. -/
def roundsLeft (left retries interrupts : ℕ) : ℕ := left * 30001 + (30000 - retries) + interrupts

theorem roundsLeft_lt {left left' retries interrupts : ℕ} (h : left' < left) :
    roundsLeft left' 0 interrupts < roundsLeft left retries interrupts := by
  unfold roundsLeft
  omega

namespace ScpProg

variable {α β σ : Type} {w : Budget Files}

/-- The answers with a budget. -/
abbrev Runs : (c : IoCall UInt8 FileCall) → Budget Files → c.Answer FileCall.Answer →
    Budget Files → Prop :=
  SocketProg.Bounded FileCall.Interrupted FileCall.May

/-- The program ends, in every world. -/
abbrev Ends (p : ScpProg α) : Prop := Prog.Ends Runs SocketProg.Left p

theorem ends_file_bind {c : FileCall} {f : c.Answer → ScpProg α} (hf : ∀ r, Ends (f r)) :
    Ends ((file c).bind f) :=
  SocketProg.ends_perform_bind FileCall.exists_may hf

/-- A call of which the answer is looked at. -/
theorem total_call {c : IoCall UInt8 FileCall} {f : c.Answer FileCall.Answer → ScpProg α}
    {Q : α → Budget Files → Prop} (hf : ∀ r w', Runs c w r w' → Prog.Total Runs Q (f r) w') :
    Prog.Total Runs Q ((Prog.perform c).bind f) w :=
  .perform_bind (SocketProg.exists_bounded FileCall.exists_may c w) hf

/-- A round of a loop on the socket whose call has failed uses up an interruption or a retry, or it
is the last one. -/
theorem total_retryOr {again : ℕ → σ} {fail : β} {e : IoError} {retries k : ℕ}
    {Q : σ ⊕ β → Budget Files → Prop} (hspent : Spent (e = .eintr) k w.interrupts) (left : ℕ)
    (hagain : ∀ r, roundsLeft left r w.interrupts < roundsLeft left retries k →
      Q (.inl (again r)) w) (hfail : Q (.inr fail) w) :
    Prog.Total Runs Q (pure (retryOr again fail retries e)) w := by
  refine .ret ?_
  cases e with
  | eintr =>
    have hlt := hspent.lt rfl
    refine hagain retries ?_
    unfold roundsLeft
    omega
  | eagain =>
    have hle := hspent.le
    unfold retryOr retryPause
    dsimp only
    split
    · exact hfail
    · refine hagain (retries + 1) ?_
      unfold roundsLeft
      omega
  | other => exact hfail

theorem ends_writeAll (data : Bytes) : Ends (writeAll data) := by
  refine .iterate (fun s w => roundsLeft s.1.length s.2 w.interrupts) ?_
  rintro ⟨bytes, retries⟩ w
  unfold writeAllBody
  dsimp only
  split
  · exact .ret ⟨refl w, nofun⟩
  · next hne =>
    refine total_call fun r w' h => ?_
    have hleft := SocketProg.left_of_bounded h
    rcases r with e | sent
    · refine total_retryOr h.2.2 bytes.length (fun r hlt => ⟨hleft, ?_⟩) ⟨hleft, nofun⟩
      rintro _ ⟨⟩
      exact hlt
    · obtain ⟨-, rfl⟩ := h
      dsimp only
      split
      · exact .ret ⟨hleft, nofun⟩
      · next hsent =>
        refine .ret ⟨hleft, ?_⟩
        rintro _ ⟨⟩
        refine roundsLeft_lt ?_
        have hpos := List.length_pos_iff.2 hne
        rw [List.length_drop]
        omega

theorem ends_readAll (len : ℕ) : Ends (readAll len) := by
  refine .iterate (fun s w => roundsLeft (len - s.1.length) s.2 w.interrupts) ?_
  rintro ⟨data, retries⟩ w
  unfold readAllBody
  dsimp only
  split
  · exact .ret ⟨refl w, nofun⟩
  · next hlen =>
    refine total_call fun r w' h => ?_
    have hleft := SocketProg.left_of_bounded h
    rcases r with e | got
    · refine total_retryOr h.2.2 (len - data.length) (fun r hlt => ⟨hleft, ?_⟩) ⟨hleft, nofun⟩
      rintro _ ⟨⟩
      exact hlt
    · obtain ⟨-, rfl⟩ := h
      dsimp only
      split
      · exact .ret ⟨hleft, nofun⟩
      · next hgot =>
        refine .ret ⟨hleft, ?_⟩
        rintro _ ⟨⟩
        refine roundsLeft_lt ?_
        have hpos := List.length_pos_iff.2 hgot
        rw [List.length_append]
        omega

/-- A line takes at least its newline out of the budget. -/
theorem total_readLine (size : ℕ) (w : Budget Files) : Prog.Total Runs
    (fun r w' => SocketProg.Left w w' ∧ ∀ line, r = .line line → w'.elements < w.elements)
    (readLine size) w := by
  refine .iterate (fun _ w' => SocketProg.Left w w')
    (fun s w => roundsLeft (size - s.1.length) s.2 w.interrupts) (refl w) ?_
  rintro ⟨line, retries⟩ w₁ hw
  unfold readLineBody
  dsimp only
  split
  · next hlen =>
    refine total_call fun r w' h => ?_
    have hleft := trans_of SocketProg.Left hw (SocketProg.left_of_bounded h)
    rcases r with e | _ | ⟨c, rest⟩
    · exact total_retryOr h.2.2 (size - line.length) (fun r hlt => ⟨hleft, hlt⟩) ⟨hleft, nofun⟩
    · refine .ret ⟨hleft, ?_⟩
      split <;> exact nofun
    · obtain ⟨-, rfl⟩ := h
      dsimp only
      split
      · refine .ret ⟨hleft, fun _ _ => ?_⟩
        have hle := hw.1
        dsimp only [List.length_cons] at hle
        omega
      · refine .ret ⟨hleft, roundsLeft_lt ?_⟩
        rw [List.length_append, List.length_singleton]
        omega
  · exact .ret ⟨hw, nofun⟩

theorem ends_readLine (size : ℕ) : Ends (readLine size) :=
  fun w => (total_readLine size w).mono fun _ _ => And.left

theorem ends_sendStatus (status : UInt8) (message : Option Bytes) :
    Ends (sendStatus status message) := by
  refine (ends_writeAll _).bind fun r => .ite (.ret (-1)) ?_
  cases message with
  | none => exact .ret 0
  | some message =>
    refine .ite (.ret 0) ((ends_writeAll _).bind fun r => .ite (.ret (-1)) ?_)
    exact (ends_writeAll _).bind fun r => .ite (.ret (-1)) (.ret 0)

theorem ends_readStatus : Ends readStatus := by
  refine (ends_readAll 1).bind fun r => ?_
  split
  · refine .ite (.ret 0) (.ite ?_ (.ret (-1)))
    exact (ends_readLine 1024).bind fun _ => .ret (-1)
  · exact .ret (-1)

/-! ### Receiving -/

theorem ends_writeOut (temporary data : Bytes) :
    Ends (Prog.iterate (writeOutBody temporary) data) := by
  refine .iterate (fun rest w => rest.length + w.interrupts) ?_
  intro rest w
  unfold writeOutBody
  split
  · exact .ret ⟨refl w, nofun⟩
  · next hne =>
    refine total_call fun r w' h => ?_
    have hleft := SocketProg.left_of_bounded h
    obtain ⟨-, -, hspent⟩ := h
    split
    · refine .ret ⟨hleft, ?_⟩
      rintro _ ⟨⟩
      exact Nat.add_lt_add_left (hspent.lt rfl) _
    · exact .ret ⟨hleft, nofun⟩
    · split
      · exact .ret ⟨hleft, nofun⟩
      · next hwritten =>
        refine .ret ⟨hleft, ?_⟩
        rintro _ ⟨⟩
        have hpos := List.length_pos_iff.2 hne
        have hle := hleft.2
        rw [List.length_drop]
        omega

theorem ends_receiveData (temporary : Bytes) (size : ℕ) : Ends (receiveData temporary size) := by
  have hloop : Ends (Prog.iterate (receiveDataBody temporary) (size, 0)) := by
    refine .iterate (fun s w => roundsLeft s.1 s.2 w.interrupts) ?_
    rintro ⟨remaining, retries⟩ w
    unfold receiveDataBody
    dsimp only
    split
    · exact .ret ⟨refl w, nofun⟩
    · next hremaining =>
      refine total_call fun r w' h => ?_
      have hleft := SocketProg.left_of_bounded h
      rcases r with e | got
      · refine total_retryOr h.2.2 remaining (fun r hlt => ⟨hleft, ?_⟩) ⟨hleft, nofun⟩
        rintro _ ⟨⟩
        exact hlt
      · dsimp only
        split
        · exact .ret ⟨hleft, nofun⟩
        · next hgot =>
          refine (ends_writeOut temporary got).total_bind fun failed w₂ hw => ?_
          have hleft₂ := trans_of SocketProg.Left hleft hw
          split
          · exact .ret ⟨hleft₂, nofun⟩
          · refine .ret ⟨hleft₂, ?_⟩
            rintro _ ⟨⟩
            have hpos := List.length_pos_iff.2 hgot
            have hle := hleft₂.2
            unfold roundsLeft
            dsimp only
            omega
  refine hloop.bind fun failed => .ite (.ret true) ?_
  refine (ends_readAll 1).bind fun r => ?_
  split
  · exact .ret false
  · exact .ret true

theorem ends_finishFile (path : Bytes) (failed : Bool) : Ends (finishFile path failed) := by
  have hunlink : Ends ((file (.unlink (temporaryPath path))).bind fun _ => .ret (-1 : ℤ)) :=
    ends_file_bind fun _ => .ret (-1)
  refine ends_file_bind fun r => ?_
  split
  · refine ends_file_bind fun r => ?_
    cases r with
    | error e => exact hunlink
    | ok _ => exact ends_sendStatus 0 none
  · exact hunlink

theorem ends_receiveFile (path : Bytes) (mode size : ℕ) : Ends (receiveFile path mode size) := by
  have hopen : Ends (openTemporary path mode) := by
    refine .ite (.ret false) (ends_file_bind fun _ => ends_file_bind fun r => ?_)
    cases r with
    | error e => exact .ret false
    | ok _ => exact .ret true
  have hopened : Ends (receiveOpened path size) := by
    refine (ends_sendStatus 0 none).bind fun r => .ite (ends_finishFile path true) ?_
    exact (ends_receiveData _ size).bind fun failed => ends_finishFile path failed
  exact hopen.bind fun opened => .ite hopened (.ret (-1))

theorem ends_badControl : Ends badControl := (ends_sendStatus 1 _).bind fun _ => .ret _

/-- The loop over the records: each of them is a line that the peer has sent. -/
theorem ends_receiveLoop (path : Bytes) (targetIsDirectory : Bool) :
    Ends (Prog.iterate (receiveBody path targetIsDirectory) 0) := by
  refine .iterate (fun _ w => w.elements) ?_
  intro received w
  refine (total_readLine 1024 w).bind ?_
  rintro line w₁ ⟨hleft, hlt⟩
  -- after the line, whatever is read makes even less of the budget
  have hrest {p : ScpProg (ℕ ⊕ ℤ)} (hp : Ends p) (hline : w₁.elements < w.elements) :
      Prog.Total Runs (fun x w' => SocketProg.Left w w' ∧
        ∀ s, x = .inl s → w'.elements < w.elements) p w₁ :=
    (hp w₁).mono fun _ w' hw => ⟨trans_of SocketProg.Left hleft hw, fun _ _ => hw.1.trans_lt hline⟩
  cases line with
  | eof => exact .ret ⟨hleft, nofun⟩
  | error => exact .ret ⟨hleft, nofun⟩
  | line line =>
    refine hrest ?_ (hlt line rfl)
    refine .ite ((ends_sendStatus 0 none).bind fun r => .ite (.ret _) (.ret _)) ?_
    refine .ite ((ends_sendStatus 1 _).bind fun _ => .ret _) ?_
    cases parseControl line with
    | none => exact ends_badControl
    | some c =>
      dsimp only
      generalize (if targetIsDirectory then joinPath path c.name
        else if received ≠ 0 then none else some path) = destination
      cases destination with
      | none => exact ends_badControl
      | some destination =>
        exact (ends_receiveFile _ _ _).bind fun r => .ite (.ret _) (.ret _)

theorem ends_serveReceive (request : ScpRequest) : Ends (serveReceive request) := by
  have hinto (targetIsDirectory : Bool) : Ends (receiveInto request targetIsDirectory) := by
    refine .ite ((ends_sendStatus 1 _).bind fun _ => .ret 1) ?_
    exact (ends_sendStatus 0 none).bind fun r => .ite (.ret 1) (ends_receiveLoop _ _)
  refine ends_file_bind fun r => ?_
  cases r with
  | error e => exact hinto false
  | ok target => exact hinto target.isDir

/-! ### Sending -/

theorem ends_sendData (path : Bytes) (size : ℕ) : Ends (Prog.iterate (sendDataBody path) size) := by
  refine .iterate (fun remaining w => remaining + w.interrupts) ?_
  intro remaining w
  unfold sendDataBody
  split
  · exact .ret ⟨refl w, nofun⟩
  · next hremaining =>
    refine total_call fun r w' h => ?_
    have hleft := SocketProg.left_of_bounded h
    obtain ⟨-, -, hspent⟩ := h
    split
    · refine .ret ⟨hleft, ?_⟩
      rintro _ ⟨⟩
      exact Nat.add_lt_add_left (hspent.lt rfl) _
    · exact .ret ⟨hleft, nofun⟩
    · split
      · exact .ret ⟨hleft, nofun⟩
      · next got hgot =>
        refine (ends_writeAll got).total_bind fun r w₂ hw => ?_
        have hleft₂ := trans_of SocketProg.Left hleft hw
        split
        · exact .ret ⟨hleft₂, nofun⟩
        · refine .ret ⟨hleft₂, ?_⟩
          rintro _ ⟨⟩
          have hpos := List.length_pos_iff.2 hgot
          have hle := hleft₂.2
          omega

theorem ends_serveSend (request : ScpRequest) : Ends (serveSend request) := by
  have hrefuse (message : Bytes) :
      Ends ((sendStatus 1 (some message)).bind fun _ => .ret (1 : ℤ)) :=
    (ends_sendStatus 1 _).bind fun _ => .ret 1
  refine ends_readStatus.bind fun r => .ite (.ret 1) ?_
  refine ends_file_bind fun r => ?_
  cases r with
  | error e => exact hrefuse _
  | ok st =>
    refine .ite (hrefuse _) (.ite (hrefuse _) (.ite (.ret 1) (.ite (.ret 1) ?_)))
    refine (ends_writeAll _).bind fun r => .ite (.ret 1) ?_
    refine ends_readStatus.bind fun r => .ite (.ret 1) ?_
    refine ends_file_bind fun r => ?_
    cases r with
    | error e => exact .ret 1
    | ok _ =>
      refine (ends_sendData _ _).bind fun complete => ends_file_bind fun r => ?_
      rcases r, complete with ⟨e | _, _ | _⟩
      · exact .ret 1
      · exact .ret 1
      · exact .ret 1
      · refine (ends_writeAll _).bind fun r => .ite (.ret 1) ?_
        exact ends_readStatus.bind fun r => .ite (.ret 1) (.ret 0)

/-- **Serving a request** takes finitely many steps, whatever the socket and the file system
answer. -/
theorem ends_ps4ScpServe (request : ScpRequest) : Ends (ps4ScpServe request) := by
  unfold ps4ScpServe
  split
  · exact ends_serveReceive request
  · exact ends_serveSend request

end ScpProg

end Ps4Dropbear
