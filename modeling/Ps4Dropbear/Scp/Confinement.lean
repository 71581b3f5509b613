import Ps4Dropbear.Scp.Upload

/-!
# Confinement of uploads

Which paths the receiving end of `scp` changes, whatever the client sends and however the calls
are answered.  The statement is about histories (`Prog.Steps`): a list of calls with arbitrary
answers, so it holds in every environment, also while the worker is still running.

* `FileCall.touches` : the paths that a call creates, writes, renames or removes.
* `Confined` : the paths that a request may touch.
* `ScpProg.ps4ScpServe_confined` : no other path is touched.
-/

namespace Ps4Dropbear

/-- The paths that a call creates, writes, renames or removes. -/
def FileCall.touches : FileCall → List Bytes
  | unlink path | creat path _ | write path _ => [path]
  | rename old new => [old, new]
  | stat _ | openRead _ | read _ _ | close _ => []

/-- One component of a path: it names something in the directory itself. -/
def IsComponent (name : Bytes) : Prop :=
  name ≠ [] ∧ name ≠ ascii "." ∧ name ≠ ascii ".." ∧ 47 ∉ name ∧ 92 ∉ name

/-- The destinations of a request: its path or, for a directory, a component in it. -/
def IsDestination (path : Bytes) (isDirectory : Prop) (p : Bytes) : Prop :=
  p = path ∨ (isDirectory ∧ ∃ name, IsComponent name ∧ p = destinationPath path name)

/-- A destination, or the temporary name of one. -/
def Confined (path : Bytes) (isDirectory : Prop) (p : Bytes) : Prop :=
  IsDestination path isDirectory p ∨ ∃ q, IsDestination path isDirectory q ∧ p = temporaryPath q

theorem Confined.mono {path p : Bytes} {d d' : Prop} (hd : d → d') (h : Confined path d p) :
    Confined path d' p := by
  have hdest (q : Bytes) (hq : IsDestination path d q) : IsDestination path d' q :=
    hq.imp_right fun ⟨h₁, h₂⟩ => ⟨hd h₁, h₂⟩
  obtain h | ⟨q, hq, rfl⟩ := h
  · exact .inl (hdest p h)
  · exact .inr ⟨q, hdest q hq, rfl⟩

theorem isComponent_of_parseControl {line : Bytes} {c : Control} (h : parseControl line = some c) :
    IsComponent c.name := by
  simpa [safeName, IsComponent] using (parseControl_name h).1

namespace ScpProg

/-- Calls on the socket, and calls to the file system that touch paths in `P` only. -/
def Touches (P : Bytes → Prop) : IoCall UInt8 FileCall → Prop
  | .recv _ | .send _ => True
  | .loc c => ∀ p ∈ c.touches, P p

variable {P : Bytes → Prop}

theorem touches_of_sends (c : IoCall UInt8 FileCall) (h : Sends c) : Touches P c := by
  cases c with
  | recv n => trivial
  | send bs => trivial
  | loc c => exact h.elim

theorem sendStatus_touches (status : UInt8) (message : Option Bytes) :
    (sendStatus status message).Only (Touches P) :=
  (sendStatus_only status message).mono touches_of_sends

theorem readAll_touches (len : ℕ) : (readAll len).Only (Touches P) := by
  refine ⟨?_, fun _ => trivial⟩
  rintro ⟨data, retries⟩
  simp only [readAllBody]
  split
  · trivial
  · refine ⟨trivial, ?_⟩
    rintro (e | got)
    · trivial
    · by_cases hg : got = []
      · simp [hg, Prog.Only]
      · simp [hg, Prog.Only]

theorem readLine_touches (size : ℕ) : (readLine size).Only (Touches P) := by
  refine ⟨?_, fun _ => trivial⟩
  rintro ⟨line, retries⟩
  simp only [readLineBody]
  split
  · refine ⟨trivial, ?_⟩
    rintro (e | _ | ⟨c, _⟩)
    · trivial
    · trivial
    · by_cases hc : c = 10
      · simp [hc, Prog.Only]
      · simp [hc, Prog.Only]
  · trivial

theorem file_touches {c : FileCall} (h : ∀ p ∈ c.touches, P p) : (file c).Only (Touches P) :=
  ⟨h, fun _ => trivial⟩

theorem writeOut_touches {temporary : Bytes} (ht : P temporary) (got : Bytes) :
    (Prog.iterate (writeOutBody temporary) got).Only (Touches P) := by
  refine ⟨?_, fun _ => trivial⟩
  intro rest
  simp only [writeOutBody]
  split
  · trivial
  · refine (file_touches (by simpa [FileCall.touches] using ht)).bind ?_
    intro r
    split
    · trivial
    · trivial
    · split <;> trivial

theorem receiveData_touches {temporary : Bytes} {size : ℕ} (ht : P temporary) :
    (receiveData temporary size).Only (Touches P) := by
  refine Prog.Only.bind ⟨?_, fun _ => trivial⟩ ?_
  · rintro ⟨remaining, retries⟩
    simp only [receiveDataBody]
    split
    · trivial
    · refine ⟨trivial, ?_⟩
      intro r
      simp only [Prog.ret_bind]
      split
      · trivial
      · split
        · trivial
        · refine (writeOut_touches ht _).bind ?_
          intro failed
          cases failed <;> trivial
  · intro failed
    cases failed with
    | true => trivial
    | false =>
      refine (readAll_touches 1).bind ?_
      intro x
      split <;> trivial

theorem discard_touches {temporary : Bytes} (ht : P temporary) :
    ((file (.unlink temporary)).bind fun _ => (pure (-1) : ScpProg ℤ)).Only (Touches P) :=
  (file_touches (by simpa [FileCall.touches] using ht)).bind fun _ => trivial

theorem finishFile_touches {path : Bytes} {failed : Bool} (hp : P path)
    (ht : P (temporaryPath path)) : (finishFile path failed).Only (Touches P) := by
  refine (file_touches (by simp [FileCall.touches])).bind ?_
  intro closed
  split
  · refine (file_touches (by simp [FileCall.touches, hp, ht])).bind ?_
    intro renamed
    split
    · exact discard_touches ht
    · exact sendStatus_touches 0 none
  · exact discard_touches ht

/-- An upload touches its destination and the temporary name of it. -/
theorem receiveFile_touches {path : Bytes} {mode size : ℕ} (hp : P path)
    (ht : P (temporaryPath path)) : (receiveFile path mode size).Only (Touches P) := by
  have hfile (c : FileCall) (hc : c.touches = [temporaryPath path]) : (file c).Only (Touches P) :=
    file_touches (by simpa [hc] using ht)
  refine Prog.Only.bind ?_ ?_
  · simp only [openTemporary]
    split
    · trivial
    · refine (hfile _ rfl).bind fun _ => (hfile _ rfl).bind ?_
      intro r
      split <;> trivial
  · intro created
    split
    · refine (sendStatus_touches 0 none).bind ?_
      intro status
      split
      · exact finishFile_touches hp ht
      · exact (receiveData_touches ht).bind fun failed => finishFile_touches hp ht
    · trivial

theorem badControl_touches : badControl.Only (Touches P) :=
  (sendStatus_touches _ _).bind fun _ => trivial

/-- One round of the loop touches what belongs to the destination of one record. -/
theorem receiveBody_touches (path : Bytes) (isDirectory : Bool) (received : ℕ) :
    (receiveBody path isDirectory received).Only
      (Touches (Confined path (isDirectory = true))) := by
  have hdest (q : Bytes) (mode size : ℕ) (hq : IsDestination path (isDirectory = true) q) :
      (receiveFile q mode size).Only (Touches (Confined path (isDirectory = true))) :=
    receiveFile_touches (.inl hq) (.inr ⟨q, hq, rfl⟩)
  refine (readLine_touches 1024).bind ?_
  intro status
  split
  · trivial
  · trivial
  · split
    · refine (sendStatus_touches 0 none).bind ?_
      intro r
      split <;> trivial
    · split
      · exact (sendStatus_touches _ _).bind fun _ => trivial
      · split
        · exact badControl_touches
        · next c hc =>
          dsimp only
          split
          · exact badControl_touches
          · next q hq =>
            refine (hdest q _ _ ?_).bind ?_
            · split at hq
              · next hd =>
                refine .inr ⟨hd, c.name, isComponent_of_parseControl hc, ?_⟩
                exact joinPath_eq_some hq
              · split at hq
                · cases hq
                · exact .inl (Option.some.inj hq).symm
            · intro r
              split <;> trivial

theorem receiveInto_touches (request : ScpRequest) (isDirectory : Bool) :
    (receiveInto request isDirectory).Only
      (Touches (Confined request.path (isDirectory = true))) := by
  simp only [receiveInto]
  split
  · exact (sendStatus_touches _ _).bind fun _ => trivial
  · refine (sendStatus_touches 0 none).bind ?_
    intro r
    split
    · trivial
    · exact ⟨receiveBody_touches request.path isDirectory, fun _ => trivial⟩

/-- A call of the worker with its answer. -/
abbrev ScpEvent := (c : IoCall UInt8 FileCall) × c.Answer FileCall.Answer

/-- `serve_receive` found a directory when it looked at the path of the request. -/
def StartedAsDirectory (request : ScpRequest) (h : List ScpEvent) : Prop :=
  ∃ st : Stat, st.isDir = true ∧ h.head? = some ⟨.loc (.stat request.path), .ok st⟩

/-- Along every history of `serve_receive` only confined paths are touched. -/
theorem serveReceive_touches {request : ScpRequest} {q : ScpProg ℤ} {h : List ScpEvent}
    (hs : Prog.Steps (serveReceive request) h q) :
    ∀ x ∈ h, Touches (Confined request.path (StartedAsDirectory request h)) x.1 := by
  -- the first call is the `stat` that says whether the path is a directory
  cases hs with
  | refl => simp
  | @call _ _ r h _ hk =>
    have hrest (isDirectory : Bool)
        (hd : isDirectory = true → StartedAsDirectory request (⟨_, r⟩ :: h))
        (hk : Prog.Steps (receiveInto request isDirectory) h q) :
        ∀ x ∈ h,
          Touches (Confined request.path (StartedAsDirectory request (⟨_, r⟩ :: h))) x.1 := by
      intro x hx
      have hx := ((receiveInto_touches request isDirectory).of_steps hk).1 x hx
      generalize x.1 = c at hx
      cases c with
      | recv n => trivial
      | send bs => trivial
      | loc c => exact fun p hp => (hx p hp).mono hd
    refine List.forall_mem_cons.2 ⟨by simp [Touches, FileCall.touches], ?_⟩
    match r, hrest, hk with
    | .ok st, hrest, hk => exact hrest st.isDir (fun hd => ⟨st, hd, rfl⟩) hk
    | .error e, hrest, hk => exact hrest false (fun hd => by cases hd) hk

/-- **Uploads are confined.**  Whatever the client sends and however the calls are answered, every
path that `ps4_scp_serve` creates, writes, renames or removes in receive mode is the path of the
request or, when that was a directory at the start, a component in it, or the temporary name of
one of these. -/
theorem ps4ScpServe_confined {request : ScpRequest} {q : ScpProg ℤ} {h : List ScpEvent}
    (hmode : request.mode = .receive) (hs : Prog.Steps (ps4ScpServe request) h q) {c : FileCall}
    {r : c.Answer} (hc : (⟨.loc c, r⟩ : ScpEvent) ∈ h) {p : Bytes} (hp : p ∈ c.touches) :
    Confined request.path (StartedAsDirectory request h) p := by
  rw [ps4ScpServe, hmode] at hs
  exact serveReceive_touches hs _ hc p hp

/-- The path that a call removes. -/
def unlinked : ScpEvent → Option Bytes
  | ⟨.loc (.unlink path), _⟩ => some path
  | _ => none

theorem mem_of_unlinked {h : List ScpEvent} {path : Bytes}
    (hm : some path ∈ h.map unlinked) : ∃ r, (⟨.loc (.unlink path), r⟩ : ScpEvent) ∈ h := by
  obtain ⟨⟨c, r⟩, hc, hp⟩ := List.mem_map.1 hm
  match c, r, hc, hp with
  | .loc (.unlink _), r, hc, rfl => exact ⟨r, hc⟩

/-- An upload of `x` into a directory removes the temporary name of `x` in it. -/
theorem ps4ScpServe_confined_directory :
    ∃ h q, Prog.Steps (ps4ScpServe ⟨.receive, ascii "/d", false, false⟩) h q ∧
      Confined (ascii "/d") (StartedAsDirectory ⟨.receive, ascii "/d", false, false⟩ h)
        (ascii "/d/x.ps4scp-part") := by
  obtain ⟨q, hs⟩ := Prog.steps_history (SocketProg.answer FileCall.answer) 100
    (ps4ScpServe ⟨.receive, ascii "/d", false, false⟩)
    ⟨emptyDirectory (ascii "/d"), ascii "C0644 1 x\n", []⟩
  obtain ⟨r, hr⟩ : ∃ r, (⟨.loc (.unlink (ascii "/d/x.ps4scp-part")), r⟩ : ScpEvent) ∈ Prog.history
      (SocketProg.answer FileCall.answer) 100 (ps4ScpServe ⟨.receive, ascii "/d", false, false⟩)
      ⟨emptyDirectory (ascii "/d"), ascii "C0644 1 x\n", []⟩ := mem_of_unlinked (by decide)
  exact ⟨_, q, hs, ps4ScpServe_confined rfl hs hr List.mem_cons_self⟩

end ScpProg

end Ps4Dropbear
