import Ps4Dropbear.Prog.Dialogue
import Ps4Dropbear.Scp.Record
import Ps4Dropbear.Scp.Transfer

/-!
# The two ends of `scp`

`serve_send` connected to `serve_receive`.  Each end is shown to follow its script (`Speaks` for the
functions that take part in it), and the rule for dialogues gives the rest: the two ends cannot
get stuck, whatever the order of their steps.

* `ScpProg.serveSend_follows`, `ScpProg.serveReceive_follows` : the scripts of the two ends.
* `ScpProg.scp_agrees_iff` : the two ends agree exactly on the names that can be uploaded.
-/

namespace Ps4Dropbear

namespace ScpProg

/-- Bytes that are read. -/
abbrev inps (bs : Bytes) : List (Item UInt8) := bs.map .inp

/-- Bytes that are written. -/
abbrev outs (bs : Bytes) : List (Item UInt8) := bs.map .out

/-- In front of any script, the program keeps to `d` and returns `a`, with `w'` for `w`. -/
def Speaks {α : Type} (d : List (Item UInt8)) (p : ScpProg α) (w : Files) (a : α) (w' : Files) :
    Prop :=
  ∀ d', Follows FileCall.Works (fun b w₁ e => b = a ∧ w₁ = w' ∧ e = d') (d ++ d') p w

variable {w : Files}

theorem Speaks.bind {α β : Type} {d d' : List (Item UInt8)} {p : ScpProg α} {f : α → ScpProg β}
    {w₁ w₂ : Files} {a : α} {b : β} (hp : Speaks d p w a w₁) (hf : Speaks d' (f a) w₁ b w₂) :
    Speaks (d ++ d') (p.bind f) w b w₂ := by
  intro e
  rw [List.append_assoc]
  refine (hp (d' ++ e)).bind ?_
  rintro a' w' e' ⟨rfl, rfl, rfl⟩
  exact hf e

theorem Speaks.atEnd {α : Type} {d : List (Item UInt8)} {p : ScpProg α} {w' : Files} {a : α}
    (hp : Speaks d p w a w') :
    Follows FileCall.Works (fun b w₁ e => b = a ∧ w₁ = w' ∧ e = []) d p w := by
  have h := hp []
  rwa [List.append_nil] at h

theorem writeAll_speaks (data : Bytes) : Speaks (outs data) (writeAll data) w 0 w := by
  suffices hloop : ∀ n bytes retries, bytes.length ≤ n →
      Speaks (outs bytes) (Prog.iterate writeAllBody (bytes, retries)) w 0 w from
    hloop data.length data 0 (Nat.le_refl _)
  intro n
  induction n with
  | zero =>
    intro bytes retries hn d'
    obtain rfl := List.eq_nil_of_length_eq_zero (Nat.le_zero.1 hn)
    exact .round (.ret ⟨rfl, rfl, rfl⟩)
  | succ n ih =>
    intro bytes retries hn d'
    by_cases hb : bytes = []
    · subst hb
      exact .round (.ret ⟨rfl, rfl, rfl⟩)
    · refine .round ?_
      simp only [writeAllBody, if_neg hb]
      have hsplit : outs bytes ++ d' =
          outs (bytes.take 512) ++ (outs (bytes.drop 512) ++ d') := by
        rw [← List.append_assoc, ← List.map_append, List.take_append_drop]
      rw [hsplit]
      refine .send (by simpa using hb) ?_
      intro cs ds hcs hne
      have hlen : cs.length ≠ 0 := by simpa using hne
      have hdrop : bytes.drop cs.length = ds ++ bytes.drop 512 := by
        conv_lhs => rw [← List.take_append_drop 512 bytes, hcs, List.append_assoc]
        exact List.drop_left
      have hrest : outs ds ++ (outs (bytes.drop 512) ++ d') =
          outs (bytes.drop cs.length) ++ d' := by
        simp [hdrop]
      rw [hrest]
      simp only [Prog.ret_bind, if_neg hlen]
      refine .ret (ih _ _ ?_ d')
      rw [List.length_drop]
      omega

theorem readAll_speaks (bs : Bytes) : Speaks (inps bs) (readAll bs.length) w (some bs) w := by
  suffices hloop : ∀ n data rest retries, bs = data ++ rest → rest.length ≤ n →
      Speaks (inps rest) (Prog.iterate (readAllBody bs.length) (data, retries)) w (some bs) w from
    hloop bs.length [] bs 0 rfl (Nat.le_refl _)
  intro n
  induction n with
  | zero =>
    intro data rest retries hbs hn d'
    obtain rfl := List.eq_nil_of_length_eq_zero (Nat.le_zero.1 hn)
    rw [List.append_nil] at hbs
    subst hbs
    refine .round ?_
    simp only [readAllBody, ge_iff_le, Nat.le_refl, if_true]
    exact .ret ⟨rfl, rfl, rfl⟩
  | succ n ih =>
    intro data rest retries hbs hn d'
    refine .round ?_
    by_cases hr : rest = []
    · subst hr
      rw [List.append_nil] at hbs
      subst hbs
      simp only [readAllBody, ge_iff_le, Nat.le_refl, if_true]
      exact .ret ⟨rfl, rfl, rfl⟩
    · have hpos : 0 < rest.length := List.length_pos_iff.2 hr
      have hlen : bs.length - data.length = rest.length := by
        rw [hbs, List.length_append]
        omega
      have hge : ¬ data.length ≥ bs.length := by omega
      simp only [readAllBody, if_neg hge, hlen]
      refine .recv hpos (Nat.le_refl _) ?_
      intro cs ds hrest hcs _
      simp only [Prog.ret_bind, if_neg hcs]
      refine .ret (ih _ ds _ ?_ ?_ d')
      · rw [hbs, hrest, List.append_assoc]
      · have := List.length_pos_iff.2 hcs
        rw [hrest, List.length_append] at hn
        omega

theorem readLine_speaks {size : ℕ} {l : Bytes} (hl : 10 ∉ l) (hsize : l.length + 1 < size) :
    Speaks (inps (l ++ [10])) (readLine size) w (.line (l ++ [10])) w := by
  suffices hloop : ∀ rest line retries, l = line ++ rest →
      Speaks (inps (rest ++ [10])) (Prog.iterate (readLineBody size) (line, retries)) w
        (.line (l ++ [10])) w from hloop l [] 0 rfl
  intro rest
  induction rest with
  | nil =>
    intro line retries hline d'
    rw [List.append_nil] at hline
    subst hline
    refine .round ?_
    simp only [readLineBody, if_pos hsize]
    exact .recv_one (.ret ⟨rfl, rfl, rfl⟩)
  | cons b rest ih =>
    intro line retries hline d'
    have hb : b ≠ 10 := by
      rintro rfl
      exact hl (by simp [hline])
    have hlen : line.length + 1 < size := by
      rw [hline, List.length_append, List.length_cons] at hsize
      omega
    refine .round ?_
    simp only [readLineBody, if_pos hlen]
    refine .recv_one ?_
    simp only [Prog.ret_bind, if_neg hb]
    exact .ret (ih (line ++ [b]) 0 (by rw [hline, List.append_assoc]; rfl) d')

theorem readLine_eof {size : ℕ} (hsize : 1 < size) :
    Follows FileCall.Works (fun x w' e => x = .eof ∧ w' = w ∧ e = []) [Item.fin]
      (readLine size) w := by
  refine .round ?_
  simp only [readLineBody, List.length_nil, Nat.zero_add, if_pos hsize]
  exact .eof (.ret ⟨rfl, rfl, rfl⟩)

theorem sendStatus_speaks : Speaks (outs [0]) (sendStatus 0 none) w 0 w := by
  have h : Speaks (outs [0] ++ []) (sendStatus 0 none) w 0 w :=
    (writeAll_speaks [0]).bind fun d => .ret ⟨rfl, rfl, rfl⟩
  exact h

theorem readStatus_speaks : Speaks (inps [0]) readStatus w 0 w := by
  have h : Speaks (inps [0] ++ []) readStatus w 0 w :=
    (readAll_speaks [0]).bind fun d => .ret ⟨rfl, rfl, rfl⟩
  exact h

/-! ### The receiving end -/

theorem settles_some {w₁ w' : Files} {r : Except IoError Unit}
    (h : FileCall.Settles w (some w₁) r w') : r = .ok () ∧ w' = w₁ := h

theorem settles_none {w' : Files} {r : Except IoError Unit}
    (h : FileCall.Settles w none r w') : r = .error .other ∧ w' = w := h

section Receive

variable {path : Bytes} (m : ℕ)

theorem writeOut_speaks {temporary : Bytes} (ht : temporary ≠ []) (c got : Bytes) :
    Speaks [] (Prog.iterate (writeOutBody temporary) got) (w.set temporary (some (.file c m))) false
      (w.set temporary (some (.file (c ++ got) m))) := by
  suffices hloop : ∀ n c rest, rest.length ≤ n →
      Speaks [] (Prog.iterate (writeOutBody temporary) rest)
        (w.set temporary (some (.file c m))) false
        (w.set temporary (some (.file (c ++ rest) m))) from hloop got.length c got (Nat.le_refl _)
  intro n
  induction n with
  | zero =>
    intro c rest hn d
    obtain rfl := List.eq_nil_of_length_eq_zero (Nat.le_zero.1 hn)
    exact .round (.ret ⟨rfl, by rw [List.append_nil], rfl⟩)
  | succ n ih =>
    intro c rest hn d
    by_cases hr : rest = []
    · subst hr
      exact .round (.ret ⟨rfl, by rw [List.append_nil], rfl⟩)
    · refine .round ?_
      simp only [writeOutBody, if_neg hr]
      refine .loc ⟨_, _, FileCall.works_answer _ _⟩ ?_
      rintro r w' ⟨k, hk, hk0, rfl, rfl⟩
      have hne : k ≠ 0 := fun h => hr (hk0 h)
      rw [Files.append_set ht]
      simp only [Prog.ret_bind, if_neg hne]
      refine .ret ?_
      have hnext := ih (c ++ rest.take k) (rest.drop k) (by rw [List.length_drop]; omega) d
      rwa [List.append_assoc, List.take_append_drop] at hnext

theorem receiveData_speaks {temporary : Bytes} (ht : temporary ≠ []) (data : Bytes) :
    Speaks (inps (data ++ [0])) (receiveData temporary data.length)
      (w.set temporary (some (.file [] m))) false (w.set temporary (some (.file data m))) := by
  have hloop : ∀ n c rest retries, rest.length ≤ n →
      Speaks (inps rest) (Prog.iterate (receiveDataBody temporary) (rest.length, retries))
        (w.set temporary (some (.file c m))) false
        (w.set temporary (some (.file (c ++ rest) m))) := by
    intro n
    induction n with
    | zero =>
      intro c rest retries hn d
      obtain rfl := List.eq_nil_of_length_eq_zero (Nat.le_zero.1 hn)
      exact .round (.ret ⟨rfl, by rw [List.append_nil], rfl⟩)
    | succ n ih =>
      intro c rest retries hn d
      by_cases hr : rest = []
      · subst hr
        exact .round (.ret ⟨rfl, by rw [List.append_nil], rfl⟩)
      · have hpos : 0 < rest.length := List.length_pos_iff.2 hr
        refine .round ?_
        simp only [receiveDataBody, if_neg (Nat.pos_iff_ne_zero.1 hpos)]
        refine .recv (by omega) (Nat.min_le_left _ _) ?_
        intro cs ds hcs hne _
        simp only [Prog.ret_bind, if_neg hne]
        refine (writeOut_speaks m ht c cs _).bind ?_
        rintro failed w' e ⟨rfl, rfl, rfl⟩
        refine .ret ?_
        have hlen : rest.length - cs.length = ds.length := by
          rw [hcs, List.length_append]
          omega
        have hpos' : 0 < cs.length := List.length_pos_iff.2 hne
        have hnext := ih (c ++ cs) ds 0 (by omega) d
        rw [hlen]
        rwa [List.append_assoc, ← hcs] at hnext
  have hfirst := hloop data.length [] data 0 (Nat.le_refl _)
  have h : Speaks (inps data ++ (inps [0] ++ [])) (receiveData temporary data.length)
      (w.set temporary (some (.file [] m))) false (w.set temporary (some (.file data m))) :=
    hfirst.bind ((readAll_speaks [0]).bind fun d => .ret ⟨rfl, rfl, rfl⟩)
  simpa using h

theorem baseName_destinationPath {dir name : Bytes} (hname : 47 ∉ name) :
    baseName (destinationPath dir name) = name := by
  have hrev : ∀ c ∈ name.reverse, (fun c : UInt8 => decide (c ≠ 47)) c = true := by
    intro c hc
    simpa using fun h : c = 47 => hname (h ▸ List.mem_reverse.1 hc)
  unfold baseName destinationPath
  by_cases hd : dir = ascii "/"
  · rw [if_pos hd, hd, List.append_nil, List.reverse_append, List.takeWhile_append_of_pos hrev]
    simp [ascii]
  · rw [if_neg hd, List.reverse_append, List.takeWhile_append_of_pos hrev, List.reverse_append]
    simp [ascii]

theorem dirName_destinationPath {dir name : Bytes} (hname : 47 ∉ name) (hdir : dir ≠ []) :
    dirName (destinationPath dir name) = dir := by
  have hrev : ∀ c ∈ name.reverse, (fun c : UInt8 => decide (c ≠ 47)) c = true := by
    intro c hc
    simpa using fun h : c = 47 => hname (h ▸ List.mem_reverse.1 hc)
  unfold dirName destinationPath
  by_cases hd : dir = ascii "/"
  · rw [if_pos hd, hd, List.append_nil, List.reverse_append, List.dropWhile_append_of_pos hrev]
    simp [ascii]
  · rw [if_neg hd, List.reverse_append, List.dropWhile_append_of_pos hrev, List.reverse_append]
    simp [ascii, hdir]

theorem placeable_destinationPath {dir name : Bytes} (hname : 47 ∉ name) (hne : name ≠ [])
    (hlen : name.length ≤ nameMax) (hdir : w.lookup dir = some .dir) :
    w.Placeable (destinationPath dir name) := by
  have hd : dir ≠ [] := by
    rintro rfl
    simp [Files.lookup] at hdir
  refine ⟨by simp [destinationPath, hne], ?_, ?_⟩
  · rwa [baseName_destinationPath hname]
  · rwa [dirName_destinationPath hname hd]

/-- The mode of a new file: the bits asked for less those of the mask. -/
def maskedMode (w : Files) (mode : ℕ) : ℕ := (mode &&& 0o777) &&& (0o777 ^^^ (w.umask &&& 0o777))

theorem openTemporary_speaks {mode : ℕ} (hlen : (temporaryPath path).length < ps4ScpPathMax)
    (hfree : w.lookup (temporaryPath path) = none) (hplace : w.Placeable (temporaryPath path)) :
    Speaks [] (openTemporary path mode) w true
      (w.set (temporaryPath path) (some (.file [] (maskedMode w mode)))) := by
  have hunlink : w.unlink (temporaryPath path) = none := if_pos (.inl hfree)
  have hcreat := Files.creat_eq hfree hplace (mode &&& 0o777)
  intro d
  simp only [openTemporary, if_neg (Nat.not_le.2 hlen)]
  refine Follows.loc ⟨_, _, FileCall.works_answer _ _⟩ ?_
  intro r w₁ h₁
  simp only [FileCall.Works, hunlink] at h₁
  obtain ⟨-, rfl⟩ := settles_none h₁
  refine Follows.loc ⟨_, _, FileCall.works_answer _ _⟩ ?_
  intro r w₂ h₂
  simp only [FileCall.Works, hcreat] at h₂
  obtain ⟨rfl, rfl⟩ := settles_some h₂
  exact .ret ⟨rfl, rfl, rfl⟩

theorem finishFile_speaks {data : Bytes} (hfree : w.lookup (temporaryPath path) = none)
    (hdest : w.lookup path ≠ some .dir) (hplace : w.Placeable path) :
    Speaks (outs [0]) (finishFile path false) (w.set (temporaryPath path) (some (.file data m))) 0
      ((w.set (temporaryPath path) none).set path (some (.file data m))) := by
  have hrename : (w.set (temporaryPath path) (some (.file data m))).rename
      (temporaryPath path) path =
      some ((w.set (temporaryPath path) none).set path (some (.file data m))) :=
    Files.rename_eq hfree (temporaryPath_ne_nil path) (temporaryPath_ne path) hdest hplace
  intro d
  refine Follows.loc ⟨_, _, FileCall.works_answer _ _⟩ ?_
  rintro r w₁ ⟨rfl, rfl⟩
  refine Follows.loc ⟨_, _, FileCall.works_answer _ _⟩ ?_
  intro r w₂ h₂
  simp only [FileCall.Works, hrename] at h₂
  obtain ⟨rfl, rfl⟩ := settles_some h₂
  exact sendStatus_speaks d

/-- An upload into a directory, of a file whose temporary name fits and is free. -/
theorem receiveFile_speaks {data : Bytes} {mode : ℕ}
    (hlen : (temporaryPath path).length < ps4ScpPathMax)
    (hfree : w.lookup (temporaryPath path) = none) (htemp : w.Placeable (temporaryPath path))
    (hdest : w.lookup path ≠ some .dir) (hplace : w.Placeable path) :
    Speaks (outs [0] ++ (inps (data ++ [0]) ++ outs [0])) (receiveFile path mode data.length) w 0
      ((w.set (temporaryPath path) none).set path (some (.file data (maskedMode w mode)))) := by
  have ht := temporaryPath_ne_nil path
  have hopened : Speaks (outs [0] ++ (inps (data ++ [0]) ++ outs [0]))
      (receiveOpened path data.length)
      (w.set (temporaryPath path) (some (.file [] (maskedMode w mode)))) 0
      ((w.set (temporaryPath path) none).set path (some (.file data (maskedMode w mode)))) :=
    sendStatus_speaks.bind
      ((receiveData_speaks _ ht data).bind (finishFile_speaks _ hfree hdest hplace))
  exact (openTemporary_speaks hlen hfree htemp).bind hopened

end Receive

theorem safeName_iff {name : Bytes} : safeName name = true ↔
    name ≠ [] ∧ name ≠ ascii "." ∧ name ≠ ascii ".." ∧ 47 ∉ name ∧ 92 ∉ name := by
  simp [safeName]

theorem safeName_temporaryPath {name : Bytes} (h : safeName name) :
    safeName (temporaryPath name) := by
  obtain ⟨-, -, -, hslash, hback⟩ := safeName_iff.1 h
  have hlong : 2 < (temporaryPath name).length := by
    simp [temporaryPath, ascii]
  refine safeName_iff.2 ⟨temporaryPath_ne_nil name, ?_, ?_, ?_, ?_⟩
  · intro heq
    rw [heq] at hlong
    exact absurd hlong (by decide)
  · intro heq
    rw [heq] at hlong
    exact absurd hlong (by decide)
  · simp [temporaryPath, ascii, hslash]
  · simp [temporaryPath, ascii, hback]

/-- The conditions under which a file of this name can be uploaded into the directory `dir`: the
record is one line, and the temporary name is short enough for the file system and for the
buffers of the worker. -/
structure Uploadable (dir name : Bytes) : Prop where
  oneLine : 10 ∉ name
  nameFits : (temporaryPath name).length ≤ nameMax
  pathFits : (temporaryPath (destinationPath dir name)).length < ps4ScpPathMax

/-- The directory `dir` has nothing in it. -/
structure IsEmptyDir (w : Files) (dir : Bytes) : Prop where
  isDir : w.lookup dir = some .dir
  empty : ∀ n, safeName n → w.lookup (destinationPath dir n) = none

/-- The directory with the uploaded file in it. -/
def uploaded (w : Files) (dir name data : Bytes) (mode : ℕ) : Files :=
  (w.set (temporaryPath (destinationPath dir name)) none).set (destinationPath dir name)
    (some (.file data (maskedMode w mode)))

/-- One record and its file, in the directory `dir`. -/
theorem receiveBody_speaks {dir name data l : Bytes} {mode : ℕ} (hl : 10 ∉ l)
    (hsize : l.length + 1 < 1024) (hC : (l ++ [10]).head? = some 67)
    (hc : parseControl (l ++ [10]) = some ⟨mode, data.length, name⟩) (hup : Uploadable dir name)
    (hdir : IsEmptyDir w dir) :
    Speaks (inps (l ++ [10]) ++ (outs [0] ++ (inps (data ++ [0]) ++ outs [0])))
      (receiveBody dir true 0) w (.inl 1) (uploaded w dir name data (mode % 2 ^ 32)) := by
  have hsafe : safeName name := (parseControl_name hc).1
  have hslash : 47 ∉ name := (safeName_iff.1 hsafe).2.2.2.1
  have hsafe' := safeName_temporaryPath hsafe
  have hslash' : 47 ∉ temporaryPath name := (safeName_iff.1 hsafe').2.2.2.1
  have hlen : name.length ≤ (temporaryPath name).length := by simp [temporaryPath]
  have hfree : w.lookup (temporaryPath (destinationPath dir name)) = none := by
    rw [temporaryPath_destinationPath]
    exact hdir.empty _ hsafe'
  have htemp : w.Placeable (temporaryPath (destinationPath dir name)) := by
    rw [temporaryPath_destinationPath]
    exact placeable_destinationPath hslash' (temporaryPath_ne_nil name) hup.nameFits hdir.isDir
  have hplace : w.Placeable (destinationPath dir name) :=
    placeable_destinationPath hslash (safeName_iff.1 hsafe).1 (Nat.le_trans hlen hup.nameFits)
      hdir.isDir
  have hdest : w.lookup (destinationPath dir name) ≠ some .dir := by
    rw [hdir.empty name hsafe]
    simp
  have hjoin : joinPath dir name = some (destinationPath dir name) := by
    have := hup.pathFits
    have hle : (destinationPath dir name).length ≤
        (temporaryPath (destinationPath dir name)).length := by simp [temporaryPath]
    exact if_neg (by omega)
  have hfile : Speaks (outs [0] ++ (inps (data ++ [0]) ++ outs [0]))
      (receiveFile (destinationPath dir name) (mode % 2 ^ 32) data.length) w 0
      (uploaded w dir name data (mode % 2 ^ 32)) :=
    receiveFile_speaks hup.pathFits hfree htemp hdest hplace
  refine (readLine_speaks hl hsize).bind ?_
  simp only [hC, ne_eq, not_true_eq_false, if_false, if_true, hc, hjoin]
  have h : Speaks (outs [0] ++ (inps (data ++ [0]) ++ outs [0]) ++ [])
      ((receiveFile (destinationPath dir name) (mode % 2 ^ 32) data.length).bind fun r =>
        if r ≠ 0 then pure (.inr 1) else pure (.inl (0 + 1)) : ScpProg (ℕ ⊕ ℤ)) w (.inl 1)
      (uploaded w dir name data (mode % 2 ^ 32)) :=
    hfile.bind fun d => .ret ⟨rfl, rfl, rfl⟩
  rwa [List.append_nil] at h

/-- The script of the sender: the status of the receiver, the record, the status, the data and
a zero byte, the status. -/
def sendScript (record data : Bytes) : List (Item UInt8) :=
  inps [0] ++ (outs record ++ (inps [0] ++ (outs (data ++ [0]) ++ inps [0])))

/-- The receiving end follows the dual of the sender's script. -/
theorem serveReceive_follows {request : ScpRequest} {name data l : Bytes} {mode : ℕ} (hl : 10 ∉ l)
    (hsize : l.length + 1 < 1024) (hC : (l ++ [10]).head? = some 67)
    (hc : parseControl (l ++ [10]) = some ⟨mode, data.length, name⟩)
    (hup : Uploadable request.path name) (hdir : IsEmptyDir w request.path) :
    Follows FileCall.Works
      (fun r w' e => e = [] ∧ r = 0 ∧ w' = uploaded w request.path name data (mode % 2 ^ 32))
      ((sendScript (l ++ [10]) data).map .dual ++ [Item.fin]) (serveReceive request) w := by
  have hscript : (sendScript (l ++ [10]) data).map .dual ++ [Item.fin] = outs [0] ++
      ((inps (l ++ [10]) ++ (outs [0] ++ (inps (data ++ [0]) ++ outs [0]))) ++ [Item.fin]) := by
    simp [sendScript, Item.dual, Function.comp_def]
  rw [hscript]
  refine Follows.loc ⟨_, _, FileCall.works_answer _ _⟩ ?_
  rintro r w₁ ⟨rfl, rfl⟩
  simp only [Files.stat, hdir.isDir, Option.map_some, Option.elim_some, Prog.ret_bind, receiveInto,
    not_true_eq_false, and_false, if_false]
  refine (sendStatus_speaks _).bind ?_
  rintro r w₂ e ⟨rfl, rfl, rfl⟩
  simp only [ne_eq, not_true_eq_false, if_false]
  refine .round ((receiveBody_speaks hl hsize hC hc hup hdir [Item.fin]).mono ?_)
  rintro x w₃ e ⟨rfl, rfl, rfl⟩
  refine .round ((readLine_eof (by decide)).bind ?_)
  rintro x w₄ e ⟨rfl, rfl, rfl⟩
  exact .ret ⟨rfl, rfl, rfl⟩

/-! ### The sending end -/

/-- The file open on the path is at position `n`. -/
def atOffset (w : Files) (path : Bytes) (n : ℕ) : Files :=
  { w with offset := Function.update w.offset path n }

section Send

variable {path content : Bytes} {mode : ℕ}

theorem advance_atOffset (n k : ℕ) :
    (atOffset w path n).advance path k = atOffset w path (n + k) := by
  simp [atOffset, Files.advance]

theorem unread_atOffset (hfile : w.lookup path = some (.file content mode)) (n : ℕ) :
    (atOffset w path n).unread path = content.drop n := by
  have hlook : (atOffset w path n).lookup path = some (.file content mode) := hfile
  simp only [Files.unread, hlook]
  simp [atOffset]

/-- The data of the file, in whatever pieces it is read. -/
theorem sendData_speaks (hfile : w.lookup path = some (.file content mode)) :
    Speaks (outs content) (Prog.iterate (sendDataBody path) content.length) (atOffset w path 0) true
      (atOffset w path content.length) := by
  suffices hloop : ∀ k n rest, rest.length ≤ k → content.drop n = rest → n ≤ content.length →
      Speaks (outs rest) (Prog.iterate (sendDataBody path) rest.length) (atOffset w path n) true
        (atOffset w path content.length) from
    hloop content.length 0 content (Nat.le_refl _) rfl (Nat.zero_le _)
  intro k
  induction k with
  | zero =>
    intro n rest hk hrest hn d
    obtain rfl := List.eq_nil_of_length_eq_zero (Nat.le_zero.1 hk)
    have hend : n = content.length := Nat.le_antisymm hn (List.drop_eq_nil_iff.1 hrest)
    exact .round (.ret ⟨rfl, by rw [hend], rfl⟩)
  | succ k ih =>
    intro n rest hk hrest hn d
    by_cases hr : rest = []
    · subst hr
      have hend : n = content.length := Nat.le_antisymm hn (List.drop_eq_nil_iff.1 hrest)
      exact .round (.ret ⟨rfl, by rw [hend], rfl⟩)
    · have hpos : 0 < rest.length := List.length_pos_iff.2 hr
      refine .round ?_
      simp only [sendDataBody, if_neg (Nat.pos_iff_ne_zero.1 hpos)]
      refine .loc ⟨_, _, FileCall.works_answer _ _⟩ ?_
      rintro r w' ⟨bs, tail, hbs, hle, hnil, rfl, rfl⟩
      rw [unread_atOffset hfile, hrest] at hbs
      have hne : bs ≠ [] := by
        rintro rfl
        obtain rfl | hzero := hnil rfl
        · exact hr hbs
        · omega
      have hlen : 0 < bs.length := List.length_pos_iff.2 hne
      simp only [Prog.ret_bind, if_neg hne, advance_atOffset]
      have hscript : outs rest ++ d = outs bs ++ (outs tail ++ d) := by simp [hbs]
      rw [hscript]
      refine (writeAll_speaks bs _).bind ?_
      rintro r w' e ⟨rfl, rfl, rfl⟩
      refine .ret ?_
      have hsub : rest.length - bs.length = tail.length := by
        rw [hbs, List.length_append]
        omega
      have htotal : rest.length = bs.length + tail.length := by rw [hbs, List.length_append]
      have hdrop : content.length - n = rest.length := by rw [← hrest, List.length_drop]
      rw [hsub]
      refine ih (n + bs.length) tail (by omega) ?_ (by omega) d
      rw [← List.drop_drop, hrest, hbs, List.drop_left]

/-- The sending end follows its script. -/
theorem serveSend_follows {request : ScpRequest}
    (hfile : w.lookup request.path = some (.file content mode))
    (hsize : content.length ≤ ps4ScpSafeSendMax) (hsafe : safeName (baseName request.path))
    (hlen : (baseName request.path).length ≤ nameMax) :
    Follows FileCall.Works (fun r _ e => e = [] ∧ r = 0)
      (sendScript (controlRecord mode content.length (baseName request.path)) content)
      (serveSend request) w := by
  have hrecord : ¬ (controlRecord mode content.length (baseName request.path)).length ≥
      ps4ScpPathMax + 64 := by
    have : (controlRecord mode content.length (baseName request.path)).length ≤ _ :=
      length_controlRecord_le hsize
    have hmax : nameMax = 255 ∧ ps4ScpPathMax = 1024 := ⟨rfl, rfl⟩
    omega
  have hopen : w.openRead request.path = some (atOffset w request.path 0) := by
    simp [Files.openRead, hfile, atOffset]
  refine (readStatus_speaks _).bind ?_
  rintro r w₁ e ⟨rfl, rfl, rfl⟩
  simp only [ne_eq, not_true_eq_false, if_false]
  refine .loc ⟨_, _, FileCall.works_answer _ _⟩ ?_
  rintro r w₂ ⟨rfl, rfl⟩
  simp only [Files.stat, hfile, Option.map_some, Option.elim_some, Prog.ret_bind,
    not_true_eq_false, if_false, gt_iff_lt, Nat.not_lt.2 hsize, hsafe, hrecord]
  refine (writeAll_speaks _ _).bind ?_
  rintro r w₃ e ⟨rfl, rfl, rfl⟩
  simp only [not_true_eq_false, if_false]
  refine (readStatus_speaks _).bind ?_
  rintro r w₄ e ⟨rfl, rfl, rfl⟩
  simp only [not_true_eq_false, if_false]
  refine .loc ⟨_, _, FileCall.works_answer _ _⟩ ?_
  intro r w₅ h₅
  simp only [FileCall.Works, hopen] at h₅
  obtain ⟨rfl, rfl⟩ := settles_some h₅
  simp only [Prog.ret_bind]
  have hscript : outs (content ++ [0]) ++ inps [0] = outs content ++ (outs [0] ++ inps [0]) := by
    simp
  rw [hscript]
  refine (sendData_speaks hfile _).bind ?_
  rintro complete w₆ e ⟨rfl, rfl, rfl⟩
  refine .loc ⟨_, _, FileCall.works_answer _ _⟩ ?_
  rintro r w₇ ⟨rfl, rfl⟩
  refine (writeAll_speaks [0] _).bind ?_
  rintro r w₈ e ⟨rfl, rfl, rfl⟩
  simp only [not_true_eq_false, if_false]
  refine readStatus_speaks.atEnd.bind ?_
  rintro r w₉ e ⟨rfl, rfl, rfl⟩
  exact .ret ⟨rfl, rfl⟩

end Send

/-! ### Both ends -/

/-- Exactly one file has appeared in the directory: the one that was sent. -/
def Delivered (dir name content : Bytes) (mode : ℕ) (w w' : Files) : Prop :=
  w'.lookup (destinationPath dir name) = some (.file content (maskedMode w mode)) ∧
    ∀ p, p ≠ destinationPath dir name → w'.lookup p = w.lookup p

theorem maskedMode_and (w : Files) (mode : ℕ) :
    maskedMode w ((mode &&& 0o777) % 2 ^ 32) = maskedMode w mode := by
  have hlt : mode &&& 0o777 < 2 ^ 32 := Nat.lt_of_le_of_lt Nat.and_le_right (by decide)
  rw [Nat.mod_eq_of_lt hlt, maskedMode, maskedMode, Nat.and_assoc mode, Nat.and_self]

theorem delivered_uploaded {dir name content : Bytes} {mode : ℕ} (hdir : IsEmptyDir w dir)
    (hsafe : safeName name) :
    Delivered dir name content mode w
      (uploaded w dir name content ((mode &&& 0o777) % 2 ^ 32)) := by
  have hne : destinationPath dir name ≠ [] := by
    simp [destinationPath, (safeName_iff.1 hsafe).1]
  refine ⟨by rw [uploaded, Files.lookup_set_self hne, maskedMode_and], ?_⟩
  intro p hp
  rw [uploaded, Files.lookup_set_of_ne hp]
  by_cases ht : p = temporaryPath (destinationPath dir name)
  · rw [ht, Files.lookup_set_self (temporaryPath_ne_nil _), temporaryPath_destinationPath,
      hdir.empty _ (safeName_temporaryPath hsafe)]
  · rw [Files.lookup_set_of_ne ht]

/-- A file that has arrived is one that can be uploaded. -/
theorem uploadable_of_eval {request : ScpRequest} {name content : Bytes} {mode : ℕ}
    {w₁ w₂ : ScpWorld} (hdir : IsEmptyDir w₁.own request.path) (hsafe : safeName name)
    (h : Evals (serveReceive request) w₁ 0 w₂)
    (hdel : Delivered request.path name content mode w₁.own w₂.own) :
    Uploadable request.path name := by
  obtain ⟨us, hus, hall⟩ := serveReceive_eval hdir.isDir h
  obtain ⟨u, hu, rfl⟩ : ∃ u ∈ us, u.name = name := by
    by_contra hno
    have hnone := hall.lookup_of_none (fun u hu heq => hno ⟨u, hu, heq⟩) (hdir.empty name hsafe)
    rw [hdel.1] at hnone
    cases hnone
  obtain ⟨f₁, f₂, hstored⟩ := hall.exists_stored hu
  have hslash : 47 ∉ temporaryPath u.name :=
    (safeName_iff.1 (safeName_temporaryPath hsafe)).2.2.2.1
  refine ⟨(hus.name_ok u hu).2, ?_, hstored.pathFits⟩
  have hname := hstored.nameFits
  rwa [temporaryPath_destinationPath, baseName_destinationPath hslash] at hname

/-- The two ends are connected by queues of `cap` bytes.  In every interleaving, for every size
of the chunks, both return `0` and exactly the file that was sent appears in the directory. -/
def Agrees (cap : ℕ) (source target : ScpRequest) (content : Bytes) (mode : ℕ) (v w : Files) :
    Prop :=
  Net.Must FileCall.Works FileCall.Works cap
    (fun a _ b w' => a = 0 ∧ b = 0 ∧
      Delivered target.path (baseName source.path) content mode w w')
    ⟨ps4ScpServe source, v, ps4ScpServe target, w, [], []⟩

theorem uploadable_of_agrees {cap mode : ℕ} {source target : ScpRequest} {v : Files}
    {content : Bytes} (hreceive : target.mode = .receive) (hsafe : safeName (baseName source.path))
    (hdir : IsEmptyDir w target.path) (h : Agrees cap source target content mode v w) :
    Uploadable target.path (baseName source.path) := by
  obtain ⟨a, v', b, w', rest, sent, ⟨-, rfl, hdel⟩, -, heval⟩ := h.exists_right_eval []
  simp only [ps4ScpServe, hreceive] at heval
  refine uploadable_of_eval hdir hsafe (heval.mono ?_) hdel
  intro c w₁ r w₂ hr
  exact hr.mono fun l w r w' h => .inl h

theorem agrees_of_uploadable {cap mode : ℕ} {source target : ScpRequest} {v : Files}
    {content : Bytes} (hcap : 0 < cap) (hsend : source.mode = .send)
    (hreceive : target.mode = .receive) (hnul : 0 ∉ source.path)
    (hfile : v.lookup source.path = some (.file content mode)) (hsize : content.length ≤ 8192)
    (hlen : (baseName source.path).length ≤ 255) (hsafe : safeName (baseName source.path))
    (hdir : IsEmptyDir w target.path) (hup : Uploadable target.path (baseName source.path)) :
    Agrees cap source target content mode v w := by
  have hnul' : 0 ∉ baseName source.path := by
    intro h
    have hmem := List.takeWhile_subset _ (List.mem_reverse.1 h)
    exact hnul (List.mem_reverse.1 hmem)
  obtain ⟨l, hl, hline, hhead⟩ : ∃ l : Bytes,
      controlRecord mode content.length (baseName source.path) = l ++ [10] ∧ 10 ∉ l ∧
      l.head? = some 67 := controlRecord_line hup.oneLine
  have hparse : parseControl (l ++ [10]) = some ⟨mode &&& 0o777, content.length,
      baseName source.path⟩ := by
    rw [← hl]
    exact parseControl_controlRecord hsafe hup.oneLine hnul' (Nat.le_trans hsize (by decide))
  have hshort : l.length + 1 < 1024 := by
    have hle : (controlRecord mode content.length (baseName source.path)).length ≤ _ :=
      length_controlRecord_le hsize
    rw [hl, List.length_append, List.length_singleton] at hle
    omega
  have hleft := serveSend_follows hfile hsize hsafe hlen
  rw [hl] at hleft
  have hright : Follows FileCall.Works _ _ (serveReceive target) w :=
    serveReceive_follows hline hshort (by simp [List.head?_append, hhead]) hparse hup hdir
  rw [Agrees, ps4ScpServe, ps4ScpServe, hsend, hreceive]
  refine (Net.must_of_follows hcap ?_ hleft hright).mono ?_
  · simp [sendScript]
  · rintro a v' b w' ⟨rfl, rfl, rfl⟩
    exact ⟨rfl, rfl, delivered_uploaded hdir hsafe⟩

/-- **The two ends of `scp` agree exactly on the names that can be uploaded.**  A regular file of
at most 8192 bytes with a safe base name of at most 255 bytes is sent to an empty directory.  Both
ends return `0` and the directory gets exactly this file, with its content and its mode less the
mask, if and only if the name has no newline and its temporary name fits. -/
theorem scp_agrees_iff {cap mode : ℕ} {source target : ScpRequest} {v : Files} {content : Bytes}
    (hcap : 0 < cap) (hsend : source.mode = .send) (hreceive : target.mode = .receive)
    (hnul : 0 ∉ source.path) (hfile : v.lookup source.path = some (.file content mode))
    (hsize : content.length ≤ 8192) (hlen : (baseName source.path).length ≤ 255)
    (hsafe : safeName (baseName source.path)) (hdir : IsEmptyDir w target.path) :
    Agrees cap source target content mode v w ↔ Uploadable target.path (baseName source.path) := by
  constructor
  · intro h
    exact uploadable_of_agrees hreceive hsafe hdir h
  · intro hup
    exact agrees_of_uploadable hcap hsend hreceive hnul hfile hsize hlen hsafe hdir hup

/-- A file system with a single file. -/
def singleFile (path content : Bytes) (mode : ℕ) : Files where
  entry p := if p = path then some (.file content mode) else none
  umask := 0o22
  offset _ := 0

theorem isEmptyDir_emptyDirectory {dir : Bytes} (hdir : dir ≠ []) :
    IsEmptyDir (emptyDirectory dir) dir := by
  refine ⟨by simp [emptyDirectory, Files.lookup, hdir], ?_⟩
  intro n hn
  have hne : n ≠ [] := (safeName_iff.1 hn).1
  have hpath : destinationPath dir n ≠ dir := by
    intro h
    have := congrArg List.length h
    have := List.length_pos_iff.2 hne
    simp only [destinationPath, List.length_append] at *
    omega
  simp [emptyDirectory, Files.lookup, hpath]

/-- The file `/s/a`, sent to the directory `/d`. -/
theorem scp_agrees_plain_name :
    Agrees 1 ⟨.send, ascii "/s/a", false, false⟩ ⟨.receive, ascii "/d", false, false⟩ (ascii "hi")
      0o644 (singleFile (ascii "/s/a") (ascii "hi") 0o644) (emptyDirectory (ascii "/d")) := by
  have hfile : (singleFile (ascii "/s/a") (ascii "hi") 0o644).lookup (ascii "/s/a") =
      some (.file (ascii "hi") 0o644) := by decide
  have hdir : IsEmptyDir (emptyDirectory (ascii "/d")) (ascii "/d") :=
    isEmptyDir_emptyDirectory (by decide)
  refine (scp_agrees_iff Nat.one_pos rfl rfl (by decide) hfile (by decide)
    (by decide) (by decide) hdir).2 ?_
  exact ⟨by decide, by decide, by decide⟩

/-- The file `/s/a⏎b`, whose name is safe: the record breaks in two, and the ends do not
agree. -/
theorem scp_disagrees_newline :
    safeName (baseName (ascii "/s/a\nb")) ∧ IsEmptyDir (emptyDirectory (ascii "/d")) (ascii "/d") ∧
      ¬ Agrees 1 ⟨.send, ascii "/s/a\nb", false, false⟩ ⟨.receive, ascii "/d", false, false⟩
        (ascii "hi") 0o644 (singleFile (ascii "/s/a\nb") (ascii "hi") 0o644)
        (emptyDirectory (ascii "/d")) := by
  have hdir : IsEmptyDir (emptyDirectory (ascii "/d")) (ascii "/d") :=
    isEmptyDir_emptyDirectory (by decide)
  refine ⟨by decide, hdir, ?_⟩
  intro h
  have hup := uploadable_of_agrees rfl (by decide) hdir h
  exact absurd hup.oneLine (by decide)

end ScpProg

end Ps4Dropbear
