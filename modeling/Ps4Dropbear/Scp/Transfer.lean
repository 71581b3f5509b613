import Ps4Dropbear.Scp.Upload

/-!
# A whole transfer

What `serve_receive` does to a directory over a whole stream of records.  `ClientStream s us` says
that the bytes `s` upload the files `us`, in that order; every stream after which `serve_receive`
returns `0` is of that form (`ScpProg.serveReceive_eval`).

Each upload claims a second name, that of its temporary file, and removes whatever has that name.
So an uploaded file is lost when a later one has its name as temporary name, and a file that was
there before is lost when it has the temporary name of an upload.  `PartNamesFree` says that
neither is the case, and `serveReceive_keeps_iff` that exactly then nothing is lost.
-/

namespace Ps4Dropbear

/-- A file in the stream of a client. -/
structure Upload where
  name : Bytes
  data : Bytes
  deriving DecidableEq, Repr

/-- The stream `s` uploads the files `us`: lines with a `T`, and lines with a `C` that
`serve_receive` accepts, each followed by the data announced in it and a zero byte. -/
inductive ClientStream : Bytes → List Upload → Prop
  | nil : ClientStream [] []
  | times {l s : Bytes} {us : List Upload} (hl : 10 ∉ l) (hT : (l ++ [10]).head? = some 84)
      (hs : ClientStream s us) : ClientStream (l ++ [10] ++ s) us
  | file {l data s : Bytes} {c : Control} {us : List Upload} (hl : 10 ∉ l)
      (hC : (l ++ [10]).head? = some 67) (hc : parseControl (l ++ [10]) = some c)
      (hdata : data.length = c.size) (hs : ClientStream s us) :
      ClientStream (l ++ [10] ++ (data ++ 0 :: s)) (⟨c.name, data⟩ :: us)

/-- A line ends at its first newline. -/
theorem line_unique {l l' s s' : Bytes} (hl : 10 ∉ l) (hl' : 10 ∉ l')
    (h : l ++ [10] ++ s = l' ++ [10] ++ s') : l = l' ∧ s = s' := by
  induction l generalizing l' with
  | nil =>
    cases l' with
    | nil => exact ⟨rfl, (List.cons.inj h).2⟩
    | cons c l' =>
      obtain ⟨rfl, -⟩ := List.cons.inj h
      exact absurd List.mem_cons_self hl'
  | cons b l ih =>
    cases l' with
    | nil =>
      obtain ⟨rfl, -⟩ := List.cons.inj h
      exact absurd List.mem_cons_self hl
    | cons c l' =>
      obtain ⟨rfl, htail⟩ := List.cons.inj h
      obtain ⟨rfl, rfl⟩ := ih (fun hm => hl (List.mem_cons_of_mem _ hm))
        (fun hm => hl' (List.mem_cons_of_mem _ hm)) htail
      exact ⟨rfl, rfl⟩

/-- A stream can be read in one way only. -/
theorem ClientStream.unique {s : Bytes} {us us' : List Upload} (h : ClientStream s us)
    (h' : ClientStream s us') : us = us' := by
  induction h generalizing us' with
  | nil =>
    generalize hs : ([] : Bytes) = s at h'
    cases h' with
    | nil => rfl
    | times => simp at hs
    | file => simp at hs
  | @times l s us hl hT _ ih =>
    generalize ht : l ++ [10] ++ s = t at h'
    cases h' with
    | nil => simp at ht
    | times hl' _ hs' =>
      obtain ⟨-, rfl⟩ := line_unique hl hl' ht
      exact ih hs'
    | file hl' hC =>
      obtain ⟨rfl, -⟩ := line_unique hl hl' ht
      rw [hT] at hC
      cases hC
  | @file l data s c us hl hC hc hdata _ ih =>
    generalize ht : l ++ [10] ++ (data ++ 0 :: s) = t at h'
    cases h' with
    | nil => simp at ht
    | times hl' hT =>
      obtain ⟨rfl, -⟩ := line_unique hl hl' ht
      rw [hC] at hT
      cases hT
    | @file l' data' s' c' us' hl' _ hc' hdata' hs' =>
      obtain ⟨rfl, hrest⟩ := line_unique hl hl' ht
      obtain rfl : c = c' := Option.some.inj (hc.symm.trans hc')
      obtain ⟨rfl, hzero⟩ := List.append_inj hrest (hdata.trans hdata'.symm)
      obtain rfl := (List.cons.inj hzero).2
      rw [ih hs']

theorem ClientStream.name_ok {s : Bytes} {us : List Upload} (h : ClientStream s us) :
    ∀ u ∈ us, safeName u.name ∧ 10 ∉ u.name := by
  induction h with
  | nil => simp
  | times _ _ _ ih => exact ih
  | file _ _ hc _ _ ih => exact List.forall_mem_cons.2 ⟨parseControl_name hc, ih⟩

/-! ### The directory after a list of uploads -/

/-- The file systems before and after the uploads `us` into the directory `path`. -/
inductive StoredAll (path : Bytes) : List Upload → Files → Files → Prop
  | nil {f : Files} : StoredAll path [] f f
  | cons {u : Upload} {us : List Upload} {f f₁ f' : Files}
      (hu : ScpProg.Stored (destinationPath path u.name) u.data f f₁)
      (hus : StoredAll path us f₁ f') : StoredAll path (u :: us) f f'

theorem destinationPath_inj {path a b : Bytes} :
    destinationPath path a = destinationPath path b ↔ a = b := by
  simp [destinationPath]

theorem temporaryPath_destinationPath (path name : Bytes) :
    temporaryPath (destinationPath path name) = destinationPath path (temporaryPath name) := by
  simp [temporaryPath, destinationPath]

namespace StoredAll

variable {path name : Bytes} {us pre post : List Upload} {u : Upload} {f f' : Files}

theorem append (h : StoredAll path (pre ++ post) f f') :
    ∃ f₁, StoredAll path pre f f₁ ∧ StoredAll path post f₁ f' := by
  induction pre generalizing f with
  | nil => exact ⟨f, .nil, h⟩
  | cons v pre ih =>
    cases h with
    | cons hv hus =>
      obtain ⟨f₁, hpre, hpost⟩ := ih hus
      exact ⟨f₁, .cons hv hpre, hpost⟩

theorem exists_stored (h : StoredAll path us f f') (hu : u ∈ us) :
    ∃ f₁ f₂, ScpProg.Stored (destinationPath path u.name) u.data f₁ f₂ := by
  induction h with
  | nil => cases hu
  | @cons v us f f₁ f' hv _ ih =>
    obtain rfl | hu := List.mem_cons.1 hu
    · exact ⟨f, f₁, hv⟩
    · exact ih hu

/-- A name that is neither uploaded nor the temporary name of an upload is left alone. -/
theorem lookup_of_untouched (h : StoredAll path us f f') (hname : ∀ u ∈ us, u.name ≠ name)
    (htemp : ∀ u ∈ us, temporaryPath u.name ≠ name) :
    f'.lookup (destinationPath path name) = f.lookup (destinationPath path name) := by
  induction h with
  | nil => rfl
  | @cons u us f f₁ f' hu _ ih =>
    obtain ⟨hn, hname⟩ := List.forall_mem_cons.1 hname
    obtain ⟨ht, htemp⟩ := List.forall_mem_cons.1 htemp
    rw [ih hname htemp, hu.other]
    · intro heq
      exact hn (destinationPath_inj.1 heq).symm
    · intro heq
      rw [temporaryPath_destinationPath] at heq
      exact ht (destinationPath_inj.1 heq).symm

/-- A name that names nothing names nothing until it is uploaded. -/
theorem lookup_of_none (h : StoredAll path us f f') (hname : ∀ u ∈ us, u.name ≠ name)
    (hnone : f.lookup (destinationPath path name) = none) :
    f'.lookup (destinationPath path name) = none := by
  induction h with
  | nil => exact hnone
  | @cons u us f f₁ f' hu _ ih =>
    obtain ⟨hn, hname⟩ := List.forall_mem_cons.1 hname
    refine ih hname ?_
    by_cases ht : temporaryPath u.name = name
    · rw [← ht, ← temporaryPath_destinationPath]
      exact hu.temporary
    · rw [hu.other, hnone]
      · intro heq
        exact hn (destinationPath_inj.1 heq).symm
      · intro heq
        rw [temporaryPath_destinationPath] at heq
        exact ht (destinationPath_inj.1 heq).symm

/-- The temporary name of an upload names nothing unless it is uploaded later. -/
theorem lookup_temporary (h : StoredAll path (pre ++ u :: post) f f')
    (hpost : ∀ v ∈ post, v.name ≠ temporaryPath u.name) :
    f'.lookup (destinationPath path (temporaryPath u.name)) = none := by
  obtain ⟨f₁, -, h₁⟩ := h.append
  cases h₁ with
  | cons hu hus =>
    refine hus.lookup_of_none hpost ?_
    rw [← temporaryPath_destinationPath]
    exact hu.temporary

/-- An uploaded name holds its data unless it is uploaded again or is the temporary name of a
later upload. -/
theorem lookup_uploaded (h : StoredAll path (pre ++ u :: post) f f')
    (hpost : ∀ v ∈ post, v.name ≠ u.name) (htemp : ∀ v ∈ post, temporaryPath v.name ≠ u.name) :
    ∃ mode, f'.lookup (destinationPath path u.name) = some (.file u.data mode) := by
  obtain ⟨f₁, -, h₁⟩ := h.append
  cases h₁ with
  | cons hu hus =>
    rw [hus.lookup_of_untouched hpost htemp]
    exact hu.destination

end StoredAll

/-- Every uploaded name holds the bytes sent for it, and every other entry of the directory is
what it was. -/
def KeepsFiles (path : Bytes) (us : List Upload) (f f' : Files) : Prop :=
  (∀ u ∈ us, ∃ mode, f'.lookup (destinationPath path u.name) = some (.file u.data mode)) ∧
    ∀ name, (∀ u ∈ us, u.name ≠ name) →
      f'.lookup (destinationPath path name) = f.lookup (destinationPath path name)

/-- No upload has the temporary name of a later one, and the temporary name of an upload is
either uploaded as well or not in the directory before. -/
def PartNamesFree (path : Bytes) (us : List Upload) (f : Files) : Prop :=
  us.Pairwise (fun u v => u.name ≠ temporaryPath v.name) ∧
    ∀ u ∈ us, f.lookup (destinationPath path (temporaryPath u.name)) = none ∨
      ∃ v ∈ us, v.name = temporaryPath u.name

/-- A later upload with the name of an earlier one as temporary name removes the earlier file. -/
theorem StoredAll.pairwise_of_lookup {path : Bytes} {us : List Upload} {f f' : Files}
    (h : StoredAll path us f f') (hnodup : us.Pairwise fun u v => u.name ≠ v.name)
    (hup : ∀ u ∈ us, f'.lookup (destinationPath path u.name) ≠ none) :
    us.Pairwise fun u v => u.name ≠ temporaryPath v.name := by
  induction h with
  | nil => exact .nil
  | @cons u us f f₁ f' _ hus ih =>
    obtain ⟨hu, hup⟩ := List.forall_mem_cons.1 hup
    obtain ⟨hne, hnodup⟩ := List.pairwise_cons.1 hnodup
    refine List.pairwise_cons.2 ⟨?_, ih hnodup hup⟩
    intro v hv heq
    obtain ⟨pre, post, rfl⟩ := List.append_of_mem hv
    refine hu ?_
    rw [heq]
    refine hus.lookup_temporary ?_
    intro x hx
    rw [← heq]
    exact (hne x (by simp [hx])).symm

/-- With distinct names, nothing is lost exactly when the temporary names are free. -/
theorem StoredAll.keepsFiles_iff {path : Bytes} {us : List Upload} {f f' : Files}
    (h : StoredAll path us f f') (hnodup : us.Pairwise fun u v => u.name ≠ v.name) :
    KeepsFiles path us f f' ↔ PartNamesFree path us f := by
  constructor
  · rintro ⟨hup, hold⟩
    refine ⟨h.pairwise_of_lookup hnodup ?_, ?_⟩
    · intro u hu
      obtain ⟨mode, hmode⟩ := hup u hu
      simp [hmode]
    · intro u hu
      by_cases hv : ∃ v ∈ us, v.name = temporaryPath u.name
      · exact .inr hv
      · have hno : ∀ v ∈ us, v.name ≠ temporaryPath u.name := fun v hm heq => hv ⟨v, hm, heq⟩
        obtain ⟨pre, post, rfl⟩ := List.append_of_mem hu
        rw [← hold _ hno, h.lookup_temporary fun v hm => hno v (by simp [hm])]
        exact .inl rfl
  · rintro ⟨hpair, hfree⟩
    refine ⟨?_, ?_⟩
    · intro u hu
      obtain ⟨pre, post, rfl⟩ := List.append_of_mem hu
      have hne := (List.pairwise_cons.1 (List.pairwise_append.1 hnodup).2.1).1
      have hpart := (List.pairwise_cons.1 (List.pairwise_append.1 hpair).2.1).1
      exact h.lookup_uploaded (fun v hv => (hne v hv).symm) fun v hv => (hpart v hv).symm
    · intro name hname
      by_cases ht : ∃ u ∈ us, temporaryPath u.name = name
      · obtain ⟨u, hu, rfl⟩ := ht
        have hnone := (hfree u hu).resolve_right fun ⟨v, hv, heq⟩ => hname v hv heq
        obtain ⟨pre, post, rfl⟩ := List.append_of_mem hu
        rw [hnone, h.lookup_temporary fun v hv => hname v (by simp [hv])]
      · exact h.lookup_of_untouched hname fun u hu heq => ht ⟨u, hu, heq⟩

/-! ### The loop over the records -/

namespace ScpProg

theorem badControl_eval {w w' : ScpWorld} {x : ℕ ⊕ ℤ} (h : Evals badControl w x w') :
    x = .inr 1 := by
  obtain ⟨r, w₁, -, hk⟩ := Prog.eval_bind.1 h
  exact (Prog.eval_ret.1 hk).1

/-- One round of `serve_receive` into a directory. -/
theorem receiveBody_cases {path : Bytes} {received : ℕ} {w w' : ScpWorld} {x : ℕ ⊕ ℤ}
    (h : Evals (receiveBody path true received) w x w') :
    x = .inr 1 ∨ (x = .inr 0 ∧ w.incoming = [] ∧ w' = w) ∨
      (∃ l n, x = .inl n ∧ 10 ∉ l ∧ (l ++ [10]).head? = some 84 ∧
        w.incoming = l ++ [10] ++ w'.incoming ∧ w'.own = w.own) ∨
      ∃ l n c data, x = .inl n ∧ 10 ∉ l ∧ (l ++ [10]).head? = some 67 ∧
        parseControl (l ++ [10]) = some c ∧ data.length = c.size ∧
        w.incoming = l ++ [10] ++ (data ++ 0 :: w'.incoming) ∧
        Stored (destinationPath path c.name) data w.own w'.own := by
  obtain ⟨status, w₁, hline, hk⟩ := Prog.eval_bind.1 h
  obtain ⟨l, rfl, hl, hw⟩ | ⟨rfl, hin, rfl⟩ | ⟨rfl, -⟩ := readLine_eval hline
  · have hin : w.incoming = l ++ [10] ++ w₁.incoming := by rw [hw]
    have hown : w₁.own = w.own := by rw [hw]
    by_cases hT : (l ++ [10]).head? = some 84
    · simp only [hT, if_true] at hk
      obtain ⟨r, w₂, hst, hk⟩ := Prog.eval_bind.1 hk
      obtain ⟨hown₂, hin₂⟩ := sendStatus_frame hst
      split at hk
      · exact .inl (Prog.eval_ret.1 hk).1
      · obtain ⟨rfl, rfl⟩ := Prog.eval_ret.1 hk
        exact .inr (.inr (.inl ⟨l, received, rfl, hl, hT, by rw [hin, hin₂], hown₂.trans hown⟩))
    · simp only [if_neg hT] at hk
      by_cases hC : (l ++ [10]).head? = some 67
      · simp only [hC, ne_eq, not_true_eq_false, if_false, if_true] at hk
        split at hk
        · exact .inl (badControl_eval hk)
        · next c hc =>
          split at hk
          · exact .inl (badControl_eval hk)
          · next dest hdest =>
            obtain ⟨r, w₂, hfile, hk⟩ := Prog.eval_bind.1 hk
            split at hk
            · exact .inl (Prog.eval_ret.1 hk).1
            · next hr =>
              obtain rfl : r = 0 := not_not.1 hr
              obtain ⟨rfl, rfl⟩ := Prog.eval_ret.1 hk
              obtain ⟨hr, -⟩ | ⟨data, hlen, hin₂, hstored⟩ := receiveFile_eval hfile
              · cases hr
              · obtain rfl := joinPath_eq_some hdest
                rw [hown] at hstored
                exact .inr (.inr (.inr ⟨l, _, c, data, rfl, hl, hC, hc, hlen, by rw [hin, hin₂],
                  hstored⟩))
      · simp only [ne_eq, hC, not_false_eq_true, if_true] at hk
        obtain ⟨r, w₂, -, hk⟩ := Prog.eval_bind.1 hk
        exact .inl (Prog.eval_ret.1 hk).1
  · obtain ⟨rfl, rfl⟩ := Prog.eval_ret.1 hk
    exact .inr (.inl ⟨rfl, hin, rfl⟩)
  · exact .inl (Prog.eval_ret.1 hk).1

/-- A transfer into a directory that ends with `0`: the stream is a stream of uploads, and the
file system is what they leave. -/
theorem serveReceive_eval {request : ScpRequest} {w w' : ScpWorld}
    (hdir : w.own.lookup request.path = some .dir) (h : Evals (serveReceive request) w 0 w') :
    ∃ us, ClientStream w.incoming us ∧ StoredAll request.path us w.own w'.own := by
  obtain ⟨r, w₁, ⟨o, hmay, rfl⟩, hk⟩ := Prog.eval_perform_bind.1 h
  obtain ⟨rfl, rfl⟩ | ⟨⟨⟩, -⟩ := hmay
  simp only [Files.stat, hdir, Option.map_some, Option.elim_some, receiveInto, not_true_eq_false,
    and_false, if_false] at hk
  obtain ⟨r, w₁, hst, hk⟩ := Prog.eval_bind.1 hk
  obtain ⟨hown₁, hin₁⟩ := sendStatus_frame hst
  split at hk
  · cases (Prog.eval_ret.1 hk).1
  · rw [← hown₁, ← hin₁]
    -- by induction over the rounds, each of which adds at most one upload
    refine Prog.eval_loop_induction (P := fun _ w₂ => ∃ us, ClientStream w₂.incoming us ∧
      StoredAll request.path us w₂.own w'.own) ?_ ?_ hk
    · rintro n n' w₂ w₃ hb ⟨us, hus, hall⟩
      obtain hx | ⟨hx, -⟩ | ⟨l, _, -, hl, hT, hin, hown⟩ |
        ⟨l, _, c, data, -, hl, hC, hc, hlen, hin, hstored⟩ := receiveBody_cases hb
      · cases hx
      · cases hx
      · rw [hin, ← hown]
        exact ⟨us, .times hl hT hus, hall⟩
      · rw [hin]
        exact ⟨⟨c.name, data⟩ :: us, .file hl hC hc hlen hus, .cons hstored hall⟩
    · intro n b w₂ w₃ hb hret
      obtain ⟨rfl, rfl⟩ := Prog.eval_ret.1 hret
      obtain hx | ⟨-, hin, rfl⟩ | ⟨l, _, hx, -⟩ | ⟨l, _, c, data, hx, -⟩ := receiveBody_cases hb
      · cases hx
      · exact ⟨[], by rw [hin]; exact .nil, .nil⟩
      · cases hx
      · cases hx

/-- **What a transfer keeps.**  When `serve_receive` returns `0` after a stream that uploads
files with distinct names into a directory, every uploaded name holds the bytes sent for it and
every other entry is unchanged, if and only if no upload has the temporary name of a later one
and no temporary name was taken by a file that is not uploaded itself. -/
theorem serveReceive_keeps_iff {request : ScpRequest} {w w' : ScpWorld} {us : List Upload}
    (hdir : w.own.lookup request.path = some .dir) (hus : ClientStream w.incoming us)
    (hnodup : us.Pairwise fun u v => u.name ≠ v.name) (h : Evals (serveReceive request) w 0 w') :
    KeepsFiles request.path us w.own w'.own ↔ PartNamesFree request.path us w.own := by
  obtain ⟨us', hus', hall⟩ := serveReceive_eval hdir h
  obtain rfl := hus.unique hus'
  exact hall.keepsFiles_iff hnodup

/-- `scp -t /d`. -/
def receiveInD : ScpRequest := ⟨.receive, ascii "/d", false, false⟩

/-- A record for one byte of data. -/
theorem clientStream_record {l data s : Bytes} {us : List Upload} (c : Control)
    (hs : ClientStream s us)
    (h : 10 ∉ l ∧ (l ++ [10]).head? = some 67 ∧ parseControl (l ++ [10]) = some c ∧
      data.length = c.size) :
    ClientStream (l ++ [10] ++ (data ++ 0 :: s)) (⟨c.name, data⟩ :: us) :=
  .file h.1 h.2.1 h.2.2.1 h.2.2.2 hs

/-- A single upload into an empty directory. -/
theorem serveReceive_keeps_single :
    ∃ w', Evals (serveReceive receiveInD) ⟨emptyDirectory (ascii "/d"),
        ascii "C0644 1 x" ++ [10] ++ (ascii "b" ++ 0 :: []), []⟩ 0 w' ∧
      KeepsFiles (ascii "/d") [⟨ascii "x", ascii "b"⟩] (emptyDirectory (ascii "/d")) w'.own := by
  obtain ⟨w', hrun, -⟩ := Prog.exists_eval_of_run answers_may (n := 200)
    (f := fun _ => ()) (p := serveReceive receiveInD) (a := 0)
    (w := ⟨emptyDirectory (ascii "/d"), ascii "C0644 1 x" ++ [10] ++ (ascii "b" ++ 0 :: []), []⟩)
    (x := ()) (by decide)
  refine ⟨w', hrun, ?_⟩
  have hstream : ClientStream (ascii "C0644 1 x" ++ [10] ++ (ascii "b" ++ 0 :: []))
      [⟨ascii "x", ascii "b"⟩] :=
    clientStream_record ⟨0o644, 1, ascii "x"⟩ .nil (by decide)
  refine (serveReceive_keeps_iff (by decide) hstream (by simp) hrun).2 ?_
  refine ⟨by simp, ?_⟩
  simp only [List.mem_singleton, forall_eq]
  exact .inl (by decide)

/-- An upload of `x.ps4scp-part` followed by one of `x`. -/
def clashingStream : Bytes :=
  ascii "C0644 1 x.ps4scp-part" ++ [10] ++ (ascii "a" ++ 0 ::
    (ascii "C0644 1 x" ++ [10] ++ (ascii "b" ++ 0 :: [])))

/-- Both uploads are acknowledged, `serve_receive` returns `0`, and the first file is gone. -/
theorem serveReceive_loses_upload :
    ∃ w' us, ClientStream clashingStream us ∧ us.Pairwise (fun u v => u.name ≠ v.name) ∧
      Evals (serveReceive receiveInD) ⟨emptyDirectory (ascii "/d"), clashingStream, []⟩ 0 w' ∧
      ¬ KeepsFiles (ascii "/d") us (emptyDirectory (ascii "/d")) w'.own := by
  obtain ⟨w', hrun, hlook⟩ := Prog.exists_eval_of_run answers_may (n := 300)
    (f := fun w : ScpWorld => w.own.lookup (ascii "/d/x.ps4scp-part"))
    (p := serveReceive receiveInD) (a := 0)
    (w := ⟨emptyDirectory (ascii "/d"), clashingStream, []⟩) (x := none) (by decide)
  refine ⟨w', [⟨ascii "x.ps4scp-part", ascii "a"⟩, ⟨ascii "x", ascii "b"⟩], ?_, by decide,
    hrun, ?_⟩
  · refine clientStream_record ⟨0o644, 1, ascii "x.ps4scp-part"⟩ ?_ (by decide)
    exact clientStream_record ⟨0o644, 1, ascii "x"⟩ .nil (by decide)
  · rintro ⟨hup, -⟩
    obtain ⟨mode, hmode⟩ := hup _ List.mem_cons_self
    have hpath : destinationPath (ascii "/d") (ascii "x.ps4scp-part") =
        ascii "/d/x.ps4scp-part" := by decide
    rw [hpath, hlook] at hmode
    cases hmode

end ScpProg

end Ps4Dropbear
