import Ps4Dropbear.Prog.Safety
import Ps4Dropbear.Scp.Confinement
import Ps4Dropbear.Scp.Record

/-!
# The framing of a download

`serve_send` announces a size from one `stat`, and takes the content from a later `open` and many
reads.  Here nothing is known about the file: every call may be answered in any way that its
interface allows, so the file may grow, shrink, be replaced or removed at any time, and reads and
writes may be short or fail.

* `Emission` : what a part of the worker has added to a history.
* `writeAll_safe`, `readStatus_safe`, `sendData_safe` : the parts.
* `serveSend_framed` : **the framing of a download**.
-/

namespace Ps4Dropbear

namespace ScpProg

/-- What a call has written to the socket. -/
def emittedBy : ScpEvent → Bytes
  | ⟨.send bs, .ok n⟩ => bs.take n
  | _ => []

/-- What a call has read from the socket. -/
def takenBy : ScpEvent → Bytes
  | ⟨.recv _, .ok bs⟩ => bs
  | _ => []

/-- What `stat` has said. -/
def statOf : ScpEvent → List Stat
  | ⟨.loc (.stat _), .ok st⟩ => [st]
  | _ => []

/-- A call returns no more than it was asked for. -/
def Legal : ScpEvent → Prop
  | ⟨.recv n, .ok bs⟩ => bs.length ≤ n
  | ⟨.send bs, .ok n⟩ => n ≤ bs.length
  | ⟨.loc (.read _ n), .ok bs⟩ => bs.length ≤ n
  | _ => True

/-- All that has been written to the socket. -/
def emitted (h : List ScpEvent) : Bytes := h.flatMap emittedBy

/-- All that has been read from it. -/
def taken (h : List ScpEvent) : Bytes := h.flatMap takenBy

/-- The history `h` goes on from `g`: `out` has been written since, `inp` has been read, and no
`stat` has been answered. -/
structure Emission (g : List ScpEvent) (out inp : Bytes) (h : List ScpEvent) : Prop where
  emitted : emitted h = emitted g ++ out
  taken : taken h = taken g ++ inp
  stat : h.flatMap statOf = g.flatMap statOf

variable {g h : List ScpEvent} {out inp : Bytes} {I : List ScpEvent → Prop}

theorem Emission.refl (g : List ScpEvent) : Emission g [] [] g :=
  ⟨(List.append_nil _).symm, (List.append_nil _).symm, rfl⟩

theorem Emission.trans {out' inp' : Bytes} {h' : List ScpEvent} (h₁ : Emission g out inp h)
    (h₂ : Emission h out' inp' h') : Emission g (out ++ out') (inp ++ inp') h' :=
  ⟨by rw [h₂.emitted, h₁.emitted, List.append_assoc],
    by rw [h₂.taken, h₁.taken, List.append_assoc], h₂.stat.trans h₁.stat⟩

/-- One more call. -/
theorem Emission.snoc (he : Emission g out inp h) (x : ScpEvent) (hx : statOf x = []) :
    Emission g (out ++ emittedBy x) (inp ++ takenBy x) (h ++ [x]) := by
  refine he.trans ⟨?_, ?_, ?_⟩
  · rw [ScpProg.emitted, List.flatMap_append, List.flatMap_singleton]
    rfl
  · rw [ScpProg.taken, List.flatMap_append, List.flatMap_singleton]
    rfl
  · rw [List.flatMap_append, List.flatMap_singleton, hx, List.append_nil]

/-- One more call that has nothing to do with the socket, or has failed. -/
theorem Emission.quiet (he : Emission g out inp h) (x : ScpEvent) (hx : statOf x = [])
    (hout : emittedBy x = []) (hin : takenBy x = []) : Emission g out inp (h ++ [x]) := by
  have hsnoc := he.snoc x hx
  rwa [hout, hin, List.append_nil, List.append_nil] at hsnoc

/-! ### Reading and writing -/

/-- `write_all` writes a beginning of its data, and all of it when it returns `0`. -/
theorem writeAll_safe (data : Bytes) (hI : ∀ h n, Emission g (data.take n) [] h → I h) :
    Prog.Safe Legal I (fun r h => ∃ n, Emission g (data.take n) [] h ∧ (r = 0 → data.length ≤ n))
      (writeAll data) g := by
  refine Prog.Safe.iterate (fun s h => ∃ n, s.1 = data.drop n ∧ Emission g (data.take n) [] h)
    ⟨0, rfl, .refl g⟩ ?_
  rintro ⟨bytes, retries⟩ h ⟨n, hbytes, hem⟩
  dsimp only at hbytes
  subst hbytes
  unfold writeAllBody
  dsimp only
  split_ifs with hnil
  · exact .ret (hI h n hem) ⟨n, hem, fun _ => List.drop_eq_nil_iff.1 hnil⟩
  · refine .perform_bind (hI h n hem) fun r hr => ?_
    cases r with
    | error e =>
      have hem' := hem.quiet ⟨.send ((data.drop n).take 512), .error e⟩ rfl rfl rfl
      rcases retryOr_cases (fun r => (data.drop n, r)) (-1 : ℤ) retries e with ⟨k, hk⟩ | hk
      · dsimp only
        rw [hk]
        exact .ret (hI _ n hem') ⟨n, rfl, hem'⟩
      · dsimp only
        rw [hk]
        exact .ret (hI _ n hem') ⟨n, hem', nofun⟩
    | ok sent =>
      have hsent : sent ≤ 512 := by
        have hle : sent ≤ ((data.drop n).take 512).length := hr
        rw [List.length_take] at hle
        omega
      have hem' := hem.snoc ⟨.send ((data.drop n).take 512), .ok sent⟩ rfl
      have hout : data.take n ++ ((data.drop n).take 512).take sent = data.take (n + sent) := by
        rw [List.take_take, Nat.min_eq_left hsent, ← List.take_add]
      change Emission g (data.take n ++ ((data.drop n).take 512).take sent) [] _ at hem'
      rw [hout] at hem'
      dsimp only
      split_ifs with hzero
      · exact .ret (hI _ _ hem') ⟨n + sent, hem', nofun⟩
      · exact .ret (hI _ _ hem') ⟨n + sent, List.drop_drop, hem'⟩

/-- `read_all` writes nothing, and returns what it has read. -/
theorem readAll_safe (len : ℕ) (hI : ∀ h inp, Emission g [] inp h → I h) :
    Prog.Safe Legal I (fun r h => ∃ inp, Emission g [] inp h ∧
      ∀ data, r = some data → data = inp ∧ len ≤ inp.length) (readAll len) g := by
  refine Prog.Safe.iterate (fun s h => Emission g [] s.1 h) (.refl g) ?_
  rintro ⟨data, retries⟩ h hem
  dsimp only at hem
  unfold readAllBody
  dsimp only
  split_ifs with hlen
  · refine .ret (hI h data hem) ⟨data, hem, ?_⟩
    rintro _ ⟨⟩
    exact ⟨rfl, hlen⟩
  · refine .perform_bind (hI h data hem) fun r hr => ?_
    cases r with
    | error e =>
      have hem' := hem.quiet ⟨.recv (len - data.length), .error e⟩ rfl rfl rfl
      rcases retryOr_cases (fun r => (data, r)) (none : Option Bytes) retries e with ⟨k, hk⟩ | hk
      · dsimp only
        rw [hk]
        exact .ret (hI _ _ hem') hem'
      · dsimp only
        rw [hk]
        exact .ret (hI _ _ hem') ⟨data, hem', nofun⟩
    | ok got =>
      have hem' := hem.snoc ⟨.recv (len - data.length), .ok got⟩ rfl
      dsimp only
      split_ifs with hnil
      · exact .ret (hI _ _ hem') ⟨_, hem', nofun⟩
      · exact .ret (hI _ _ hem') hem'

/-- `read_line` writes nothing. -/
theorem readLine_safe {size : ℕ} (hI : ∀ h inp, Emission g [] inp h → I h) :
    Prog.Safe Legal I (fun _ h => ∃ inp, Emission g [] inp h) (readLine size) g := by
  refine Prog.Safe.iterate (fun _ h => ∃ inp, Emission g [] inp h) ⟨[], .refl g⟩ ?_
  rintro ⟨line, retries⟩ h ⟨inp, hem⟩
  unfold readLineBody
  dsimp only
  split
  · refine .perform_bind (hI h inp hem) fun r hr => ?_
    cases r with
    | error e =>
      have hem' := hem.quiet ⟨.recv 1, .error e⟩ rfl rfl rfl
      rcases retryOr_cases (fun r => (line, r)) LineStatus.error retries e with ⟨k, hk⟩ | hk
      · dsimp only
        rw [hk]
        exact .ret (hI _ _ hem') ⟨_, hem'⟩
      · dsimp only
        rw [hk]
        exact .ret (hI _ _ hem') ⟨_, hem'⟩
    | ok got =>
      have hem' := hem.snoc ⟨.recv 1, .ok got⟩ rfl
      cases got with
      | nil => exact .ret (hI _ _ hem') ⟨_, hem'⟩
      | cons c cs =>
        dsimp only
        split_ifs
        · exact .ret (hI _ _ hem') ⟨_, hem'⟩
        · exact .ret (hI _ _ hem') ⟨_, hem'⟩
  · refine Prog.Safe.ret (hI h inp hem) ?_
    exact ⟨inp, hem⟩

/-- `read_status` writes nothing, and returns `0` when it has read a zero. -/
theorem readStatus_safe (hI : ∀ h inp, Emission g [] inp h → I h) :
    Prog.Safe Legal I (fun r h => ∃ inp, Emission g [] inp h ∧ (r = 0 → inp = [0])) readStatus
      g := by
  refine (readAll_safe 1 hI).bind ?_
  rintro r h hh ⟨inp, hem, hdata⟩
  split
  · next status =>
    obtain ⟨hinp, -⟩ := hdata [status] rfl
    subst hinp
    split_ifs with hzero hmsg
    · subst hzero
      exact .ret hh ⟨_, hem, fun _ => rfl⟩
    · refine (readLine_safe fun h' inp' hem' => hI h' _ (hem.trans hem')).bind ?_
      rintro _ h' hh' ⟨inp', hem'⟩
      exact .ret hh' ⟨_, hem.trans hem', nofun⟩
    · exact .ret hh ⟨_, hem, nofun⟩
  · exact .ret hh ⟨inp, hem, nofun⟩

/-- `send_status` with an error writes a beginning of the message. -/
theorem sendStatus_safe {message : Bytes}
    (hI : ∀ h out, Emission g out [] h → out <+: 1 :: (message ++ [10]) → I h) :
    Prog.Safe Legal I (fun _ _ => True) (sendStatus 1 (some message)) g := by
  refine (writeAll_safe [1] fun h n hem =>
    hI h _ hem ((List.take_prefix n _).trans (by simp))).bind ?_
  rintro r₁ h₁ hh₁ ⟨n₁, hem₁, hall₁⟩
  by_cases hr₁ : r₁ ≠ 0
  · rw [if_pos hr₁]
    exact .ret hh₁ trivial
  rw [if_neg hr₁]
  dsimp only
  rw [if_neg (by decide)]
  rw [List.take_of_length_le (hall₁ (not_not.1 hr₁))] at hem₁
  refine (writeAll_safe message fun h n hem => hI h _ (hem₁.trans hem) ?_).bind ?_
  · rw [List.singleton_append, List.prefix_cons_inj]
    exact (List.take_prefix n _).trans (List.prefix_append _ _)
  rintro r₂ h₂ hh₂ ⟨n₂, hem₂, hall₂⟩
  by_cases hr₂ : r₂ ≠ 0
  · rw [if_pos hr₂]
    exact .ret hh₂ trivial
  rw [if_neg hr₂]
  rw [List.take_of_length_le (hall₂ (not_not.1 hr₂))] at hem₂
  refine (writeAll_safe [10] fun h n hem =>
    hI h _ ((hem₁.trans hem₂).trans hem) ?_).bind ?_
  · rw [List.singleton_append, List.cons_append, List.prefix_cons_inj,
      List.prefix_append_right_inj]
    exact List.take_prefix n _
  rintro r₃ h₃ hh₃ -
  split_ifs
  · exact .ret hh₃ trivial
  · exact .ret hh₃ trivial

/-- The loop of `serve_send` writes no more than it was told, and all of it when it is complete. -/
theorem sendData_safe {path : Bytes} {size : ℕ}
    (hI : ∀ h out, Emission g out [] h → out.length ≤ size → I h) :
    Prog.Safe Legal I (fun r h => ∃ out, Emission g out [] h ∧ out.length ≤ size ∧
      (r = true → out.length = size)) (Prog.iterate (sendDataBody path) size) g := by
  refine Prog.Safe.iterate (fun remaining h => ∃ out, Emission g out [] h ∧
    out.length + remaining = size) ⟨[], .refl g, Nat.zero_add _⟩ ?_
  rintro remaining h ⟨out, hem, hout⟩
  have hle : out.length ≤ size := by omega
  unfold sendDataBody
  split_ifs with hzero
  · refine Prog.Safe.ret (hI h out hem hle) ?_
    exact ⟨out, hem, hle, fun _ => by omega⟩
  refine .perform_bind (hI h out hem hle) fun r hr => ?_
  have hem' : Emission g out [] (h ++ [⟨.loc (.read path (min remaining 4096)), r⟩]) :=
    hem.quiet _ rfl rfl rfl
  split
  · exact .ret (hI _ out hem' hle) ⟨out, hem', hout⟩
  · exact .ret (hI _ out hem' hle) ⟨out, hem', hle, nofun⟩
  · next got =>
    have hgot : got.length ≤ remaining := Nat.le_trans hr (Nat.min_le_left _ _)
    split_ifs with hnil
    · exact .ret (hI _ out hem' hle) ⟨out, hem', hle, nofun⟩
    have hpart (n : ℕ) : (out ++ got.take n).length ≤ size := by
      rw [List.length_append, List.length_take]
      omega
    refine (writeAll_safe _ fun h n hw => hI h _ (hem'.trans hw) (hpart n)).bind ?_
    rintro r h' hh' ⟨n, hw, hall⟩
    split_ifs with hr'
    · exact .ret hh' ⟨_, hem'.trans hw, hpart n, nofun⟩
    · refine .ret hh' ⟨_, hem'.trans hw, ?_⟩
      rw [List.take_of_length_le (hall (not_not.1 hr')), List.length_append]
      omega

/-! ### The whole of `serve_send` -/

/-- All that `stat` has said. -/
def stats (h : List ScpEvent) : List Stat := h.flatMap statOf

/-- The record that announces the file, as `stat` has described it. -/
def announcement (request : ScpRequest) (st : Stat) : Bytes :=
  controlRecord st.mode st.size (baseName request.path)

/-- What is sent after the record that announces `n` bytes is a beginning of `n` bytes and a
zero. -/
def Framed (request : ScpRequest) (h : List ScpEvent) : Prop :=
  ∀ st ∈ stats h, announcement request st <+: emitted h →
    ∃ d : Bytes, d.length = st.size ∧ emitted h <+: announcement request st ++ d ++ [0]

variable {request : ScpRequest} {st : Stat}

theorem framed_of_stats_nil (hnil : stats h = []) : Framed request h := by
  intro st hst
  rw [hnil] at hst
  cases hst

/-- After the only `stat`, which comes before any output. -/
theorem framed_of_stat (hst : stats g = [st]) (hg : emitted g = []) (hem : Emission g out inp h)
    (hout : announcement request st <+: out →
      ∃ d : Bytes, d.length = st.size ∧ out <+: announcement request st ++ d ++ [0]) :
    Framed request h := by
  intro st' hst'
  rw [stats, hem.stat, ← stats, hst, List.mem_singleton] at hst'
  subst hst'
  rw [hem.emitted, hg, List.nil_append]
  exact hout

theorem framed_of_length_le (hst : stats g = [st]) (hg : emitted g = []) {data : Bytes}
    (hem : Emission g (announcement request st ++ data) inp h) (hdata : data.length ≤ st.size) :
    Framed request h := by
  refine framed_of_stat hst hg hem fun _ => ?_
  refine ⟨data ++ List.replicate (st.size - data.length) 0, ?_, ?_⟩
  · rw [List.length_append, List.length_replicate]
    omega
  · rw [List.append_assoc, List.append_assoc, List.prefix_append_right_inj]
    exact List.prefix_append _ _

/-- An error message is no announcement. -/
theorem no_announcement (message : Bytes) (hout : out <+: 1 :: message) :
    ¬ announcement request st <+: out := by
  intro h
  have hhead := h.trans hout
  rw [announcement, controlRecord_eq] at hhead
  obtain ⟨t, ht⟩ := hhead
  cases ht

/-- What has been sent and read when `serve_send` returns `0`. -/
def Complete (request : ScpRequest) (h : List ScpEvent) : Prop :=
  ∃ (st : Stat) (d : Bytes), stats h = [st] ∧ d.length = st.size ∧
    emitted h = announcement request st ++ d ++ [0] ∧ taken h = [0, 0, 0]

/-- The end of a download: the zero byte and the last status. -/
theorem sendEnd_safe {d : Bytes} (hst : stats g = [st]) (hg : emitted g = [])
    (hread : taken g ++ inp = [0, 0]) (hem : Emission g (announcement request st ++ d) inp h)
    (hd : d.length = st.size) :
    Prog.Safe Legal (Framed request) (fun (r : ℤ) h => r = 0 → Complete request h)
      (do
        if (← writeAll [0]) ≠ 0 then return 1
        if (← readStatus) ≠ 0 then return 1
        return 0) h := by
  refine (writeAll_safe _ fun h' n hem' => ?_).bind ?_
  · refine framed_of_stat hst hg (hem.trans hem') fun _ => ⟨d, hd, ?_⟩
    rw [List.prefix_append_right_inj]
    exact List.take_prefix n _
  rintro r₁ h₁ hh₁ ⟨n, hem₁, hall⟩
  by_cases hr₁ : r₁ ≠ 0
  · rw [if_pos hr₁]
    exact .ret hh₁ nofun
  rw [if_neg hr₁]
  rw [List.take_of_length_le (hall (not_not.1 hr₁))] at hem₁
  have hzero := hem.trans hem₁
  rw [List.append_nil] at hzero
  refine (readStatus_safe fun h' inp' hem' => ?_).bind ?_
  · refine framed_of_stat hst hg (hzero.trans hem') fun _ => ⟨d, hd, ?_⟩
    rw [List.append_nil]
  rintro r₂ h₂ hh₂ ⟨inp₂, hem₂, hlast⟩
  by_cases hr₂ : r₂ ≠ 0
  · rw [if_pos hr₂]
    exact .ret hh₂ nofun
  rw [if_neg hr₂]
  obtain rfl := hlast (not_not.1 hr₂)
  have hdone := hzero.trans hem₂
  refine .ret hh₂ fun _ => ⟨st, d, hdone.stat.trans hst, hd, ?_, ?_⟩
  · rw [hdone.emitted, hg, List.nil_append, List.append_nil]
  · rw [hdone.taken, ← List.append_assoc, hread]
    rfl

/-- A download from the record on, when `stat` has described the file. -/
theorem sendRecord_safe (hst : stats g = [st]) (hg : emitted g = []) (hread : taken g = [0]) :
    Prog.Safe Legal (Framed request) (fun (r : ℤ) h => r = 0 → Complete request h)
      (do
        if (← writeAll (announcement request st)) ≠ 0 then return 1
        if (← readStatus) ≠ 0 then return 1
        match ← file (.openRead request.path) with
        | .error _ => return 1
        | .ok () =>
          let complete ← Prog.iterate (sendDataBody request.path) st.size
          match ← file (.close request.path), complete with
          | .ok (), true =>
            if (← writeAll [0]) ≠ 0 then return 1
            if (← readStatus) ≠ 0 then return 1
            return 0
          | _, _ => return 1) g := by
  refine (writeAll_safe _ fun h n hem => ?_).bind ?_
  · refine framed_of_stat hst hg hem fun _ => ⟨List.replicate st.size 0, by simp, ?_⟩
    rw [List.append_assoc]
    exact (List.take_prefix n _).trans (List.prefix_append _ _)
  rintro r₁ h₁ hh₁ ⟨n, hem₁, hall⟩
  by_cases hr₁ : r₁ ≠ 0
  · rw [if_pos hr₁]
    exact .ret hh₁ nofun
  rw [if_neg hr₁]
  rw [List.take_of_length_le (hall (not_not.1 hr₁)), ← List.append_nil (announcement _ _)] at hem₁
  refine (readStatus_safe fun h inp hem => ?_).bind ?_
  · have hrec := hem₁.trans hem
    rw [List.append_nil] at hrec
    exact framed_of_length_le hst hg hrec (Nat.zero_le _)
  rintro r₂ h₂ hh₂ ⟨inp₂, hem₂, hzero⟩
  by_cases hr₂ : r₂ ≠ 0
  · rw [if_pos hr₂]
    exact .ret hh₂ nofun
  rw [if_neg hr₂]
  obtain rfl := hzero (not_not.1 hr₂)
  have hrec := hem₁.trans hem₂
  rw [List.append_assoc] at hrec
  refine .perform_bind hh₂ fun r _ => ?_
  have hopen := hrec.quiet ⟨.loc (.openRead request.path), r⟩ rfl rfl rfl
  cases r with
  | error e => exact .ret (framed_of_length_le hst hg hopen (Nat.zero_le _)) nofun
  | ok =>
    have hsum {h' : List ScpEvent} {d : Bytes} (hem : Emission
        (h₂ ++ [⟨.loc (.openRead request.path), .ok ()⟩]) d [] h') :
        Emission g (announcement request st ++ d) [0] h' := by
      have htrans := hopen.trans hem
      rwa [List.append_assoc] at htrans
    refine (sendData_safe fun h' d hem hd => framed_of_length_le hst hg (hsum hem) hd).bind ?_
    rintro complete h₃ hh₃ ⟨d, hem₃, hle, hcomplete⟩
    refine .perform_bind hh₃ fun r _ => ?_
    have hclose := (hsum hem₃).quiet ⟨.loc (.close request.path), r⟩ rfl rfl rfl
    split
    · exact sendEnd_safe hst hg (by rw [hread]; rfl) hclose (hcomplete rfl)
    · exact .ret (framed_of_length_le hst hg hclose hle) nofun

/-- `serve_send` keeps the frame, and returns `0` when it is complete. -/
theorem serveSend_safe (request : ScpRequest) :
    Prog.Safe Legal (Framed request) (fun (r : ℤ) h => r = 0 → Complete request h)
      (serveSend request) [] := by
  have hquiet (h : List ScpEvent) (inp : Bytes) (hem : Emission [] [] inp h) :
      Framed request h := framed_of_stats_nil hem.stat
  refine (readStatus_safe hquiet).bind ?_
  rintro r₁ h₁ hh₁ ⟨inp₁, hem₁, hzero₁⟩
  by_cases hr₁ : r₁ ≠ 0
  · rw [if_pos hr₁]
    exact .ret hh₁ nofun
  rw [if_neg hr₁]
  obtain rfl := hzero₁ (not_not.1 hr₁)
  refine .perform_bind hh₁ fun r hr => ?_
  cases r with
  | error e =>
    -- nothing has been announced
    have hstat := hem₁.quiet ⟨.loc (.stat request.path), .error e⟩ rfl rfl rfl
    refine (sendStatus_safe fun h out hem _ => ?_).bind fun _ h hh _ => .ret hh nofun
    exact framed_of_stats_nil (hstat.trans hem).stat
  | ok st =>
    generalize hg : h₁ ++ [⟨.loc (.stat request.path), .ok st⟩] = g
    have hst : stats g = [st] := by
      rw [← hg, stats, List.flatMap_append, hem₁.stat]
      rfl
    have hout : emitted g = [] := by
      rw [← hg, emitted, List.flatMap_append, ← emitted, hem₁.emitted]
      rfl
    have hin : taken g = [0] := by
      rw [← hg, taken, List.flatMap_append, ← taken, hem₁.taken]
      rfl
    have hstart : Framed request g := framed_of_stat hst hout (.refl g) fun h =>
      absurd h (no_announcement [] List.nil_prefix)
    have herror (message : Bytes) : Prog.Safe Legal (Framed request)
        (fun (r : ℤ) h => r = 0 → Complete request h)
        (do
          let _ ← sendStatus 1 (some message)
          return 1) g := by
      refine (sendStatus_safe fun h out hem hmsg => ?_).bind fun _ h hh _ => .ret hh nofun
      exact framed_of_stat hst hout hem fun h => absurd h (no_announcement _ hmsg)
    dsimp only
    by_cases hreg : ¬ st.isReg = true
    · rw [if_pos hreg]
      exact herror _
    rw [if_neg hreg]
    by_cases hmax : st.size > ps4ScpSafeSendMax
    · rw [if_pos hmax]
      exact herror _
    rw [if_neg hmax]
    by_cases hsafe : ¬ safeName (baseName request.path) = true
    · rw [if_pos hsafe]
      exact .ret hstart nofun
    rw [if_neg hsafe]
    by_cases hlen : (announcement request st).length ≥ ps4ScpPathMax + 64
    · rw [announcement] at hlen
      rw [if_pos hlen]
      exact .ret hstart nofun
    rw [announcement] at hlen
    rw [if_neg hlen]
    exact sendRecord_safe hst hout hin

/-- **The framing of a download.**  At every point of every run of `serve_send`, whatever happens to
the file and whatever the client says: after the record that announces the size `n` comes a
beginning of `n` bytes and one zero, and `0` is returned only after all of these and three statuses
of zero. -/
theorem serveSend_framed {request : ScpRequest} {h : List ScpEvent} {q : ScpProg ℤ}
    (hs : Prog.Steps (serveSend request) h q) (hlegal : ∀ x ∈ h, Legal x) :
    (∀ st ∈ stats h, announcement request st <+: emitted h →
      ∃ d : Bytes, d.length = st.size ∧ emitted h <+: announcement request st ++ d ++ [0]) ∧
    (q = .ret 0 → ∃ (st : Stat) (d : Bytes), stats h = [st] ∧ d.length = st.size ∧
      emitted h = announcement request st ++ d ++ [0] ∧ taken h = [0, 0, 0]) := by
  obtain ⟨hframed, hret⟩ := serveSend_safe request h q hs hlegal
  exact ⟨hframed, fun hq => hret 0 hq rfl⟩

/-- A file that `stat` finds to have five bytes, and that is cut down to two before it is read; the
client only sends zeros.  The state is the number of bytes read from the file. -/
def shrinkingFile : (c : IoCall UInt8 FileCall) → ℕ → IoCall.Answer FileCall.Answer c × ℕ
  | .recv n, pos => (.ok (List.replicate n 0), pos)
  | .send bs, pos => (.ok bs.length, pos)
  | .loc (.stat _), pos => (.ok ⟨true, false, 0o644, 5⟩, pos)
  | .loc (.read _ n), pos =>
    (.ok (((ascii "ab").drop pos).take n), pos + (((ascii "ab").drop pos).take n).length)
  | .loc (.openRead _), _ => (.ok (), 0)
  | .loc (.close _), pos => (.ok (), pos)
  | .loc (.unlink _), pos | .loc (.creat _ _), pos | .loc (.rename _ _), pos => (.error .other, pos)
  | .loc (.write _ _), pos => (.error .other, pos)

theorem shrinkingFile_legal (c : IoCall UInt8 FileCall) (pos : ℕ) :
    Legal ⟨c, (shrinkingFile c pos).1⟩ := by
  match c with
  | .recv n => exact Nat.le_of_eq List.length_replicate
  | .send bs => exact Nat.le_refl _
  | .loc (.read _ n) => exact List.length_take_le _ _
  | .loc (.stat _) | .loc (.openRead _) | .loc (.close _) => trivial
  | .loc (.unlink _) | .loc (.creat _ _) | .loc (.rename _ _) | .loc (.write _ _) => trivial

/-- Two of five announced bytes are sent, and nothing after them. -/
theorem serveSend_framed_shrunk :
    ∃ h q, Prog.Steps (serveSend ⟨.send, ascii "/d/x", false, false⟩) h q ∧
      emitted h = ascii "C0644 5 x\nab" ∧
      ∃ d : Bytes, d.length = 5 ∧ emitted h <+: ascii "C0644 5 x\n" ++ d ++ [0] := by
  obtain ⟨q, hs⟩ := Prog.steps_history shrinkingFile 200
    (serveSend ⟨.send, ascii "/d/x", false, false⟩) 0
  have hlegal := Prog.forall_mem_history shrinkingFile_legal 200
    (serveSend ⟨.send, ascii "/d/x", false, false⟩) 0
  have hout : emitted (Prog.history shrinkingFile 200
      (serveSend ⟨.send, ascii "/d/x", false, false⟩) 0) = ascii "C0644 5 x\nab" := by
    decide
  have hstat : ⟨true, false, 0o644, 5⟩ ∈ stats (Prog.history shrinkingFile 200
      (serveSend ⟨.send, ascii "/d/x", false, false⟩) 0) := by
    decide
  have hrecord : announcement ⟨.send, ascii "/d/x", false, false⟩ ⟨true, false, 0o644, 5⟩ =
      ascii "C0644 5 x\n" := by
    decide
  obtain ⟨d, hd, hframe⟩ := (serveSend_framed hs hlegal).1 _ hstat (by
    rw [hout, hrecord]
    decide)
  rw [hrecord] at hframe
  exact ⟨_, q, hs, hout, d, hd, hframe⟩

end ScpProg

end Ps4Dropbear
