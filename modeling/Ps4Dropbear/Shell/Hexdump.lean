import Ps4Dropbear.Shell.Grep
import Ps4Dropbear.Shell.Numeric
import Ps4Dropbear.Text.Dump

/-!
# `hexdump`

`command_hexdump` prints one row for each read, however many bytes the read returned.  A read that
is interrupted is made again; `interrupted` is a system in which this happens a number of times, at
any of the reads.

* `interrupted` : a system with interrupted reads.
* `total_hexdumpLoop` : the rows printed so far are those of the bytes read so far.

**Main result**: what `hexdump` prints is read back as the bytes of the file up to the limit, and
each row has the number of the bytes in front of it as its offset (`hexdump_decodes`).
-/

namespace Ps4Dropbear

/-- A system whose reads may be interrupted, as many times as the second part of the world says. -/
def interrupted {W : Type} (H : (c : ShellCall) → W → c.Answer → W → Prop) :
    (c : ShellCall) → W × ℕ → c.Answer → W × ℕ → Prop
  | .read fd len, w, r, w' =>
    r = .error .eintr ∧ w'.1 = w.1 ∧ w.2 = w'.2 + 1 ∨ H (.read fd len) w.1 r w'.1 ∧ w'.2 = w.2
  | c, w, r, w' => H c w.1 r w'.1 ∧ w'.2 = w.2

/-- Each row has the number of the bytes in front of it as its offset. -/
def Offsets (rows : List (ℕ × Bytes)) : Prop :=
  ∀ (pre : List (ℕ × Bytes)) (row : ℕ × Bytes) post, rows = pre ++ row :: post →
    row.1 = (pre.flatMap (·.2)).length

theorem Offsets.nil : Offsets [] := by
  intro pre row post h
  simp at h

theorem Offsets.concat {rows : List (ℕ × Bytes)} (h : Offsets rows) (bs : Bytes) :
    Offsets (rows ++ [((rows.flatMap (·.2)).length, bs)]) := by
  intro pre row post heq
  rcases List.eq_nil_or_concat post with rfl | ⟨init, last, rfl⟩
  · obtain ⟨rfl, hrow⟩ := List.append_inj' heq rfl
    rw [← List.singleton_inj.1 hrow]
  · rw [List.concat_eq_append, ← List.cons_append, ← List.append_assoc] at heq
    exact h pre row init (List.append_inj' heq rfl).1

namespace ShellProg

variable {L : Libc} {errno : Errno} {state : ShellState} {path content name out : Bytes}

section Writer

variable {α W : Type} {H : (c : ShellCall) → W → c.Answer → W → Prop} {w : W}

/-- The bytes of a row. -/
theorem total_hexBytes {bs : Bytes} {f : ℤ → ShellProg α} {Q : α → W × Bytes → Prop}
    (hf : Prog.Total (WriterProg.Writes WriterProg.keepAll H) Q (f 0) (w, out ++ hexText bs)) :
    Prog.Total (WriterProg.Writes WriterProg.keepAll H) Q ((hexBytes bs).bind f) (w, out) := by
  induction bs generalizing out with
  | nil =>
    rw [hexText, List.append_nil] at hf
    exact hf
  | cons c bs ih =>
    have hstep : ∀ sep : Bytes, sep.length ≤ 1 →
        hexByte c ++ sep ++ hexText bs = hexText (c :: bs) →
        sep = (if bs = [] then [] else ascii " ") →
        Prog.Total (WriterProg.Writes WriterProg.keepAll H) Q ((hexBytes (c :: bs)).bind f)
          (w, out) := by
      rintro sep hsep htext rfl
      unfold hexBytes
      rw [Prog.bind_eq_bind, Prog.bind_assoc]
      refine total_writeFmt ?_ ?_
      · have hbyte := length_hexByte c
        rw [← hexByte, List.length_append]
        omega
      · rw [if_neg (by decide)]
        refine ih ?_
        rw [← hexByte, List.append_assoc, htext]
        exact hf
    cases bs with
    | nil => exact hstep [] (by simp) (by simp [hexText]) rfl
    | cons d bs =>
      refine hstep [32] (by simp) ?_ rfl
      rw [hexText.eq_3 c (d :: bs) (List.cons_ne_nil d bs), List.append_assoc,
        List.singleton_append]

end Writer

/-- `close` at the end of the loop. -/
theorem total_closing_interrupted {whole : Bool} {v : ℕ × ℕ} {fd : ℕ} {σ : Type} {status : ℤ}
    {Q : σ ⊕ ℤ → (ℕ × ℕ) × Bytes → Prop} (hQ : Q (.inr status) (v, out)) :
    Prog.Total (WriterProg.Writes WriterProg.keepAll (interrupted (servesFile whole path content)))
      Q (closing fd (pure status)) (v, out) := by
  unfold closing
  refine WriterProg.total_loc ⟨.ok (), v, rfl, rfl⟩ ?_
  rintro r ⟨w, n⟩ ⟨hw, hn⟩
  obtain rfl : (w, n) = v := Prod.ext hw hn
  exact .ret hQ

/-- The rows that have been printed are those of the first `w` bytes. -/
structure Printed (content : Bytes) (limit w : ℕ) (rows : List (ℕ × Bytes)) : Prop where
  bytes : rows.flatMap (·.2) = content.take w
  offsets : Offsets rows
  ne_nil : ∀ row ∈ rows, row.2 ≠ []
  le_length : w ≤ content.length
  le_limit : w ≤ limit

/-- The loop of `command_hexdump`. -/
theorem total_hexdumpLoop {fd limit n : ℕ} (hlimit : limit < 2 ^ 64) :
    Prog.Total (WriterProg.Writes WriterProg.keepAll (interrupted (servesFile false path content)))
      (fun status v => status = 0 ∧ ∃ rows, Printed content limit v.1.1 rows ∧
        (limit ≤ v.1.1 ∨ content.length ≤ v.1.1) ∧ v.2 = out ++ rows.flatMap dumpRow)
      (Prog.iterate (hexdumpBody L name limit fd) 0) ((0, n), out) := by
  -- a read takes bytes of the file or one of the interruptions
  refine Prog.Total.iterate (fun offset v => offset = v.1.1 ∧ ∃ rows,
      Printed content limit v.1.1 rows ∧ v.2 = out ++ rows.flatMap dumpRow)
    (fun _ v => content.length - v.1.1 + v.1.2)
    ⟨rfl, [], ⟨by simp, .nil, by simp, Nat.zero_le _, Nat.zero_le _⟩, by simp⟩ ?_
  rintro offset ⟨⟨w, n⟩, out₁⟩ ⟨hoffset, rows, hp, hout⟩
  dsimp only at hoffset hp hout
  subst offset
  unfold hexdumpBody
  split
  · next hlt =>
    obtain ⟨r₀, w₀, hread⟩ := @exists_read false path content w fd (min (limit - w) 16)
    refine WriterProg.total_loc ⟨r₀, (w₀, n), .inr ⟨hread, rfl⟩⟩ ?_
    rintro r ⟨w', n'⟩ (⟨rfl, hw, hn⟩ | ⟨⟨data, rfl, ⟨rest, hrest⟩, hend, -, hw⟩, hn⟩)
    · dsimp only at hw hn
      subst hw
      refine .ret ⟨⟨rfl, rows, hp, hout⟩, ?_⟩
      dsimp only
      omega
    · dsimp only at hrest hend hw hn
      subst hw hn
      dsimp only
      have hlen : w + data.1.length + rest.length = content.length := by
        have hle := hp.le_length
        have hl := congrArg List.length hrest
        rw [List.length_append, List.length_drop] at hl
        omega
      split
      · next hempty =>
        have hnil : content.drop w = [] := (hend hempty).resolve_left (by omega)
        refine total_closing_interrupted ⟨rfl, rows, ?_, .inr ?_, hout⟩
        · rw [hempty]
          exact hp
        · rw [hempty]
          exact List.drop_eq_nil_iff.1 hnil
      · next hdata =>
        have hpos := List.length_pos_of_ne_nil hdata
        have hread := data.2
        have hbytes : (rows ++ [(w, data.1)]).flatMap (·.2) =
            content.take (w + data.1.length) := by
          rw [List.flatMap_append, hp.bytes, List.take_add, ← hrest, List.take_left]
          simp
        have hcount : (rows.flatMap (·.2)).length = w := by
          rw [hp.bytes, List.length_take, Nat.min_eq_left hp.le_length]
        have hdigits : (printHex w).length ≤ 16 := length_printHex (by decide) (by omega)
        have htext : (padLeft 8 48 (printHex w) ++ ascii "  ").length ≤ 2047 := by
          have hblanks : (ascii "  ").length = 2 := rfl
          rw [List.length_append, padLeft, List.length_append, List.length_replicate, hblanks]
          omega
        refine total_writeFmt htext ?_
        rw [if_neg (by decide)]
        refine total_hexBytes ?_
        rw [if_neg (by decide)]
        refine total_writeAll ?_
        rw [if_neg (by decide)]
        refine .ret ⟨⟨rfl, rows ++ [(w, data.1)], ⟨hbytes, ?_, ?_, ?_, ?_⟩, ?_⟩, ?_⟩
        · have h := hp.offsets.concat data.1
          rw [hcount] at h
          exact h
        · intro row hrow
          rcases List.mem_append.1 hrow with h | h
          · exact hp.ne_nil row h
          · rw [List.mem_singleton.1 h]
            exact hdata
        · dsimp only
          omega
        · dsimp only
          omega
        · dsimp only
          rw [hout, List.flatMap_append]
          simp [dumpRow, ascii]
        · dsimp only
          omega
  · next hge =>
    exact total_closing_interrupted ⟨rfl, rows, hp, .inl (Nat.not_lt.1 hge), hout⟩

/-- `strtoull` returns 64 bits. -/
theorem strtoulBase_lt {base : ℕ} {s : Bytes} {r : Strtoul} (h : strtoulBase base s = some r) :
    r.value < 2 ^ 64 := by
  unfold strtoulBase at h
  dsimp only at h
  generalize List.dropWhile isCSpace s = t at h
  generalize (if t.head? = some 45 ∨ t.head? = some 43 then t.tail else t) = t' at h
  generalize digitsValue base _ = d at h
  split_ifs at h with _ hrange
  · cases h
    norm_num
  · cases h
    exact Nat.mod_lt _ (by norm_num)
  · cases h
    exact Nat.not_le.1 hrange

theorem hexdumpArgs_lt {argv : List Bytes} {limit : ℕ}
    (h : hexdumpArgs argv = some (name, limit)) : limit < 2 ^ 64 := by
  unfold hexdumpArgs at h
  split at h
  · cases h
    norm_num
  · obtain ⟨-, h⟩ := Option.ite_none_right_eq_some.1 h
    split at h
    · obtain ⟨-, h⟩ := Option.ite_none_right_eq_some.1 h
      cases h
      norm_num
    · next r hr =>
      obtain ⟨-, h⟩ := Option.ite_none_right_eq_some.1 h
      cases h
      exact strtoulBase_lt hr
  · cases h

end ShellProg

open ShellProg (hexdumpArgs resolveArg ps4ShellExecute)

/-- **What `hexdump` prints is read back.**  Reads may be short, and any number of them may be
interrupted: the rows hold the bytes of the file up to the limit, and the offset of each row is the
number of the bytes in front of it. -/
theorem hexdump_decodes (L : Libc) (errno : Errno) (state : ShellState)
    {line name path content out : Bytes} {args : List Bytes} {limit w interruptions : ℕ}
    (hsplit : splitCommand line = some (ascii "hexdump" :: args))
    (hargs : hexdumpArgs (ascii "hexdump" :: args) = some (name, limit))
    (hpath : resolveArg state name = some path) :
    Prog.Total (WriterProg.Writes WriterProg.keepAll (interrupted (servesFile false path content)))
      (fun r v => r = (0, state) ∧ ∃ text rows, v.2 = out ++ text ∧ parseDump text = some rows ∧
        rows.flatMap (·.2) = content.take limit ∧ Offsets rows)
      (ps4ShellExecute L errno state line) ((w, interruptions), out) := by
  rw [ShellProg.ps4ShellExecute_of_split hsplit (by decide), NumericCommand.command_hexdump, hargs]
  have hopen : Prog.Total
      (WriterProg.Writes WriterProg.keepAll (interrupted (servesFile false path content)))
      (fun status v => status = 0 ∧ ∃ rows, ShellProg.Printed content limit v.1.1 rows ∧
        (limit ≤ v.1.1 ∨ content.length ≤ v.1.1) ∧ v.2 = out ++ rows.flatMap dumpRow)
      (ShellProg.commandHexdump L state name limit) ((w, interruptions), out) := by
    unfold ShellProg.commandHexdump ShellProg.openArg
    rw [hpath]
    refine WriterProg.total_loc ⟨.ok 0, (0, interruptions), ⟨rfl, ⟨0, rfl⟩, rfl⟩, rfl⟩ ?_
    rintro r ⟨w', n'⟩ ⟨⟨-, ⟨fd, rfl⟩, hw⟩, hn⟩
    dsimp only at hw hn
    subst hw hn
    exact ShellProg.total_hexdumpLoop (ShellProg.hexdumpArgs_lt hargs)
  refine hopen.bind ?_
  rintro status v ⟨rfl, rows, hp, hend, hout⟩
  refine .ret ⟨rfl, rows.flatMap dumpRow, rows, hout, parseDump_flatMap hp.ne_nil, ?_, hp.offsets⟩
  rw [hp.bytes]
  rcases hend with hend | hend
  · rw [Nat.le_antisymm hend hp.le_limit]
  · have hle := hp.le_limit
    rw [List.take_of_length_le hend, List.take_of_length_le (hend.trans hle)]

/-- The first two bytes of three, with one interruption. -/
theorem hexdump_decodes_two :
    Prog.Total (WriterProg.Writes WriterProg.keepAll
        (interrupted (servesFile false (ascii "/data/f") (ascii "abc"))))
      (fun r v => r = (0, ⟨ascii "/data", ascii "/data"⟩) ∧ ∃ text rows, v.2 = [] ++ text ∧
        parseDump text = some rows ∧ rows.flatMap (·.2) = ascii "ab" ∧ Offsets rows)
      (ps4ShellExecute plainLibc .zero ⟨ascii "/data", ascii "/data"⟩ (ascii "hexdump -n 2 f"))
      ((0, 1), []) := by
  have hsplit : splitCommand (ascii "hexdump -n 2 f") =
      some (ascii "hexdump" :: [ascii "-n", ascii "2", ascii "f"]) := by decide +kernel
  have hargs : hexdumpArgs (ascii "hexdump" :: [ascii "-n", ascii "2", ascii "f"]) =
      some (ascii "f", 2) := by decide +kernel
  exact hexdump_decodes plainLibc .zero ⟨ascii "/data", ascii "/data"⟩ hsplit hargs
    resolveArg_f

end Ps4Dropbear
