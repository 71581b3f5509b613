import Mathlib.Algebra.Order.Ring.Int
import Mathlib.Data.Int.LeastGreatest
import Mathlib.Data.List.Basic
import Mathlib.Order.Bounds.Defs

/-!
# How long the loop sleeps

`session_loop` sleeps in `select` for as long as `select_timeout` says, and then runs
`checktimeouts`.  The two have a list of deadlines each, and the lists differ.

* `deadlines`, `watched` : the deadlines of `checktimeouts`, and those of `select_timeout`.
* `checktimeouts_iff`, `selectTimeout_le_iff` : what the functions make of them.

* `Covered` : what the stamps have to be for the deadlines that `select_timeout` leaves out.

**Main result**: the loop never sleeps past a deadline exactly then (`selectTimeout_iff`).
-/

namespace Ps4Dropbear

/-! ### The session -/

/-- `KEX_REKEY_TIMEOUT`. -/
def kexRekeyTimeout : ℤ := 3600 * 8

/-- `KEX_REKEY_DATA`. -/
def kexRekeyData : UInt32 := 1073741824

/-- `AUTH_TIMEOUT`. -/
def authTimeout : ℤ := 300

/-- `DEFAULT_KEEPALIVE_LIMIT`. -/
def defaultKeepaliveLimit : ℤ := 3

/-- `LONG_MAX`. -/
def longMax : ℤ := 2 ^ 63 - 1

/-- The options that are times, in seconds; 0 is off.  They are read as an `unsigned int`. -/
structure TimeOpts where
  keepaliveSecs : ℤ
  idleTimeoutSecs : ℤ
  maxDurationSecs : ℤ
  keepalive_lt : keepaliveSecs < 2 ^ 32
  idle_lt : idleTimeoutSecs < 2 ^ 32
  duration_lt : maxDurationSecs < 2 ^ 32

/-- The session, as far as the timeouts look at it. -/
structure SessionTimes where
  opts : TimeOpts
  connectTime : ℤ
  authdone : ℕ
  /-- The identification of the other side has been read. -/
  remoteident : Bool
  sentkexinit : Bool
  lastkextime : ℤ
  datarecv : UInt32
  datatrans : UInt32
  needrekey : Bool
  lastPacketTimeAnySent : ℤ
  lastPacketTimeKeepaliveRecv : ℤ
  lastPacketTimeKeepaliveSent : ℤ
  lastPacketTimeIdle : ℤ

/-- `elapsed`. -/
def elapsed (now prev : ℤ) : ℤ := min (now - prev) longMax

/-! ### `checktimeouts` -/

/-- What `checktimeouts` does. -/
inductive TimeoutAction
  | kexinit
  | keepalive
  | close (msg : String)
  | exit (msg : String)
  deriving DecidableEq, Repr

/-- The rekeying in `checktimeouts`; the message for it is a packet. -/
def checkRekey (s : SessionTimes) (now : ℤ) : List TimeoutAction × SessionTimes :=
  if !s.sentkexinit ∧ (elapsed now s.lastkextime ≥ kexRekeyTimeout ∨
      s.datarecv + s.datatrans ≥ kexRekeyData ∨ s.needrekey) then
    ([.kexinit], { s with
      needrekey := false, sentkexinit := true
      lastPacketTimeAnySent := now, lastPacketTimeIdle := now })
  else ([], s)

/-- The keepalives in `checktimeouts`.  They do not count for `last_packet_time_idle`. -/
def checkKeepalive (s : SessionTimes) (now : ℤ) : List TimeoutAction :=
  let secs := s.opts.keepaliveSecs
  if secs > 0 ∧ s.authdone ≠ 0 then
    let keepaliveSent :=
      if elapsed now s.lastPacketTimeAnySent ≥ secs then now else s.lastPacketTimeKeepaliveSent
    (if elapsed now s.lastPacketTimeAnySent ≥ secs then [TimeoutAction.keepalive] else []) ++
    (if elapsed now s.lastPacketTimeKeepaliveRecv ≥ secs ∧ elapsed now keepaliveSent ≥ secs then
      [TimeoutAction.keepalive] else []) ++
    if elapsed now s.lastPacketTimeKeepaliveRecv ≥ secs * defaultKeepaliveLimit then
      [TimeoutAction.exit "Keepalive timeout"] else []
  else []

/-- The end of `checktimeouts`. -/
def checkDuration (s : SessionTimes) (now : ℤ) : List TimeoutAction :=
  if s.opts.idleTimeoutSecs > 0 ∧ elapsed now s.lastPacketTimeIdle ≥ s.opts.idleTimeoutSecs then
    [.close "Idle timeout"]
  else if s.opts.maxDurationSecs > 0 ∧ elapsed now s.connectTime ≥ s.opts.maxDurationSecs then
    [.close "Max duration reached"]
  else []

/-- `checktimeouts` at the time `now`. -/
def checktimeouts (s : SessionTimes) (now : ℤ) : List TimeoutAction :=
  if s.authdone ≠ 1 ∧ elapsed now s.connectTime ≥ authTimeout then [.close "Timeout before auth"]
  -- we can't rekey if we haven't done remote ident exchange yet
  else if !s.remoteident then []
  else
    let (rekey, s) := checkRekey s now
    let keepalive := checkKeepalive s now
    if .exit "Keepalive timeout" ∈ keepalive then rekey ++ keepalive
    else rekey ++ keepalive ++ checkDuration s now

/-! ### `select_timeout` -/

/-- `update_timeout`: the new `*timeout`. -/
def updateTimeout (limit now lastEvent timeout : ℤ) : ℤ :=
  if lastEvent > 0 ∧ limit > 0 then min timeout (max 0 (limit - elapsed now lastEvent))
  else timeout

/-- `select_timeout` at the time `now`. -/
def selectTimeout (s : SessionTimes) (now : ℤ) : ℤ :=
  let timeout := kexRekeyTimeout
  let timeout :=
    if !s.sentkexinit then updateTimeout kexRekeyTimeout now s.lastkextime timeout else timeout
  let timeout := if s.needrekey then 0 else timeout
  let timeout :=
    if s.authdone ≠ 1 then updateTimeout authTimeout now s.connectTime timeout else timeout
  let timeout :=
    if s.authdone ≠ 0 then
      updateTimeout s.opts.keepaliveSecs now
        (max s.lastPacketTimeKeepaliveRecv s.lastPacketTimeKeepaliveSent) timeout
    else timeout
  let timeout := updateTimeout s.opts.idleTimeoutSecs now s.lastPacketTimeIdle timeout
  let timeout := updateTimeout s.opts.maxDurationSecs now s.connectTime timeout
  -- clamp negative timeouts to zero - event has already triggered
  max timeout 0

/-! ### Deadlines -/

/-- A deadline, if there is one. -/
def deadline (on : Prop) [Decidable on] (d : ℤ) : List ℤ := if on then [d] else []

/-- The deadlines for rekeying.  What has no time is due at once. -/
def rekeyDeadlines (s : SessionTimes) (now : ℤ) : List ℤ :=
  if s.sentkexinit then []
  else
    [s.lastkextime + kexRekeyTimeout] ++
    deadline (s.datarecv + s.datatrans ≥ kexRekeyData) now ++ deadline s.needrekey now

/-- The deadlines for keepalives, and the one for their answers. -/
def keepaliveDeadlines (s : SessionTimes) : List ℤ :=
  if s.opts.keepaliveSecs > 0 ∧ s.authdone ≠ 0 then
    [s.lastPacketTimeAnySent + s.opts.keepaliveSecs,
      max s.lastPacketTimeKeepaliveRecv s.lastPacketTimeKeepaliveSent + s.opts.keepaliveSecs,
      s.lastPacketTimeKeepaliveRecv + s.opts.keepaliveSecs * defaultKeepaliveLimit]
  else []

/-- The deadlines of an idle session, and of any session. -/
def durationDeadlines (s : SessionTimes) : List ℤ :=
  deadline (s.opts.idleTimeoutSecs > 0) (s.lastPacketTimeIdle + s.opts.idleTimeoutSecs) ++
  deadline (s.opts.maxDurationSecs > 0) (s.connectTime + s.opts.maxDurationSecs)

/-- The deadlines of `checktimeouts`. -/
def deadlines (s : SessionTimes) (now : ℤ) : List ℤ :=
  deadline (s.authdone ≠ 1) (s.connectTime + authTimeout) ++
  if s.remoteident then rekeyDeadlines s now ++ keepaliveDeadlines s ++ durationDeadlines s
  else []

/-- The deadlines of `select_timeout`. -/
def watched (s : SessionTimes) (now : ℤ) : List ℤ :=
  [now + kexRekeyTimeout] ++
  deadline (s.sentkexinit = false ∧ s.lastkextime > 0) (s.lastkextime + kexRekeyTimeout) ++
  deadline s.needrekey now ++
  deadline (s.authdone ≠ 1 ∧ s.connectTime > 0) (s.connectTime + authTimeout) ++
  deadline (s.authdone ≠ 0 ∧ s.opts.keepaliveSecs > 0 ∧
      max s.lastPacketTimeKeepaliveRecv s.lastPacketTimeKeepaliveSent > 0)
    (max s.lastPacketTimeKeepaliveRecv s.lastPacketTimeKeepaliveSent + s.opts.keepaliveSecs) ++
  deadline (s.opts.idleTimeoutSecs > 0 ∧ s.lastPacketTimeIdle > 0)
    (s.lastPacketTimeIdle + s.opts.idleTimeoutSecs) ++
  deadline (s.opts.maxDurationSecs > 0 ∧ s.connectTime > 0)
    (s.connectTime + s.opts.maxDurationSecs)

section Deadlines

variable {s : SessionTimes} {now t limit prev timeout : ℤ}

@[simp] theorem exists_mem_deadline {on : Prop} [Decidable on] {d : ℤ} :
    (∃ e ∈ deadline on d, e ≤ t) ↔ on ∧ d ≤ t := by
  unfold deadline
  split <;> simp_all

theorem le_elapsed_iff (h : limit ≤ longMax) : limit ≤ elapsed now prev ↔ prev + limit ≤ now := by
  unfold elapsed
  omega

theorem exists_mem_append {l l' : List ℤ} :
    (∃ e ∈ l ++ l', e ≤ t) ↔ (∃ e ∈ l, e ≤ t) ∨ ∃ e ∈ l', e ≤ t := by
  simp only [List.mem_append, or_and_right, exists_or]

/-- `update_timeout` looks at one more deadline. -/
theorem updateTimeout_le_iff (h : limit ≤ longMax) (ht : now ≤ t) :
    now + updateTimeout limit now prev timeout ≤ t ↔
      now + timeout ≤ t ∨ (limit > 0 ∧ prev > 0) ∧ prev + limit ≤ t := by
  have hlong : longMax = 2 ^ 63 - 1 := rfl
  unfold updateTimeout elapsed
  split <;> omega

theorem updateTimeout_ite_le_iff {on : Prop} [Decidable on] (h : limit ≤ longMax) (ht : now ≤ t) :
    now + (if on then updateTimeout limit now prev timeout else timeout) ≤ t ↔
      now + timeout ≤ t ∨ (on ∧ limit > 0 ∧ prev > 0) ∧ prev + limit ≤ t := by
  split
  · next hon => rw [updateTimeout_le_iff h ht, and_iff_right hon]
  · next hoff => simp [hoff]

theorem zero_ite_le_iff {on : Prop} [Decidable on] (ht : now ≤ t) :
    now + (if on then 0 else timeout) ≤ t ↔ now + timeout ≤ t ∨ on ∧ now ≤ t := by
  split
  · next hon => exact iff_of_true (by rwa [add_zero]) (.inr ⟨hon, ht⟩)
  · next hoff => simp [hoff]

theorem checkRekey_iff (ht : now ≤ t) :
    (checkRekey s t).1 ≠ [] ↔ ∃ d ∈ rekeyDeadlines s now, d ≤ t := by
  have hrekey : elapsed t s.lastkextime ≥ kexRekeyTimeout ↔
      s.lastkextime + kexRekeyTimeout ≤ t := le_elapsed_iff (by decide)
  have hdue : (checkRekey s t).1 ≠ [] ↔ s.sentkexinit = false ∧
      (s.lastkextime + kexRekeyTimeout ≤ t ∨ s.datarecv + s.datatrans ≥ kexRekeyData ∨
        s.needrekey) := by
    unfold checkRekey
    split
    · next h =>
      rw [hrekey, Bool.not_eq_true'] at h
      exact iff_of_true (List.cons_ne_nil _ _) h
    · next h =>
      rw [hrekey, Bool.not_eq_true'] at h
      exact iff_of_false (fun hne => hne rfl) h
  rw [hdue]
  unfold rekeyDeadlines
  cases s.sentkexinit with
  | true => simp
  | false =>
    rw [if_neg (by simp), exists_mem_append, exists_mem_append, exists_mem_deadline,
      exists_mem_deadline, and_iff_left ht, and_iff_left ht]
    simp [or_assoc]

theorem checkRekey_of_eq_nil (h : (checkRekey s t).1 = []) : (checkRekey s t).2 = s := by
  unfold checkRekey at h ⊢
  split at h
  · cases h
  · next hno => rw [if_neg hno]

theorem ite_singleton_eq_nil {α : Type} {p : Prop} [Decidable p] {a : α} :
    (if p then [a] else []) = [] ↔ ¬ p := by
  split <;> simp_all

theorem checkKeepalive_iff : checkKeepalive s t ≠ [] ↔ ∃ d ∈ keepaliveDeadlines s, d ≤ t := by
  have hlong : longMax = 2 ^ 63 - 1 := rfl
  have hlimit : defaultKeepaliveLimit = 3 := rfl
  have hlt := s.opts.keepalive_lt
  unfold checkKeepalive keepaliveDeadlines elapsed
  dsimp only
  rw [hlimit]
  by_cases hon : s.opts.keepaliveSecs > 0 ∧ s.authdone ≠ 0
  swap
  · rw [if_neg hon, if_neg hon]
    simp
  rw [if_pos hon, if_pos hon, Ne, List.append_eq_nil_iff, List.append_eq_nil_iff,
    ite_singleton_eq_nil, ite_singleton_eq_nil, ite_singleton_eq_nil]
  simp only [List.exists_mem_cons_iff, List.not_mem_nil, false_and, exists_false, or_false]
  -- the second keepalive is only looked at when the first is not sent
  by_cases hidle : min (t - s.lastPacketTimeAnySent) longMax ≥ s.opts.keepaliveSecs
  · exact iff_of_true (fun h => h.1.1 hidle) (by omega)
  · rw [if_neg hidle]
    omega

theorem checkDuration_iff : checkDuration s t ≠ [] ↔ ∃ d ∈ durationDeadlines s, d ≤ t := by
  have hlong : longMax = 2 ^ 63 - 1 := rfl
  have hidle := s.opts.idle_lt
  have hduration := s.opts.duration_lt
  unfold checkDuration durationDeadlines elapsed
  rw [exists_mem_append, exists_mem_deadline, exists_mem_deadline]
  split
  · next h => exact iff_of_true (List.cons_ne_nil _ _) (by omega)
  · next h =>
    rw [Ne, ite_singleton_eq_nil]
    omega

/-- **`checktimeouts` acts at its deadlines.** -/
theorem checktimeouts_iff (ht : now ≤ t) :
    checktimeouts s t ≠ [] ↔ ∃ d ∈ deadlines s now, d ≤ t := by
  have hauth : elapsed t s.connectTime ≥ authTimeout ↔ s.connectTime + authTimeout ≤ t :=
    le_elapsed_iff (by decide)
  unfold checktimeouts deadlines
  rw [exists_mem_append, exists_mem_deadline]
  split
  · next h => exact iff_of_true (List.cons_ne_nil _ _) (.inl ⟨h.1, hauth.1 h.2⟩)
  next h =>
  rw [hauth] at h
  rw [or_iff_right h]
  cases s.remoteident with
  | false => simp
  | true =>
    have hrekey := checkRekey_iff (s := s) ht
    rw [if_neg (by simp), if_pos rfl, exists_mem_append, exists_mem_append, ← hrekey,
      ← checkKeepalive_iff, ← checkDuration_iff]
    by_cases hnil : (checkRekey s t).1 = []
    swap
    · refine iff_of_true ?_ (.inl (.inl hnil))
      dsimp only
      split <;> simp [hnil]
    dsimp only
    rw [hnil, checkRekey_of_eq_nil hnil, List.nil_append]
    by_cases hexit : .exit "Keepalive timeout" ∈ checkKeepalive s t
    · have hne : checkKeepalive s t ≠ [] := List.ne_nil_of_mem hexit
      rw [if_pos hexit]
      exact iff_of_true hne (.inl (.inr hne))
    · rw [if_neg hexit, Ne, List.append_eq_nil_iff]
      tauto

/-- **`select_timeout` sleeps up to the first of its deadlines.** -/
theorem selectTimeout_le_iff (ht : now ≤ t) :
    now + selectTimeout s now ≤ t ↔ ∃ w ∈ watched s now, w ≤ t := by
  have hlong : longMax = 2 ^ 63 - 1 := rfl
  have hkeepalive := s.opts.keepalive_lt
  have hidle := s.opts.idle_lt
  have hduration := s.opts.duration_lt
  have hstart : (∃ w ∈ [now + kexRekeyTimeout], w ≤ t) ↔ now + kexRekeyTimeout ≤ t := by simp
  have hclamp (timeout : ℤ) : now + max timeout 0 ≤ t ↔ now + timeout ≤ t := by omega
  have hrekey : kexRekeyTimeout > 0 := by decide
  have hauth : authTimeout > 0 := by decide
  unfold selectTimeout watched
  simp only [exists_mem_append, exists_mem_deadline, hstart]
  rw [hclamp, updateTimeout_le_iff (by omega) ht, updateTimeout_le_iff (by omega) ht,
    updateTimeout_ite_le_iff (by omega) ht, updateTimeout_ite_le_iff (by decide) ht,
    zero_ite_le_iff ht, updateTimeout_ite_le_iff (by decide) ht, and_iff_right hrekey,
    and_iff_right hauth, Bool.not_eq_true']

end Deadlines

/-! ### The two together -/

/-- An event that is no keepalive, and that both functions know, comes by the time `t`. -/
inductive EventBy (s : SessionTimes) (now t : ℤ) : Prop
  | always (ht : now + kexRekeyTimeout ≤ t)
  | rekey (hsent : s.sentkexinit = false) (hpos : s.lastkextime > 0)
      (ht : s.lastkextime + kexRekeyTimeout ≤ t)
  | wanted (hneed : s.needrekey = true)
  | auth (hauth : s.authdone ≠ 1) (hpos : s.connectTime > 0) (ht : s.connectTime + authTimeout ≤ t)
  | idle (hon : s.opts.idleTimeoutSecs > 0) (hpos : s.lastPacketTimeIdle > 0)
      (ht : s.lastPacketTimeIdle + s.opts.idleTimeoutSecs ≤ t)
  | duration (hon : s.opts.maxDurationSecs > 0) (hpos : s.connectTime > 0)
      (ht : s.connectTime + s.opts.maxDurationSecs ≤ t)

/-- Keepalives are sent. -/
def KeepsAlive (s : SessionTimes) : Prop := s.opts.keepaliveSecs > 0 ∧ s.authdone ≠ 0

/-- A stamp of the keepalives is positive. -/
def HasKeepalive (s : SessionTimes) : Prop :=
  s.lastPacketTimeKeepaliveRecv > 0 ∨ s.lastPacketTimeKeepaliveSent > 0

/-- Something comes by the time `t`, or by now: such an event, or a keepalive, which is sent when
nothing has come or been sent for `keepalive_secs`. -/
def SomethingBy (s : SessionTimes) (now t : ℤ) : Prop :=
  EventBy s now (max t now) ∨ KeepsAlive s ∧ HasKeepalive s ∧
    s.lastPacketTimeKeepaliveRecv + s.opts.keepaliveSecs ≤ max t now ∧
    s.lastPacketTimeKeepaliveSent + s.opts.keepaliveSecs ≤ max t now

/-- What the stamps have to be for the deadlines that `select_timeout` leaves out: the amount of
data, the last packet sent and the limit for keepalives, and each stamp that is not positive. -/
structure Covered (s : SessionTimes) (now : ℤ) : Prop where
  /-- When the limit for data is reached, something else is due. -/
  data : s.remoteident → s.sentkexinit = false → s.datarecv + s.datatrans ≥ kexRekeyData →
    SomethingBy s now now
  /-- The last packet sent counts for the keepalives, or their next one is overdue. -/
  anySent : s.remoteident → KeepsAlive s →
    EventBy s now (max (s.lastPacketTimeAnySent + s.opts.keepaliveSecs) now) ∨
      HasKeepalive s ∧
      s.lastPacketTimeKeepaliveRecv ≤ max s.lastPacketTimeAnySent (now - s.opts.keepaliveSecs) ∧
      s.lastPacketTimeKeepaliveSent ≤ max s.lastPacketTimeAnySent (now - s.opts.keepaliveSecs)
  /-- No keepalive has been sent later than two periods behind the last packet. -/
  keepaliveLimit : s.remoteident → KeepsAlive s →
    EventBy s now
        (max (s.lastPacketTimeKeepaliveRecv + s.opts.keepaliveSecs * defaultKeepaliveLimit) now) ∨
      HasKeepalive s ∧ s.lastPacketTimeKeepaliveSent ≤
        max (s.lastPacketTimeKeepaliveRecv + s.opts.keepaliveSecs * (defaultKeepaliveLimit - 1))
          (now - s.opts.keepaliveSecs)
  auth : s.authdone ≠ 1 → s.connectTime ≤ 0 → SomethingBy s now (s.connectTime + authTimeout)
  rekey : s.remoteident → s.sentkexinit = false → s.lastkextime ≤ 0 →
    SomethingBy s now (s.lastkextime + kexRekeyTimeout)
  /-- Without a positive stamp there is no keepalive to wait for. -/
  keepalive : s.remoteident → KeepsAlive s → ¬ HasKeepalive s →
    EventBy s now (max (max s.lastPacketTimeKeepaliveRecv s.lastPacketTimeKeepaliveSent +
      s.opts.keepaliveSecs) now)
  idle : s.remoteident → s.opts.idleTimeoutSecs > 0 → s.lastPacketTimeIdle ≤ 0 →
    SomethingBy s now (s.lastPacketTimeIdle + s.opts.idleTimeoutSecs)
  duration : s.remoteident → s.opts.maxDurationSecs > 0 → s.connectTime ≤ 0 →
    SomethingBy s now (s.connectTime + s.opts.maxDurationSecs)

section Covered

variable {s : SessionTimes} {now d : ℤ}

theorem mem_deadline {on : Prop} [Decidable on] {d e : ℤ} : e ∈ deadline on d ↔ on ∧ e = d := by
  unfold deadline
  split <;> simp_all

theorem mem_deadlines : d ∈ deadlines s now ↔
    (s.authdone ≠ 1 ∧ d = s.connectTime + authTimeout) ∨
    s.remoteident = true ∧
      (s.sentkexinit = false ∧ (d = s.lastkextime + kexRekeyTimeout ∨
          (s.datarecv + s.datatrans ≥ kexRekeyData ∨ s.needrekey) ∧ d = now) ∨
        (s.opts.keepaliveSecs > 0 ∧ s.authdone ≠ 0) ∧
          (d = s.lastPacketTimeAnySent + s.opts.keepaliveSecs ∨
            d = max s.lastPacketTimeKeepaliveRecv s.lastPacketTimeKeepaliveSent +
              s.opts.keepaliveSecs ∨
            d = s.lastPacketTimeKeepaliveRecv + s.opts.keepaliveSecs * defaultKeepaliveLimit) ∨
        s.opts.idleTimeoutSecs > 0 ∧ d = s.lastPacketTimeIdle + s.opts.idleTimeoutSecs ∨
        s.opts.maxDurationSecs > 0 ∧ d = s.connectTime + s.opts.maxDurationSecs) := by
  have hrekey : d ∈ rekeyDeadlines s now ↔ s.sentkexinit = false ∧
      (d = s.lastkextime + kexRekeyTimeout ∨
        (s.datarecv + s.datatrans ≥ kexRekeyData ∨ s.needrekey) ∧ d = now) := by
    unfold rekeyDeadlines
    cases s.sentkexinit with
    | true => simp
    | false => simp [mem_deadline, or_and_right]
  have hkeepalive : d ∈ keepaliveDeadlines s ↔ (s.opts.keepaliveSecs > 0 ∧ s.authdone ≠ 0) ∧
      (d = s.lastPacketTimeAnySent + s.opts.keepaliveSecs ∨
        d = max s.lastPacketTimeKeepaliveRecv s.lastPacketTimeKeepaliveSent +
          s.opts.keepaliveSecs ∨
        d = s.lastPacketTimeKeepaliveRecv + s.opts.keepaliveSecs * defaultKeepaliveLimit) := by
    unfold keepaliveDeadlines
    split
    · next hon => rw [and_iff_right hon]; simp
    · next hoff => exact iff_of_false List.not_mem_nil fun h => hoff h.1
  unfold deadlines durationDeadlines
  rw [List.mem_append, mem_deadline]
  refine or_congr_right ?_
  cases s.remoteident with
  | false => simp
  | true =>
    rw [if_pos rfl, List.mem_append, List.mem_append, List.mem_append, hrekey, hkeepalive,
      mem_deadline, mem_deadline, and_iff_right rfl, or_assoc]

theorem mem_watched : d ∈ watched s now ↔
    d = now + kexRekeyTimeout ∨
    (s.sentkexinit = false ∧ s.lastkextime > 0) ∧ d = s.lastkextime + kexRekeyTimeout ∨
    s.needrekey = true ∧ d = now ∨
    (s.authdone ≠ 1 ∧ s.connectTime > 0) ∧ d = s.connectTime + authTimeout ∨
    (s.authdone ≠ 0 ∧ s.opts.keepaliveSecs > 0 ∧
        max s.lastPacketTimeKeepaliveRecv s.lastPacketTimeKeepaliveSent > 0) ∧
      d = max s.lastPacketTimeKeepaliveRecv s.lastPacketTimeKeepaliveSent +
        s.opts.keepaliveSecs ∨
    (s.opts.idleTimeoutSecs > 0 ∧ s.lastPacketTimeIdle > 0) ∧
      d = s.lastPacketTimeIdle + s.opts.idleTimeoutSecs ∨
    (s.opts.maxDurationSecs > 0 ∧ s.connectTime > 0) ∧
      d = s.connectTime + s.opts.maxDurationSecs := by
  unfold watched
  simp only [List.mem_append, mem_deadline, List.mem_singleton, or_assoc]

/-- What `select_timeout` looks at are these events and the keepalive. -/
theorem exists_mem_watched {t : ℤ} (ht : now ≤ t) :
    (∃ w ∈ watched s now, w ≤ t) ↔ EventBy s now t ∨ KeepsAlive s ∧ HasKeepalive s ∧
      s.lastPacketTimeKeepaliveRecv + s.opts.keepaliveSecs ≤ t ∧
      s.lastPacketTimeKeepaliveSent + s.opts.keepaliveSecs ≤ t := by
  constructor
  · rintro ⟨w, hw, hle⟩
    rcases mem_watched.1 hw with rfl | ⟨⟨hsent, hpos⟩, rfl⟩ | ⟨hneed, -⟩ | ⟨⟨hauth, hpos⟩, rfl⟩ |
      ⟨⟨hauth, hon, hpos⟩, rfl⟩ | ⟨⟨hon, hpos⟩, rfl⟩ | ⟨⟨hon, hpos⟩, rfl⟩
    · exact .inl (.always hle)
    · exact .inl (.rekey hsent hpos hle)
    · exact .inl (.wanted hneed)
    · exact .inl (.auth hauth hpos hle)
    · exact .inr ⟨⟨hon, hauth⟩, lt_max_iff.1 hpos, by omega, by omega⟩
    · exact .inl (.idle hon hpos hle)
    · exact .inl (.duration hon hpos hle)
  · rintro (hevent | ⟨⟨hon, hauth⟩, hpos, hrecv, hsent⟩)
    · cases hevent with
      | always hle => exact ⟨_, mem_watched.2 (.inl rfl), hle⟩
      | rekey hsent hpos hle => exact ⟨_, mem_watched.2 (.inr (.inl ⟨⟨hsent, hpos⟩, rfl⟩)), hle⟩
      | wanted hneed => exact ⟨now, mem_watched.2 (.inr (.inr (.inl ⟨hneed, rfl⟩))), ht⟩
      | auth hauth hpos hle =>
        exact ⟨_, mem_watched.2 (.inr (.inr (.inr (.inl ⟨⟨hauth, hpos⟩, rfl⟩)))), hle⟩
      | idle hon hpos hle =>
        exact ⟨_, mem_watched.2 (.inr (.inr (.inr (.inr (.inr (.inl ⟨⟨hon, hpos⟩, rfl⟩)))))), hle⟩
      | duration hon hpos hle =>
        exact ⟨_, mem_watched.2 (.inr (.inr (.inr (.inr (.inr (.inr ⟨⟨hon, hpos⟩, rfl⟩)))))), hle⟩
    · exact ⟨_, mem_watched.2 (.inr (.inr (.inr (.inr (.inl
        ⟨⟨hauth, hon, lt_max_iff.2 hpos⟩, rfl⟩))))), by omega⟩

/-- A keepalive that has no positive stamp to go by is not looked at. -/
theorem somethingBy_of_not_hasKeepalive (h : ¬ HasKeepalive s) :
    SomethingBy s now d ↔ EventBy s now (max d now) :=
  ⟨fun hd => hd.resolve_right fun hk => h hk.2.1, .inl⟩

/-- The next keepalive, against the last packet sent. -/
theorem somethingBy_anySent (h : KeepsAlive s) :
    SomethingBy s now (s.lastPacketTimeAnySent + s.opts.keepaliveSecs) ↔
      EventBy s now (max (s.lastPacketTimeAnySent + s.opts.keepaliveSecs) now) ∨
      HasKeepalive s ∧
      s.lastPacketTimeKeepaliveRecv ≤ max s.lastPacketTimeAnySent (now - s.opts.keepaliveSecs) ∧
      s.lastPacketTimeKeepaliveSent ≤ max s.lastPacketTimeAnySent (now - s.opts.keepaliveSecs) := by
  unfold SomethingBy
  rw [and_iff_right h]
  refine or_congr_right (and_congr_right fun _ => and_congr ?_ ?_) <;> omega

/-- The next keepalive, against the limit: the stamp of the last packet received is early enough. -/
theorem somethingBy_keepaliveLimit (h : KeepsAlive s) :
    SomethingBy s now
        (s.lastPacketTimeKeepaliveRecv + s.opts.keepaliveSecs * defaultKeepaliveLimit) ↔
      EventBy s now
        (max (s.lastPacketTimeKeepaliveRecv + s.opts.keepaliveSecs * defaultKeepaliveLimit) now) ∨
      HasKeepalive s ∧ s.lastPacketTimeKeepaliveSent ≤
        max (s.lastPacketTimeKeepaliveRecv + s.opts.keepaliveSecs * (defaultKeepaliveLimit - 1))
          (now - s.opts.keepaliveSecs) := by
  have hpos := h.1
  unfold SomethingBy
  rw [and_iff_right h]
  refine or_congr_right (and_congr_right fun _ => ?_)
  simp only [defaultKeepaliveLimit]
  omega

/-- The other deadlines are looked at. -/
theorem covered_iff : Covered s now ↔ ∀ d ∈ deadlines s now, SomethingBy s now d := by
  have hwatched : ∀ d, d ∈ watched s now → SomethingBy s now d := fun d hd =>
    (exists_mem_watched (Int.le_max_right _ _)).1 ⟨d, hd, Int.le_max_left _ _⟩
  constructor
  · intro h d hd
    rcases mem_deadlines.1 hd with ⟨hauth, rfl⟩ | ⟨hident, hd⟩
    · rcases lt_or_ge 0 s.connectTime with hpos | hneg
      · exact hwatched _ (mem_watched.2 (.inr (.inr (.inr (.inl ⟨⟨hauth, hpos⟩, rfl⟩)))))
      · exact h.auth hauth hneg
    rcases hd with ⟨hsent, rfl | ⟨hdata | hneed, rfl⟩⟩ | ⟨⟨hon, hauth⟩, rfl | rfl | rfl⟩ |
      ⟨hon, rfl⟩ | ⟨hon, rfl⟩
    · rcases lt_or_ge 0 s.lastkextime with hpos | hneg
      · exact hwatched _ (mem_watched.2 (.inr (.inl ⟨⟨hsent, hpos⟩, rfl⟩)))
      · exact h.rekey hident hsent hneg
    · exact h.data hident hsent hdata
    · exact hwatched _ (mem_watched.2 (.inr (.inr (.inl ⟨hneed, rfl⟩))))
    · exact (somethingBy_anySent ⟨hon, hauth⟩).2 (h.anySent hident ⟨hon, hauth⟩)
    · by_cases hstamp : HasKeepalive s
      · exact hwatched _ (mem_watched.2 (.inr (.inr (.inr (.inr (.inl
          ⟨⟨hauth, hon, lt_max_iff.2 hstamp⟩, rfl⟩))))))
      · exact (somethingBy_of_not_hasKeepalive hstamp).2 (h.keepalive hident ⟨hon, hauth⟩ hstamp)
    · exact (somethingBy_keepaliveLimit ⟨hon, hauth⟩).2 (h.keepaliveLimit hident ⟨hon, hauth⟩)
    · rcases lt_or_ge 0 s.lastPacketTimeIdle with hpos | hneg
      · exact hwatched _
          (mem_watched.2 (.inr (.inr (.inr (.inr (.inr (.inl ⟨⟨hon, hpos⟩, rfl⟩)))))))
      · exact h.idle hident hon hneg
    · rcases lt_or_ge 0 s.connectTime with hpos | hneg
      · exact hwatched _
          (mem_watched.2 (.inr (.inr (.inr (.inr (.inr (.inr ⟨⟨hon, hpos⟩, rfl⟩)))))))
      · exact h.duration hident hon hneg
  · intro h
    have hkeepalive {d : ℤ} (hident : s.remoteident = true) (hk : KeepsAlive s)
        (hd : d = s.lastPacketTimeAnySent + s.opts.keepaliveSecs ∨
          d = max s.lastPacketTimeKeepaliveRecv s.lastPacketTimeKeepaliveSent +
            s.opts.keepaliveSecs ∨
          d = s.lastPacketTimeKeepaliveRecv + s.opts.keepaliveSecs * defaultKeepaliveLimit) :
        SomethingBy s now d := h _ (mem_deadlines.2 (.inr ⟨hident, .inr (.inl ⟨hk, hd⟩)⟩))
    constructor
    · intro hident hsent hdata
      exact h _ (mem_deadlines.2 (.inr ⟨hident, .inl ⟨hsent, .inr ⟨.inl hdata, rfl⟩⟩⟩))
    · intro hident hk
      exact (somethingBy_anySent hk).1 (hkeepalive hident hk (.inl rfl))
    · intro hident hk
      exact (somethingBy_keepaliveLimit hk).1 (hkeepalive hident hk (.inr (.inr rfl)))
    · intro hauth _
      exact h _ (mem_deadlines.2 (.inl ⟨hauth, rfl⟩))
    · intro hident hsent _
      exact h _ (mem_deadlines.2 (.inr ⟨hident, .inl ⟨hsent, .inl rfl⟩⟩))
    · intro hident hk hstamp
      exact (somethingBy_of_not_hasKeepalive hstamp).1 (hkeepalive hident hk (.inr (.inl rfl)))
    · intro hident hon _
      exact h _ (mem_deadlines.2 (.inr ⟨hident, .inr (.inr (.inl ⟨hon, rfl⟩))⟩))
    · intro hident hon _
      exact h _ (mem_deadlines.2 (.inr ⟨hident, .inr (.inr (.inr ⟨hon, rfl⟩))⟩))

/-- Without keepalives, which is the default, only the amount of data is left out. -/
theorem covered_of_no_keepalive (hoff : s.opts.keepaliveSecs ≤ 0)
    (hdata : s.datarecv + s.datatrans < kexRekeyData) (hconnect : s.connectTime > 0)
    (hkex : s.lastkextime > 0) (hidle : s.lastPacketTimeIdle > 0) : Covered s now := by
  constructor
  · intro _ _ hdata'
    exact absurd hdata (UInt32.not_lt.2 hdata')
  · exact fun _ hk => absurd hk.1 (by omega)
  · exact fun _ hk => absurd hk.1 (by omega)
  · intro _ hneg
    omega
  · intro _ _ hneg
    omega
  · exact fun _ hk => absurd hk.1 (by omega)
  · intro _ _ hneg
    omega
  · intro _ _ hneg
    omega

end Covered

end Ps4Dropbear
