import Mathlib.Data.List.TakeWhile
import Ps4Dropbear.Files.Basic
import Ps4Dropbear.Shell.Command
import Ps4Dropbear.Text.Numbers

/-!
# The `scp` worker

`ps4-scp.c` after its command line: the two ends of the protocol, on the socket of the worker and
the file system.  The functions of the source are programs here, with their loops, retries and
error paths; a value of `errno` other than `EINTR` and `EAGAIN` (which is `EWOULDBLOCK`) is
treated alike everywhere.  Where the source returns `0` or `-1` for nothing but success, the
model returns the same numbers; where it also fills a buffer, the model returns the bytes.

* `ScpProg.receiveFile` : one upload, through a temporary file.
* `ScpProg.serveReceive` : the receiving end.
* `ScpProg.serveSend` : the sending end.
-/

namespace Ps4Dropbear

/-- `PS4_SCP_PATH_MAX`. -/
def ps4ScpPathMax : ℕ := ps4ShellPathMax

/-- `PS4_SCP_MAX_FILE_SIZE`. -/
def ps4ScpMaxFileSize : ℕ := 8 * 1024 * 1024 * 1024

/-- `PS4_SCP_SAFE_SEND_MAX`. -/
def ps4ScpSafeSendMax : ℕ := 8192

/-- `safe_name`. -/
def safeName (name : Bytes) : Bool :=
  name ≠ [] ∧ name ≠ ascii "." ∧ name ≠ ascii ".." ∧ 47 ∉ name ∧ 92 ∉ name

/-! ### Control records -/

/-- What a control record of a file announces. -/
structure Control where
  mode : ℕ
  size : ℕ
  name : Bytes
  deriving DecidableEq, Repr

/-- The part of `serve_receive` that takes a line with a `C` apart; `none` is `bad_control`.  The
line ends with its newline and a NUL, so the text that the C functions see stops at the first
NUL. -/
def parseControl (line : Bytes) : Option Control :=
  match strtoulBase 8 (cstr line.tail) with
  | some ⟨mode, 32 :: sizeText, false⟩ =>
    match strtoulBase 10 sizeText with
    | some ⟨size, 32 :: name, false⟩ =>
      if size > ps4ScpMaxFileSize ∨ 10 ∉ name then none
      else
        let name := name.takeWhile (· ≠ 10)
        if safeName name then some ⟨mode, size, name⟩ else none
    | _ => none
  | _ => none

/-- The name in an accepted record is safe and has no newline in it. -/
theorem parseControl_name {line : Bytes} {c : Control} (h : parseControl line = some c) :
    safeName c.name ∧ 10 ∉ c.name := by
  unfold parseControl at h
  split at h
  · split at h
    · split at h
      · cases h
      · dsimp only at h
        split at h
        · next hsafe =>
          cases h
          refine ⟨hsafe, ?_⟩
          intro hmem
          simpa using List.mem_takeWhile_imp hmem
        · cases h
    · cases h
  · cases h

/-- The path of a file of this name in the directory `path`. -/
def destinationPath (path name : Bytes) : Bytes :=
  path ++ (if path = ascii "/" then [] else ascii "/") ++ name

/-- The `snprintf` of the destination: `none` when the path does not fit. -/
def joinPath (path name : Bytes) : Option Bytes :=
  if (destinationPath path name).length ≥ ps4ScpPathMax then none
  else some (destinationPath path name)

theorem joinPath_eq_some {path name destination : Bytes}
    (h : joinPath path name = some destination) : destination = destinationPath path name := by
  unfold joinPath at h
  split at h
  · cases h
  · exact (Option.some.inj h).symm

/-- The name of the temporary file of an upload. -/
def temporaryPath (path : Bytes) : Bytes := path ++ ascii ".ps4scp-part"

/-- Programs of the worker. -/
abbrev ScpProg (α : Type) : Type 1 := SocketProg UInt8 FileCall.Answer α

namespace ScpProg

/-- A call to the file system. -/
def file (c : FileCall) : ScpProg c.Answer := SocketProg.loc c

/-! ### Reading and writing -/

/-- `retry_pause`; `none` is `-1`. -/
def retryPause (retries : ℕ) : Option ℕ :=
  if retries + 1 > 30000 then none else some (retries + 1)

/-- What the loops on the socket do after a failed call: they go on after `EINTR` and, as long as
`retry_pause` allows it, after `EAGAIN`, and fail otherwise. -/
def retryOr {σ β : Type} (again : ℕ → σ) (fail : β) (retries : ℕ) : IoError → σ ⊕ β
  | .eintr => .inl (again retries)
  | .eagain => (retryPause retries).elim (.inr fail) fun retries => .inl (again retries)
  | .other => .inr fail

theorem retryOr_cases {σ β : Type} (again : ℕ → σ) (fail : β) (retries : ℕ) (e : IoError) :
    (∃ r, retryOr again fail retries e = .inl (again r)) ∨
      retryOr again fail retries e = .inr fail := by
  cases e with
  | eintr => exact .inl ⟨retries, rfl⟩
  | eagain =>
    simp only [retryOr]
    cases retryPause retries with
    | none => exact .inr rfl
    | some r => exact .inl ⟨r, rfl⟩
  | other => exact .inr rfl

/-- The body of the loop of `write_all`, with the bytes left and the retries so far. -/
def writeAllBody : Bytes × ℕ → ScpProg ((Bytes × ℕ) ⊕ ℤ)
  | (bytes, retries) =>
    if bytes = [] then pure (.inr 0)
    else do
      -- `scp_write` offers at most 512 bytes
      match ← SocketProg.send (bytes.take 512) with
      | .error e => pure (retryOr (fun r => (bytes, r)) (-1) retries e)
      | .ok sent => if sent = 0 then pure (.inr (-1)) else pure (.inl (bytes.drop sent, 0))

/-- `write_all`. -/
def writeAll (data : Bytes) : ScpProg ℤ := Prog.iterate writeAllBody (data, 0)

/-- The body of the loop of `read_all`, with the bytes read and the retries so far. -/
def readAllBody (len : ℕ) : Bytes × ℕ → ScpProg ((Bytes × ℕ) ⊕ Option Bytes)
  | (data, retries) =>
    if data.length ≥ len then pure (.inr (some data))
    else do
      match ← SocketProg.recv (len - data.length) with
      | .error e => pure (retryOr (fun r => (data, r)) none retries e)
      | .ok got => if got = [] then pure (.inr none) else pure (.inl (data ++ got, 0))

/-- `read_all`; `none` is `-1`. -/
def readAll (len : ℕ) : ScpProg (Option Bytes) := Prog.iterate (readAllBody len) ([], 0)

/-- What `read_line` returns: a line with its newline, the end of the stream before a line, or
an error. -/
inductive LineStatus
  | line (bs : Bytes)
  | eof
  | error
  deriving DecidableEq, Repr

/-- The body of the loop of `read_line`, with the bytes read and the retries so far. -/
def readLineBody (size : ℕ) : Bytes × ℕ → ScpProg ((Bytes × ℕ) ⊕ LineStatus)
  | (line, retries) =>
    if line.length + 1 < size then do
      match ← SocketProg.recv 1 with
      | .error e => pure (retryOr (fun r => (line, r)) .error retries e)
      | .ok [] => pure (.inr (if line = [] then .eof else .error))
      | .ok (c :: _) =>
        if c = 10 then pure (.inr (.line (line ++ [c]))) else pure (.inl (line ++ [c], 0))
    else pure (.inr .error)

/-- `read_line`. -/
def readLine (size : ℕ) : ScpProg LineStatus := Prog.iterate (readLineBody size) ([], 0)

/-- `send_status`. -/
def sendStatus (status : UInt8) (message : Option Bytes) : ScpProg ℤ := do
  if (← writeAll [status]) ≠ 0 then return -1
  match message with
  | none => return 0
  | some message =>
    if status = 0 then return 0
    if (← writeAll message) ≠ 0 then return -1
    if (← writeAll [10]) ≠ 0 then return -1
    return 0

/-- `read_status`. -/
def readStatus : ScpProg ℤ := do
  match ← readAll 1 with
  | some [status] =>
    if status = 0 then return 0
    if status = 1 ∨ status = 2 then
      let _ ← readLine 1024
    return -1
  | _ => return -1

/-! ### Receiving -/

/-- The body of the loop that writes what has been read to the temporary file; the result says
whether it `failed`. -/
def writeOutBody (temporary : Bytes) (rest : Bytes) : ScpProg (Bytes ⊕ Bool) :=
  if rest = [] then pure (.inr false)
  else do
    match ← file (.write temporary rest) with
    | .error .eintr => pure (.inl rest)
    | .error _ => pure (.inr true)
    | .ok written => if written = 0 then pure (.inr true) else pure (.inl (rest.drop written))

/-- The body of the loop over the data of a file, with the number of bytes remaining and the
retries so far; the result says whether it `failed`. -/
def receiveDataBody (temporary : Bytes) : ℕ × ℕ → ScpProg ((ℕ × ℕ) ⊕ Bool)
  | (remaining, retries) =>
    if remaining = 0 then pure (.inr false)
    else do
      match ← SocketProg.recv (min remaining 4096) with
      | .error e => pure (retryOr (fun r => (remaining, r)) true retries e)
      | .ok got =>
        if got = [] then pure (.inr true)
        else if ← Prog.iterate (writeOutBody temporary) got then pure (.inr true)
        else pure (.inl (remaining - got.length, 0))

/-- The data of a file and the zero byte after it. -/
def receiveData (temporary : Bytes) (size : ℕ) : ScpProg Bool := do
  if ← Prog.iterate (receiveDataBody temporary) (size, 0) then return true
  match ← readAll 1 with
  | some [0] => return false
  | _ => return true

/-- The end of `receive_file`, from `close` on. -/
def finishFile (path : Bytes) (failed : Bool) : ScpProg ℤ := do
  let temporary := temporaryPath path
  match ← file (.close temporary), failed with
  | .ok (), false =>
    match ← file (.rename temporary path) with
    | .error _ =>
      let _ ← file (.unlink temporary)
      return -1
    | .ok () => sendStatus 0 none
  | _, _ =>
    let _ ← file (.unlink temporary)
    return -1

/-- The start of `receive_file`: whether the temporary file has been created. -/
def openTemporary (path : Bytes) (mode : ℕ) : ScpProg Bool := do
  let temporary := temporaryPath path
  if temporary.length ≥ ps4ScpPathMax then return false
  let _ ← file (.unlink temporary)
  match ← file (.creat temporary (mode &&& 0o777)) with
  | .error _ => return false
  | .ok () => return true

/-- `receive_file` once the temporary file has been created. -/
def receiveOpened (path : Bytes) (size : ℕ) : ScpProg ℤ := do
  if (← sendStatus 0 none) ≠ 0 then finishFile path true
  else finishFile path (← receiveData (temporaryPath path) size)

/-- `receive_file`. -/
def receiveFile (path : Bytes) (mode size : ℕ) : ScpProg ℤ := do
  if ← openTemporary path mode then receiveOpened path size else return -1

/-- `bad_control`. -/
def badControl : ScpProg (ℕ ⊕ ℤ) := do
  let _ ← sendStatus 1 (some (ascii "scp: invalid control record"))
  return .inr 1

/-- One round of the loop of `serve_receive`, with the number of files received so far. -/
def receiveBody (path : Bytes) (targetIsDirectory : Bool) (received : ℕ) : ScpProg (ℕ ⊕ ℤ) := do
  match ← readLine 1024 with
  | .eof => return .inr 0
  | .error => return .inr 1
  | .line line =>
    if line.head? = some 84 then
      if (← sendStatus 0 none) ≠ 0 then return .inr 1
      return .inl received
    else if line.head? ≠ some 67 then
      let _ ← sendStatus 1 (some (ascii "scp: only regular files are supported"))
      return .inr 1
    else
      match parseControl line with
      | none => badControl
      | some c =>
        let destination :=
          if targetIsDirectory then joinPath path c.name
          else if received ≠ 0 then none
          -- `snprintf` into a buffer as large as `request->path`
          else some path
        match destination with
        | none => badControl
        | some destination =>
          -- `(unsigned int)mode`
          if (← receiveFile destination (c.mode % 2 ^ 32) c.size) ≠ 0 then return .inr 1
          return .inl (received + 1)

/-- `serve_receive` once it knows whether the path is a directory. -/
def receiveInto (request : ScpRequest) (targetIsDirectory : Bool) : ScpProg ℤ := do
  if request.targetShouldBeDirectory ∧ ¬ targetIsDirectory then
    let _ ← sendStatus 1 (some (ascii "scp: target is not a directory"))
    return 1
  if (← sendStatus 0 none) ≠ 0 then return 1
  Prog.iterate (receiveBody request.path targetIsDirectory) 0

/-- `serve_receive`. -/
def serveReceive (request : ScpRequest) : ScpProg ℤ := do
  match ← file (.stat request.path) with
  | .ok target => receiveInto request target.isDir
  | .error _ => receiveInto request false

/-! ### Sending -/

/-- The control record of a file. -/
def controlRecord (mode size : ℕ) (name : Bytes) : Bytes :=
  ascii "C" ++ printOctal4 (mode &&& 0o777) ++ ascii " " ++ printNat 10 size ++ ascii " " ++ name ++
    ascii "\n"

/-- One round of the loop of `serve_send`, with the number of bytes remaining. -/
def sendDataBody (path : Bytes) (remaining : ℕ) : ScpProg (ℕ ⊕ Bool) :=
  if remaining = 0 then pure (.inr true)
  else do
    match ← file (.read path (min remaining 4096)) with
    | .error .eintr => pure (.inl remaining)
    | .error _ => pure (.inr false)
    | .ok got =>
      if got = [] then pure (.inr false)
      else if (← writeAll got) ≠ 0 then pure (.inr false)
      else pure (.inl (remaining - got.length))

/-- `serve_send`. -/
def serveSend (request : ScpRequest) : ScpProg ℤ := do
  if (← readStatus) ≠ 0 then return 1
  match ← file (.stat request.path) with
  | .error _ =>
    let _ ← sendStatus 1 (some (ascii "scp: source is not a regular file"))
    return 1
  | .ok st =>
    if ¬ st.isReg then
      let _ ← sendStatus 1 (some (ascii "scp: source is not a regular file"))
      return 1
    if st.size > ps4ScpSafeSendMax then
      let _ ← sendStatus 1 (some
        (ascii "scp: downloads are limited to 8192 bytes; use GoldHEN FTP for larger files"))
      return 1
    let name := baseName request.path
    if ¬ safeName name then return 1
    let control := controlRecord st.mode st.size name
    if control.length ≥ ps4ScpPathMax + 64 then return 1
    if (← writeAll control) ≠ 0 then return 1
    if (← readStatus) ≠ 0 then return 1
    match ← file (.openRead request.path) with
    | .error _ => return 1
    | .ok () =>
      let complete ← Prog.iterate (sendDataBody request.path) st.size
      match ← file (.close request.path), complete with
      | .ok (), true =>
        if (← writeAll [0]) ≠ 0 then return 1
        if (← readStatus) ≠ 0 then return 1
        return 0
      | _, _ => return 1

/-- `ps4_scp_serve`. -/
def ps4ScpServe (request : ScpRequest) : ScpProg ℤ :=
  match request.mode with
  | .receive => serveReceive request
  | .send => serveSend request

end ScpProg

end Ps4Dropbear
