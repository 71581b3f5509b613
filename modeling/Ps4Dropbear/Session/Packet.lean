import Ps4Dropbear.Buffer.Content
import Ps4Dropbear.Session.Transport

/-!
# Packets on the wire

`packet.c`, from the payload in `ses.writepayload` to the bytes in `ses.writequeue` and back.  The
cipher, the AEAD mode and the MAC are the functions of a `KeyContext`, over states of a type `σ`; a
function that does not return `CRYPT_OK` returns `none`.  There is no compression in this build.

The position and the length of every buffer are those of the source, and so are the sums and
differences of lengths, which are taken modulo `2^32`.

* `KeyContext` : `struct key_context_directional`.
* `PacketWriter`, `encryptPacket` : the sender.
* `PacketReader`, `readPacket`, `decryptPacket` : the receiver.  What `read` returns is decided by
  a `SockAnswer`.
-/

namespace Ps4Dropbear

/-- `MIN_PACKET_LEN`. -/
def minPacketLen : ℕ := 16

/-- `RECV_MAX_PAYLOAD_LEN`. -/
def recvMaxPayloadLen : ℕ := 32768

/-- `RECV_MAX_PACKET_LEN`. -/
def recvMaxPacketLen : ℕ := max 35000 (recvMaxPayloadLen + 100)

/-- `ZLIB_COMPRESS_EXPANSION`. -/
def zlibCompressExpansion : ℕ := (recvMaxPayloadLen / 16384 + 1) * 5 + 6

/-- `MAX_MAC_LEN` in a build with `hmac-sha2-512`; the others have less. -/
def maxMacLen : ℕ := 64

/-- `PACKET_PADDING_OFF`. -/
def packetPaddingOff : ℕ := 4

/-- `PACKET_PAYLOAD_OFF`. -/
def packetPayloadOff : ℕ := 5

/-- `INIT_READBUF`. -/
def initReadbuf : ℕ := 128

/-- The last argument of `aead_crypt`. -/
inductive CryptDirection
  | encrypt
  | decrypt
  deriving DecidableEq

/-- `aead_crypt` and `aead_getlength`, which stores an `unsigned int`.  The tag is behind the bytes
that it is about. -/
structure AeadMode (σ : Type) where
  crypt : CryptDirection → ℕ → Bytes → σ → Option (Bytes × σ)
  getlength : ℕ → Bytes → σ → Option ℕ
  getlength_lt : ∀ {seq block cipher n}, getlength seq block cipher = some n → n < 2 ^ 32

/-- `struct key_context_directional`, without the cipher's state. -/
structure KeyContext (σ : Type) where
  /-- `algo_crypt->blocksize`. -/
  blocksize : ℕ
  /-- `algo_mac->hashsize`. -/
  macsize : ℕ
  /-- `crypt_mode`, when its `aead_crypt` is set. -/
  aead : Option (AeadMode σ)
  encrypt : Bytes → σ → Option (Bytes × σ)
  decrypt : Bytes → σ → Option (Bytes × σ)
  /-- HMAC with `mackey`. -/
  hmac : Bytes → Bytes

namespace KeyContext

variable {σ : Type} (K : KeyContext σ)

/-- `make_mac`. -/
def makeMac (seqno : ℕ) (clearBuf : Buffer) (clearLen : ℕ) : Except Exit (Bytes × Buffer) :=
  if 0 < K.macsize then do
    let clearBuf ← bufSetpos clearBuf 0
    let clear ← bufGetptr clearBuf clearLen
    return (K.hmac (store32h seqno ++ clear), clearBuf)
  else .ok ([], clearBuf)

/-- The length of the padding in `encrypt_packet`, for a packet of `len` bytes without it. -/
def padlen (len : ℕ) : ℕ :=
  let rest := if K.aead.isSome then len - 4 else len
  let padlen := K.blocksize - rest % K.blocksize
  let padlen := if padlen < 4 then padlen + K.blocksize else padlen
  if len + padlen < minPacketLen then padlen + K.blocksize else padlen

end KeyContext

/-- `dropbear_nocipher`, `dropbear_mode_none` and `dropbear_nohash`, the keys of a session before
its first key exchange. -/
def noneKeys : KeyContext Unit where
  blocksize := 8
  macsize := 0
  aead := none
  encrypt x _ := some (x, ())
  decrypt x _ := some (x, ())
  hmac _ := []

/-! ### Sending -/

/-- What `encrypt_packet` needs of the session. -/
structure PacketWriter (σ : Type) where
  transseq : ℕ
  /-- `ses.keys->trans.cipher_state`. -/
  cipher : σ
  dataallowed : Bool := true
  replyQueue : List Bytes := []
  /-- `ses.kexstate.datatrans`. -/
  datatrans : ℕ := 0

section Sending

variable {σ : Type} (K : KeyContext σ)

/-- Encryption of a finished packet, in place. -/
def KeyContext.encryptInPlace (transseq : ℕ) (cipher : σ) (writebuf : Buffer) :
    Except Exit (Buffer × σ) :=
  match K.aead with
  | some A => do
    let writebuf ← bufSetpos writebuf 0
    let len := writebuf.len
    let writebuf ← bufIncrlen writebuf K.macsize
    let clear ← bufGetptr writebuf len
    bufGetwriteptr writebuf (len + K.macsize)
    match A.crypt .encrypt transseq clear cipher with
    | none => dropbearExit "Error encrypting"
    | some (sealed, cipher) =>
      let writebuf ← bufOverwrite writebuf (len + K.macsize) sealed
      let writebuf ← bufIncrpos writebuf (len + K.macsize)
      return (writebuf, cipher)
  | none => do
    let (macBytes, writebuf) ← K.makeMac transseq writebuf writebuf.len
    let writebuf ← bufSetpos writebuf 0
    let len := writebuf.len
    let clear ← bufGetptr writebuf len
    bufGetwriteptr writebuf len
    match K.encrypt clear cipher with
    | none => dropbearExit "Error encrypting"
    | some (sealed, cipher) =>
      let writebuf ← bufOverwrite writebuf len sealed
      let writebuf ← bufIncrpos writebuf len
      let writebuf ← bufPutbytes writebuf (macBytes.take K.macsize)
      return (writebuf, cipher)

/-- The packet around a payload, before it is encrypted; `noise` is what `genrandom` returns. -/
def KeyContext.frame (payload : Bytes) (noise : ℕ → UInt8) : Except Exit Buffer := do
  let writebuf ← bufNew (payload.length + 4 + 1 + max minPacketLen K.blocksize + 3 + K.macsize + 1)
  let writebuf ← bufSetlen writebuf packetPayloadOff
  let writebuf ← bufSetpos writebuf packetPayloadOff
  let writebuf ← bufPutbytes writebuf payload
  let padlen := K.padlen writebuf.len
  let writebuf ← bufSetpos writebuf 0
  let writebuf ← bufPutint writebuf (writebuf.len + padlen - 4)
  let writebuf ← bufPutbyte writebuf (UInt8.ofNat padlen)
  let writebuf ← bufSetpos writebuf writebuf.len
  let writebuf ← bufIncrlen writebuf padlen
  bufOverwriteUsed writebuf padlen ((List.range padlen).map noise)

/-- `encrypt_packet`: the packet for `ses.writequeue`, unless the payload has to wait for the end of
a key exchange. -/
def encryptPacket (s : PacketWriter σ) (payload : Bytes) (noise : ℕ → UInt8) :
    Except Exit (Option Buffer × PacketWriter σ) :=
  if payload = [] then dropbearExit "Bad buf_getbyte"
  else if !s.dataallowed && !packetIsOkayKex (packetType payload) then
    .ok (none, { s with replyQueue := s.replyQueue ++ [payload] })
  else do
    let writebuf ← K.frame payload noise
    let (writebuf, cipher) ← K.encryptInPlace s.transseq s.cipher writebuf
    let datatrans := (s.datatrans + writebuf.len) % 2 ^ 32
    -- `writebuf_enqueue`
    let writebuf ← bufSetpos writebuf 0
    return (some writebuf,
      { s with transseq := (s.transseq + 1) % 2 ^ 32, cipher := cipher, datatrans := datatrans })

end Sending

/-! ### Receiving -/

/-- How the socket answers the next `read`. -/
inductive SockAnswer
  /-- At most `n` of the bytes that are on their way are there. -/
  | upTo (n : ℕ)
  /-- `EINTR` or `EAGAIN`. -/
  | again
  | closed
  | failed (err : String)
  deriving DecidableEq

/-- What `read` returns. -/
inductive SockRead
  | got (bs : Bytes)
  | again
  | closed
  | failed (err : String)
  deriving DecidableEq

/-- `read` of at most `maxlen` bytes. -/
def sockRead (incoming : Bytes) (maxlen : ℕ) : SockAnswer → SockRead
  | .upTo n =>
    match incoming.take (min n maxlen) with
    | [] => .again
    | b :: bs => .got (b :: bs)
  | .again => .again
  | .closed => .closed
  | .failed err => .failed err

/-- The bytes that `read` has written. -/
def SockRead.bytes : SockRead → Bytes
  | .got bs => bs
  | _ => []

/-- What `read_packet` needs of the session. -/
structure PacketReader (σ : Type) where
  readbuf : Option Buffer := none
  recvseq : ℕ
  /-- `ses.keys->recv.cipher_state`. -/
  cipher : σ
  /-- `ses.kexstate.datarecv`. -/
  datarecv : ℕ := 0
  /-- The bytes that have not been read from the socket. -/
  incoming : Bytes

section Receiving

variable {σ : Type} (K : KeyContext σ)

/-- The length of a packet from its first block: `plen`, `len`, and the block, which is decrypted
unless the mode is an AEAD mode. -/
def KeyContext.getLength (recvseq : ℕ) (cipher : σ) (readbuf : Buffer) :
    Except Exit (ℕ × ℕ × Buffer × σ) :=
  match K.aead with
  | some A => do
    let block ← bufGetptr readbuf K.blocksize
    match A.getlength recvseq block cipher with
    | none => dropbearExit "Error decrypting"
    | some plen => return (plen, u32 (plen + 4 + K.macsize), readbuf, cipher)
  | none => do
    let block ← bufGetptr readbuf K.blocksize
    bufGetwriteptr readbuf K.blocksize
    match K.decrypt block cipher with
    | none => dropbearExit "Error decrypting"
    | some (clear, cipher) =>
      let readbuf ← bufOverwrite readbuf K.blocksize clear
      let (n, readbuf) ← bufGetint readbuf
      let plen := u32 (n + 4)
      return (plen, u32 (plen + K.macsize), readbuf, cipher)

/-- The end of `read_packet_init`, with the first block in `readbuf`. -/
def startPacket (s : PacketReader σ) (readbuf : Buffer) :
    Except Exit (Option Buffer × PacketReader σ) := do
  let readbuf ← bufSetpos readbuf 0
  let (plen, len, readbuf, cipher) ← K.getLength s.recvseq s.cipher readbuf
  if len > recvMaxPacketLen ∨ plen < K.blocksize ∨ plen % K.blocksize ≠ 0 then
    dropbearExit s!"Integrity error (bad packet size {len})"
  else
    let readbuf ← (if len > readbuf.data.length then bufResize readbuf len else .ok readbuf)
    let readbuf ← bufSetlen readbuf len
    let readbuf ← bufSetpos readbuf K.blocksize
    return (some readbuf, { s with cipher := cipher, readbuf := some readbuf })

/-- `ses.readbuf`, which is new at the start of a packet. -/
def openReadbuf : Option Buffer → Except Exit Buffer
  | none => bufNew initReadbuf
  | some readbuf => .ok readbuf

/-- `read_packet_init`; the buffer is returned when the length of the packet is known. -/
def readPacketInit (s : PacketReader σ) (answer : SockAnswer) :
    Except Exit (Option Buffer × PacketReader σ) := do
  let readbuf ← openReadbuf s.readbuf
  let maxlen := u32 (K.blocksize - readbuf.pos)
  let slen := sockRead s.incoming maxlen answer
  let readbuf ← bufOverwrite readbuf maxlen slen.bytes
  match slen with
  -- `svr_remoteclosed`
  | .closed => dropbearExit "Exited normally"
  | .failed err => dropbearExit ("Error reading: " ++ err)
  | .again => return (none, { s with readbuf := some readbuf })
  | .got bs =>
    let readbuf ← bufIncrwritepos readbuf bs.length
    let s := { s with incoming := s.incoming.drop bs.length, readbuf := some readbuf }
    if bs.length ≠ maxlen then return (none, s)
    else startPacket K s readbuf

/-- `checkmac`. -/
def checkmac (recvseq : ℕ) (readbuf : Buffer) : Except Exit (Bool × Buffer) := do
  let contentsLen := u32 (readbuf.len - K.macsize)
  let readbuf ← bufSetpos readbuf 0
  let (macBytes, readbuf) ← K.makeMac recvseq readbuf contentsLen
  let readbuf ← bufSetpos readbuf contentsLen
  let theirs ← bufGetptr readbuf K.macsize
  return (macBytes.take K.macsize = theirs, readbuf)

/-- Decryption of a whole packet, in place, with the check of its MAC or tag. -/
def KeyContext.decryptInPlace (recvseq : ℕ) (cipher : σ) (readbuf : Buffer) :
    Except Exit (Buffer × σ) :=
  match K.aead with
  | some A => do
    let readbuf ← bufSetpos readbuf 0
    let len := u32 (readbuf.len - K.macsize - readbuf.pos)
    let sealed ← bufGetptr readbuf (u32 (len + K.macsize))
    bufGetwriteptr readbuf len
    match A.crypt .decrypt recvseq sealed cipher with
    | none => dropbearExit "Error decrypting"
    | some (clear, cipher) =>
      let readbuf ← bufOverwrite readbuf len clear
      let readbuf ← bufIncrpos readbuf len
      return (readbuf, cipher)
  | none => do
    -- the first block has been decrypted in `read_packet_init`
    let readbuf ← bufSetpos readbuf K.blocksize
    let len := u32 (readbuf.len - K.macsize - readbuf.pos)
    let sealed ← bufGetptr readbuf len
    bufGetwriteptr readbuf len
    match K.decrypt sealed cipher with
    | none => dropbearExit "Error decrypting"
    | some (clear, cipher) =>
      let readbuf ← bufOverwrite readbuf len clear
      let readbuf ← bufIncrpos readbuf len
      let (good, readbuf) ← checkmac K recvseq readbuf
      if !good then dropbearExit "Integrity error" else return (readbuf, cipher)

/-- `decrypt_packet`: `ses.payload`, with its position at the payload. -/
def decryptPacket (s : PacketReader σ) (readbuf : Buffer) :
    Except Exit (Option Buffer × PacketReader σ) := do
  let datarecv := (s.datarecv + readbuf.len) % 2 ^ 32
  let (readbuf, cipher) ← K.decryptInPlace s.recvseq s.cipher readbuf
  let readbuf ← bufSetpos readbuf packetPaddingOff
  let (padlen, readbuf) ← bufGetbyte readbuf
  let len := u32 (readbuf.len - padlen.toNat - 4 - 1 - K.macsize)
  if len > recvMaxPayloadLen + zlibCompressExpansion ∨ len < 1 then
    dropbearExit s!"Bad packet size {len}"
  else
    let readbuf ← bufSetpos readbuf packetPayloadOff
    let payload ← bufSetlen readbuf (readbuf.pos + len)
    return (some payload,
      { s with
        readbuf := none, recvseq := (s.recvseq + 1) % 2 ^ 32, cipher := cipher
        datarecv := datarecv })

/-- The rest of `read_packet`, with the length of the packet known. -/
def readRemainder (s : PacketReader σ) (readbuf : Buffer) (answer : SockAnswer) :
    Except Exit (Option Buffer × PacketReader σ) :=
  let maxlen := readbuf.len - readbuf.pos
  if maxlen = 0 then decryptPacket K s readbuf
  else do
    let len := sockRead s.incoming maxlen answer
    let readbuf ← bufOverwriteUsed readbuf maxlen len.bytes
    match len with
    | .closed => dropbearExit "Exited normally"
    | .failed err => dropbearExit ("Error reading: " ++ err)
    | .again => return (none, { s with readbuf := some readbuf })
    | .got bs =>
      let readbuf ← bufIncrpos readbuf bs.length
      let s := { s with incoming := s.incoming.drop bs.length, readbuf := some readbuf }
      if bs.length = maxlen then decryptPacket K s readbuf else return (none, s)

/-- `read_packet`: `ses.payload`, when a packet is complete.  At most two `read` calls are made. -/
def readPacket (s : PacketReader σ) (first second : SockAnswer) :
    Except Exit (Option Buffer × PacketReader σ) := do
  let (started, s) ← (match s.readbuf with
    | some readbuf => if readbuf.len < K.blocksize then readPacketInit K s first
        else .ok (some readbuf, s)
    | none => readPacketInit K s first)
  match started with
  | none => return (none, s)
  | some readbuf => readRemainder K s readbuf second

end Receiving

end Ps4Dropbear
