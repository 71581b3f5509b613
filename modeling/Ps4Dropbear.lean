import Ps4Dropbear.Auth.MultiFactor
import Ps4Dropbear.Auth.Soundness
import Ps4Dropbear.Auth.VerifiedKey
import Ps4Dropbear.Auth.WholeLines
import Ps4Dropbear.Channel.Closing
import Ps4Dropbear.Channel.ForcedCommand
import Ps4Dropbear.Channel.WorkerPipe
import Ps4Dropbear.Scp.Agreement
import Ps4Dropbear.Scp.Confinement
import Ps4Dropbear.Session.Descriptors
import Ps4Dropbear.Session.Gating
import Ps4Dropbear.Session.Isolation
import Ps4Dropbear.Session.ProcessPacket
import Ps4Dropbear.Channel.AfterClose
import Ps4Dropbear.Channel.Output
import Ps4Dropbear.Channel.Conservation
import Ps4Dropbear.Channel.Delivery
import Ps4Dropbear.Channel.Handoff
import Ps4Dropbear.Channel.Ownership
import Ps4Dropbear.Auth.Probing
import Ps4Dropbear.Session.ReplyQueue
import Ps4Dropbear.Session.StrictKex
import Ps4Dropbear.Session.FirstGuess
import Ps4Dropbear.Session.Hostkeys
import Ps4Dropbear.Session.PacketStream
import Ps4Dropbear.Channel.Sending
import Ps4Dropbear.Channel.Overrun
import Ps4Dropbear.Scp.Download
import Ps4Dropbear.Auth.Permissions
import Ps4Dropbear.Forward.GlobalRequest
import Ps4Dropbear.Forward.Restrictions
import Ps4Dropbear.Forward.Retrying
import Ps4Dropbear.Shell.Dispatch
import Ps4Dropbear.Shell.Session
import Ps4Dropbear.Shell.HeadTail
import Ps4Dropbear.Shell.Terminal
import Ps4Dropbear.Shell.Numeric
import Ps4Dropbear.Shell.Resolve
import Ps4Dropbear.Shell.Quoting
import Ps4Dropbear.Shell.LineEditor
import Ps4Dropbear.Shell.CopyFile
import Ps4Dropbear.Channel.Capture
import Ps4Dropbear.Channel.FailedRequests
import Ps4Dropbear.Shell.Grep
import Ps4Dropbear.Shell.Hexdump
import Ps4Dropbear.Shell.Find
import Ps4Dropbear.Scp.Grammar
import Ps4Dropbear.Auth.LineScan
import Ps4Dropbear.Auth.ParsedOptions
import Ps4Dropbear.Auth.Delimiting
import Ps4Dropbear.Auth.FatalLines
import Ps4Dropbear.Session.Timeouts
import Ps4Dropbear.Auth.BruteForce
import Ps4Dropbear.Channel.Cancelled
import Ps4Dropbear.Buffer.CircbufferWords
import Ps4Dropbear.Session.Padding
import Ps4Dropbear.Session.PacketLength
import Ps4Dropbear.Session.WriteQueue
import Ps4Dropbear.Session.NameList
import Ps4Dropbear.Session.UserAlgos
import Ps4Dropbear.Buffer.Readfile
import Ps4Dropbear.Auth.KeyEncoding
import Ps4Dropbear.Session.KeyDerivation
import Ps4Dropbear.Auth.RsaSign
import Ps4Dropbear.Buffer.BufferCalls
import Ps4Dropbear.Session.Connection
import Ps4Dropbear.Crypto.Ctr
import Ps4Dropbear.Crypto.ChaChaPoly
