import Ps4Dropbear.Forward.Streamlocal

/-!
# Forwarded ports

`svr-tcpfwd.c` and `listen_tcpfwd` of `tcp-accept.c`, with the checks of
`svr-authpubkeyoptions.c` that they make.

* `remotetcpTarget` : what a `tcpip-forward` request hands to `listen_tcpfwd`.
* `newtcpdirect` : what a `direct-tcpip` open hands to `connect_remote`.
-/

namespace Ps4Dropbear

/-- `IPPORT_RESERVED`. -/
def ipportReserved : ℕ := 1024

namespace FwdConfig

/-- `svr_pubkey_allows_local_tcpfwd`. -/
def svrPubkeyAllowsLocalTcpfwd (cfg : FwdConfig) (host : Bytes) (port : ℕ) : Bool :=
  match cfg.pubkeyOptions.bind (·.permitOpenDestinations) with
  | none => true
  | some entries => entries.any fun entry => entry.host.any (strEq · host) &&
      (entry.port == pubkeyOptionsAnyPort || entry.port == port)

/-- `svr_pubkey_allows_remote_tcpfwd`: no host restrictions. -/
def svrPubkeyAllowsRemoteTcpfwd (cfg : FwdConfig) (_host : Bytes) (port : ℕ) : Bool :=
  match cfg.pubkeyOptions.bind (·.permitListens) with
  | none => true
  | some entries => entries.any (·.port == port)

end FwdConfig

/-- What the system does in a `tcpip-forward` request: the number of sockets that `dropbear_listen`
opens, or its error, and the port that `get_sock_port` reports. -/
structure TcpAnswers where
  listen : Except String ℕ
  sockPort : ℕ

namespace Forwards

/-- As many new descriptors as `dropbear_listen` opens. -/
def openSocks (s : Forwards) : ℕ → List ℕ × Forwards
  | 0 => ([], s)
  | n + 1 =>
    let r := { s with fds := s.fds.alloc () }.openSocks n
    (s.fds.lowest :: r.1, r.2)

/-- `listen_tcpfwd`; `none` is `DROPBEAR_FAILURE`. -/
def listenTcpfwd (s : Forwards) (sys : TcpAnswers) (tcpinfo : FwdListener) :
    Option Listener × Forwards :=
  match sys.listen with
  | .error errstring => (none, s.info ("TCP forward failed: " ++ errstring))
  | .ok nsocks =>
    let (socks, s) := s.openSocks nsocks
    -- new_listener will close the socks if it fails
    s.newListener socks .tcpforwarded (.fwd tcpinfo) (some .cleanupTcp)

end Forwards

/-- `svr_remotetcpreq` up to `listen_tcpfwd`: the `FwdListener` that is handed to it, `none` where
the source goes to `out`. -/
def remotetcpTarget (cfg : FwdConfig) (payload : Buffer) :
    Except Exit (Option FwdListener × Buffer) := do
  let (requestAddr, payload) ← bufGetstring payload
  if requestAddr.length > maxHostLen then return (none, payload)
  let (port, payload) ← bufGetint payload
  if port ≠ 0 ∧ (port < 1 ∨ port > 65535) then return (none, payload)
  if port ≠ 0 ∧ ¬ cfg.allowprivport ∧ port < ipportReserved then return (none, payload)
  if ¬ cfg.svrPubkeyAllowsRemoteTcpfwd requestAddr port then return (none, payload)
  return (some
    { listenport := port
      chantype := .svrChanTcpremote
      fwdType := .forwarded
      interface := cfg.interface
      requestListenaddr := some requestAddr
      -- NULL means "localhost only"
      listenaddr := if ¬ cfg.listenFwdAll ∨ strEq requestAddr (ascii "localhost") then none
        else some requestAddr }, payload)

/-- `svr_remotetcpreq`. -/
def svrRemotetcpreq (cfg : FwdConfig) (sys : TcpAnswers) (wantreply : Bool) (payload : Buffer)
    (s : Forwards) : Except Exit (Bool × Buffer × Forwards) := do
  let (tcpinfo, payload) ← remotetcpTarget cfg payload
  let fail (s : Forwards) : Bool × Buffer × Forwards :=
    (false, payload, if wantreply then { s with sent := s.sent ++ [[82]] } else s)
  match tcpinfo with
  | none => return fail s
  | some tcpinfo =>
    match s.listenTcpfwd sys tcpinfo with
    | (none, s) => return fail s
    | (some listener, s) =>
      -- `tcpinfo` is what the listener points to
      let s := { s with listeners := s.listeners.set listener.index (some { listener with
        typedata := .fwd { tcpinfo with listenport := sys.sockPort } }) }
      -- port is only included if allocated
      let reply := if tcpinfo.listenport = 0 then 81 :: store32h sys.sockPort else [81]
      return (true, payload, if wantreply then { s with sent := s.sent ++ [reply] } else s)

/-- `matchtcp`. -/
def matchtcp (info1 info2 : FwdListener) : Bool :=
  info1.listenport == info2.listenport &&
    strEq (info1.requestListenaddr.getD []) (info2.requestListenaddr.getD [])

/-- `svr_cancelremotetcp`. -/
def svrCancelremotetcp (mayUnlink : Bool) (payload : Buffer) (s : Forwards) :
    Except Exit (Bool × Buffer × Forwards) := do
  let (requestAddr, payload) ← bufGetstring payload
  if requestAddr.length > maxHostLen then return (false, payload, s)
  let (port, payload) ← bufGetint payload
  let tcpinfo : FwdListener :=
    { listenport := port, requestListenaddr := some requestAddr
      chantype := .svrChanTcpremote, fwdType := .direct }
  let accepts : Typedata → Bool
    | .fwd info => matchtcp tcpinfo info
    | .chansess => false
  match s.getListener ListenerType.tcpforwarded.toNat accepts with
  | some listener => return (true, payload, s.removeListener mayUnlink listener)
  | none => return (false, payload, s)

/-- `newtcpdirect`: the host and the port that are handed to `connect_remote`, the port as a decimal
text; `none` is `SSH_OPEN_ADMINISTRATIVELY_PROHIBITED`. -/
def newtcpdirect (cfg : FwdConfig) (payload : Buffer) :
    Except Exit (Option (Bytes × ℕ) × Buffer) := do
  if cfg.nolocaltcp ∨ ¬ cfg.svrPubkeyAllowsTcpfwd then return (none, payload)
  let (desthost, payload) ← bufGetstring payload
  if desthost.length > maxHostLen then return (none, payload)
  let (destport, payload) ← bufGetint payload
  let (orighost, payload) ← bufGetstring payload
  if orighost.length > maxHostLen then return (none, payload)
  let (origport, payload) ← bufGetint payload
  -- best be sure
  if origport > 65535 ∨ destport > 65535 then return (none, payload)
  if ¬ cfg.svrPubkeyAllowsLocalTcpfwd desthost destport then return (none, payload)
  return (some (cstr desthost, destport), payload)

end Ps4Dropbear
