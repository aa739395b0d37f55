import RufShare.Utils
import RufShare.Protocol

/-!
# Sockets and the control channel

`net_stream.c` and `cntl.c`: opening sockets, and the headers the two parties exchange over TCP. Each of the four `push_*_header` is
the same walk over its own buffer (`pushHeader`), and each of the four `pull_*_header` the same peek at the type and read of the
packet (`pullPacket`), with the infostring after it for `CAST` and `SEND`.
-/

namespace RufShare

/-! ## `net_stream.c` -/

/-- `BACKLOG`. -/
def backlog : Nat := 1

/-- `init_tcp_socket`: the status and the socket, which is stored as soon as it exists. -/
def initTcpSocket (sock : Sockfd) (srcIp : Bytes) (srcPort : UInt16) (dstIp : Bytes) (dstPort : UInt16) (conn : Bool) :
    Prog (Status × Sockfd) := do
  match inetPton srcIp, inetPton dstIp with
  | none, _ => return (.badipv4, sock)
  | _, none => return (.badipv4, sock)
  | some src, some dst =>
    let opened : Option Sockfd ← syscall (.socket .stream)
    match opened with
    | none => return (.invsock, sock)
    | some sock =>
      let ok : Bool ← syscall (.setsockopt sock .reuseaddr)
      if !ok then return (.failset, sock)
      let ok : Bool ← syscall (.bind sock src srcPort)
      if !ok then return (.errbind, sock)
      if conn then
        let ok : Bool ← syscall (.connect sock dst dstPort)
        if !ok then return (.errconn, sock)
        return (.success, sock)
      return (.success, sock)

/-- `init_udp_socket`. -/
def initUdpSocket (sock : Sockfd) (srcIp : Bytes) (srcPort : UInt16) (dstIp : Bytes) (dstPort : UInt16) (broadcast : Bool) :
    Prog (Status × Sockfd) := do
  match inetPton srcIp, inetPton dstIp with
  | none, _ => return (.badipv4, sock)
  | _, none => return (.badipv4, sock)
  | some src, some dst =>
    let opened : Option Sockfd ← syscall (.socket .dgram)
    match opened with
    | none => return (.invsock, sock)
    | some sock =>
      let ok ← (if broadcast then syscall (.setsockopt sock .broadcast) else pure true : Prog Bool)
      if !ok then return (.failset, sock)
      let ok : Bool ← syscall (.setsockopt sock .reuseaddr)
      if !ok then return (.failset, sock)
      let ok : Bool ← syscall (.bind sock src srcPort)
      if !ok then return (.errbind, sock)
      let ok : Bool ← syscall (.connect sock dst dstPort)
      if !ok then return (.errconn, sock)
      return (.success, sock)

/-- `accept_new_connection`. A `poll` that returns at all, with `POLLIN` or without, goes on to `accept`. -/
def acceptNewConnection (sock : Sockfd) (timeout : Int) : Prog (Status × Option Accepted) := do
  let ok : Bool ← syscall (.listen sock backlog)
  if !ok then return (.errlstn, none)
  let polled : PollResult ← syscall (.poll .stream sock .pollin timeout)
  match polled with
  | .error => return (.failure, none)
  | .timeout => return (.timeout, none)
  | .ready _ =>
    let accepted : Option Accepted ← syscall (.accept sock)
    match accepted with
    | none => return (.invsock, none)
    | some conn => if !conn.inet then return (.badinet, none) else return (.success, some conn)

/-- `push_tcp_data`. -/
def pushTcpData (sock : Sockfd) (buf : Bytes) : Prog Status := do
  let sendSize : Option Nat ← syscall (.send .stream sock buf)
  match sendSize with
  | none => return .errsend
  | some n => if n < buf.length then return .lowsize else return .success

/-- `pull_tcp_data`: the status and the bytes received. -/
def pullTcpData (sock : Sockfd) (size : Nat) (peek : Bool) : Prog (Status × Bytes) := do
  let received : Option { b : Bytes // b.length ≤ size } ← syscall (.recv .stream sock size peek)
  match received with
  | none => return (.errrecv, [])
  | some b => if b.1.length < size then return (.lowsize, b.1) else return (.success, b.1)

/-- `push_udp_data`. -/
def pushUdpData (sock : Sockfd) (buf : Bytes) : Prog Status := do
  let sendSize : Option Nat ← syscall (.send .dgram sock buf)
  match sendSize with
  | none => return .errsend
  | some n => if n < buf.length then return .lowsize else return .success

/-- `pull_udp_data`. -/
def pullUdpData (sock : Sockfd) (size : Nat) : Prog (Status × Bytes) := do
  let received : Option { b : Bytes // b.length ≤ size } ← syscall (.recv .dgram sock size false)
  match received with
  | none => return (.errrecv, [])
  | some b => if b.1.length < size then return (.lowsize, b.1) else return (.success, b.1)

/-- `set_socket_rcvlowsize`. -/
def setSocketRcvlowsize (sock : Sockfd) (size : Nat) : Prog Status := do
  let ok : Bool ← syscall (.setsockopt sock (.rcvlowat size))
  if !ok then return .failset else return .success

/-- `close_socket`. -/
def closeSocket (sock : Sockfd) : Prog Status := do
  let ok : Bool ← syscall (.close sock)
  if !ok then return .failure else return .success

/-! ## `cntl.c` -/

/-- The address checks of `start_cntl` and `start_data`. -/
def checkAddrs (addrs : CntlAddrs) : Status :=
  if !checkIpv4Format addrs.localIp then .badipv4
  else if !checkIpv4Format addrs.remoteIp then .badipv4
  else if addrs.localPort = 0 then .badport
  else if addrs.remotePort = 0 then .badport
  else .success

/-- `start_cntl` on `conf->addrs` and `conf->cntl_sock`. -/
def startCntl (conn : Bool) : Prog Status := do
  let c ← conf
  if checkAddrs c.addrs ≠ .success then return checkAddrs c.addrs
  let (stat, sock) ← initTcpSocket c.cntlSock c.addrs.localIp c.addrs.localPort c.addrs.remoteIp c.addrs.remotePort conn
  setConf (fun c => { c with cntlSock := sock })
  return stat

/-- `accept_cntl` on `conf->addrs`, `conf->conn_sock` and `conf->cntl_sock`. -/
def acceptCntl (timeout : Int) : Prog Status := do
  let c ← conf
  let (stat, accepted) ← acceptNewConnection c.cntlSock timeout
  match accepted with
  | none => return stat
  | some conn =>
    setConf (fun c => { c with connSock := conn.fd,
                               addrs := { c.addrs with remoteIp := inetNtop conn.ip, remotePort := conn.port } })
    return stat

/-- `end_cntl`. -/
def endCntl (sock : Sockfd) : Prog Status := closeSocket sock

/-- What every `push_*_header` does with the buffer it has filled. -/
def pushHeader (sock : Sockfd) (buf : Bytes) (timeout : Int) : Prog Status := do
  let allocated : Bool ← syscall (.malloc buf.length)
  if !allocated then return .emalloc
  let polled : PollResult ← syscall (.poll .stream sock .pollout timeout)
  match polled with
  | .error => return .failure
  | .timeout => return .timeout
  | .ready hit => if hit then pushTcpData sock buf else return .errpoll

/-- The members of `HeaderArgs` that carry an infostring: the packet, and the addresses packed into it or scanned from it. -/
structure CastArgs where
  packet : CastPacket
  info : CntlAddrs
  deriving DecidableEq, Repr

structure SendArgs where
  packet : SendPacket
  info : CntlAddrs
  deriving DecidableEq, Repr

/-- `push_CAST_header`. -/
def pushCastHeader (sock : Sockfd) (args : CastArgs) (timeout : Int) : Prog Status :=
  pushHeader sock (args.packet.bytes ++ packIntoInfostring args.info) timeout

/-- `push_FLOW_header`. -/
def pushFlowHeader (sock : Sockfd) (packet : FlowPacket) (timeout : Int) : Prog Status :=
  pushHeader sock packet.bytes timeout

/-- `push_SEND_header`. -/
def pushSendHeader (sock : Sockfd) (args : SendArgs) (timeout : Int) : Prog Status :=
  pushHeader sock (args.packet.bytes ++ packIntoInfostring args.info) timeout

/-- `push_RECV_header`. -/
def pushRecvHeader (sock : Sockfd) (packet : RecvPacket) (timeout : Int) : Prog Status :=
  pushHeader sock packet.bytes timeout

/-- What every `pull_*_header` does first: wait for the socket, peek at the type and compare it. -/
def pullType (sock : Sockfd) (type : PacketType) (timeout : Int) : Prog Status := do
  let polled : PollResult ← syscall (.poll .stream sock .pollin timeout)
  match polled with
  | .error => return .failure
  | .timeout => return .timeout
  | .ready hit =>
    if !hit then return .errpoll
    let (stat, tmpType) ← pullTcpData sock 1 true
    if stat ≠ .success then return stat
    if type.code ≠ byteAt tmpType 0 then return .badtype
    return .success

/-- The type and the packet, as every `pull_*_header` reads them. -/
def pullPacket (sock : Sockfd) (type : PacketType) (timeout : Int) : Prog (Status × Bytes) := do
  let stat ← pullType sock type timeout
  if stat ≠ .success then return (stat, [])
  pullTcpData sock type.size false

/-- `pull_CAST_header`: the status and `*args` after it. -/
def pullCastHeader (sock : Sockfd) (args : CastArgs) (timeout : Int) : Prog (Status × CastArgs) := do
  let (stat, packet) ← pullPacket sock .cast timeout
  if stat ≠ .success then return (stat, args)
  let (stat, infostr) ← pullTcpData sock infostrSize false
  if stat ≠ .success then return (stat, args)
  return (stat, { packet := convertCastPacket (.ofBytes packet), info := unpackFromInfostring infostr args.info })

/-- `pull_FLOW_header`. -/
def pullFlowHeader (sock : Sockfd) (args : FlowPacket) (timeout : Int) : Prog (Status × FlowPacket) := do
  let (stat, packet) ← pullPacket sock .flow timeout
  if stat ≠ .success then return (stat, args)
  return (stat, convertFlowPacket (.ofBytes packet))

/-- `pull_SEND_header`. -/
def pullSendHeader (sock : Sockfd) (args : SendArgs) (timeout : Int) : Prog (Status × SendArgs) := do
  let (stat, packet) ← pullPacket sock .send timeout
  if stat ≠ .success then return (stat, args)
  let (stat, infostr) ← pullTcpData sock infostrSize false
  if stat ≠ .success then return (stat, args)
  return (stat, { packet := convertSendPacket (.ofBytes packet), info := unpackFromInfostring infostr args.info })

/-- `pull_RECV_header`. -/
def pullRecvHeader (sock : Sockfd) (args : RecvPacket) (timeout : Int) : Prog (Status × RecvPacket) := do
  let (stat, packet) ← pullPacket sock .recv timeout
  if stat ≠ .success then return (stat, args)
  return (stat, convertRecvPacket (.ofBytes packet))

end RufShare
