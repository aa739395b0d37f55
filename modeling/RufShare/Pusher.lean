import RufShare.Data

/-!
# The sender

`pusher.c`. The three phases of a transfer and `start_pusher`, which runs them. The inner loops of `push_transfer` return the status
of an early return and the value of `trycount` they leave; the outer loop is allowed a number of rounds, one for each chunk, and
is cut when it has used them.
-/

namespace RufShare

/-- The members of `header.send` that `push_handshake` and `push_verification` fill in alike. -/
def sendArgs (c : InitConfig) (crc : UInt16) : SendArgs :=
  { packet := packSendPacket c.chsize c.chcount c.pchsize crc,
    info := { filename := sstrncpy c.addrs.filename maxFileNameSize, name := sstrncpy c.addrs.name maxNameSize,
              localIp := sstrncpy c.addrs.localIp maxIpv4Size, remoteIp := sstrncpy c.addrs.remoteIp maxIpv4Size,
              localPort := c.addrs.localPort, remotePort := c.addrs.remotePort } }

/-- The content of a `recv` header that nothing has been read into; it is used only after a successful pull. -/
def emptyRecv : RecvPacket := { type := 0, ack := 0, crc := 0, sequence := 0 }

/-- `push_handshake`. -/
def pushHandshake : Prog Status := do
  enter .handshake
  setConf (fun c => { c with chcount := (calcChunkCount c.filec.size c.chsize.toNat).1,
                             pchsize := (calcChunkCount c.filec.size c.chsize.toNat).2 })
  let c ← conf
  let stat ← pushSendHeader c.cntlSock (sendArgs c 0) c.hstSend
  if stat ≠ .success then return stat
  let (stat, recv) ← pullRecvHeader c.cntlSock emptyRecv c.hstRecv
  if stat ≠ .success then return stat
  setConf (fun c => { c with seq := 1 })
  return if recv.ack = 0 then .zeroack else stat

/-- The first inner loop of `push_transfer`: the FLOW header and the answer to it. -/
def pushFlowLoop (flow : FlowPacket) : Nat → Prog (Status × Nat)
  | 0 => return (.success, 0)
  | trycount + 1 => do
    enter .flow
    let c ← conf
    let stat ← pushFlowHeader c.cntlSock flow c.tftFlow
    if stat ≠ .success then return (stat, trycount + 1)
    let (stat, recv) ← pullRecvHeader c.cntlSock emptyRecv c.tftRecv
    if stat ≠ .success then return (stat, trycount + 1)
    if recv.ack = 1 then return (.success, trycount + 1) else pushFlowLoop flow trycount

/-- The second inner loop of `push_transfer`: the chunk and the verdict on it. -/
def pushDataLoop (chcon : ChunkContext) : Nat → Prog (Status × Nat)
  | 0 => return (.success, 0)
  | trycount + 1 => do
    enter .data
    let c ← conf
    let stat ← pushChunkData c.dataSock chcon c.tftData
    if stat ≠ .success then return (stat, trycount + 1)
    let (stat, recv) ← pullRecvHeader c.cntlSock emptyRecv c.tftRecv
    if stat ≠ .success then return (stat, trycount + 1)
    if recv.ack = 1 then return (.success, trycount + 1) else pushDataLoop chcon trycount

/-- The outer loop of `push_transfer`, with `trycount` as the round before left it. -/
def pushTransferLoop (Γ : Libcrc) : Nat → Nat → Prog Status
  | 0, _ => Resumption.Prog.cutoff
  | rounds + 1, trycount => do
    let c ← conf
    if c.seq ≤ c.chcount then
      let chcon := chunkContext c
      let flow := packFlowPacket (UInt16.ofNat chcon.chunkSize) c.seq (calcChunkCrc32 Γ c.filec chcon)
      let (stat, trycount) ← pushFlowLoop flow trycount
      if stat ≠ .success then return stat
      if trycount = 0 then return .exptry0
      let (stat, trycount) ← pushDataLoop chcon c.tfTrycount
      if stat ≠ .success then return stat
      if trycount = 0 then return .exptry1
      setConf (fun c => { c with seq := c.seq + 1 })
      pushTransferLoop Γ rounds c.tfTrycount
    else return .success

/-- `push_transfer`. -/
def pushTransfer (Γ : Libcrc) (rounds : Nat) : Prog Status := do
  enter .flow
  let c ← conf
  pushTransferLoop Γ rounds c.tfTrycount

/-- `push_verification`. -/
def pushVerification (Γ : Libcrc) : Prog Status := do
  enter .verification
  let c ← conf
  let stat ← pushSendHeader c.cntlSock (sendArgs c (calcFileCrc16 Γ c.filec)) c.vftSend
  if stat ≠ .success then return stat
  let (stat, recv) ← pullRecvHeader c.cntlSock emptyRecv c.vftRecv
  if stat ≠ .success then return stat
  return if recv.ack = 0 then .zeroack else stat

/-- `conf->segsize = calc_segment_size(...)`, as `start_pusher` and `start_puller` set it. -/
def setSegsize : Prog Unit :=
  setConf (fun c => { c with segsize := calcSegmentSize (if c.chsize ≠ 0 then c.chsize.toNat else c.pchsize.toNat) })

/-- The part of `start_pusher` from the handshake to the verification; `opening` opens the data socket. -/
def pushPhases (Γ : Libcrc) (rounds : Nat) (opening : Prog Status) : Prog Status := do
  let stat ← pushHandshake
  if stat ≠ .success then return stat
  let stat ← opening
  if stat ≠ .success then return stat
  setSegsize
  let stat ← pushTransfer Γ rounds
  if stat ≠ .success then return stat
  pushVerification Γ

/-- `start_pusher`. -/
def startPusher (Γ : Libcrc) (rounds : Nat) (path : Bytes) : Prog Status := do
  let stat ← startFileStream path .mrd
  if stat ≠ .success then return stat
  let stat ← startCntl true
  if stat ≠ .success then return stat
  let stat ← pushPhases Γ rounds startData
  if stat ≠ .success then return stat
  enter .closing
  let stat ← endFileStream
  if stat ≠ .success then return stat
  let c ← conf
  let stat ← endCntl c.cntlSock
  if stat ≠ .success then return stat
  endData c.dataSock

end RufShare
