import RufShare.Pusher

/-!
# The receiver

`puller.c`. The header of `pull_handshake` is a local that is not initialised: `garbage` is what it holds before the first pull.
The thread of `pull_verification` computes the checksum of a file that nothing writes to while it runs, so it is computed here
where the thread is created.
-/

namespace RufShare

/-- `ISVALID_SEND_HEADER`. The comparisons are of unsigned fields. -/
def isValidSendHeader (p : SendPacket) : Bool :=
  p.chunkSize.toNat ≥ 0 || p.partialChunkSize.toNat ≥ 0 || p.chunkCount.toNat > 0

/-- What `pull_handshake` stores of a SEND header before it makes the file. -/
def storeOffer (header : SendArgs) (c : InitConfig) : InitConfig :=
  { c with
    chsize := header.packet.chunkSize, pchsize := header.packet.partialChunkSize, chcount := header.packet.chunkCount,
    filec := { c.filec with name := sstrncpy header.info.filename maxFileNameSize,
                            size := calcFileSize header.packet.chunkCount header.packet.chunkSize
                              header.packet.partialChunkSize },
    addrs := { c.addrs with filename := sstrncpy header.info.filename maxFileNameSize,
                            remoteIp := sstrncpy header.info.remoteIp maxIpv4Size,
                            remotePort := header.info.remotePort } }

/-- `pull_handshake`. The sender's name goes to a buffer of the caller and is not used again. -/
def pullHandshake (garbage : SendArgs) : Prog Status := do
  enter .handshake
  let c ← conf
  let (stat, header) ← pullSendHeader c.connSock garbage foreverTimeout
  if stat ≠ .success then return stat
  if !isValidSendHeader header.packet then
    pushRecvHeader c.connSock (packRecvPacket 0 0 0) c.hstRecv
  else
    setConf (storeOffer header)
    let c ← conf
    let made ← startFileStream c.addrs.filename .mwr
    let stat ← pushRecvHeader c.connSock (packRecvPacket (if made = .success then 1 else 0) 0 0) c.hstRecv
    if stat ≠ .success then return stat
    setConf (fun c => { c with seq := 1 })
    return stat

/-- `match_flow`. -/
def matchFlow (c : InitConfig) (flow : FlowPacket) : Bool :=
  if c.seq ≠ c.chcount then flow.sequence = c.seq && flow.chunkSize = c.chsize
  else flow.sequence = c.seq && flow.chunkSize = c.pchsize

/-- The content of a `flow` header that nothing has been read into. -/
def emptyFlow : FlowPacket := { type := 0, pad0 := 0, chunkSize := 0, sequence := 0, crc := 0 }

/-- The inner loop of `pull_transfer`: the chunk and the verdict on it. -/
def pullDataLoop (Γ : Libcrc) (flow : FlowPacket) (chcon : ChunkContext) : Nat → Prog (Status × Nat)
  | 0 => return (.success, 0)
  | trycount + 1 => do
    enter .data
    let c ← conf
    let stat ← pullChunkData c.dataSock chcon c.tftData
    if stat ≠ .success then return (stat, trycount + 1)
    let c ← conf
    if flow.crc = calcChunkCrc32 Γ c.filec chcon then
      let stat ← pushRecvHeader c.connSock (packRecvPacket 1 0 c.seq) c.tftRecv
      if stat ≠ .success then return (stat, trycount + 1)
      return (.success, trycount + 1)
    else
      let stat ← pushRecvHeader c.connSock (packRecvPacket 0 0 c.seq) c.tftRecv
      if stat ≠ .success then return (stat, trycount + 1)
      pullDataLoop Γ flow chcon trycount

/-- The outer loop of `pull_transfer`. The push that answers a FLOW header that does not match is not checked. -/
def pullTransferLoop (Γ : Libcrc) : Nat → Nat → Prog Status
  | 0, _ => Resumption.Prog.cutoff
  | rounds + 1, trycount => do
    enter .flow
    let c ← conf
    if c.seq ≤ c.chcount then
      let chcon := chunkContext c
      let (stat, flow) ← pullFlowHeader c.connSock emptyFlow c.tftFlow
      if stat ≠ .success then return stat
      if matchFlow c flow then
        let stat ← pushRecvHeader c.connSock (packRecvPacket 1 0 c.seq) c.tftRecv
        if stat ≠ .success then return stat
        let (stat, trycount) ← pullDataLoop Γ flow chcon trycount
        if stat ≠ .success then return stat
        if trycount = 0 then return .exptry0
        setConf (fun c => { c with seq := c.seq + 1 })
        pullTransferLoop Γ rounds c.tfTrycount
      else
        let _ ← pushRecvHeader c.connSock (packRecvPacket 0 0 c.seq) c.tftRecv
        return .badflow
    else return .success

/-- `pull_transfer`. -/
def pullTransfer (Γ : Libcrc) (rounds : Nat) : Prog Status := do
  let c ← conf
  pullTransferLoop Γ rounds c.tfTrycount

/-- `pull_verification`. The last assignment to `_stat` before it is returned is the status of the push. -/
def pullVerification (Γ : Libcrc) (garbage : SendArgs) : Prog Status := do
  enter .verification
  let c ← conf
  let created : Bool ← syscall .pthreadCreate
  if !created then return .ethread
  let crc := calcFileCrc16 Γ c.filec
  let (stat, header) ← pullSendHeader c.connSock garbage c.vftSend
  if stat ≠ .success then return stat
  let joined : Bool ← syscall .pthreadJoin
  if !joined then return .ethread
  -- on a mismatch the source also sets `_stat` to `FAILCRC`; the push below assigns `_stat` again
  let recv := if header.packet.crc = crc then packRecvPacket 1 0 c.seq else packRecvPacket 0 0 c.seq
  let stat ← pushRecvHeader c.connSock recv c.vftRecv
  if stat ≠ .success then return stat
  return stat

/-- The part of `start_puller` from the handshake to the verification; `opening` opens the data socket. -/
def pullPhases (Γ : Libcrc) (garbage : SendArgs) (rounds : Nat) (opening : Prog Status) : Prog Status := do
  let stat ← pullHandshake garbage
  if stat ≠ .success then return stat
  let stat ← opening
  if stat ≠ .success then return stat
  setSegsize
  let stat ← pullTransfer Γ rounds
  if stat ≠ .success then return stat
  pullVerification Γ garbage

/-- The part of `start_puller` after the verification. -/
def pullClosing : Prog Status := do
  enter .closing
  let stat ← endFileStream
  if stat ≠ .success then return stat
  let c ← conf
  let stat ← endCntl c.cntlSock
  if stat ≠ .success then return stat
  let stat ← endData c.dataSock
  if stat ≠ .success then return stat
  endCntl c.connSock

/-- `start_puller`. -/
def startPuller (Γ : Libcrc) (garbage : SendArgs) (rounds : Nat) : Prog Status := do
  let stat ← startCntl false
  if stat ≠ .success then return stat
  let stat ← acceptCntl foreverTimeout
  if stat ≠ .success then return stat
  let c ← conf
  let stat ← closeSocket c.castSock
  if stat ≠ .success then return stat
  let stat ← pullPhases Γ garbage rounds startData
  if stat ≠ .success then return stat
  pullClosing

end RufShare
