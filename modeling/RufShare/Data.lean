import RufShare.Mfile
import RufShare.Cntl

/-!
# The data channel

`data.c`: a chunk goes out as datagrams of at most `conf->segsize` bytes and comes in the same way, written through the cursor of
the mapped file. The loops run once per segment. When `segsize` is not zero every round takes at least one byte off `rsize`, so
`rsize` rounds are enough; with `segsize = 0` and bytes left the loop of the source never ends, and the one here is cut.
-/

namespace RufShare

/-- `start_data` on `conf->addrs` and `conf->data_sock`. -/
def startData : Prog Status := do
  let c ← conf
  if checkAddrs c.addrs ≠ .success then return checkAddrs c.addrs
  let (stat, sock) ← initUdpSocket c.dataSock c.addrs.localIp c.addrs.localPort c.addrs.remoteIp c.addrs.remotePort false
  setConf (fun c => { c with dataSock := sock })
  return stat

/-- `end_data`. -/
def endData (sock : Sockfd) : Prog Status := closeSocket sock

/-- Set the file of the transfer to `stream`. -/
def setMfile (stream : MFile) : Prog Unit :=
  setConf (fun c => { c with filec := { c.filec with mfile := stream } })

/-- The segment buffer after `read` was copied into it: `segbuf` is zeroed before every round. -/
def fillSegbuf (segsize : Nat) (read : Bytes) : Bytes := read ++ List.replicate (segsize - read.length) 0

/-- The `while (rsize != 0)` loop of `push_chunk_data`. -/
def pushSegments (sock : Sockfd) (timeout : Int) : Nat → Nat → Prog Status
  | _, 0 => return .success
  | 0, _ + 1 => Resumption.Prog.cutoff
  | rounds + 1, rsize => do
    let c ← conf
    let segsize := if c.segsize ≤ rsize then c.segsize else rsize
    let (read, stream) := mfread segsize 1 c.filec.mfile
    setMfile stream
    let polled : PollResult ← syscall (.poll .dgram sock .pollout timeout)
    match polled with
    | .error => return .failure
    | .timeout => return .timeout
    | .ready hit =>
      if !hit then return .errpoll
      let stat ← pushUdpData sock (fillSegbuf segsize read)
      if stat ≠ .success then return stat
      pushSegments sock timeout rounds (rsize - segsize)

/-- `push_chunk_data`. -/
def pushChunkData (sock : Sockfd) (chunk : ChunkContext) (timeout : Int) : Prog Status := do
  let c ← conf
  let allocated : Bool ← syscall (.calloc c.segsize 1)
  if !allocated then return .emalloc
  let (pos, stream) := mfseek c.filec.mfile chunk.startPos
  setMfile stream
  if chunk.startPos ≠ pos then return .emfseek
  pushSegments sock timeout chunk.chunkSize chunk.chunkSize

/-- The `while (rsize != 0)` loop of `pull_chunk_data`. -/
def pullSegments (sock : Sockfd) (timeout : Int) : Nat → Nat → Prog Status
  | _, 0 => return .success
  | 0, _ + 1 => Resumption.Prog.cutoff
  | rounds + 1, rsize => do
    let c ← conf
    let segsize := if c.segsize ≤ rsize then c.segsize else rsize
    let polled : PollResult ← syscall (.poll .dgram sock .pollin timeout)
    match polled with
    | .error => return .failure
    | .timeout => return .timeout
    | .ready hit =>
      if !hit then return .errpoll
      let (stat, segbuf) ← pullUdpData sock segsize
      if stat ≠ .success then return stat
      setMfile (mfwrite segbuf segsize 1 c.filec.mfile)
      pullSegments sock timeout rounds (rsize - segsize)

/-- `pull_chunk_data`. -/
def pullChunkData (sock : Sockfd) (chunk : ChunkContext) (timeout : Int) : Prog Status := do
  let c ← conf
  let allocated : Bool ← syscall (.calloc c.segsize 1)
  if !allocated then return .emalloc
  let (pos, stream) := mfseek c.filec.mfile chunk.startPos
  setMfile stream
  if chunk.startPos ≠ pos then return .emfseek
  let stat ← (if chunk.startPos = 0 then setSocketRcvlowsize sock (2 * c.segsize) else pure .success : Prog Status)
  if stat ≠ .success then return stat
  let stat ← pullSegments sock timeout chunk.chunkSize chunk.chunkSize
  if stat ≠ .success then return stat
  let c ← conf
  let synced ← mfsync c.filec.mfile
  if !synced then return .emfsync
  return stat

end RufShare
