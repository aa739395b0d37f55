import RufShare.Cntl

/-!
# The scan for peers

`scanpair.c`: datagrams are received until an interval is over or too many receptions have failed, and each CAST header adds an entry to
an array that `realloc` enlarges. Beside the calls of the rest of the library the scan makes two of its own. A `recvfrom` without an
address is a `recv`.
-/

namespace RufShare

/-- `PairInfo`. -/
structure PairInfo where
  name : Bytes
  ip : Bytes
  port : UInt16
  deriving DecidableEq, Repr

/-- `sizeof(PairInfo)`. -/
def pairInfoSize : Nat := maxNameSize + maxIpv4Size + 2

/-- The members of `conf` that only `start_scanpair` reads: `sp_trycount`, `sp_interval` and `spt_cast`. -/
structure ScanConfig where
  spTrycount : Int
  spInterval : Int
  sptCast : Int

/-- The calls of the scan. -/
inductive ScanCall where
  | sys (c : Call)
  | time
  | realloc (size : Nat)
  deriving DecidableEq, Repr

/-- The answers: `time` gives a `time_t`, `-1` for failure, and `realloc` whether the pointer is not null. -/
abbrev ScanCall.Answer : ScanCall → Type
  | .sys c => c.Answer
  | .time => Int
  | .realloc _ => Bool

/-- A program of the scan. -/
abbrev ScanProg : Type → Type := Resumption.Prog Proc ScanCall.Answer

/-- A residual of such a program. -/
abbrev ScanTree : Type → Type := Resumption.Tree Proc ScanCall.Answer

/-- A residual of the rest of the library as one of the scan. -/
def scanTree {α : Type} : Tree α → ScanTree α
  | .ret s a => .ret s a
  | .cut s => .cut s
  | .call s c k => .call s (.sys c) (fun r => scanTree (k r))

/-- A program of the rest of the library as part of the scan. -/
def sys {α : Type} (x : Prog α) : ScanProg α := fun s => scanTree (x s)

/-- Make a call of the scan. -/
def scancall (c : ScanCall) : ScanProg c.Answer := Resumption.Prog.perform c

/-- `init_udp_socket` of `scanpair.c`: the socket is bound and not connected. -/
def initScanSocket (sock : Sockfd) (srcIp : Bytes) (srcPort : UInt16) : Prog (Status × Sockfd) := do
  match inetPton srcIp with
  | none => return (.badipv4, sock)
  | some src =>
    let opened : Option Sockfd ← syscall (.socket .dgram)
    match opened with
    | none => return (.invsock, sock)
    | some sock =>
      let ok : Bool ← syscall (.setsockopt sock .broadcast)
      if !ok then return (.failset, sock)
      let ok : Bool ← syscall (.setsockopt sock .reuseaddr)
      if !ok then return (.failset, sock)
      let ok : Bool ← syscall (.bind sock src srcPort)
      if !ok then return (.errbind, sock)
      return (.success, sock)

/-- `pull_broadcast_header`: the status and `*args` after it. -/
def pullBroadcastHeader (sock : Sockfd) (args : CastArgs) (timeout : Int) : Prog (Status × CastArgs) := do
  let bufsize := PacketType.size .cast + infostrSize
  let allocated : Bool ← syscall (.malloc bufsize)
  if !allocated then return (.emalloc, args)
  let polled : PollResult ← syscall (.poll .dgram sock .pollin timeout)
  match polled with
  | .error => return (.failure, args)
  | .timeout => return (.timeout, args)
  | .ready hit =>
    if !hit then return (.errpoll, args)
    let (stat, buf) ← pullUdpData sock bufsize
    if stat ≠ .success then return (stat, args)
    if byteAt buf 0 ≠ PacketType.code .cast then return (.badtype, args)
    return (.success,
      { packet := convertCastPacket (.ofBytes (buf.take (PacketType.size .cast))),
        info := unpackFromInfostring (buf.drop (PacketType.size .cast)) args.info })

/-- The entry the scan writes for a header. -/
def pairInfo (info : CntlAddrs) : PairInfo :=
  { name := sstrncpy info.name maxNameSize, ip := info.remoteIp, port := info.remotePort }

/-- What the loop of `start_scanpair` leaves in `trycount`, `*info` and `*len`; `*info` is null before the first entry. -/
structure Scanned where
  trycount : Int
  info : Option (List PairInfo)
  len : Nat

/-- The loop of `start_scanpair`, cut after a number of rounds; `none` when an entry is written through a null `*info`. `header` is
the one variable of all rounds. -/
def scanLoop (k : ScanConfig) (startTime : Int) : Nat → CastArgs → Scanned → ScanProg (Option Scanned)
  | 0, _, _ => Resumption.Prog.cutoff
  | rounds + 1, header, x => do
    let now : Int ← scancall .time
    if now - startTime < k.spInterval then
      let c ← sys conf
      let (stat, header) ← sys (pullBroadcastHeader c.castSock header k.sptCast)
      if stat = .success then
        let len := x.len + 1
        let allocated : Bool ← scancall (.realloc (pairInfoSize * len))
        -- the check of the source looks at `info`, which is not null, and not at `*info`
        if !allocated then return none
        let x := { trycount := k.spTrycount, info := some (x.info.getD [] ++ [pairInfo header.info]), len := len }
        if x.trycount = 0 then return some x else scanLoop k startTime rounds header x
      else
        let x := if stat ≠ .badtype ∧ stat ≠ .timeout then { x with trycount := x.trycount - 1 } else x
        if x.trycount = 0 then return some x else scanLoop k startTime rounds header x
    else return some x

/-- How `start_scanpair` ends: before it has set `*info` and `*len`, with them set, or in a write through a null `*info`. -/
inductive ScanEnd where
  | failed (stat : Status)
  | returned (stat : Status) (info : Option (List PairInfo)) (len : Nat)
  | nullWrite
  deriving DecidableEq, Repr

/-- `start_scanpair`. The header is not initialised: `garbage` is what it holds. -/
def startScanpair (k : ScanConfig) (garbage : CastArgs) (rounds : Nat) : ScanProg ScanEnd := do
  let startTime : Int ← scancall .time
  if startTime = -1 then return .failed .errtime
  let c ← sys conf
  let (stat, sock) ← sys (initScanSocket c.castSock c.addrs.localIp c.addrs.localPort)
  sys (setConf (fun c => { c with castSock := sock }))
  if stat ≠ .success then return .failed stat
  let scanned ← scanLoop k startTime rounds garbage { trycount := k.spTrycount, info := none, len := 0 }
  match scanned with
  | none => return .nullWrite
  | some x =>
    let c ← sys conf
    let stat ← sys (closeSocket c.castSock)
    if stat ≠ .success then return .returned stat x.info x.len
    if x.trycount = 0 then return .returned .exptry0 x.info x.len
    return .returned .success x.info x.len

end RufShare
