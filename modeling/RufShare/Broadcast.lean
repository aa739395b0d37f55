import RufShare.Puller
import RufShare.Resumption.Pair

/-!
# The broadcast and the threads of `pull_file`

`broadcast.c`, and the two threads `pull_file` runs in one process: `start_broadcast` and `start_puller`. What they share is the table
of descriptors, in which every new one is the lowest that is free, and `conf->cast_sock`. The receiver reads `conf->cast_sock` once,
where it closes it, so its run is that of a process that had the value it reads there from the start; that the value is the one
stored at that time is checked at the close. The other members of `conf` that one thread writes and the other reads are addresses,
and change no descriptor.
-/

namespace RufShare

open Resumption

/-! ## `broadcast.c` -/

/-- `push_broadcast_header`. -/
def pushBroadcastHeader (sock : Sockfd) (args : CastArgs) (timeout : Int) : Prog Status := do
  let buf := args.packet.bytes ++ packIntoInfostring args.info
  let allocated : Bool ← syscall (.malloc buf.length)
  if !allocated then return .emalloc
  let polled : PollResult ← syscall (.poll .dgram sock .pollout timeout)
  match polled with
  | .error => return .failure
  | .timeout => return .timeout
  | .ready hit => if hit then pushUdpData sock buf else return .errpoll

/-- The header `start_broadcast` fills in. -/
def castArgs (c : InitConfig) : CastArgs :=
  { packet := packCastPacket 0,
    info := { filename := sstrncpy c.addrs.filename maxFileNameSize, name := sstrncpy c.addrs.name maxNameSize,
              localIp := sstrncpy c.addrs.localIp maxIpv4Size, remoteIp := sstrncpy c.addrs.remoteIp maxIpv4Size,
              localPort := c.addrs.localPort, remotePort := c.addrs.remotePort } }

/-- The members of `conf` that only `start_broadcast` reads: `bc_trycount` and `bct_cast`. -/
structure CastConfig where
  bcTrycount : Int
  bctCast : Int

/-- The `while (trycount != 0)` loop of `start_broadcast`, cut after a number of rounds. It sleeps at the end of each. -/
def broadcastLoop (b : CastConfig) (header : CastArgs) : Nat → Int → Prog Unit
  | 0, _ => Resumption.Prog.cutoff
  | rounds + 1, trycount => do
    if trycount ≠ 0 then
      let c ← conf
      let stat ← pushBroadcastHeader c.castSock header b.bctCast
      broadcastLoop b header rounds (if stat = .success then b.bcTrycount else trycount - 1)
    else return ()

/-- `start_broadcast`. -/
def startBroadcast (b : CastConfig) (rounds : Nat) : Prog Status := do
  let c ← conf
  let (stat, sock) ← initUdpSocket c.castSock c.addrs.localIp c.addrs.localPort c.addrs.remoteIp c.addrs.remotePort true
  setConf (fun c => { c with castSock := sock })
  if stat ≠ .success then return stat
  broadcastLoop b (castArgs c) rounds b.bcTrycount
  let c ← conf
  closeSocket c.castSock

/-! ## The descriptor table -/

/-- What a descriptor stands for: the sockets of the two threads, a stream, or something the process had open before. -/
inductive Handle where
  | cast | cntl | conn | data
  | file (f : FileId)
  | other
  deriving DecidableEq, Repr

/-- What the descriptors of a process stand for. -/
abbrev Descriptors := Sockfd → Option Handle

/-- The lowest descriptor that is free. -/
def Descriptors.Lowest (t : Descriptors) (fd : Sockfd) : Prop :=
  0 ≤ fd ∧ t fd = none ∧ ∀ n < fd.toNat, t n ≠ none

instance (t : Descriptors) (fd : Sockfd) : Decidable (t.Lowest fd) :=
  inferInstanceAs (Decidable (0 ≤ fd ∧ t fd = none ∧ ∀ n < fd.toNat, t n ≠ none))

def Descriptors.set (t : Descriptors) (fd : Sockfd) (h : Option Handle) : Descriptors := fun x => if x = fd then h else t x

/-- `fclose` gives back the descriptor of its stream. -/
def Descriptors.dropFile (t : Descriptors) (f : FileId) : Descriptors := fun x => if t x = some (.file f) then none else t x

/-- The socket a thread opens: the broadcast is on the left. -/
def opensSocket : Side → SockType → Handle
  | .left, _ => .cast
  | .right, .stream => .cntl
  | .right, .dgram => .data

/-- What a call does to the table. -/
def Descriptors.Step (side : Side) (t : Descriptors) : (c : Call) → c.Answer → Descriptors → Prop
  | .socket ty, some fd, t' => t.Lowest fd ∧ t' = t.set fd (some (opensSocket side ty))
  | .accept _, some conn, t' => t.Lowest conn.fd ∧ t' = t.set conn.fd (some .conn)
  | .fopen _ _, some f, t' => (∀ x, t x ≠ some (.file f)) ∧ ∃ fd, t.Lowest fd ∧ t' = t.set fd (some (.file f))
  | .fclose f, _, t' => t' = t.dropFile f
  | .close fd, ok, t' => (t fd = none → ok = false) ∧ t' = t.set fd none
  | _, _, t' => t' = t

/-! ## The two threads -/

/-- A call of one of the threads, and the table it was made in. -/
structure Entry where
  side : Side
  event : Resumption.Event Proc Call.Answer
  table : Descriptors

/-- What the threads share, with a record of the calls they have made. -/
structure World where
  table : Descriptors
  castSock : Sockfd
  log : List Entry

/-- The close of `conf->cast_sock` in `start_puller`: the only one before the handshake. -/
def ClosesCast (side : Side) (s : Proc) (c : Call) : Prop :=
  side = .right ∧ s.phase = .setup ∧ ∃ fd, c = .close fd

/-- `conf->cast_sock` after a call: `init_udp_socket` stores the socket as soon as it exists. -/
def storesCast (side : Side) (castSock : Sockfd) : (c : Call) → c.Answer → Sockfd
  | .socket _, some fd => if side = .left then fd else castSock
  | _, _ => castSock

/-- A step of one of the threads. -/
def threads : Medium Proc Call.Answer World := fun side _ w s c r w' =>
  (ClosesCast side s c → c = .close w.castSock) ∧ w.table.Step side c r w'.table ∧
    w'.castSock = storesCast side w.castSock c r ∧ w'.log = w.log ++ [⟨side, ⟨s, c, r⟩, w.table⟩]

/-- The two threads at their start, with the descriptors in `isOpen` open. The receiver will read `castSock`. -/
def pullFile (Γ : Libcrc) (garbage : SendArgs) (b : CastConfig) (rounds : Nat) (c : InitConfig) (castSock : Sockfd)
    (isOpen : Sockfd → Bool) : Pair Proc Call.Answer Status World :=
  { left := startBroadcast b rounds ⟨c, .setup⟩,
    right := startPuller Γ garbage rounds ⟨{ c with castSock := castSock }, .setup⟩,
    med := { table := fun fd => if isOpen fd then some .other else none, castSock := c.castSock, log := [] } }

end RufShare
