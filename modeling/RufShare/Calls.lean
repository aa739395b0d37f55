import RufShare.Resumption.Tree
import RufShare.Types

/-!
# System calls

What the program asks of the system, one constructor a call, and what the system may answer. A call that the source tests only
for failure is answered by a `Bool` (`true` for success), one that yields a value by an `Option` (`none` for failure). `recv` never
gives more bytes than asked for and a mapping has the length asked for; the answers' types say so. A socket call names the kind
of socket it is made on, which the source knows from the function that makes it (`push_tcp_data`, `push_udp_data`).

`Proc` is a process between two calls: the configuration `conf` points to and, as a ghost, the phase of the transfer it is in.
-/

namespace RufShare

/-- The kind of a socket. -/
inductive SockType where
  | stream | dgram
  deriving DecidableEq, Repr

/-- The event a `poll` waits for. -/
inductive PollEvent where
  | pollin | pollout
  deriving DecidableEq, Repr

/-- What `poll` returns for one socket: `-1`, `0`, or `1` with the event asked for among the returned ones or not. -/
inductive PollResult where
  | error | timeout
  | ready (hit : Bool)
  deriving DecidableEq, Repr

inductive SockOpt where
  | reuseaddr | broadcast
  | rcvlowat (size : Nat)
  deriving DecidableEq, Repr

/-- The modes the source opens files in: `"w+"` creates or truncates, `"r+"` needs the file to exist. -/
inductive FopenMode where
  | wplus | rplus
  deriving DecidableEq, Repr

/-- An IPv4 address in network byte order. -/
structure Ipv4 where
  a : UInt8
  b : UInt8
  c : UInt8
  d : UInt8
  deriving DecidableEq, Repr

/-- An accepted connection: its socket, whether the peer's address is of family `AF_INET`, and that address. -/
structure Accepted where
  fd : Sockfd
  inet : Bool
  ip : Ipv4
  port : UInt16
  deriving DecidableEq, Repr

/-- The calls. -/
inductive Call where
  | malloc (size : Nat)
  | calloc (nmemb size : Nat)
  | poll (ty : SockType) (fd : Sockfd) (event : PollEvent) (timeout : Int)
  | send (ty : SockType) (fd : Sockfd) (buf : Bytes)
  | recv (ty : SockType) (fd : Sockfd) (size : Nat) (peek : Bool)
  | socket (ty : SockType)
  | setsockopt (fd : Sockfd) (opt : SockOpt)
  | bind (fd : Sockfd) (ip : Ipv4) (port : UInt16)
  | connect (fd : Sockfd) (ip : Ipv4) (port : UInt16)
  | listen (fd : Sockfd) (backlog : Nat)
  | accept (fd : Sockfd)
  | close (fd : Sockfd)
  | fopen (path : Bytes) (mode : FopenMode)
  | fclose (file : FileId)
  | fstatvfs (file : FileId)
  | ftruncate (file : FileId) (size : Nat)
  | stat (path : Bytes)
  | fstat (file : FileId)
  | mmap (file : FileId) (size : Nat)
  | munmap (size : Nat)
  | sysconf
  | msync (offset size : Nat)
  | pthreadCreate
  | pthreadJoin
  deriving DecidableEq, Repr

/-- The answers to a call. `fstatvfs` gives `f_bavail` and `f_bsize`, `stat` and `fstat` give `st_size`, `mmap` the bytes mapped
and `sysconf` the page size. -/
abbrev Call.Answer : Call → Type
  | .malloc _ | .calloc _ _ => Bool
  | .poll _ _ _ _ => PollResult
  | .send _ _ _ => Option Nat
  | .recv _ _ size _ => Option { b : Bytes // b.length ≤ size }
  | .socket _ => Option Sockfd
  | .setsockopt _ _ | .bind _ _ _ | .connect _ _ _ | .listen _ _ => Bool
  | .accept _ => Option Accepted
  | .close _ => Bool
  | .fopen _ _ => Option FileId
  | .fclose _ => Bool
  | .fstatvfs _ => Option (Nat × Nat)
  | .ftruncate _ _ => Bool
  | .stat _ | .fstat _ => Option Nat
  | .mmap _ size => Option { b : Bytes // b.length = size }
  | .munmap _ => Bool
  | .sysconf => Option Nat
  | .msync _ _ => Bool
  | .pthreadCreate | .pthreadJoin => Bool

/-- Where a process is in a transfer. A ghost: no call depends on it. -/
inductive Phase where
  | setup | handshake | flow | data | verification | closing
  deriving DecidableEq, Repr, Inhabited

/-- A process between two calls. -/
structure Proc where
  conf : InitConfig
  phase : Phase
  deriving DecidableEq, Repr, Inhabited

/-- A program of the library. -/
abbrev Prog : Type → Type := Resumption.Prog Proc Call.Answer

/-- A residual of a program. -/
abbrev Tree : Type → Type := Resumption.Tree Proc Call.Answer

/-- Make a call. -/
def syscall (c : Call) : Prog c.Answer := Resumption.Prog.perform c

/-- Read `*conf`. -/
def conf : Prog InitConfig := fun s => .ret s s.conf

/-- Write to `*conf`. -/
def setConf (f : InitConfig → InitConfig) : Prog Unit :=
  Resumption.Prog.modify (fun s => { s with conf := f s.conf })

/-- Enter a phase. -/
def enter (p : Phase) : Prog Unit :=
  Resumption.Prog.modify (fun s => { s with phase := p })

@[simp] theorem syscall_apply (c : Call) (s : Proc) : syscall c s = .call s c (fun r => .ret s r) := rfl

@[simp] theorem conf_apply (s : Proc) : conf s = .ret s s.conf := rfl

@[simp] theorem setConf_apply (f : InitConfig → InitConfig) (s : Proc) :
    setConf f s = .ret { s with conf := f s.conf } () := rfl

@[simp] theorem enter_apply (p : Phase) (s : Proc) : enter p s = .ret { s with phase := p } () := rfl

end RufShare
