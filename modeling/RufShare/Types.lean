import Mathlib.Algebra.GroupWithZero.Nat

/-!
# Types

The data of `types.h` and the configuration the two parties share with the library's user. A C string held in an array is
modelled by the bytes before its terminator; an array without one (a local that was never written) by all of its bytes.
Sizes (`size_t`) are natural numbers, taken modulo `2 ^ 64` where the source's arithmetic can leave that range.

Left out: the fields of `InitConfig` that only `broadcast.c` and `scanpair.c` read, the logging macros, and `tryexec`, which
reports a status and changes nothing.
-/

namespace RufShare

abbrev Bytes := List UInt8

/-- `sockfd_t`. -/
abbrev Sockfd := Int

/-- A `FILE *` that is not null. -/
abbrev FileId := Nat

/-- `status_t`. -/
inductive Status where
  | success | failure | timeout | lowsize | exptry0 | exptry1 | zeroack | zeroseq | failset | failcrc | faillog | badconf
  | badflow | badargs | badinet | badtype | badipv4 | badport | nomfile | nofstat | noavail | nocreat | notrunc | noclose
  | errbind | errconn | errrecv | errsend | errlstn | errpoll | errtime | emfseek | emfsync | emalloc | ethread | invsock
  | invpath
  deriving DecidableEq, Repr, Inhabited

/-- `fmode_t`: open to write (`MWR`) or to read (`MRD`). -/
inductive Fmode where
  | mwr | mrd
  deriving DecidableEq, Repr, Inhabited

def maxFileNameSize : Nat := 256
def maxNameSize : Nat := 32
def maxIpv4Size : Nat := 16

/-- `FOREVER_TIMEOUT`. -/
def foreverTimeout : Int := -1

/-- `CntlAddrs`: the names and addresses of a transfer. -/
structure CntlAddrs where
  filename : Bytes
  name : Bytes
  localIp : Bytes
  remoteIp : Bytes
  localPort : UInt16
  remotePort : UInt16
  deriving DecidableEq, Repr, Inhabited

/-- `MFILE`: a file mapped to memory, with a cursor. `buf` is the mapping's bytes. -/
structure MFile where
  file : Option FileId
  isOpen : Bool
  size : Nat
  pos : Nat
  buf : Bytes
  deriving DecidableEq, Repr, Inhabited

/-- `FileContext`. -/
structure FileContext where
  mfile : MFile
  size : Nat
  name : Bytes
  deriving DecidableEq, Repr, Inhabited

/-- `ChunkContext`: where a chunk starts in the file and how long it is. -/
structure ChunkContext where
  startPos : Nat
  chunkSize : Nat
  deriving DecidableEq, Repr, Inhabited

/-- `InitConfig`. `tfTrycount` is a `short` that `push_file` and `pull_file` refuse unless it is positive. -/
structure InitConfig where
  chsize : UInt16
  pchsize : UInt16
  chcount : UInt32
  seq : UInt32
  cntlSock : Sockfd
  dataSock : Sockfd
  connSock : Sockfd
  castSock : Sockfd
  filec : FileContext
  addrs : CntlAddrs
  segsize : Nat
  hstSend : Int
  hstRecv : Int
  vftSend : Int
  vftRecv : Int
  tftFlow : Int
  tftRecv : Int
  tftData : Int
  tfTrycount : Nat
  deriving DecidableEq, Repr, Inhabited

/-- Subtraction of two `size_t`. -/
def sizeSub (a b : Nat) : Nat := (a + 2 ^ 64 - b) % 2 ^ 64

theorem sizeSub_of_le {a b : Nat} (h : b ≤ a) (ha : a < 2 ^ 64) : sizeSub a b = a - b := by
  unfold sizeSub
  omega

end RufShare
