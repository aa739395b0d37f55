import RufShare.Slice
import RufShare.Calls

/-!
# Utilities

`utils/calc.h`, `utils/infostr.h`, `utils/sstr.h`, `utils/fname.h` and `utils/ipcheck.h`, with the functions of the C library they
are written with (`snprintf`, `sscanf`, `inet_pton`, `inet_ntop`) for the conversions they use.
-/

namespace RufShare

open Slice

/-! ## Checksums and sizes -/

/-- The functions taken from libcrc: of a checksum only that it depends on the bytes alone is known. -/
structure Libcrc where
  crc16 : Bytes → UInt16
  crc32 : Bytes → UInt32

/-- `calc_chunk_count`: the number of chunks of a file, the last one partial, and the size of the partial one. -/
def calcChunkCount (fileSize chunkSize : Nat) : UInt32 × UInt16 :=
  let val := UInt32.ofNat (fileSize / chunkSize)
  (val + 1, UInt16.ofNat (sizeSub fileSize (val.toNat * chunkSize)))

/-- `calc_file_size`. -/
def calcFileSize (chunkCount : UInt32) (chunkSize partialChunkSize : UInt16) : Nat :=
  (sizeSub chunkCount.toNat 1 * chunkSize.toNat + partialChunkSize.toNat) % 2 ^ 64

/-- `calc_segment_size`. -/
def calcSegmentSize (size : Nat) : Nat :=
  if size > 8192 then 8192
  else if size > 4096 then 4096
  else if size > 2048 then 2048
  else if size > 1024 then 1024
  else size

/-- `calc_file_crc16`. -/
def calcFileCrc16 (Γ : Libcrc) (filec : FileContext) : UInt16 := Γ.crc16 (slice filec.mfile.buf 0 filec.size)

/-- `calc_chunk_crc32`. -/
def calcChunkCrc32 (Γ : Libcrc) (filec : FileContext) (chunk : ChunkContext) : UInt32 :=
  Γ.crc32 (slice filec.mfile.buf chunk.startPos chunk.chunkSize)

/-- The chunk both transfer loops work on: `seq` and `chsize` are multiplied in 32 bits. -/
def chunkContext (c : InitConfig) : ChunkContext :=
  { startPos := ((c.seq - 1) * c.chsize.toUInt32).toNat,
    chunkSize := (if c.seq = c.chcount then c.pchsize else c.chsize).toNat }

/-! ## Strings -/

/-- `sstrncpy` to an array of `dsize` bytes: the string the array holds afterwards. -/
def sstrncpy (src : Bytes) (dsize : Nat) : Bytes :=
  let dlen := ((src.take dsize).takeWhile (· ≠ 0)).length
  src.take (if dsize = dlen then dsize - 1 else dlen)

/-- The loop of `extract_file_name` at index `i`: the index it stops at. -/
def extractFileNameFrom (src : Bytes) : Nat → Nat
  | 0 => 0
  | i + 1 => if src[i]? = some 47 then i + 1 else extractFileNameFrom src i

/-- `extract_file_name`: the part of `src` after its last `'/'`, searched from the terminator back. -/
def extractFileName (src : Bytes) (size : Nat) : Option Bytes :=
  if size = 0 then none else some (src.drop (extractFileNameFrom src (size - 1)))

/-- The bytes around a pointer, by their distance from it; `none` where nothing may be read. -/
abbrev Memory := Int → Option UInt8

/-- The loop of `extract_file_name` in memory, from `i` down: the distance of `dst` from `src`, or `none` for a read outside. -/
def extractLoop (src : Memory) : Nat → Option Nat
  | 0 => some 0
  | i + 1 => do
    let b ← src i
    if b = 47 then some (i + 1) else extractLoop src i

/-- `extract_file_name` in memory. `size` is cut to an `int`; without a round of the loop `dst` stays null. -/
def extractFileNameIn (src : Memory) (size : Nat) : Option (Option Nat) :=
  let i := Int.bmod size (2 ^ 32) - 1
  if i < 0 then some none else (extractLoop src i.toNat).map some

/-- The loop of `sstrncpy` in memory, with `n` rounds to go at `dlen`. -/
def copyLength (src : Memory) : Nat → Nat → Option Nat
  | 0, dlen => some dlen
  | n + 1, dlen => do
    let b ← src dlen
    if b ≠ 0 then copyLength src n (dlen + 1) else some dlen

/-- The first `n` bytes at a pointer. -/
def Memory.read (src : Memory) (n : Nat) : Option Bytes := (List.range n).mapM (fun i : Nat => src i)

/-- `sstrncpy` in memory, to an array of `dsize` bytes. -/
def sstrncpyIn (dst : Bytes) (src : Memory) (dsize : Nat) : Option Bytes := do
  let dlen ← copyLength src dsize 0
  let copied ← src.read dlen
  return (overwrite dst 0 copied).set (if dsize = dlen then dsize - 1 else dlen) 0

/-- The decimal digits of a number, as `%hu` prints it. -/
def decimal (n : Nat) : Bytes := (Nat.toDigits 10 n).map (fun c => UInt8.ofNat c.toNat)

/-- `INFOSTRSIZE`. -/
def infostrSize : Nat := 320

/-- `pack_into_infostring` into a zeroed array: `"%.255s:%.31s@%.15s:%hu"`, cut to leave room for the terminator. -/
def packIntoInfostring (info : CntlAddrs) : Bytes :=
  let text := info.filename.take 255 ++ [58] ++ info.name.take 31 ++ [64] ++ info.localIp.take 15 ++ [58] ++
    decimal info.localPort.toNat
  let text := text.take (infostrSize - 1)
  text ++ List.replicate (infostrSize - text.length) 0

/-- The conversion `%width[^stop]`: at least one and at most `width` bytes up to `stop`, and the input after them. -/
def scanSet (width : Nat) (stop : UInt8) (input : Bytes) : Option (Bytes × Bytes) :=
  let token := (input.take width).takeWhile (· ≠ stop)
  if token = [] then none else some (token, input.drop token.length)

/-- A literal byte of a format. -/
def scanLit (c : UInt8) : Bytes → Option Bytes
  | [] => none
  | b :: rest => if b = c then some rest else none

/-- `isspace`. -/
def isSpace (b : UInt8) : Bool := b = 32 || (9 ≤ b && b ≤ 13)

def isDigit (b : UInt8) : Bool := 48 ≤ b && b ≤ 57

/-- The value of a string of digits. -/
def digitsValue (l : Bytes) : Nat := l.foldl (fun n b => 10 * n + (b.toNat - 48)) 0

/-- The conversion `%hu`: white space, an optional sign and digits, read by `strtoul` (which stops at its largest value) and stored
in 16 bits. -/
def scanHu (input : Bytes) : Option UInt16 :=
  let input := input.dropWhile isSpace
  let (neg, input) := match input with
    | 45 :: rest => (true, rest)
    | 43 :: rest => (false, rest)
    | _ => (false, input)
  let digits := input.takeWhile isDigit
  if digits = [] then none
  else
    let n := min (digitsValue digits) (2 ^ 64 - 1)
    some (UInt16.ofNat (if neg then sizeSub 0 n else n))

/-- `unpack_from_infostring`: `"%255[^:]:%31[^@]@%15[^:]:%hu"`. The conversions are stored one by one; the first that does not match
ends the scan, and what was not stored keeps its content. -/
def unpackFromInfostring (infostr : Bytes) (info : CntlAddrs) : CntlAddrs :=
  let input := infostr.takeWhile (· ≠ 0)
  match scanSet 255 58 input with
  | none => info
  | some (filename, input) =>
    let info := { info with filename := filename }
    match (scanLit 58 input).bind (scanSet 31 64) with
    | none => info
    | some (name, input) =>
      let info := { info with name := name }
      match (scanLit 64 input).bind (scanSet 15 58) with
      | none => info
      | some (ip, input) =>
        let info := { info with remoteIp := ip }
        match (scanLit 58 input).bind scanHu with
        | none => info
        | some port => { info with remotePort := port }

/-! ## Addresses -/

/-- One number of a dotted quad: digits without a leading zero, at most 255. -/
def octet (l : Bytes) : Option UInt8 :=
  if l ≠ [] && l.all isDigit && (l.length = 1 || l.head? ≠ some 48) && digitsValue l ≤ 255
  then some (UInt8.ofNat (digitsValue l)) else none

/-- `inet_pton` for `AF_INET`. -/
def inetPton (ip : Bytes) : Option Ipv4 :=
  match ip.splitOn 46 with
  | [a, b, c, d] => do return { a := ← octet a, b := ← octet b, c := ← octet c, d := ← octet d }
  | _ => none

/-- `inet_ntop` for `AF_INET`. -/
def inetNtop (ip : Ipv4) : Bytes :=
  decimal ip.a.toNat ++ [46] ++ decimal ip.b.toNat ++ [46] ++ decimal ip.c.toNat ++ [46] ++ decimal ip.d.toNat

/-- `check_ipv4_format`. -/
def checkIpv4Format (ip : Bytes) : Bool := (inetPton ip).isSome

end RufShare
