import RufShare.Utils

/-!
# Mapped files

`mfile.c` and `file_stream.c`: a file mapped to memory, read and written through a cursor, and the opening and closing of the file
of a transfer. The functions of `file_stream.c` are only ever called on `conf->filec`, and work on it here.
-/

namespace RufShare

open Slice

/-! ## `mfile.c` -/

/-- `mfopen`. -/
def mfopen (pathname : Bytes) (mode : FopenMode) : Prog MFile := do
  let mfile : MFile := { file := none, isOpen := false, size := 0, pos := 0, buf := [] }
  let opened : Option FileId ← syscall (.fopen pathname mode)
  match opened with
  | none => return mfile
  | some file =>
    let info : Option Nat ← syscall (.fstat file)
    match info with
    | none =>
      let _ ← syscall (.fclose file)
      return mfile
    | some stSize =>
      let mapped : Option { b : Bytes // b.length = stSize } ← syscall (.mmap file stSize)
      match mapped with
      | none =>
        let _ ← syscall (.fclose file)
        return { mfile with size := stSize }
      | some buf => return { file := some file, isOpen := true, size := stSize, pos := 0, buf := buf.1 }

/-- How many of `size * nmemb` bytes `mfread` and `mfwrite` move. -/
def MFile.span (stream : MFile) (size nmemb : Nat) : Nat :=
  let tsize := size * nmemb % 2 ^ 64
  let rsize := sizeSub stream.size stream.pos
  if tsize < rsize then tsize else rsize

/-- The value `mfread` and `mfwrite` return. -/
def MFile.moved (stream : MFile) (size nmemb : Nat) : Nat := if stream.isOpen then stream.span size nmemb else 0

/-- `mfread`: the bytes copied out and the file after it. -/
def mfread (size nmemb : Nat) (stream : MFile) : Bytes × MFile :=
  if !stream.isOpen then ([], stream)
  else
    let fsize := stream.span size nmemb
    (slice stream.buf stream.pos fsize, { stream with pos := stream.pos + fsize })

/-- `mfwrite` of the bytes at `ptr`. -/
def mfwrite (ptr : Bytes) (size nmemb : Nat) (stream : MFile) : MFile :=
  if !stream.isOpen then stream
  else
    let fsize := stream.span size nmemb
    { stream with buf := overwrite stream.buf stream.pos (ptr.take fsize), pos := stream.pos + fsize }

/-- `mfseek`: the value it returns and the file after it. -/
def mfseek (stream : MFile) (pos : Nat) : Nat × MFile :=
  if stream.isOpen && pos < stream.size then (pos, { stream with pos := pos }) else (0, stream)

/-- What `mfclose` unmaps and closes: the stream, whether it is mapped, and the length of the mapping. -/
def MFile.handle (stream : MFile) : Option FileId × Bool × Nat := (stream.file, stream.isOpen, stream.size)

theorem handle_mfread (size nmemb : Nat) (stream : MFile) : (mfread size nmemb stream).2.handle = stream.handle := by
  cases h : stream.isOpen <;> simp [mfread, MFile.handle, h]

theorem handle_mfwrite (ptr : Bytes) (size nmemb : Nat) (stream : MFile) : (mfwrite ptr size nmemb stream).handle = stream.handle := by
  cases h : stream.isOpen <;> simp [mfwrite, MFile.handle, h]

theorem handle_mfseek (stream : MFile) (pos : Nat) : (mfseek stream pos).2.handle = stream.handle := by
  unfold mfseek
  split <;> rfl

/-- `mftell`. -/
def mftell (stream : MFile) : Nat := if stream.isOpen then stream.pos else 0

/-- `mfsync`, `false` for `-1`. -/
def mfsync (stream : MFile) : Prog Bool := do
  let pagesize : Option Nat ← syscall .sysconf
  match pagesize with
  | none => return false
  | some pagesize =>
    let offset := stream.pos - stream.pos % pagesize
    syscall (.msync offset (sizeSub stream.size offset))

/-- `mfclose`, `true` for `0`. `buf` is null exactly when the file is not open. -/
def mfclose (stream : MFile) : Prog Bool := do
  let munmapStat ← (if stream.isOpen then syscall (.munmap stream.size) else pure false : Prog Bool)
  let fcloseStat ← (match stream.file with
    | some file => syscall (.fclose file)
    | none => pure false : Prog Bool)
  return munmapStat && fcloseStat

/-! ## `file_stream.c` -/

/-- `create_file`. -/
def createFile (path : Bytes) (size : Nat) : Prog Status := do
  let opened : Option FileId ← syscall (.fopen path .wplus)
  match opened with
  | none => return .nocreat
  | some file =>
    if size = 0 then
      let _ ← syscall (.fclose file)
      return .badargs
    let info : Option (Nat × Nat) ← syscall (.fstatvfs file)
    match info with
    | none =>
      let _ ← syscall (.fclose file)
      return .nofstat
    | some (fBavail, fBsize) =>
      if fBavail * fBsize % 2 ^ 64 ≤ size then
        let _ ← syscall (.fclose file)
        return .noavail
      let truncated : Bool ← syscall (.ftruncate file size)
      if !truncated then
        let _ ← syscall (.fclose file)
        return .notrunc
      return .success

/-- The first part of `start_file_stream`: make the file (`MWR`) or find its size (`MRD`). -/
def prepareFile (path : Bytes) : Fmode → Prog Status
  | .mwr => do
    let c ← conf
    createFile path c.filec.size
  | .mrd => do
    let statbuf : Option Nat ← syscall (.stat path)
    match statbuf with
    | none => return .nofstat
    | some stSize =>
      setConf (fun c => { c with filec := { c.filec with size := stSize } })
      return .success

/-- `start_file_stream`. -/
def startFileStream (path : Bytes) (mode : Fmode) : Prog Status := do
  let stat ← prepareFile path mode
  if stat ≠ .success then return stat
  let mfile ← mfopen path .rplus
  if !mfile.isOpen then return .nomfile
  setConf (fun c => { c with filec := { c.filec with mfile := mfile } })
  match extractFileName path (path.length + 1) with
  | none => return .invpath
  | some filename =>
    setConf (fun c => { c with filec := { c.filec with name := sstrncpy filename maxFileNameSize } })
    return .success

/-- `end_file_stream`. -/
def endFileStream : Prog Status := do
  let c ← conf
  let closed ← mfclose c.filec.mfile
  if !closed then return .failure
  return .success

end RufShare
