import RufShare.Utils

/-!
# The log

`logging/logd.c` and `append_log` of `logd.h`: the log file is mapped to memory and filled with records of fixed size, from the start
again when it is full. The system's answers and what the C library formats (`strftime`, `vsnprintf`) are arguments. The result of the
`msync` in `append_log` is not looked at, so the call is left out, and `logc.logfile` is only used to close the file.
-/

namespace RufShare

open Slice

/-- A `char` array. -/
abbrev CharArray (n : Nat) := { b : Bytes // b.length = n }

/-- `sstrncpy` of a string to the array. -/
def CharArray.store {n : Nat} (a : CharArray n) (src : Bytes) : CharArray n :=
  let dlen := ((src.take n).takeWhile (· ≠ 0)).length
  ⟨(overwrite a.1 0 (src.take dlen)).set (if n = dlen then n - 1 else dlen) 0, by
    have hdlen : dlen ≤ n := Nat.le_trans (List.takeWhile_sublist _).length_le (List.length_take_le n src)
    have hfits : 0 + (src.take dlen).length ≤ a.1.length := by
      have hle := List.length_take_le dlen src
      rw [a.2]
      omega
    rw [List.length_set, length_overwrite hfits, a.2]⟩

/-- `LEVELSIZE`, `DATESIZE`, `CLOCKSIZE`, `MODSIZE`, `POSSIZE` and `MSGSIZE`. -/
def levelSize : Nat := 6
def dateSize : Nat := 11
def clockSize : Nat := 9
def modSize : Nat := 32
def posSize : Nat := 32
def msgSize : Nat := 512

/-- `LogMsg`. -/
structure LogMsg where
  level : CharArray levelSize
  date : CharArray dateSize
  clock : CharArray clockSize
  mod : CharArray modSize
  pos : CharArray posSize
  msg : CharArray msgSize

/-- `sizeof(LogMsg)`: arrays of `char` have no padding between them. -/
def logMsgSize : Nat := levelSize + dateSize + clockSize + modSize + posSize + msgSize

/-- A record in memory. -/
def LogMsg.bytes (m : LogMsg) : Bytes := m.level.1 ++ m.date.1 ++ m.clock.1 ++ m.mod.1 ++ m.pos.1 ++ m.msg.1

theorem LogMsg.length_bytes (m : LogMsg) : m.bytes.length = logMsgSize := by
  simp only [LogMsg.bytes, List.length_append, m.level.2, m.date.2, m.clock.2, m.mod.2, m.pos.2, m.msg.2, logMsgSize]

/-- `LogContext`. -/
structure LogContext where
  buffer : Bytes
  pos : Nat
  size : Nat
  logcount : Nat

/-- `append_log`. -/
def appendLog (logc : LogContext) (log : LogMsg) : LogContext :=
  let logc := if logc.pos = logc.size then { logc with pos := 0 } else logc
  { logc with buffer := overwrite logc.buffer logc.pos log.bytes, pos := (logc.pos + logMsgSize) % 2 ^ 64 }

/-- What the system answers in `init_logd`. -/
structure LogdSystem where
  time : Option Nat
  calloc : Bool
  fopen : Option FileId
  ftruncate : Bool
  mmap : (size : Nat) → Option (CharArray size)

/-- `create_logfile`, `true` for `0`. -/
def createLogfile (sys : LogdSystem) : Bool :=
  if sys.time = none || !sys.calloc then false
  else if sys.fopen = none then false
  else if !sys.ftruncate then false
  else true

/-- `map_logfile`. -/
def mapLogfile (sys : LogdSystem) (logc : LogContext) : Bool × LogContext :=
  match sys.mmap logc.size with
  | none => (false, logc)
  | some buffer => (true, { logc with buffer := buffer.1, pos := 0, logcount := 0 })

/-- `init_logd`. -/
def initLogd (sys : LogdSystem) (count : Nat) (logc : LogContext) : Bool × LogContext :=
  let logc := { logc with size := count * logMsgSize % 2 ^ 64 }
  if !createLogfile sys then (false, logc) else mapLogfile sys logc

/-- A call of `logging`: its strings, the text `vsnprintf` makes of the format, what `strftime` makes of the local time (`none` when
`localtime` fails), and what the uninitialised record holds. -/
structure LogInput where
  level : Bytes
  mod : Bytes
  pos : Bytes
  text : Bytes
  ltime : Option (CharArray dateSize × CharArray clockSize)
  garbage : LogMsg

/-- The record a call fills in. `vsnprintf` cuts the text to an array of `MSGSIZE` bytes. -/
def LogInput.record (input : LogInput) : Option LogMsg :=
  input.ltime.map fun (date, clock) =>
    { level := input.garbage.level.store input.level, date := date, clock := clock, mod := input.garbage.mod.store input.mod,
      pos := input.garbage.pos.store input.pos, msg := input.garbage.msg.store (input.text.take (msgSize - 1)) }

/-- `logging`. -/
def logging (logc : LogContext) (input : LogInput) : LogContext :=
  match input.record with
  | none => logc
  | some logmsg => appendLog { logc with logcount := (logc.logcount + 1) % 2 ^ 64 } logmsg

end RufShare
