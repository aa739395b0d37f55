import RufShare.Lemmas.Within

/-!
# A mapped file is an array of bytes with a cursor

`mfread`, `mfwrite`, `mfseek` and `mftell` on a file `mfopen` has opened do to its mapping what reading, writing and seeking do to a
`Cursor`. The subtractions and the product of the source are of 64 bits: that they do not go below zero is part of the relation
between the two, and the product is taken modulo `2 ^ 64` on both sides.
-/

namespace RufShare

open Slice Resumption

/-- A call on a mapped file. `ptr` is the memory a write copies from. -/
inductive FileOp where
  | read (size nmemb : Nat)
  | write (ptr : Nat → UInt8) (size nmemb : Nat)
  | seek (pos : Nat)
  | tell

/-- What a call gives: the value it returns and the bytes it copies out. -/
structure FileOutput where
  value : Nat
  copied : Bytes

namespace FileOp

/-- A call on the file. -/
def exec (stream : MFile) : FileOp → FileOutput × MFile
  | .read size nmemb =>
    let (copied, stream') := mfread size nmemb stream
    (⟨stream.moved size nmemb, copied⟩, stream')
  | .write ptr size nmemb =>
    (⟨stream.moved size nmemb, []⟩, mfwrite ((List.range (size * nmemb % 2 ^ 64)).map ptr) size nmemb stream)
  | .seek pos =>
    let (value, stream') := mfseek stream pos
    (⟨value, []⟩, stream')
  | .tell => (⟨mftell stream, []⟩, stream)

/-- The same call on an array with a cursor. -/
def act (c : Cursor UInt8) : FileOp → FileOutput × Cursor UInt8
  | .read size nmemb =>
    let (copied, c') := c.read (size * nmemb % 2 ^ 64)
    (⟨min (size * nmemb % 2 ^ 64) c.rest, copied⟩, c')
  | .write ptr size nmemb =>
    (⟨min (size * nmemb % 2 ^ 64) c.rest, []⟩, c.write ((List.range (size * nmemb % 2 ^ 64)).map ptr))
  | .seek pos => (⟨if pos < c.cells.length then pos else 0, []⟩, c.seek pos)
  | .tell => (⟨c.pos, []⟩, c)

/-- Calls one after the other: what each gives and what is left. -/
def runs {σ : Type} (step : σ → FileOp → FileOutput × σ) : σ → List FileOp → List FileOutput × σ
  | x, [] => ([], x)
  | x, op :: ops =>
    let (output, x) := step x op
    let (outputs, x) := runs step x ops
    (output :: outputs, x)

/-- What the call has to do to a file, in the source's terms: `k` bytes at the cursor are read or replaced and the cursor moves past
them; a seek moves the cursor to a position in the file and else does nothing. -/
def Exact (stream : MFile) : FileOp → Prop
  | .read size nmemb =>
    let k := min (size * nmemb % 2 ^ 64) (stream.size - stream.pos)
    (slice stream.buf stream.pos k).length = k ∧
      exec stream (.read size nmemb) = (⟨k, slice stream.buf stream.pos k⟩, { stream with pos := stream.pos + k })
  | .write ptr size nmemb =>
    let k := min (size * nmemb % 2 ^ 64) (stream.size - stream.pos)
    ∃ buf : Bytes, exec stream (.write ptr size nmemb) = (⟨k, []⟩, { stream with buf := buf, pos := stream.pos + k }) ∧
      buf.length = stream.buf.length ∧
      ∀ i, buf[i]? = if stream.pos ≤ i ∧ i < stream.pos + k then some (ptr (i - stream.pos)) else stream.buf[i]?
  | .seek pos =>
    exec stream (.seek pos) = if pos < stream.size then (⟨pos, []⟩, { stream with pos := pos }) else (⟨0, []⟩, stream)
  | .tell => exec stream .tell = (⟨stream.pos, []⟩, stream)

end FileOp

/-- The array and the cursor an open file stands for. -/
structure Represents (stream : MFile) (c : Cursor UInt8) : Prop where
  isOpen : stream.isOpen = true
  buf : stream.buf = c.cells
  pos : stream.pos = c.pos
  size : stream.size = c.cells.length
  small : stream.size < 2 ^ 64

namespace CursorAux

open FileOp

variable {stream : MFile} {c : Cursor UInt8}

theorem pos_le (h : Represents stream c) : stream.pos ≤ stream.size := by
  rw [h.pos, h.size]
  exact c.inside

/-- The subtraction of the source does not go below zero. -/
theorem span_eq (h : Represents stream c) (size nmemb : Nat) :
    stream.span size nmemb = min (size * nmemb % 2 ^ 64) (stream.size - stream.pos) := by
  simp only [MFile.span, sizeSub_of_le (pos_le h) h.small]
  split <;> omega

theorem rest_eq (h : Represents stream c) : c.rest = stream.size - stream.pos := by
  rw [Cursor.rest, h.pos, h.size]

theorem moved_eq (h : Represents stream c) (size nmemb : Nat) :
    stream.moved size nmemb = min (size * nmemb % 2 ^ 64) c.rest := by
  rw [MFile.moved, if_pos h.isOpen, span_eq h, rest_eq h]

theorem mfread_eq (h : Represents stream c) (size nmemb : Nat) :
    mfread size nmemb stream = (slice stream.buf stream.pos (min (size * nmemb % 2 ^ 64) c.rest),
      { stream with pos := stream.pos + min (size * nmemb % 2 ^ 64) c.rest }) := by
  simp only [mfread, h.isOpen, Bool.not_true, Bool.false_eq_true, if_false, span_eq h, rest_eq h]

/-- As many bytes are written as there are, or as fit. -/
theorem mfwrite_eq (h : Represents stream c) (ptr : Nat → UInt8) (size nmemb : Nat) :
    mfwrite ((List.range (size * nmemb % 2 ^ 64)).map ptr) size nmemb stream =
      { stream with
        buf := overwrite stream.buf stream.pos (((List.range (size * nmemb % 2 ^ 64)).map ptr).take c.rest),
        pos := stream.pos + min (size * nmemb % 2 ^ 64) c.rest } := by
  have htake : ((List.range (size * nmemb % 2 ^ 64)).map ptr).take (min (size * nmemb % 2 ^ 64) c.rest) =
      ((List.range (size * nmemb % 2 ^ 64)).map ptr).take c.rest := by
    rw [Nat.min_comm, ← List.take_take, List.take_of_length_le (i := size * nmemb % 2 ^ 64) (by simp)]
  simp only [mfwrite, h.isOpen, Bool.not_true, Bool.false_eq_true, if_false, span_eq h, ← rest_eq h, htake]

theorem mfseek_eq (h : Represents stream c) (pos : Nat) :
    mfseek stream pos = if pos < stream.size then (pos, { stream with pos := pos }) else (0, stream) := by
  simp [mfseek, h.isOpen]

/-- A call does to the file what it does to the cursor. -/
theorem represents_step (h : Represents stream c) (op : FileOp) :
    (exec stream op).1 = (act c op).1 ∧ Represents (exec stream op).2 (act c op).2 := by
  cases op with
  | read size nmemb =>
    simp only [exec, act, Cursor.read, mfread_eq h, moved_eq h]
    rw [h.buf, h.pos]
    exact ⟨rfl, h.isOpen, rfl, rfl, h.size, h.small⟩
  | write ptr size nmemb =>
    simp only [exec, act, mfwrite_eq h, moved_eq h]
    refine ⟨trivial, h.isOpen, ?_, ?_, ?_, h.small⟩
    · rw [h.buf, h.pos]
      rfl
    · simp [Cursor.write, h.pos]
    · rw [Cursor.length_write]
      exact h.size
  | seek pos =>
    simp only [exec, act, mfseek_eq h, ← h.size]
    by_cases hpos : pos < stream.size
    · have hlt : pos < c.cells.length := by rwa [← h.size]
      rw [if_pos hpos, if_pos hpos, Cursor.seek_of_lt c hlt]
      exact ⟨rfl, h.isOpen, h.buf, rfl, h.size, h.small⟩
    · have hge : ¬pos < c.cells.length := by rwa [← h.size]
      rw [if_neg hpos, if_neg hpos, Cursor.seek_of_ge c hge]
      exact ⟨rfl, h⟩
  | tell =>
    refine ⟨?_, h⟩
    simp only [exec, act, mftell, h.isOpen, if_true, h.pos]

/-- So do calls in any number and order. -/
theorem represents_runs (h : Represents stream c) (ops : List FileOp) :
    (runs exec stream ops).1 = (runs act c ops).1 ∧ Represents (runs exec stream ops).2 (runs act c ops).2 := by
  induction ops generalizing stream c with
  | nil => exact ⟨rfl, h⟩
  | cons op ops ih =>
    obtain ⟨houtput, hnext⟩ := represents_step h op
    obtain ⟨houtputs, hlast⟩ := ih hnext
    simp only [runs]
    exact ⟨by rw [houtput, houtputs], hlast⟩

/-- No call changes the size. -/
theorem size_exec (h : Represents stream c) (op : FileOp) : (exec stream op).2.size = stream.size := by
  cases op with
  | read size nmemb => simp only [exec, mfread_eq h]
  | write ptr size nmemb => simp only [exec, mfwrite_eq h]
  | seek pos =>
    simp only [exec, mfseek_eq h]
    split <;> rfl
  | tell => simp only [exec]

theorem size_runs (h : Represents stream c) (ops : List FileOp) : (runs exec stream ops).2.size = stream.size := by
  induction ops generalizing stream c with
  | nil => rfl
  | cons op ops ih =>
    simp only [runs]
    rw [ih (represents_step h op).2, size_exec h]

theorem exact_of_represents (h : Represents stream c) (op : FileOp) : op.Exact stream := by
  have hlen : stream.buf.length = stream.size := by rw [h.buf, h.size]
  have hpos := pos_le h
  cases op with
  | read size nmemb =>
    refine ⟨length_slice_of_le (by omega), ?_⟩
    simp only [exec, mfread_eq h, moved_eq h, rest_eq h]
  | write ptr size nmemb =>
    have hfits : stream.pos + (((List.range (size * nmemb % 2 ^ 64)).map ptr).take c.rest).length ≤ stream.buf.length := by
      rw [List.length_take, rest_eq h]
      omega
    refine ⟨_, ?_, length_overwrite hfits, ?_⟩
    · simp only [exec, mfwrite_eq h, moved_eq h, rest_eq h]
    · intro i
      rw [getElem?_overwrite hfits, List.length_take, List.length_map, List.length_range, rest_eq h, Nat.min_comm]
      by_cases hi : stream.pos ≤ i ∧ i < stream.pos + min (size * nmemb % 2 ^ 64) (stream.size - stream.pos)
      · rw [if_pos hi, if_pos hi, List.getElem?_take_of_lt (by omega), List.getElem?_map,
          List.getElem?_range (by omega), Option.map_some]
      · rw [if_neg hi, if_neg hi]
  | seek pos =>
    simp only [Exact, exec, mfseek_eq h]
    split <;> rfl
  | tell => simp only [Exact, exec, mftell, h.isOpen, if_true]

/-- What `mfopen` returns is closed, or open at the start of a mapping of its size. -/
theorem after_mfopen (path : Bytes) (mode : FopenMode) (s : Proc) :
    (mfopen path mode s).After (fun _ _ stream => stream.isOpen = true → stream.pos = 0 ∧ stream.buf.length = stream.size) := by
  unfold mfopen
  refine after_syscall fun opened => ?_
  cases opened with
  | none => exact nofun
  | some file =>
    refine after_syscall fun info => ?_
    cases info with
    | none => exact after_syscall fun closed => nofun
    | some stSize =>
      refine after_syscall fun mapped => ?_
      cases mapped with
      | none => exact after_syscall fun closed => nofun
      | some buf => exact fun _ => ⟨rfl, buf.2⟩

end CursorAux

open CursorAux FileOp

/-- A file that `mfopen` opens stands for the array of its bytes with the cursor at the start. From there the calls give what they give
on the array, in any number and order: the file keeps standing for the array, `pos ≤ size` and the size are kept, and each further
call reads, replaces or seeks exactly what it has to. -/
theorem mfile_refines_cursor {path : Bytes} {mode : FopenMode} {s s' : Proc} {tr : List Event} {stream : MFile}
    (hrun : Run (mfopen path mode s) tr s' stream) (hopen : stream.isOpen = true) (hsize : stream.size < 2 ^ 64) :
    ∃ c : Cursor UInt8, c.cells = stream.buf ∧ c.pos = 0 ∧ ∀ ops,
      (runs exec stream ops).1 = (runs act c ops).1 ∧ Represents (runs exec stream ops).2 (runs act c ops).2 ∧
      (runs exec stream ops).2.pos ≤ (runs exec stream ops).2.size ∧ (runs exec stream ops).2.size = stream.size ∧
      ∀ op : FileOp, op.Exact (runs exec stream ops).2 := by
  obtain ⟨hpos, hlen⟩ := Tree.after_iff.1 (after_mfopen path mode s) tr s' stream hrun hopen
  have hstart : Represents stream { cells := stream.buf, pos := 0, inside := Nat.zero_le _ } :=
    ⟨hopen, rfl, hpos, hlen.symm, hsize⟩
  refine ⟨{ cells := stream.buf, pos := 0, inside := Nat.zero_le _ }, rfl, rfl, fun ops => ?_⟩
  obtain ⟨houtputs, hkept⟩ := represents_runs hstart ops
  exact ⟨houtputs, hkept, pos_le hkept, size_runs hstart ops, exact_of_represents hkept⟩

namespace CursorRun

/-- A process about to open a file. -/
def opener : Proc := { conf := Sample.receiver, phase := .setup }

/-- A file of two bytes, as `mfopen` returns it. -/
def opened : MFile := { file := some (3 : FileId), isOpen := true, size := 2, pos := 0, buf := [1, 2] }

theorem run_opened : Run (mfopen [97] .rplus opener)
    [⟨opener, .fopen [97] .rplus, some (3 : FileId)⟩, ⟨opener, .fstat 3, some (2 : Nat)⟩, ⟨opener, .mmap 3 2, some ⟨[1, 2], rfl⟩⟩]
    opener opened :=
  .call (.call (.call (.ret _ _)))

end CursorRun

open CursorRun in
theorem mfile_refines_cursor_two : ∃ c : Cursor UInt8, c.cells = [1, 2] ∧ c.pos = 0 ∧ ∀ ops,
    (runs exec opened ops).1 = (runs act c ops).1 ∧ Represents (runs exec opened ops).2 (runs act c ops).2 ∧
    (runs exec opened ops).2.pos ≤ (runs exec opened ops).2.size ∧ (runs exec opened ops).2.size = 2 ∧
    ∀ op : FileOp, op.Exact (runs exec opened ops).2 :=
  mfile_refines_cursor run_opened rfl (by decide)

open CursorRun in
/-- A write of two bytes at the last position stops at the end, and so does the read after it. -/
example : (runs exec opened [.seek 1, .write (fun _ => 9) 2 1, .read 1 1, .seek 2, .tell]).1.map FileOutput.value = [1, 1, 0, 0, 2] ∧
    (runs exec opened [.seek 1, .write (fun _ => 9) 2 1]).2.buf = [1, 9] := by decide

end RufShare
