import RufShare.Logging

/-!
# The log is a ring of records

Record `k` goes to slot `k % count`: the position is a multiple of the size of a record, so it meets the size of the buffer exactly,
and the slots that are written between two records of one slot are the others.
-/

namespace RufShare

open Slice

/-- Where the next record is copied to. -/
def LogContext.writePos (logc : LogContext) : Nat := if logc.pos = logc.size then 0 else logc.pos

/-- The bytes of a slot. -/
def LogContext.slot (logc : LogContext) (j : Nat) : Bytes := slice logc.buffer (j * logMsgSize) logMsgSize

/-- The buffer of `count` slots after `records`, the first of them first. -/
structure Ring (count : Nat) (records : List LogMsg) (logc : LogContext) : Prop where
  size : logc.size = count * logMsgSize
  length : logc.buffer.length = logc.size
  pos : logc.pos = if records = [] then 0 else ((records.length - 1) % count + 1) * logMsgSize
  logcount : logc.logcount = records.length % 2 ^ 64
  slots : ∀ k m, records[k]? = some m → records.length ≤ k + count → logc.slot (k % count) = m.bytes

namespace RingAux

variable {count : Nat} {records : List LogMsg} {logc : LogContext}

theorem slot_fits {j : Nat} (h : j < count) : j * logMsgSize + logMsgSize ≤ count * logMsgSize := by
  rw [← Nat.succ_mul]
  exact Nat.mul_le_mul_right logMsgSize h

/-- The next record goes to the slot of its number. -/
theorem writePos_eq (h : Ring count records logc) (hcount : 1 ≤ count) :
    logc.writePos = records.length % count * logMsgSize := by
  have hpos := h.pos
  unfold LogContext.writePos
  by_cases hnil : records = []
  · rw [if_pos hnil] at hpos
    subst hnil
    rw [hpos, ite_self, List.length_nil, Nat.zero_mod, Nat.zero_mul]
  · have hlen : 0 < records.length := List.length_pos_iff.2 hnil
    have hlt := Nat.mod_lt (records.length - 1) (Nat.lt_of_lt_of_le Nat.zero_lt_one hcount)
    rw [if_neg hnil] at hpos
    have hsucc : records.length % count = ((records.length - 1) % count + 1) % count := by
      rw [Nat.mod_add_mod, Nat.sub_add_cancel hlen]
    rw [hpos, h.size, hsucc]
    by_cases hlast : (records.length - 1) % count + 1 = count
    · rw [hlast, if_pos rfl, Nat.mod_self, Nat.zero_mul]
    · have hne : ¬((records.length - 1) % count + 1) * logMsgSize = count * logMsgSize :=
        fun heq => hlast (Nat.eq_of_mul_eq_mul_right (by decide) heq)
      have hmod : ((records.length - 1) % count + 1) % count = (records.length - 1) % count + 1 := Nat.mod_eq_of_lt (by omega)
      rw [if_neg hne, hmod]

theorem writePos_fits (h : Ring count records logc) (hcount : 1 ≤ count) : logc.writePos + logMsgSize ≤ logc.buffer.length := by
  rw [writePos_eq h hcount, h.length, h.size]
  exact slot_fits (Nat.mod_lt _ hcount)

theorem appendLog_eq (logc : LogContext) (m : LogMsg) : appendLog logc m = { logc with
    buffer := overwrite logc.buffer logc.writePos m.bytes, pos := (logc.writePos + logMsgSize) % 2 ^ 64 } := by
  unfold appendLog LogContext.writePos
  split <;> rfl

/-- Records whose numbers differ by less than `count` lie in different slots. -/
theorem mod_ne {k n : Nat} (hlt : k < n) (hle : n + 1 ≤ k + count) : k % count ≠ n % count := by
  intro heq
  have hdvd : count ∣ n - k := Nat.dvd_of_mod_eq_zero (Nat.sub_mod_eq_zero_of_mod_eq heq.symm)
  have := Nat.le_of_dvd (by omega) hdvd
  omega

/-- A record fills its slot and leaves the others. -/
theorem ring_append (h : Ring count records logc) (hcount : 1 ≤ count) (hsize : count * logMsgSize < 2 ^ 64) (m : LogMsg) :
    Ring count (records ++ [m]) (appendLog { logc with logcount := (logc.logcount + 1) % 2 ^ 64 } m) := by
  have hfits := writePos_fits h hcount
  have heq := writePos_eq h hcount
  have hlt := Nat.mod_lt records.length hcount
  have hnext : logc.writePos + logMsgSize < 2 ^ 64 := Nat.lt_of_le_of_lt (by rwa [h.length, h.size] at hfits) hsize
  rw [← LogMsg.length_bytes m] at hfits
  rw [appendLog_eq]
  change Ring count (records ++ [m]) { logc with
    buffer := overwrite logc.buffer logc.writePos m.bytes
    pos := (logc.writePos + logMsgSize) % 2 ^ 64
    logcount := (logc.logcount + 1) % 2 ^ 64 }
  refine ⟨h.size, (length_overwrite hfits).trans h.length, ?_, ?_, ?_⟩
  · rw [if_neg (by simp), List.length_append, List.length_singleton, Nat.add_sub_cancel, Nat.succ_mul, ← heq]
    exact Nat.mod_eq_of_lt hnext
  · rw [List.length_append, List.length_singleton, h.logcount, Nat.mod_add_mod]
  · intro k m' hk hle
    rw [List.length_append, List.length_singleton] at hle
    change slice (overwrite logc.buffer logc.writePos m.bytes) (k % count * logMsgSize) logMsgSize = m'.bytes
    rcases Nat.lt_or_ge k records.length with hold | hnew
    · -- an earlier record: its slot is another one
      rw [List.getElem?_append_left hold] at hk
      rw [slice_overwrite_of_disjoint hfits, ← h.slots k m' hk (Nat.le_of_succ_le hle)]
      · rfl
      · rw [LogMsg.length_bytes, heq]
        rcases Nat.lt_or_gt_of_ne (mod_ne hold hle) with hbefore | hafter
        · exact .inl (by rw [← Nat.succ_mul]; exact Nat.mul_le_mul_right _ hbefore)
        · exact .inr (by rw [← Nat.succ_mul]; exact Nat.mul_le_mul_right _ hafter)
    · -- the record itself
      obtain rfl : k = records.length := by
        have := (List.getElem?_eq_some_iff.1 hk).1
        rw [List.length_append, List.length_singleton] at this
        omega
      obtain rfl : m = m' := by simpa using hk
      rw [← heq, ← LogMsg.length_bytes m]
      exact slice_overwrite_self hfits

theorem ring_logging (h : Ring count records logc) (hcount : 1 ≤ count) (hsize : count * logMsgSize < 2 ^ 64) (input : LogInput) :
    Ring count (records ++ input.record.toList) (logging logc input) := by
  unfold logging
  cases input.record with
  | none => simpa using h
  | some m => exact ring_append h hcount hsize m

theorem ring_foldl (h : Ring count records logc) (hcount : 1 ≤ count) (hsize : count * logMsgSize < 2 ^ 64)
    (inputs : List LogInput) : Ring count (records ++ inputs.filterMap LogInput.record) (inputs.foldl logging logc) := by
  induction inputs generalizing records logc with
  | nil => simpa using h
  | cons input inputs ih =>
    have hnext := ih (ring_logging h hcount hsize input)
    rw [List.append_assoc] at hnext
    rw [List.foldl_cons]
    cases hrec : input.record with
    | none => simpa [List.filterMap_cons, hrec] using hnext
    | some m => simpa [List.filterMap_cons, hrec] using hnext

/-- `init_logd` leaves an empty ring. -/
theorem ring_initLogd {sys : LogdSystem} {logc' : LogContext} (hinit : initLogd sys count logc = (true, logc'))
    (hsize : count * logMsgSize < 2 ^ 64) : Ring count [] logc' := by
  unfold initLogd at hinit
  dsimp only at hinit
  split at hinit
  · nomatch hinit
  · unfold mapLogfile at hinit
    split at hinit
    · nomatch hinit
    · rename_i buffer _
      obtain rfl := (Prod.mk.inj hinit).2
      exact ⟨Nat.mod_eq_of_lt hsize, buffer.2, rfl, rfl, by simp⟩

end RingAux

open RingAux

/-- After any number of calls of `logging` on a log that `init_logd` has set up, with `n` the number of those for which `localtime`
succeeds: the position is a multiple of the size of a record, positive and at most the size of the buffer when there is a record; the
next record is copied to a slot inside the buffer; `logcount` is `n` modulo `2 ^ 64`; and a slot holds the last of the records whose
number is that of the slot modulo `count`. -/
theorem log_ring {sys : LogdSystem} {count : Nat} {logc₀ logc₁ : LogContext} (hinit : initLogd sys count logc₀ = (true, logc₁))
    (hcount : 1 ≤ count) (hsize : count * logMsgSize < 2 ^ 64) (inputs : List LogInput) (logc : LogContext)
    (hlogc : logc = inputs.foldl logging logc₁) (records : List LogMsg) (hrecords : records = inputs.filterMap LogInput.record) :
    ((∀ input ∈ inputs, input.ltime.isSome) → records.length = inputs.length) ∧
    logMsgSize ∣ logc.pos ∧ (records ≠ [] → 0 < logc.pos) ∧ logc.pos ≤ logc.size ∧
    (∃ j < count, logc.writePos = j * logMsgSize ∧ logc.writePos + logMsgSize ≤ logc.buffer.length) ∧
    logc.logcount = records.length % 2 ^ 64 ∧
    (∀ j < count, ∀ k m, records[k]? = some m → k % count = j →
      (∀ k', k < k' → k' < records.length → k' % count ≠ j) → logc.slot j = m.bytes) ∧
    ∀ k m, records[k]? = some m → records.length ≤ k + count → logc.slot (k % count) = m.bytes := by
  have hring : Ring count records logc := by
    have := ring_foldl (ring_initLogd hinit hsize) hcount hsize inputs
    rwa [List.nil_append, ← hrecords, ← hlogc] at this
  have hpos := hring.pos
  refine ⟨?_, ?_, ?_, ?_, ⟨_, Nat.mod_lt _ hcount, writePos_eq hring hcount, writePos_fits hring hcount⟩, hring.logcount, ?_,
    hring.slots⟩
  · intro hall
    have hsome : ∀ input ∈ inputs, (LogInput.record input).isSome := by
      intro input hmem
      rw [LogInput.record, Option.isSome_map]
      exact hall input hmem
    rw [hrecords, List.length_filterMap_eq_countP, List.countP_eq_length.2 hsome]
  · rw [hpos]
    split
    · exact Nat.dvd_zero _
    · exact Nat.dvd_mul_left _ _
  · intro hne
    rw [hpos, if_neg hne]
    exact Nat.mul_pos (Nat.succ_pos _) (by decide)
  · rw [hpos, hring.size]
    split
    · exact Nat.zero_le _
    · exact Nat.mul_le_mul_right _ (Nat.mod_lt _ hcount)
  · intro j _ k m hk hj hlast
    subst hj
    refine hring.slots k m hk (Nat.le_of_not_lt fun hlt => ?_)
    exact hlast (k + count) (by omega) hlt (Nat.add_mod_right k count)

namespace LogRun

theorem length_zeros (n : Nat) : (List.replicate n (0 : UInt8)).length = n := List.length_replicate

/-- A system on which the log can be set up. -/
def ready : LogdSystem :=
  { time := some 0, calloc := true, fopen := some (3 : FileId), ftruncate := true,
    mmap := fun size => some ⟨List.replicate size 0, length_zeros size⟩ }

def unset : LogContext := { buffer := [], pos := 0, size := 0, logcount := 0 }

def zeros (n : Nat) : CharArray n := ⟨List.replicate n 0, length_zeros n⟩

/-- A call that logs one letter. -/
def entry (letter : UInt8) : LogInput :=
  { level := [], mod := [], pos := [], text := [letter], ltime := some (zeros dateSize, zeros clockSize),
    garbage := { level := zeros _, date := zeros _, clock := zeros _, mod := zeros _, pos := zeros _, msg := zeros _ } }

/-- Its record. -/
def stored (letter : UInt8) : LogMsg :=
  { level := (zeros _).store [], date := zeros _, clock := zeros _, mod := (zeros _).store [], pos := (zeros _).store [],
    msg := (zeros _).store [letter] }

/-- The log after `init_logd` with room for `count` records. -/
def started (count : Nat) : LogContext := (initLogd ready count unset).2

theorem initLogd_ready (count : Nat) : initLogd ready count unset = (true, started count) := rfl

theorem logcount_replicate (n : Nat) : ((List.replicate n (entry 65)).foldl logging (started 1)).logcount = n % 2 ^ 64 := by
  have hrecords : (List.replicate n (entry 65)).filterMap LogInput.record = List.replicate n (stored 65) :=
    List.filterMap_replicate_of_some (f := LogInput.record) (a := entry 65) rfl
  have hring := ring_foldl (ring_initLogd (initLogd_ready 1) (by decide)) (Nat.le_refl 1) (by decide) (List.replicate n (entry 65))
  rw [hring.logcount, List.nil_append, hrecords, List.length_replicate]

end LogRun

open LogRun in
/-- Three records in two slots: the third has replaced the first. -/
theorem log_ring_three : ([entry 65, entry 66, entry 67].foldl logging (started 2)).slot 0 = (stored 67).bytes ∧
    ([entry 65, entry 66, entry 67].foldl logging (started 2)).slot 1 = (stored 66).bytes := by
  obtain ⟨-, -, -, -, -, -, -, hslots⟩ := log_ring (initLogd_ready 2) (by decide) (by decide) [entry 65, entry 66, entry 67] _ rfl
    [stored 65, stored 66, stored 67] rfl
  exact ⟨hslots 2 (stored 67) rfl (by decide), hslots 1 (stored 66) rfl (by decide)⟩

open LogRun in
/-- After `2 ^ 64` calls `logcount` is zero. -/
theorem log_ring_wraps : ∃ inputs : List LogInput, (∀ input ∈ inputs, input.ltime.isSome) ∧ inputs.length = 2 ^ 64 ∧
    (inputs.foldl logging (started 1)).logcount ≠ inputs.length := by
  obtain ⟨n, hn⟩ : ∃ n, n = 2 ^ 64 := ⟨_, rfl⟩
  refine ⟨List.replicate n (entry 65), ?_, List.length_replicate.trans hn, ?_⟩
  · intro input hmem
    rw [List.eq_of_mem_replicate hmem]
    rfl
  · rw [logcount_replicate, List.length_replicate, hn]
    decide

end RufShare
