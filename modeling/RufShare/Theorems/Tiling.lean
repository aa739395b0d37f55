import RufShare.Lemmas.Chunks
import RufShare.Lemmas.Within

/-!
# The chunks of a file

The size of a file survives the encoding as a number of chunks and the size of the last one exactly when the number of whole
chunks fits the 32-bit counter with one to spare. The ranges the transfer loops compute tile the file exactly when the last of
them starts below 4 GiB: `seq` and `chsize` are multiplied in 32 bits before the product is stored in a `size_t`.
-/

namespace RufShare

namespace TilingAux

section

variable {fileSize : Nat} {chsize : UInt16} (hpos : 0 < chsize.toNat) (hlt : fileSize < 2 ^ 63)

/-- The quotient as the counter keeps it. -/
theorem toNat_val : (UInt32.ofNat (fileSize / chsize.toNat)).toNat = fileSize / chsize.toNat % 2 ^ 32 :=
  UInt32.toNat_ofNat'

include hlt in
/-- The size of the last chunk, however large the quotient is. -/
theorem toNat_partial : (calcChunkCount fileSize chsize.toNat).2.toNat =
    (fileSize - fileSize / chsize.toNat % 2 ^ 32 * chsize.toNat) % 2 ^ 16 := by
  have hle : fileSize / chsize.toNat % 2 ^ 32 * chsize.toNat ≤ fileSize :=
    Nat.le_trans (Nat.mul_le_mul_right _ (Nat.mod_le _ _)) (Nat.div_mul_le_self _ _)
  simp only [calcChunkCount, UInt16.toNat_ofNat', toNat_val]
  rw [sizeSub_of_le hle (Nat.lt_trans hlt (by decide))]

theorem toNat_count : (calcChunkCount fileSize chsize.toNat).1.toNat = (fileSize / chsize.toNat % 2 ^ 32 + 1) % 2 ^ 32 := by
  simp only [calcChunkCount, UInt32.toNat_add, toNat_val]
  rfl

include hpos hlt in
/-- When the counter is left at `0` the size computed from it is below `2 ^ 16` or above `2 ^ 63`. -/
theorem calcFileSize_ne_of_last (hq : fileSize / chsize.toNat % 2 ^ 32 = 2 ^ 32 - 1) :
    calcFileSize (calcChunkCount fileSize chsize.toNat).1 chsize (calcChunkCount fileSize chsize.toNat).2 ≠ fileSize := by
  have hch := chsize.toNat_lt
  have hpart := (calcChunkCount fileSize chsize.toNat).2.toNat_lt
  have hcount : (calcChunkCount fileSize chsize.toNat).1.toNat = 0 := by
    rw [toNat_count, hq, Nat.sub_add_cancel (by decide), Nat.mod_self]
  have hbig : 2 ^ 32 - 1 ≤ fileSize :=
    calc 2 ^ 32 - 1 = fileSize / chsize.toNat % 2 ^ 32 := hq.symm
      _ ≤ fileSize / chsize.toNat := Nat.mod_le _ _
      _ ≤ fileSize := Nat.div_le_self _ _
  unfold calcFileSize
  rw [hcount]
  generalize (calcChunkCount fileSize chsize.toNat).2.toNat = pch at hpart ⊢
  have hwrap : (sizeSub 0 1 * chsize.toNat + pch) % 2 ^ 64 = (2 ^ 64 + pch - chsize.toNat) % 2 ^ 64 := by
    have : sizeSub 0 1 * chsize.toNat + pch = 2 ^ 64 + pch - chsize.toNat + 2 ^ 64 * (chsize.toNat - 1) := by
      simp only [sizeSub]
      omega
    rw [this, Nat.add_mul_mod_self_left]
  rw [hwrap]
  omega

include hpos in
/-- When the quotient has wrapped the size computed from it is too small. -/
theorem calcFileSize_ne_of_wrapped (hlt : fileSize < 2 ^ 63) (hq : fileSize / chsize.toNat % 2 ^ 32 ≠ 2 ^ 32 - 1)
    (hbig : 2 ^ 32 ≤ fileSize / chsize.toNat) :
    calcFileSize (calcChunkCount fileSize chsize.toNat).1 chsize (calcChunkCount fileSize chsize.toNat).2 ≠ fileSize := by
  have hmod := Nat.mod_lt (fileSize / chsize.toNat) (by decide : 0 < 2 ^ 32)
  have hpart := (calcChunkCount fileSize chsize.toNat).2.toNat_lt
  have hcount : (calcChunkCount fileSize chsize.toNat).1.toNat = fileSize / chsize.toNat % 2 ^ 32 + 1 := by
    rw [toNat_count]
    omega
  -- at least `2 ^ 32` whole chunks are lost, and the partial chunk cannot make up for them
  have hlost : (2 ^ 32 + fileSize / chsize.toNat % 2 ^ 32) * chsize.toNat ≤ fileSize := by
    refine Nat.le_trans (Nat.mul_le_mul_right _ ?_) (Nat.div_mul_le_self fileSize chsize.toNat)
    omega
  unfold calcFileSize
  rw [hcount, sizeSub_of_le (Nat.le_add_left 1 _) (by omega), Nat.add_sub_cancel]
  rw [Nat.add_mul] at hlost
  generalize fileSize / chsize.toNat % 2 ^ 32 * chsize.toNat = whole at hlost ⊢
  generalize (calcChunkCount fileSize chsize.toNat).2.toNat = pch at hpart ⊢
  omega

end

end TilingAux

open TilingAux in
/-- The size survives exactly when the number of whole chunks is below `2 ^ 32 - 1`; the fields are then those of division. -/
theorem calcFileSize_calcChunkCount_iff {fileSize : Nat} {chsize : UInt16} (hlt : fileSize < 2 ^ 63)
    (hpos : 1 ≤ chsize.toNat) :
    (calcFileSize (calcChunkCount fileSize chsize.toNat).1 chsize (calcChunkCount fileSize chsize.toNat).2 = fileSize ↔
      fileSize / chsize.toNat < 2 ^ 32 - 1) ∧
    (fileSize / chsize.toNat < 2 ^ 32 - 1 →
      (calcChunkCount fileSize chsize.toNat).2.toNat = fileSize % chsize.toNat ∧
      (calcChunkCount fileSize chsize.toNat).2.toNat < chsize.toNat ∧
      (calcChunkCount fileSize chsize.toNat).1.toNat = fileSize / chsize.toNat + 1) := by
  refine ⟨⟨?_, fun hcount => calcFileSize_calcChunkCount hpos hcount⟩, ?_⟩
  · intro h
    refine Decidable.byContradiction fun hcount => ?_
    by_cases hq : fileSize / chsize.toNat % 2 ^ 32 = 2 ^ 32 - 1
    · exact calcFileSize_ne_of_last hpos hlt hq h
    · exact calcFileSize_ne_of_wrapped hpos hlt hq (by omega) h
  · intro hcount
    have hpart := toNat_partialSize hpos hcount
    refine ⟨hpart, ?_, toNat_chunkCount hcount⟩
    rw [hpart]
    exact Nat.mod_lt _ hpos

/-- A file of five bytes in chunks of two. -/
theorem calcFileSize_calcChunkCount_five : (5 < 2 ^ 63 ∧ 1 ≤ (2 : UInt16).toNat) ∧
    (calcChunkCount 5 (2 : UInt16).toNat).2.toNat = 5 % (2 : UInt16).toNat ∧
    (calcChunkCount 5 (2 : UInt16).toNat).2.toNat < (2 : UInt16).toNat ∧
    (calcChunkCount 5 (2 : UInt16).toNat).1.toNat = 5 / (2 : UInt16).toNat + 1 :=
  ⟨by decide, (calcFileSize_calcChunkCount_iff (by decide) (by decide)).2 (by decide)⟩

/-! ## The ranges of the transfer loops -/

/-- The chunk both transfer loops compute when `conf->seq` is `n`. -/
def chunkRange (c : InitConfig) (n : Nat) : ChunkContext := chunkContext { c with seq := UInt32.ofNat n }

/-- The end of a range. -/
def ChunkContext.stop (chunk : ChunkContext) : Nat := chunk.startPos + chunk.chunkSize

/-- The ranges for `seq = 1, ..., chcount` follow each other from `0` to `fileSize`, without overlap and without a gap. -/
structure Tiles (c : InitConfig) (fileSize : Nat) : Prop where
  first : (chunkRange c 1).startPos = 0
  consecutive : ∀ n, 1 ≤ n → n < c.chcount.toNat → (chunkRange c (n + 1)).startPos = (chunkRange c n).stop
  last : (chunkRange c c.chcount.toNat).stop = fileSize
  disjoint : ∀ m n, 1 ≤ m → m < n → n ≤ c.chcount.toNat → (chunkRange c m).stop ≤ (chunkRange c n).startPos
  cover : ∀ x, x < fileSize ↔
    ∃ n, 1 ≤ n ∧ n ≤ c.chcount.toNat ∧ (chunkRange c n).startPos ≤ x ∧ x < (chunkRange c n).stop

namespace TilingAux

/-- Where a chunk starts: the product is taken modulo `2 ^ 32`. -/
theorem startPos_chunkRange (c : InitConfig) {n : Nat} (hn : 1 ≤ n) (hlt : n < 2 ^ 32) :
    (chunkRange c n).startPos = (n - 1) * c.chsize.toNat % 2 ^ 32 := by
  have hseq : (UInt32.ofNat n - 1).toNat = n - 1 := by
    rw [UInt32.toNat_sub_of_le _ _ (by rw [UInt32.le_iff_toNat_le, UInt32.toNat_ofNat']; simp; omega), UInt32.toNat_ofNat']
    simp
    omega
  simp only [chunkRange, chunkContext, UInt32.toNat_mul, hseq, UInt16.toNat_toUInt32]

theorem chunkSize_chunkRange (c : InitConfig) {n : Nat} (hlt : n < 2 ^ 32) :
    (chunkRange c n).chunkSize = if n = c.chcount.toNat then c.pchsize.toNat else c.chsize.toNat := by
  have hiff : UInt32.ofNat n = c.chcount ↔ n = c.chcount.toNat := by
    rw [← UInt32.toNat_inj, UInt32.toNat_ofNat', Nat.mod_eq_of_lt hlt]
  simp only [chunkRange, chunkContext, hiff]
  split <;> rfl

section

variable {c : InitConfig} {fileSize : Nat} (hsmall : fileSize / c.chsize.toNat * c.chsize.toNat < 2 ^ 32)
  (hcount : c.chcount.toNat = fileSize / c.chsize.toNat + 1) (hpart : c.pchsize.toNat = fileSize % c.chsize.toNat)

include hcount in
theorem one_le_chcount : 1 ≤ c.chcount.toNat := by
  rw [hcount]
  exact Nat.le_add_left 1 _

include hsmall hcount in
/-- Without a wrap a chunk starts where the chunks before it end. -/
theorem startPos_of_lt {n : Nat} (hn : 1 ≤ n) (hle : n ≤ c.chcount.toNat) :
    (chunkRange c n).startPos = (n - 1) * c.chsize.toNat := by
  rw [startPos_chunkRange c hn (Nat.lt_of_le_of_lt hle c.chcount.toNat_lt)]
  refine Nat.mod_eq_of_lt (Nat.lt_of_le_of_lt (Nat.mul_le_mul_right _ ?_) hsmall)
  omega

include hsmall hcount in
/-- The end of a chunk that is not the last. -/
theorem stop_of_lt {n : Nat} (hn : 1 ≤ n) (hlt : n < c.chcount.toNat) :
    (chunkRange c n).stop = n * c.chsize.toNat := by
  have hsize := chunkSize_chunkRange c (Nat.lt_trans hlt c.chcount.toNat_lt)
  rw [if_neg (Nat.ne_of_lt hlt)] at hsize
  rw [ChunkContext.stop, hsize, startPos_of_lt hsmall hcount hn (Nat.le_of_lt hlt), ← Nat.succ_mul, Nat.succ_eq_add_one,
    Nat.sub_add_cancel hn]

include hsmall hcount hpart in
/-- The last chunk ends with the file. -/
theorem stop_last : (chunkRange c c.chcount.toNat).stop = fileSize := by
  rw [ChunkContext.stop, chunkSize_chunkRange c c.chcount.toNat_lt, if_pos rfl,
    startPos_of_lt hsmall hcount (one_le_chcount hcount) (Nat.le_refl _), hcount, hpart, Nat.add_sub_cancel,
    Nat.div_add_mod']

include hsmall hcount hpart in
/-- Without a wrap the ranges tile the file. -/
theorem tiles_of_small (hpos : 1 ≤ c.chsize.toNat) : Tiles c fileSize where
  first := by
    rw [startPos_of_lt hsmall hcount (Nat.le_refl 1) (one_le_chcount hcount)]
    simp
  consecutive := by
    intro n hn hlt
    rw [startPos_of_lt hsmall hcount (by omega) (by omega), stop_of_lt hsmall hcount hn hlt, Nat.add_sub_cancel]
  last := stop_last hsmall hcount hpart
  disjoint := by
    intro m n hm hmn hn
    rw [stop_of_lt hsmall hcount hm (by omega), startPos_of_lt hsmall hcount (by omega) hn]
    exact Nat.mul_le_mul_right _ (by omega)
  cover := by
    intro x
    constructor
    · -- the chunk of `x` is the one its quotient counts
      intro hx
      have hone : 1 ≤ x / c.chsize.toNat + 1 := Nat.le_add_left 1 _
      have hq : x / c.chsize.toNat + 1 ≤ c.chcount.toNat := by
        rw [hcount]
        exact Nat.succ_le_succ (Nat.div_le_div_right (Nat.le_of_lt hx))
      refine ⟨x / c.chsize.toNat + 1, hone, hq, ?_, ?_⟩
      · rw [startPos_of_lt hsmall hcount hone hq, Nat.add_sub_cancel]
        exact Nat.div_mul_le_self _ _
      · by_cases hlast : x / c.chsize.toNat + 1 = c.chcount.toNat
        · rw [hlast, stop_last hsmall hcount hpart]
          exact hx
        · rw [stop_of_lt hsmall hcount hone (Nat.lt_of_le_of_ne hq hlast), Nat.mul_comm]
          exact Nat.lt_mul_div_succ x hpos
    · rintro ⟨n, hn, hle, _, hstop⟩
      by_cases hlast : n = c.chcount.toNat
      · rw [hlast, stop_last hsmall hcount hpart] at hstop
        exact hstop
      · rw [stop_of_lt hsmall hcount hn (by omega)] at hstop
        refine Nat.lt_of_lt_of_le hstop (Nat.le_trans (Nat.mul_le_mul_right _ ?_) (Nat.div_mul_le_self fileSize c.chsize.toNat))
        omega

include hcount in
/-- In a tiling the last chunk starts after all the whole ones, and what a 32-bit product can reach is below `2 ^ 32`. -/
theorem small_of_tiles (h : Tiles c fileSize) :
    fileSize / c.chsize.toNat * c.chsize.toNat < 2 ^ 32 := by
  have hstart : ∀ n, n + 1 ≤ c.chcount.toNat → (chunkRange c (n + 1)).startPos = n * c.chsize.toNat := by
    intro n
    induction n with
    | zero =>
      intro _
      rw [h.first, Nat.zero_mul]
    | succ n ih =>
      intro hle
      have hsize := chunkSize_chunkRange c (n := n + 1) (Nat.lt_of_le_of_lt (by omega) c.chcount.toNat_lt)
      rw [if_neg (by omega)] at hsize
      rw [h.consecutive (n + 1) (by omega) (by omega), ChunkContext.stop, ih (by omega), hsize, Nat.succ_mul]
  have hlast := hstart (fileSize / c.chsize.toNat) (Nat.le_of_eq hcount.symm)
  rw [startPos_chunkRange c (Nat.le_add_left 1 _) (by rw [← hcount]; exact c.chcount.toNat_lt)] at hlast
  rw [← hlast]
  exact Nat.mod_lt _ (by decide)

end

end TilingAux

open TilingAux in
/-- The ranges tile the file exactly when the last of them starts below `2 ^ 32`; both loops compute the same ranges from the same
parameters. -/
theorem chunkRange_tiles_iff {fileSize : Nat} (c : InitConfig) (hpos : 1 ≤ c.chsize.toNat)
    (hcount : fileSize / c.chsize.toNat < 2 ^ 32 - 1) (hchcount : c.chcount = (calcChunkCount fileSize c.chsize.toNat).1)
    (hpchsize : c.pchsize = (calcChunkCount fileSize c.chsize.toNat).2) :
    (Tiles c fileSize ∧ ∀ c' : InitConfig, c'.chsize = c.chsize → c'.pchsize = c.pchsize → c'.chcount = c.chcount →
      ∀ n, chunkRange c' n = chunkRange c n) ↔ fileSize / c.chsize.toNat * c.chsize.toNat < 2 ^ 32 := by
  have hcnt : c.chcount.toNat = fileSize / c.chsize.toNat + 1 := by
    rw [hchcount]
    exact toNat_chunkCount hcount
  have hpart : c.pchsize.toNat = fileSize % c.chsize.toNat := by
    rw [hpchsize]
    exact toNat_partialSize hpos hcount
  constructor
  · intro h
    exact small_of_tiles hcnt h.1
  · intro hsmall
    refine ⟨tiles_of_small hsmall hcnt hpart hpos, ?_⟩
    intro c' hch hpch hchc n
    simp only [chunkRange, chunkContext, hch, hpch, hchc]

namespace TilingRun

/-- A configuration with the number of chunks and the size of the last one for a file of `fileSize` bytes. -/
def offered (fileSize : Nat) (chsize : UInt16) : InitConfig :=
  { Sample.receiver with
    chsize := chsize, chcount := (calcChunkCount fileSize chsize.toNat).1,
    pchsize := (calcChunkCount fileSize chsize.toNat).2 }

end TilingRun

open TilingRun in
/-- A file of five bytes in chunks of two. -/
theorem chunkRange_tiles_five : 5 / (offered 5 2).chsize.toNat * (offered 5 2).chsize.toNat < 2 ^ 32 ∧ Tiles (offered 5 2) 5 :=
  ⟨by decide, ((chunkRange_tiles_iff (offered 5 2) (by decide) (by decide) rfl rfl).2 (by decide)).1⟩

open TilingRun in
/-- A file of 4 GiB and one byte in chunks of 1024: the last byte is looked for at position 0. -/
theorem chunkRange_wraps : 1 ≤ 2 ^ 32 + 1 ∧ (2 ^ 32 + 1) / (offered (2 ^ 32 + 1) 1024).chsize.toNat < 2 ^ 32 - 1 ∧
    (chunkRange (offered (2 ^ 32 + 1) 1024) (offered (2 ^ 32 + 1) 1024).chcount.toNat).startPos = 0 ∧
    ¬Tiles (offered (2 ^ 32 + 1) 1024) (2 ^ 32 + 1) := by
  refine ⟨by decide, by decide, by decide +kernel, ?_⟩
  intro h
  exact absurd h.last (by decide +kernel)

end RufShare
