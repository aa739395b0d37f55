import RufShare.Utils

/-!
# Chunk arithmetic

The number of chunks of a file and the size of the last one, computed in the types of the packet, and the way back.
-/

namespace RufShare

section

variable {fileSize : Nat} {chsize : UInt16} (hpos : 0 < chsize.toNat) (hcount : fileSize / chsize.toNat < 2 ^ 32 - 1)

include hcount in
/-- The quotient fits the counter. -/
theorem toNat_quotient : (UInt32.ofNat (fileSize / chsize.toNat)).toNat = fileSize / chsize.toNat := by
  rw [UInt32.toNat_ofNat']
  exact Nat.mod_eq_of_lt (Nat.lt_of_lt_of_le hcount (by decide))

include hcount in
theorem toNat_chunkCount : (calcChunkCount fileSize chsize.toNat).1.toNat = fileSize / chsize.toNat + 1 := by
  simp only [calcChunkCount, UInt32.toNat_add, toNat_quotient hcount]
  exact Nat.mod_eq_of_lt (Nat.add_lt_of_lt_sub hcount)

include hpos hcount in
/-- A file whose chunks can be counted is far shorter than `SIZE_MAX`. -/
theorem fileSize_lt : fileSize < 2 ^ 48 := by
  have hchsize := chsize.toNat_lt
  have hdiv := Nat.lt_mul_div_succ fileSize hpos
  have hmul : chsize.toNat * (fileSize / chsize.toNat + 1) ≤ 2 ^ 16 * 2 ^ 32 :=
    Nat.mul_le_mul (Nat.le_of_lt hchsize) (Nat.le_of_lt (Nat.add_lt_of_lt_sub hcount))
  omega

include hpos hcount in
theorem toNat_partialSize : (calcChunkCount fileSize chsize.toNat).2.toNat = fileSize % chsize.toNat := by
  have hlt := fileSize_lt hpos hcount
  have hmod := Nat.mod_lt fileSize hpos
  have hdm := Nat.div_add_mod' fileSize chsize.toNat
  simp only [calcChunkCount, toNat_quotient hcount, UInt16.toNat_ofNat']
  rw [sizeSub_of_le (Nat.div_mul_le_self _ _) (by omega), Nat.sub_eq_of_eq_add (by omega : fileSize = fileSize % chsize.toNat + _)]
  exact Nat.mod_eq_of_lt (Nat.lt_trans hmod chsize.toNat_lt)

include hpos hcount in
/-- The receiver computes the size the sender started from. -/
theorem calcFileSize_calcChunkCount :
    calcFileSize (calcChunkCount fileSize chsize.toNat).1 chsize (calcChunkCount fileSize chsize.toNat).2 = fileSize := by
  have hlt := fileSize_lt hpos hcount
  unfold calcFileSize
  rw [toNat_chunkCount hcount, toNat_partialSize hpos hcount,
    sizeSub_of_le (Nat.le_add_left 1 _) (Nat.lt_trans (Nat.add_lt_of_lt_sub hcount) (by decide)), Nat.add_sub_cancel,
    Nat.div_add_mod']
  exact Nat.mod_eq_of_lt (Nat.lt_trans hlt (by decide))

end

/-! ## Chunks of an arbitrary offer -/

/-- The size of the segments of a transfer, as `start_pusher` and `start_puller` compute it. -/
def segsizeOf (c : InitConfig) : Nat := calcSegmentSize (if c.chsize ≠ 0 then c.chsize.toNat else c.pchsize.toNat)

/-- The file of a transfer is mapped, with the size the numbers of the offer give. -/
structure Mapped (c : InitConfig) : Prop where
  isOpen : c.filec.mfile.isOpen = true
  size : c.filec.mfile.size = c.filec.size
  length : c.filec.mfile.buf.length = c.filec.size
  offered : c.filec.size = calcFileSize c.chcount c.chsize c.pchsize
  pos : 0 < c.filec.size

theorem Mapped.size_lt {c : InitConfig} (h : Mapped c) : c.filec.size < 2 ^ 64 := by
  rw [h.offered]
  exact Nat.mod_lt _ (by decide)

/-- What the counter of the loop can be: it starts at `1`, and comes back to `0` only past the largest count. -/
structure Counted (c : InitConfig) : Prop where
  none : c.chcount = 0 → c.seq = 1
  wrapped : c.seq = 0 → c.chcount = 4294967295

/-- The chunk of a configuration lies inside the file. -/
def ChunkInside (c : InitConfig) : Prop := (chunkContext c).startPos + (chunkContext c).chunkSize ≤ c.filec.size

theorem counted_first (c : InitConfig) : Counted { c with seq := 1 } := ⟨fun _ => rfl, fun h => absurd h (show ¬(1 : UInt32) = 0 by decide)⟩

theorem Counted.next {c : InitConfig} (h : Counted c) (hseq : c.seq ≤ c.chcount) : Counted { c with seq := c.seq + 1 } where
  none := by
    intro hzero
    have hone := h.none hzero
    rw [hzero, hone] at hseq
    exact absurd hseq (by decide)
  wrapped := by
    intro hzero
    have hnat := congrArg UInt32.toNat hzero
    have hle := UInt32.le_iff_toNat_le.1 hseq
    have hlt := c.chcount.toNat_lt
    refine UInt32.toNat_inj.1 ?_
    simp only [UInt32.toNat_add] at hnat
    change c.chcount.toNat = 4294967295
    have : (1 : UInt32).toNat = 1 := rfl
    have : (0 : UInt32).toNat = 0 := rfl
    have := c.seq.toNat_lt
    omega

theorem Mapped.next {c : InitConfig} (h : Mapped c) (seq : UInt32) : Mapped { c with seq := seq } :=
  ⟨h.isOpen, h.size, h.length, h.offered, h.pos⟩

/-- Whatever the numbers of the offer are, a chunk the cursor can be set to lies inside the file: the 32-bit product is never more
than the exact one, and after a wrap of the counter the file is long enough. -/
theorem chunkInside_of_seek {c : InitConfig} (hm : Mapped c) (hc : Counted c) (hseq : c.seq ≤ c.chcount)
    (hseek : (chunkContext c).startPos < c.filec.size) : ChunkInside c := by
  have hle := UInt32.le_iff_toNat_le.1 hseq
  have hcount := c.chcount.toNat_lt
  have hchsize := c.chsize.toNat_lt
  have hpchsize := c.pchsize.toNat_lt
  have hpos : 1 ≤ c.chcount.toNat := by
    refine Nat.one_le_iff_ne_zero.2 fun hzero => ?_
    have hone := hc.none (UInt32.toNat_inj.1 hzero)
    rw [hone, hzero] at hle
    exact absurd hle (by decide)
  -- the size does not wrap once there is a chunk
  have hsize : c.filec.size = (c.chcount.toNat - 1) * c.chsize.toNat + c.pchsize.toNat := by
    have hmul : (c.chcount.toNat - 1) * c.chsize.toNat ≤ 2 ^ 32 * 2 ^ 16 :=
      Nat.mul_le_mul (by omega) (Nat.le_of_lt hchsize)
    rw [hm.offered, calcFileSize, sizeSub_of_le hpos (by omega)]
    exact Nat.mod_eq_of_lt (by omega)
  have hstart : (chunkContext c).startPos = (c.seq - 1).toNat * c.chsize.toNat % 2 ^ 32 := by
    simp only [chunkContext, UInt32.toNat_mul, UInt16.toNat_toUInt32]
  unfold ChunkInside
  by_cases hzero : c.seq = 0
  · -- past the largest count: the chunk ends at `2 ^ 32`
    have hall := hc.wrapped hzero
    have hne : c.seq ≠ c.chcount := by
      rw [hzero, hall]
      decide
    have hlen : (chunkContext c).chunkSize = c.chsize.toNat := by
      simp only [chunkContext, if_neg hne]
    have hcnt : c.chcount.toNat = 4294967295 := by
      rw [hall]
      rfl
    have hseq' : (c.seq - 1).toNat = 4294967295 := by
      rw [hzero]
      rfl
    rw [hseq'] at hstart
    rw [hcnt] at hsize
    rw [hlen, hsize]
    rw [hsize] at hseek
    omega
  · have hseq' : (c.seq - 1).toNat = c.seq.toNat - 1 := by
      have hne : c.seq.toNat ≠ 0 := fun h => hzero (UInt32.toNat_inj.1 h)
      have hone : (1 : UInt32) ≤ c.seq := UInt32.le_iff_toNat_le.2 (Nat.one_le_iff_ne_zero.2 hne)
      exact UInt32.toNat_sub_of_le _ _ hone
    rw [hseq'] at hstart
    have hmod : (chunkContext c).startPos ≤ (c.seq.toNat - 1) * c.chsize.toNat := by
      rw [hstart]
      exact Nat.mod_le _ _
    by_cases hlast : c.seq = c.chcount
    · have hlen : (chunkContext c).chunkSize = c.pchsize.toNat := by
        simp only [chunkContext, if_pos hlast]
      rw [hlast] at hmod
      rw [hlen, hsize]
      omega
    · have hlen : (chunkContext c).chunkSize = c.chsize.toNat := by
        simp only [chunkContext, if_neg hlast]
      have hlt : c.seq.toNat < c.chcount.toNat :=
        Nat.lt_of_le_of_ne hle (fun h => hlast (UInt32.toNat_inj.1 h))
      have hne : c.seq.toNat ≠ 0 := fun h => hzero (UInt32.toNat_inj.1 h)
      have hmul : c.seq.toNat * c.chsize.toNat ≤ (c.chcount.toNat - 1) * c.chsize.toNat :=
        Nat.mul_le_mul_right _ (by omega)
      have hstep : (c.seq.toNat - 1) * c.chsize.toNat + c.chsize.toNat = c.seq.toNat * c.chsize.toNat := by
        rw [← Nat.succ_mul, Nat.succ_eq_add_one, Nat.sub_add_cancel (Nat.one_le_iff_ne_zero.2 hne)]
      rw [hlen, hsize]
      omega

end RufShare
