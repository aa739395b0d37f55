import Mathlib.Algebra.GroupWithZero.Nat

/-!
# Ranges of a list

`slice l i n` is the `n` elements of `l` from position `i`, and `overwrite l i b` is `l` with the elements from position `i`
replaced by `b`: a memory read and a memory write. A `Cursor` is a list of fixed length that is read and written where a position
stands, which moves past what was read or written and never past the end.
-/

namespace Slice

variable {α : Type}

/-- The `n` elements of `l` from position `i`. -/
def slice (l : List α) (i n : Nat) : List α := (l.drop i).take n

/-- `l` with the elements from position `i` on replaced by those of `b`. -/
def overwrite (l : List α) (i : Nat) (b : List α) : List α := l.take i ++ b ++ l.drop (i + b.length)

@[simp] theorem length_slice (l : List α) (i n : Nat) : (slice l i n).length = min n (l.length - i) := by
  simp [slice]

theorem length_slice_of_le {l : List α} {i n : Nat} (h : i + n ≤ l.length) : (slice l i n).length = n := by
  rw [length_slice]
  omega

@[simp] theorem slice_zero_length (l : List α) : slice l 0 l.length = l := by
  simp [slice]

/-- Reading `n` and then `m` elements is reading `n + m`. -/
theorem slice_append_slice (l : List α) (i n m : Nat) : slice l i n ++ slice l (i + n) m = slice l i (n + m) := by
  simp only [slice]
  rw [List.take_add, List.drop_drop]

@[simp] theorem slice_nil (l : List α) (i : Nat) : slice l i 0 = [] := by
  simp [slice]

theorem length_overwrite {l b : List α} {i : Nat} (h : i + b.length ≤ l.length) : (overwrite l i b).length = l.length := by
  simp only [overwrite, List.length_append, List.length_take, List.length_drop]
  omega

@[simp] theorem overwrite_nil (l : List α) (i : Nat) : overwrite l i [] = l := by
  simp [overwrite]

/-- Writing `b` and then `b'` after it is writing `b ++ b'`. -/
theorem overwrite_overwrite {l b b' : List α} {i : Nat} (h : i + b.length ≤ l.length) :
    overwrite (overwrite l i b) (i + b.length) b' = overwrite l i (b ++ b') := by
  have hlen : (l.take i ++ b).length = i + b.length := by
    simp only [List.length_append, List.length_take]
    omega
  have htake : (overwrite l i b).take (i + b.length) = l.take i ++ b := by
    rw [overwrite, ← hlen, List.take_left]
  have hdrop : (overwrite l i b).drop (i + b.length + b'.length) = l.drop (i + (b ++ b').length) := by
    rw [overwrite, ← List.drop_drop, ← hlen, List.drop_left, hlen, List.drop_drop, List.length_append, Nat.add_assoc]
  rw [overwrite, htake, hdrop, overwrite, List.append_assoc (l.take i) b b']

/-- A range that does not meet the one written reads as before. -/
theorem slice_overwrite_of_disjoint {l b : List α} {i j n : Nat} (hb : i + b.length ≤ l.length)
    (h : j + n ≤ i ∨ i + b.length ≤ j) : slice (overwrite l i b) j n = slice l j n := by
  have hti : (l.take i).length = i := by
    rw [List.length_take]
    omega
  apply List.ext_getElem?
  intro m
  simp only [slice, overwrite, List.getElem?_take, List.getElem?_drop]
  by_cases hm : m < n
  · rw [if_pos hm, if_pos hm]
    rcases h with h | h
    · rw [List.append_assoc, List.getElem?_append_left (by omega), List.getElem?_take, if_pos (by omega)]
    · rw [List.getElem?_append_right (by rw [List.length_append]; omega), List.getElem?_drop, List.length_append, hti]
      congr 1
      omega
  · rw [if_neg hm, if_neg hm]

/-- The range written reads as what was written. -/
theorem slice_overwrite_self {l b : List α} {i : Nat} (hb : i + b.length ≤ l.length) :
    slice (overwrite l i b) i b.length = b := by
  have hti : (l.take i).length = i := by
    rw [List.length_take]
    omega
  have : (overwrite l i b).drop i = b ++ l.drop (i + b.length) := by
    rw [overwrite, List.append_assoc]
    exact List.drop_left' hti
  rw [slice, this, List.take_left]

/-- Two lists of one length whose consecutive ranges of `n` elements agree, and whose ends agree, are equal. -/
theorem take_eq_of_slice_eq {l l' : List α} {i n : Nat} (h : l.take i = l'.take i) (hs : slice l i n = slice l' i n) :
    l.take (i + n) = l'.take (i + n) := by
  rw [List.take_add, List.take_add, h]
  exact congrArg (l'.take i ++ ·) hs

theorem getElem?_overwrite {l b : List α} {i : Nat} (h : i + b.length ≤ l.length) (j : Nat) :
    (overwrite l i b)[j]? = if i ≤ j ∧ j < i + b.length then b[j - i]? else l[j]? := by
  have hti : (l.take i).length = i := by
    rw [List.length_take]
    omega
  unfold overwrite
  by_cases hlt : j < i
  · rw [if_neg (by omega), List.append_assoc, List.getElem?_append_left (by omega), List.getElem?_take, if_pos hlt]
  · rw [List.append_assoc, List.getElem?_append_right (by omega), hti]
    by_cases hin : j < i + b.length
    · rw [if_pos ⟨by omega, hin⟩, List.getElem?_append_left (by omega)]
    · rw [if_neg (by omega), List.getElem?_append_right (by omega), List.getElem?_drop]
      congr 1
      omega

/-! ## Pieces -/

/-- The lengths of the pieces that `n` elements are cut into: as many of `k` as there are, and what is left. -/
def pieceSizes (k n : Nat) : List Nat := List.replicate (n / k) k ++ if n % k = 0 then [] else [n % k]

@[simp] theorem pieceSizes_zero (k : Nat) : pieceSizes k 0 = [] := by
  simp [pieceSizes]

/-- The first piece, and the pieces of the rest. -/
theorem pieceSizes_of_pos {k n : Nat} (hk : 0 < k) (hn : 0 < n) : pieceSizes k n = min k n :: pieceSizes k (n - min k n) := by
  unfold pieceSizes
  rcases Nat.lt_or_ge n k with hlt | hge
  · rw [Nat.min_eq_right (Nat.le_of_lt hlt), Nat.sub_self, Nat.div_eq_of_lt hlt, Nat.mod_eq_of_lt hlt, if_neg (Nat.ne_of_gt hn)]
    simp
  · rw [Nat.min_eq_left hge, Nat.div_eq_sub_div hk hge, Nat.mod_eq_sub_mod hge, List.replicate_succ, List.cons_append]

theorem length_pieceSizes {k : Nat} (hk : 0 < k) (n : Nat) : (pieceSizes k n).length = (n + k - 1) / k := by
  have hdiv := Nat.div_add_mod n k
  have hmod := Nat.mod_lt n hk
  rw [pieceSizes, List.length_append, List.length_replicate]
  by_cases hzero : n % k = 0
  · rw [if_pos hzero, List.length_nil, Nat.add_zero]
    refine (Nat.div_eq_of_lt_le ?_ ?_).symm
    · rw [Nat.mul_comm]
      omega
    · rw [Nat.succ_mul, Nat.mul_comm]
      omega
  · rw [if_neg hzero, List.length_singleton]
    refine (Nat.div_eq_of_lt_le ?_ ?_).symm
    · rw [Nat.succ_mul, Nat.mul_comm]
      omega
    · rw [Nat.succ_mul, Nat.succ_mul, Nat.mul_comm]
      omega

/-- No piece is empty or longer than `k`. -/
theorem bounds_of_mem_pieceSizes {k n m : Nat} (hk : 0 < k) (h : m ∈ pieceSizes k n) : 0 < m ∧ m ≤ k := by
  have hmod := Nat.mod_lt n hk
  rcases List.mem_append.1 h with h | h
  · rw [List.eq_of_mem_replicate h]
    exact ⟨hk, Nat.le_refl k⟩
  · by_cases hzero : n % k = 0
    · rw [if_pos hzero] at h
      nomatch h
    · rw [if_neg hzero, List.mem_singleton] at h
      omega

/-! ## Cursors -/

/-- A list of cells with a position in it. -/
structure Cursor (α : Type) where
  cells : List α
  pos : Nat
  inside : pos ≤ cells.length

namespace Cursor

variable (c : Cursor α)

/-- How many cells lie from the position to the end. -/
def rest : Nat := c.cells.length - c.pos

/-- Read `n` cells, or as many as there are. -/
def read (n : Nat) : List α × Cursor α :=
  (slice c.cells c.pos (min n c.rest),
    { cells := c.cells, pos := c.pos + min n c.rest, inside := by have := c.inside; unfold rest; omega })

/-- Write the elements of `b`, or as many as there are cells for. -/
def write (b : List α) : Cursor α where
  cells := overwrite c.cells c.pos (b.take c.rest)
  pos := c.pos + min b.length c.rest
  inside := by
    have hinside := c.inside
    have hfits : c.pos + (b.take c.rest).length ≤ c.cells.length := by
      rw [List.length_take, rest]
      omega
    rw [length_overwrite hfits]
    unfold rest
    omega

/-- Move the position to a cell; a position that is no cell's leaves the cursor where it is. -/
def seek (p : Nat) : Cursor α :=
  if h : p < c.cells.length then { cells := c.cells, pos := p, inside := Nat.le_of_lt h } else c

theorem length_write (b : List α) : (c.write b).cells.length = c.cells.length := by
  have hinside := c.inside
  refine length_overwrite ?_
  rw [List.length_take, rest]
  omega

theorem seek_of_lt {p : Nat} (h : p < c.cells.length) :
    c.seek p = { cells := c.cells, pos := p, inside := Nat.le_of_lt h } := dif_pos h

theorem seek_of_ge {p : Nat} (h : ¬p < c.cells.length) : c.seek p = c := dif_neg h

end Cursor

end Slice
