import Mathlib.Data.List.Infix

/-!
# Channels

A channel is a queue between a writer and a reader. A write puts a first part of what is written in the queue, and a read takes a
first part of the queue out. Either end may stop after a call of it did not do all it was asked for; what is in the queue after
that matters to no one but the other end.
-/

namespace Resumption

variable {α : Type}

/-- What a write of `b` with this answer makes of the queue: the first `n` items go in, or none. -/
def Puts (b : List α) : Option Nat → List α → List α → Prop
  | none, q, q' => q' = q
  | some n, q, q' => n ≤ b.length ∧ q' = q ++ b.take n

/-- What a read with this answer makes of the queue: its first items come out, unless the read only looks. -/
def Takes (looks : Bool) : Option (List α) → List α → List α → Prop
  | none, q, q' => q' = q
  | some b, q, q' => b <+: q ∧ q' = if looks then q else q.drop b.length

/-- As long as the reader reads, the queue holds what the reader is owed; behind it there may be less than `n` items of a write that
ended the writer. -/
def Carries (reads writes : Bool) (q owed : List α) (n : Nat) : Prop :=
  reads = true → ∃ part, q = owed ++ part ∧ (writes = true → part = []) ∧ part.length < n

section Carries

variable {reads writes : Bool} {q owed b : List α} {n m : Nat}

theorem Carries.deaf : Carries false writes q owed n := fun h => absurd h Bool.false_ne_true

theorem Carries.nil (hn : 0 < n) : Carries reads writes ([] : List α) [] n := fun _ => ⟨[], rfl, fun _ => rfl, hn⟩

/-- The writer has stopped. -/
theorem Carries.mute (h : Carries reads writes q owed n) : Carries reads false q owed n := by
  intro hr
  obtain ⟨part, hq, _, hlen⟩ := h hr
  exact ⟨part, hq, fun h => absurd h Bool.false_ne_true, hlen⟩

theorem Carries.mono (h : Carries reads writes q owed n) (hle : n ≤ m) : Carries reads writes q owed m := by
  intro hr
  obtain ⟨part, hq, hw, hlen⟩ := h hr
  exact ⟨part, hq, hw, Nat.lt_of_lt_of_le hlen hle⟩

/-- Behind a writer that writes there is nothing. -/
theorem Carries.bound (h : Carries reads true q owed n) (hm : 0 < m) : Carries reads true q owed m := by
  intro hr
  obtain ⟨part, hq, hw, _⟩ := h hr
  exact ⟨part, hq, hw, by rw [hw rfl]; exact hm⟩

theorem Carries.eq (h : Carries true true q owed n) : q = owed := by
  obtain ⟨part, hq, hw, _⟩ := h rfl
  rw [hq, hw rfl, List.append_nil]

/-- A write that is made whole is owed. -/
theorem Carries.put (h : Carries reads true q owed n) : Carries reads true (q ++ b) (owed ++ b) n := by
  intro hr
  obtain ⟨part, hq, hw, hlen⟩ := h hr
  rw [hw rfl, List.append_nil] at hq
  exact ⟨[], by rw [hq, List.append_nil], fun _ => rfl, Nat.lt_of_le_of_lt (Nat.zero_le _) hlen⟩

/-- A write that is made in part ends the writer. -/
theorem Carries.cut {k : Nat} (h : Carries reads true q owed n) (hk : k < b.length) : Carries reads false (q ++ b.take k) owed b.length := by
  intro hr
  obtain ⟨part, hq, hw, _⟩ := h hr
  rw [hw rfl, List.append_nil] at hq
  refine ⟨b.take k, by rw [hq], fun h => absurd h Bool.false_ne_true, ?_⟩
  rw [List.length_take]
  exact Nat.lt_of_le_of_lt (Nat.min_le_left _ _) hk

/-- The reader gets what it is owed. -/
theorem Carries.take {first : List α} (h : Carries true writes q (first ++ owed) n) (hb : b <+: q) (hlen : b.length = first.length) :
    b = first ∧ Carries true writes (q.drop b.length) owed n := by
  obtain ⟨part, rfl, hw, hn⟩ := h rfl
  have hfirst : b = first := by
    rw [List.append_assoc] at hb
    exact (List.prefix_of_prefix_length_le hb (List.prefix_append _ _) (Nat.le_of_eq hlen)).eq_of_length hlen
  refine ⟨hfirst, fun _ => ⟨part, ?_, hw, hn⟩⟩
  rw [hfirst, List.append_assoc, List.drop_left]

/-- A reader that is owed nothing reads less than `n` items. -/
theorem Carries.short (h : Carries true writes q ([] : List α) n) (hb : b <+: q) : b.length < n := by
  obtain ⟨part, rfl, _, hn⟩ := h rfl
  exact Nat.lt_of_le_of_lt hb.length_le hn

/-- And leaves so many less. -/
theorem Carries.rest (h : Carries true writes q ([] : List α) n) (hb : b <+: q) :
    Carries true writes (q.drop b.length) [] (n - b.length) := by
  obtain ⟨part, hq, hw, hn⟩ := h rfl
  obtain rfl : q = part := hq
  have hle := hb.length_le
  refine fun _ => ⟨q.drop b.length, rfl, fun h => by rw [hw h, List.drop_nil], ?_⟩
  rw [List.length_drop]
  omega

end Carries

end Resumption
