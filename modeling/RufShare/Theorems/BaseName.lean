import Mathlib.Data.List.TakeWhile
import RufShare.Lemmas.Within

/-!
# The file name of a path

`extract_file_name` scans a path from its terminator back and `sstrncpy` copies what it finds into an array of fixed size. Over the
memory the path lies in, neither reads outside it; what is stored is the part of the path after its last `'/'`, cut to the array.
-/

namespace RufShare

open Slice Resumption

/-- `s` is the last component of `p`. -/
def IsBaseName (p s : Bytes) : Prop := 47 ∉ s ∧ ∃ q, p = q ++ s ∧ (q = [] ∨ q.getLast? = some 47)

/-- A path has one last component. -/
theorem IsBaseName.unique {p s s' : Bytes} (h : IsBaseName p s) (h' : IsBaseName p s') : s = s' := by
  -- the longer prefix ends in a `'/'` of the longer suffix
  have hlonger : ∀ {q q' a b : Bytes}, 47 ∉ a → q ++ a = q' ++ b → (q' = [] ∨ q'.getLast? = some 47) →
      q.length < q'.length → False := by
    intro q q' a b ha heq hq' hlt
    rcases hq' with rfl | hlast
    · exact absurd hlt (Nat.not_lt_zero _)
    · obtain ⟨m, rfl⟩ : q <+: q' := List.prefix_of_prefix_length_le ⟨a, heq⟩ (List.prefix_append q' b) (Nat.le_of_lt hlt)
      rw [List.append_assoc] at heq
      have hm : m ≠ [] := by
        rintro rfl
        simp at hlt
      have hslash : m.getLast? = some 47 := by
        rw [List.getLast?_append, List.getLast?_eq_some_getLast hm, Option.some_or] at hlast
        rw [List.getLast?_eq_some_getLast hm, hlast]
      exact ha (List.append_cancel_left heq ▸ List.mem_append_left b (List.mem_of_getLast? hslash))
  obtain ⟨hs, q, hq, hend⟩ := h
  obtain ⟨hs', q', hq', hend'⟩ := h'
  have heq : q ++ s = q' ++ s' := by rw [← hq, ← hq']
  rcases Nat.lt_trichotomy q.length q'.length with hlt | hlen | hlt
  · exact (hlonger hs heq hend' hlt).elim
  · exact (List.append_inj heq hlen).2
  · exact (hlonger hs' heq.symm hend hlt).elim

/-- The memory of a path: its bytes and the terminator, and nothing else. -/
def pathMemory (path : Bytes) : Memory := fun i => if i < 0 then none else (path ++ [0])[i.toNat]?

/-- The memory seen from a byte further on. -/
def Memory.from (src : Memory) (offset : Nat) : Memory := fun i => src (offset + i)

namespace BaseNameAux

variable {path s : Bytes}

theorem pathMemory_of_lt {i : Nat} (hi : i < path.length) : pathMemory path i = some path[i] := by
  simp [pathMemory, List.getElem?_append_left, hi]

theorem pathMemory_end : pathMemory path path.length = some 0 := by
  simp [pathMemory]

/-- Where the scan from position `n` back stops: at the start or after a `'/'`, with none further on. -/
theorem extractFileNameFrom_spec (path : Bytes) (n : Nat) :
    extractFileNameFrom path n ≤ n ∧ (extractFileNameFrom path n = 0 ∨ path[extractFileNameFrom path n - 1]? = some 47) ∧
    ∀ k, extractFileNameFrom path n ≤ k → k < n → path[k]? ≠ some 47 := by
  induction n with
  | zero => exact ⟨Nat.le_refl _, .inl rfl, fun k _ hk => absurd hk (Nat.not_lt_zero k)⟩
  | succ n ih =>
    unfold extractFileNameFrom
    by_cases hn : path[n]? = some 47
    · rw [if_pos hn]
      exact ⟨Nat.le_refl _, .inr hn, fun k hle hlt => by omega⟩
    · rw [if_neg hn]
      obtain ⟨hle, hstop, hnone⟩ := ih
      refine ⟨by omega, hstop, fun k hk hlt => ?_⟩
      rcases Nat.lt_succ_iff_lt_or_eq.1 hlt with hlt | rfl
      · exact hnone k hk hlt
      · exact hn

/-- What the scan of the whole path finds is its last component. -/
theorem isBaseName_drop (path : Bytes) : IsBaseName path (path.drop (extractFileNameFrom path path.length)) := by
  obtain ⟨hle, hstop, hnone⟩ := extractFileNameFrom_spec path path.length
  generalize extractFileNameFrom path path.length = j at hle hstop hnone
  constructor
  · intro hmem
    obtain ⟨k, hk⟩ := List.mem_iff_getElem?.1 hmem
    rw [List.getElem?_drop] at hk
    exact hnone (j + k) (Nat.le_add_right j k) (List.getElem?_eq_some_iff.1 hk).1 hk
  · refine ⟨path.take j, (List.take_append_drop j path).symm, ?_⟩
    rcases hstop with rfl | hslash
    · exact .inl rfl
    · rcases Nat.eq_zero_or_pos j with rfl | hpos
      · exact .inl rfl
      · right
        rw [List.getLast?_eq_getElem?, List.length_take_of_le hle, List.getElem?_take_of_lt (by omega)]
        exact hslash

/-- In memory the scan stops where it stops on the list, and reads nothing outside the path. -/
theorem extractLoop_eq {n : Nat} (hn : n ≤ path.length) : extractLoop (pathMemory path) n = some (extractFileNameFrom path n) := by
  induction n with
  | zero => rfl
  | succ n ih =>
    have hlt : n < path.length := hn
    simp only [extractLoop, extractFileNameFrom, pathMemory_of_lt hlt, List.getElem?_eq_getElem hlt, Option.bind_eq_bind,
      Option.bind_some, Option.some.injEq, ih (Nat.le_of_lt hlt), apply_ite some]

theorem extractFileNameIn_eq (hlen : path.length < 2 ^ 31 - 1) :
    extractFileNameIn (pathMemory path) (path.length + 1) = some (some (extractFileNameFrom path path.length)) := by
  have hbmod : Int.bmod ((path.length + 1 : Nat) : Int) (2 ^ 32) = path.length + 1 := by
    rw [Int.bmod_eq_of_le] <;> omega
  unfold extractFileNameIn
  rw [hbmod, Int.add_sub_cancel]
  simp only [Int.toNat_natCast]
  rw [if_neg (by omega), extractLoop_eq (Nat.le_refl _), Option.map_some]

/-- A string and its terminator lie at the pointer. -/
def Holds (src : Memory) (s : Bytes) : Prop := (∀ i (hi : i < s.length), src i = some s[i]) ∧ src s.length = some 0

theorem holds_pathMemory {j : Nat} (hj : j ≤ path.length) : Holds ((pathMemory path).from j) (path.drop j) := by
  constructor
  · intro i hi
    have hlt : j + i < path.length := by
      rw [List.length_drop] at hi
      omega
    rw [List.getElem_drop]
    exact pathMemory_of_lt hlt
  · have hend : j + (path.drop j).length = path.length := by
      rw [List.length_drop]
      omega
    show pathMemory path ((j + (path.drop j).length : Nat) : Int) = some 0
    rw [hend]
    exact pathMemory_end

variable {src : Memory}

/-- The loop of `sstrncpy` stops at the terminator or after its last round, and reads no further. -/
theorem copyLength_eq (h : Holds src s) (hs : 0 ∉ s) {n dlen : Nat} (hd : dlen ≤ s.length) :
    copyLength src n dlen = some (min (dlen + n) s.length) := by
  induction n generalizing dlen with
  | zero =>
    rw [copyLength, Nat.add_zero, Nat.min_eq_left hd]
  | succ n ih =>
    rcases Nat.lt_or_eq_of_le hd with hlt | rfl
    · have hne : s[dlen] ≠ 0 := fun h0 => hs (h0 ▸ List.getElem_mem hlt)
      simp only [copyLength, h.1 dlen hlt, Option.bind_eq_bind, Option.bind_some, ne_eq, hne, not_false_eq_true, if_true]
      rw [ih hlt]
      congr 2
      omega
    · simp only [copyLength, h.2, Option.bind_eq_bind, Option.bind_some, ne_eq, not_true_eq_false, if_false]
      congr 1
      omega

theorem read_eq (h : Holds src s) {n : Nat} (hn : n ≤ s.length) : src.read n = some (s.take n) := by
  induction n with
  | zero => rfl
  | succ n ih =>
    have hprefix : (List.range n).mapM (fun i : Nat => src i) = some (s.take n) := ih (Nat.le_of_lt hn)
    simp only [Memory.read, List.range_succ, List.mapM_append, hprefix, List.mapM_cons, List.mapM_nil, h.1 n hn,
      Option.bind_eq_bind, Option.bind_some, Option.pure_def]
    rw [List.take_succ_eq_append_getElem hn]

/-- The array holds the string, cut to leave room for the terminator, and the terminator after it. -/
theorem sstrncpyIn_eq (h : Holds src s) (hs : 0 ∉ s) (dst : Bytes) (hpos : 0 < dst.length) :
    ∃ rest, sstrncpyIn dst src dst.length = some (s.take (dst.length - 1) ++ 0 :: rest) ∧
      (s.take (dst.length - 1) ++ 0 :: rest).length = dst.length := by
  unfold sstrncpyIn
  simp only [copyLength_eq h hs (Nat.zero_le _), Nat.zero_add, Option.bind_eq_bind, Option.bind_some,
    read_eq h (Nat.min_le_right dst.length s.length), Option.pure_def]
  rcases Nat.lt_or_ge s.length dst.length with hlt | hge
  · rw [Nat.min_eq_right (Nat.le_of_lt hlt), if_neg (by omega), List.take_length, List.take_of_length_le (by omega : s.length ≤ dst.length - 1)]
    obtain ⟨b, tail, htail⟩ : ∃ b tail, dst.drop s.length = b :: tail := List.exists_cons_of_ne_nil (by simpa using hlt)
    refine ⟨tail, ?_, ?_⟩
    · simp [overwrite, htail]
    · have := congrArg List.length htail
      simp only [List.length_drop, List.length_cons] at this
      simp only [List.length_append, List.length_cons]
      omega
  · rw [Nat.min_eq_left hge, if_pos rfl]
    refine ⟨[], ?_, ?_⟩
    · have hdrop : (s.take dst.length).drop (dst.length - 1 + 1) = [] := List.drop_eq_nil_of_le (by simp; omega)
      simp only [overwrite, List.take_zero, List.nil_append, List.length_take, Nat.min_eq_left hge, Nat.zero_add,
        List.drop_length, List.append_nil]
      rw [List.set_eq_take_append_cons_drop, if_pos (by rw [List.length_take]; omega), hdrop, List.take_take,
        Nat.min_eq_left (by omega)]
    · rw [List.length_append, List.length_take, List.length_singleton]
      omega

theorem sstrncpy_eq (hs : 0 ∉ s) {dsize : Nat} (hpos : 0 < dsize) : sstrncpy s dsize = s.take (dsize - 1) := by
  have hall : ∀ b ∈ s.take dsize, (decide (b ≠ 0)) = true := by
    intro b hb
    exact decide_eq_true (fun h0 => hs (h0 ▸ List.mem_of_mem_take hb))
  simp only [sstrncpy, List.takeWhile_eq_self_iff.2 hall, List.length_take]
  by_cases hlt : s.length < dsize
  · rw [if_neg (by omega), List.take_of_length_le (by omega), List.take_of_length_le (by omega)]
  · rw [if_pos (by omega)]

/-- A run of `start_file_stream` that succeeds has stored the file name. -/
theorem after_startFileStream (path : Bytes) (mode : Fmode) (s : Proc) :
    (startFileStream path mode s).After (fun _ s' stat => stat = .success →
      s'.conf.filec.name = sstrncpy (path.drop (extractFileNameFrom path path.length)) maxFileNameSize) := by
  unfold startFileStream
  refine after_check (P := fun _ _ _ => True) (Tree.after_self.mono fun _ _ _ _ => trivial) (fun _ _ _ _ hne h => absurd h hne)
    (fun _ s₁ _ => ?_)
  refine after_bind_of (P := fun _ _ _ => True) (Tree.after_self.mono fun _ _ _ _ => trivial) (fun _ s₂ mfile _ => ?_)
  refine after_ite (fun _ => after_pure nofun) (fun _ => after_setConf ?_)
  simp only [extractFileName, Nat.add_one_ne_zero, if_false, Nat.add_sub_cancel]
  exact after_setConf (fun _ => rfl)

end BaseNameAux

open BaseNameAux

/-- The file name that `start_file_stream` stores is the last component of the path, cut to 255 bytes. Over memory that holds the path
and its terminator and nothing else, `extract_file_name` finds that component and `sstrncpy` leaves it in the array with a terminator
after it: neither reads anything else. -/
theorem fileName_is_baseName (path : Bytes) (hnul : 0 ∉ path) (hlen : path.length < 2 ^ 31 - 1) :
    ∃ s, IsBaseName path s ∧ (∀ s', IsBaseName path s' → s' = s) ∧
      (∀ mode st tr st', Run (startFileStream path mode st) tr st' .success → st'.conf.filec.name = s.take 255) ∧
      ∃ dst : Nat, extractFileNameIn (pathMemory path) (path.length + 1) = some (some dst) ∧ path.drop dst = s ∧
        ∀ array : Bytes, array.length = maxFileNameSize →
          ∃ rest, sstrncpyIn array ((pathMemory path).from dst) maxFileNameSize = some (s.take 255 ++ 0 :: rest) ∧
            (s.take 255 ++ 0 :: rest).length = maxFileNameSize := by
  have hbase := isBaseName_drop path
  have hle := (extractFileNameFrom_spec path path.length).1
  have hs : 0 ∉ path.drop (extractFileNameFrom path path.length) := fun h => hnul (List.mem_of_mem_drop h)
  refine ⟨_, hbase, fun s' h' => h'.unique hbase, ?_, _, extractFileNameIn_eq hlen, rfl, ?_⟩
  · intro mode st tr st' hrun
    rw [Tree.after_iff.1 (after_startFileStream path mode st) tr st' .success hrun rfl, sstrncpy_eq hs (by decide)]
    rfl
  · intro array harray
    obtain ⟨rest, hcopy, hsize⟩ := sstrncpyIn_eq (holds_pathMemory hle) hs array (by rw [harray]; decide)
    rw [harray] at hcopy hsize
    exact ⟨rest, hcopy, hsize⟩

/-- The path `"a/b"`. -/
theorem fileName_is_baseName_ab : ∃ s, IsBaseName [97, 47, 98] s ∧ (∀ s', IsBaseName [97, 47, 98] s' → s' = s) ∧
    (∀ mode st tr st', Run (startFileStream [97, 47, 98] mode st) tr st' .success → st'.conf.filec.name = s.take 255) ∧
    ∃ dst : Nat, extractFileNameIn (pathMemory [97, 47, 98]) 4 = some (some dst) ∧ List.drop dst [97, 47, 98] = s ∧
      ∀ array : Bytes, array.length = maxFileNameSize →
        ∃ rest, sstrncpyIn array ((pathMemory [97, 47, 98]).from dst) maxFileNameSize = some (s.take 255 ++ 0 :: rest) ∧
          (s.take 255 ++ 0 :: rest).length = maxFileNameSize :=
  fileName_is_baseName [97, 47, 98] (by decide) (by decide)

/-- A trailing `'/'`: the file name is empty. -/
example : extractFileNameIn (pathMemory [97, 47]) 3 = some (some 2) := by decide

end RufShare
