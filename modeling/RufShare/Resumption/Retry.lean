import Mathlib.Data.List.Nodup

/-!
# Retries

Items are tried one after the other. An item is tried until it is accepted, and at most a number of times; then the next one is
tried, as often as the first could be, or everything is given up. A record has each try with whether the item was accepted.
-/

namespace Retry

variable {ι : Type} {i : ι} {items items' : List ι} {record record' : List (ι × Bool)} {t : Nat} {given given' : Option ι}

/-- The tries of one item that is allowed a number of them, and whether it is accepted in the end. -/
inductive Tried (i : ι) : Nat → List (ι × Bool) → Bool → Prop where
  | out : Tried i 0 [] false
  | accepted (n : Nat) : Tried i (n + 1) [(i, true)] true
  | refused {n : Nat} {record : List (ι × Bool)} {b : Bool} : Tried i n record b → Tried i (n + 1) ((i, false) :: record) b

/-- The tries of items that are each allowed `t` of them, and the item that is given up on, if there is one. -/
inductive Tries (t : Nat) : List ι → List (ι × Bool) → Option ι → Prop where
  | done : Tries t [] [] none
  | next {i : ι} {items : List ι} {record rest : List (ι × Bool)} {given : Option ι} : Tried i t record true →
      Tries t items rest given → Tries t (i :: items) (record ++ rest) given
  | out {i : ι} {record : List (ι × Bool)} (items : List ι) : Tried i t record false → Tries t (i :: items) record (some i)

/-- An item that is accepted was refused fewer times than it is allowed tries. -/
theorem tried_true_iff : Tried i t record true ↔ ∃ n < t, record = List.replicate n (i, false) ++ [(i, true)] := by
  constructor
  · intro h
    generalize hb : true = b at h
    induction h with
    | out => nomatch hb
    | accepted n => exact ⟨0, Nat.succ_pos n, rfl⟩
    | refused _ ih =>
      obtain ⟨n, hn, rfl⟩ := ih hb
      exact ⟨n + 1, Nat.succ_lt_succ hn, rfl⟩
  · rintro ⟨n, hn, rfl⟩
    induction n generalizing t with
    | zero =>
      obtain ⟨t, rfl⟩ := Nat.exists_eq_succ_of_ne_zero (Nat.ne_of_gt hn)
      exact .accepted t
    | succ n ih =>
      obtain ⟨t, rfl⟩ := Nat.exists_eq_succ_of_ne_zero (Nat.ne_of_gt (Nat.zero_lt_of_lt hn))
      exact .refused (ih (Nat.lt_of_succ_lt_succ hn))

/-- An item that is given up on was refused as often as it is allowed tries. -/
theorem tried_false_iff : Tried i t record false ↔ record = List.replicate t (i, false) := by
  constructor
  · intro h
    generalize hb : false = b at h
    induction h with
    | out => rfl
    | accepted n => nomatch hb
    | refused _ ih =>
      subst hb
      rw [ih rfl, List.replicate_succ]
  · rintro rfl
    induction t with
    | zero => exact .out
    | succ t ih => exact .refused ih

theorem Tries.append (h : Tries t items record none) (h' : Tries t items' record' given) :
    Tries t (items ++ items') (record ++ record') given := by
  generalize hnone : none = given₁ at h
  induction h with
  | done => exact h'
  | next hi _ ih =>
    rw [List.append_assoc]
    exact .next hi (ih hnone)
  | out _ _ => nomatch hnone

/-- What was given up stays so when there is more to try. -/
theorem Tries.stop (h : Tries t items record (some i)) (items' : List ι) : Tries t (items ++ items') record (some i) := by
  generalize hsome : some i = given at h
  induction h with
  | done => nomatch hsome
  | next hi _ ih => exact .next hi (ih hsome)
  | out items hi =>
    cases hsome
    exact .out _ hi

theorem Tries.mem_of_given (h : Tries t items record (some i)) : i ∈ items := by
  generalize hsome : some i = given at h
  induction h with
  | done => nomatch hsome
  | next _ _ ih => exact List.mem_cons_of_mem _ (ih hsome)
  | out items _ =>
    cases hsome
    exact List.mem_cons_self

section Answers

variable [DecidableEq ι]

/-- Whether each try of an item was accepted. -/
def answers (record : List (ι × Bool)) (i : ι) : List Bool := (record.filter (fun try' => try'.1 = i)).map Prod.snd

theorem answers_append (record record' : List (ι × Bool)) (i : ι) : answers (record ++ record') i = answers record i ++ answers record' i := by
  simp [answers]

theorem length_answers (record : List (ι × Bool)) (i : ι) : (answers record i).length = (record.map Prod.fst).count i := by
  rw [answers, List.length_map, List.count, List.countP_map, List.countP_eq_length_filter]
  rfl

/-- One item's tries are its own. -/
theorem Tried.answers_self {b : Bool} (h : Tried i t record b) : answers record i = record.map Prod.snd := by
  induction h with
  | out => rfl
  | accepted n => simp [answers]
  | refused _ ih => simpa [answers] using ih

theorem Tried.answers_ne {b : Bool} (h : Tried i t record b) {j : ι} (hne : i ≠ j) : answers record j = [] := by
  induction h with
  | out => rfl
  | accepted n => simp [answers, hne]
  | refused _ ih => simpa [answers, hne] using ih

theorem Tries.answers_nil (h : Tries t items record given) (hi : i ∉ items) : answers record i = [] := by
  induction h with
  | done => rfl
  | next htried _ ih =>
    rw [List.mem_cons, not_or] at hi
    rw [answers_append, htried.answers_ne (Ne.symm hi.1), ih hi.2, List.append_nil]
  | out items htried => exact htried.answers_ne (fun h => hi (h ▸ List.mem_cons_self))

/-- An item is given up on after `t` refusals, or accepted after fewer, or not tried because another is given up on. -/
theorem Tries.answers_cases (h : Tries t items record given) (hnodup : items.Nodup) (i : ι) :
    (given = some i ∧ answers record i = List.replicate t false) ∨
    (given ≠ some i ∧ ∃ n < t, answers record i = List.replicate n false ++ [true]) ∨
    (given ≠ some i ∧ answers record i = [] ∧ (i ∈ items → given ≠ none)) := by
  induction h with
  | done => exact .inr (.inr ⟨nofun, rfl, fun h => absurd h List.not_mem_nil⟩)
  | @next j items record rest given htried hrest ih =>
    obtain ⟨hj, hnodup⟩ := List.nodup_cons.1 hnodup
    rw [answers_append]
    by_cases hi : j = i
    · subst hi
      rw [hrest.answers_nil hj, List.append_nil, htried.answers_self]
      obtain ⟨n, hn, rfl⟩ := tried_true_iff.1 htried
      refine .inr (.inl ⟨?_, n, hn, by simp⟩)
      rintro rfl
      exact hj hrest.mem_of_given
    · rw [htried.answers_ne hi, List.nil_append, List.mem_cons]
      rcases ih hnodup with hgiven | haccepted | ⟨hne, hnil, hmem⟩
      · exact .inl hgiven
      · exact .inr (.inl haccepted)
      · exact .inr (.inr ⟨hne, hnil, fun h => hmem (h.resolve_left (Ne.symm hi))⟩)
  | @out j record items htried =>
    by_cases hi : j = i
    · subst hi
      refine .inl ⟨rfl, ?_⟩
      rw [htried.answers_self, tried_false_iff.1 htried, List.map_replicate]
    · exact .inr (.inr ⟨fun h => hi (Option.some.inj h), htried.answers_ne hi, fun _ => nofun⟩)

/-- No item is tried more often than it is allowed to be. -/
theorem Tries.count_le (h : Tries t items record given) (hnodup : items.Nodup) (i : ι) : (record.map Prod.fst).count i ≤ t := by
  rw [← length_answers]
  rcases h.answers_cases hnodup i with ⟨_, h⟩ | ⟨_, n, hn, h⟩ | ⟨_, h, _⟩
  · rw [h]
    exact Nat.le_of_eq List.length_replicate
  · rw [h, List.length_append, List.length_replicate]
    exact hn
  · rw [h]
    exact Nat.zero_le t

/-- An item is given up on exactly when it is refused `t` times in a row. -/
theorem Tries.given_iff (h : Tries t items record given) (hnodup : items.Nodup) (ht : 0 < t) :
    given = some i ↔ List.replicate t false <:+: answers record i := by
  have hcount (hsub : List.replicate t false <:+: answers record i) : t ≤ (answers record i).count false := by
    have hle := hsub.sublist.count_le false
    rwa [List.count_replicate_self] at hle
  rcases h.answers_cases hnodup i with ⟨hgiven, h⟩ | ⟨hgiven, n, hn, h⟩ | ⟨hgiven, h, _⟩
  · rw [h]
    exact iff_of_true hgiven (List.infix_rfl)
  · refine iff_of_false hgiven fun hsub => ?_
    have hle := hcount hsub
    rw [h, List.count_append, List.count_replicate_self] at hle
    exact absurd hle (Nat.not_le.2 hn)
  · refine iff_of_false hgiven fun hsub => ?_
    have hle := hcount hsub
    rw [h] at hle
    exact absurd hle (Nat.not_le.2 ht)

/-- None is given up on exactly when each is accepted before its last try or at it. -/
theorem Tries.none_iff (h : Tries t items record given) (hnodup : items.Nodup) :
    given = none ↔ ∀ i ∈ items, ∃ n < t, answers record i = List.replicate n false ++ [true] := by
  constructor
  · rintro rfl i hi
    rcases h.answers_cases hnodup i with ⟨hgiven, _⟩ | ⟨_, haccepted⟩ | ⟨_, _, hmem⟩
    · nomatch hgiven
    · exact haccepted
    · exact absurd rfl (hmem hi)
  · intro hall
    cases given with
    | none => rfl
    | some i =>
      obtain ⟨n, _, haccepted⟩ := hall i h.mem_of_given
      rcases h.answers_cases hnodup i with ⟨_, hrefused⟩ | ⟨hne, _⟩ | ⟨hne, _⟩
      · have hmem : true ∈ List.replicate t false := by
          rw [← hrefused, haccepted]
          simp
        exact absurd (List.eq_of_mem_replicate hmem) nofun
      · exact absurd rfl hne
      · exact absurd rfl hne

end Answers

end Retry
