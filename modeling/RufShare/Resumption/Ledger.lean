import Mathlib.Algebra.Order.Group.Multiset

/-!
# Ledgers

Of a record of events, some acquire a resource and some release one. Replayed from what is held at its start, the record says what is
held at its end; it cannot be replayed past the release of something that is not held. Records are put together by `Moves`, which says
what a record does to what it needs and leaves everything else.
-/

namespace Ledger

/-- What an event does. -/
inductive Effect (R : Type) where
  | acquire (r : R)
  | release (r : R)

variable {E R : Type} [DecidableEq R] (effect : E → Option (Effect R))

/-- What is held after an event. -/
def step (held : Multiset R) (e : E) : Option (Multiset R) :=
  match effect e with
  | none => some held
  | some (.acquire r) => some ({r} + held)
  | some (.release r) => if r ∈ held then some (held.erase r) else none

/-- What is held after a record. -/
def replay (held : Multiset R) (record : List E) : Option (Multiset R) := record.foldlM (step effect) held

/-- The record turns `a` into `b`, whatever else is held. -/
def Moves (a : Multiset R) (record : List E) (b : Multiset R) : Prop := ∀ held, replay effect (a + held) record = some (b + held)

variable {effect} {a b c : Multiset R} {record record' : List E}

theorem step_quiet {e : E} (h : effect e = none) (held : Multiset R) : step effect held e = some held := by
  rw [step, h]

theorem step_acquire {e : E} {r : R} (h : effect e = some (.acquire r)) (held : Multiset R) :
    step effect held e = some ({r} + held) := by
  rw [step, h]

theorem step_release {e : E} {r : R} (h : effect e = some (.release r)) (held : Multiset R) :
    step effect ({r} + held) e = some held := by
  rw [step, h, Multiset.singleton_add]
  simp

theorem step_stuck {e : E} {r : R} (h : effect e = some (.release r)) {held : Multiset R} (hnot : r ∉ held) :
    step effect held e = none := by
  rw [step, h]
  exact if_neg hnot

theorem replay_cons (held : Multiset R) (e : E) (record : List E) : replay effect held (e :: record) =
    (step effect held e).bind (fun held => replay effect held record) := List.foldlM_cons

theorem replay_append (held : Multiset R) (record record' : List E) : replay effect held (record ++ record') =
    (replay effect held record).bind (fun held => replay effect held record') := List.foldlM_append

/-- Without an acquisition no more is held. -/
theorem le_of_replay {held held' : Multiset R} (h : ∀ e ∈ record, ∀ r, effect e ≠ some (.acquire r))
    (hreplay : replay effect held record = some held') : held' ≤ held := by
  induction record generalizing held with
  | nil => exact (Option.some.inj hreplay).symm.le
  | cons e record ih =>
    rw [List.forall_mem_cons] at h
    rw [replay_cons] at hreplay
    obtain ⟨next, hstep, hrest⟩ := Option.bind_eq_some_iff.1 hreplay
    refine (ih h.2 hrest).trans ?_
    unfold step at hstep
    split at hstep
    · exact (Option.some.inj hstep).symm.le
    · rename_i r hr
      exact absurd hr (h.1 r)
    · split at hstep
      · rw [← Option.some.inj hstep]
        exact Multiset.erase_le _ _
      · nomatch hstep

/-- A record that releases a resource and acquires none leaves less of it. -/
theorem replay_release_ne {held before : Multiset R} (h : replay effect held record = some before) {e : E} {r : R}
    (he : effect e = some (.release r)) (hcount : before.count r = held.count r) {rest : List E}
    (hrest : ∀ e ∈ rest, ∀ r, effect e ≠ some (.acquire r)) : replay effect held (record ++ e :: rest) ≠ some held := by
  intro hall
  rw [replay_append, h, Option.bind_some, replay_cons] at hall
  by_cases hmem : r ∈ before
  · have hstep : step effect before e = some (before.erase r) := by
      rw [step, he]
      exact if_pos hmem
    rw [hstep] at hall
    have hle := Multiset.count_le_of_le r (le_of_replay hrest hall)
    rw [Multiset.count_erase_self, hcount] at hle
    have hpos := Multiset.count_pos.2 hmem
    omega
  · rw [step_stuck he hmem] at hall
    nomatch hall

theorem Moves.append (h : Moves effect a record b) (h' : Moves effect b record' c) : Moves effect a (record ++ record') c := by
  intro held
  rw [replay_append, h held]
  exact h' held

theorem Moves.flatten {records : List (List E)} (h : ∀ record ∈ records, Moves effect a record a) : Moves effect a records.flatten a := by
  intro held
  induction records with
  | nil => rfl
  | cons record records ih =>
    rw [List.forall_mem_cons] at h
    rw [List.flatten_cons, replay_append, h.1 held]
    exact ih h.2

/-- Something more that is held stays. -/
theorem Moves.frame (h : Moves effect a record b) (c : Multiset R) : Moves effect (a + c) record (b + c) := by
  intro held
  rw [add_assoc, add_assoc]
  exact h (c + held)

/-- What is held besides nothing. -/
theorem Moves.replayed (h : Moves effect a record b) : replay effect a record = some b := by
  simpa using h 0

theorem Moves.nil (a : Multiset R) : Moves effect a [] a := fun _ => rfl

/-- A record without acquisitions and releases. -/
theorem Moves.quiet (h : ∀ e ∈ record, effect e = none) (a : Multiset R) : Moves effect a record a := by
  intro held
  induction record with
  | nil => rfl
  | cons e record ih =>
    rw [List.forall_mem_cons] at h
    rw [replay_cons, step_quiet h.1]
    exact ih h.2

theorem Moves.quiet_cons {e : E} (h : effect e = none) (h' : Moves effect a record b) : Moves effect a (e :: record) b := by
  intro held
  rw [replay_cons, step_quiet h]
  exact h' held

theorem Moves.acquire {e : E} {r : R} (h : effect e = some (.acquire r)) (a : Multiset R) : Moves effect a [e] ({r} + a) := by
  intro held
  rw [add_assoc, replay_cons, step_acquire h]
  rfl

theorem Moves.acquire_cons {e : E} {r : R} (h : effect e = some (.acquire r)) (h' : Moves effect ({r} + a) record b) :
    Moves effect a (e :: record) b := (Moves.acquire h a).append h'

theorem Moves.release {e : E} {r : R} (h : effect e = some (.release r)) (a : Multiset R) : Moves effect ({r} + a) [e] a := by
  intro held
  rw [add_assoc, replay_cons, step_release h]
  rfl

end Ledger
