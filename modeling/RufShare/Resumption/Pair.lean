import Mathlib.Logic.Relation
import RufShare.Resumption.Monitor

/-!
# Two programs side by side

A pair is two residuals and the medium between them. A step lets one side make its pending call, if the medium answers it.
What the medium may answer to which side, and how it changes, is the relation `A`; it sees the call the other side waits on, so
that a medium can tell a side that is busy from one that waits.
-/

namespace Resumption

/-- Which of the two programs. -/
inductive Side where
  | left
  | right
  deriving DecidableEq, Repr

/-- Two residuals and the medium between them. -/
structure Pair (σ : Type) {E : Type} (R : E → Type) (α W : Type) where
  left : Tree σ R α
  right : Tree σ R α
  med : W

/-- How a medium with states in `W` answers: the side that calls, the call the other side waits on (if it has not ended), the
state of the caller, the call, the answer and the medium after it. -/
abbrev Medium (σ : Type) {E : Type} (R : E → Type) (W : Type) : Type :=
  Side → Option E → W → σ → (e : E) → R e → W → Prop

variable {σ E : Type} {R : E → Type} {α W V V' : Type} {A : Medium σ R W}

/-- One side makes its pending call. -/
inductive Pair.Step (A : Medium σ R W) : Pair σ R α W → Pair σ R α W → Prop where
  | left {s : σ} {e : E} {k : R e → Tree σ R α} {t : Tree σ R α} {w w' : W} {r : R e} :
      A .left t.pending w s e r w' → Step A ⟨.call s e k, t, w⟩ ⟨k r, t, w'⟩
  | right {s : σ} {e : E} {k : R e → Tree σ R α} {t : Tree σ R α} {w w' : W} {r : R e} :
      A .right t.pending w s e r w' → Step A ⟨t, .call s e k, w⟩ ⟨t, k r, w'⟩

/-- Any number of steps. -/
abbrev Pair.Reaches (A : Medium σ R W) : Pair σ R α W → Pair σ R α W → Prop := Relation.ReflTransGen (Pair.Step A)

/-- The joint state of two monitored programs: each keeps its side, and `J` relates their monitors and the medium. -/
def Pair.Joint (M : Monitor σ R V) (M' : Monitor σ R V') (Q : V → σ → α → Prop) (Q' : V' → σ → α → Prop)
    (J : V → V' → W → Prop) (p : Pair σ R α W) : Prop :=
  ∃ v v', J v v' p.med ∧ p.left.Sat M v Q ∧ p.right.Sat M' v' Q'

section Joint

variable {M : Monitor σ R V} {M' : Monitor σ R V'} {Q : V → σ → α → Prop} {Q' : V' → σ → α → Prop}
  {J : V → V' → W → Prop}

/-- One step keeps the joint state, when whatever the medium answers a side that keeps its part may be relied on and leaves `J`
true of the monitors and the medium after it. -/
theorem Pair.Joint.step
    (hl : ∀ v v' w b s e r w', J v v' w → M.hold v s → M.guar v s e → A .left b w s e r w' →
      M.rely v s e r ∧ J (M.next v s e r) v' w')
    (hr : ∀ v v' w b s e r w', J v v' w → M'.hold v' s → M'.guar v' s e → A .right b w s e r w' →
      M'.rely v' s e r ∧ J v (M'.next v' s e r) w')
    {p q : Pair σ R α W} (h : p.Joint M M' Q Q' J) (hs : Pair.Step A p q) : q.Joint M M' Q Q' J := by
  obtain ⟨v, v', hJ, hL, hR⟩ := h
  cases hs with
  | left ha =>
    obtain ⟨hh, hg, hk⟩ := hL
    obtain ⟨hrely, hJ'⟩ := hl _ _ _ _ _ _ _ _ hJ hh hg ha
    exact ⟨_, _, hJ', hk _ hrely, hR⟩
  | right ha =>
    obtain ⟨hh, hg, hk⟩ := hR
    obtain ⟨hrely, hJ'⟩ := hr _ _ _ _ _ _ _ _ hJ hh hg ha
    exact ⟨_, _, hJ', hL, hk _ hrely⟩

/-- So does any run. -/
theorem Pair.Joint.reaches
    (hl : ∀ v v' w b s e r w', J v v' w → M.hold v s → M.guar v s e → A .left b w s e r w' →
      M.rely v s e r ∧ J (M.next v s e r) v' w')
    (hr : ∀ v v' w b s e r w', J v v' w → M'.hold v' s → M'.guar v' s e → A .right b w s e r w' →
      M'.rely v' s e r ∧ J v (M'.next v' s e r) w')
    {p q : Pair σ R α W} (h : p.Joint M M' Q Q' J) (hs : Pair.Reaches A p q) : q.Joint M M' Q Q' J := by
  induction hs with
  | refl => exact h
  | tail _ hs ih => exact ih.step hl hr hs

end Joint

/-! ## Playing a pair -/

/-- The sides make their calls in the order of the list, and `env` answers where `ok` says it may. -/
def Pair.follow (env : Side → W → σ → (e : E) → R e × W) (ok : Side → W → σ → E → Bool) :
    List Side → Pair σ R α W → Option (Pair σ R α W)
  | [], p => some p
  | .left :: sides, ⟨.call s e k, t, w⟩ =>
    if ok .left w s e then follow env ok sides ⟨k (env .left w s e).1, t, (env .left w s e).2⟩ else none
  | .right :: sides, ⟨t, .call s e k, w⟩ =>
    if ok .right w s e then follow env ok sides ⟨t, k (env .right w s e).1, (env .right w s e).2⟩ else none
  | _ :: _, _ => none

/-- Playing a pair is one of its runs. -/
theorem Pair.reaches_follow {env : Side → W → σ → (e : E) → R e × W} {ok : Side → W → σ → E → Bool}
    (hok : ∀ side b w s e, ok side w s e = true → A side b w s e (env side w s e).1 (env side w s e).2) {sides : List Side}
    {p q : Pair σ R α W} (h : p.follow env ok sides = some q) : Pair.Reaches A p q := by
  induction sides generalizing p with
  | nil =>
    obtain rfl := Option.some.inj h
    exact .refl
  | cons side sides ih =>
    obtain ⟨l, r, w⟩ := p
    cases side with
    | left =>
      cases l with
      | call s e k =>
        simp only [follow] at h
        split at h
        · exact .head (.left (hok _ _ _ _ _ ‹_›)) (ih h)
        · nomatch h
      | ret s a => nomatch h
      | cut s => nomatch h
    | right =>
      cases r with
      | call s e k =>
        cases l <;> simp only [follow] at h <;> split at h
        all_goals first | exact .head (.right (hok _ _ _ _ _ ‹_›)) (ih h) | nomatch h
      | ret s a => cases l <;> nomatch h
      | cut s => cases l <;> nomatch h

end Resumption
