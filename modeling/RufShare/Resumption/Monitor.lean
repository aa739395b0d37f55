import RufShare.Resumption.Run

/-!
# Monitors

A monitor watches the calls of a program: it says what the program owes at each call, what it may assume of the answer, and
how the monitor's own state moves. `Tree.Sat` says a tree keeps its side as long as the answers keep theirs.
-/

namespace Resumption

/-- A monitor with states in `V`. `hold` is owed wherever the program stands between calls, `guar` at a call, and `rely` is what
an answer may be assumed to satisfy. -/
structure Monitor (σ : Type) {E : Type} (R : E → Type) (V : Type) where
  hold : V → σ → Prop
  guar : V → σ → E → Prop
  rely : V → σ → (e : E) → R e → Prop
  next : V → σ → (e : E) → R e → V

variable {σ E : Type} {R : E → Type} {V : Type} {α β : Type} {M : Monitor σ R V}

/-- The tree keeps `hold` and `guar` at every call it reaches under `rely`, and returns only where `Q` holds. -/
def Tree.Sat (M : Monitor σ R V) : Tree σ R α → V → (V → σ → α → Prop) → Prop
  | .ret s a, v, Q => Q v s a
  | .cut s, v, _ => M.hold v s
  | .call s e k, v, Q => M.hold v s ∧ M.guar v s e ∧ ∀ r, M.rely v s e r → (k r).Sat M (M.next v s e r) Q

/-- A stronger postcondition gives a weaker one. -/
theorem Tree.Sat.mono {t : Tree σ R α} {v : V} {Q Q' : V → σ → α → Prop} (h : t.Sat M v Q)
    (hQ : ∀ v s a, Q v s a → Q' v s a) : t.Sat M v Q' := by
  induction t generalizing v with
  | ret s a => exact hQ v s a h
  | cut s => exact h
  | call s e k ih =>
    obtain ⟨hh, hg, hk⟩ := h
    exact ⟨hh, hg, fun r hr => ih r (hk r hr)⟩

/-- A sequence keeps its side when its first part does and the second does from wherever the first returns. -/
theorem Tree.sat_bind {t : Tree σ R α} {f : σ → α → Tree σ R β} {v : V} {Q : V → σ → β → Prop} :
    (t.bind f).Sat M v Q ↔ t.Sat M v (fun v s a => (f s a).Sat M v Q) := by
  induction t generalizing v with
  | ret s a => rfl
  | cut s => rfl
  | call s e k ih =>
    constructor
    · rintro ⟨hh, hg, hk⟩
      exact ⟨hh, hg, fun r hr => (ih r).1 (hk r hr)⟩
    · rintro ⟨hh, hg, hk⟩
      exact ⟨hh, hg, fun r hr => (ih r).2 (hk r hr)⟩

/-- Two monitors of one program. -/
def Monitor.prod {V' : Type} (M : Monitor σ R V) (M' : Monitor σ R V') : Monitor σ R (V × V') where
  hold v s := M.hold v.1 s ∧ M'.hold v.2 s
  guar v s e := M.guar v.1 s e ∧ M'.guar v.2 s e
  rely v s e r := M.rely v.1 s e r ∧ M'.rely v.2 s e r
  next v s e r := (M.next v.1 s e r, M'.next v.2 s e r)

/-- A program that keeps its side of two monitors keeps its side of both together. -/
theorem Tree.Sat.prod {V' : Type} {M' : Monitor σ R V'} {t : Tree σ R α} {v : V} {v' : V'} {Q : V → σ → α → Prop}
    {Q' : V' → σ → α → Prop} (h : t.Sat M v Q) (h' : t.Sat M' v' Q') :
    t.Sat (M.prod M') (v, v') (fun v s a => Q v.1 s a ∧ Q' v.2 s a) := by
  induction t generalizing v v' with
  | ret s a => exact ⟨h, h'⟩
  | cut s => exact ⟨h, h'⟩
  | call s e k ih =>
    obtain ⟨hhold, hguar, hk⟩ := h
    obtain ⟨hhold', hguar', hk'⟩ := h'
    exact ⟨⟨hhold, hhold'⟩, ⟨hguar, hguar'⟩, fun r hr => ih r (hk r hr.1) (hk' r hr.2)⟩

/-- What a step of a monitor keeps of its state and the history of calls holds along every path whose events satisfy `P`. -/
theorem Tree.Sat.history {I : V → List (Event σ R) → Prop} {P : Event σ R → Prop}
    (hstep : ∀ v tr s e r, I v tr → M.hold v s → M.guar v s e → P ⟨s, e, r⟩ →
      M.rely v s e r ∧ I (M.next v s e r) (tr ++ [⟨s, e, r⟩]))
    {t t' : Tree σ R α} {v : V} {Q : V → σ → α → Prop} {hist tr : List (Event σ R)} (h : t.Sat M v Q) (hI : I v hist)
    (hp : Path t tr t') (hP : ∀ e ∈ tr, P e) : ∃ v', I v' (hist ++ tr) ∧ t'.Sat M v' Q := by
  induction hp generalizing v hist with
  | stop t =>
    rw [List.append_nil]
    exact ⟨v, hI, h⟩
  | @call s e k r tr t _ ih =>
    obtain ⟨hh, hg, hk⟩ := h
    rw [List.forall_mem_cons] at hP
    obtain ⟨hrely, hI'⟩ := hstep v hist s e r hI hh hg hP.1
    have := ih (hk r hrely) hI' hP.2
    rwa [List.append_assoc] at this

/-- A tree all of whose calls are allowed and leave the monitor where it is keeps its side, and returns with the monitor there. -/
theorem Tree.Always.sat {P : σ → E → Prop} {I : σ → Prop} {t : Tree σ R α} {v : V} (h : t.Always P I) (hhold : ∀ s, M.hold v s)
    (hP : ∀ s e, P s e → M.guar v s e ∧ ∀ r, M.next v s e r = v) : t.Sat M v (fun v' s _ => v' = v ∧ I s) := by
  induction t with
  | ret s a => exact ⟨rfl, h⟩
  | cut s => exact hhold s
  | call s e k ih =>
    obtain ⟨hguar, hnext⟩ := hP s e h.1
    refine ⟨hhold s, hguar, fun r _ => ?_⟩
    rw [hnext r]
    exact ih r (h.2 r)

end Resumption
