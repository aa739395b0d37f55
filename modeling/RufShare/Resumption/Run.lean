import RufShare.Resumption.Tree

/-!
# Runs

A run of a tree is the list of its calls with the answers they got, from the first call to the return. The environment is
whatever gave the answers: a statement about every run is a statement about every environment.
-/

namespace Resumption

variable {σ E : Type} {R : E → Type} {α β : Type}

/-- One call of a run: the state it was made in, the call and the answer. -/
structure Event (σ : Type) {E : Type} (R : E → Type) where
  state : σ
  call : E
  answer : R call

/-- `Run t tr s a`: answered as `tr` records, `t` returns `a` in the state `s`. -/
inductive Run : Tree σ R α → List (Event σ R) → σ → α → Prop where
  | ret (s : σ) (a : α) : Run (.ret s a) [] s a
  | call {s s' : σ} {e : E} {k : R e → Tree σ R α} {r : R e} {tr : List (Event σ R)} {a : α} :
      Run (k r) tr s' a → Run (.call s e k) (⟨s, e, r⟩ :: tr) s' a

theorem run_ret_iff {s s' : σ} {a b : α} {tr : List (Event σ R)} :
    Run (.ret s a) tr s' b ↔ tr = [] ∧ s' = s ∧ b = a := by
  constructor
  · intro h
    cases h
    exact ⟨rfl, rfl, rfl⟩
  · rintro ⟨rfl, rfl, rfl⟩
    exact .ret _ _

theorem not_run_cut {s s' : σ} {b : α} {tr : List (Event σ R)} : ¬Run (.cut s) tr s' b := nofun

theorem run_call_iff {s s' : σ} {e : E} {k : R e → Tree σ R α} {b : α} {tr : List (Event σ R)} :
    Run (.call s e k) tr s' b ↔ ∃ r tr', tr = ⟨s, e, r⟩ :: tr' ∧ Run (k r) tr' s' b := by
  constructor
  · intro h
    cases h with
    | call h => exact ⟨_, _, rfl, h⟩
  · rintro ⟨r, tr', rfl, h⟩
    exact .call h

/-- A run of a sequence is a run of its first part followed by a run of its second. -/
theorem run_bind_iff {t : Tree σ R α} {f : σ → α → Tree σ R β} {tr : List (Event σ R)} {s : σ} {b : β} :
    Run (t.bind f) tr s b ↔ ∃ tr₁ tr₂ s₁ a, tr = tr₁ ++ tr₂ ∧ Run t tr₁ s₁ a ∧ Run (f s₁ a) tr₂ s b := by
  induction t generalizing tr with
  | ret s₀ a =>
    constructor
    · intro h
      exact ⟨[], tr, s₀, a, rfl, .ret _ _, h⟩
    · rintro ⟨tr₁, tr₂, s₁, a', rfl, h₁, h₂⟩
      obtain ⟨rfl, rfl, rfl⟩ := run_ret_iff.1 h₁
      exact h₂
  | cut s₀ =>
    constructor
    · intro h
      exact absurd h not_run_cut
    · rintro ⟨_, _, _, _, _, h, _⟩
      exact absurd h not_run_cut
  | call s₀ e k ih =>
    simp only [Tree.bind_call, run_call_iff]
    constructor
    · rintro ⟨r, tr', rfl, h⟩
      obtain ⟨tr₁, tr₂, s₁, a, rfl, h₁, h₂⟩ := (ih r).1 h
      exact ⟨⟨s₀, e, r⟩ :: tr₁, tr₂, s₁, a, rfl, ⟨r, tr₁, rfl, h₁⟩, h₂⟩
    · rintro ⟨tr₁, tr₂, s₁, a, rfl, ⟨r, tr', rfl, h₁⟩, h₂⟩
      exact ⟨r, tr' ++ tr₂, rfl, (ih r).2 ⟨tr', tr₂, s₁, a, rfl, h₁, h₂⟩⟩

/-- Two runs of a tree with the same answers end alike. -/
theorem Run.functional {t : Tree σ R α} {tr : List (Event σ R)} {s s' : σ} {a a' : α} (h : Run t tr s a)
    (h' : Run t tr s' a') : s = s' ∧ a = a' := by
  induction h with
  | ret s a =>
    obtain ⟨-, rfl, rfl⟩ := run_ret_iff.1 h'
    exact ⟨rfl, rfl⟩
  | call _ ih =>
    obtain ⟨r, tr', e, h''⟩ := run_call_iff.1 h'
    cases e
    exact ih h''

/-- `Path t tr t'`: answered as `tr` records, `t` comes to the residual `t'`. A run is a path to a return; a path may also stop
anywhere before. -/
inductive Path : Tree σ R α → List (Event σ R) → Tree σ R α → Prop where
  | stop (t : Tree σ R α) : Path t [] t
  | call {s : σ} {e : E} {k : R e → Tree σ R α} {r : R e} {tr : List (Event σ R)} {t : Tree σ R α} :
      Path (k r) tr t → Path (.call s e k) (⟨s, e, r⟩ :: tr) t

theorem Run.path {t : Tree σ R α} {tr : List (Event σ R)} {s : σ} {a : α} (h : Run t tr s a) : Path t tr (.ret s a) := by
  induction h with
  | ret s a => exact .stop _
  | call _ ih => exact .call ih

/-! ## What every run comes to -/

/-- Every run of the tree ends with its events, its last state and its result in `Q`. -/
def Tree.After : Tree σ R α → (List (Event σ R) → σ → α → Prop) → Prop
  | .ret s a, Q => Q [] s a
  | .cut _, _ => True
  | .call s e k, Q => ∀ r, (k r).After (fun tr s' a => Q (⟨s, e, r⟩ :: tr) s' a)

section After

variable {t : Tree σ R α} {Q Q' : List (Event σ R) → σ → α → Prop}

theorem Tree.after_iff : t.After Q ↔ ∀ tr s a, Run t tr s a → Q tr s a := by
  induction t generalizing Q with
  | ret s a =>
    constructor
    · intro h tr s' b hr
      obtain ⟨rfl, rfl, rfl⟩ := run_ret_iff.1 hr
      exact h
    · intro h
      exact h _ _ _ (.ret s a)
  | cut s =>
    constructor
    · intro _ tr s' b hr
      exact absurd hr not_run_cut
    · intro _
      trivial
  | call s e k ih =>
    constructor
    · intro h tr s' b hr
      obtain ⟨r, tr', rfl, hr'⟩ := run_call_iff.1 hr
      exact (ih r).1 (h r) _ _ _ hr'
    · intro h r
      exact (ih r).2 (fun tr s' b hr => h _ _ _ (.call hr))

theorem Tree.after_self : t.After (Run t) := after_iff.2 (fun _ _ _ h => h)

theorem Tree.After.mono (h : t.After Q) (hQ : ∀ tr s a, Q tr s a → Q' tr s a) : t.After Q' := by
  rw [after_iff] at h ⊢
  exact fun tr s a hr => hQ tr s a (h tr s a hr)

theorem Tree.After.and (h : t.After Q) (h' : t.After Q') : t.After (fun tr s a => Q tr s a ∧ Q' tr s a) := by
  rw [after_iff] at h h' ⊢
  exact fun tr s a hr => ⟨h tr s a hr, h' tr s a hr⟩

/-- The events of a sequence are those of its first part and then those of its second. -/
theorem Tree.after_bind {f : σ → α → Tree σ R β} {Q : List (Event σ R) → σ → β → Prop} :
    (t.bind f).After Q ↔ t.After (fun tr s a => (f s a).After (fun tr' s' b => Q (tr ++ tr') s' b)) := by
  induction t generalizing Q with
  | ret s a => rfl
  | cut s => rfl
  | call s e k ih => exact forall_congr' (fun r => ih r)

end After

/-- Every call of the tree is in `P`, on whatever branch, and it returns only in `I`. -/
def Tree.Always (P : σ → E → Prop) (I : σ → Prop) : Tree σ R α → Prop
  | .ret s _ => I s
  | .cut _ => True
  | .call s e k => P s e ∧ ∀ r, (k r).Always P I

section Always

variable {P : σ → E → Prop} {I J : σ → Prop} {t : Tree σ R α}

theorem Tree.Always.bind {f : σ → α → Tree σ R β} (ht : t.Always P J) (hf : ∀ s a, J s → (f s a).Always P I) :
    (t.bind f).Always P I := by
  induction t with
  | ret s a => exact hf s a ht
  | cut s => trivial
  | call s e k ih => exact ⟨ht.1, fun r => ih r (ht.2 r)⟩

theorem Tree.Always.mono {P' : σ → E → Prop} (h : t.Always P I) (hP : ∀ s e, P s e → P' s e) : t.Always P' I := by
  induction t with
  | ret s a => exact h
  | cut s => trivial
  | call s e k ih => exact ⟨hP s e h.1, fun r => ih r (h.2 r)⟩

/-- What holds on every branch holds along every run. -/
theorem Tree.Always.after (h : t.Always P I) : t.After (fun tr s _ => I s ∧ ∀ e ∈ tr, P e.state e.call) := by
  induction t with
  | ret s a => exact ⟨h, by simp⟩
  | cut s => trivial
  | call s e k ih =>
    intro r
    refine (ih r (h.2 r)).mono ?_
    rintro tr s' a ⟨hI, hP⟩
    exact ⟨hI, List.forall_mem_cons.2 ⟨h.1, hP⟩⟩

/-- Also along a path that stops anywhere. -/
theorem Tree.Always.path {tr : List (Event σ R)} {t' : Tree σ R α} (h : t.Always P I) (hp : Path t tr t') :
    ∀ e ∈ tr, P e.state e.call := by
  induction hp with
  | stop t => exact List.forall_mem_nil _
  | call _ ih => exact List.forall_mem_cons.2 ⟨h.1, ih (h.2 _)⟩

end Always

/-! ## Cut paths -/

/-- Every run of the tree ends with its events, its last state and its result in `Q`, and every path to a cut has its events in `C`. -/
def Tree.Ends : Tree σ R α → (List (Event σ R) → σ → α → Prop) → (List (Event σ R) → Prop) → Prop
  | .ret s a, Q, _ => Q [] s a
  | .cut _, _, C => C []
  | .call s e k, Q, C => ∀ r, (k r).Ends (fun tr s' a => Q (⟨s, e, r⟩ :: tr) s' a) (fun tr => C (⟨s, e, r⟩ :: tr))

section Ends

variable {t : Tree σ R α} {Q Q' : List (Event σ R) → σ → α → Prop} {C C' : List (Event σ R) → Prop}

theorem Tree.Ends.after (h : t.Ends Q C) : t.After Q := by
  induction t generalizing Q C with
  | ret s a => exact h
  | cut s => trivial
  | call s e k ih => exact fun r => ih r (h r)

theorem Tree.Ends.cut {tr : List (Event σ R)} {s : σ} (h : t.Ends Q C) (hp : Path t tr (.cut s)) : C tr := by
  induction t generalizing Q C tr with
  | ret s₀ a => nomatch hp
  | cut s₀ =>
    cases hp
    exact h
  | call s₀ e k ih =>
    cases hp with
    | @call _ _ _ r _ _ hp =>
      have hcut := ih r (h r) hp
      exact hcut

theorem Tree.Ends.mono (h : t.Ends Q C) (hQ : ∀ tr s a, Q tr s a → Q' tr s a) (hC : ∀ tr, C tr → C' tr) : t.Ends Q' C' := by
  induction t generalizing Q Q' C C' with
  | ret s a => exact hQ _ _ _ h
  | cut s => exact hC _ h
  | call s e k ih => exact fun r => ih r (h r) (fun tr s' a => hQ _ s' a) (fun tr => hC _)

theorem Tree.Ends.bind {f : σ → α → Tree σ R β} {Q : List (Event σ R) → σ → β → Prop} {C : List (Event σ R) → Prop}
    (h : t.Ends (fun tr s a => (f s a).Ends (fun tr' s' b => Q (tr ++ tr') s' b) (fun tr' => C (tr ++ tr'))) C) :
    (t.bind f).Ends Q C := by
  induction t generalizing Q C with
  | ret s a => exact h
  | cut s => exact h
  | call s e k ih => exact fun r => ih r (h r)

end Ends

/-! ## Runs with answers of some kind -/

/-- Every run of the tree all of whose events are in `P` ends with its events, its last state and its result in `Q`. -/
def Tree.Under (P : Event σ R → Prop) : Tree σ R α → (List (Event σ R) → σ → α → Prop) → Prop
  | .ret s a, Q => Q [] s a
  | .cut _, _ => True
  | .call s e k, Q => ∀ r, P ⟨s, e, r⟩ → (k r).Under P (fun tr s' a => Q (⟨s, e, r⟩ :: tr) s' a)

section Under

variable {P : Event σ R → Prop} {t : Tree σ R α} {Q Q' : List (Event σ R) → σ → α → Prop}

theorem Tree.under_iff : t.Under P Q ↔ t.After (fun tr s a => (∀ e ∈ tr, P e) → Q tr s a) := by
  induction t generalizing Q with
  | ret s a => exact ⟨fun h _ => h, fun h => h (List.forall_mem_nil _)⟩
  | cut s => rfl
  | call s e k ih =>
    constructor
    · intro h r
      refine Tree.after_iff.2 fun tr s' a hrun hall => ?_
      rw [List.forall_mem_cons] at hall
      exact Tree.after_iff.1 ((ih r).1 (h r hall.1)) tr s' a hrun hall.2
    · intro h r hr
      exact (ih r).2 ((h r).mono fun tr s' a hq hall => hq (List.forall_mem_cons.2 ⟨hr, hall⟩))

theorem Tree.Under.mono (h : t.Under P Q) (hQ : ∀ tr s a, Q tr s a → Q' tr s a) : t.Under P Q' :=
  Tree.under_iff.2 ((Tree.under_iff.1 h).mono fun tr s a hq hall => hQ tr s a (hq hall))

/-- What holds of the runs with such answers and what holds of every run. -/
theorem Tree.Under.and_after (h : t.Under P Q) (h' : t.After Q') : t.Under P (fun tr s a => Q tr s a ∧ Q' tr s a) :=
  Tree.under_iff.2 (((Tree.under_iff.1 h).and h').mono fun _ _ _ hq hall => ⟨hq.1 hall, hq.2⟩)

theorem Tree.under_bind {f : σ → α → Tree σ R β} {Q : List (Event σ R) → σ → β → Prop} :
    (t.bind f).Under P Q ↔ t.Under P (fun tr s a => (f s a).Under P (fun tr' s' b => Q (tr ++ tr') s' b)) := by
  induction t generalizing Q with
  | ret s a => rfl
  | cut s => rfl
  | call s e k ih => exact forall_congr' fun r => forall_congr' fun _ => ih r

end Under

/-! ## What some run comes to -/

/-- Some run of the tree ends with its events, its last state and its result in `Q`. -/
def Tree.May : Tree σ R α → (List (Event σ R) → σ → α → Prop) → Prop
  | .ret s a, Q => Q [] s a
  | .cut _, _ => False
  | .call s e k, Q => ∃ r, (k r).May (fun tr s' a => Q (⟨s, e, r⟩ :: tr) s' a)

theorem Tree.May.run {t : Tree σ R α} {Q : List (Event σ R) → σ → α → Prop} (h : t.May Q) :
    ∃ tr s a, Run t tr s a ∧ Q tr s a := by
  induction t generalizing Q with
  | ret s a => exact ⟨[], s, a, .ret s a, h⟩
  | cut s => exact h.elim
  | call s e k ih =>
    obtain ⟨r, hr⟩ := h
    obtain ⟨tr, s', a, hrun, hq⟩ := ih r hr
    exact ⟨_ :: tr, s', a, .call hrun, hq⟩

theorem Tree.may_bind {t : Tree σ R α} {f : σ → α → Tree σ R β} {Q : List (Event σ R) → σ → β → Prop} :
    (t.bind f).May Q ↔ t.May (fun tr s a => (f s a).May (fun tr' s' b => Q (tr ++ tr') s' b)) := by
  induction t generalizing Q with
  | ret s a => rfl
  | cut s => rfl
  | call s e k ih => exact exists_congr (fun r => ih r)

theorem Tree.May.of_run {t : Tree σ R α} {Q : List (Event σ R) → σ → α → Prop} {tr : List (Event σ R)} {s : σ} {a : α}
    (hr : Run t tr s a) (h : Q tr s a) : t.May Q := by
  induction hr generalizing Q with
  | ret s a => exact h
  | call _ ih => exact ⟨_, ih h⟩

/-- What some run comes to and every run keeps. -/
theorem Tree.May.and_after {t : Tree σ R α} {Q Q' : List (Event σ R) → σ → α → Prop} (h : t.May Q) (h' : t.After Q') :
    t.May (fun tr s a => Q tr s a ∧ Q' tr s a) := by
  obtain ⟨tr, s, a, hr, hq⟩ := h.run
  exact .of_run hr ⟨hq, after_iff.1 h' tr s a hr⟩

/-! ## Playing a tree against an environment -/

variable {W : Type}

/-- The environment `env`, with a state of its own, answers every call of the tree. -/
def play (env : W → σ → (e : E) → R e × W) : W → Tree σ R α → List (Event σ R) × Option (σ × α)
  | _, .ret s a => ([], some (s, a))
  | _, .cut _ => ([], none)
  | w, .call s e k =>
    let (r, w') := env w s e
    let (tr, out) := play env w' (k r)
    (⟨s, e, r⟩ :: tr, out)

/-- Playing a tree is a path, whether it comes to a result or not. -/
theorem path_play (env : W → σ → (e : E) → R e × W) (w : W) (t : Tree σ R α) : ∃ t', Path t (play env w t).1 t' := by
  induction t generalizing w with
  | ret s a => exact ⟨_, .stop _⟩
  | cut s => exact ⟨_, .stop _⟩
  | call s e k ih =>
    obtain ⟨t', ht⟩ := ih (env w s e).1 (env w s e).2
    exact ⟨t', .call ht⟩

/-- The state the environment is left in. -/
def residue (env : W → σ → (e : E) → R e × W) : W → Tree σ R α → W
  | w, .ret _ _ => w
  | w, .cut _ => w
  | w, .call s e k => residue env (env w s e).2 (k (env w s e).1)

/-- Playing a sequence is playing its first part and then its second. -/
theorem play_bind (env : W → σ → (e : E) → R e × W) {w : W} {t : Tree σ R α} {f : σ → α → Tree σ R β} {s : σ} {a : α}
    (h : (play env w t).2 = some (s, a)) : (play env w (t.bind f)).2 = (play env (residue env w t) (f s a)).2 := by
  induction t generalizing w with
  | ret s₀ a₀ =>
    obtain ⟨rfl, rfl⟩ := Prod.mk.inj (Option.some.inj h)
    rfl
  | cut s₀ => nomatch h
  | call s₀ e k ih => exact ih _ h

theorem residue_bind (env : W → σ → (e : E) → R e × W) {w : W} {t : Tree σ R α} {f : σ → α → Tree σ R β} {s : σ} {a : α}
    (h : (play env w t).2 = some (s, a)) : residue env w (t.bind f) = residue env (residue env w t) (f s a) := by
  induction t generalizing w with
  | ret s₀ a₀ =>
    obtain ⟨rfl, rfl⟩ := Prod.mk.inj (Option.some.inj h)
    rfl
  | cut s₀ => nomatch h
  | call s₀ e k ih => exact ih _ h

/-- No branch of the tree is cut. -/
def Tree.Complete : Tree σ R α → Prop
  | .ret _ _ => True
  | .cut _ => False
  | .call _ _ k => ∀ r, (k r).Complete

theorem Tree.Complete.bind {t : Tree σ R α} {f : σ → α → Tree σ R β} (ht : t.Complete) (hf : ∀ s a, (f s a).Complete) :
    (t.bind f).Complete := by
  induction t with
  | ret s a => exact hf s a
  | cut s => exact ht.elim
  | call s e k ih => exact fun r => ih r (ht r)

/-- The second part of a sequence is asked to be complete only where the first part returns. -/
theorem Tree.Complete.bind_after {t : Tree σ R α} {f : σ → α → Tree σ R β} (ht : t.Complete)
    (hf : t.After (fun _ s a => (f s a).Complete)) : (t.bind f).Complete := by
  induction t with
  | ret s a => exact hf
  | cut s => exact ht.elim
  | call s e k ih => exact fun r => ih r (ht r) (hf r)

/-- Nothing is cut, so only the runs count. -/
theorem Tree.Complete.ends {t : Tree σ R α} {Q : List (Event σ R) → σ → α → Prop} {C : List (Event σ R) → Prop} (ht : t.Complete)
    (h : t.After Q) : t.Ends Q C := by
  induction t generalizing Q C with
  | ret s a => exact h
  | cut s => exact ht.elim
  | call s e k ih => exact fun r => ih r (ht r) (h r)

/-- A sequence whose first part is complete is cut in its second. -/
theorem Tree.Complete.cut_bind {t : Tree σ R α} {f : σ → α → Tree σ R β} {tr : List (Event σ R)} {s : σ} (ht : t.Complete)
    (h : Path (t.bind f) tr (.cut s)) : ∃ tr₁ tr₂ s₁ a, tr = tr₁ ++ tr₂ ∧ Run t tr₁ s₁ a ∧ Path (f s₁ a) tr₂ (.cut s) := by
  induction t generalizing tr with
  | ret s₀ a => exact ⟨[], tr, s₀, a, rfl, .ret s₀ a, h⟩
  | cut s₀ => exact ht.elim
  | call s₀ e k ih =>
    cases h with
    | call h =>
      obtain ⟨tr₁, tr₂, s₁, a, rfl, hrun, hpath⟩ := ih _ (ht _) h
      exact ⟨_ :: tr₁, tr₂, s₁, a, rfl, .call hrun, hpath⟩

/-- A sequence is cut when its first part may return where the second is cut. -/
theorem Tree.not_complete_bind {t : Tree σ R α} {f : σ → α → Tree σ R β} (h : t.May (fun _ s a => ¬(f s a).Complete)) :
    ¬(t.bind f).Complete := by
  induction t with
  | ret s a => exact h
  | cut s => exact h.elim
  | call s e k ih =>
    obtain ⟨r, hr⟩ := h
    exact fun hc => ih r hr (hc r)

/-- No path of the tree all of whose events are in `P` comes to a cut. -/
def Tree.Uncut (P : Event σ R → Prop) : Tree σ R α → Prop
  | .ret _ _ => True
  | .cut _ => False
  | .call s e k => ∀ r, P ⟨s, e, r⟩ → (k r).Uncut P

theorem Tree.Complete.uncut {P : Event σ R → Prop} {t : Tree σ R α} (h : t.Complete) : t.Uncut P := by
  induction t with
  | ret s a => trivial
  | cut s => exact h
  | call s e k ih => exact fun r _ => ih r (h r)

theorem Tree.Uncut.bind {P : Event σ R → Prop} {t : Tree σ R α} {f : σ → α → Tree σ R β} (ht : t.Uncut P)
    (hf : t.Under P (fun _ s a => (f s a).Uncut P)) : (t.bind f).Uncut P := by
  induction t with
  | ret s a => exact hf
  | cut s => exact ht
  | call s e k ih => exact fun r hr => ih r (ht r hr) (hf r hr)

/-- A tree without cut branches is played to a result. -/
theorem Tree.Complete.play {t : Tree σ R α} (h : t.Complete) (env : W → σ → (e : E) → R e × W) (w : W) :
    ∃ s a, (play env w t).2 = some (s, a) := by
  induction t generalizing w with
  | ret s a => exact ⟨s, a, rfl⟩
  | cut s => exact h.elim
  | call s e k ih => exact ih _ (h _) _

/-- Playing a tree is one of its runs. -/
theorem run_play (env : W → σ → (e : E) → R e × W) {w : W} {t : Tree σ R α} {s : σ} {a : α}
    (h : (play env w t).2 = some (s, a)) : Run t (play env w t).1 s a := by
  induction t generalizing w with
  | ret s₀ a₀ =>
    simp only [play, Option.some.injEq, Prod.mk.injEq] at h
    obtain ⟨rfl, rfl⟩ := h
    exact .ret _ _
  | cut s₀ => simp [play] at h
  | call s₀ e k ih => exact .call (ih _ h)

end Resumption
