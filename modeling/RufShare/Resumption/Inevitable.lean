import RufShare.Resumption.Pair

/-!
# What every run comes to

`Inevitable r P x`: every run of `r` from `x` comes, after finitely many steps, to a state where `P` holds. A tree is finite along
every branch, so two programs side by side come to what holds wherever neither of them can go on.
-/

namespace Resumption

/-- `P` holds of `x`, or `x` has a step and `P` is inevitable after each of its steps. -/
inductive Inevitable {α : Type} (r : α → α → Prop) (P : α → Prop) : α → Prop where
  | now {x : α} : P x → Inevitable r P x
  | next {x : α} : (∃ y, r x y) → (∀ y, r x y → Inevitable r P y) → Inevitable r P x

/-- What is inevitable and, once true, is true of a state without steps, holds of every state without steps that is reached. -/
theorem Inevitable.of_stuck {α : Type} {r : α → α → Prop} {P : α → Prop} {x z : α} (hi : Inevitable r P x)
    (hP : ∀ y, P y → ∀ u, ¬r y u) (h : Relation.ReflTransGen r x z) (hz : ∀ u, ¬r z u) : P z := by
  induction hi with
  | now hx =>
    rcases h.cases_head with rfl | ⟨y, hy, _⟩
    · exact hx
    · exact absurd hy (hP _ hx y)
  | next he _ ih =>
    rcases h.cases_head with rfl | ⟨y, hy, hyz⟩
    · obtain ⟨y, hy⟩ := he
      exact absurd hy (hz y)
    · exact ih y hy hyz

variable {σ E : Type} {R : E → Type} {α W : Type} {A : Medium σ R W}

/-- A pair comes to `P` when some step is possible wherever `P` does not hold, at least in the states that `I` keeps to. -/
theorem Pair.inevitable {I P : Pair σ R α W → Prop} (hstep : ∀ p q, I p → Pair.Step A p q → I q)
    (hgo : ∀ p, I p → P p ∨ ∃ q, Pair.Step A p q) {p : Pair σ R α W} (h : I p) : Inevitable (Pair.Step A) P p := by
  have hnext {p : Pair σ R α W} (h : I p) (hall : ∀ q, Pair.Step A p q → I q → Inevitable (Pair.Step A) P q) :
      Inevitable (Pair.Step A) P p := by
    rcases hgo p h with hnow | hstuck
    · exact .now hnow
    · exact .next hstuck fun q hq => hall q hq (hstep p q h hq)
  obtain ⟨l, t, w⟩ := p
  -- induction on the tree of the left side, and within it on that of the right side
  induction l generalizing t w with
  | ret s a =>
    induction t generalizing w with
    | ret s' a' =>
      refine hnext h fun q hq _ => ?_
      nomatch hq
    | cut s' =>
      refine hnext h fun q hq _ => ?_
      nomatch hq
    | call s' e' k' ih =>
      refine hnext h fun q hq hI => ?_
      cases hq with
      | right _ => exact ih _ _ hI
  | cut s =>
    induction t generalizing w with
    | ret s' a' =>
      refine hnext h fun q hq _ => ?_
      nomatch hq
    | cut s' =>
      refine hnext h fun q hq _ => ?_
      nomatch hq
    | call s' e' k' ih =>
      refine hnext h fun q hq hI => ?_
      cases hq with
      | right _ => exact ih _ _ hI
  | call s e k ihl =>
    induction t generalizing w with
    | ret s' a' =>
      refine hnext h fun q hq hI => ?_
      cases hq with
      | left _ => exact ihl _ _ _ hI
    | cut s' =>
      refine hnext h fun q hq hI => ?_
      cases hq with
      | left _ => exact ihl _ _ _ hI
    | call s' e' k' ih =>
      refine hnext h fun q hq hI => ?_
      cases hq with
      | left _ => exact ihl _ _ _ hI
      | right _ => exact ih _ _ hI

end Resumption
