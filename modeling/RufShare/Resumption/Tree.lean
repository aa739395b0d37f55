import Mathlib.Algebra.GroupWithZero.Nat

/-!
# Resumption trees

A program that makes calls to its environment is a tree: a leaf is a return, and a node is a call with one subtree for each
answer the environment may give. Every node carries the state of the program at that point, so a program stopped before a
call (its residual) shows the state it stopped in, and two programs can be run side by side, one call at a time.

A tree is finite along every branch. A loop that need not end is a family of trees indexed by a number of rounds; a branch
that uses its rounds up ends in `cut`, a leaf with no result.
-/

namespace Resumption

/-- A program with states in `σ`, calls in `E` answered in `R`, and results in `α`. -/
inductive Tree (σ : Type) {E : Type} (R : E → Type) (α : Type) where
  | ret (s : σ) (a : α)
  | cut (s : σ)
  | call (s : σ) (e : E) (k : R e → Tree σ R α)

variable {σ E : Type} {R : E → Type} {α β γ : Type}

namespace Tree

/-- The state a residual is in. -/
def state : Tree σ R α → σ
  | ret s _ => s
  | cut s => s
  | call s _ _ => s

/-- The call a residual waits on. -/
def pending : Tree σ R α → Option E
  | ret _ _ => none
  | cut _ => none
  | call _ e _ => some e

/-- The result of a finished residual. -/
def result : Tree σ R α → Option α
  | ret _ a => some a
  | cut _ => none
  | call _ _ _ => none

theorem eq_call_of_pending {t : Tree σ R α} {e : E} (h : t.pending = some e) : ∃ k, t = .call t.state e k := by
  cases t with
  | ret s a => cases h
  | cut s => cases h
  | call s e' k =>
    cases h
    exact ⟨k, rfl⟩

/-- Run `t`, then `f` from the state and the result `t` ends with. -/
def bind : Tree σ R α → (σ → α → Tree σ R β) → Tree σ R β
  | ret s a, f => f s a
  | cut s, _ => cut s
  | call s e k, f => call s e (fun r => (k r).bind f)

@[simp] theorem bind_ret (s : σ) (a : α) (f : σ → α → Tree σ R β) : (ret (R := R) s a).bind f = f s a := rfl

@[simp] theorem bind_cut (s : σ) (f : σ → α → Tree σ R β) : (cut (R := R) s).bind f = cut s := rfl

@[simp] theorem bind_call (s : σ) (e : E) (k : R e → Tree σ R α) (f : σ → α → Tree σ R β) :
    (call s e k).bind f = call s e (fun r => (k r).bind f) := rfl

theorem bind_assoc (t : Tree σ R α) (f : σ → α → Tree σ R β) (g : σ → β → Tree σ R γ) :
    (t.bind f).bind g = t.bind (fun s a => (f s a).bind g) := by
  induction t with
  | ret s a => rfl
  | cut s => rfl
  | call s e k ih => simp only [bind_call, ih]

theorem bind_ret_right (t : Tree σ R α) : t.bind (fun s a => ret s a) = t := by
  induction t with
  | ret s a => rfl
  | cut s => rfl
  | call s e k ih => simp only [bind_call, ih]

end Tree

/-- A program as a function of the state it starts in. -/
def Prog (σ : Type) {E : Type} (R : E → Type) (α : Type) : Type := σ → Tree σ R α

namespace Prog

/-- Make one call. -/
def perform (e : E) : Prog σ R (R e) := fun s => .call s e (fun r => .ret s r)

/-- Read the state. -/
def get : Prog σ R σ := fun s => .ret s s

/-- Change the state. -/
def modify (f : σ → σ) : Prog σ R Unit := fun s => .ret (f s) ()

/-- Stop without a result: the rounds allowed to a loop are used up. -/
def cutoff : Prog σ R α := fun s => .cut s

end Prog

instance : Monad (Prog σ R) where
  pure a := fun s => .ret s a
  bind x f := fun s => (x s).bind (fun s a => f a s)

instance : LawfulMonad (Prog σ R) := LawfulMonad.mk' _
  (fun x => funext fun s => Tree.bind_ret_right (x s))
  (fun _ _ => rfl)
  (fun x _ _ => funext fun s => Tree.bind_assoc (x s) _ _)

namespace Prog

@[simp] theorem pure_apply (a : α) (s : σ) : (pure a : Prog σ R α) s = .ret s a := rfl

@[simp] theorem bind_apply (x : Prog σ R α) (f : α → Prog σ R β) (s : σ) :
    (x >>= f) s = (x s).bind (fun s a => f a s) := rfl

@[simp] theorem perform_apply (e : E) (s : σ) : (perform e : Prog σ R (R e)) s = .call s e (fun r => .ret s r) := rfl

@[simp] theorem get_apply (s : σ) : (get : Prog σ R σ) s = .ret s s := rfl

@[simp] theorem modify_apply (f : σ → σ) (s : σ) : (modify f : Prog σ R Unit) s = .ret (f s) () := rfl

@[simp] theorem cutoff_apply (s : σ) : (cutoff : Prog σ R α) s = .cut s := rfl

@[simp] theorem ite_apply (c : Prop) [Decidable c] (x y : Prog σ R α) (s : σ) :
    (if c then x else y) s = if c then x s else y s := by
  split <;> rfl

end Prog

end Resumption
