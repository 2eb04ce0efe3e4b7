/-
# `Lib.Twin` — two runs side by side

Two programs run on two states that are related.  They run alike if they return related
results in related states, wherever they start (`Alike`).  That is proved along the code, which
is mostly the same code twice:

    one operation on each side           (`alike_op`)
    a sequence, whose rest need only run
      alike for related results          (`alike_bind`, `alikes_seq`)
-/
import Mathlib
import Weiterleitung.Lib.Prog

namespace Prog

variable {Op : Type} {Res : Op → Type} {σ α β γ δ ε : Type}

/-- From related states to related results and states. -/
def Alike (handler : Handler Op Res σ) (R : σ → σ → Prop) (E : α → β → Prop)
    (p : Prog Op Res α) (q : Prog Op Res β) : Prop :=
  ∀ s t, R s t → E (run handler p s).1 (run handler q t).1 ∧
    R (run handler p s).2 (run handler q t).2

/-- Both succeed with related results, or both fail with the same error. -/
def Results (E : α → β → Prop) : Except ε α → Except ε β → Prop
  | .ok a, .ok b => E a b
  | .error e, .error e' => e = e'
  | _, _ => False

/-- The same for programs that can fail. -/
def Alikes (handler : Handler Op Res σ) (R : σ → σ → Prop) (E : α → β → Prop)
    (x : Fallible ε Op Res α) (y : Fallible ε Op Res β) : Prop :=
  Alike handler R (Results E) x.run y.run

variable {handler : Handler Op Res σ} {R : σ → σ → Prop} {E : α → β → Prop} {F : γ → δ → Prop}

theorem alike_ret {a : α} {b : β} (h : E a b) :
    Alike handler R E (ret a : Prog Op Res α) (ret b) :=
  fun _ _ hst => ⟨h, hst⟩

theorem alike_op {o o' : Op} {E : Res o → Res o' → Prop} (h : ∀ s t, R s t →
    E (handler o s).1 (handler o' t).1 ∧ R (handler o s).2 (handler o' t).2) :
    Alike handler R E (op o) (op o') :=
  h

theorem alike_bind {p : Prog Op Res α} {q : Prog Op Res β} {f : α → Prog Op Res γ}
    {g : β → Prog Op Res δ} (hp : Alike handler R E p q)
    (hf : ∀ a b, E a b → Alike handler R F (f a) (g b)) :
    Alike handler R F (p >>= f) (q >>= g) := by
  intro s t hst
  obtain ⟨hab, hst'⟩ := hp s t hst
  rw [run_bind, run_bind]
  exact hf _ _ hab _ _ hst'

/-- The same program, where the operations it uses are answered alike. -/
theorem alike_uses {P : Op → Prop} (h : ∀ o, P o → ∀ s t, R s t →
    (handler o s).1 = (handler o t).1 ∧ R (handler o s).2 (handler o t).2) :
    ∀ {p : Prog Op Res α}, Uses P p →
    Alike handler R Eq p p
  | ret a, _ => alike_ret rfl
  | ask o _, hp => alike_bind (alike_op (h o hp.1)) fun r r' hr => by
      subst hr
      exact alike_uses h (hp.2 r)

theorem alikes_pure {a : α} {b : β} (h : E a b) :
    Alikes handler R E (pure a : Fallible ε Op Res α) (pure b) :=
  alike_ret h

theorem alikes_throw (e : ε) : Alikes handler R E (throw e : Fallible ε Op Res α) (throw e) :=
  alike_ret rfl

theorem alikes_computed (x : Except ε α) :
    Alikes handler R Eq (computed x : Fallible ε Op Res α) (computed x) := by
  refine alike_ret ?_
  cases x <;> rfl

theorem alikes_seq {x : Fallible ε Op Res α} {y : Fallible ε Op Res β}
    {f : α → Fallible ε Op Res γ} {g : β → Fallible ε Op Res δ} (hx : Alikes handler R E x y)
    (hf : ∀ a b, E a b → Alikes handler R F (f a) (g b)) :
    Alikes handler R F (x >>= f) (y >>= g) := by
  refine alike_bind hx fun r r' hr => ?_
  cases r with
  | ok a =>
      cases r' with
      | ok b => exact hf a b hr
      | error e => exact hr.elim
  | error e =>
      cases r' with
      | ok b => exact hr.elim
      | error e' => exact alike_ret hr

theorem alikes_lift {p : Prog Op Res α} {q : Prog Op Res β} (h : Alike handler R E p q) :
    Alikes handler R E (ExceptT.lift p : Fallible ε Op Res α) (ExceptT.lift q) := by
  show Alike handler R (Results E) (Except.ok <$> p) (Except.ok <$> q)
  rw [map_eq_pure_bind, map_eq_pure_bind]
  exact alike_bind h fun a b hab => alike_ret hab

theorem alikes_mapErr {ε' : Type} (f : ε → ε') {x : Fallible ε Op Res α}
    {y : Fallible ε Op Res β} (h : Alikes handler R E x y) :
    Alikes handler R E (mapErr f x) (mapErr f y) := by
  refine alike_bind h fun r r' hr => alike_ret ?_
  cases r with
  | ok a =>
      cases r' with
      | ok b => exact hr
      | error e => exact hr.elim
  | error e =>
      cases r' with
      | ok b => exact hr.elim
      | error e' => exact congrArg f hr

/-- Results that are the same are the same result. -/
theorem eq_of_results {r r' : Except ε α} (h : Results Eq r r') : r = r' := by
  cases r with
  | ok a =>
      cases r' with
      | ok b => exact congrArg Except.ok h
      | error e => exact h.elim
  | error e =>
      cases r' with
      | ok b => exact h.elim
      | error e' => exact congrArg Except.error h

theorem results_refl (r : Except ε α) : Results Eq r r := by
  cases r <;> rfl

end Prog
