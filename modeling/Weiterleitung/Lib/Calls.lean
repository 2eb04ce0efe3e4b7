/-
# `Lib.Calls` — calls of functions that can be seen

A program that calls a function shows nothing of it: only what it does with the result is
left.  Here such calls are operations beside the others, so that a run shows their arguments.
Carried out, they are gone again (`carryOut`): the program is then the
one that called the function.

    lift          a program without calls
    invoke        one call
    carryOut      the program with every call replaced by its result
    withCalls     rules that say which calls may be made
-/
import Mathlib
import Weiterleitung.Lib.Tasks

namespace Prog

variable {Op Call : Type} {Res : Op → Type} {Ret : Call → Type} {χ σ α β ε : Type}

/-- What operations are answered with, and what calls return. -/
abbrev Answers (Res : Op → Type) (Ret : Call → Type) : Op ⊕ Call → Type
  | .inl o => Res o
  | .inr c => Ret c

/-- A program without calls. -/
def lift : Prog Op Res α → Prog (Op ⊕ Call) (Answers Res Ret) α
  | ret a => ret a
  | ask o k => ask (.inl o) fun r => lift (k r)

def lifts (x : Fallible ε Op Res α) : Fallible ε (Op ⊕ Call) (Answers Res Ret) α :=
  ExceptT.mk (lift x.run)

def invoke (c : Call) : Fallible ε (Op ⊕ Call) (Answers Res Ret) (Ret c) :=
  ExceptT.lift (ask (.inr c) ret)

/-! ## Carrying calls out -/

section
variable (f : (c : Call) → Ret c)

def carryOut : Prog (Op ⊕ Call) (Answers Res Ret) α → Prog Op Res α
  | ret a => ret a
  | ask (.inl o) k => ask o fun r => carryOut (k r)
  | ask (.inr c) k => carryOut (k (f c))

def carryOuts (x : Fallible ε (Op ⊕ Call) (Answers Res Ret) α) : Fallible ε Op Res α :=
  ExceptT.mk (carryOut f x.run)

theorem carryOut_lift (p : Prog Op Res α) : carryOut f (lift p) = p := by
  induction p with
  | ret a => rfl
  | ask o k ih => exact congrArg (ask o) (funext ih)

theorem carryOut_bind (g : α → Prog (Op ⊕ Call) (Answers Res Ret) β)
    (p : Prog (Op ⊕ Call) (Answers Res Ret) α) :
    carryOut f (p >>= g) = carryOut f p >>= fun a => carryOut f (g a) := by
  induction p with
  | ret a => rfl
  | ask o k ih =>
      cases o with
      | inl o => exact congrArg (ask o) (funext ih)
      | inr c => exact ih (f c)

@[simp] theorem carryOuts_lifts (x : Fallible ε Op Res α) : carryOuts f (lifts x) = x :=
  carryOut_lift f x.run

@[simp] theorem carryOuts_invoke (c : Call) :
    carryOuts f (invoke c : Fallible ε (Op ⊕ Call) (Answers Res Ret) (Ret c)) = pure (f c) :=
  rfl

@[simp] theorem carryOuts_pure (a : α) :
    carryOuts f (pure a : Fallible ε (Op ⊕ Call) (Answers Res Ret) α) = pure a := rfl

@[simp] theorem carryOuts_throw (e : ε) :
    carryOuts f (throw e : Fallible ε (Op ⊕ Call) (Answers Res Ret) α) = throw e := rfl

@[simp] theorem carryOuts_computed (x : Except ε α) :
    carryOuts f (computed x : Fallible ε (Op ⊕ Call) (Answers Res Ret) α) = computed x := rfl

@[simp] theorem carryOuts_bind (x : Fallible ε (Op ⊕ Call) (Answers Res Ret) α)
    (g : α → Fallible ε (Op ⊕ Call) (Answers Res Ret) β) :
    carryOuts f (x >>= g) = carryOuts f x >>= fun a => carryOuts f (g a) := by
  show carryOut f (x.run >>= ExceptT.bindCont g) = carryOut f x.run >>= ExceptT.bindCont
    fun a => carryOuts f (g a)
  rw [carryOut_bind]
  congr 1
  funext r
  cases r <;> rfl

@[simp] theorem carryOuts_mapErr {ε' : Type}
    (g : ε → ε') (x : Fallible ε (Op ⊕ Call) (Answers Res Ret) α) :
    carryOuts f (mapErr g x) = mapErr g (carryOuts f x) :=
  carryOut_bind f _ x.run

end

/-! ## Rules -/

namespace Rules

/-- The same rules, and calls with arguments that are allowed. -/
def withCalls (R : Rules Op Res χ σ) (f : (c : Call) → Ret c) (allowed : Call → Prop) :
    Rules (Op ⊕ Call) (Answers Res Ret) χ σ where
  answer
    | .inl o, c, s => R.answer o c s
    | .inr k, _, s => (f k, s)
  inv := R.inv
  rely := R.rely
  may
    | .inl o, s => R.may o s
    | .inr k, _ => allowed k
  fair
    | .inl o, c, s => R.fair o c s
    | .inr _, _, _ => True
  refl := R.refl
  trans := R.trans
  step {o} _ s hs hmay hfair :=
    match o with
    | .inl _ => R.step hs hmay hfair
    | .inr _ => ⟨hs, R.refl s⟩

variable {R : Rules Op Res χ σ} {f : (c : Call) → Ret c} {allowed : Call → Prop}

theorem amid_lift {post : α → σ → Prop} : ∀ {p : Prog Op Res α} {s : σ}, R.Amid post p s →
    (R.withCalls f allowed).Amid post (lift p) s
  | ret _, _, h => h
  | ask _ _, _, h =>
      fun t hst ht => ⟨(h t hst ht).1, fun c hc => amid_lift ((h t hst ht).2 c hc)⟩

theorem amids_lifts {post : α → σ → Prop} {x : Fallible ε Op Res α} {s : σ}
    (h : R.Amids post x s) :
    (R.withCalls f allowed).Amids post (lifts x) s :=
  amid_lift h

theorem amids_invoke {c : Call} (hc : allowed c) (s : σ) :
    (R.withCalls f allowed).Amids (fun r _ => r = f c)
    (invoke c : Fallible ε (Op ⊕ Call) (Answers Res Ret) (Ret c)) s :=
  amids_lift (amid_op fun _ _ _ => ⟨hc, fun _ _ _ _ => rfl⟩)

end Rules

end Prog
