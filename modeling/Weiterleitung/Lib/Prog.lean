/-
# `Lib.Prog` — programs that ask an environment, and how they run

A program either returns or asks for one operation and goes on with its answer.
An operation is atomic: whatever else happens, happens between two of them.

    run      a whole program against an environment that answers
    exec     the same for a program that can fail
    advance  one operation, for programs that take turns
    logged   answers without a state; a run leaves the operations it asked for

A program says which operations it may ask for (`Uses`), a run which ones it met
(`Along`), and what failing ones do to it (`Strict`, `Sure`).  What holds of each operation
holds of every run: a relation that each operation respects and that composes relates the first
and the last state (`run_rel`), and a program that takes turns keeps to its operations
(`uses_advance`).
-/
import Mathlib

/-- A program over the operations `Op`, where `o` is answered by a `Res o`. -/
inductive Prog (Op : Type) (Res : Op → Type) (α : Type) : Type where
  | ret (a : α)
  | ask (o : Op) (k : Res o → Prog Op Res α)

/-- A program that can fail. -/
abbrev Fallible (ε : Type) (Op : Type) (Res : Op → Type) := ExceptT ε (Prog Op Res)

namespace Prog

variable {Op : Type} {Res : Op → Type} {α β ε σ : Type}

def bind : Prog Op Res α → (α → Prog Op Res β) → Prog Op Res β
  | ret a, f => f a
  | ask o k, f => ask o fun r => bind (k r) f

instance : Monad (Prog Op Res) where
  pure := ret
  bind := bind

@[simp] theorem pure_eq (a : α) : (pure a : Prog Op Res α) = ret a := rfl

@[simp] theorem ret_bind (a : α) (f : α → Prog Op Res β) : (ret a >>= f) = f a := rfl

@[simp] theorem ask_bind (o : Op) (k : Res o → Prog Op Res α) (f : α → Prog Op Res β) :
    (ask o k >>= f) = ask o fun r => k r >>= f := rfl

theorem bind_ret : ∀ p : Prog Op Res α, (p >>= ret) = p
  | ret _ => rfl
  | ask o k => by
      show ask o (fun r => k r >>= ret) = ask o k
      exact congrArg (ask o) (funext fun r => bind_ret (k r))

theorem bind_bind {γ : Type} : ∀ (p : Prog Op Res α) (f : α → Prog Op Res β)
    (g : β → Prog Op Res γ), (p >>= f >>= g) = (p >>= fun a => f a >>= g)
  | ret _, _, _ => rfl
  | ask o k, f, g => by
      show ask o (fun r => k r >>= f >>= g) = ask o (fun r => k r >>= fun a => f a >>= g)
      exact congrArg (ask o) (funext fun r => bind_bind (k r) f g)

instance : LawfulMonad (Prog Op Res) :=
  LawfulMonad.mk' (Prog Op Res) bind_ret (fun _ _ => rfl) bind_bind

/-- The program that asks for `o` and returns the answer. -/
def op (o : Op) : Prog Op Res (Res o) := ask o ret

/-! ## Running a program -/

/-- The answers, and what asking does to the environment. -/
abbrev Handler (Op : Type) (Res : Op → Type) (σ : Type) := (o : Op) → σ → Res o × σ

def run (handler : Handler Op Res σ) : Prog Op Res α → σ → α × σ
  | ret a, s => (a, s)
  | ask o k, s => run handler (k (handler o s).1) (handler o s).2

variable (handler : Handler Op Res σ)

@[simp] theorem run_ret (a : α) (s : σ) : run handler (ret a) s = (a, s) := rfl

@[simp] theorem run_ask (o : Op) (k : Res o → Prog Op Res α) (s : σ) :
    run handler (ask o k) s = run handler (k (handler o s).1) (handler o s).2 := rfl

@[simp] theorem run_op (o : Op) (s : σ) : run handler (op o) s = handler o s := rfl

@[simp] theorem run_bind : ∀ (p : Prog Op Res α) (f : α → Prog Op Res β) (s : σ),
    run handler (p >>= f) s = run handler (f (run handler p s).1) (run handler p s).2
  | ret _, _, _ => rfl
  | ask o k, f, s => run_bind (k (handler o s).1) f (handler o s).2

/-! ## Running a program that can fail -/

def exec (x : Fallible ε Op Res α) (s : σ) : Except ε α × σ := run handler x.run s

@[simp] theorem exec_pure (a : α) (s : σ) :
    exec handler (pure a : Fallible ε Op Res α) s = (.ok a, s) := rfl

@[simp] theorem exec_throw (e : ε) (s : σ) :
    exec handler (throw e : Fallible ε Op Res α) s = (.error e, s) := rfl

@[simp] theorem exec_bind (x : Fallible ε Op Res α) (f : α → Fallible ε Op Res β) (s : σ) :
    exec handler (x >>= f) s =
      match exec handler x s with
      | (.ok a, s') => exec handler (f a) s'
      | (.error e, s') => (.error e, s') := by
  show run handler (x.run >>= ExceptT.bindCont f) s = _
  rw [run_bind]
  rcases h : run handler x.run s with ⟨a | e, s'⟩ <;> simp only [exec, h] <;> rfl

theorem exec_bind_of_ok {x : Fallible ε Op Res α} {f : α → Fallible ε Op Res β} {s t : σ}
    {a : α} (hx : exec handler x s = (.ok a, t)) :
    exec handler (x >>= f) s = exec handler (f a) t := by
  rw [exec_bind, hx]

theorem exec_bind_of_error {x : Fallible ε Op Res α} {f : α → Fallible ε Op Res β} {s t : σ}
    {e : ε} (hx : exec handler x s = (.error e, t)) :
    exec handler (x >>= f) s = (.error e, t) := by
  rw [exec_bind, hx]

/-- A program without failure, run as a step of one with failure. -/
@[simp] theorem exec_lift (p : Prog Op Res α) (s : σ) :
    exec handler (ExceptT.lift p : Fallible ε Op Res α) s
      = (.ok (run handler p s).1, (run handler p s).2) := by
  show run handler (Except.ok <$> p) s = _
  rw [map_eq_pure_bind, run_bind]
  rfl

/-- A program without failure, then one with failure. -/
theorem run_lift_bind (p : Prog Op Res α) (f : α → Fallible ε Op Res β) :
    (ExceptT.lift p >>= f).run = (p >>= fun a => (f a).run) := by
  show ((Except.ok <$> p) >>= ExceptT.bindCont f) = _
  rw [map_eq_pure_bind, bind_assoc]
  rfl

/-- A computed result, used as a step. -/
def computed (x : Except ε α) : Fallible ε Op Res α := ExceptT.mk (ret x)

@[simp] theorem exec_computed (x : Except ε α) (s : σ) :
    exec handler (computed x : Fallible ε Op Res α) s = (x, s) := rfl

theorem exec_computed_ok {x : Except ε α} {a : α} (hx : x = .ok a) (s : σ) :
    exec handler (computed x : Fallible ε Op Res α) s = (.ok a, s) := by
  rw [exec_computed, hx]

/-- The same program, its error rewritten. -/
def mapErr {ε' : Type} (f : ε → ε') (x : Fallible ε Op Res α) : Fallible ε' Op Res α :=
  ExceptT.mk (x.run >>= fun r => ret (r.mapError f))

/-- Rewriting the error of a sequence is rewriting that of its parts. -/
theorem mapErr_bind {ε' : Type} (g : ε → ε') (x : Fallible ε Op Res α)
    (f : α → Fallible ε Op Res β) :
    mapErr g (x >>= f) = mapErr g x >>= fun a => mapErr g (f a) := by
  show ((x.run >>= ExceptT.bindCont f) >>= fun r => ret (r.mapError g))
    = ((x.run >>= fun r => ret (r.mapError g)) >>= ExceptT.bindCont fun a => mapErr g (f a))
  rw [bind_assoc, bind_assoc]
  refine congrArg _ (funext fun r => ?_)
  cases r <;> rfl

@[simp] theorem exec_mapErr {ε' : Type} (f : ε → ε') (x : Fallible ε Op Res α) (s : σ) :
    exec handler (mapErr f x) s = ((exec handler x s).1.mapError f, (exec handler x s).2) := by
  show run handler (x.run >>= fun r => ret (r.mapError f)) s = _
  rw [run_bind]
  rfl

theorem exec_mapErr_ok {ε' : Type} {f : ε → ε'} {x : Fallible ε Op Res α} {s t : σ} {a : α}
    (hx : exec handler x s = (.ok a, t)) : exec handler (mapErr f x) s = (.ok a, t) := by
  rw [exec_mapErr, hx]
  rfl

theorem exec_mapErr_error {ε' : Type} {f : ε → ε'} {x : Fallible ε Op Res α} {s t : σ} {e : ε}
    (hx : exec handler x s = (.error e, t)) :
    exec handler (mapErr f x) s = (.error (f e), t) := by
  rw [exec_mapErr, hx]
  rfl

/-- A sequence returns a result iff its first part returns one and so does the
second part from there. -/
theorem exec_bind_ok {x : Fallible ε Op Res α} {f : α → Fallible ε Op Res β}
    {s s' : σ} {b : β} :
    exec handler (x >>= f) s = (.ok b, s') ↔
      ∃ a t, exec handler x s = (.ok a, t) ∧ exec handler (f a) t = (.ok b, s') := by
  rw [exec_bind]
  rcases h : exec handler x s with ⟨e | a, t⟩ <;> simp

/-! ## The operations of a program -/

/-- Every operation the program may ask for satisfies `P`. -/
def Uses (P : Op → Prop) : Prog Op Res α → Prop
  | ret _ => True
  | ask o k => P o ∧ ∀ r, Uses P (k r)

variable {P : Op → Prop}

@[simp] theorem uses_ret (a : α) : Uses P (ret a : Prog Op Res α) := trivial

theorem uses_bind : ∀ {p : Prog Op Res α} {f : α → Prog Op Res β}, Uses P p →
    (∀ a, Uses P (f a)) → Uses P (p >>= f)
  | ret a, _, _, hf => hf a
  | ask _ _, _, hp, hf => ⟨hp.1, fun r => uses_bind (hp.2 r) hf⟩

theorem uses_all {P : Op → Prop} (h : ∀ o, P o) : ∀ p : Prog Op Res α, Uses P p
  | ret _ => trivial
  | ask o k => ⟨h o, fun r => uses_all h (k r)⟩

/-- The operations of a sequence of programs that can fail. -/
theorem uses_seq {x : Fallible ε Op Res α} {f : α → Fallible ε Op Res β} (hx : Uses P x.run)
    (hf : ∀ a, Uses P (f a).run) : Uses P (x >>= f).run :=
  uses_bind hx fun r => by
    cases r with
    | ok a => exact hf a
    | error e => trivial

theorem uses_mapErr {ε' : Type} {f : ε → ε'} {x : Fallible ε Op Res α} (hx : Uses P x.run) :
    Uses P (mapErr f x).run :=
  uses_bind hx fun _ => trivial

theorem uses_mono {Q : Op → Prop} (h : ∀ o, P o → Q o) :
    ∀ {p : Prog Op Res α}, Uses P p → Uses Q p
  | ret _, _ => trivial
  | ask o _, hp => ⟨h o hp.1, fun r => uses_mono h (hp.2 r)⟩

/-- A reflexive and transitive relation that every operation respects holds between
the first and the last state of a run. -/
theorem run_rel {R : σ → σ → Prop} (refl : ∀ s, R s s)
    (trans : ∀ {s t u}, R s t → R t u → R s u) (step : ∀ o, P o → ∀ s, R s (handler o s).2) :
    ∀ {p : Prog Op Res α}, Uses P p → ∀ s, R s (run handler p s).2
  | ret _, _, s => refl s
  | ask o _, hp, s => trans (step o hp.1 s) (run_rel refl trans step (hp.2 _) _)

/-! ## Answers without a state -/

/-- Every operation is answered the same way at any time, and noted down. -/
def logged (answer : (o : Op) → Res o) : Handler Op Res (List Op) :=
  fun o log => (answer o, log ++ [o])

section
variable {answer : (o : Op) → Res o}

/-- What was noted down before, changes nothing. -/
theorem run_logged (p : Prog Op Res α) : ∀ log, run (logged answer) p log =
    ((run (logged answer) p []).1, log ++ (run (logged answer) p []).2) := by
  induction p with
  | ret a => exact fun log => congrArg (Prod.mk a) (List.append_nil log).symm
  | ask o k ih =>
      intro log
      show run (logged answer) (k (answer o)) (log ++ [o]) =
        ((run (logged answer) (k (answer o)) [o]).1,
          log ++ (run (logged answer) (k (answer o)) [o]).2)
      rw [ih (answer o) (log ++ [o]), ih (answer o) [o], List.append_assoc]

theorem exec_logged (x : Fallible ε Op Res α) (log : List Op) : exec (logged answer) x log =
    ((exec (logged answer) x []).1, log ++ (exec (logged answer) x []).2) :=
  run_logged x.run log

theorem mem_logged {p : Prog Op Res α} (hp : Uses P p) :
    ∀ o ∈ (run (logged answer) p []).2, P o := by
  induction p with
  | ret a => exact fun o h => absurd h List.not_mem_nil
  | ask o k ih =>
      obtain ⟨ho, hk⟩ := hp
      rw [run_ask, show logged answer o [] = (answer o, [o]) from rfl, run_logged]
      intro o' h
      rcases List.mem_cons.mp h with rfl | h
      · exact ho
      · exact ih _ (hk _) o' h

end

/-! ## Programs with a memory -/

/-- With a memory that every answer updates, each operation the program may
ask for satisfies `ok`. -/
def Keeps {μ : Type} (next : μ → (o : Op) → Res o → μ) (ok : μ → Op → Prop) :
    μ → Prog Op Res α → Prop
  | _, ret _ => True
  | m, ask o k => ok m o ∧ ∀ r, Keeps next ok (next m o r) (k r)

section
variable {μ : Type} {next : μ → (o : Op) → Res o → μ} {ok : μ → Op → Prop}

theorem keeps_of_uses (h : ∀ m o, P o → ok m o) :
    ∀ {p : Prog Op Res α} {m : μ}, Uses P p → Keeps next ok m p
  | ret _, _, _ => trivial
  | ask o _, m, hp => ⟨h m o hp.1, fun r => keeps_of_uses h (hp.2 r)⟩

theorem keeps_bind {f : α → Prog Op Res β} (hf : ∀ m a, Keeps next ok m (f a)) :
    ∀ {p : Prog Op Res α} {m : μ}, Keeps next ok m p → Keeps next ok m (p >>= f)
  | ret a, m, _ => hf m a
  | ask _ _, _, h => ⟨h.1, fun r => keeps_bind hf (h.2 r)⟩

end

/-! ## The operations of one run -/

/-- Along the run each operation satisfies `Q` in the state it meets. -/
def Along (Q : Op → σ → Prop) : Prog Op Res α → σ → Prop
  | ret _, _ => True
  | ask o k, s => Q o s ∧ Along Q (k (handler o s).1) (handler o s).2

instance Along.decidable {Q : Op → σ → Prop} [∀ o s, Decidable (Q o s)] :
    ∀ (p : Prog Op Res α) (s : σ), Decidable (Along handler Q p s)
  | ret _, _ => isTrue trivial
  | ask o k, s =>
      match decidable (k (handler o s).1) (handler o s).2 with
      | isTrue h => decidable_of_iff (Q o s) ⟨fun hQ => ⟨hQ, h⟩, And.left⟩
      | isFalse h => isFalse fun hall => h hall.2

variable {handler} {Q : Op → σ → Prop}

theorem along_bind : ∀ {p : Prog Op Res α} {f : α → Prog Op Res β} {s : σ},
    Along handler Q (p >>= f) s ↔
      Along handler Q p s ∧ Along handler Q (f (run handler p s).1) (run handler p s).2
  | ret _, _, _ => ⟨fun h => ⟨trivial, h⟩, fun h => h.2⟩
  | ask o k, f, s => by
      show Q o s ∧ Along handler Q (k (handler o s).1 >>= f) (handler o s).2 ↔ _
      rw [along_bind (p := k (handler o s).1), ← and_assoc]
      rfl

/-- Along a sequence, along its first part; if that returns, along the rest from there. -/
theorem along_seq {x : Fallible ε Op Res α} {f : α → Fallible ε Op Res β} {s : σ}
    (h : Along handler Q (x >>= f).run s) :
    Along handler Q x.run s ∧
      ∀ {a t}, exec handler x s = (.ok a, t) → Along handler Q (f a).run t := by
  obtain ⟨hx, hf⟩ := along_bind.mp h
  refine ⟨hx, fun {a t} he => ?_⟩
  have hrest : Along handler Q (ExceptT.bindCont f (exec handler x s).1)
      (exec handler x s).2 := hf
  rw [he] at hrest
  exact hrest

/-- Along both parts of a sequence, along the sequence. -/
theorem along_of_seq {x : Fallible ε Op Res α} {f : α → Fallible ε Op Res β} {s : σ}
    (hx : Along handler Q x.run s)
    (hf : ∀ {a t}, exec handler x s = (.ok a, t) → Along handler Q (f a).run t) :
    Along handler Q (x >>= f).run s := by
  refine along_bind.mpr ⟨hx, ?_⟩
  show Along handler Q (ExceptT.bindCont f (exec handler x s).1) (exec handler x s).2
  rcases hrun : exec handler x s with ⟨e | a, t⟩
  · trivial
  · exact hf hrun

theorem along_mapErr {ε' : Type} {f : ε → ε'} {x : Fallible ε Op Res α} {s : σ}
    (h : Along handler Q (mapErr f x).run s) : Along handler Q x.run s :=
  (along_bind.mp h).1

theorem along_mono {Q' : Op → σ → Prop} (himp : ∀ o s, Q o s → Q' o s) :
    ∀ {p : Prog Op Res α} {s : σ}, Along handler Q p s → Along handler Q' p s
  | ret _, _, _ => trivial
  | ask o _, s, h => ⟨himp o s h.1, along_mono himp h.2⟩

theorem along_and {Q' : Op → σ → Prop} : ∀ {p : Prog Op Res α} {s : σ},
    Along handler Q p s → Along handler Q' p s → Along handler (fun o s => Q o s ∧ Q' o s) p s
  | ret _, _, _, _ => trivial
  | ask _ _, _, h, h' => ⟨⟨h.1, h'.1⟩, along_and h.2 h'.2⟩

/-- The states that a run meets are between its first and its last. -/
theorem along_rel {R : σ → σ → Prop} (refl : ∀ s, R s s)
    (trans : ∀ {s t u}, R s t → R t u → R s u) (step : ∀ o, P o → ∀ s, R s (handler o s).2) :
    ∀ {p : Prog Op Res α}, Uses P p → ∀ {first s : σ}, R first s →
      Along handler (fun _ t => R first t ∧ R t (run handler p s).2) p s
  | ret _, _, _, _, _ => trivial
  | ask o k, hp, _, s, hs =>
      ⟨⟨hs, run_rel handler refl trans step (p := ask o k) hp s⟩,
        along_rel refl trans step (hp.2 _) (trans hs (step o hp.1 s))⟩

/-! ## Failures -/

section
variable (failed : (o : Op) → Res o → Bool)

/-- Every run ends with an error. -/
def GivesUp : Prog Op Res (Except ε α) → Prop
  | ret r => ∃ e, r = .error e
  | ask _ k => ∀ r, GivesUp (k r)

/-- After an answer that is a failure the program gives up. -/
def Strict : Prog Op Res (Except ε α) → Prop
  | ret _ => True
  | ask o k => ∀ r, (failed o r = true → GivesUp (k r)) ∧ Strict (k r)

/-- Unless an answer is a failure the program returns a result. -/
def Sure : Prog Op Res (Except ε α) → Prop
  | ret r => ∃ a, r = .ok a
  | ask o k => ∀ r, failed o r = false → Sure (k r)

/-- The operation is not answered with a failure. -/
def Succeeds (handler : Handler Op Res σ) (o : Op) (s : σ) :
    Prop := failed o (handler o s).1 = false

instance (handler : Handler Op Res σ) (o : Op) (s : σ) :
    Decidable (Succeeds failed handler o s) :=
  inferInstanceAs (Decidable (failed o (handler o s).1 = false))

variable {failed}

theorem givesUp_bind {ε' : Type} {f : Except ε α → Prog Op Res (Except ε' β)}
    (hf : ∀ e, GivesUp (f (.error e))) :
    ∀ {p : Prog Op Res (Except ε α)}, GivesUp p → GivesUp (p >>= f)
  | ret _, ⟨e, rfl⟩ => hf e
  | ask _ _, hp => fun r => givesUp_bind hf (hp r)

theorem strict_bind {ε' : Type} {f : Except ε α → Prog Op Res (Except ε' β)}
    (he : ∀ e, GivesUp (f (.error e))) (hf : ∀ r, Strict failed (f r)) :
    ∀ {p : Prog Op Res (Except ε α)}, Strict failed p → Strict failed (p >>= f)
  | ret r, _ => hf r
  | ask _ _, hp => fun r => ⟨fun h => givesUp_bind he ((hp r).1 h), strict_bind he hf (hp r).2⟩

/-- A sequence of strict programs is strict. -/
theorem strict_seq {x : Fallible ε Op Res α} {f : α → Fallible ε Op Res β}
    (hx : Strict failed x.run) (hf : ∀ a, Strict failed (f a).run) :
    Strict failed (x >>= f).run :=
  strict_bind (f := ExceptT.bindCont f) (fun e => ⟨e, rfl⟩) (fun r => by
    cases r with
    | ok a => exact hf a
    | error e => trivial) hx

theorem strict_mapErr {ε' : Type} {g : ε → ε'} {x : Fallible ε Op Res α}
    (hx : Strict failed x.run) : Strict failed (mapErr g x).run :=
  strict_bind (f := fun r => ret (r.mapError g)) (fun e => ⟨g e, rfl⟩) (fun _ => trivial) hx

theorem sure_bind {ε' : Type} {f : Except ε α → Prog Op Res (Except ε' β)}
    (hf : ∀ a, Sure failed (f (.ok a))) :
    ∀ {p : Prog Op Res (Except ε α)}, Sure failed p → Sure failed (p >>= f)
  | ret _, ⟨a, rfl⟩ => hf a
  | ask _ _, hp => fun r h => sure_bind hf (hp r h)

/-- A sequence of sure programs is sure. -/
theorem sure_seq {x : Fallible ε Op Res α} {f : α → Fallible ε Op Res β}
    (hx : Sure failed x.run) (hf : ∀ a, Sure failed (f a).run) : Sure failed (x >>= f).run :=
  sure_bind (f := ExceptT.bindCont f) hf hx

theorem sure_mapErr {ε' : Type} {g : ε → ε'} {x : Fallible ε Op Res α}
    (hx : Sure failed x.run) : Sure failed (mapErr g x).run :=
  sure_bind (f := fun r => ret (r.mapError g)) (fun a => ⟨a, rfl⟩) hx

theorem error_of_givesUp : ∀ {p : Prog Op Res (Except ε α)} (s : σ), GivesUp p →
    ∃ e, (run handler p s).1 = .error e
  | ret _, _, hp => hp
  | ask o k, s, hp => error_of_givesUp (p := k (handler o s).1) _ (hp _)

/-- Where a strict program returns a result, no operation failed. -/
theorem along_of_strict : ∀ {p : Prog Op Res (Except ε α)} {s t : σ} {a : α}, Strict failed p →
    run handler p s = (.ok a, t) → Along handler (Succeeds failed handler) p s
  | ret _, _, _, _, _, _ => trivial
  | ask o k, s, t, a, hp, hrun => by
      obtain ⟨hgives, hk⟩ := hp (handler o s).1
      refine ⟨?_, along_of_strict hk hrun⟩
      cases hfailed : failed o (handler o s).1 with
      | false => exact hfailed
      | true =>
          have herror : ∃ e, (run handler (k (handler o s).1) (handler o s).2).1 = .error e :=
            error_of_givesUp _ (hgives hfailed)
          obtain ⟨e, he⟩ := herror
          rw [run_ask] at hrun
          rw [hrun] at he
          cases he

/-- Where no operation fails, a sure program returns a result. -/
theorem ok_of_sure : ∀ {p : Prog Op Res (Except ε α)} {s : σ}, Sure failed p →
    Along handler (Succeeds failed handler) p s → ∃ a, (run handler p s).1 = .ok a
  | ret _, _, hp, _ => hp
  | ask o k, s, hp, ha => ok_of_sure (p := k (handler o s).1) (hp _ ha.1) ha.2

end

variable (handler)

/-! ## Taking turns -/

/-- One operation of a program. -/
def advance : Prog Op Res α → σ → Prog Op Res α × σ
  | ret a, s => (ret a, s)
  | ask o k, s => (k (handler o s).1, (handler o s).2)

theorem uses_advance : ∀ {p : Prog Op Res α}, Uses P p → ∀ s, Uses P (advance handler p s).1
  | ret _, _, _ => trivial
  | ask _ _, hp, _ => hp.2 _

end Prog
