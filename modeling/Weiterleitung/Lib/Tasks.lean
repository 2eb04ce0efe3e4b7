/-
# `Lib.Tasks` — programs among others

Programs take turns; one turn is one operation.  Between two operations of a program
anything may happen that the others are allowed to do.  What a program can count on is what
that leaves (`Rules`):

    inv    what holds in every state
    rely   what becomes of a state while others act
    may    what a program may ask for in a state
    fair   what is assumed of chance

`Amid post p s` says that `p`, started in `s`, asks only for what it may and returns only
what satisfies `post` in the state it returns in, whatever happens in between.  It is proved
by the structure of the code (`amid_bind`, `amids_seq`, `amid_op`); and a crew of programs
that are all right stays right in every order of turns (`Crew.sound_step`, `Crew.sound_run`).
-/
import Mathlib
import Weiterleitung.Lib.Prog

namespace Prog

variable {Op : Type} {Res : Op → Type} {χ σ α β ε : Type}

/-! ## Rules -/

/-- What programs may do to each other: whatever a program may do keeps the invariant, and
the others rely on nothing that it breaks. -/
structure Rules (Op : Type) (Res : Op → Type) (χ σ : Type) where
  answer : (o : Op) → χ → σ → Res o × σ
  inv : σ → Prop
  rely : σ → σ → Prop
  may : Op → σ → Prop
  fair : Op → χ → σ → Prop
  refl : ∀ s, rely s s
  trans : ∀ {s t u}, rely s t → rely t u → rely s u
  step : ∀ {o c s}, inv s → may o s → fair o c s → inv (answer o c s).2 ∧
    rely s (answer o c s).2

namespace Rules

variable (R : Rules Op Res χ σ)

/-- The program keeps to the rules from here on, and what it returns satisfies `post` in the
state it returns in. -/
def Amid (post : α → σ → Prop) : Prog Op Res α → σ → Prop
  | ret a, s => post a s
  | ask o k, s => ∀ t, R.rely s t → R.inv t →
      R.may o t ∧ ∀ c, R.fair o c t → Amid post (k (R.answer o c t).1) (R.answer o c t).2

/-- The same for a program that can fail; `post` is for its results. -/
def Amids (post : α → σ → Prop) (x : Fallible ε Op Res α) : σ → Prop :=
  R.Amid (fun r s => ∀ a, r = .ok a → post a s) x.run

variable {R} {post post' : α → σ → Prop}

theorem amid_imp (himp : ∀ a s, post a s → post' a s) : ∀ {p : Prog Op Res α} {s : σ},
    R.Amid post p s → R.Amid post' p s
  | ret a, s, h => himp a s h
  | ask _ _, _, h => fun t hst ht =>
      ⟨(h t hst ht).1, fun c hc => amid_imp himp ((h t hst ht).2 c hc)⟩

/-- A program that has not returned may as well wait. -/
theorem amid_wait {o : Op} {k : Res o → Prog Op Res α} {s t : σ} (h : R.Amid post (ask o k) s)
    (hst : R.rely s t) : R.Amid post (ask o k) t :=
  fun u htu hu => h u (R.trans hst htu) hu

/-- A sequence: the rest starts where the first part returns, with whatever can be relied on
since the beginning. -/
theorem amid_bind {m : β → σ → Prop} {f : β → Prog Op Res α} :
    ∀ {p : Prog Op Res β} {s : σ}, R.Amid m p s →
    (∀ b t, R.rely s t → m b t → R.Amid post (f b) t) → R.Amid post (p >>= f) s
  | ret b, s, h, hf => hf b s (R.refl s) h
  | ask _ _, _, h, hf => fun t hst ht => by
      obtain ⟨hmay, hpost⟩ := h t hst ht
      refine ⟨hmay, fun c hc => amid_bind (hpost c hc) fun b u htu hb => hf b u ?_ hb⟩
      exact R.trans hst (R.trans (R.step ht hmay hc).2 htu)

/-- A program that may always ask for what it asks for. -/
theorem amid_of_uses {P : Op → Prop} (hmay : ∀ o s, P o → R.may o s) :
    ∀ {p : Prog Op Res α}, Uses P p → ∀ s, R.Amid (fun _ _ => True) p s
  | ret _, _, _ => trivial
  | ask o _, hp, _ => fun t _ _ => ⟨hmay o t hp.1, fun _ _ => amid_of_uses hmay (hp.2 _) _⟩

/-- One operation: what it returns is in the state right after it. -/
theorem amid_op {o : Op} {post : Res o → σ → Prop} {s : σ}
    (h : ∀ t, R.rely s t → R.inv t → R.may o t ∧
    ∀ c, R.fair o c t → R.inv (R.answer o c t).2 → R.rely t (R.answer o c t).2 →
      post (R.answer o c t).1 (R.answer o c t).2) : R.Amid post (op o) s := by
  intro t hst ht
  obtain ⟨hmay, hpost⟩ := h t hst ht
  refine ⟨hmay, fun c hc => ?_⟩
  obtain ⟨hinv, hrely⟩ := R.step ht hmay hc
  exact hpost c hc hinv hrely

theorem amids_pure {a : α} {s : σ} (h : post a s) :
    R.Amids post (pure a : Fallible ε Op Res α) s := by
  intro b hb
  cases hb
  exact h

theorem amids_throw (e : ε) (s : σ) : R.Amids post (throw e : Fallible ε Op Res α) s :=
  fun _ h => nomatch h

theorem amids_computed {x : Except ε α} {s : σ} (h : ∀ a, x = .ok a → post a s) :
    R.Amids post (computed x : Fallible ε Op Res α) s :=
  h

theorem amids_seq {m : β → σ → Prop} {x : Fallible ε Op Res β} {f : β → Fallible ε Op Res α}
    {s : σ} (hx : R.Amids m x s) (hf : ∀ b t, R.rely s t → m b t → R.Amids post (f b) t) :
    R.Amids post (x >>= f) s := by
  refine amid_bind hx fun r t hst hr => ?_
  cases r with
  | ok b => exact hf b t hst (hr b rfl)
  | error e => exact fun _ h => nomatch h

theorem amids_lift {p : Prog Op Res α} {s : σ} (h : R.Amid post p s) :
    R.Amids post (ExceptT.lift p : Fallible ε Op Res α) s := by
  show R.Amid _ (Except.ok <$> p) s
  rw [map_eq_pure_bind]
  refine amid_bind h fun a t _ ha => ?_
  intro b hb
  cases hb
  exact ha

theorem amids_mapErr {ε' : Type} {f : ε → ε'} {x : Fallible ε Op Res α} {s : σ}
    (h : R.Amids post x s) :
    R.Amids post (mapErr f x) s := by
  refine amid_bind h fun r t _ hr => ?_
  cases r with
  | ok a => exact fun b hb => hr b (by cases hb; rfl)
  | error e => exact fun _ h => nomatch h

/-- What is returned and what can be relied on, put together. -/
theorem amids_later {x : Fallible ε Op Res α} {s : σ} (h : R.Amids post x s)
    (himp : ∀ a t, R.rely s t → post a t → post' a t) : R.Amids post' x s := by
  have hseq : R.Amids post' (x >>= fun a => (pure a : Fallible ε Op Res α)) s :=
    amids_seq h fun a t hst ha => amids_pure (himp a t hst ha)
  rwa [bind_pure] at hseq

/-- Nothing is asked of the result. -/
theorem amids_any {x : Fallible ε Op Res α} {s : σ} (h : R.Amid (fun _ _ => True) x.run s) :
    R.Amids (fun _ _ => True) x s :=
  amid_imp (fun _ _ _ _ _ => trivial) h

/-- A failure is thrown away with the program that failed. -/
theorem amid_of_amids {x : Fallible ε Op Res α} {s : σ} (h : R.Amids post x s) :
    R.Amid (fun _ _ => True) x.run s :=
  amid_imp (fun _ _ _ => trivial) h

end Rules

/-! ## Crews -/

/-- A state, and the programs that are at work on it. -/
structure Crew (Op : Type) (Res : Op → Type) (σ α : Type) where
  state : σ
  tasks : List (Prog Op Res α)

namespace Crew

/-- A program joins, a program takes its turn, or something else happens. -/
inductive Step (R : Rules Op Res χ σ) (joins : Prog Op Res α → Prop) (other : σ → σ → Prop) :
    Crew Op Res σ α → Crew Op Res σ α → Prop
  | join (s : Crew Op Res σ α) (p : Prog Op Res α) : joins p →
      Step R joins other s ⟨s.state, p :: s.tasks⟩
  | turn (s : σ) (before after : List (Prog Op Res α)) (o : Op)
      (k : Res o → Prog Op Res α) (c : χ) :
      R.fair o c s → Step R joins other ⟨s, before ++ ask o k :: after⟩
        ⟨(R.answer o c s).2, before ++ k (R.answer o c s).1 :: after⟩
  | other (s : Crew Op Res σ α) (t : σ) : other s.state t → Step R joins other s ⟨t, s.tasks⟩

/-- Turns and other steps, in any order. -/
def Run (R : Rules Op Res χ σ) (joins : Prog Op Res α → Prop) (other : σ → σ → Prop) :
    Crew Op Res σ α → Crew Op Res σ α → Prop :=
  Relation.ReflTransGen (Step R joins other)

/-- Every program that has not returned keeps to the rules. -/
structure Sound (R : Rules Op Res χ σ) (post : α → σ → Prop) (s : Crew Op Res σ α) : Prop where
  inv : R.inv s.state
  tasks : ∀ p ∈ s.tasks, (∃ a, p = ret a) ∨ R.Amid post p s.state

section
variable {R : Rules Op Res χ σ} {joins : Prog Op Res α → Prop} {other : σ → σ → Prop}
    {post : α → σ → Prop}
variable {s s' : Crew Op Res σ α}

theorem Sound.later {t : σ} (h : Sound R post s) (hst : R.rely s.state t) :
    ∀ p ∈ s.tasks, (∃ a, p = ret a) ∨ R.Amid post p t := by
  intro p hp
  rcases h.tasks p hp with hret | hamid
  · exact Or.inl hret
  · cases p with
    | ret a => exact Or.inl ⟨a, rfl⟩
    | ask o k => exact Or.inr (Rules.amid_wait hamid hst)

/-- What the program whose turn it is asks for, and what it may return. -/
theorem Sound.turn {s : σ} {before after : List (Prog Op Res α)} {o : Op}
    {k : Res o → Prog Op Res α} (h : Sound R post ⟨s, before ++ ask o k :: after⟩) :
    R.may o s ∧
      ∀ c, R.fair o c s → R.Amid post (k (R.answer o c s).1) (R.answer o c s).2 := by
  rcases h.tasks (ask o k) (by simp) with ⟨a, hret⟩ | hamid
  · cases hret
  · exact hamid s (R.refl s) h.inv

/-- A step keeps the crew right, and is one that the others rely on. -/
theorem sound_step (hjoins : ∀ p, joins p → ∀ s, R.inv s → R.Amid post p s)
    (hother : ∀ s t, R.inv s → other s t → R.inv t ∧ R.rely s t) (h : Sound R post s)
    (hstep : Step R joins other s s') : Sound R post s' ∧ R.rely s.state s'.state := by
  cases hstep with
  | join s p hp =>
      refine ⟨⟨h.inv, fun q hq => ?_⟩, R.refl _⟩
      rcases List.mem_cons.mp hq with rfl | hq
      · exact Or.inr (hjoins q hp s.state h.inv)
      · exact h.tasks q hq
  | turn s before after o k c hc =>
      obtain ⟨hmay, hnext⟩ := h.turn
      obtain ⟨hinv, hrely⟩ := R.step h.inv hmay hc
      refine ⟨⟨hinv, fun q hq => ?_⟩, hrely⟩
      have hold := h.later hrely
      rcases List.mem_append.mp hq with hq | hq
      · exact hold q (List.mem_append_left _ hq)
      · rcases List.mem_cons.mp hq with rfl | hq
        · exact Or.inr (hnext c hc)
        · exact hold q (List.mem_append_right _ (List.mem_cons_of_mem _ hq))
  | other s t ht =>
      obtain ⟨hinv, hrely⟩ := hother s.state t h.inv ht
      exact ⟨⟨hinv, h.later hrely⟩, hrely⟩

theorem sound_run (hjoins : ∀ p, joins p → ∀ s, R.inv s → R.Amid post p s)
    (hother : ∀ s t, R.inv s → other s t → R.inv t ∧ R.rely s t) (h : Sound R post s)
    (hrun : Run R joins other s s') : Sound R post s' ∧ R.rely s.state s'.state := by
  induction hrun with
  | refl => exact ⟨h, R.refl _⟩
  | tail _ hstep ih =>
      obtain ⟨hsound, hrely⟩ := sound_step hjoins hother ih.1 hstep
      exact ⟨hsound, R.trans ih.2 hrely⟩

/-- The turn of one program. -/
def turnOf (R : Rules Op Res χ σ) (s : Crew Op Res σ α) (turn : Nat × χ) : Crew Op Res σ α :=
  match s.tasks[turn.1]? with
  | some (ask o k) =>
      ⟨(R.answer o turn.2 s.state).2, s.tasks.set turn.1 (k (R.answer o turn.2 s.state).1)⟩
  | _ => s

/-- Chance is fair in that turn. -/
def FairTurn (R : Rules Op Res χ σ) (s : Crew Op Res σ α) (turn : Nat × χ) : Prop :=
  match s.tasks[turn.1]? with
  | some (ask o _) => R.fair o turn.2 s.state
  | _ => True

instance [∀ o c s, Decidable (R.fair o c s)] (s : Crew Op Res σ α) (turn : Nat × χ) :
    Decidable (FairTurn R s turn) := by
  unfold FairTurn
  split <;> infer_instance

/-- The turn of a program that asks for something, among the others. -/
theorem turnOf_ask {i : Nat} {c : χ} {o : Op} {k : Res o → Prog Op Res α}
    (h : s.tasks[i]? = some (ask o k)) :
    ∃ before after, s = ⟨s.state, before ++ ask o k :: after⟩ ∧ before.length = i ∧
      turnOf R s (i, c) = ⟨(R.answer o c s.state).2, before ++ k (R.answer o c s.state).1 ::
        after⟩ := by
  obtain ⟨hlt, hget⟩ := List.getElem?_eq_some_iff.mp h
  have hsplit : s.tasks = s.tasks.take i ++ ask o k :: s.tasks.drop (i + 1) := by
    rw [← hget, List.getElem_cons_drop, List.take_append_drop]
  refine ⟨s.tasks.take i, s.tasks.drop (i + 1), ?_, List.length_take_of_le hlt.le, ?_⟩
  · rw [← hsplit]
  · unfold turnOf
    simp only [h]
    rw [List.set_eq_take_append_cons_drop, if_pos hlt]

theorem run_turnOf (s : Crew Op Res σ α) (turn : Nat × χ) (hfair : FairTurn R s turn) :
    Run R joins other s (turnOf R s turn) := by
  obtain ⟨i, c⟩ := turn
  unfold FairTurn at hfair
  split at hfair
  · next o k htask =>
      obtain ⟨before, after, hs, -, hturn⟩ := turnOf_ask (R := R) (c := c) htask
      rw [hturn]
      have hstep : Step R joins other ⟨s.state, before ++ ask o k :: after⟩ _ :=
        .turn s.state _ _ o k c hfair
      rw [← hs] at hstep
      exact Relation.ReflTransGen.single hstep
  · next hnone =>
      unfold turnOf
      split
      · next o k htask => exact absurd htask (hnone o k)
      · exact Relation.ReflTransGen.refl

/-- Chance is fair in every turn of a schedule. -/
def FairTurns (R : Rules Op Res χ σ) : List (Nat × χ) → Crew Op Res σ α → Prop
  | [], _ => True
  | turn :: schedule, s => FairTurn R s turn ∧ FairTurns R schedule (turnOf R s turn)

theorem fairTurns_of_fair (h : ∀ o c s, R.fair o c s) (schedule : List (Nat × χ)) :
    ∀ s : Crew Op Res σ α, FairTurns R schedule s := by
  induction schedule with
  | nil => exact fun _ => trivial
  | cons turn schedule ih =>
      refine fun s => ⟨?_, ih _⟩
      unfold FairTurn
      split
      · exact h _ _ _
      · trivial

/-- Turns in the order of a schedule. -/
theorem run_turns (schedule : List (Nat × χ)) : ∀ s : Crew Op Res σ α, FairTurns R schedule s →
    Run R joins other s (schedule.foldl (turnOf R) s) := by
  induction schedule with
  | nil => exact fun s _ => Relation.ReflTransGen.refl
  | cons turn schedule ih =>
      exact fun s hfair => (run_turnOf s turn hfair.1).trans (ih (turnOf R s turn) hfair.2)

instance FairTurns.decidable [∀ o c s, Decidable (R.fair o c s)] :
    ∀ (schedule : List (Nat × χ))
    (s : Crew Op Res σ α), Decidable (FairTurns R schedule s)
  | [], _ => isTrue trivial
  | turn :: schedule, s =>
      haveI := decidable schedule (turnOf R s turn)
      inferInstanceAs (Decidable (_ ∧ _))

theorem sound_start {t : σ} (h : R.inv t) : Sound R post (⟨t, []⟩ : Crew Op Res σ α) :=
  ⟨h, fun _ hp => nomatch hp⟩

end

end Crew

end Prog
