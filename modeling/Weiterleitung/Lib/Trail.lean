/-
# `Lib.Trail` — programs that leave a trail

Programs take turns, and every operation is noted with its answer.  A discipline says after
which trail an operation may be asked for, and what is promised of the answers; a trail is
orderly if each of its operations was asked for, and each answer given, as that says.  An entry
is judged by what came before it, so what a trail has told it tells for ever:

    programs that keep to the discipline leave an orderly trail      (`orderly_run`)
    an operation that is always allowed is noted with its answer      (`amid_noted`)
    a condition of the trail that lasts allows what it allows         (`amid_of_lasting`)

Programs over fewer operations are run among those over more of them by `embed`, under the
rules that these operations are under (`pull`).  A program on its own is `Scripted` if it keeps
to what is allowed whatever it is answered; then every run of it is orderly
(`orderly_scripted`).  What it returns is what it returns on the answers of its trail
(`scripted_replays`).
-/
import Mathlib
import Weiterleitung.Lib.Calls
import Weiterleitung.Lib.Memory

namespace Prog

variable {Op Op' : Type} {Res : Op → Type} {Res' : Op' → Type} {χ σ α β : Type}

/-! ## Trails -/

/-- An operation that was asked for, with its answer. -/
abbrev Asked (Op : Type) (Res : Op → Type) := (o : Op) × Res o

abbrev Trail (Op : Type) (Res : Op → Type) := List (Asked Op Res)

/-- What may be asked for after a trail, and what is promised of an answer. -/
structure Discipline (Op : Type) (Res : Op → Type) where
  allowed : Trail Op Res → Op → Prop
  honest : Trail Op Res → Asked Op Res → Prop

/-- Each entry is as the discipline wants it, by what came before it. -/
def Orderly (D : Discipline Op Res) (trail : Trail Op Res) : Prop :=
  ∀ before e after, trail = before ++ e :: after → D.allowed before e.1 ∧ D.honest before e

section
variable {D : Discipline Op Res} {trail : Trail Op Res}

theorem orderly_nil : Orderly D ([] : Trail Op Res) := by
  intro before e after h
  cases before <;> cases h

theorem orderly_concat {e : Asked Op Res} (h : Orderly D trail)
    (hallowed : D.allowed trail e.1)
    (hhonest : D.honest trail e) : Orderly D (trail ++ [e]) := by
  intro before e' after heq
  rcases List.eq_nil_or_concat' after with rfl | ⟨after, last, rfl⟩
  · obtain ⟨rfl, hlast⟩ := List.append_inj' heq rfl
    cases hlast
    exact ⟨hallowed, hhonest⟩
  · rw [← List.cons_append, ← List.append_assoc] at heq
    obtain ⟨rfl, -⟩ := List.append_inj' heq rfl
    exact h before e' after rfl

theorem Orderly.start {before : Trail Op Res} (h : Orderly D trail) (hp : before <+: trail) :
    Orderly D before := by
  obtain ⟨rest, rfl⟩ := hp
  intro front e after heq
  exact h front e (after ++ rest) (by simp [heq])

/-- An entry of an orderly trail, and the trail that it was judged by. -/
theorem Orderly.of_mem {e : Asked Op Res} (h : Orderly D trail) (he : e ∈ trail) :
    ∃ before after, trail = before ++ e :: after ∧ D.allowed before e.1 ∧
      D.honest before e := by
  obtain ⟨before, after, rfl⟩ := List.append_of_mem he
  exact ⟨before, after, rfl, h before e after rfl⟩

end

/-! ## Rules -/

/-- How operations are answered, what holds of the state meanwhile, and what
that says of the answers. -/
structure Answering (Op : Type) (Res : Op → Type) (χ σ : Type) where
  answer : (o : Op) → χ → σ → Res o × σ
  holds : σ → Prop
  may : Op → Prop
  given : Asked Op Res → Prop
  keeps : ∀ {o c s}, holds s → may o → holds (answer o c s).2
  gives : ∀ {o c s}, holds s → given ⟨o, (answer o c s).1⟩

/-- The operations are answered in a state, and noted. -/
def tracked (M : Answering Op Res χ σ) (D : Discipline Op Res) :
    Rules Op Res χ (σ × Trail Op Res) where
  answer o c s :=
    ((M.answer o c s.1).1, (M.answer o c s.1).2, s.2 ++ [⟨o, (M.answer o c s.1).1⟩])
  inv s := M.holds s.1 ∧ Orderly ⟨D.allowed, fun before e => D.honest before e ∧ M.given e⟩ s.2
  rely s t := s.2 <+: t.2
  may o s := M.may o ∧ D.allowed s.2 o
  fair o c s := D.honest s.2 ⟨o, (M.answer o c s.1).1⟩
  refl s := List.prefix_refl s.2
  trans := List.IsPrefix.trans
  step hs hmay hfair :=
    ⟨⟨M.keeps hs.1 hmay.1, orderly_concat hs.2 hmay.2 ⟨hfair, M.gives hs.1⟩⟩,
      List.prefix_append _ _⟩

section
variable {M : Answering Op Res χ σ}

/-- What a discipline allows is nothing to the steps of a crew. -/
theorem run_tracked {A A' : Trail Op Res → Op → Prop} {H : Trail Op Res → Asked Op Res → Prop}
    {joins : Prog Op Res α → Prop} {other : σ × Trail Op Res → σ × Trail Op Res → Prop}
    {t t' : Crew Op Res (σ × Trail Op Res) α}
    (h : Crew.Run (tracked M ⟨A, H⟩) joins other t t') :
    Crew.Run (tracked M ⟨A', H⟩) joins other t t' := by
  refine Relation.ReflTransGen.mono (fun u v hstep => ?_) _ _ h
  cases hstep with
  | join u p hp => exact .join u p hp
  | turn u before after o k c hc => exact .turn u before after o k c hc
  | other u v hv => exact .other u v hv

/-- Programs that keep to the discipline leave an orderly trail, in any order of turns. -/
theorem orderly_run {A : Trail Op Res → Op → Prop} {H : Trail Op Res → Asked Op Res → Prop}
    {joins : Prog Op Res α → Prop} {other : σ × Trail Op Res → σ × Trail Op Res → Prop}
    (hjoins : ∀ p, joins p → ∀ s, (tracked M ⟨A, H⟩).Amid (fun _ _ => True) p s)
    (hother : ∀ s t, M.holds s.1 → other s t → M.holds t.1 ∧ t.2 = s.2) {s : σ}
    (hs : M.holds s) {t : Crew Op Res (σ × Trail Op Res) α}
    (h : Crew.Run (tracked M ⟨fun _ _ => True, H⟩) joins other ⟨(s, []), []⟩ t) :
    Orderly ⟨A, fun before e => H before e ∧ M.given e⟩ t.state.2 := by
  refine (Crew.sound_run (R := tracked M ⟨A, H⟩) (fun p hp u _ => hjoins p hp u) ?_ ?_
    (run_tracked h)).1.inv.2
  · intro u v hu huv
    obtain ⟨hholds, htrail⟩ := hother u v hu.1 huv
    refine ⟨⟨hholds, ?_⟩, ?_⟩
    · rw [htrail]
      exact hu.2
    · show u.2 <+: v.2
      rw [htrail]
  · exact Crew.sound_start (t := (s, [])) ⟨hs, orderly_nil⟩

end

/-! ## Programs over fewer operations -/

/-- The program among more operations. -/
def embed (f : Op → Op') (g : ∀ o, Res' (f o) → Res o) : Prog Op Res α → Prog Op' Res' α
  | ret a => ret a
  | ask o k => ask (f o) fun r => embed f g (k (g o r))

section
variable {f : Op → Op'} {g : ∀ o, Res' (f o) → Res o}

theorem uses_embed {P : Op' → Prop} :
    ∀ {p : Prog Op Res α}, Uses (fun o => P (f o)) p → Uses P (embed f g p)
  | ret _, _ => trivial
  | ask _ _, hp => ⟨hp.1, fun r => uses_embed (hp.2 (g _ r))⟩

theorem lift_eq_embed {Call : Type} {Ret : Call → Type} (p : Prog Op Res α) :
    (lift p : Prog (Op ⊕ Call) (Answers Res Ret) α) = @embed _ _ _ (Answers Res Ret) _ Sum.inl
    (fun _ r => r) p := by
  induction p with
  | ret a => rfl
  | ask o k ih => exact congrArg (ask (Sum.inl o)) (funext ih)

variable (f g)

/-- The rules that the embedded operations are under. -/
def Rules.pull (R : Rules Op' Res' χ σ) : Rules Op Res χ σ where
  answer o c s := (g o (R.answer (f o) c s).1, (R.answer (f o) c s).2)
  inv := R.inv
  rely := R.rely
  may o s := R.may (f o) s
  fair o c s := R.fair (f o) c s
  refl := R.refl
  trans := R.trans
  step hs hmay hfair := R.step hs hmay hfair

variable {f g}

theorem Rules.amid_embed {R : Rules Op' Res' χ σ} {post : α → σ → Prop} :
    ∀ {p : Prog Op Res α} {s : σ}, (R.pull f g).Amid post p s → R.Amid post (embed f g p) s
  | ret _, _, h => h
  | ask _ _, _, h =>
      fun t hst ht => ⟨(h t hst ht).1, fun c hc => Rules.amid_embed ((h t hst ht).2 c hc)⟩

/-- An operation that is allowed from here on is noted with its answer. -/
theorem amid_noted {M : Answering Op' Res' χ σ} {D : Discipline Op' Res'}
    {s : σ × Trail Op' Res'} {o : Op}
    (hmay : M.may (f o)) (hallowed : ∀ trail, s.2 <+: trail → D.allowed trail (f o)) :
    ((tracked M D).pull f g).Amid (fun r t => ∃ r', r = g o r' ∧ ⟨f o, r'⟩ ∈ t.2)
      (op o) s := by
  refine Rules.amid_op fun t hst _ => ⟨⟨hmay, hallowed t.2 hst⟩, fun c _ _ _ => ?_⟩
  exact ⟨(M.answer (f o) c t.1).1, rfl, List.mem_append_right _ List.mem_cons_self⟩

/-- A condition that lasts, and allows every operation of the program. -/
theorem amid_of_lasting {M : Answering Op' Res' χ σ} {D : Discipline Op' Res'} {P : Op → Prop}
    {G : Trail Op' Res' → Prop} (hlasts : ∀ {before trail}, before <+: trail → G before →
      G trail)
    (hallowed : ∀ o trail, P o → G trail → M.may (f o) ∧ D.allowed trail (f o)) :
    ∀ {p : Prog Op Res α}, Uses P p →
    ∀ s : σ × Trail Op' Res', G s.2 → ((tracked M D).pull f g).Amid (fun _ _ => True) p s
  | ret _, _, _, _ => trivial
  | ask o _, hp, _, hG => fun t hst _ =>
      ⟨hallowed o t.2 hp.1 (hlasts hst hG), fun _ _ => amid_of_lasting hlasts hallowed
        (hp.2 _) _ (hlasts (hst.trans (List.prefix_append _ _)) hG)⟩

end

/-! ## A program on its own -/

/-- The entries of calls, among those of the operations of their caller. -/
def called {Call : Type} {Ret : Call → Type} (trail : Trail Call Ret) :
    Trail (Op ⊕ Call) (Answers Res Ret) :=
  trail.map fun e => ⟨.inr e.1, e.2⟩

/-- Operations are answered as before, and noted. -/
def noting (handler : Handler Op Res σ) : Handler Op Res (σ × Trail Op Res) := fun o s =>
  ((handler o s.1).1, (handler o s.1).2, s.2 ++ [⟨o, (handler o s.1).1⟩])

/-- What has been asked for is remembered. -/
def Memory.trail (allowed : Trail Op Res → Op → Prop) : Memory Op Res (Trail Op Res) :=
  ⟨fun trail o r => trail ++ [⟨o, r⟩], allowed⟩

/-- Whatever is answered, each operation is allowed after what came before it, and
it ends as `post` says. -/
abbrev Scripted (allowed : Trail Op Res → Op → Prop) (post : α → Trail Op Res → Prop) :
    Prog Op Res α → Trail Op Res → Prop := Minds (Memory.trail allowed) post

/-- The program asks for what the trail says, and returns this on its answers. -/
def Replays : Prog Op Res α → Trail Op Res → α → Prop
  | ret b, trail, a => trail = [] ∧ b = a
  | ask o k, trail, a => ∃ r rest, trail = ⟨o, r⟩ :: rest ∧ Replays (k r) rest a

section
variable {allowed : Trail Op Res → Op → Prop} {trail : Trail Op Res}

/-- A run of it is orderly, whatever answers it, and ends as it should. -/
theorem orderly_scripted (handler : Handler Op Res σ) {post : α → Trail Op Res → Prop} :
    ∀ {p : Prog Op Res α} {s : σ} {trail : Trail Op Res}, Scripted allowed post p trail →
      Orderly ⟨allowed, fun _ _ => True⟩ trail →
      Orderly ⟨allowed, fun _ _ => True⟩ (run (noting handler) p (s, trail)).2.2 ∧
        post (run (noting handler) p (s, trail)).1 (run (noting handler) p (s, trail)).2.2
  | ret _, _, _, h, horderly => ⟨horderly, h⟩
  | ask o k, s, _, h, horderly =>
      orderly_scripted handler (p := k (handler o s).1) (s := (handler o s).2) (h.2 _)
        (orderly_concat (e := ⟨o, (handler o s).1⟩) horderly h.1 trivial)

/-- A program that keeps to what is allowed ends with what it returns on its trail. -/
theorem scripted_replays {post : α → Trail Op Res → Prop} {p : Prog Op Res α} :
    ∀ {trail : Trail Op Res}, Scripted allowed post p trail →
      Scripted allowed (fun a t => post a t ∧ ∃ rest, t = trail ++ rest ∧ Replays p rest a)
        p trail := by
  induction p with
  | ret a => exact fun h => ⟨h, [], (List.append_nil _).symm, rfl, rfl⟩
  | ask o k ih =>
      refine fun h => ⟨h.1, fun r => minds_imp ?_ (ih r (h.2 r))⟩
      rintro a t ⟨hpost, rest, rfl, hreplays⟩
      exact ⟨hpost, ⟨o, r⟩ :: rest, List.append_assoc .., r, rest, rfl, hreplays⟩

/-- A program of calls, among the operations of its caller. -/
theorem scripted_calls {Call : Type}
    {Ret : Call → Type} {before : Trail (Op ⊕ Call) (Answers Res Ret)}
    {A : Trail Call Ret → Call → Prop} {A' : Trail (Op ⊕ Call) (Answers Res Ret) → Op ⊕ Call →
      Prop}
    {post : α → Trail Call Ret → Prop} (h : ∀ t c, A t c → A' (before ++ called t) (.inr c)) :
    ∀ {p : Prog Call Ret α} {t : Trail Call Ret}, Scripted A post p t →
      Scripted A' (fun r t' => ∃ t, t' = before ++ called t ∧ post r t)
        (embed Sum.inr (fun _ r => r) p : Prog (Op ⊕ Call) (Answers Res Ret) α)
        (before ++ called t)
  | ret _, t, hp => ⟨t, rfl, hp⟩
  | ask c k, t, hp => by
      refine ⟨h t c hp.1, fun r => ?_⟩
      have hlast : before ++ called (t ++ [⟨c, r⟩]) = (before ++ called t) ++
          [⟨.inr c, r⟩] := by
        rw [List.append_assoc]
        exact congrArg (before ++ ·) List.map_append
      show Minds _ _ _ ((before ++ called t) ++ [⟨.inr c, r⟩])
      rw [← hlast]
      exact scripted_calls h (hp.2 r)

end

/-! ## Operations that are programs -/

/-- Each operation is what its program does. -/
def expand (f : ∀ o, Prog Op' Res' (Res o)) : Prog Op Res α → Prog Op' Res' α
  | ret a => ret a
  | ask o k => f o >>= fun r => expand f (k r)

theorem expand_bind (f : ∀ o, Prog Op' Res' (Res o)) (k : α → Prog Op Res β)
    (p : Prog Op Res α) :
    expand f (p >>= k) = expand f p >>= fun a => expand f (k a) := by
  induction p with
  | ret a => rfl
  | ask o next ih =>
      show (f o >>= fun r => expand f (next r >>= k))
        = (f o >>= fun r => expand f (next r)) >>= fun a => expand f (k a)
      rw [bind_assoc]
      exact congrArg (f o >>= ·) (funext ih)

theorem scripted_expand {f : ∀ o, Prog Op' Res' (Res o)}
    {allowed : Trail Op' Res' → Op' → Prop}
    {m : α → Trail Op' Res' → Prop} {post : β → Trail Op' Res' → Prop} {trail : Trail Op' Res'}
    {p : Prog Op Res α} {k : α → Prog Op Res β} (hp : Scripted allowed m (expand f p) trail)
    (hk : ∀ a t, m a t → Scripted allowed post (expand f (k a)) t) :
    Scripted allowed post (expand f (p >>= k)) trail := by
  rw [expand_bind]
  exact minds_bind hk hp

end Prog
