/-
# `Lib.Memory` — programs that remember, alone and among others

A program remembers of its answers what a `Memory` says, and may ask for what is in order for
what it remembers.  `Minds post p m` says so of a program that starts with the memory `m`, and
that it returns with a memory that satisfies `post`; it is proved by the structure of the code
(`minds_bind`, `minds_seq`, …).

In a crew each program has a memory of its own.  If what holds of the state and of all the
memories survives each operation that is in order, then it holds in every order of turns
(`minded_step`, `minded_run`).
-/
import Mathlib
import Weiterleitung.Lib.Tasks

namespace Prog

variable {Op : Type} {Res : Op → Type} {χ σ μ α β ε ε' : Type}

/-- What a program remembers after an answer, and what is in order for what it remembers. -/
structure Memory (Op : Type) (Res : Op → Type) (μ : Type) where
  next : μ → (o : Op) → Res o → μ
  ok : μ → Op → Prop

/-- Whatever is answered, each operation is in order, and it returns as `post` says. -/
def Minds (M : Memory Op Res μ) (post : α → μ → Prop) : Prog Op Res α → μ → Prop
  | ret a, m => post a m
  | ask o k, m => M.ok m o ∧ ∀ r, Minds M post (k r) (M.next m o r)

section
variable {M : Memory Op Res μ} {m : μ}

theorem minds_bind {mid : β → μ → Prop} {post : α → μ → Prop} {f : β → Prog Op Res α}
    (hf : ∀ b n, mid b n → Minds M post (f b) n) :
    ∀ {p : Prog Op Res β} {m : μ}, Minds M mid p m →
    Minds M post (p >>= f) m
  | ret b, m, h => hf b m h
  | ask _ _, _, h => ⟨h.1, fun r => minds_bind hf (h.2 r)⟩

theorem minds_imp {post post' : α → μ → Prop} (himp : ∀ a n, post a n → post' a n) :
    ∀ {p : Prog Op Res α} {m : μ}, Minds M post p m → Minds M post' p m
  | ret a, m, h => himp a m h
  | ask _ _, _, h => ⟨h.1, fun r => minds_imp himp (h.2 r)⟩

/-- Operations that are in order while a condition of the memory
lasts, and that let it last. -/
theorem minds_of_uses {P : Op → Prop} {G : μ → Prop} (h : ∀ m o, G m → P o → M.ok m o ∧
      ∀ r, G (M.next m o r)) :
    ∀ {p : Prog Op Res α} {m : μ}, Uses P p → G m → Minds M (fun _ n => G n) p m
  | ret _, _, _, hm => hm
  | ask o _, m, hp, hm =>
      ⟨(h m o hm hp.1).1, fun r => minds_of_uses h (hp.2 r) ((h m o hm hp.1).2 r)⟩

theorem minds_mapErr {g : ε → ε'} {post : Except ε' α → μ → Prop} {x : Fallible ε Op Res α}
    (hx : Minds M (fun r n => post (r.mapError g) n) x.run m) :
    Minds M post (mapErr g x).run m :=
  minds_bind (fun _ _ hr => hr) hx

/-- What a program that can fail remembers, when it succeeds and when it fails. -/
def EndsIn (post : α → μ → Prop) (fail : μ → Prop) : Except ε α → μ → Prop
  | .ok a, n => post a n
  | .error _, n => fail n

def Settles (M : Memory Op Res μ) (post : α → μ → Prop) (fail : μ → Prop)
    (x : Fallible ε Op Res α) (m : μ) : Prop :=
  Minds M (EndsIn post fail) x.run m

section
variable {post : α → μ → Prop} {fail : μ → Prop}

theorem settles_seq {mid : β → μ → Prop} {x : Fallible ε Op Res β}
    {f : β → Fallible ε Op Res α} (hx : Settles M mid fail x m)
    (hf : ∀ b n, mid b n → Settles M post fail (f b) n) :
    Settles M post fail (x >>= f) m :=
  minds_bind (fun r n hr => by
    cases r with
    | ok b => exact hf b n hr
    | error e => exact hr) hx

theorem settles_mapErr {g : ε → ε'} {x : Fallible ε Op Res α} (hx : Settles M post fail x m) :
    Settles M post fail (mapErr g x) m :=
  minds_mapErr (minds_imp (fun r n hr => by
    cases r with
    | ok b => exact hr
    | error e => exact hr) hx)

theorem settles_of_uses {P : Op → Prop} {G : μ → Prop} (h : ∀ m o, G m → P o → M.ok m o ∧ ∀ r,
      G (M.next m o r))
    (hfail : ∀ n, G n → fail n) {x : Fallible ε Op Res α} (hx : Uses P x.run) (hm : G m) :
    Settles M (fun _ n => G n) fail x m :=
  minds_imp (fun r n hn => by
    cases r with
    | ok a => exact hn
    | error e => exact hfail n hn) (minds_of_uses h hx hm)

end

/-! ### Whatever it remembers -/

/-- Each operation is in order, whatever the program remembers at its start. -/
def Heeds (M : Memory Op Res μ) (p : Prog Op Res α) :
    Prop := ∀ m, Minds M (fun _ _ => True) p m

theorem heeds_bind {p : Prog Op Res β} {f : β → Prog Op Res α} (hp : Heeds M p)
    (hf : ∀ b, Heeds M (f b)) :
    Heeds M (p >>= f) :=
  fun m => minds_bind (fun b n _ => hf b n) (hp m)

theorem heeds_seq {x : Fallible ε Op Res β} {f : β → Fallible ε Op Res α} (hx : Heeds M x.run)
    (hf : ∀ b, Heeds M (f b).run) : Heeds M (x >>= f).run :=
  heeds_bind hx fun r => by
    cases r with
    | ok b => exact hf b
    | error e => exact fun _ => trivial

theorem heeds_mapErr {g : ε → ε'} {x : Fallible ε Op Res α} (hx : Heeds M x.run) :
    Heeds M (mapErr g x).run :=
  heeds_bind hx fun _ _ => trivial

theorem heeds_computed {x : Except ε β} {f : β → Fallible ε Op Res α}
    (hf : ∀ b, x = .ok b → Heeds M (f b).run) :
    Heeds M (computed x >>= f).run := by
  cases x with
  | ok b => exact hf b rfl
  | error e => exact fun _ => trivial

theorem heeds_of_uses {P : Op → Prop} (h : ∀ m o, P o → M.ok m o) {p : Prog Op Res α}
    (hp : Uses P p) : Heeds M p :=
  fun _ => minds_of_uses (fun m o _ ho => ⟨h m o ho, fun _ => trivial⟩) hp trivial

end

/-! ## Crews -/

namespace Crew

variable {R : Rules Op Res χ σ} {M : Memory Op Res μ} {joins : Prog Op Res α → Prop}
    {other : σ → σ → Prop}
variable {post : α → μ → Prop} {I : σ → List μ → Prop} {s s' : Crew Op Res σ α}

theorem exists_split {τ : Type} {P : τ → μ → Prop} {p : τ} {ta : List τ} :
    ∀ {tb : List τ} {memories : List μ},
    List.Forall₂ P (tb ++ p :: ta) memories → ∃ before m after,
    memories = before ++ m :: after ∧
      List.Forall₂ P tb before ∧ P p m ∧ List.Forall₂ P ta after
  | [], _, .cons hp hafter => ⟨[], _, _, rfl, .nil, hp, hafter⟩
  | _ :: _, _, .cons hq hrest => by
      obtain ⟨before, m, after, rfl, hbefore, hp, hafter⟩ := exists_split hrest
      exact ⟨_ :: before, m, after, rfl, .cons hq hbefore, hp, hafter⟩

/-- Each program minds what it remembers, and state and memories fit together. -/
def Minded (M : Memory Op Res μ) (post : α → μ → Prop) (I : σ → List μ → Prop)
    (s : Crew Op Res σ α) : Prop :=
  ∃ memories, List.Forall₂ (Minds M post) s.tasks memories ∧ I s.state memories

theorem minded_step {start : μ} (hjoins : ∀ p, joins p → Minds M post p start)
    (hstart : ∀ s memories, I s memories → I s (start :: memories))
    (hturn : ∀ s before m after o c, M.ok m o → R.fair o c s → I s (before ++ m :: after) →
      I (R.answer o c s).2 (before ++ M.next m o (R.answer o c s).1 :: after))
    (hother : ∀ s t memories, other s t → I s memories → I t memories) (h : Minded M post I s)
    (hstep : Step R joins other s s') : Minded M post I s' := by
  obtain ⟨memories, htasks, hinv⟩ := h
  cases hstep with
  | join s p hp => exact ⟨start :: memories, .cons (hjoins p hp) htasks, hstart _ _ hinv⟩
  | other s t ht => exact ⟨memories, htasks, hother _ _ _ ht hinv⟩
  | turn s tb ta o k c hc =>
      -- the memory of the program whose turn it is
      obtain ⟨before, m, after, rfl, hbefore, ⟨hok, hnext⟩, hafter⟩ := exists_split htasks
      exact ⟨_, List.rel_append hbefore (.cons (hnext _) hafter),
        hturn s before m after o c hok hc hinv⟩

theorem minded_run {start : μ} (hjoins : ∀ p, joins p → Minds M post p start)
    (hstart : ∀ s memories, I s memories → I s (start :: memories))
    (hturn : ∀ s before m after o c, M.ok m o → R.fair o c s → I s (before ++ m :: after) →
      I (R.answer o c s).2 (before ++ M.next m o (R.answer o c s).1 :: after))
    (hother : ∀ s t memories, other s t → I s memories → I t memories) (h : Minded M post I s)
    (hrun : Run R joins other s s') : Minded M post I s' := by
  induction hrun with
  | refl => exact h
  | tail _ hstep ih => exact minded_step hjoins hstart hturn hother ih hstep

end Crew

end Prog
