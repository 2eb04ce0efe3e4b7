/-
# `Lib.Tries` — one after the other, until one accepts

A list of candidates is gone through in its order.  One that accepts ends it well, one that
rejects is followed by the next, and one that is broken ends it at once (`go`).  To try
everything means that it ends well if any candidate accepts, and badly only
after every one was tried:

    it does exactly if nothing is left untried behind a broken candidate,
    unless one before it accepts                                        (`Ends.iff`)
-/
import Mathlib

namespace Tries

variable {α ε : Type}

/-- What comes of one candidate. -/
inductive Outcome (ε : Type) where
  | accepted
  | rejected (e : ε)
  | broken (e : ε)

namespace Outcome

def Accepts : Outcome ε → Prop
  | accepted => True
  | rejected _ | broken _ => False

def Breaks : Outcome ε → Prop
  | broken _ => True
  | accepted | rejected _ => False

def Rejects : Outcome ε → Prop
  | rejected _ => True
  | accepted | broken _ => False

theorem Rejects.not_accepts {o : Outcome ε} (h : o.Rejects) : ¬o.Accepts := by
  cases o with
  | rejected e => exact id
  | accepted => exact fun _ => h
  | broken e => exact id

theorem Rejects.not_breaks {o : Outcome ε} (h : o.Rejects) : ¬o.Breaks := by
  cases o with
  | rejected e => exact id
  | accepted => exact id
  | broken e => exact fun _ => h

theorem Accepts.not_breaks {o : Outcome ε} (h : o.Accepts) : ¬o.Breaks := by
  cases o with
  | accepted => exact id
  | rejected e => exact id
  | broken e => exact fun _ => h

end Outcome

/-- The result, and the candidates that were tried; `last` is what the last rejection said. -/
def go (outcome : α → Outcome ε) (nothing : ε) : Option ε → List α → Except ε Unit × List α
  | last, [] => (.error (last.getD nothing), [])
  | _, a :: as =>
      match outcome a with
      | .accepted => (.ok (), [a])
      | .broken e => (.error e, [a])
      | .rejected e =>
          let (result, tried) := go outcome nothing (some e) as
          (result, a :: tried)

/-- Where a broken candidate leaves one untried, one before it accepts. -/
def Unbroken (accepts breaks : α → Prop) (l : List α) : Prop :=
  ∀ before a after, l = before ++ a :: after → breaks a →
    (∃ b ∈ before, accepts b) ∨ ∀ b ∈ after, b ∈ before ∨ b = a

/-- There is nothing behind an only candidate. -/
theorem unbroken_singleton {accepts breaks : α → Prop} (a : α) :
    Unbroken accepts breaks [a] := by
  intro before b after h _
  cases before with
  | nil =>
      refine .inr fun c hc => ?_
      rw [← (List.cons.inj h).2] at hc
      exact absurd hc List.not_mem_nil
  | cons c before => cases before <;> cases (List.cons.inj h).2

variable {outcome : α → Outcome ε}

/-- Every candidate rejects; or the first one that does not, accepts or is broken. -/
inductive Ends (outcome : α → Outcome ε) : List α → Except ε Unit × List α → Prop
  | rejected {l : List α} (e : ε) : (∀ a ∈ l, (outcome a).Rejects) →
      Ends outcome l (.error e, l)
  | accepted {before : List α} {a : α} (after : List α) : (∀ b ∈ before, (outcome b).Rejects) →
      (outcome a).Accepts → Ends outcome (before ++ a :: after) (.ok (), before ++ [a])
  | broken {before : List α} {a : α} (after : List α) (e : ε) :
      (∀ b ∈ before, (outcome b).Rejects) →
      (outcome a).Breaks → Ends outcome (before ++ a :: after) (.error e, before ++ [a])

theorem Ends.cons {a : α} {l : List α} {r : Except ε Unit × List α} (h : Ends outcome l r)
    (ha : (outcome a).Rejects) : Ends outcome (a :: l) (r.1, a :: r.2) := by
  cases h with
  | rejected e hall => exact .rejected e (List.forall_mem_cons.mpr ⟨ha, hall⟩)
  | @accepted before b after hall hacc =>
      have hall' : ∀ c ∈ a :: before, (outcome c).Rejects :=
        List.forall_mem_cons.mpr ⟨ha, hall⟩
      exact .accepted after hall' hacc
  | @broken before b after e hall hbreak =>
      have hall' : ∀ c ∈ a :: before, (outcome c).Rejects :=
        List.forall_mem_cons.mpr ⟨ha, hall⟩
      exact .broken after e hall' hbreak

theorem ends_go (outcome : α → Outcome ε) (nothing : ε) (l : List α) :
    ∀ last, Ends outcome l (go outcome nothing last l) := by
  induction l with
  | nil => exact fun last => .rejected _ fun a h => absurd h List.not_mem_nil
  | cons a l ih =>
      intro last
      have hnone : ∀ b ∈ ([] : List α), (outcome b).Rejects :=
        fun b h => absurd h List.not_mem_nil
      unfold go
      cases ha : outcome a with
      | accepted => exact .accepted l hnone (by rw [ha]; trivial)
      | broken e => exact .broken l e hnone (by rw [ha]; trivial)
      | rejected e => exact (ih (some e)).cons (by rw [ha]; trivial)

section
variable {l : List α} {r : Except ε Unit × List α}

theorem Ends.isPrefix (h : Ends outcome l r) : r.2 <+: l := by
  cases h with
  | rejected => exact List.prefix_refl _
  | accepted after => exact ⟨after, by simp⟩
  | broken after => exact ⟨after, by simp⟩

theorem Ends.tries (h : Ends outcome l r) (hl : l ≠ []) : r.2 ≠ [] := by
  cases h with
  | rejected => exact hl
  | accepted after => simp
  | broken after => simp

/-- Nothing is tried after what accepts. -/
theorem Ends.stops (h : Ends outcome l r) {before : List α} {a : α} {after : List α}
    (hr : r.2 = before ++ a :: after) (ha : (outcome a).Accepts) : after = [] := by
  have hlast : ∀ {front : List α} {b : α}, (∀ c ∈ front, (outcome c).Rejects) →
      front ++ [b] = before ++ a :: after → after = [] := by
    intro front b hall heq
    rcases List.eq_nil_or_concat' after with rfl | ⟨more, c, rfl⟩
    · rfl
    · rw [← List.cons_append, ← List.append_assoc] at heq
      have hfront := (List.append_inj' heq rfl).1
      exact absurd ha (hall a (by rw [hfront]; simp)).not_accepts
  cases h with
  | rejected e hall =>
      have hl : l = before ++ a :: after := hr
      exact absurd ha (hall a (by rw [hl]; simp)).not_accepts
  | accepted _ hall => exact hlast hall hr
  | broken _ _ hall => exact hlast hall hr

end

/-- A list divided at two places, where the second element is not in front of the first place:
the first place is in front of the second, or it is the second. -/
theorem divided {before after front back : List α} {a b : α}
    (h : before ++ a :: after = front ++ b :: back)
    (hb : b ∉ before) :
    (∃ more, front = before ++ a :: more) ∨ (before = front ∧ a = b ∧ after = back) := by
  rcases List.append_eq_append_iff.mp h with ⟨more, hfront, hrest⟩ | ⟨more, hbefore, hrest⟩
  · cases more with
    | nil =>
        rw [List.append_nil] at hfront
        obtain ⟨hab, hback⟩ := List.cons.inj hrest
        exact .inr ⟨hfront.symm, hab, hback⟩
    | cons c more =>
        rw [List.cons_append] at hrest
        rw [← (List.cons.inj hrest).1] at hfront
        exact .inl ⟨more, hfront⟩
  · cases more with
    | nil =>
        rw [List.append_nil] at hbefore
        obtain ⟨hba, hback⟩ := List.cons.inj hrest
        exact .inr ⟨hbefore, hba.symm, hback.symm⟩
    | cons c more =>
        rw [List.cons_append] at hrest
        rw [hbefore, (List.cons.inj hrest).1] at hb
        exact absurd (by simp) hb

/-- Everything is tried exactly if nothing is left behind what is broken. -/
theorem Ends.iff {l : List α} {r : Except ε Unit × List α} (h : Ends outcome l r) :
    ((r.1 = .ok () ↔ ∃ a ∈ l, (outcome a).Accepts) ∧
      (∀ e, r.1 = .error e → ∀ a ∈ l, a ∈ r.2)) ↔
      Unbroken (fun a => (outcome a).Accepts) (fun a => (outcome a).Breaks) l := by
  cases h with
  | rejected e hall =>
      refine iff_of_true ⟨iff_of_false (fun h => by cases h) ?_, fun _ _ a ha => ha⟩ ?_
      · rintro ⟨a, ha, hacc⟩
        exact (hall a ha).not_accepts hacc
      · rintro before a after rfl hbreak
        exact absurd hbreak (hall a (by simp)).not_breaks
  | @accepted before a after hall hacc =>
      refine iff_of_true ⟨iff_of_true rfl ⟨a, by simp, hacc⟩, fun e h => by cases h⟩ ?_
      intro front b back heq hbreak
      have hb : b ∉ before := fun hb => (hall b hb).not_breaks hbreak
      rcases divided heq hb with ⟨more, rfl⟩ | ⟨-, rfl, -⟩
      · exact .inl ⟨a, by simp, hacc⟩
      · exact absurd hbreak hacc.not_breaks
  | @broken before a after e hall hbreak =>
      constructor
      · rintro ⟨-, htried⟩ front b back heq hb
        have hbefore : b ∉ before := fun hmem => (hall b hmem).not_breaks hb
        have hmem : ∀ c ∈ before ++ a :: after, c ∈ before ++ [a] := htried e rfl
        rcases divided heq hbefore with ⟨more, rfl⟩ | ⟨rfl, rfl, rfl⟩
        · refine .inr fun c hc => .inl ?_
          have hc' : c ∈ before ++ [a] := hmem c (by rw [heq]; simp [hc])
          rw [← List.singleton_append, ← List.append_assoc]
          exact List.mem_append_left more hc'
        · exact .inr fun c hc => by simpa using hmem c (by simp [hc])
      · intro h
        have hnone : ¬∃ b ∈ before, (outcome b).Accepts :=
          fun ⟨b, hb, hacc⟩ => (hall b hb).not_accepts hacc
        have hafter := (h before a after rfl hbreak).resolve_left hnone
        have hmem : ∀ c ∈ before ++ a :: after, c ∈ before ∨ c = a := by
          intro c hc
          rcases List.mem_append.mp hc with hc | hc
          · exact .inl hc
          · rcases List.mem_cons.mp hc with hc | hc
            · exact .inr hc
            · exact hafter c hc
        refine ⟨iff_of_false (fun h => by cases h) ?_,
          fun _ _ c hc => by simpa using hmem c hc⟩
        rintro ⟨c, hc, hacc⟩
        rcases hmem c hc with hc | rfl
        · exact hnone ⟨c, hc, hacc⟩
        · exact hacc.not_breaks hbreak

end Tries
