/-
# `Lib.Backlog` — work that is done in order

What waits is counted.  Who takes the first of a list that is sorted by urgency takes what is
most urgent, so as much of what is urgent is done as is taken:

    changes that make nothing wait                        (`countP_map_le`)
    the rest of a sorted list                             (`countP_drop_le`)
    what is left of the work once the first is taken      (`countP_rest_le`)
-/
import Mathlib

namespace Backlog

variable {α : Type} {p : α → Bool}

/-- Nothing waits that did not wait before. -/
theorem countP_map_le {g : α → α} (l : List α) (h : ∀ a ∈ l, p (g a) = true → p a = true) :
    (l.map g).countP p ≤ l.countP p := by
  rw [List.countP_map]
  exact List.countP_mono_left h

/-- What comes before the urgent is urgent, so the first are. -/
theorem countP_drop_le {r : α → α → Prop} (hurgent : ∀ a b, r a b → p b = true → p a = true) :
    ∀ (n : Nat) (l : List α), l.Pairwise r → (l.drop n).countP p ≤ l.countP p - n
  | 0, l, _ => le_refl _
  | n + 1, [], _ => Nat.zero_le _
  | n + 1, a :: l, hsorted => by
      obtain ⟨hfirst, hrest⟩ := List.pairwise_cons.mp hsorted
      have ih := countP_drop_le hurgent n l hrest
      rw [List.drop_succ_cons]
      cases hp : p a with
      | true =>
          rw [List.countP_cons_of_pos hp]
          omega
      | false =>
          -- then none after it is urgent
          have hnone : l.countP p = 0 := List.countP_eq_zero.mpr fun b hb hpb => by
            have hpa := hurgent a b (hfirst b hb) hpb
            rw [hp] at hpa
            cases hpa
          omega

/-- Of `work` the first `n` in order are taken, and whatever else. -/
theorem countP_rest_le {r : α → α → Prop} (hurgent : ∀ a b, r a b → p b = true → p a = true)
    {work sorted : List α} (hperm : sorted.Perm work) (hsorted : sorted.Pairwise r)
    {n : Nat} {left : α → Bool}
    (htaken : ∀ a ∈ sorted.take n, left a = false) :
    work.countP (fun a => left a && p a) ≤ work.countP p - n := by
  rw [← hperm.countP_eq, ← hperm.countP_eq p, ← List.take_append_drop n sorted,
    List.countP_append, List.take_append_drop]
  have hfirst : (sorted.take n).countP (fun a => left a && p a) = 0 :=
    List.countP_eq_zero.mpr fun a ha h => by
    rw [htaken a ha] at h
    cases h
  have hrest : (sorted.drop n).countP (fun a => left a && p a) ≤ (sorted.drop n).countP p :=
    List.countP_mono_left fun a _ h => (Bool.and_eq_true _ _ ▸ h).2
  have hdrop := countP_drop_le hurgent n sorted hsorted
  omega

end Backlog
