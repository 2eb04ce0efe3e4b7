/-
# `Lib.Keyed` — lists read by a key

A list is a table when no two entries have the same key (`Keyed`).  `lookup` then finds
the entry of a key wherever it stands, so it does not see the order of the entries
(`lookup_perm`), and an update that keeps the keys is an update of the entry found
(`lookup_map`).  Sorted by a key, a list starts with an entry of the least one
(`head_sorted`).
-/
import Mathlib

variable {α κ : Type} {key : α → κ} {l l' : List α} {a b : α} {k : κ}

/-- No two entries have the same key. -/
def Keyed (key : α → κ) (l : List α) : Prop := (l.map key).Nodup

instance [DecidableEq κ] : Decidable (Keyed key l) :=
  inferInstanceAs (Decidable (List.Nodup _))

namespace Keyed

theorem map {f : α → α} (hf : ∀ a, key (f a) = key a) (h : Keyed key l) :
    Keyed key (l.map f) := by
  have hcomp : key ∘ f = key := funext hf
  rw [Keyed, List.map_map, hcomp]
  exact h

theorem append (h : Keyed key l) (h' : Keyed key l') (hne : ∀ a ∈ l, ∀ b ∈ l', key a ≠ key b) :
    Keyed key (l ++ l') := by
  rw [Keyed, List.map_append, List.nodup_append]
  refine ⟨h, h', ?_⟩
  intro x hx y hy
  obtain ⟨a, ha, rfl⟩ := List.mem_map.mp hx
  obtain ⟨b, hb, rfl⟩ := List.mem_map.mp hy
  exact hne a ha b hb

/-- Entries of two parts have different keys. -/
theorem ne_of_append (h : Keyed key (l ++ l')) (ha : a ∈ l) (hb : b ∈ l') : key a ≠ key b := by
  rw [Keyed, List.map_append, List.nodup_append] at h
  exact h.2.2 _ (List.mem_map_of_mem ha) _ (List.mem_map_of_mem hb)

theorem concat (h : Keyed key l) (hb : ∀ a ∈ l, key a ≠ key b) : Keyed key (l ++ [b]) :=
  h.append (List.nodup_singleton _) fun a ha b' hb' => by
    rw [List.mem_singleton.mp hb']
    exact hb a ha

theorem perm (h : Keyed key l) (hp : l.Perm l') : Keyed key l' := (hp.map key).nodup_iff.mp h

theorem sublist (h : Keyed key l) (hs : l'.Sublist l) : Keyed key l' :=
  List.Nodup.sublist (hs.map key) h

end Keyed

/-! ## Looking up -/

section

variable [DecidableEq κ]

/-- The entry with the key `k`. -/
def lookup (key : α → κ) (k : κ) (l : List α) : Option α := l.find? fun a => key a = k

@[simp] theorem lookup_nil : lookup key k [] = none := rfl

theorem lookup_some (h : lookup key k l = some a) : a ∈ l ∧ key a = k :=
  ⟨List.mem_of_find?_eq_some h, by simpa using List.find?_some h⟩

theorem lookup_eq_none : lookup key k l = none ↔ ∀ a ∈ l, key a ≠ k := by
  simp [lookup]

theorem lookup_cons :
    lookup key k (a :: l) = if key a = k then some a else lookup key k l := by
  by_cases h : key a = k
  · rw [if_pos h]
    exact List.find?_cons_of_pos (by simpa using h)
  · rw [if_neg h]
    exact List.find?_cons_of_neg (by simpa using h)

/-- In a table the entries are what is found. -/
theorem lookup_eq_some (h : Keyed key l) : lookup key k l = some a ↔ a ∈ l ∧ key a = k := by
  refine ⟨lookup_some, ?_⟩
  rintro ⟨ha, rfl⟩
  cases hfound : lookup key (key a) l with
  | none => exact absurd rfl (lookup_eq_none.mp hfound a ha)
  | some b =>
      obtain ⟨hb, hkey⟩ := lookup_some hfound
      exact congrArg some (List.inj_on_of_nodup_map h hb ha hkey)

theorem lookup_perm (h : Keyed key l) (hp : l.Perm l') : lookup key k l = lookup key k l' := by
  have h' : Keyed key l' := (hp.map key).nodup_iff.mp h
  ext a
  rw [lookup_eq_some h, lookup_eq_some h', hp.mem_iff]

/-- Entries that keep their keys are found where they were. -/
theorem lookup_map_of_mem {f : α → α} (hf : ∀ a ∈ l, key (f a) = key a) :
    lookup key k (l.map f) = (lookup key k l).map f := by
  induction l with
  | nil => rfl
  | cons a l ih =>
      rw [List.map_cons, lookup_cons, lookup_cons, hf a List.mem_cons_self,
        ih fun b hb => hf b (List.mem_cons_of_mem a hb)]
      split <;> rfl

theorem lookup_map {f : α → α} (hf : ∀ a, key (f a) = key a) :
    lookup key k (l.map f) = (lookup key k l).map f := lookup_map_of_mem fun a _ => hf a

theorem lookup_append : lookup key k (l ++ l') = (lookup key k l).or (lookup key k l') :=
  List.find?_append

/-- A new entry is found under its key. -/
theorem lookup_concat (h : ∀ a ∈ l, key a ≠ key b) :
    lookup key k (l ++ [b]) = if key b = k then some b else lookup key k l := by
  rw [lookup_append, lookup_cons, lookup_nil]
  by_cases hk : key b = k
  · subst hk
    rw [if_pos rfl, lookup_eq_none.mpr h, Option.none_or, if_pos rfl]
  · rw [if_neg hk, Option.or_none, if_neg hk]

end

/-! ## Sorting by a key -/

section
variable {β : Type} [LinearOrder β]

theorem pairwise_sorted (key : α → β) (l : List α) :
    (l.insertionSort fun a b => key a ≤ key b).Pairwise fun a b => key a ≤ key b := by
  have : Std.Total fun a b => key a ≤ key b := ⟨fun a b => le_total (key a) (key b)⟩
  have : IsTrans α fun a b => key a ≤ key b := ⟨fun a b c => le_trans⟩
  exact List.pairwise_insertionSort (fun a b => key a ≤ key b) l

theorem head_sorted
    {key : α → β} (h : (l.insertionSort fun a b => key a ≤ key b).head? = some a) :
    a ∈ l ∧ ∀ b ∈ l, key a ≤ key b := by
  obtain ⟨rest, hrest⟩ := List.head?_eq_some_iff.mp h
  have hpairs := pairwise_sorted key l
  rw [hrest] at hpairs
  have hmem : ∀ b, b ∈ l ↔ b ∈ a :: rest := by
    intro b
    rw [← hrest, List.mem_insertionSort]
  refine ⟨(hmem a).mpr List.mem_cons_self, fun b hb => ?_⟩
  rcases List.mem_cons.mp ((hmem b).mp hb) with rfl | hb
  · exact le_refl _
  · exact (List.pairwise_cons.mp hpairs).1 b hb

end
