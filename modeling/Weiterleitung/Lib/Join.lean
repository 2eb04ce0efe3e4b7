/-
# `Lib.Join` — a left join, grouped and counted

The rows of two tables, where rows of the right one refer to rows of the left one by a key.  A
left join keeps the rows that nothing refers to, so grouped by the key it has each row of the
left table once, and the right sides of its group are the rows that refer to it
(`countGroups_leftJoin`).  If every reference leads somewhere the counts add up to the right
table (`sum_countP`).
-/
import Mathlib

namespace Rows

open List

variable {α β κ : Type} [DecidableEq κ] (key : α → κ) (ref : β → κ)

/-- Each row of the left table with each row that refers to it, or alone. -/
def leftJoin (left : List α) (right : List β) : List (α × Option β) :=
  left.flatMap fun a =>
    match right.filter (ref · = key a) with
    | [] => [(a, none)]
    | found => found.map fun b => (a, some b)

/-- The rows by their key: the left side of one of them, and how many have a right side. -/
def countGroups (rows : List (α × Option β)) : List (α × Nat) :=
  (rows.map (key ·.1)).dedup.filterMap fun k =>
    (rows.find? (key ·.1 = k)).map fun row =>
      (row.1, rows.countP fun row => key row.1 = k && row.2.isSome)

variable {key ref} {left : List α} {right : List β}

variable (key ref right) in
theorem leftJoin_cons (a : α) (left : List α) : ∃ found : List (Option β), found ≠ [] ∧
    found.countP Option.isSome = right.countP (ref · = key a) ∧
    leftJoin key ref (a :: left) right = found.map (a, ·) ++ leftJoin key ref left right := by
  unfold leftJoin
  rw [flatMap_cons]
  cases h : right.filter (ref · = key a) with
  | nil =>
      refine ⟨[none], cons_ne_nil _ _, ?_, rfl⟩
      rw [countP_eq_length_filter, countP_eq_length_filter, h]
      rfl
  | cons b found =>
      refine ⟨(b :: found).map some, cons_ne_nil _ _, ?_, ?_⟩
      · rw [countP_map, countP_eq_length_filter (p := fun b => decide (ref b = key a)), h]
        exact countP_eq_length.mpr fun _ _ => rfl
      · rw [map_map]
        rfl

theorem mem_left_of_mem_leftJoin {row : α × Option β} (h : row ∈ leftJoin key ref left right) :
    row.1 ∈ left := by
  induction left with
  | nil => cases h
  | cons a left ih =>
      obtain ⟨found, -, -, heq⟩ := leftJoin_cons key ref right a left
      rw [heq] at h
      rcases mem_append.mp h with h | h
      · obtain ⟨o, -, rfl⟩ := mem_map.mp h
        exact mem_cons_self
      · exact mem_cons_of_mem a (ih h)

/-- The keys of the join are those of the left table. -/
theorem dedup_leftJoin (hkeys : (left.map key).Nodup) :
    ((leftJoin key ref left right).map (key ·.1)).dedup = left.map key := by
  induction left with
  | nil => rfl
  | cons a left ih =>
      obtain ⟨found, hne, -, heq⟩ := leftJoin_cons key ref right a left
      rw [map_cons, nodup_cons] at hkeys
      have hgroup : (found.map fun o : Option β => (a, o)).map (key ·.1)
          = replicate found.length (key a) := by
        rw [map_map]
        exact eq_replicate_iff.mpr ⟨length_map _, fun k hk => by
          obtain ⟨o, -, rfl⟩ := mem_map.mp hk
          rfl⟩
      have hapart : ((found.map fun o : Option β => (a, o)).map (key ·.1)).Disjoint
          ((leftJoin key ref left right).map (key ·.1)) := by
        rw [hgroup]
        intro k hk hrest
        obtain ⟨row, hrow, rfl⟩ := mem_map.mp hrest
        rw [eq_of_mem_replicate hk] at hrest
        exact hkeys.1
          ((eq_of_mem_replicate hk) ▸ mem_map_of_mem (mem_left_of_mem_leftJoin hrow))
      rw [heq, map_append, hapart.dedup_append, hgroup,
        replicate_dedup (length_pos_iff.mpr hne).ne', ih hkeys.2]
      rfl

/-- No row of the join has a key that the left table has not. -/
theorem countP_leftJoin_other {k : κ} (hk : k ∉ left.map key) (p : α × Option β → Bool) :
    (leftJoin key ref left right).countP (fun row => key row.1 = k && p row) = 0 := by
  refine countP_eq_zero.mpr fun row hrow h => hk ?_
  rw [Bool.and_eq_true, decide_eq_true_eq] at h
  exact h.1 ▸ mem_map_of_mem (mem_left_of_mem_leftJoin hrow)

/-- The right sides of a group are the rows that refer to its key. -/
theorem countP_leftJoin (hkeys : (left.map key).Nodup) {a : α} (ha : a ∈ left) :
    (leftJoin key ref left right).countP (fun row => key row.1 = key a && row.2.isSome)
      = right.countP (ref · = key a) := by
  induction left with
  | nil => cases ha
  | cons x left ih =>
      obtain ⟨found, -, hcount, heq⟩ := leftJoin_cons key ref right x left
      rw [map_cons, nodup_cons] at hkeys
      rw [heq, countP_append, countP_map]
      rcases mem_cons.mp ha with rfl | ha
      · rw [countP_leftJoin_other hkeys.1, Nat.add_zero, ← hcount]
        exact countP_congr fun o _ => by simp
      · have hne : key x ≠ key a := fun h => hkeys.1 (h ▸ mem_map_of_mem ha)
        rw [ih hkeys.2 ha, countP_eq_zero.mpr fun o _ => by simp [hne], Nat.zero_add]

/-- Grouped and counted, the join has each row of the left table once, with the number of the
rows that refer to it. -/
theorem countGroups_leftJoin (hkeys : (left.map key).Nodup) :
    countGroups key (leftJoin key ref left right) = left.map
      fun a => (a, right.countP (ref · = key a)) := by
  unfold countGroups
  rw [dedup_leftJoin hkeys, filterMap_map, ← filterMap_eq_map]
  refine filterMap_congr fun a ha => ?_
  -- the rows of the group have one left side
  have hmem : key a ∈ (leftJoin key ref left right).map (key ·.1) := by
    rw [← mem_dedup, dedup_leftJoin hkeys]
    exact mem_map_of_mem ha
  obtain ⟨row, hrow, hkey⟩ := mem_map.mp hmem
  obtain ⟨found, hfound⟩ : ∃ found, (leftJoin key ref left right).find?
      (key ·.1 = key a) = some found := by
    refine Option.ne_none_iff_exists'.mp fun hnone => ?_
    exact find?_eq_none.mp hnone row hrow (decide_eq_true hkey)
  have hleft : found.1 = a := by
    refine inj_on_of_nodup_map hkeys
      (mem_left_of_mem_leftJoin (mem_of_find?_eq_some hfound)) ha ?_
    simpa using find?_some hfound
  rw [Function.comp_apply, hfound, Option.map_some, hleft, countP_leftJoin hkeys ha]
  rfl

theorem sum_map_eq (k : κ) (left : List α) :
    (left.map fun a => if k = key a then 1 else 0).sum = (left.map key).count k := by
  induction left with
  | nil => rfl
  | cons a left ih =>
      rw [map_cons, map_cons, sum_cons, count_cons, ih, Nat.add_comm]
      congr 1
      by_cases h : k = key a
      · rw [if_pos h, if_pos (beq_iff_eq.mpr h.symm)]
      · rw [if_neg h, if_neg fun heq => h (beq_iff_eq.mp heq).symm]

/-- If every reference leads somewhere, the counts add up. -/
theorem sum_countP (hkeys : (left.map key).Nodup) (hrefs : ∀ b ∈ right, ref b ∈ left.map key) :
    (left.map fun a => right.countP (ref · = key a)).sum = right.length := by
  induction right with
  | nil => simp
  | cons b right ih =>
      have hone : (left.map fun a => if ref b = key a then 1 else 0).sum = 1 :=
        (sum_map_eq (ref b) left).trans (count_eq_one_of_mem hkeys (hrefs b mem_cons_self))
      have hrest := ih fun b' hb' => hrefs b' (mem_cons_of_mem b hb')
      simp only [countP_cons, decide_eq_true_eq, sum_map_add, hrest, hone, length_cons]

end Rows
