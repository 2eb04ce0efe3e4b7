/-
# `Lib.Lines` — cutting a sequence after a separator, and looking for one inside another

Two readers cut a stream after each separator: a buffered reader that takes one
line at a time (`readUntil`) and an iterator over all lines (`splitInclusive`).
They agree (`splitInclusive_eq_cons`), so a loop over the stream is an induction
over the list of its lines.  That holds of a stream that fails as well, but for the
line in which it fails (`torn`), which no read returns (`tryRead_cases`).

Lines may belong together: a line with the lines after it that continue it is a group
(`groups`).  A filter that decides a group by its first line keeps whole groups
(`strip_eq`).  Two selections of the same lines, each written out, are of one length
only where they chose the same lines (`length_flatMap_filter_le`).

The last part is about occurrence (`<:+:`): a word without the separator cannot
straddle one, so it occurs in a concatenation only if it occurs in a part.
-/
import Mathlib.Data.List.Infix
import Mathlib.Data.List.DropRight

namespace Lines

variable {α : Type} [DecidableEq α]

/-! ## Reading one line -/

/-- The stream up to and including the first `c`, and what follows it.  Without a
`c` the whole stream is the line. -/
def readUntil (c : α) : List α → List α × List α
  | [] => ([], [])
  | a :: as =>
      if a = c then ([a], as)
      else
        let (line, rest) := readUntil c as
        (a :: line, rest)

/-- What one read returns: a line closed by the separator, or an
unclosed rest of the stream. -/
theorem readUntil_cases (c : α) : ∀ s : List α,
    (∃ l rest, c ∉ l ∧ s = l ++ c :: rest ∧ readUntil c s = (l ++ [c], rest)) ∨
      (c ∉ s ∧ readUntil c s = (s, []))
  | [] => Or.inr ⟨List.not_mem_nil, rfl⟩
  | a :: as => by
      by_cases h : a = c
      · subst h
        exact Or.inl ⟨[], as, List.not_mem_nil, rfl, by simp [readUntil]⟩
      · rcases readUntil_cases c as with ⟨l, rest, hl, hs, hr⟩ | ⟨hs, hr⟩
        · refine Or.inl ⟨a :: l, rest, ?_, by simp [hs], by simp [readUntil, h, hr]⟩
          simp only [List.mem_cons, not_or]
          exact ⟨fun e => h e.symm, hl⟩
        · refine Or.inr ⟨?_, by simp [readUntil, h, hr]⟩
          simp only [List.mem_cons, not_or]
          exact ⟨fun e => h e.symm, hs⟩

/-! ## All lines -/

/-- The lines of a stream, each with its separator; the last one may lack it. -/
def splitInclusive (c : α) : List α → List (List α)
  | [] => []
  | a :: as =>
      if a = c then [a] :: splitInclusive c as
      else
        match splitInclusive c as with
        | [] => [[a]]
        | line :: lines => (a :: line) :: lines

theorem splitInclusive_line (c : α) : ∀ (l rest : List α), c ∉ l →
    splitInclusive c (l ++ c :: rest) = (l ++ [c]) :: splitInclusive c rest
  | [], rest, _ => by simp [splitInclusive]
  | a :: l, rest, h => by
      have ha : a ≠ c := fun e => h (e ▸ List.mem_cons_self)
      have ih := splitInclusive_line c l rest (fun hc => h (List.mem_cons_of_mem a hc))
      simp [splitInclusive, ha, ih]

theorem splitInclusive_of_not_mem (c : α) : ∀ s : List α, c ∉ s → s ≠ [] →
    splitInclusive c s = [s]
  | [], _, h => absurd rfl h
  | [a], h, _ => by
      have ha : a ≠ c := fun e => h (e ▸ List.mem_cons_self)
      simp [splitInclusive, ha]
  | a :: b :: as, h, _ => by
      have ha : a ≠ c := fun e => h (e ▸ List.mem_cons_self)
      have ih := splitInclusive_of_not_mem c (b :: as)
        (fun hc => h (List.mem_cons_of_mem a hc)) (List.cons_ne_nil b as)
      rw [splitInclusive, if_neg ha, ih]

/-- The iterator over lines is the reader called until the stream is exhausted. -/
theorem splitInclusive_eq_cons (c : α) {s : List α} (h : s ≠ []) :
    splitInclusive c s = (readUntil c s).1 :: splitInclusive c (readUntil c s).2 := by
  rcases readUntil_cases c s with ⟨l, rest, hl, hs, hr⟩ | ⟨hs, hr⟩
  · rw [hr, hs]; exact splitInclusive_line c l rest hl
  · rw [hr, splitInclusive_of_not_mem c s hs h]; rfl

/-! ## A stream that may fail -/

/-- One read of a stream that may fail where it ends.  A failure before the
next `c` leaves no line. -/
def tryRead (c : α) (fails : Bool) (s : List α) : Option (List α × List α) :=
  if fails && decide (c ∉ s) then none else some (readUntil c s)

/-- The last line of a stream that fails before the line is complete. -/
def torn (c : α) (fails : Bool) (line : List α) : Bool :=
  fails && decide (line.getLast? ≠ some c)

theorem torn_closed (c : α) (fails : Bool) (l : List α) : torn c fails (l ++ [c]) = false := by
  simp [torn]

/-- A loop over the lines reads as one over the stream does: the next read gives the next of
the lines, unless that is torn, or nothing once there is none. -/
theorem tryRead_cases (c : α) (fails : Bool) (s : List α) :
    splitInclusive c s = [] ∧ tryRead c fails s = (if fails then none else some ([], [])) ∨
      ∃ line rest, line ≠ [] ∧ splitInclusive c s = line :: splitInclusive c rest ∧
        tryRead c fails s = if torn c fails line then none else some (line, rest) := by
  by_cases hs : s = []
  · subst hs
    refine Or.inl ⟨rfl, ?_⟩
    cases fails <;> rfl
  · refine Or.inr ⟨(readUntil c s).1, (readUntil c s).2, ?_, splitInclusive_eq_cons c hs, ?_⟩
    · rcases readUntil_cases c s with ⟨l, rest, -, -, hr⟩ | ⟨-, hr⟩
      · rw [hr]
        exact List.append_ne_nil_of_right_ne_nil l (List.cons_ne_nil c [])
      · rw [hr]
        exact hs
    · have htorn : torn c fails (readUntil c s).1 = (fails && decide (c ∉ s)) := by
        rcases readUntil_cases c s with ⟨l, rest, -, rfl, hr⟩ | ⟨hc, hr⟩
        · rw [hr, torn_closed]
          simp
        · have hlast : s.getLast? ≠ some c := fun h => hc (List.mem_of_getLast? h)
          rw [hr, torn]
          simp [hc, hlast]
      rw [htorn]
      rfl

/-- Induction over a stream by its lines. -/
theorem line_induction (c : α) {motive : List α → Prop} (nil : motive [])
    (last : ∀ s, s ≠ [] → c ∉ s → motive s)
    (line : ∀ l rest, c ∉ l → motive rest → motive (l ++ c :: rest)) :
    ∀ s, motive s := by
  intro s
  induction hn : s.length using Nat.strong_induction_on generalizing s with
  | _ n ih =>
      subst hn
      rcases readUntil_cases c s with ⟨l, rest, hl, hs, -⟩ | ⟨hs, -⟩
      · subst hs
        refine line l rest hl (ih rest.length ?_ rest rfl)
        simp only [List.length_append, List.length_cons]
        omega
      · by_cases he : s = []
        · subst he; exact nil
        · exact last s he hs

theorem flatten_splitInclusive (c : α) (s : List α) : (splitInclusive c s).flatten = s := by
  induction s using line_induction c with
  | nil => rfl
  | last s hne hs => simp [splitInclusive_of_not_mem c s hs hne]
  | line l rest hl ih => simp [splitInclusive_line c l rest hl, ih]

/-- Every line but the last ends in the separator. -/
theorem pairwise_splitInclusive (c : α) (s : List α) :
    (splitInclusive c s).Pairwise fun line _ => [c] <:+ line := by
  induction s using line_induction c with
  | nil => exact List.Pairwise.nil
  | last s hne hs =>
      rw [splitInclusive_of_not_mem c s hs hne]
      exact List.pairwise_singleton _ s
  | line l rest hl ih =>
      rw [splitInclusive_line c l rest hl]
      exact List.pairwise_cons.mpr ⟨fun _ _ => List.suffix_append l [c], ih⟩

theorem ne_nil_of_mem_splitInclusive (c : α) (s : List α) :
    ∀ {line : List α}, line ∈ splitInclusive c s → line ≠ [] := by
  induction s using line_induction c with
  | nil => exact fun h => nomatch h
  | last s hne hs =>
      intro line h
      rw [splitInclusive_of_not_mem c s hs hne, List.mem_singleton] at h
      exact h ▸ hne
  | line l rest hl ih =>
      intro line h
      rw [splitInclusive_line c l rest hl] at h
      rcases List.mem_cons.mp h with rfl | h
      · exact List.append_ne_nil_of_right_ne_nil l (List.cons_ne_nil c [])
      · exact ih h

/-- A line has the separator at most at its end. -/
theorem mem_splitInclusive (c : α) (s : List α) :
    ∀ {line : List α}, line ∈ splitInclusive c s → ∃ l, c ∉ l ∧
      (line = l ++ [c] ∨ line = l) := by
  induction s using line_induction c with
  | nil => exact fun h => nomatch h
  | last s hne hs =>
      intro line h
      rw [splitInclusive_of_not_mem c s hs hne, List.mem_singleton] at h
      exact ⟨s, hs, Or.inr h⟩
  | line l rest hl ih =>
      intro line h
      rw [splitInclusive_line c l rest hl] at h
      rcases List.mem_cons.mp h with rfl | h
      · exact ⟨l, hl, Or.inl rfl⟩
      · exact ih h

/-- Closed lines, put together and split again. -/
theorem splitInclusive_flatten_append (c : α) : ∀ (lines : List (List α)) (rest : List α),
    (∀ line ∈ lines, ∃ l, c ∉ l ∧ line = l ++ [c]) →
      splitInclusive c (lines.flatten ++ rest) = lines ++ splitInclusive c rest
  | [], _, _ => rfl
  | line :: lines, rest, h => by
      obtain ⟨l, hl, rfl⟩ := h line List.mem_cons_self
      have ih := splitInclusive_flatten_append c lines rest
        (fun line' h' => h line' (List.mem_cons_of_mem _ h'))
      have hflat : ((l ++ [c]) :: lines).flatten ++ rest = l ++ c ::
          (lines.flatten ++ rest) := by
        simp
      rw [hflat, splitInclusive_line c l _ hl, ih]
      rfl

/-- A stream whose first part is closed by the separator splits part by part. -/
theorem splitInclusive_append_closed (c : α) (p rest : List α) :
    splitInclusive c ((p ++ [c]) ++ rest)
      = splitInclusive c (p ++ [c]) ++ splitInclusive c rest := by
  induction p using line_induction c with
  | nil =>
      have h := splitInclusive_line c [] rest List.not_mem_nil
      have h' := splitInclusive_line c [] [] List.not_mem_nil
      simp only [List.nil_append] at h h' ⊢
      rw [List.singleton_append, h, h']
      rfl
  | last s _ hs =>
      have h := splitInclusive_line c s rest hs
      have h' := splitInclusive_line c s [] hs
      rw [List.append_assoc, List.singleton_append, h, h']
      rfl
  | line l p hl ih =>
      have h := splitInclusive_line c l ((p ++ [c]) ++ rest) hl
      have h' := splitInclusive_line c l (p ++ [c]) hl
      simp only [List.append_assoc, List.cons_append] at h h' ih ⊢
      rw [h, h', ih]
      rfl

/-- Every line of a closed stream is closed. -/
theorem closed_of_mem_splitInclusive (c : α) (p : List α) :
    ∀ line ∈ splitInclusive c (p ++ [c]), ∃ l, c ∉ l ∧ line = l ++ [c] := by
  induction p using line_induction c with
  | nil =>
      have h := splitInclusive_line c [] [] List.not_mem_nil
      rw [List.nil_append] at h
      intro line hline
      rw [List.nil_append, h] at hline
      exact ⟨[], List.not_mem_nil, List.mem_singleton.mp hline⟩
  | last s _ hs =>
      intro line hline
      rw [splitInclusive_line c s [] hs] at hline
      exact ⟨s, hs, List.mem_singleton.mp hline⟩
  | line l p hl ih =>
      intro line hline
      rw [List.append_assoc, List.cons_append, splitInclusive_line c l _ hl] at hline
      rcases List.mem_cons.mp hline with rfl | hline
      · exact ⟨l, hl, rfl⟩
      · exact ih line hline

/-- A line with another one after it is closed. -/
theorem closed_of_before (c : α) {s a : List α} {before after : List (List α)}
    (h : splitInclusive c s = before ++ a :: after) :
    ∀ line ∈ before, ∃ l, c ∉ l ∧ line = l ++ [c] := by
  intro line hline
  have hpairs := pairwise_splitInclusive c s
  rw [h, List.pairwise_append] at hpairs
  obtain ⟨l, rfl⟩ := hpairs.2.2 line hline a List.mem_cons_self
  obtain ⟨l', hl', heq | heq⟩ :=
    mem_splitInclusive c s (by rw [h]; exact List.mem_append_left _ hline)
  · exact ⟨l', hl', heq⟩
  · exact absurd (by rw [← heq]; simp) hl'

/-- The lines of the rest of a stream. -/
theorem splitInclusive_suffix (c : α) {s : List α} {before rest : List (List α)}
    (h : splitInclusive c s = before ++ rest) : splitInclusive c rest.flatten = rest := by
  cases rest with
  | nil => rfl
  | cons a after =>
      have hflat : before.flatten ++ (a :: after).flatten = s := by
        rw [← List.flatten_append, ← h, flatten_splitInclusive]
      have hsplit := splitInclusive_flatten_append c before (a :: after).flatten
        (closed_of_before c h)
      rw [hflat, h] at hsplit
      exact (List.append_cancel_left hsplit).symm

/-- The lines of a stream without one of its lines. -/
theorem splitInclusive_without (c : α) {s a : List α} {before after : List (List α)}
    (h : splitInclusive c s = before ++ a :: after) :
    splitInclusive c (before ++ after).flatten = before ++ after := by
  have hafter : splitInclusive c after.flatten = after := by
    rw [← List.singleton_append, ← List.append_assoc] at h
    exact splitInclusive_suffix c h
  rw [List.flatten_append, splitInclusive_flatten_append c before _
    (closed_of_before c h), hafter]

/-- Every line is closed, or every line but the last. -/
theorem splitInclusive_cases (c : α) (s : List α) :
    (∀ line ∈ splitInclusive c s, ∃ l, c ∉ l ∧ line = l ++ [c]) ∨
      ∃ lines last, splitInclusive c s = lines ++ [last] ∧ c ∉ last ∧
        ∀ line ∈ lines, ∃ l, c ∉ l ∧ line = l ++ [c] := by
  induction s using line_induction c with
  | nil => exact Or.inl fun _ h => nomatch h
  | last s hne hs =>
      exact Or.inr ⟨[], s, splitInclusive_of_not_mem c s hs hne, hs, fun _ h => nomatch h⟩
  | line l rest hl ih =>
      rw [splitInclusive_line c l rest hl]
      rcases ih with hall | ⟨lines, last, hlines, hlast, hall⟩
      · exact Or.inl (List.forall_mem_cons.mpr ⟨⟨l, hl, rfl⟩, hall⟩)
      · exact Or.inr ⟨(l ++ [c]) :: lines, last, by rw [hlines]; rfl, hlast,
          List.forall_mem_cons.mpr ⟨⟨l, hl, rfl⟩, hall⟩⟩

/-- The first lines of a stream, put together and split again. -/
theorem splitInclusive_takeWhile (c : α) (p : List α → Bool) (s : List α) :
    splitInclusive c ((splitInclusive c s).takeWhile p).flatten
      = (splitInclusive c s).takeWhile p := by
  induction s using line_induction c with
  | nil => rfl
  | last s hne hs =>
      rw [splitInclusive_of_not_mem c s hs hne]
      cases hp : p s with
      | true =>
          rw [List.takeWhile_cons_of_pos hp, List.takeWhile_nil, List.flatten_singleton,
            splitInclusive_of_not_mem c s hs hne]
      | false => rw [List.takeWhile_cons_of_neg (by simp [hp])]; rfl
  | line l rest hl ih =>
      rw [splitInclusive_line c l rest hl]
      cases hp : p (l ++ [c]) with
      | true =>
          rw [List.takeWhile_cons_of_pos hp, List.flatten_cons, List.append_assoc,
            List.singleton_append, splitInclusive_line c l _ hl, ih]
      | false => rw [List.takeWhile_cons_of_neg (by simp [hp])]; rfl

/-- Some of the lines, put together and split again. -/
theorem splitInclusive_sublist (c : α) (s : List α) :
    ∀ {lines : List (List α)}, lines.Sublist (splitInclusive c s) →
      splitInclusive c lines.flatten = lines := by
  induction s using line_induction c with
  | nil =>
      intro lines h
      rw [List.sublist_nil.mp h]
      rfl
  | last s hne hs =>
      intro lines h
      rw [splitInclusive_of_not_mem c s hs hne] at h
      rcases List.sublist_singleton.mp h with rfl | rfl
      · rfl
      · rw [List.flatten_singleton, splitInclusive_of_not_mem c s hs hne]
  | line l rest hl ih =>
      intro lines h
      rw [splitInclusive_line c l rest hl] at h
      cases h with
      | cons _ h => exact ih h
      | cons_cons _ h =>
          rw [List.flatten_cons, List.append_assoc, List.singleton_append,
            splitInclusive_line c l _ hl, ih h]

/-! ## Lines up to a mark -/

section
variable {α : Type} {p : α → Bool} {a : α}

/-- What comes before a mark, and nothing after it. -/
theorem takeWhile_append_mark (h : p a = false) (l r : List α) :
    (l ++ a :: r).takeWhile p = l.takeWhile p := by
  induction l with
  | nil => rw [List.nil_append, List.takeWhile_cons_of_neg (by simp [h])]; rfl
  | cons b l ih =>
      cases hb : p b with
      | true =>
          rw [List.cons_append, List.takeWhile_cons_of_pos hb,
            List.takeWhile_cons_of_pos hb, ih]
      | false =>
          rw [List.cons_append, List.takeWhile_cons_of_neg (by simp [hb]),
            List.takeWhile_cons_of_neg (by simp [hb])]

/-- What follows the first mark. -/
theorem dropWhile_append_mark (h : p a = false) {l : List α}
    (hl : ∀ b ∈ l, p b = true) (r : List α) :
    (l ++ a :: r).dropWhile p = a :: r := by
  rw [List.dropWhile_append_of_pos hl, List.dropWhile_cons_of_neg (by simp [h])]

/-- There is no mark, or a first one. -/
theorem exists_mark (p : α → Bool) (l : List α) :
    (∀ a ∈ l, p a = true) ∨ ∃ before a after, l = before ++ a :: after ∧ p a = false ∧
      ∀ b ∈ before, p b = true := by
  induction l with
  | nil => exact Or.inl fun _ h => nomatch h
  | cons a l ih =>
      cases ha : p a with
      | false => exact Or.inr ⟨[], a, l, rfl, ha, fun _ h => nomatch h⟩
      | true =>
          rcases ih with hall | ⟨before, b, after, rfl, hb, hbefore⟩
          · exact Or.inl (List.forall_mem_cons.mpr ⟨ha, hall⟩)
          · exact Or.inr
              ⟨a :: before, b, after, rfl, hb, List.forall_mem_cons.mpr ⟨ha, hbefore⟩⟩

end

/-! ## Groups -/

section
variable {α β : Type}

/-- Each element with the ones after it that join it. -/
def groups (joins : α → Bool) : List α → List (List α)
  | [] => []
  | a :: as =>
      match groups joins as with
      | (b :: more) :: rest =>
          if joins b then (a :: b :: more) :: rest else [a] :: (b :: more) :: rest
      | rest => [a] :: rest

/-- The elements that are left when some are hit, and those that join a hit one go with it. -/
def strip (joins hit : α → Bool) : Bool → List α → List α
  | _, [] => []
  | dropping, a :: as =>
      let dropping := if joins a then dropping else hit a
      if dropping then strip joins hit dropping as else a :: strip joins hit dropping as

variable {joins hit : α → Bool}

/-- The first group, and the groups after it. -/
theorem groups_cons (joins : α → Bool) (a : α) (as : List α) :
    ∃ more rest, groups joins (a :: as) = (a :: more) :: rest := by
  unfold groups
  split
  · split <;> exact ⟨_, _, rfl⟩
  · exact ⟨_, _, rfl⟩

theorem groups_cons_cons (joins : α → Bool) (a b : α) (as : List α) :
    ∃ more rest, groups joins (b :: as) = (b :: more) :: rest ∧
      groups joins (a :: b :: as) =
        if joins b then (a :: b :: more) :: rest else [a] :: (b :: more) :: rest := by
  obtain ⟨more, rest, h⟩ := groups_cons joins b as
  refine ⟨more, rest, h, ?_⟩
  rw [groups, h]

theorem flatten_groups (joins : α → Bool) (l : List α) : (groups joins l).flatten = l := by
  induction l with
  | nil => rfl
  | cons a l ih =>
      cases l with
      | nil => rfl
      | cons b l =>
          obtain ⟨more, rest, hb, hab⟩ := groups_cons_cons joins a b l
          rw [hb] at ih
          rw [hab, ← ih]
          split <;> rfl

theorem groups_ne_nil (l : List α) :
    ∀ {group : List α}, group ∈ groups joins l → group ≠ [] := by
  induction l with
  | nil => exact fun h => nomatch h
  | cons a l ih =>
      intro group h
      cases l with
      | nil => rw [List.mem_singleton.mp h]; exact List.cons_ne_nil _ _
      | cons b l =>
          obtain ⟨more, rest, hb, hab⟩ := groups_cons_cons joins a b l
          rw [hb] at ih
          rw [hab] at h
          split at h
          · rcases List.mem_cons.mp h with rfl | h
            · exact List.cons_ne_nil _ _
            · exact ih (List.mem_cons_of_mem _ h)
          · rcases List.mem_cons.mp h with rfl | h
            · exact List.cons_ne_nil _ _
            · exact ih h

theorem strip_map (f : β → α) (l : List β) : ∀ dropping,
    strip joins hit dropping (l.map f) = (strip (joins ∘ f) (hit ∘ f) dropping l).map f := by
  induction l with
  | nil => exact fun _ => rfl
  | cons a l ih =>
      intro dropping
      simp only [List.map_cons, strip, Function.comp_apply, ih]
      split <;> split <;> rfl

theorem strip_append (l : List α) : ∀ dropping, ∃ dropping', ∀ r,
    strip joins hit dropping (l ++ r) = strip joins hit dropping l ++
      strip joins hit dropping' r := by
  induction l with
  | nil => exact fun dropping => ⟨dropping, fun r => rfl⟩
  | cons a l ih =>
      intro dropping
      obtain ⟨dropping', h⟩ := ih (if joins a then dropping else hit a)
      refine ⟨dropping', fun r => ?_⟩
      rw [List.cons_append]
      simp only [strip, h]
      generalize (if joins a then dropping else hit a) = dropped
      cases dropped <;> rfl

theorem strip_sublist (l : List α) : ∀ dropping, (strip joins hit dropping l).Sublist l := by
  induction l with
  | nil => exact fun _ => List.Sublist.refl _
  | cons a l ih =>
      intro dropping
      simp only [strip]
      generalize (if joins a then dropping else hit a) = dropped
      cases dropped with
      | true => exact (ih true).cons a
      | false => exact (ih false).cons_cons a

/-- What comes before decides on the first group, its first element on every other one. -/
theorem strip_groups (l : List α) :
    ∀ (dropping : Bool) (a : α) (more : List α) (rest : List (List α)),
    groups joins l = (a :: more) :: rest →
      strip joins hit dropping l =
        (if (if joins a then dropping else hit a) then [] else a :: more) ++
          (rest.filter fun group => !group.head?.any fun a => !joins a && hit a).flatten := by
  induction l with
  | nil => exact fun _ _ _ _ h => nomatch h
  | cons a l ih =>
      intro dropping a' more rest h
      cases l with
      | nil =>
          cases h
          simp only [strip]
          generalize (if joins a then dropping else hit a) = dropped
          cases dropped <;> rfl
      | cons b l =>
          obtain ⟨more', rest', hb, hab⟩ := groups_cons_cons joins a b l
          have ih := fun dropping => ih dropping b more' rest' hb
          rw [hab] at h
          simp only [strip] at ih ⊢
          rw [ih]
          cases hj : joins b with
          | true =>
              -- `b` goes with the group of `a` and shares its fate
              simp only [hj, if_true] at h ⊢
              cases h
              generalize (if joins a then dropping else hit a) = dropped
              cases dropped <;> rfl
          | false =>
              simp only [hj, Bool.false_eq_true, if_false] at h ⊢
              cases h
              rw [List.filter_cons]
              simp only [List.head?_cons, Option.any_some, hj, Bool.not_false, Bool.true_and]
              generalize (if joins a then dropping else hit a) = dropped
              cases dropped <;> cases hit b <;> simp

/-- Whole groups are left: those whose first element is not hit, or joins what is not there. -/
theorem strip_eq (l : List α) : strip joins hit false l =
    ((groups joins l).filter fun group => !group.head?.any fun a => !joins a &&
      hit a).flatten := by
  cases l with
  | nil => rfl
  | cons a l =>
      obtain ⟨more, rest, h⟩ := groups_cons joins a l
      rw [strip_groups (a :: l) false a more rest h, h, List.filter_cons]
      cases hj : joins a <;> cases hh : hit a <;> simp [hj, hh]

/-- Two filters one after the other are one filter. -/
theorem strip_strip {hit' : α → Bool} (l : List α) : ∀ dropping dropping',
    strip joins hit' dropping' (strip joins hit dropping l)
      = strip joins (fun a => hit a || hit' a) (dropping || dropping') l := by
  induction l with
  | nil => exact fun _ _ => rfl
  | cons a l ih =>
      intro dropping dropping'
      cases hj : joins a with
      | true =>
          cases dropping with
          | true => simp only [strip, hj, if_true, Bool.true_or, ih]
          | false =>
              cases dropping' with
              | true =>
                  simp only [strip, hj, if_true, Bool.false_or,
                    Bool.false_eq_true, if_false, ih]
              | false =>
                  simp only [strip, hj, if_true, Bool.false_or,
                    Bool.false_eq_true, if_false, ih]
      | false =>
          cases hh : hit a with
          | true =>
              simp only [strip, hj, hh, Bool.false_eq_true, if_false,
                if_true, Bool.true_or, ih]
          | false =>
              cases hh' : hit' a with
              | true =>
                  simp only [strip, hj, hh, hh', Bool.false_eq_true, if_false,
                    if_true, Bool.false_or, ih]
              | false =>
                  simp only [strip, hj, hh, hh', Bool.false_eq_true,
                    if_false, Bool.false_or, ih]

/-- Elements that join nothing, with another one after them, are groups of their own. -/
theorem groups_append {l : List α} (hl : ∀ a ∈ l, joins a = false) {b : α}
    (hb : joins b = false) (r : List α) :
    groups joins (l ++ b :: r) = l.map (fun a => [a]) ++ groups joins (b :: r) := by
  induction l with
  | nil => rfl
  | cons a l ih =>
      have ih := ih fun c hc => hl c (List.mem_cons_of_mem a hc)
      have hnext : ∃ c l', l ++ b :: r = c :: l' ∧ joins c = false := by
        cases l with
        | nil => exact ⟨b, r, rfl, hb⟩
        | cons c l => exact ⟨c, l ++ b :: r, rfl, hl c (by simp)⟩
      obtain ⟨c, l', hc, hjoins⟩ := hnext
      obtain ⟨more, rest, hgroups, hcons⟩ := groups_cons_cons joins a c l'
      rw [List.cons_append, hc, hcons, hjoins, if_neg (by decide), ← hgroups, ← hc, ih]
      rfl

/-- A group starts with one of the elements. -/
theorem filter_groups_eq_nil {q : α → Bool} {l : List α} (h : ∀ a ∈ l, q a = false) :
    (groups joins l).filter (fun group => group.head?.any q) = [] := by
  refine List.filter_eq_nil_iff.mpr fun group hgroup => ?_
  obtain ⟨a, more, rfl⟩ := List.exists_cons_of_ne_nil (groups_ne_nil l hgroup)
  have hmem : a ∈ (groups joins l).flatten :=
    List.mem_flatten.mpr ⟨_, hgroup, List.mem_cons_self⟩
  rw [flatten_groups] at hmem
  rw [List.head?_cons, Option.any_some, h a hmem]
  decide

/-- What is left is not hit. -/
theorem not_hit_of_mem_strip (l : List α) :
    ∀ {dropping : Bool} {a : α}, a ∈ strip joins hit dropping l →
    joins a = false → hit a = false := by
  induction l with
  | nil => exact fun h => nomatch h
  | cons b l ih =>
      intro dropping a h hjoins
      cases hb : joins b with
      | true =>
          simp only [strip, hb, if_true] at h
          cases dropping with
          | true => exact ih h hjoins
          | false =>
              rcases List.mem_cons.mp h with rfl | h
              · rw [hb] at hjoins
                cases hjoins
              · exact ih h hjoins
      | false =>
          simp only [strip, hb, Bool.false_eq_true, if_false] at h
          cases hhit : hit b with
          | true =>
              rw [hhit] at h
              exact ih h hjoins
          | false =>
              rw [hhit] at h
              rcases List.mem_cons.mp h with rfl | h
              · exact hhit
              · exact ih h hjoins

/-- Elements that join nothing start a group each. -/
theorem length_filter_groups {q : α → Bool} (hq : ∀ a, q a = true →
      joins a = false) (l : List α) :
    ((groups joins l).filter fun group => group.head?.any q).length = l.countP q := by
  induction l with
  | nil => rfl
  | cons a l ih =>
      cases l with
      | nil =>
          unfold groups
          cases ha : q a <;> simp [groups, ha]
      | cons b l =>
          obtain ⟨more, rest, hb, hab⟩ := groups_cons_cons joins a b l
          rw [hb] at ih
          rw [hab, List.countP_cons, ← ih]
          cases hj : joins b with
          | true =>
              have hqb : q b = false := Bool.eq_false_iff.mpr fun h => by
                rw [hq b h] at hj; cases hj
              cases ha : q a <;> simp [ha, hqb]
          | false => cases ha : q a <;> simp [ha]

/-- What joins nothing and is not hit is left. -/
theorem countP_strip {q : α → Bool} (hq : ∀ a, q a = true → joins a = false ∧
      hit a = false) (l : List α) :
    ∀ dropping, (strip joins hit dropping l).countP q = l.countP q := by
  induction l with
  | nil => exact fun _ => rfl
  | cons a l ih =>
      intro dropping
      simp only [strip]
      cases hdrop : (if joins a then dropping else hit a) with
      | false =>
          simp only [Bool.false_eq_true, if_false]
          rw [List.countP_cons, List.countP_cons, ih]
      | true =>
          have hqa : q a = false := Bool.eq_false_iff.mpr fun h => by
            obtain ⟨hj, hh⟩ := hq a h
            rw [hj, hh] at hdrop
            cases hdrop
          simp only [if_true]
          rw [ih, List.countP_cons_of_neg (by simp [hqa])]

/-- After a hit element, what is left starts with one that joins nothing. -/
theorem head_strip_dropping (l : List α) :
    (strip joins hit true l).head?.any joins = false := by
  induction l with
  | nil => rfl
  | cons a l ih =>
      simp only [strip]
      cases hj : joins a with
      | true => exact ih
      | false =>
          cases hh : hit a with
          | true => exact ih
          | false => simp [hj]

/-- What is left starts with an element that joins exactly if the whole does. -/
theorem head_strip (l : List α) :
    (strip joins hit false l).head?.any joins = l.head?.any joins := by
  cases l with
  | nil => rfl
  | cons a l =>
      simp only [strip]
      cases hj : joins a with
      | true => simp [hj]
      | false =>
          cases hh : hit a with
          | true => simpa [hj] using head_strip_dropping l
          | false => simp [hj]

end

/-! ## Selections written side by side -/

section
variable {α β : Type} {p q : α → Bool} {f g : α → List β}

theorem length_flatMap_filter_le {l : List α} (hpq : ∀ a ∈ l, q a = true → p a = true)
    (hlen : ∀ a ∈ l, (f a).length ≤ (g a).length) :
    ((l.filter q).flatMap f).length ≤ ((l.filter p).flatMap g).length := by
  induction l with
  | nil => exact Nat.le_refl 0
  | cons a l ih =>
      have ih := ih (fun b hb => hpq b (List.mem_cons_of_mem _ hb))
        (fun b hb => hlen b (List.mem_cons_of_mem _ hb))
      have ha := hlen a List.mem_cons_self
      cases hq : q a with
      | true =>
          have hp := hpq a List.mem_cons_self hq
          rw [List.filter_cons_of_pos hq, List.filter_cons_of_pos hp, List.flatMap_cons,
            List.flatMap_cons, List.length_append, List.length_append]
          omega
      | false =>
          rw [List.filter_cons_of_neg (by simp [hq])]
          cases hp : p a with
          | true =>
              rw [List.filter_cons_of_pos hp, List.flatMap_cons, List.length_append]
              omega
          | false =>
              rw [List.filter_cons_of_neg (by simp [hp])]
              exact ih

/-- A larger selection, written with longer parts and more after it, is what a smaller one
gives only if it selects the same, writes the same and nothing more. -/
theorem flatMap_filter_append_eq_iff {l : List α} (hpq : ∀ a ∈ l, q a = true → p a = true)
    (hlen : ∀ a ∈ l, (f a).length ≤ (g a).length) (hne : ∀ a ∈ l, f a ≠ []) (tail : List β) :
    (l.filter p).flatMap g ++ tail = (l.filter q).flatMap f ↔
      tail = [] ∧ ∀ a ∈ l, p a = true → q a = true ∧ g a = f a := by
  induction l with
  | nil => simp
  | cons a l ih =>
      have hpq' := fun b hb => hpq b (List.mem_cons_of_mem a hb)
      have hlen' := fun b hb => hlen b (List.mem_cons_of_mem a hb)
      have ih := ih hpq' hlen' fun b hb => hne b (List.mem_cons_of_mem a hb)
      have hrest := length_flatMap_filter_le hpq' hlen'
      have ha := hlen a List.mem_cons_self
      rw [List.forall_mem_cons]
      cases hp : p a with
      | false =>
          have hq : q a = false := by
            cases hq : q a with
            | false => rfl
            | true => rw [hpq a List.mem_cons_self hq] at hp; cases hp
          rw [List.filter_cons_of_neg (by simp [hp]),
            List.filter_cons_of_neg (by simp [hq]), ih]
          simp
      | true =>
          rw [List.filter_cons_of_pos hp, List.flatMap_cons, List.append_assoc]
          cases hq : q a with
          | true =>
              rw [List.filter_cons_of_pos hq, List.flatMap_cons]
              constructor
              · intro h
                have htotal := congrArg List.length h
                simp only [List.length_append] at htotal
                obtain ⟨hga, hgl⟩ := List.append_inj h (by omega)
                obtain ⟨htail, hall⟩ := ih.mp hgl
                exact ⟨htail, fun _ => ⟨rfl, hga⟩, hall⟩
              · rintro ⟨htail, hga, hall⟩
                rw [(hga rfl).2, ih.mpr ⟨htail, hall⟩]
          | false =>
              rw [List.filter_cons_of_neg (by simp [hq])]
              have hpos := List.length_pos_iff.mpr (hne a List.mem_cons_self)
              constructor
              · intro h
                have htotal := congrArg List.length h
                simp only [List.length_append] at htotal
                omega
              · rintro ⟨-, hga, -⟩
                exact nomatch (hga rfl).1

end

/-! ## Occurrence -/

omit [DecidableEq α] in
/-- A word without `c` that occurs across a `c` occurs on one side of it. -/
theorem infix_append_cons {c : α} {w a b : List α} (hc : c ∉ w) :
    w <:+: a ++ c :: b ↔ w <:+: a ∨ w <:+: b := by
  constructor
  · rintro ⟨s, t, h⟩
    rw [List.append_assoc] at h
    rcases List.append_eq_append_iff.mp h with ⟨u, ha, hb⟩ | ⟨u, hs, hu⟩
    · rcases List.append_eq_append_iff.mp hb with ⟨v, hv, -⟩ | ⟨v, hv, ht⟩
      · exact Or.inl ⟨s, v, by rw [ha, hv, List.append_assoc]⟩
      · cases v with
        | nil => exact Or.inl ⟨s, [], by rw [ha, hv]; simp⟩
        | cons x v =>
            have hx : c = x := (List.cons.inj ht).1
            exact absurd (by rw [hv, hx]; simp) hc
    · cases u with
      | nil =>
          cases w with
          | nil => exact Or.inl (List.nil_infix)
          | cons x w =>
              have hx : c = x := (List.cons.inj hu).1
              exact absurd (hx ▸ List.mem_cons_self) hc
      | cons x u =>
          exact Or.inr ⟨u, t, by rw [List.append_assoc]; exact (List.cons.inj hu).2.symm⟩
  · rintro (h | h)
    · exact h.trans (List.prefix_append a _).isInfix
    · exact h.trans ((List.suffix_cons c b).trans (List.suffix_append a _)).isInfix

omit [DecidableEq α] in
/-- Segments of which only the last may be unclosed: a word occurs in the concatenation
iff it occurs in a segment. -/
theorem infix_flatten {c : α} {w : List α} (hc : c ∉ w) (hw : w ≠ []) :
    ∀ {segments : List (List α)}, segments.Pairwise (fun s _ => [c] <:+ s) →
      (w <:+: segments.flatten ↔ ∃ s ∈ segments, w <:+: s)
  | [], _ => by simp [hw]
  | [s], _ => by simp
  | s :: s' :: segments, h => by
      obtain ⟨hs, hrest⟩ := List.pairwise_cons.mp h
      obtain ⟨l, rfl⟩ := hs s' List.mem_cons_self
      have ih := infix_flatten hc hw hrest
      have hl : w <:+: l ++ [c] ↔ w <:+: l := by
        rw [infix_append_cons hc, List.infix_nil]
        exact or_iff_left hw
      have hflat : ((l ++ [c]) :: s' :: segments).flatten = l ++ c ::
          (s' :: segments).flatten := by
        simp
      rw [hflat, infix_append_cons hc, ih, ← hl]
      simp only [List.mem_cons (a := _) (b := l ++ [c]), exists_eq_or_imp]

end Lines
