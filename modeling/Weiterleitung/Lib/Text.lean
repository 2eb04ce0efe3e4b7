/-
# `Lib.Text` — strings as lists of characters, with the operations of a standard library

A string is the list of its characters.  Lengths and offsets are in bytes of the
UTF-8 form, as in a library whose strings are UTF-8: `len`, `find`, `getTo` and
`getFrom` count `Char.utf8Size`.  Case operations on ASCII are
`Char.toLower` and `Char.toUpper`.

The characterisations at the end of each section are what proofs use: a split at
the first or at the last separator is a decomposition of the string
(`splitOnce_eq_some`, `rsplitOnce_eq_some`), offsets of a decomposition cut it apart
again (`find_append`, `slice_append`), and a string whose ends are clean has
nothing to trim (`dropWhile_cons_eq_self`, `rdropWhile_concat_eq_self`).
-/
import Mathlib
import Weiterleitung.Lib.Unicode

abbrev Str := List Char

namespace Text

open Unicode

instance : Coe String Str := ⟨String.toList⟩

/-! ## Length and offsets -/

/-- The length in bytes. -/
def len (s : Str) : Nat := (s.map Char.utf8Size).sum

@[simp] theorem len_nil : len [] = 0 := rfl

@[simp] theorem len_cons (c : Char) (s : Str) : len (c :: s) = c.utf8Size + len s := by
  simp [len]

@[simp] theorem len_append (s t : Str) : len (s ++ t) = len s + len t := by
  simp [len]

/-- The byte offset of the first `c`. -/
def find (c : Char) : Str → Option Nat
  | [] => none
  | d :: s => if d = c then some 0 else (find c s).map (d.utf8Size + ·)

/-- The first `n` bytes, if they end between two characters. -/
def getTo : Nat → Str → Option Str
  | 0, _ => some []
  | _ + 1, [] => none
  | n + 1, c :: s =>
      if c.utf8Size ≤ n + 1 then (getTo (n + 1 - c.utf8Size) s).map (c :: ·) else none

/-- What follows the first `n` bytes, if they end between two characters. -/
def getFrom : Nat → Str → Option Str
  | 0, s => some s
  | _ + 1, [] => none
  | n + 1, c :: s => if c.utf8Size ≤ n + 1 then getFrom (n + 1 - c.utf8Size) s else none

/-- The bytes from `start` to `stop`. -/
def slice (start stop : Nat) (s : Str) : Option Str := (getTo stop s).bind (getFrom start)

theorem find_append {c : Char} :
    ∀ {a : Str} (b : Str), c ∉ a → find c (a ++ c :: b) = some (len a)
  | [], b, _ => by simp [find]
  | d :: a, b, h => by
      have hd : d ≠ c := fun e => h (e ▸ List.mem_cons_self)
      have ih := find_append (a := a) b (fun hc => h (List.mem_cons_of_mem d hc))
      simp [find, hd, ih]

theorem find_eq_none {c : Char} : ∀ {s : Str}, find c s = none ↔ c ∉ s
  | [] => by simp [find]
  | d :: s => by
      by_cases hd : d = c
      · simp [find, hd]
      · simp [find, hd, find_eq_none (s := s), Ne.symm hd]

theorem getTo_append : ∀ a b : Str, getTo (len a) (a ++ b) = some a
  | [], b => by cases b <;> rfl
  | c :: a, b => by
      have hpos := c.utf8Size_pos
      obtain ⟨n, hn⟩ : ∃ n, len (c :: a) = n + 1 :=
        ⟨len (c :: a) - 1, by simp only [len_cons]; omega⟩
      have hsize : c.utf8Size ≤ n + 1 := by rw [← hn, len_cons]; omega
      have hrest : n + 1 - c.utf8Size = len a := by rw [← hn, len_cons]; omega
      rw [hn, List.cons_append, getTo, if_pos hsize, hrest, getTo_append a b]
      rfl

theorem getFrom_append : ∀ a b : Str, getFrom (len a) (a ++ b) = some b
  | [], b => by cases b <;> rfl
  | c :: a, b => by
      have hpos := c.utf8Size_pos
      obtain ⟨n, hn⟩ : ∃ n, len (c :: a) = n + 1 :=
        ⟨len (c :: a) - 1, by simp only [len_cons]; omega⟩
      have hsize : c.utf8Size ≤ n + 1 := by rw [← hn, len_cons]; omega
      have hrest : n + 1 - c.utf8Size = len a := by rw [← hn, len_cons]; omega
      rw [hn, List.cons_append, getFrom, if_pos hsize, hrest, getFrom_append a b]

theorem slice_append (a b c : Str) : slice (len a) (len (a ++ b)) (a ++ b ++ c) = some b := by
  rw [slice, getTo_append, Option.bind_some, getFrom_append]

/-! ## Case -/

def toAsciiUppercase (s : Str) : Str := s.map Char.toUpper

def eqIgnoreAsciiCase (s t : Str) : Bool := s.map Char.toLower = t.map Char.toLower

/-! ## Trimming -/

def trimStart (s : Str) : Str := s.dropWhile isWhitespace

def trimEnd (s : Str) : Str := s.rdropWhile isWhitespace

def trim (s : Str) : Str := trimEnd (trimStart s)

def trimStartMatches (c : Char) (s : Str) : Str := s.dropWhile (· = c)

def trimEndMatches (c : Char) (s : Str) : Str := s.rdropWhile (· = c)

theorem dropWhile_cons_eq_self {p : Char → Bool} {c : Char} {s : Str} (h : p c = false) :
    (c :: s).dropWhile p = c :: s := by
  simp [h]

theorem rdropWhile_concat_eq_self {p : Char → Bool} {c : Char} {s : Str} (h : p c = false) :
    (s ++ [c]).rdropWhile p = s ++ [c] := by
  rw [List.rdropWhile_eq_self_iff]
  intro _
  simp [h]

theorem trimEndMatches_eq_self {c : Char} {s : Str} :
    trimEndMatches c s = s ↔ s.getLast? ≠ some c := by
  unfold trimEndMatches
  rw [List.rdropWhile_eq_self_iff]
  constructor
  · intro h h0
    have hne : s ≠ [] := by rintro rfl; cases h0
    rw [List.getLast?_eq_some_getLast hne] at h0
    exact h hne (by simpa using h0)
  · intro h hne h0
    exact h (by rw [List.getLast?_eq_some_getLast hne]; simpa using h0)

/-- Dropping from an end what is no `c` leaves the count of `c`. -/
theorem count_dropWhile {c : Char} {p : Char → Bool} (hc : p c = false) :
    ∀ s : Str, (s.dropWhile p).count c = s.count c
  | [] => rfl
  | d :: s => by
      cases hd : p d with
      | false => rw [dropWhile_cons_eq_self hd]
      | true =>
          have hne : d ≠ c := by rintro rfl; rw [hc] at hd; cases hd
          rw [List.dropWhile_cons_of_pos hd, count_dropWhile hc s, List.count_cons_of_ne hne]

theorem count_rdropWhile {c : Char} {p : Char → Bool} (hc : p c = false) (s : Str) :
    (s.rdropWhile p).count c = s.count c := by
  rw [List.rdropWhile, List.count_reverse, count_dropWhile hc, List.count_reverse]

theorem mem_trim {c : Char} {s : Str} (h : c ∈ trim s) : c ∈ s := by
  have h1 := (List.rdropWhile_prefix isWhitespace (l := trimStart s)).subset h
  exact (List.dropWhile_suffix isWhitespace (l := s)).subset h1

/-- Nothing is trimmed from a text with no white space at its ends. -/
theorem trim_eq_self {s : Str} :
    trim s = s ↔ (∀ c, s.head? = some c → isWhitespace c = false) ∧ ∀ c, s.getLast? = some c →
    isWhitespace c = false := by
  have hfront : trimStart s = s ↔ ∀ c, s.head? = some c → isWhitespace c = false := by
    unfold trimStart
    cases s with
    | nil => exact iff_of_true rfl nofun
    | cons c s =>
        constructor
        · intro h d hd
          cases hd
          cases hc : isWhitespace c with
          | false => rfl
          | true =>
              rw [List.dropWhile_cons_of_pos hc] at h
              have hlen := (List.dropWhile_suffix isWhitespace (l := s)).length_le
              rw [h, List.length_cons] at hlen
              omega
        · exact fun h => dropWhile_cons_eq_self (h c rfl)
  have hback : trimEnd s = s ↔ ∀ c, s.getLast? = some c → isWhitespace c = false := by
    unfold trimEnd
    rw [List.rdropWhile_eq_self_iff]
    constructor
    · intro h c hc
      have hne : s ≠ [] := by rintro rfl; cases hc
      rw [List.getLast?_eq_some_getLast hne] at hc
      cases hc
      simpa using h hne
    · intro h hne hlast
      rw [h _ (List.getLast?_eq_some_getLast hne)] at hlast
      cases hlast
  rw [← hfront, ← hback]
  constructor
  · intro h
    have hsuffix := List.dropWhile_suffix isWhitespace (l := s)
    have hprefix := List.rdropWhile_prefix isWhitespace (l := trimStart s)
    have hlen : (trim s).length = s.length := congrArg List.length h
    have hstart : trimStart s = s :=
      hsuffix.eq_of_length (Nat.le_antisymm hsuffix.length_le (hlen ▸ hprefix.length_le))
    rw [trim, hstart] at h
    exact ⟨hstart, h⟩
  · rintro ⟨hstart, hend⟩
    rw [trim, hstart, hend]

theorem trim_trim (s : Str) : trim (trim s) = trim s := by
  rw [trim_eq_self]
  constructor
  · intro c hc
    obtain ⟨rest, hrest⟩ := List.rdropWhile_prefix isWhitespace (l := trimStart s)
    have hhead : (trimStart s).head? = some c := by
      rw [← hrest, List.head?_append]
      exact (congrArg (Option.or · _) hc).trans rfl
    cases hs : trimStart s with
    | nil => rw [hs] at hhead; cases hhead
    | cons d t =>
        rw [hs] at hhead
        cases hhead
        have hne : s.dropWhile isWhitespace ≠ [] := by
          rw [show s.dropWhile isWhitespace = c :: t from hs]
          exact List.cons_ne_nil _ _
        have hnot := List.head_dropWhile_not isWhitespace hne
        simpa [show s.dropWhile isWhitespace = c :: t from hs] using hnot
  · intro c hc
    have hne : trim s ≠ [] := by intro h; rw [h] at hc; cases hc
    rw [List.getLast?_eq_some_getLast hne] at hc
    cases hc
    exact Bool.eq_false_iff.mpr (List.rdropWhile_last_not isWhitespace (trimStart s) hne)

/-- White space after a text is trimmed with it. -/
theorem trim_append_space (s : Str) {space : Str} (h : ∀ c ∈ space, isWhitespace c = true) :
    trim (s ++ space) = trim s := by
  have hend : ∀ t : Str, trimEnd (t ++ space) = trimEnd t := by
    intro t
    unfold trimEnd List.rdropWhile
    rw [List.reverse_append, List.dropWhile_append_of_pos (by simpa using h)]
  unfold trim trimStart
  rw [List.dropWhile_append]
  cases hs : s.dropWhile isWhitespace with
  | nil =>
      have hspace : space.dropWhile isWhitespace = [] := List.dropWhile_eq_nil_iff.mpr h
      rw [hspace]
      rfl
  | cons c t => exact hend (c :: t)

theorem trimStart_cons {c : Char} (hc : isWhitespace c = false) (s : Str) :
    trimStart (c :: s) = c :: s :=
  dropWhile_cons_eq_self hc

/-- What stands behind a character that is no white space is not trimmed from the front. -/
theorem trimStart_append_cons {c : Char} (hc : isWhitespace c = false) (s t : Str) :
    trimStart (s ++ c :: t) = trimStart s ++ c :: t := by
  induction s with
  | nil => exact dropWhile_cons_eq_self hc
  | cons d s ih =>
      unfold trimStart at ih ⊢
      rw [List.cons_append]
      cases hd : isWhitespace d with
      | true => rw [List.dropWhile_cons_of_pos hd, List.dropWhile_cons_of_pos hd, ih]
      | false => rw [dropWhile_cons_eq_self hd, dropWhile_cons_eq_self hd, List.cons_append]

theorem trimStart_trimStart (s : Str) : trimStart (trimStart s) = trimStart s :=
  List.dropWhile_idempotent _ s

/-- What stands before a character that is no white space is not trimmed from behind. -/
theorem trimEnd_append_cons {c : Char} (hc : isWhitespace c = false) (s t : Str) :
    trimEnd (s ++ c :: t) = s ++ c :: trimEnd t := by
  induction t using List.reverseRecOn with
  | nil => exact rdropWhile_concat_eq_self hc
  | append_singleton t d ih =>
      unfold trimEnd at ih ⊢
      rw [← List.cons_append, ← List.append_assoc]
      cases hd : isWhitespace d with
      | true =>
          rw [List.rdropWhile_concat_pos _ _ _ hd, List.rdropWhile_concat_pos _ _ _ hd, ih]
      | false =>
          rw [rdropWhile_concat_eq_self hd, rdropWhile_concat_eq_self hd, List.append_assoc,
            List.cons_append]

theorem trimEnd_prefix (s : Str) : trimEnd s <+: s := List.rdropWhile_prefix _ s

theorem trimEnd_trimEnd (s : Str) : trimEnd (trimEnd s) = trimEnd s :=
  List.rdropWhile_idempotent _ s

/-- Only white space is trimmed. -/
theorem mem_trimEnd_iff {c : Char} (hc : isWhitespace c = false) {s : Str} :
    c ∈ trimEnd s ↔ c ∈ s := by
  rw [← List.count_pos_iff, ← List.count_pos_iff, trimEnd, count_rdropWhile hc]

/-! ## Splitting -/

/-- The parts before and after the first `c`. -/
def splitOnce (c : Char) : Str → Option (Str × Str)
  | [] => none
  | d :: s => if d = c then some ([], s) else (splitOnce c s).map fun (a, b) => (d :: a, b)

/-- The parts before and after the last `c`. -/
def rsplitOnce (c : Char) : Str → Option (Str × Str)
  | [] => none
  | d :: s =>
      match rsplitOnce c s with
      | some (a, b) => some (d :: a, b)
      | none => if d = c then some ([], s) else none

theorem splitOnce_append {c : Char} : ∀ {a : Str} (b : Str), c ∉ a →
    splitOnce c (a ++ c :: b) = some (a, b)
  | [], b, _ => by simp [splitOnce]
  | d :: a, b, h => by
      have hd : d ≠ c := fun e => h (e ▸ List.mem_cons_self)
      have ih := splitOnce_append (a := a) b (fun hc => h (List.mem_cons_of_mem d hc))
      simp [splitOnce, hd, ih]

theorem splitOnce_eq_none {c : Char} : ∀ {s : Str}, splitOnce c s = none ↔ c ∉ s
  | [] => by simp [splitOnce]
  | d :: s => by
      by_cases hd : d = c
      · simp [splitOnce, hd]
      · simp [splitOnce, hd, splitOnce_eq_none (s := s), Ne.symm hd]

theorem splitOnce_eq_some {c : Char} {s a b : Str} :
    splitOnce c s = some (a, b) ↔ s = a ++ c :: b ∧ c ∉ a := by
  constructor
  · induction s generalizing a with
    | nil => simp [splitOnce]
    | cons d s ih =>
        intro h
        by_cases hd : d = c
        · simp only [splitOnce, hd, if_true, Option.some.injEq, Prod.mk.injEq] at h
          obtain ⟨rfl, rfl⟩ := h
          simp [hd]
        · simp only [splitOnce, hd, if_false, Option.map_eq_some_iff, Prod.mk.injEq] at h
          obtain ⟨⟨a', b'⟩, h', rfl, rfl⟩ := h
          obtain ⟨hs, ha⟩ := ih h'
          refine ⟨by simp [hs], ?_⟩
          simp only [List.mem_cons, not_or]
          exact ⟨fun e => hd e.symm, ha⟩
  · rintro ⟨rfl, ha⟩
    exact splitOnce_append b ha

theorem rsplitOnce_eq_none {c : Char} : ∀ {s : Str}, rsplitOnce c s = none ↔ c ∉ s
  | [] => by simp [rsplitOnce]
  | d :: s => by
      have ih := rsplitOnce_eq_none (c := c) (s := s)
      cases h : rsplitOnce c s with
      | none =>
          have hs : c ∉ s := ih.mp h
          by_cases hd : d = c
          · simp [rsplitOnce, h, hd]
          · simp [rsplitOnce, h, hd, hs, Ne.symm hd]
      | some p =>
          have hs : c ∈ s := by
            by_contra hc
            rw [ih.mpr hc] at h
            exact absurd h (by simp)
          simp [rsplitOnce, h, hs]

theorem rsplitOnce_append {c : Char} : ∀ (a : Str) {b : Str}, c ∉ b →
    rsplitOnce c (a ++ c :: b) = some (a, b)
  | [], b, h => by simp [rsplitOnce, rsplitOnce_eq_none.mpr h]
  | d :: a, b, h => by simp [rsplitOnce, rsplitOnce_append a h]

theorem rsplitOnce_eq_some {c : Char} {s a b : Str} :
    rsplitOnce c s = some (a, b) ↔ s = a ++ c :: b ∧ c ∉ b := by
  constructor
  · induction s generalizing a with
    | nil => simp [rsplitOnce]
    | cons d s ih =>
        intro h
        cases hr : rsplitOnce c s with
        | none =>
            have hs : c ∉ s := rsplitOnce_eq_none.mp hr
            by_cases hd : d = c
            · simp only [rsplitOnce, hr, hd, if_true, Option.some.injEq, Prod.mk.injEq] at h
              obtain ⟨rfl, rfl⟩ := h
              exact ⟨by simp [hd], hs⟩
            · simp [rsplitOnce, hr, hd] at h
        | some p =>
            obtain ⟨a', b'⟩ := p
            simp only [rsplitOnce, hr, Option.some.injEq, Prod.mk.injEq] at h
            obtain ⟨rfl, rfl⟩ := h
            obtain ⟨hs, hb⟩ := ih hr
            exact ⟨by simp [hs], hb⟩
  · rintro ⟨rfl, hb⟩
    exact rsplitOnce_append a hb

/-- Two decompositions at the last `c` are the same. -/
theorem append_cons_inj_last {c : Char} {a a' b b' : Str} (hb : c ∉ b) (hb' : c ∉ b')
    (h : a ++ c :: b = a' ++ c :: b') : a = a' ∧ b = b' := by
  have h1 := rsplitOnce_append a hb
  rw [h, rsplitOnce_append a' hb'] at h1
  simpa [eq_comm] using h1

end Text
