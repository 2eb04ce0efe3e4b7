/-
# `Domain.EmailAddress` — parsed addresses, and which of them parse again

An `EmailAddress` is what `parse` lets through: the conditions of its two checks
are a field, together with the form `parse` leaves the domain in, so an address
that breaks them cannot be built.

What the router and the store need of addresses is proved once, here:

    an address printed and parsed is itself                  (`parse_toString`)
    its normalised form, if it parses, is its own normalised
      form                                     (`normalised_of_parse_normalised`)
    that form has no white space and no bracket              (`mem_normalised`)

The normalised form does not always parse: lower-casing can lengthen the local
part beyond the limit, and `parse_normalised` says exactly when.
-/
import Mathlib
import Weiterleitung.Lib.Text

namespace Weiterleitung

open Text Unicode

/-- `valid_local` of `EmailAddress::parse`. -/
def validLocal (localPart : Str) : Bool :=
  !localPart.isEmpty && len localPart ≤ 64 && !localPart.any isWhitespace &&
    !localPart.any (fun c => c ∈ ['<', '>', ',', ';', '"', '\\'])

/-- `valid_domain` of `EmailAddress::parse`. -/
def validDomain (domain : Str) : Bool :=
  !domain.isEmpty && len domain ≤ 255 && domain.contains '.' && domain.head? ≠ some '.' &&
    !decide (['.', '.'] <:+: domain) &&
    domain.all (fun c => c.isAlphanum || c = '.' || c = '-')

/-- The form `parse` leaves a domain in. -/
def Settled (domain : Str) : Prop :=
  toLowercase domain = domain ∧ trimEndMatches '.' domain = domain

/-- A syntactically valid, normalised email address. -/
structure EmailAddress where
  localPart : Str
  domain : Str
  valid : validLocal localPart = true ∧ validDomain domain = true
  settled : Settled domain
  deriving DecidableEq

/-! ## The form of a domain -/

/-- Lower-casing a domain without trailing dots makes none. -/
theorem settled_toLowercase (domain : Str) :
    Settled (toLowercase (trimEndMatches '.' domain)) := by
  refine ⟨toLowercase_idem _, ?_⟩
  rcases List.eq_nil_or_concat' (trimEndMatches '.' domain) with h | ⟨s, c, h⟩
  · rw [h]; rfl
  · have hc : c ≠ '.' := by
      have hne : domain.rdropWhile (· = '.') ≠ [] := by
        rw [show domain.rdropWhile (· = '.') = s ++ [c] from h]; simp
      have hlast := List.rdropWhile_last_not (fun x => decide (x = '.')) domain hne
      simp only [show domain.rdropWhile (fun x => decide (x = '.')) = s ++ [c] from h,
        List.getLast_append_singleton, decide_eq_true_eq] at hlast
      exact hlast
    rw [h]
    obtain ⟨p, hp⟩ := toLowercaseFrom_concat c s []
    rw [toLowercase, hp]
    obtain ⟨q, d, hq⟩ := (List.eq_nil_or_concat' _).resolve_left
      (lowerAt_ne_nil (s.reverse ++ []) c [])
    have hd : d ∈ lowerAt (s.reverse ++ []) c [] := by rw [hq]; simp
    rw [hq, ← List.append_assoc]
    refine rdropWhile_concat_eq_self ?_
    rw [decide_eq_false_iff_not]
    rintro rfl
    rcases mem_lowerAt hd with h1 | h1 | ⟨h1, -⟩
    · exact hc h1.symm
    · exact absurd h1 (by decide)
    · exact absurd h1 (by decide)

namespace EmailAddress

def invalid (s : Str) : Str := "`" ++ s ++ "` is not a valid email address"

def parse (s : Str) : Except Str EmailAddress :=
  let s := trimEndMatches '>' (trimStartMatches '<' (trim s))
  match rsplitOnce '@' s with
  | none => .error (invalid s)
  | some (localPart, d) =>
      let domain := toLowercase (trimEndMatches '.' d)
      if h : validLocal localPart = true ∧ validDomain domain = true then
        .ok ⟨localPart, domain, h, settled_toLowercase d⟩
      else .error (invalid s)

/-- Lowercased form used for lookups and uniqueness. -/
def normalised (a : EmailAddress) : Str := toLowercase a.localPart ++ '@' :: a.domain

/-- `fmt::Display`. -/
def toString (a : EmailAddress) : Str := a.localPart ++ '@' :: a.domain

/-! ## Characters of an address -/

/-- A character that may stand in an address: no white space, none of the
characters a local part refuses. -/
def Plain (c : Char) : Prop :=
  isWhitespace c = false ∧ c ∉ ['<', '>', ',', ';', '"', '\\']

instance (c : Char) : Decidable (Plain c) := inferInstanceAs (Decidable (_ ∧ _))

theorem validLocal_iff {l : Str} :
    validLocal l = true ↔ l ≠ [] ∧ len l ≤ 64 ∧ ∀ c ∈ l, Plain c := by
  simp only [validLocal, Plain, Bool.and_eq_true, Bool.not_eq_true', List.isEmpty_eq_false_iff,
    decide_eq_true_eq, List.any_eq_false, and_assoc, forall_and, Bool.not_eq_true]

theorem mem_validDomain {d : Str} (h : validDomain d = true) {c : Char} (hc : c ∈ d) :
    c.isAlphanum = true ∨ c = '.' ∨ c = '-' := by
  simp only [validDomain, Bool.and_eq_true, List.all_eq_true, Bool.or_eq_true,
    decide_eq_true_eq] at h
  exact or_assoc.mp (h.2 c hc)

/-- The characters of a domain are below 128. -/
theorem ascii_of_mem_validDomain {d : Str} (h : validDomain d = true) {c : Char} (hc : c ∈ d) :
    c.toNat < 128 := by
  rcases mem_validDomain h hc with hc | rfl | rfl
  · simp only [Char.isAlphanum, Char.isAlpha, Char.isUpper, Char.isLower, Char.isDigit,
      Bool.or_eq_true, Bool.and_eq_true, decide_eq_true_eq, UInt32.le_iff_toNat_le,
      ge_iff_le] at hc
    have hv : c.val.toNat = c.toNat := rfl
    simp only [hv] at hc
    have h1 : 'Z'.val.toNat = 90 := rfl
    have h2 : 'z'.val.toNat = 122 := rfl
    have h3 : '9'.val.toNat = 57 := rfl
    omega
  · decide
  · decide

theorem plain_of_mem_validDomain {d : Str} (h : validDomain d = true) {c : Char} (hc : c ∈ d) :
    Plain c ∧ c ≠ '@' := by
  have hascii := ascii_of_mem_validDomain h hc
  have key := ascii_cases
    (P := fun c => c.isAlphanum = true ∨ c = '.' ∨ c = '-' → Plain c ∧ c ≠ '@')
    (by decide) c hascii
  exact key (mem_validDomain h hc)

/-- A domain has no `@`. -/
theorem at_not_mem_domain (a : EmailAddress) : '@' ∉ a.domain :=
  fun h => (plain_of_mem_validDomain a.valid.2 h).2 rfl

theorem plain_of_mem_localPart (a : EmailAddress) {c : Char} (h : c ∈ a.localPart) : Plain c :=
  (validLocal_iff.mp a.valid.1).2.2 c h

theorem plain_of_isLower {c : Char} (h : c.isLower = true) : Plain c := by
  have hascii : c.toNat < 128 := by
    simp only [Char.isLower, Bool.and_eq_true, decide_eq_true_eq, UInt32.le_iff_toNat_le] at h
    have h2 : 'z'.val.toNat = 122 := rfl
    have hv : c.val.toNat = c.toNat := rfl
    omega
  exact ascii_cases (P := fun c => c.isLower = true → Plain c) (by decide) c hascii h

theorem plain_of_large {c : Char} (h : 128 ≤ c.toNat) (hw : isWhitespace c = false) :
    Plain c := by
  refine ⟨hw, fun hc => ?_⟩
  simp only [List.mem_cons, List.not_mem_nil, or_false] at hc
  rcases hc with rfl | rfl | rfl | rfl | rfl | rfl <;> exact absurd h (by decide)

theorem plain_of_mem_toLowercase {l : Str} (hl : ∀ c ∈ l, Plain c) {c : Char}
    (h : c ∈ toLowercase l) : Plain c := by
  rcases mem_toLowercase h with h | h | ⟨h, hw⟩
  · exact hl c h
  · exact plain_of_isLower h
  · exact plain_of_large h hw

/-- Nothing in the normalised form is white space or
punctuation the parser refuses. -/
theorem mem_normalised (a : EmailAddress) {c : Char} (h : c ∈ a.normalised) : Plain c := by
  rcases List.mem_append.mp h with h | h
  · exact plain_of_mem_toLowercase (fun d hd => plain_of_mem_localPart a hd) h
  · rcases List.mem_cons.mp h with rfl | h
    · decide
    · exact (plain_of_mem_validDomain a.valid.2 h).1

theorem at_mem_normalised (a : EmailAddress) : '@' ∈ a.normalised :=
  List.mem_append_right _ List.mem_cons_self

/-! ## Parsing what was printed -/

theorem dropWhile_plain {p : Char → Bool} {s : Str} (hp : ∀ c, Plain c → p c = false)
    (hs : ∀ c ∈ s, Plain c) : s.dropWhile p = s := by
  cases s with
  | nil => rfl
  | cons c s => exact dropWhile_cons_eq_self (hp c (hs c List.mem_cons_self))

theorem rdropWhile_plain {p : Char → Bool} {s : Str} (hp : ∀ c, Plain c → p c = false)
    (hs : ∀ c ∈ s, Plain c) : s.rdropWhile p = s := by
  rw [List.rdropWhile_eq_self_iff]
  intro hne
  rw [hp _ (hs _ (List.getLast_mem hne))]
  exact Bool.false_ne_true

theorem not_bracket_of_plain {b : Char} (hb : b ∈ ['<', '>']) (c : Char) (hc : Plain c) :
    decide (c = b) = false := by
  rw [decide_eq_false_iff_not]
  rintro rfl
  simp only [List.mem_cons, List.not_mem_nil, or_false] at hb
  rcases hb with h | h <;> exact hc.2 (by simp [h])

/-- There are no brackets around plain characters. -/
theorem brackets_plain {s : Str} (hs : ∀ c ∈ s, Plain c) :
    trimEndMatches '>' (trimStartMatches '<' s) = s := by
  unfold trimStartMatches trimEndMatches
  rw [dropWhile_plain (not_bracket_of_plain (by simp)) hs,
    rdropWhile_plain (not_bracket_of_plain (by simp)) hs]

/-- Nothing is trimmed from plain characters. -/
theorem trims_plain {s : Str} (hs : ∀ c ∈ s, Plain c) :
    trimEndMatches '>' (trimStartMatches '<' (trim s)) = s := by
  unfold trim trimEnd trimStart
  rw [dropWhile_plain (fun c hc => hc.1) hs, rdropWhile_plain (fun c hc => hc.1) hs,
    brackets_plain hs]

/-- Plain characters are split at the last `@`. -/
theorem parse_plain {l d : Str} (hplain : ∀ c ∈ l ++ '@' :: d, Plain c) (hat : '@' ∉ d) :
    parse (l ++ '@' :: d) =
      if h : validLocal l = true ∧ validDomain (toLowercase (trimEndMatches '.' d)) = true then
        .ok ⟨l, toLowercase (trimEndMatches '.' d), h, settled_toLowercase d⟩
      else .error (invalid (l ++ '@' :: d)) := by
  unfold parse
  simp only [trims_plain hplain, rsplitOnce_append l hat]

/-- A local part of plain characters and a settled domain, joined by `@`, are what
the parser finds; only the length of the local part is left to check. -/
theorem parse_join {l d : Str} (hplain : ∀ c ∈ l, Plain c)
    (hd : validDomain d = true) (hs : Settled d) :
    parse (l ++ '@' :: d) =
      if h : validLocal l = true ∧ validDomain d = true then .ok ⟨l, d, h, hs⟩
      else .error (invalid (l ++ '@' :: d)) := by
  have hall : ∀ c ∈ l ++ '@' :: d, Plain c := by
    intro c hc
    rcases List.mem_append.mp hc with hc | hc
    · exact hplain c hc
    · rcases List.mem_cons.mp hc with rfl | hc
      · decide
      · exact (plain_of_mem_validDomain hd hc).1
  rw [parse_plain hall fun hm => (plain_of_mem_validDomain hd hm).2 rfl]
  simp only [hs.1, hs.2]

theorem parse_toString (a : EmailAddress) : parse a.toString = .ok a := by
  obtain ⟨-, -, hplain⟩ := validLocal_iff.mp a.valid.1
  rw [toString, parse_join hplain a.valid.2 a.settled, dif_pos a.valid]

/-- The normalised form parses iff lower-casing keeps the
local part within the limit. -/
theorem parse_normalised (a : EmailAddress) :
    parse a.normalised =
      if h : validLocal (toLowercase a.localPart) = true ∧ validDomain a.domain = true then
        .ok ⟨toLowercase a.localPart, a.domain, h, a.settled⟩
      else .error (invalid a.normalised) :=
  parse_join (fun _ hc => plain_of_mem_toLowercase (fun _ hd => plain_of_mem_localPart a hd)
    hc) a.valid.2 a.settled

/-- If the normalised form parses, it is its own normalised form. -/
theorem normalised_of_parse_normalised {a b : EmailAddress} (h : parse a.normalised = .ok b) :
    b.normalised = a.normalised := by
  rw [parse_normalised] at h
  split at h
  · cases h
    simp [normalised, toLowercase_idem]
  · exact absurd h (by simp)

/-- `me@personal.example`, to run the definitions on. -/
def me : EmailAddress :=
  ⟨"me", "personal.example", ⟨by decide, by decide⟩,
    by decide, by decide⟩

/-- `shop@example.com`, which is an alias in the runs. -/
def shop : EmailAddress :=
  ⟨"shop", "example.com", ⟨by decide, by decide⟩,
    by decide, by decide⟩

example : parse " <me@Personal.Example.>" = .ok me := by decide

end EmailAddress

end Weiterleitung
