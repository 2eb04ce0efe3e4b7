/-
# `Smtp.Argument` — which path arguments are read?

The argument of `MAIL` and `RCPT` is a keyword, a colon, a path in angle brackets or without
them, and parameters.  The parser takes the path for bracketed if there is a closing bracket
anywhere behind the colon, also in the parameters, and then wants the opening one first:

    in brackets       the address is read, whatever follows
    without           it is read exactly if no parameter has a closing bracket
                                                                (`pathArgument_iff`)

`AUTH=<>` is such a parameter.  White space around the keyword is left out of the comparison.
-/
import Mathlib
import Weiterleitung.Smtp.Session

namespace Weiterleitung

open Text Unicode

/-! ## Arguments -/

/-- How a client writes an address. -/
inductive PathForm where
  | bracketed
  | bare
  deriving DecidableEq

/-- The argument: the keyword as it is written, the address, the parameters. -/
def PathForm.argument (word a parameters : Str) : PathForm → Str
  | bracketed => word ++ ':' :: ('<' :: a ++ '>' :: parameters)
  | bare => word ++ ':' :: (a ++ parameters)

/-- An address without white space and angle brackets. -/
def isPath (a : Str) : Bool := a.all fun c => !isWhitespace c && c ≠ '<' && c ≠ '>'

/-- The keywords of `MAIL` and `RCPT`. -/
def keywords : List Str := ["FROM", "TO"]

section
variable {keyword word a p value : Str}

theorem of_mem_isPath (h : isPath a = true) {c : Char} (hc : c ∈ a) :
    isWhitespace c = false ∧ c ≠ '<' ∧ c ≠ '>' := by
  have h := List.all_eq_true.mp h c hc
  simp only [Bool.and_eq_true, Bool.not_eq_true', decide_eq_true_eq] at h
  exact ⟨h.1.1, h.1.2, h.2⟩

theorem toLower_of_whitespace {c : Char} (h : isWhitespace c = true) : c.toLower = c :=
  toLower_cases (P := fun c d => isWhitespace c = true → d = c) (by decide)
    (fun _ _ _ => rfl) c h

/-- A keyword, however it is written, has no white space and no colon. -/
theorem of_mem_keyword (hkeyword : keyword ∈ keywords)
    (hword : eqIgnoreAsciiCase word keyword = true) {c : Char}
    (hc : c ∈ word) : isWhitespace c = false ∧ c ≠ ':' := by
  have hsame : word.map Char.toLower = keyword.map Char.toLower := of_decide_eq_true hword
  have hmem : c.toLower ∈ keyword.map Char.toLower := hsame ▸ List.mem_map_of_mem hc
  have hletters : ∀ d ∈ keyword.map Char.toLower, isWhitespace d = false ∧ d ≠ ':' := by
    intro d hd
    have hall : (keywords.all fun k => (k.map Char.toLower).all fun d => !isWhitespace d &&
        d ≠ ':') = true := by decide
    have h := List.all_eq_true.mp (List.all_eq_true.mp hall keyword hkeyword) d hd
    simp only [Bool.and_eq_true, Bool.not_eq_true', decide_eq_true_eq] at h
    exact h
  obtain ⟨hspace, hcolon⟩ := hletters _ hmem
  constructor
  · by_contra h
    have hw : isWhitespace c = true := by simpa using h
    rw [toLower_of_whitespace hw, hw] at hspace
    cases hspace
  · rintro rfl
    exact hcolon rfl

theorem keyword_ne_nil (hkeyword : keyword ∈ keywords)
    (hword : eqIgnoreAsciiCase word keyword = true) : word ≠ [] := by
  rintro rfl
  have hsame : [] = keyword.map Char.toLower := of_decide_eq_true hword
  have hall : (keywords.all fun k => !k.isEmpty) = true := by decide
  have hne := List.all_eq_true.mp hall keyword hkeyword
  rw [List.map_eq_nil_iff.mp hsame.symm] at hne
  cases hne

/-! ## The value behind the keyword -/

/-- What the parser makes of the value. -/
def readPath (value : Str) : Option Str :=
  match find '>' value with
  | some stop =>
      match value with
      | '<' :: inner => getTo (stop - 1) inner
      | _ => none
  | none => some (firstWord value)

theorem trim_keyword (hkeyword : keyword ∈ keywords)
    (hword : eqIgnoreAsciiCase word keyword = true) (value : Str) :
    trim (word ++ ':' :: value) = word ++ ':' :: trimEnd value := by
  obtain ⟨c, rest, rfl⟩ := List.exists_cons_of_ne_nil (keyword_ne_nil hkeyword hword)
  have hc := (of_mem_keyword hkeyword hword List.mem_cons_self).1
  rw [trim, List.cons_append, trimStart_cons hc, ← List.cons_append,
    trimEnd_append_cons (by decide)]

theorem parseAddressArgument_keyword (hkeyword : keyword ∈ keywords)
    (hword : eqIgnoreAsciiCase word keyword = true)
    (hlen : len (word ++ ':' :: value) ≤ maxLineLength) :
    parseAddressArgument (word ++ ':' :: value) keyword
      = (readPath (trim (trimEnd value))).map trim := by
  have hcolon : ':' ∉ word := fun h => (of_mem_keyword hkeyword hword h).2 rfl
  have htrim : trim word = word := by
    refine trim_eq_self.mpr ⟨fun c hc => ?_, fun c hc => ?_⟩
    · exact (of_mem_keyword hkeyword hword (List.mem_of_mem_head? hc)).1
    · exact (of_mem_keyword hkeyword hword (List.mem_of_mem_getLast? hc)).1
  unfold parseAddressArgument
  rw [if_neg (Nat.not_lt.mpr hlen), trim_keyword hkeyword hword, splitOnce_append _ hcolon]
  dsimp only
  rw [htrim, if_pos hword]
  rfl

theorem trim_path (ha : isPath a = true) : trim a = a := by
  refine trim_eq_self.mpr ⟨fun c hc => ?_, fun c hc => ?_⟩
  · exact (of_mem_isPath ha (List.mem_of_mem_head? hc)).1
  · exact (of_mem_isPath ha (List.mem_of_mem_getLast? hc)).1

theorem trimEnd_path (ha : isPath a = true) (hne : a ≠ []) (p : Str) :
    trimEnd (a ++ p) = a ++ trimEnd p := by
  obtain ⟨front, c, rfl⟩ := (List.eq_nil_or_concat' a).resolve_left hne
  rw [List.append_assoc, List.singleton_append,
    trimEnd_append_cons (of_mem_isPath ha (by simp)).1,
    List.append_assoc, List.singleton_append]

/-- Between brackets the address is read, whatever follows them. -/
theorem readPath_bracketed (ha : isPath a = true) (p : Str) :
    readPath ('<' :: a ++ '>' :: p) = some a := by
  have hno : '>' ∉ '<' :: a := by
    rintro (_ | ⟨_, h⟩)
    exact (of_mem_isPath ha h).2.2 rfl
  have hsize : len ('<' :: a) - 1 = len a := by
    have hone : '<'.utf8Size = 1 := rfl
    rw [len_cons, hone]
    omega
  unfold readPath
  rw [find_append p hno]
  dsimp only [List.cons_append]
  rw [hsize]
  exact getTo_append a ('>' :: p)

theorem firstWord_append (ha : isPath a = true) (hne : a ≠ []) (hp : ∀ c, p.head? = some c →
      isWhitespace c = true) :
    firstWord (a ++ p) = a := by
  obtain ⟨c, rest, rfl⟩ := List.exists_cons_of_ne_nil hne
  have hall : ∀ d ∈ c :: rest, (!isWhitespace d) = true := by
    intro d hd
    rw [(of_mem_isPath ha hd).1]
    rfl
  unfold firstWord
  rw [List.cons_append, trimStart_cons (of_mem_isPath ha List.mem_cons_self).1,
    ← List.cons_append, List.takeWhile_append_of_pos hall]
  cases p with
  | nil => simp
  | cons d p =>
      rw [List.takeWhile_cons_of_neg (by simp [hp d rfl]), List.append_nil]

/-- Without brackets it is read exactly if there is no closing one in what follows. -/
theorem readPath_bare (ha : isPath a = true) (hne : a ≠ []) (hp : ∀ c, p.head? = some c →
      isWhitespace c = true) :
    readPath (a ++ p) = if '>' ∈ p then none else some a := by
  have hno : '>' ∉ a := fun h => (of_mem_isPath ha h).2.2 rfl
  split
  · next hclose =>
      have hmem : '>' ∈ a ++ p := List.mem_append_right a hclose
      obtain ⟨stop, hstop⟩ := Option.ne_none_iff_exists'.mp fun h => find_eq_none.mp h hmem
      obtain ⟨c, rest, rfl⟩ := List.exists_cons_of_ne_nil hne
      unfold readPath
      rw [hstop]
      dsimp only [List.cons_append]
      split
      · next heq =>
          cases heq
          exact absurd rfl (of_mem_isPath ha List.mem_cons_self).2.1
      · rfl
  · next hclose =>
      have hnone : find '>' (a ++ p) = none := find_eq_none.mpr fun h => by
        rcases List.mem_append.mp h with h | h
        · exact hno h
        · exact hclose h
      unfold readPath
      rw [hnone]
      dsimp only
      rw [firstWord_append ha hne hp]

end

/-! ## The whole argument -/

/-- Parameters: none, or a space and whatever follows. -/
def isParameters (p : Str) : Bool := p.head?.all (· = ' ')

theorem head_trimEnd {p : Str} (hp : isParameters p = true) :
    ∀ c, (trimEnd p).head? = some c → isWhitespace c = true := by
  intro c hc
  have hspace : c = ' ' := by
    obtain ⟨more, hmore⟩ := trimEnd_prefix p
    have hhead : p.head? = some c := by
      rw [← hmore, List.head?_append, hc]
      rfl
    unfold isParameters at hp
    rw [hhead] at hp
    exact of_decide_eq_true hp
  rw [hspace]
  decide

theorem parse_bracketed {keyword word a p : Str} (hkeyword : keyword ∈ keywords)
    (hword : eqIgnoreAsciiCase word keyword = true) (ha : isPath a = true)
    (hlen : len (PathForm.bracketed.argument word a p) ≤ maxLineLength) :
    parseAddressArgument (PathForm.bracketed.argument word a p) keyword = some a := by
  have hclose : isWhitespace '>' = false := by decide
  have hopen : isWhitespace '<' = false := by decide
  have hvalue : trim (trimEnd ('<' :: a ++ '>' :: p)) = '<' :: a ++ '>' :: trimEnd p := by
    rw [trimEnd_append_cons hclose, trim, List.cons_append, trimStart_cons hopen,
      ← List.cons_append, trimEnd_append_cons hclose, trimEnd_trimEnd]
  unfold PathForm.argument at hlen ⊢
  rw [parseAddressArgument_keyword hkeyword hword hlen, hvalue, readPath_bracketed ha,
    Option.map_some, trim_path ha]

theorem parse_bare {keyword word a p : Str} (hkeyword : keyword ∈ keywords)
    (hword : eqIgnoreAsciiCase word keyword = true) (ha : isPath a = true) (hne : a ≠ [])
    (hp : isParameters p = true)
    (hlen : len (PathForm.bare.argument word a p) ≤ maxLineLength) :
    parseAddressArgument (PathForm.bare.argument word a p) keyword = if '>' ∈ p
      then none else some a := by
  have hclose : isWhitespace '>' = false := by decide
  have hvalue : trim (trimEnd (a ++ p)) = a ++ trimEnd p := by
    obtain ⟨c, rest, rfl⟩ := List.exists_cons_of_ne_nil hne
    rw [trimEnd_path ha hne, trim, List.cons_append,
      trimStart_cons (of_mem_isPath ha List.mem_cons_self).1,
      ← List.cons_append, trimEnd_path ha hne, trimEnd_trimEnd]
  unfold PathForm.argument at hlen ⊢
  rw [parseAddressArgument_keyword hkeyword hword hlen, hvalue,
    readPath_bare ha hne (head_trimEnd hp)]
  simp only [mem_trimEnd_iff hclose]
  split
  · rfl
  · rw [Option.map_some, trim_path ha]

/-- Another keyword is refused, and an argument without a colon. -/
theorem parse_other {keyword rest : Str}
    (h : ∀ text value, rest = text ++ ':' :: value → ':' ∉ text →
    eqIgnoreAsciiCase (trim text) keyword = false) :
    parseAddressArgument rest keyword = none := by
  have hcolon : isWhitespace ':' = false := by decide
  unfold parseAddressArgument
  split
  · rfl
  · cases hsplit : splitOnce ':' rest with
    | none =>
        have hnone : splitOnce ':' (trim rest) = none :=
          splitOnce_eq_none.mpr fun hm => splitOnce_eq_none.mp hsplit (mem_trim hm)
        rw [hnone]
    | some parts =>
        obtain ⟨text, value⟩ := parts
        obtain ⟨rfl, htext⟩ := splitOnce_eq_some.mp hsplit
        have hstart : ':' ∉ trimStart text :=
          fun hm => htext ((List.dropWhile_suffix _).subset hm)
        have hword : trim (trimStart text) = trim text := by
          rw [trim, trim, trimStart_trimStart]
        rw [trim, trimStart_append_cons hcolon, trimEnd_append_cons hcolon,
          splitOnce_append _ hstart]
        dsimp only
        rw [hword, h text value rfl htext]
        rfl

/-- An address argument is read exactly if the address is in brackets or no parameter has a
closing one; and no argument is read for another keyword. -/
theorem pathArgument_iff {keyword : Str} (hkeyword : keyword ∈ keywords) :
    (∀ (form : PathForm) (word a p : Str), eqIgnoreAsciiCase word keyword = true →
      isPath a = true →
      isParameters p = true → (form = .bare → a ≠ []) →
      len (form.argument word a p) ≤ maxLineLength →
      (parseAddressArgument (form.argument word a p) keyword = some a ↔
        form = .bracketed ∨ '>' ∉ p)) ∧
    ∀ rest : Str, (∀ text value, rest = text ++ ':' :: value → ':' ∉ text →
      eqIgnoreAsciiCase (trim text) keyword = false) →
      parseAddressArgument rest keyword = none := by
  refine ⟨?_, fun rest h => parse_other h⟩
  intro form word a p hword ha hp hne hlen
  cases form with
  | bracketed => exact iff_of_true (parse_bracketed hkeyword hword ha hlen) (Or.inl rfl)
  | bare =>
      rw [parse_bare hkeyword hword ha (hne rfl) hp hlen, or_iff_right (by decide)]
      split
      · next hclose => exact iff_of_false (by simp) (not_not.mpr hclose)
      · next hclose => exact iff_of_true rfl hclose

theorem pathArgument_iff_auth :
    (parseAddressArgument (PathForm.bracketed.argument "From" "ü:x@b.com" " AUTH=<>") "FROM" =
      some "ü:x@b.com".toList ↔
      PathForm.bracketed = .bracketed ∨ '>' ∉ " AUTH=<>".toList) ∧
    parseAddressArgument "TO:<a@b.com>" "FROM" = none := by
  constructor
  · exact (pathArgument_iff List.mem_cons_self).1 .bracketed "From" "ü:x@b.com" " AUTH=<>"
      (by decide) (by decide) (by decide) (by decide) (by decide)
  · refine (pathArgument_iff List.mem_cons_self).2 "TO:<a@b.com>"
      fun text value hrest hcolon => ?_
    have hsplit : splitOnce ':' "TO:<a@b.com>".toList
        = some ("TO".toList, "<a@b.com>".toList) := by decide
    rw [splitOnce_eq_some.mpr ⟨hrest, hcolon⟩] at hsplit
    cases hsplit
    decide

/-- `MAIL FROM:a@b.com AUTH=<>` is a syntax error. -/
theorem bare_path_refused :
    ¬ ∀ keyword ∈ keywords, ∀ word a p : Str, eqIgnoreAsciiCase word keyword = true →
    isPath a = true →
      isParameters p = true → a ≠ [] → '\r' ∉ p → '\n' ∉ p →
      len (PathForm.bare.argument word a p) ≤ maxLineLength →
      parseAddressArgument (PathForm.bare.argument word a p) keyword = some a := by
  intro hall
  have hread := hall "FROM" List.mem_cons_self "FROM" "a@b.com" " AUTH=<>" (by decide)
    (by decide) (by decide) (by decide) (by decide) (by decide) (by decide)
  have hnone : parseAddressArgument (PathForm.bare.argument "FROM" "a@b.com" " AUTH=<>") "FROM"
      = none := by
    decide +kernel
  rw [hnone] at hread
  cases hread

end Weiterleitung
