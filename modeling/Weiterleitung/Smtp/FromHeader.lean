/-
# `Smtp.FromHeader` — is a `From` header read as it is written?

The rewriter writes a display name that needs it as a quoted string: quotes around it, a
backslash before every quote and backslash.  `displayName` and `envelopeSender` look for
the first angle brackets wherever they stand and know no escapes:

    a bracket in the name ends the name, or hides the address
    an escaped character keeps its backslash, and a quote at an end is lost

So what is read is what was written exactly if the name has none of the four characters
(`fromHeader_read_iff`).
-/
import Mathlib
import Weiterleitung.Smtp.Router

namespace Weiterleitung

open Text Unicode

/-! ## The header as it is written -/

/-- The characters of a quoted string. -/
def escaped (display : Str) : Str := replace '"' "\\\"" (replace '\\' "\\\\" display)

/-- `display` as a quoted string, and the address in angle brackets. -/
def quotedFrom (display address : Str) :
    Str := '"' :: escaped display ++ "\" <" ++ address ++ ">"

/-- It is what the rewriter writes of a name that needs quoting. -/
theorem quotedAddress_eq {display : Str} (address : Str)
    (h : display.any (fun c => c ∈ ['<', '>', '(', ')', ',', ':', ';', '@', '"', '.'])
      = true) :
    quotedAddress display address = quotedFrom display address := by
  unfold quotedAddress
  exact if_pos h

/-- The characters that the readers of the header give another meaning. -/
def special : Str := ['<', '>', '"', '\\']

section
variable {d : Str}

theorem mem_escaped {c : Char} (hc : c ≠ '"' ∧ c ≠ '\\') : c ∈ escaped d ↔ c ∈ d := by
  unfold escaped replace
  constructor
  · intro h
    obtain ⟨x, hx, hcx⟩ := List.mem_flatMap.mp h
    obtain ⟨y, hy, hxy⟩ := List.mem_flatMap.mp hx
    have hcx' : c = x := by
      split at hcx
      · simp [hc.1, hc.2] at hcx
      · exact List.mem_singleton.mp hcx
    subst hcx'
    split at hxy
    · simp [hc.2] at hxy
    · rw [List.mem_singleton.mp hxy]
      exact hy
  · intro h
    refine List.mem_flatMap.mpr ⟨c, List.mem_flatMap.mpr ⟨c, h, ?_⟩, ?_⟩
    · rw [if_neg hc.2]
      exact List.mem_singleton_self c
    · rw [if_neg hc.1]
      exact List.mem_singleton_self c

/-- A name without quotes and backslashes is its own quoted form. -/
theorem escaped_eq_self (hquote : '"' ∉ d) (hback : '\\' ∉ d) : escaped d = d := by
  have hsame : ∀ (c : Char) (new s : Str), c ∉ s → replace c new s = s := by
    intro c new s
    induction s with
    | nil => exact fun _ => rfl
    | cons x s ih =>
        intro h
        have hx : x ≠ c := fun e => h (e ▸ List.mem_cons_self)
        have hs := ih fun hc => h (List.mem_cons_of_mem x hc)
        unfold replace at hs ⊢
        rw [List.flatMap_cons, if_neg hx, hs]
        rfl
  unfold escaped
  rw [hsame _ _ d hback, hsame _ _ d hquote]

theorem escaped_cons (c : Char) (d : Str) : escaped (c :: d) = escaped [c] ++ escaped d := by
  unfold escaped replace
  rw [List.flatMap_cons, List.flatMap_append]
  simp

/-- Every quote and every backslash brings one backslash more. -/
theorem count_escaped : ∀ d : Str,
    (escaped d).count '\\' = d.count '\\' + d.count '\\' + d.count '"'
  | [] => rfl
  | c :: d => by
      have ih := count_escaped d
      rw [escaped_cons, List.count_append, ih, List.count_cons, List.count_cons]
      by_cases hback : c = '\\'
      · subst hback
        have h1 : (escaped ['\\']).count '\\' = 2 := by decide
        rw [h1]
        simp only [beq_self_eq_true, if_true, beq_iff_eq, Char.reduceEq, if_false]
        omega
      · by_cases hquote : c = '"'
        · subst hquote
          have h1 : (escaped ['"']).count '\\' = 1 := by decide
          rw [h1]
          simp only [beq_self_eq_true, if_true, beq_iff_eq, Char.reduceEq, if_false]
          omega
        · have h1 : escaped [c] = [c] :=
            escaped_eq_self (by simpa using Ne.symm hquote) (by simpa using Ne.symm hback)
          rw [h1, List.count_singleton]
          simp only [beq_iff_eq, hback, hquote, if_false]
          omega

end

/-! ## The display name -/

section
variable {d : Str} {a : EmailAddress}

theorem quotedFrom_eq (d : Str) (a : EmailAddress) :
    quotedFrom d a.toString = ('"' :: escaped d ++ ['"', ' ']) ++ '<' ::
      (a.toString ++ ['>']) := by
  unfold quotedFrom
  simp

theorem not_mem_toString (a : EmailAddress) {c : Char} (hc : ¬ EmailAddress.Plain c) :
    c ∉ a.toString := by
  intro h
  rcases List.mem_append.mp h with h | h
  · exact hc (a.plain_of_mem_localPart h)
  · rcases List.mem_cons.mp h with rfl | h
    · exact hc (by decide)
    · exact hc (EmailAddress.plain_of_mem_validDomain a.valid.2 h).1

/-- The name that `displayName` finds before a bracket. -/
def unquoted (name : Str) : Str := trim (trimEndMatches '"' (trimStartMatches '"' (trim name)))

theorem displayName_append {name : Str} (rest : Str) (h : '<' ∉ name) :
    displayName (name ++ '<' :: rest) = if (unquoted name).isEmpty then none
      else some (unquoted name) := by
  unfold displayName
  rw [splitOnce_append rest h]
  rfl

theorem mem_of_mem_unquoted {c : Char} {name : Str} (h : c ∈ unquoted name) : c ∈ name := by
  have h1 := mem_trim h
  have h2 := (List.rdropWhile_prefix _ (l := trimStartMatches '"' (trim name))).subset h1
  have h3 := (List.dropWhile_suffix _ (l := trim name)).subset h2
  exact mem_trim h3

/-- Unquoting takes no backslash away. -/
theorem count_unquoted (name : Str) : (unquoted name).count '\\' = name.count '\\' := by
  have hspace : isWhitespace '\\' = false := by decide
  have hquote : decide ('\\' = '"') = false := by decide
  unfold unquoted trim trimEnd trimStart trimEndMatches trimStartMatches
  rw [count_rdropWhile hspace, count_dropWhile hspace, count_rdropWhile hquote,
    count_dropWhile hquote, count_rdropWhile hspace, count_dropWhile hspace]

/-- A name without special characters loses its quotes and nothing else. -/
theorem unquoted_plain (hne : d ≠ []) (htrim : trim d = d) (hquote : '"' ∉ d) :
    unquoted ('"' :: d ++ ['"', ' ']) = d := by
  have htrim1 : trim ('"' :: d ++ ['"', ' ']) = '"' :: d ++ ['"'] := by
    have hback : trimEnd ('"' :: d ++ ['"', ' ']) = '"' :: d ++ ['"'] := by
      rw [show '"' :: d ++ ['"', ' '] = ('"' :: d ++ ['"']) ++ [' '] by simp]
      unfold trimEnd
      rw [List.rdropWhile_concat_pos _ _ _ (by decide)]
      exact rdropWhile_concat_eq_self (by decide)
    have hfront : trimStart ('"' :: d ++ ['"', ' ']) = '"' :: d ++ ['"', ' '] :=
      dropWhile_cons_eq_self (by decide)
    rw [trim, hfront, hback]
  have hstart : trimStartMatches '"' ('"' :: d ++ ['"']) = d ++ ['"'] := by
    unfold trimStartMatches
    rw [List.cons_append, List.dropWhile_cons_of_pos (by decide)]
    cases d with
    | nil => exact absurd rfl hne
    | cons c d =>
        exact dropWhile_cons_eq_self (decide_eq_false fun e => hquote (e ▸ List.mem_cons_self))
  have hend : trimEndMatches '"' (d ++ ['"']) = d := by
    unfold trimEndMatches
    rw [List.rdropWhile_concat_pos _ _ _ (by decide), List.rdropWhile_eq_self_iff]
    intro hd hlast
    exact hquote (of_decide_eq_true hlast ▸ List.getLast_mem hd)
  unfold unquoted
  rw [htrim1, hstart, hend, htrim]

/-- The name is read back exactly if it has no opening bracket and no escaped character. -/
theorem displayName_iff (hne : d ≠ []) (htrim : trim d = d) :
    displayName (quotedFrom d a.toString) = some d ↔ '<' ∉ d ∧ '"' ∉ d ∧ '\\' ∉ d := by
  have hmark : '<' ∉ d → '<' ∉ '"' :: escaped d ++ ['"', ' '] := by
    intro h
    have h' : '<' ∉ escaped d := fun h0 => h ((mem_escaped (by decide)).mp h0)
    simp [h']
  constructor
  · intro h
    have hopen : '<' ∉ d := by
      intro hmem
      -- what is read comes from before the first bracket
      obtain ⟨⟨name, rest⟩, hsplit⟩ : ∃ parts, splitOnce '<' (quotedFrom d a.toString)
          = some parts := by
        cases hs : splitOnce '<' (quotedFrom d a.toString) with
        | some parts => exact ⟨parts, rfl⟩
        | none =>
            rw [quotedFrom_eq] at hs
            exact absurd (List.mem_append_right _ List.mem_cons_self) (splitOnce_eq_none.mp hs)
      obtain ⟨hv, hname⟩ := splitOnce_eq_some.mp hsplit
      rw [hv, displayName_append rest hname] at h
      split at h
      · cases h
      · rw [← Option.some.inj h] at hmem
        exact hname (mem_of_mem_unquoted hmem)
    rw [quotedFrom_eq, displayName_append _ (hmark hopen)] at h
    have hread : unquoted ('"' :: escaped d ++ ['"', ' ']) = d := by
      split at h
      · cases h
      · exact Option.some.inj h
    have hcount := count_unquoted ('"' :: escaped d ++ ['"', ' '])
    have hends : ('"' :: escaped d ++ ['"', ' ']).count '\\' = (escaped d).count '\\' := by
      have htail : (['"', ' '] : Str).count '\\' = 0 := by decide
      rw [List.count_append, List.count_cons_of_ne (by decide), htail, Nat.add_zero]
    rw [hread, hends, count_escaped] at hcount
    refine ⟨hopen, ?_, ?_⟩
    · rw [← List.count_eq_zero]
      omega
    · rw [← List.count_eq_zero]
      omega
  · rintro ⟨hopen, hquote, hback⟩
    rw [quotedFrom_eq, displayName_append _ (hmark hopen), escaped_eq_self hquote hback,
      unquoted_plain hne htrim hquote]
    exact if_neg (by simpa using hne)

/-! ## The address -/

/-- The whole value is no address: what stands before its last `@` begins with a quote. -/
theorem parse_quotedFrom (d : Str) (a : EmailAddress) :
    EmailAddress.parse (quotedFrom d a.toString) ≠ .ok a := by
  have hfirst : quotedFrom d a.toString = '"' ::
      (escaped d ++ "\" <".toList ++ a.toString ++ ">".toList) := rfl
  have hlast : quotedFrom d a.toString = ('"' :: escaped d ++ "\" <".toList ++ a.toString) ++
      ['>'] := rfl
  have htrim : trim (quotedFrom d a.toString) = quotedFrom d a.toString := by
    have hfront : trimStart (quotedFrom d a.toString) = quotedFrom d a.toString := by
      rw [hfirst]
      exact dropWhile_cons_eq_self (by decide)
    rw [trim, hfront, hlast]
    exact rdropWhile_concat_eq_self (by decide)
  have hopen : trimStartMatches '<' (quotedFrom d a.toString) = quotedFrom d a.toString := by
    rw [hfirst]
    exact dropWhile_cons_eq_self (by decide)
  have hclose : trimEndMatches '>' (quotedFrom d a.toString)
      = ('"' :: escaped d ++ "\" <".toList ++ a.localPart) ++ '@' :: a.domain := by
    rw [hlast]
    unfold trimEndMatches
    rw [List.rdropWhile_concat_pos _ _ _ (by decide)]
    have hplain : EmailAddress.Plain
        ((a.toString).getLast (by simp [EmailAddress.toString])) := by
      by_contra h0
      exact not_mem_toString a h0 (List.getLast_mem _)
    rw [List.rdropWhile_eq_self_iff.mpr]
    · rw [EmailAddress.toString]
      simp
    · intro hne h0
      rw [List.getLast_append_of_ne_nil _ (by simp [EmailAddress.toString])] at h0
      rw [of_decide_eq_true h0] at hplain
      exact absurd hplain (by decide)
  intro h
  unfold EmailAddress.parse at h
  dsimp only at h
  rw [htrim, hopen, hclose, rsplitOnce_append _ a.at_not_mem_domain] at h
  dsimp only at h
  split at h
  · next hvalid =>
      have hquote := (EmailAddress.validLocal_iff.mp hvalid.1).2.2 '"' List.mem_cons_self
      exact absurd hquote (by decide)
  · cases h

/-- Behind a name without an opening bracket, the address is found exactly if the name has
no closing bracket either. -/
theorem envelopeSender_iff (hopen : '<' ∉ d) :
    envelopeSender [] (some (quotedFrom d a.toString)) = .ok a ↔ '>' ∉ d := by
  have hnull : ∃ e, EmailAddress.parse [] = .error e := ⟨_, rfl⟩
  obtain ⟨e, hnull⟩ := hnull
  have hstart : find '<' (quotedFrom d a.toString)
      = some (len ('"' :: escaped d ++ ['"', ' '])) := by
    have hno : '<' ∉ escaped d := fun h0 => hopen ((mem_escaped (by decide)).mp h0)
    rw [quotedFrom_eq]
    exact find_append _ (by simp [hno])
  unfold envelopeSender
  rw [hnull]
  dsimp only
  rw [Option.getD_some, hstart]
  constructor
  · intro h hclose
    -- the first closing bracket is in the name, before the opening one
    obtain ⟨l, r, hl, hsplit⟩ : ∃ l r, '>' ∉ l ∧ escaped d = l ++ '>' :: r := by
      cases hs : splitOnce '>' (escaped d) with
      | none => exact absurd ((mem_escaped (by decide)).mpr hclose) (splitOnce_eq_none.mp hs)
      | some parts =>
          obtain ⟨heq, hno⟩ := splitOnce_eq_some.mp hs
          exact ⟨parts.1, parts.2, hno, heq⟩
    have hstop : find '>' (quotedFrom d a.toString) = some (len ('"' :: l)) := by
      rw [quotedFrom_eq, hsplit, show ('"' :: (l ++ '>' :: r) ++ ['"', ' ']) ++ '<' ::
        (a.toString ++ ['>']) = ('"' :: l) ++ '>' ::
        (r ++ ['"', ' '] ++ '<' :: (a.toString ++ ['>'])) by simp]
      exact find_append _ (by simp [hl])
    have hbefore : ¬ len ('"' :: l) > len ('"' :: escaped d ++ ['"', ' ']) := by
      rw [hsplit]
      simp only [len_cons, len_append, List.cons_append]
      omega
    rw [hstop] at h
    dsimp only at h
    rw [if_neg hbefore] at h
    exact parse_quotedFrom d a h
  · intro hclose
    have hno : '>' ∉ escaped d := fun h0 => hclose ((mem_escaped (by decide)).mp h0)
    have haddress : '>' ∉ a.toString := not_mem_toString a (by decide)
    have hparts : quotedFrom d a.toString
        = ('"' :: escaped d ++ ['"', ' ', '<']) ++ a.toString ++ ['>'] := by
      rw [quotedFrom_eq]
      simp
    have hstop : find '>' (quotedFrom d a.toString)
        = some (len (('"' :: escaped d ++ ['"', ' ', '<']) ++ a.toString)) := by
      rw [hparts]
      exact find_append [] (by simp [hno, haddress])
    have hmark : len ('"' :: escaped d ++ ['"', ' ']) + 1
        = len ('"' :: escaped d ++ ['"', ' ', '<']) := by
      simp only [len_append, len_cons, len_nil]
      have h1 : '<'.utf8Size = 1 := rfl
      omega
    rw [hstop]
    dsimp only
    rw [if_pos (by rw [len_append, ← hmark]; omega), hmark, hparts, slice_append,
      Option.getD_some, EmailAddress.parse_toString]

/-- The header is read as it is written exactly if the name has no bracket, no
quote and no backslash. -/
theorem fromHeader_read_iff (d : Str) (a : EmailAddress) (hne : d ≠ []) (htrim : trim d = d) :
    (displayName (quotedFrom d a.toString) = some d ∧
        envelopeSender [] (some (quotedFrom d a.toString)) = .ok a) ↔
      ∀ c ∈ special, c ∉ d := by
  have hspecial : (∀ c ∈ special, c ∉ d) ↔ ('<' ∉ d ∧ '"' ∉ d ∧ '\\' ∉ d) ∧ '>' ∉ d := by
    unfold special
    simp only [List.forall_mem_cons, List.not_mem_nil, false_implies, implies_true, and_true]
    tauto
  rw [hspecial, displayName_iff hne htrim]
  constructor
  · rintro ⟨hname, hsender⟩
    exact ⟨hname, (envelopeSender_iff hname.1).mp hsender⟩
  · rintro ⟨hname, hclose⟩
    exact ⟨hname, (envelopeSender_iff hname.1).mpr hclose⟩

theorem fromHeader_read_iff_shop :
    (displayName (quotedFrom "Shop, Inc." EmailAddress.shop.toString) =
      some "Shop, Inc.".toList ∧
        envelopeSender [] (some (quotedFrom "Shop, Inc." EmailAddress.shop.toString)) =
          .ok EmailAddress.shop) ↔
      ∀ c ∈ special, c ∉ "Shop, Inc.".toList :=
  fromHeader_read_iff "Shop, Inc." EmailAddress.shop (by decide) (by decide)

/-- A name in angle brackets is taken for the address. -/
theorem fromHeader_bracket_misread :
    ¬ ∀ (d : Str) (a : EmailAddress), d ≠ [] → trim d = d → '\r' ∉ d → '\n' ∉ d →
      displayName (quotedFrom d a.toString) = some d ∧
        envelopeSender [] (some (quotedFrom d a.toString)) = .ok a := by
  intro hall
  obtain ⟨hname, -⟩ := hall "Shop <Support>" EmailAddress.shop (by decide) (by decide)
    (by decide) (by decide)
  have hread : displayName (quotedFrom "Shop <Support>" EmailAddress.shop.toString)
      = some "Shop".toList := by
    decide +kernel
  rw [hread] at hname
  exact absurd hname (by decide)

end

end Weiterleitung
