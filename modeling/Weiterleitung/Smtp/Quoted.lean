/-
# `Smtp.Quoted` — can a display name leave its quotes?

What a forward shows as its sender has an `@`, so it is always written as a quoted string.  A
reader that knows escapes (`takeQuoted`) goes over it to the first quote without a backslash of
its own.  Quotes and backslashes are escaped one after the other:

    backslashes first   a backslash brings one more
    then quotes         a quote brings one backslash, which nothing escapes again

so the reader finds every character of the name again, and the first quote that is not escaped
is the one that closes it (`takeQuoted_escaped`).  Whatever the sender calls itself, the
address it has in `From` is the reverse alias (`from_quoted`).
-/
import Mathlib
import Weiterleitung.Smtp.Unforged

namespace Weiterleitung

open Text Utf8

/-! ## Reading a quoted string -/

/-- From behind the opening quote: the text, in which a backslash takes the next character as
it is, and what follows the closing quote. -/
def takeQuoted : Str → Option (Str × Str)
  | [] => none
  | '"' :: rest => some ([], rest)
  | '\\' :: c :: rest => (takeQuoted rest).map fun read => (c :: read.1, read.2)
  | c :: rest => (takeQuoted rest).map fun read => (c :: read.1, read.2)

section
variable {c : Char} {rest text after : Str}

theorem takeQuoted_escape (h : takeQuoted rest = some (text, after)) :
    takeQuoted ('\\' :: c :: rest) = some (c :: text, after) := by
  rw [takeQuoted, h]
  rfl

theorem takeQuoted_plain (hquote : c ≠ '"') (hback : c ≠ '\\')
    (h : takeQuoted rest = some (text, after)) :
    takeQuoted (c :: rest) = some (c :: text, after) := by
  rw [takeQuoted.eq_4 c rest hquote fun _ _ hc _ => hback hc, h]
  rfl

/-- One character as it is written: itself, or a backslash and itself. -/
theorem escaped_singleton (c : Char) :
    escaped [c] = if c = '"' ∨ c = '\\' then ['\\', c] else [c] := by
  by_cases hquote : c = '"'
  · subst hquote
    rfl
  · by_cases hback : c = '\\'
    · subst hback
      rfl
    · rw [if_neg (not_or.mpr ⟨hquote, hback⟩)]
      exact escaped_eq_self (by simpa using Ne.symm hquote) (by simpa using Ne.symm hback)

/-- The text is read as it was, up to the quote that closes it. -/
theorem takeQuoted_escaped (d after : Str) :
    takeQuoted (escaped d ++ '"' :: after) = some (d, after) := by
  induction d with
  | nil => rfl
  | cons c d ih =>
      rw [escaped_cons, escaped_singleton, List.append_assoc]
      split
      · exact takeQuoted_escape ih
      · next hplain =>
          obtain ⟨hquote, hback⟩ := not_or.mp hplain
          exact takeQuoted_plain hquote hback ih

end

/-! ## The header of a forward -/

/-- `From` is the first line of a forward. -/
theorem rewriteForForward_from (raw : Bytes) (params : ForwardRewrite) : ∃ rest,
    rewriteForForward raw params
      = encode (headerLine "From" (quotedAddress params.display params.reverseAlias)) ++
        rest := by
  rw [rewriteForForward_eq, relay, params.injected_text]
  unfold ForwardRewrite.fields Fields.text
  rw [List.map_cons, List.flatten_cons, encode_append]
  exact ⟨_, by simp only [List.append_assoc]; rfl⟩

/-- The name and the address, or the address alone. -/
theorem ForwardRewrite.display_cases (params : ForwardRewrite) :
    (∀ name, params.senderName = some name → trim name ≠ [] →
      params.display = trim name ++ " - ".toList ++ params.senderEmail) ∧
    ((∀ name, params.senderName = some name → trim name = []) →
      params.display = params.senderEmail) := by
  unfold ForwardRewrite.display
  cases params.senderName with
  | none =>
      constructor
      · rintro _ ⟨⟩
      · intro _
        rfl
  | some name =>
      constructor
      · rintro _ ⟨⟩ hne
        exact if_neg fun h => hne (List.isEmpty_iff.mp h)
      · intro hblank
        exact if_pos (List.isEmpty_iff.mpr (hblank name rfl))

/-- `From` is one quoted string, which shows the sender, and the reverse alias. -/
theorem from_quoted (raw : Bytes) (params : ForwardRewrite) (hat : '@' ∈ params.senderEmail)
    (hname : ∀ name, params.senderName = some name → '\r' ∉ name ∧ '\n' ∉ name) :
    ∃ shown text rest,
      rewriteForForward raw params = encode (headerLine "From" ('"' :: text)) ++ rest ∧
      takeQuoted text = some (shown, " <".toList ++ params.reverseAlias ++ ">".toList) ∧
      (∀ name, params.senderName = some name → trim name ≠ [] →
        shown = trim name ++ " - ".toList ++ params.senderEmail) ∧
      ((∀ name, params.senderName = some name → trim name = []) → shown = params.senderEmail) ∧
      ∀ c ∈ ['\r', '\n'], c ∈ text → c ∈ params.senderEmail ∨ c ∈ params.reverseAlias := by
  have hshown := ForwardRewrite.at_mem_display hat
  have hquoted : quotedAddress params.display params.reverseAlias = quotedFrom params.display
      params.reverseAlias :=
    quotedAddress_eq _ (List.any_eq_true.mpr ⟨'@', hshown, by decide⟩)
  obtain ⟨rest, hrest⟩ := rewriteForForward_from raw params
  have htext : quotedFrom params.display params.reverseAlias
      = '"' ::
        (escaped params.display ++ '"' ::
          (" <".toList ++ params.reverseAlias ++ ">".toList)) := by
    unfold quotedFrom
    simp
  obtain ⟨hnamed, hblank⟩ := params.display_cases
  refine ⟨params.display, _, rest, by rw [hrest, hquoted, htext], takeQuoted_escaped _ _,
    hnamed, hblank, ?_⟩
  intro c hc hmem
  have hvalue : c ∈ quotedAddress params.display params.reverseAlias := by
    rw [hquoted, htext]
    exact List.mem_cons_of_mem _ hmem
  rcases (mem_quotedAddress_iff hshown hc).mp hvalue with hdisplay | haddress
  · -- a line end in what is shown does not come from the name
    have hend : c = '\r' ∨ c = '\n' := by simpa using hc
    have hdash : c ∉ " - ".toList := by
      rcases hend with rfl | rfl <;> decide
    by_contra hnot
    obtain ⟨hemail, -⟩ := not_or.mp hnot
    obtain ⟨name, hsome, hin⟩ := (ForwardRewrite.mem_display_iff hdash hemail).mp hdisplay
    obtain ⟨hcr, hlf⟩ := hname name hsome
    rcases hend with rfl | rfl
    · exact hcr (mem_trim hin)
    · exact hlf (mem_trim hin)
  · exact Or.inr haddress

/-- A name that closes the quotes itself, and names an address. -/
def hostileName : Str := "\" <boss@bank.example>, \\\""

theorem from_quoted_hostile :
    ∃ shown text rest,
      rewriteForForward [] (shopForward (some hostileName)) =
        encode (headerLine "From" ('"' :: text)) ++ rest ∧
      takeQuoted text = some (shown, " <".toList ++
        (shopForward (some hostileName)).reverseAlias ++ ">".toList) ∧
      (∀ name, (shopForward (some hostileName)).senderName = some name → trim name ≠ [] →
        shown = trim name ++ " - ".toList ++ (shopForward (some hostileName)).senderEmail) ∧
      ((∀ name, (shopForward (some hostileName)).senderName = some name → trim name = []) →
        shown = (shopForward (some hostileName)).senderEmail) ∧
      ∀ c ∈ ['\r', '\n'], c ∈ text → c ∈ (shopForward (some hostileName)).senderEmail ∨
        c ∈ (shopForward (some hostileName)).reverseAlias :=
  from_quoted [] (shopForward (some hostileName)) (by decide) (by
    rintro _ ⟨⟩
    exact ⟨by decide, by decide⟩)

end Weiterleitung
