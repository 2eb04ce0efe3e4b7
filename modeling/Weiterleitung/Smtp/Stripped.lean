/-
# `Smtp.Stripped` — stripping and reading see the same fields

`stripHeaders` goes over the lines with a flag, `headerValue` with a value and an early end;
one folds case by Unicode, the other by ASCII alone.  For an ASCII name
they agree on every block:

    a line that is read for a name has the lower case of it     (`headerName_of_lineValue`)
    a name that is stripped is not read any more, any other one
      is read as before                                         (`headerValue_stripHeaders`)
    stripping twice is stripping once, by both lists            (`stripHeaders_stripHeaders`)

The converse of the first does not hold: a Kelvin sign is stripped for a `k` and not read for
it.
-/
import Mathlib
import Weiterleitung.Smtp.Rewrite

namespace Weiterleitung

open Text Utf8 Lines Unicode

/-! ## Stripping twice -/

/-- What is left is read again as the lines that it was made of. -/
theorem lines_stripHeaders (headers : Bytes) (names : List Str) :
    splitInclusive '\n' (fromUtf8Lossy (stripHeaders headers names))
      = stripLines names false (splitInclusive '\n' (fromUtf8Lossy headers)) := by
  unfold stripHeaders
  rw [lossy_encode, stripLines_eq_strip]
  exact splitInclusive_sublist '\n' _ (strip_sublist _ false)

theorem stripHeaders_stripHeaders (headers : Bytes) (names names' : List Str) :
    stripHeaders (stripHeaders headers names) names' = stripHeaders headers
      (names ++ names') := by
  have hboth :
      (fun line => names.contains (headerName line) || names'.contains (headerName line))
      = fun line => (names ++ names').contains (headerName line) := by
    funext line
    rw [List.contains_append]
  rw [stripHeaders, lines_stripHeaders, stripLines_eq_strip, stripLines_eq_strip, strip_strip,
    hboth, ← stripLines_eq_strip]
  rfl

/-- Only which names are listed counts. -/
theorem stripHeaders_congr (headers : Bytes) {names names' : List Str}
    (h : ∀ name, name ∈ names ↔ name ∈ names') :
    stripHeaders headers names = stripHeaders headers names' := by
  have hsame : (fun line => names.contains (headerName line)) = fun line =>
    names'.contains (headerName line) := by
      funext line
      rw [Bool.eq_iff_iff, List.contains_iff_mem, List.contains_iff_mem]
      exact h (headerName line)
  unfold stripHeaders
  rw [stripLines_eq_strip, stripLines_eq_strip, hsame]

/-! ## Reading line by line -/

/-- The value that a line has for a name. -/
def lineValue (name line : Str) : Option Str :=
  match splitOnce ':' line with
  | some (candidate, rest) =>
      if eqIgnoreAsciiCase (trim candidate) name then some (trim rest) else none
  | none => none

section
variable {name line v : Str} {lines : List Str} {names : List Str}

theorem headerValueLines_folded (h : isContinuation line = true) :
    headerValueLines name none (line :: lines) = headerValueLines name none lines := by
  rw [headerValueLines, if_pos h]

theorem headerValueLines_unfolded (h : isContinuation line = true) :
    headerValueLines name (some v) (line :: lines) = headerValueLines name
      (some (v ++ ' ' :: trim line)) lines := by
  rw [headerValueLines, if_pos h]

theorem headerValueLines_next (h : isContinuation line = false) :
    headerValueLines name (some v) (line :: lines) = some v := by
  rw [headerValueLines, if_neg (by simp [h])]

theorem headerValueLines_first (h : isContinuation line = false) :
    headerValueLines name none (line :: lines) = headerValueLines name
      (lineValue name line) lines := by
  rw [headerValueLines, if_neg (by simp [h])]
  unfold lineValue
  cases splitOnce ':' line with
  | none => rfl
  | some parts =>
      dsimp only
      split <;> rfl

/-- A line that has a value for a name is stripped by the lower case of that name. -/
theorem headerName_of_lineValue (hname : ∀ c ∈ name, c.toNat < 128)
    (h : lineValue name line = some v) :
    headerName line = toLowercase name := by
  unfold lineValue at h
  unfold headerName
  cases hsplit : splitOnce ':' line with
  | none =>
      rw [hsplit] at h
      cases h
  | some parts =>
      rw [hsplit] at h
      dsimp only at h ⊢
      split at h
      · next heq => exact toLowercase_eq_of_ascii hname (of_decide_eq_true heq)
      · cases h

example : headerName "\u212A: 300".toList = toLowercase ['k'] ∧
    lineValue ['k'] "\u212A: 300".toList = none := by
  decide

/-! ## Reading what is left -/

/-- While a field is dropped, nothing goes on with a value that was read before it. -/
theorem headerValueLines_dropping (lines : List Str) :
    headerValueLines name (some v) (stripLines names true lines) = some v := by
  induction lines with
  | nil => rfl
  | cons line lines ih =>
      cases hc : isContinuation line with
      | true =>
          simp only [stripLines, hc, if_true]
          exact ih
      | false =>
          cases hhit : names.contains (headerName line) with
          | true =>
              simp only [stripLines, hc, hhit, Bool.false_eq_true, if_false, if_true]
              exact ih
          | false =>
              simp only [stripLines, hc, hhit, Bool.false_eq_true, if_false]
              exact headerValueLines_next hc

/-- A name that is not stripped is read as before. -/
theorem headerValueLines_kept (hname : ∀ c ∈ name, c.toNat < 128)
    (hkept : toLowercase name ∉ names) (lines : List Str) :
    headerValueLines name none (stripLines names true lines) =
      headerValueLines name none lines ∧
      ∀ value, headerValueLines name value (stripLines names false lines)
        = headerValueLines name value lines := by
  induction lines with
  | nil => exact ⟨rfl, fun _ => rfl⟩
  | cons line lines ih =>
      obtain ⟨ihdropping, ihkeeping⟩ := ih
      cases hc : isContinuation line with
      | true =>
          simp only [stripLines, hc, if_true, Bool.false_eq_true, if_false]
          refine ⟨by rw [ihdropping, headerValueLines_folded hc], fun value => ?_⟩
          cases value with
          | none => rw [headerValueLines_folded hc, headerValueLines_folded hc, ihkeeping]
          | some v =>
              rw [headerValueLines_unfolded hc, headerValueLines_unfolded hc, ihkeeping]
      | false =>
          cases hhit : names.contains (headerName line) with
          | true =>
              -- what is dropped has another name, so it is not what is read
              have hother : lineValue name line = none := by
                cases hv : lineValue name line with
                | none => rfl
                | some v =>
                    rw [headerName_of_lineValue hname hv] at hhit
                    exact absurd (List.contains_iff_mem.mp hhit) hkept
              simp only [stripLines, hc, hhit, Bool.false_eq_true, if_false, if_true]
              have hnone : headerValueLines name none (stripLines names true lines)
                  = headerValueLines name none (line :: lines) := by
                rw [headerValueLines_first hc, hother, ihdropping]
              refine ⟨hnone, fun value => ?_⟩
              cases value with
              | none => exact hnone
              | some v => rw [headerValueLines_dropping, headerValueLines_next hc]
          | false =>
              simp only [stripLines, hc, hhit, Bool.false_eq_true, if_false]
              have hnone : headerValueLines name none (line :: stripLines names false lines)
                  = headerValueLines name none (line :: lines) := by
                rw [headerValueLines_first hc, headerValueLines_first hc, ihkeeping]
              refine ⟨hnone, fun value => ?_⟩
              cases value with
              | none => exact hnone
              | some v => rw [headerValueLines_next hc, headerValueLines_next hc]

/-- A name that is stripped is not read any more. -/
theorem headerValueLines_stripped (hname : ∀ c ∈ name, c.toNat < 128)
    (hhit : toLowercase name ∈ names)
    (lines : List Str) :
    ∀ dropping, headerValueLines name none (stripLines names dropping lines) = none := by
  induction lines with
  | nil => exact fun _ => rfl
  | cons line lines ih =>
      intro dropping
      cases hc : isContinuation line with
      | true =>
          simp only [stripLines, hc, if_true]
          cases dropping with
          | true => exact ih true
          | false =>
              simp only [Bool.false_eq_true, if_false]
              rw [headerValueLines_folded hc]
              exact ih false
      | false =>
          cases hline : names.contains (headerName line) with
          | true =>
              simp only [stripLines, hc, hline, Bool.false_eq_true, if_false, if_true]
              exact ih true
          | false =>
              have hother : lineValue name line = none := by
                cases hv : lineValue name line with
                | none => rfl
                | some v =>
                    rw [headerName_of_lineValue hname hv,
                      List.contains_iff_mem.mpr hhit] at hline
                    cases hline
              simp only [stripLines, hc, hline, Bool.false_eq_true, if_false]
              rw [headerValueLines_first hc, hother]
              exact ih false

end

theorem headerValue_stripHeaders (headers : Bytes) (names : List Str) {name : Str}
    (hname : ∀ c ∈ name, c.toNat < 128) :
    headerValue (stripHeaders headers names) name
      = if toLowercase name ∈ names then none else headerValue headers name := by
  unfold headerValue
  rw [lines_stripHeaders]
  split
  · next hhit => exact headerValueLines_stripped hname hhit _ false
  · next hkept => exact (headerValueLines_kept hname hkept _).2 none

/-- Stripping takes from a reader what is named and nothing else; what is stripped counts, not
how often or in which order. -/
theorem stripHeaders_reads (headers : Bytes) (names names' : List Str) (name : Str)
    (hname : ∀ c ∈ name, c.toNat < 128) :
    headerValue (stripHeaders headers names) name
        = (if toLowercase name ∈ names then none else headerValue headers name) ∧
      stripHeaders (stripHeaders headers names) names' = stripHeaders headers
        (names ++ names') ∧
      stripHeaders (stripHeaders headers names) names = stripHeaders headers names ∧
      stripHeaders (stripHeaders headers names) names'
        = stripHeaders (stripHeaders headers names') names := by
  refine ⟨headerValue_stripHeaders headers names hname,
    stripHeaders_stripHeaders headers names names', ?_, ?_⟩
  · rw [stripHeaders_stripHeaders]
    exact stripHeaders_congr headers fun n => by rw [List.mem_append, or_self]
  · rw [stripHeaders_stripHeaders, stripHeaders_stripHeaders]
    exact stripHeaders_congr headers fun n => by rw [List.mem_append, List.mem_append, or_comm]

/-- A block with a folded line at its top, a folded field, and a line without a colon. -/
def foldedBlock : Bytes := encode " top\r\nTo: a\r\n b\r\nno colon\r\n c\r\nSubject: s\r\n t"

theorem stripHeaders_reads_folded :
    headerValue (stripHeaders foldedBlock ["to".toList]) "Subject"
        = (if toLowercase "Subject" ∈ ["to".toList] then none
          else headerValue foldedBlock "Subject") ∧
      stripHeaders (stripHeaders foldedBlock ["to".toList]) [[]] = stripHeaders foldedBlock
        (["to".toList] ++ [[]]) ∧
      stripHeaders (stripHeaders foldedBlock ["to".toList]) ["to".toList] =
        stripHeaders foldedBlock ["to".toList] ∧
      stripHeaders (stripHeaders foldedBlock ["to".toList]) [[]]
        = stripHeaders (stripHeaders foldedBlock [[]]) ["to".toList] :=
  stripHeaders_reads foldedBlock ["to".toList] [[]] "Subject" fun c hc =>
    of_decide_eq_true
      (List.all_eq_true.mp (by decide : "Subject".toList.all (·.toNat < 128) = true) c hc)

end Weiterleitung
