/-
# `Smtp.ReadData` — the DATA phase: where it ends and what it delivers

`read_data` reads a line at a time, so the stream is the list of its lines
(`splitInclusive`), and what it leaves is the list of the lines after the one it
stopped at.  A line stops it if `.` is left of it once the line end is stripped.
Where the stream fails within a line, `read_until` fails, and the bytes that came
of that line are lost: no line of a failing stream counts that has no LF.

    the loop reads the stream line by line   (`readDataLoop_reads`)
    stops after the first dot line           (`readDataLoop_stops`)
    or where the stream ends or fails        (`readDataLoop_ends`)
    every line of a conforming client comes back     (`verdict_sentLines`)
    what is accepted is within the limit, and made of lines that end in CR LF
                                             (`accepted_takeLines`)
-/
import Mathlib
import Weiterleitung.Lib.Lines
import Weiterleitung.Smtp.Rewrite

namespace Weiterleitung

open Text Lines

/-! ## The source -/

/-- Failures of the stream itself, and of reading a command line as text. -/
inductive IoError where
  | broken
  | invalidUtf8
  deriving DecidableEq

/-- `line.strip_suffix(b)`, or the line. -/
def dropSuffix (b : UInt8) (line : Bytes) : Bytes :=
  if line.getLast? = some b then line.dropLast else line

def stripEol (line : Bytes) : Bytes := dropSuffix 13 (dropSuffix 10 line)

/-- A line of a single dot, without its line end. -/
def dot : Bytes := [46]

/-- A leading dot is stuffed by the client. -/
def unstuff : Bytes → Bytes
  | 46 :: content => content
  | content => content

def tooLargeReply : Str := "552 5.3.4 Message too large"

def closedReply : Str := "421 4.4.2 Connection closed during DATA"

/-- One more line of content: `data` and `too_large` after it. -/
def takeLine (maxMessageSize : Nat) : Bytes × Bool → Bytes → Bytes × Bool
  | (data, tooLarge), line =>
      if tooLarge then (data, true)
      else
        let content := unstuff (stripEol line)
        if data.length + content.length + 2 > maxMessageSize then (data, true)
        else (data ++ content ++ crlf, false)

/-- The reply or the payload at the terminator. -/
def verdict : Bytes × Bool → Except Str Bytes
  | (data, tooLarge) => if tooLarge then .error tooLargeReply else .ok data

/-- The loop of `read_data` over the lines still to come; what is left of them comes back
with the result.  `broken`: the stream fails where its bytes end, in the middle
of a line or after one. -/
def readDataLoop (broken : Bool) (maxMessageSize : Nat) :
    Bytes × Bool → List Bytes → Except IoError (Except Str Bytes × List Bytes)
  | _, [] => if broken then .error .broken else .ok (.error closedReply, [])
  | state, line :: lines =>
      if torn 10 broken line then .error .broken
      else if stripEol line = dot then .ok (verdict state, lines)
      else readDataLoop broken maxMessageSize (takeLine maxMessageSize state line) lines

/-- Reads the DATA payload, undoing dot stuffing.  The outer error is I/O; the inner one
carries the SMTP reply to send back. -/
def readData (broken : Bool) (maxMessageSize : Nat) (lines : List Bytes) :
    Except IoError (Except Str Bytes × List Bytes) :=
  readDataLoop broken maxMessageSize ([], false) lines

/-! ## Where the loop stops -/

section
variable (broken : Bool) (maxMessageSize : Nat)

/-- The loop over the lines of a stream is that of the source: read up to the next LF, give
up if the read fails or finds nothing, and look at the line. -/
theorem readDataLoop_reads (state : Bytes × Bool) (s : Bytes) :
    readDataLoop broken maxMessageSize state (splitInclusive 10 s) =
      match tryRead 10 broken s with
      | none => .error .broken
      | some ([], _) => .ok (.error closedReply, [])
      | some (line, rest) =>
          if stripEol line = dot then .ok (verdict state, splitInclusive 10 rest)
          else readDataLoop broken maxMessageSize (takeLine maxMessageSize state line)
            (splitInclusive 10 rest) := by
  rcases tryRead_cases 10 broken s with ⟨hsplit, hread⟩ | ⟨line, rest, hne, hsplit, hread⟩
  · rw [hsplit, hread, readDataLoop]
    cases broken <;> rfl
  · rw [hsplit, hread, readDataLoop]
    cases torn 10 broken line with
    | true => rfl
    | false =>
        obtain ⟨b, line, rfl⟩ := List.exists_cons_of_ne_nil hne
        rfl

/-- The payload is `before`, and `last` ends it: lines that were read in full, of
which `last` alone is a dot. -/
def EndsPayload (before : List Bytes) (last : Bytes) : Prop :=
  (∀ line ∈ before, torn 10 broken line = false ∧ stripEol line ≠ dot) ∧
    torn 10 broken last = false ∧ stripEol last = dot

/-- No line ends the payload. -/
def Unended (lines : List Bytes) : Prop :=
  ∀ before last after, lines = before ++ last :: after → ¬ EndsPayload broken before last

theorem readDataLoop_stops {before after : List Bytes} {last : Bytes}
    (h : EndsPayload broken before last) :
    ∀ state, readDataLoop broken maxMessageSize state (before ++ last :: after)
      = .ok (verdict (before.foldl (takeLine maxMessageSize) state), after) := by
  obtain ⟨hbefore, hwhole, hlast⟩ := h
  induction before with
  | nil =>
      intro state
      show readDataLoop _ _ state (last :: after) = _
      rw [readDataLoop, hwhole, if_pos hlast]
      rfl
  | cons line before ih =>
      intro state
      obtain ⟨⟨hread, hdot⟩, hbefore⟩ := List.forall_mem_cons.mp hbefore
      show readDataLoop _ _ state (line :: (before ++ last :: after)) = _
      rw [readDataLoop, hread, if_neg hdot, ih hbefore]
      rfl

theorem readDataLoop_ends : ∀ {lines : List Bytes} (_ : Unended broken lines)
    (state : Bytes × Bool), readDataLoop broken maxMessageSize state lines =
      if broken then .error .broken else .ok (.error closedReply, [])
  | [], _, _ => rfl
  | line :: lines, h, state => by
      rw [readDataLoop]
      cases htorn : torn 10 broken line with
      | true =>
          -- only a stream that fails tears a line
          cases broken with
          | true => rfl
          | false => cases htorn
      | false =>
          have hdot : stripEol line ≠ dot := fun hdot =>
            h [] line lines rfl ⟨List.forall_mem_nil _, htorn, hdot⟩
          rw [if_neg hdot]
          refine readDataLoop_ends (fun before last after hlines hends => ?_) _
          refine h (line :: before) last after (by rw [hlines]; rfl) ⟨?_, hends.2⟩
          exact List.forall_mem_cons.mpr ⟨⟨htorn, hdot⟩, hends.1⟩

theorem readDataLoop_suffix {payload : Except Str Bytes} {rest : List Bytes} :
    ∀ {lines : List Bytes} {state : Bytes × Bool},
      readDataLoop broken maxMessageSize state lines = .ok (payload, rest) → rest <:+ lines
  | [], state, h => by
      cases broken with
      | true => cases h
      | false =>
          cases h
          exact List.suffix_rfl
  | line :: lines, state, h => by
      rw [readDataLoop] at h
      split at h
      · cases h
      · split at h
        · cases h
          exact List.suffix_cons line rest
        · exact (readDataLoop_suffix h).trans (List.suffix_cons line lines)

end

theorem readData_suffix {broken : Bool} {maxMessageSize : Nat} {lines rest : List Bytes}
    {payload : Except Str Bytes}
    (h : readData broken maxMessageSize lines = .ok (payload, rest)) :
    rest <:+ lines :=
  readDataLoop_suffix broken maxMessageSize h

/-- A payload is ended by one of its lines and read up to it, or it is not ended, and reading
it stops with the stream. -/
theorem readData_cases (broken : Bool) (maxMessageSize : Nat) (lines : List Bytes) :
    (∃ before last after, lines = before ++ last :: after ∧ EndsPayload broken before last ∧
      ∀ tail, readData broken maxMessageSize (before ++ last :: tail) =
        .ok (verdict (before.foldl (takeLine maxMessageSize) ([], false)), tail)) ∨
    Unended broken lines ∧ readData broken maxMessageSize lines =
      if broken then .error .broken else .ok (.error closedReply, []) := by
  by_cases h : Unended broken lines
  · exact Or.inr ⟨h, readDataLoop_ends broken maxMessageSize h _⟩
  · unfold Unended at h
    push Not at h
    obtain ⟨before, last, after, hlines, hends⟩ := h
    exact Or.inl ⟨before, last, after, hlines, hends,
      fun _ => readDataLoop_stops broken maxMessageSize hends _⟩

/-- A line with another one after it was read in full. -/
theorem not_torn_of_before {input line : Bytes} {before after : List Bytes} (broken : Bool)
    (h : splitInclusive 10 input = before ++ line :: after) :
    ∀ other ∈ before, torn 10 broken other = false := by
  intro other hother
  obtain ⟨l, -, rfl⟩ := closed_of_before 10 h other hother
  exact torn_closed 10 broken l

/-- Either no line is a dot, or there is a first one that is. -/
theorem exists_first_dot : ∀ lines : List Bytes,
    (∀ line ∈ lines, stripEol line ≠ dot) ∨
      ∃ before last after, lines = before ++ last :: after ∧
        (∀ line ∈ before, stripEol line ≠ dot) ∧ stripEol last = dot
  | [] => Or.inl (List.forall_mem_nil _)
  | line :: lines => by
      by_cases hline : stripEol line = dot
      · exact Or.inr ⟨[], line, lines, rfl, List.forall_mem_nil _, hline⟩
      · rcases exists_first_dot lines with h | ⟨before, last, after, rfl, hbefore, hlast⟩
        · exact Or.inl (List.forall_mem_cons.mpr ⟨hline, h⟩)
        · exact Or.inr ⟨line :: before, last, after, rfl,
            List.forall_mem_cons.mpr ⟨hline, hbefore⟩, hlast⟩

/-! ## The terminator -/

/-- A stretch of the stream that ends with the line `.` CR LF, which stands at its start or
right after a CR LF. -/
def EndsData (s : Bytes) : Prop :=
  ∃ payload, s = payload ++ [46, 13, 10] ∧ (payload = [] ∨ crlf <:+ payload)

/-- The DATA phase over `input` ends right after the first terminator, or finds none. -/
def EndsAtTerminator (input : Bytes) :
    Except IoError (Except Str Bytes × List Bytes) → Prop
  | .ok (reply, rest) =>
      if reply = .error closedReply then ∀ p, p <+: input → ¬ EndsData p
      else ∃ consumed, input = consumed ++ rest.flatten ∧ EndsData consumed ∧
        ∀ p, p <+: input → EndsData p → consumed <+: p
  | .error _ => ∀ p, p <+: input → ¬ EndsData p

/-- The first line that is a dot, if there is one and it was read in full, is `.` CR LF and
stands at the start or after a CR LF. -/
def DotLineHonest (broken : Bool) (lines : List Bytes) : Prop :=
  ∀ before last after, lines = before ++ last :: after →
    (∀ line ∈ before, stripEol line ≠ dot) → stripEol last = dot →
    torn 10 broken last = false →
      last = [46, 13, 10] ∧ (before = [] ∨ crlf <:+ before.flatten)

/-- A terminator in the stream is a line of it. -/
theorem splitInclusive_of_endsData {p input : Bytes} (hp : p <+: input) (h : EndsData p) :
    ∃ before after, splitInclusive 10 input = before ++ [46, 13, 10] :: after ∧
      before.flatten ++ [46, 13, 10] = p := by
  obtain ⟨rest, rfl⟩ := hp
  obtain ⟨payload, rfl, hpayload⟩ := h
  have hline : splitInclusive 10 ([46, 13, 10] ++ rest) = [46, 13, 10] ::
      splitInclusive 10 rest :=
    splitInclusive_line 10 [46, 13] rest (by decide)
  rcases hpayload with rfl | ⟨front, rfl⟩
  · exact ⟨[], _, hline, rfl⟩
  · refine ⟨splitInclusive 10 (front ++ [13] ++ [10]), splitInclusive 10 rest, ?_, ?_⟩
    · rw [← hline, ← splitInclusive_append_closed]
      simp [crlf]
    · rw [flatten_splitInclusive]
      simp [crlf]

/-- Of two decompositions, one at the first line that stops the loop and one at some such
line, the first is the shorter. -/
theorem first_dot_prefix {before before' after after' : List Bytes} {last last' : Bytes}
    (h : before ++ last :: after = before' ++ last' :: after')
    (hbefore : ∀ line ∈ before, stripEol line ≠ dot) (hlast' : stripEol last' = dot) :
    before ++ [last] <+: before' ++ [last'] := by
  rcases List.append_eq_append_iff.mp h with ⟨mid, rfl, hmid⟩ | ⟨mid, rfl, hmid⟩
  · cases mid with
    | nil =>
        cases hmid
        simp
    | cons line mid =>
        cases hmid
        exact ⟨mid ++ [last'], by simp⟩
  · cases mid with
    | nil =>
        cases hmid
        simp
    | cons line mid =>
        cases hmid
        exact absurd hlast' (hbefore last' (by simp))

/-- The first line that stops the loop is the only first one. -/
theorem first_dot_unique {before before' after after' : List Bytes} {last last' : Bytes}
    (h : before ++ last :: after = before' ++ last' :: after')
    (hbefore : ∀ line ∈ before, stripEol line ≠ dot) (hlast : stripEol last = dot)
    (hbefore' : ∀ line ∈ before', stripEol line ≠ dot) (hlast' : stripEol last' = dot) :
    before = before' ∧ last = last' := by
  have h1 := first_dot_prefix h hbefore hlast'
  have h2 := first_dot_prefix h.symm hbefore' hlast
  have heq := h1.eq_of_length (Nat.le_antisymm h1.length_le h2.length_le)
  exact List.append_inj' heq rfl |>.imp id fun h => (List.cons.inj h).1

theorem verdict_ne_closed (state : Bytes × Bool) : verdict state ≠ .error closedReply := by
  obtain ⟨data, tooLarge⟩ := state
  cases tooLarge with
  | false => exact fun h => nomatch h
  | true =>
      intro h
      exact absurd (Except.error.inj h) (by decide)

/-- The lines up to a first dot line make a stretch that ends the data iff the dot line is
`.` CR LF and stands at the start or after a CR LF. -/
theorem endsData_first_dot {input : Bytes} {before after : List Bytes} {last : Bytes}
    (hlines : splitInclusive 10 input = before ++ last :: after)
    (hbefore : ∀ line ∈ before, stripEol line ≠ dot) :
    EndsData (before.flatten ++ last) ↔
      last = [46, 13, 10] ∧ (before = [] ∨ crlf <:+ before.flatten) := by
  have hflat : before.flatten ++ last ++ after.flatten = input := by
    rw [← flatten_splitInclusive 10 input, hlines]
    simp
  have hne : ∀ {line : Bytes}, line ∈ splitInclusive 10 input → line ≠ [] :=
    ne_nil_of_mem_splitInclusive 10 input
  rw [hlines] at hne
  constructor
  · intro h
    obtain ⟨front, rest, hsplit, hfront⟩ := splitInclusive_of_endsData ⟨after.flatten, hflat⟩ h
    -- both end at the same byte, and no line is empty
    have hprefix : before ++ [last] <+: front ++ [[46, 13, 10]] :=
      first_dot_prefix (hlines.symm.trans hsplit) hbefore (by decide)
    obtain ⟨t, ht⟩ := hprefix
    have hempty : t.flatten = [] := by
      have hlen := congrArg List.flatten ht
      simp only [List.flatten_append, List.flatten_singleton, hfront] at hlen
      simpa using hlen
    have hmem : ∀ line ∈ t, line ≠ [] := by
      intro line hline
      have hin : line ∈ front ++ [[46, 13, 10]] := ht ▸ List.mem_append_right _ hline
      have hall : line ∈ splitInclusive 10 input := by
        rw [hsplit]
        rcases List.mem_append.mp hin with h1 | h1
        · exact List.mem_append_left _ h1
        · exact List.mem_append_right _ (List.mem_singleton.mp h1 ▸ List.mem_cons_self)
      exact ne_nil_of_mem_splitInclusive 10 input hall
    have ht0 : t = [] := by
      cases t with
      | nil => rfl
      | cons line t =>
          exact absurd (List.flatten_eq_nil_iff.mp hempty line List.mem_cons_self)
            (hmem line List.mem_cons_self)
    rw [ht0, List.append_nil] at ht
    obtain ⟨rfl, hlast⟩ := List.append_inj' ht rfl
    cases hlast
    obtain ⟨payload, hpayload, hcase⟩ := h
    have hp : before.flatten = payload := List.append_cancel_right hpayload
    refine ⟨rfl, hcase.imp (fun h0 => ?_) (fun h0 => hp ▸ h0)⟩
    rw [h0] at hp
    cases before with
    | nil => rfl
    | cons line before =>
        exact absurd (List.flatten_eq_nil_iff.mp hp line List.mem_cons_self) (hne (by simp))
  · rintro ⟨rfl, hcase⟩
    exact ⟨before.flatten, rfl, hcase.imp (fun h0 => by rw [h0]; rfl) id⟩

/-- Where the first dot line is torn there is no terminator. -/
theorem not_endsData_of_torn {broken : Bool} {input : Bytes} {before after : List Bytes}
    {last : Bytes} (hlines : splitInclusive 10 input = before ++ last :: after)
    (hbefore : ∀ line ∈ before, stripEol line ≠ dot) (htorn : torn 10 broken last = true) :
    ∀ p, p <+: input → ¬ EndsData p := by
  intro p hp h
  obtain ⟨front, rest, hsplit, -⟩ := splitInclusive_of_endsData hp h
  have hprefix : before ++ [last] <+: front ++ [[46, 13, 10]] :=
    first_dot_prefix (hlines.symm.trans hsplit) hbefore (by decide)
  have hmem : last ∈ front ++ [[46, 13, 10]] := hprefix.subset (by simp)
  have hwhole : torn 10 broken last = false := by
    rcases List.mem_append.mp hmem with hmem | hmem
    · exact not_torn_of_before broken hsplit last hmem
    · exact List.mem_singleton.mp hmem ▸ torn_closed 10 broken [46, 13]
  rw [hwhole] at htorn
  cases htorn

/-- The DATA phase ends at the real terminator exactly if the first line that is a dot once
its end is stripped is one, or is not read because the stream fails within it. -/
theorem readData_endsAtTerminator_iff (broken : Bool) (maxMessageSize : Nat) (input : Bytes) :
    EndsAtTerminator input (readData broken maxMessageSize (splitInclusive 10 input)) ↔
      DotLineHonest broken (splitInclusive 10 input) := by
  have ended : Unended broken (splitInclusive 10 input) → (∀ p, p <+: input → ¬ EndsData p) →
      EndsAtTerminator input (readData broken maxMessageSize (splitInclusive 10 input)) := by
    intro hnone hno
    rw [readData, readDataLoop_ends broken maxMessageSize hnone]
    cases broken with
    | true => exact hno
    | false =>
        simp only [EndsAtTerminator, Bool.false_eq_true, if_false, if_true]
        exact hno
  rcases exists_first_dot (splitInclusive 10 input) with
    hnone | ⟨before, last, after, hlines, hbefore, hlast⟩
  · -- no line is a dot, so there is no terminator either
    refine iff_of_true (ended ?_ ?_) ?_
    · intro before last after hlines hends
      exact hnone last (by simp [hlines]) hends.2.2
    · intro p hp h
      obtain ⟨front, rest, hsplit, -⟩ := splitInclusive_of_endsData hp h
      exact hnone [46, 13, 10] (by simp [hsplit]) (by decide)
    · intro before last after hlines _ hlast
      exact absurd hlast (hnone last (by simp [hlines]))
  · cases htorn : torn 10 broken last with
    | true =>
        -- the stream fails within the first line that would be a dot
        refine iff_of_true (ended ?_ (not_endsData_of_torn hlines hbefore htorn)) ?_
        · intro before' last' after' hlines' hends
          obtain ⟨-, rfl⟩ := first_dot_unique (hlines.symm.trans hlines') hbefore hlast
            (fun line hline => (hends.1 line hline).2) hends.2.2
          exact absurd (htorn.symm.trans hends.2.1) (by decide)
        · intro before' last' after' hlines' hbefore' hlast' hread
          obtain ⟨-, rfl⟩ :=
            first_dot_unique (hlines.symm.trans hlines') hbefore hlast hbefore' hlast'
          exact absurd (htorn.symm.trans hread) (by decide)
    | false =>
        have hflat : before.flatten ++ last ++ after.flatten = input := by
          rw [← flatten_splitInclusive 10 input, hlines]
          simp
        have hhonest : DotLineHonest broken (splitInclusive 10 input) ↔
            EndsData (before.flatten ++ last) := by
          rw [endsData_first_dot hlines hbefore]
          constructor
          · intro h
            exact h before last after hlines hbefore hlast htorn
          · rintro h before' last' after' hlines' hbefore' hlast' -
            obtain ⟨rfl, rfl⟩ :=
              first_dot_unique (hlines.symm.trans hlines') hbefore hlast hbefore' hlast'
            exact h
        have hwhole := not_torn_of_before broken hlines
        have hread : readData broken maxMessageSize (splitInclusive 10 input)
            = .ok (verdict (before.foldl (takeLine maxMessageSize) ([], false)), after) := by
          rw [hlines]
          refine readDataLoop_stops broken maxMessageSize ⟨?_, htorn, hlast⟩ _
          exact fun line hline => ⟨hwhole line hline, hbefore line hline⟩
        rw [hread, hhonest]
        simp only [EndsAtTerminator, if_neg (verdict_ne_closed _)]
        constructor
        · rintro ⟨consumed, hconsumed, hends, -⟩
          have heq := List.append_cancel_right (hflat.trans hconsumed)
          exact heq ▸ hends
        · intro hends
          refine ⟨_, hflat.symm, hends, fun p hp h => ?_⟩
          obtain ⟨front, rest, hsplit, rfl⟩ := splitInclusive_of_endsData hp h
          have hprefix := first_dot_prefix (hlines.symm.trans hsplit) hbefore (by decide)
          have := hprefix.flatten
          simpa using this

/-- A stream that fails within the dot line delivers nothing. -/
example : readData true 1000 (splitInclusive 10 (Utf8.encode "Hi\r\n.".toList))
    = .error .broken := by decide +kernel

/-- A dot line that ends in a bare LF ends the message. -/
theorem readData_stops_at_bare_lf :
    ¬ ∀ (broken : Bool) (maxMessageSize : Nat) (input : Bytes),
      EndsAtTerminator input (readData broken maxMessageSize (splitInclusive 10 input)) := by
  intro h
  have hrun := h false 1000 (Utf8.encode "Hi\r\n.\nQUIT\r\n.\r\n".toList)
  have hread : readData false 1000
      (splitInclusive 10 (Utf8.encode "Hi\r\n.\nQUIT\r\n.\r\n".toList))
      = .ok (.ok (Utf8.encode "Hi\r\n".toList),
          [Utf8.encode "QUIT\r\n".toList, Utf8.encode ".\r\n".toList]) := by decide +kernel
  rw [hread] at hrun
  obtain ⟨consumed, hconsumed, ⟨payload, hends, -⟩, -⟩ := hrun
  have heq : consumed = Utf8.encode "Hi\r\n.\n".toList := by
    refine List.append_cancel_right (hconsumed.symm.trans ?_)
    decide +kernel
  have hsuffix : [46, 13, 10] <:+ Utf8.encode "Hi\r\n.\n".toList :=
    ⟨payload, by rw [← heq, hends]⟩
  exact absurd hsuffix (by decide +kernel)

/-! ## What a conforming client sends -/

/-- The client doubles a leading dot. -/
def stuff : Bytes → Bytes
  | 46 :: line => 46 :: 46 :: line
  | line => line

/-- The lines of a message as a client sends them: stuffed, each ended by CR LF. -/
def sentLine (line : Bytes) : Bytes := stuff line ++ crlf

/-- The whole DATA phase of a conforming client. -/
def sent (lines : List Bytes) : Bytes := (lines.map sentLine).flatten ++ [46, 13, 10]

/-- Lines, each ended by CR LF. -/
def unlines (lines : List Bytes) : Bytes := lines.flatMap (· ++ crlf)

theorem stripEol_append_crlf (content : Bytes) : stripEol (content ++ crlf) = content := by
  have h1 : dropSuffix 10 (content ++ crlf) = content ++ [13] := by
    rw [dropSuffix, show content ++ crlf = (content ++ [13]) ++ [10] by simp [crlf],
      List.getLast?_concat, if_pos rfl, List.dropLast_concat]
  rw [stripEol, h1, dropSuffix, List.getLast?_concat, if_pos rfl, List.dropLast_concat]

theorem unstuff_stuff (line : Bytes) : unstuff (stuff line) = line := by
  unfold stuff
  split
  · rfl
  · next h =>
      unfold unstuff
      split
      · next content => exact absurd rfl (h content)
      · rfl

theorem stuff_ne_dot (line : Bytes) : stuff line ≠ dot := by
  unfold stuff
  split
  · exact fun h => nomatch h
  · next h => exact fun hdot => h [] hdot

theorem not_mem_stuff {line : Bytes} (h : 10 ∉ line) : 10 ∉ stuff line := by
  unfold stuff
  split
  · exact fun hm => h ((List.mem_cons.mp hm).resolve_left (by decide))
  · exact h

/-- What a conforming client sends is ended by its terminator. -/
theorem endsPayload_sentLines (broken : Bool) (lines : List Bytes) :
    EndsPayload broken (lines.map sentLine) [46, 13, 10] := by
  refine ⟨fun line h => ?_, torn_closed 10 broken [46, 13], by decide⟩
  obtain ⟨content, -, rfl⟩ := List.mem_map.mp h
  have hclosed : sentLine content = (stuff content ++ [13]) ++ [10] := by simp [sentLine, crlf]
  constructor
  · rw [hclosed]
    exact torn_closed 10 broken _
  · rw [sentLine, stripEol_append_crlf]
    exact stuff_ne_dot content

/-- The bytes of the lines with their line ends. -/
def payloadLength (lines : List Bytes) : Nat := (lines.map fun line => line.length + 2).sum

/-- Every line comes back as long as all of them fit; after one that does not, none does. -/
theorem verdict_sentLines (maxMessageSize : Nat) : ∀ (lines : List Bytes) (data : Bytes),
    data.length ≤ maxMessageSize →
      verdict ((lines.map sentLine).foldl (takeLine maxMessageSize) (data, false)) =
        if data.length + payloadLength lines ≤ maxMessageSize then .ok (data ++ unlines lines)
        else .error tooLargeReply
  | [], data, hdata => by
      simp [verdict, payloadLength, unlines, hdata]
  | line :: lines, data, hdata => by
      have hstep : takeLine maxMessageSize (data, false) (sentLine line) =
          if data.length + line.length + 2 > maxMessageSize then (data, true)
          else (data ++ line ++ crlf, false) := by
        simp [takeLine, sentLine, stripEol_append_crlf, unstuff_stuff]
      have hlen : payloadLength (line :: lines) = line.length + 2 + payloadLength lines := by
        simp [payloadLength]
      rw [List.map_cons, List.foldl_cons, hstep, hlen]
      by_cases hfit : data.length + line.length + 2 > maxMessageSize
      · rw [if_pos hfit, if_neg (by omega)]
        exact verdict_tooLarge maxMessageSize (lines.map sentLine) data
      · have hlen' : (data ++ line ++ crlf).length = data.length + line.length + 2 := by
          simp [crlf, Nat.add_assoc]
        rw [if_neg hfit, verdict_sentLines maxMessageSize lines (data ++ line ++ crlf)
          (by omega), hlen', show data.length + line.length + 2 + payloadLength lines
            = data.length + (line.length + 2 + payloadLength lines) by omega]
        simp only [unlines, List.flatMap_cons, List.append_assoc]
where
  verdict_tooLarge (maxMessageSize : Nat) : ∀ (lines : List Bytes) (data : Bytes),
      verdict (lines.foldl (takeLine maxMessageSize) (data, true)) = .error tooLargeReply
    | [], _ => rfl
    | _ :: lines, data => verdict_tooLarge maxMessageSize lines data

/-- An accepted payload is within the limit and made of lines that end in CR LF. -/
def Accepted (maxMessageSize : Nat) (data : Bytes) : Prop :=
  data.length ≤ maxMessageSize ∧ ∃ lines, (∀ line ∈ lines, 10 ∉ line) ∧ data = unlines lines

theorem not_mem_dropSuffix {b c : UInt8} {line : Bytes} (h : b ∉ line) :
    b ∉ dropSuffix c line := by
  unfold dropSuffix
  split
  · exact fun hm => h (List.dropLast_subset line hm)
  · exact h

theorem not_mem_stripEol {input line : Bytes} (h : line ∈ splitInclusive 10 input) :
    10 ∉ stripEol line := by
  obtain ⟨l, hl, rfl | rfl⟩ := mem_splitInclusive 10 input h
  · refine not_mem_dropSuffix ?_
    rw [dropSuffix, List.getLast?_concat, if_pos rfl, List.dropLast_concat]
    exact hl
  · exact not_mem_dropSuffix (not_mem_dropSuffix hl)

theorem not_mem_unstuff {line : Bytes} (h : 10 ∉ line) : 10 ∉ unstuff line := by
  unfold unstuff
  split
  · exact fun hm => h (List.mem_cons_of_mem _ hm)
  · exact h

/-- One more line keeps the payload acceptable. -/
theorem accepted_takeLine {maxMessageSize : Nat} {state : Bytes × Bool} {line : Bytes}
    (hline : 10 ∉ stripEol line) (h : Accepted maxMessageSize state.1) :
    Accepted maxMessageSize (takeLine maxMessageSize state line).1 := by
  obtain ⟨data, tooLarge⟩ := state
  obtain ⟨hlen, lines, hlines, rfl⟩ := h
  show Accepted maxMessageSize (if _ then _ else if _ then _ else _ : Bytes × Bool).1
  split
  · exact ⟨hlen, lines, hlines, rfl⟩
  · split
    · exact ⟨hlen, lines, hlines, rfl⟩
    · next hfit =>
        refine ⟨?_, lines ++ [unstuff (stripEol line)], ?_, ?_⟩
        · simp only [List.length_append, crlf, List.length_cons, List.length_nil]
          omega
        · intro l hl
          rcases List.mem_append.mp hl with hl | hl
          · exact hlines l hl
          · exact List.mem_singleton.mp hl ▸ not_mem_unstuff hline
        · simp [unlines]

theorem accepted_takeLines {maxMessageSize : Nat} {lines : List Bytes}
    (hlines : ∀ line ∈ lines, 10 ∉ stripEol line) :
    ∀ state : Bytes × Bool, Accepted maxMessageSize state.1 →
      Accepted maxMessageSize (lines.foldl (takeLine maxMessageSize) state).1 := by
  induction lines with
  | nil => exact fun _ h => h
  | cons line lines ih =>
      intro state h
      exact ih (fun l hl => hlines l (List.mem_cons_of_mem _ hl)) _
        (accepted_takeLine (hlines line List.mem_cons_self) h)

/-- Whatever is accepted from a stream is within the limit and has no bare line feed. -/
theorem accepted_of_readData {broken : Bool} {maxMessageSize : Nat} {input data : Bytes}
    {rest : List Bytes}
    (h : readData broken maxMessageSize (splitInclusive 10 input) = .ok (.ok data, rest)) :
    Accepted maxMessageSize data := by
  rcases readData_cases broken maxMessageSize (splitInclusive 10 input) with
    ⟨before, last, after, hlines, -, hread⟩ | ⟨-, hread⟩
  · have hstrip : ∀ line ∈ before, 10 ∉ stripEol line := by
      intro line hline
      have hmem : line ∈ splitInclusive 10 input := hlines ▸ List.mem_append_left _ hline
      exact not_mem_stripEol hmem
    have hacc : Accepted maxMessageSize
        (before.foldl (takeLine maxMessageSize) ([], false)).1 :=
      accepted_takeLines hstrip _ ⟨Nat.zero_le _, [], List.forall_mem_nil _, rfl⟩
    rw [hlines, hread after] at h
    generalize before.foldl (takeLine maxMessageSize) ([], false) = state at h hacc
    obtain ⟨taken, tooLarge⟩ := state
    cases tooLarge with
    | false => cases h; exact hacc
    | true => cases h
  · rw [hread] at h
    cases broken <;> cases h

/-- A conforming client's lines come back if they fit, and the reader stands right behind
them either way; whatever is accepted from any stream is within the limit
and has no bare line feed. -/
theorem readData_roundTrip (broken : Bool) (maxMessageSize : Nat) :
    (∀ (lines : List Bytes) (rest : Bytes), (∀ line ∈ lines, 10 ∉ line) →
      readData broken maxMessageSize (splitInclusive 10 (sent lines ++ rest)) =
        .ok (if payloadLength lines ≤ maxMessageSize then .ok (unlines lines)
          else .error tooLargeReply, splitInclusive 10 rest)) ∧
    (∀ (input data : Bytes) (rest : List Bytes),
      readData broken maxMessageSize (splitInclusive 10 input) = .ok (.ok data, rest) →
        Accepted maxMessageSize data) := by
  constructor
  · intro lines rest hlines
    have hsplit : splitInclusive 10 (sent lines ++ rest)
        = lines.map sentLine ++ [46, 13, 10] :: splitInclusive 10 rest := by
      have hclosed : ∀ line ∈ lines.map sentLine ++ [[46, 13, 10]],
          ∃ l, (10 : UInt8) ∉ l ∧ line = l ++ [10] := by
        intro line h
        rcases List.mem_append.mp h with h | h
        · obtain ⟨content, hcontent, rfl⟩ := List.mem_map.mp h
          refine ⟨stuff content ++ [13], ?_, by simp [sentLine, crlf]⟩
          intro hm
          rcases List.mem_append.mp hm with hm | hm
          · exact not_mem_stuff (hlines content hcontent) hm
          · exact absurd (List.mem_singleton.mp hm) (by decide)
        · exact ⟨[46, 13], by decide, List.mem_singleton.mp h⟩
      have := splitInclusive_flatten_append 10 _ rest hclosed
      simpa [sent] using this
    rw [hsplit, readData, readDataLoop_stops broken maxMessageSize
      (endsPayload_sentLines broken lines),
      verdict_sentLines maxMessageSize lines [] (Nat.zero_le _)]
    simp
  · exact fun input data rest h => accepted_of_readData h

theorem readData_roundTrip_dots :
    readData false 9 (splitInclusive 10
      (sent [Utf8.encode "..".toList, [], Utf8.encode "a".toList] ++
        Utf8.encode "QUIT".toList)) = .ok (.ok (Utf8.encode "..\r\n\r\na\r\n".toList),
        [Utf8.encode "QUIT".toList]) ∧
    Accepted 9 (Utf8.encode "a\r\n".toList) := by
  constructor
  · rw [(readData_roundTrip false 9).1 _ _ (by decide +kernel)]
    decide +kernel
  · exact (readData_roundTrip false 9).2 (Utf8.encode "a\n.\r\n".toList)
      _ [] (by decide +kernel)

end Weiterleitung
