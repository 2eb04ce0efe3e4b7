/-
# `Smtp.Body` — the body of a payload

A payload that the DATA phase accepts is made of lines that end in CR LF.  The rewriter does
not look for an empty line but for two line ends in a row, so an empty line at the very top is
not one to it: what follows, up to the next one, is stripped as if it were headers, and a line
end is put where the body should start.

    splits at the first empty line after the first line   (`splitHeadersBody_payload`)
    the body passes byte for byte exactly if the payload does not start with an empty line,
      or what is between that and the next one would pass the stripping
                                                          (`rewrite_body_iff`)
-/
import Mathlib
import Weiterleitung.Smtp.Fields
import Weiterleitung.Smtp.ReadData

namespace Weiterleitung

open Text Utf8 Lines Unicode

/-! ## Where a payload splits -/

/-- A line of a payload. -/
def ended (line : Bytes) : Bytes := line ++ crlf

theorem unlines_eq (lines : List Bytes) : unlines lines = (lines.map ended).flatten := rfl

theorem unlines_append (lines rest : List Bytes) :
    unlines (lines ++ rest) = unlines lines ++ unlines rest :=
  List.flatMap_append

theorem length_unlines_cons (line : Bytes) (lines : List Bytes) :
    (unlines (line :: lines)).length = line.length + 2 + (unlines lines).length := by
  rw [show unlines (line :: lines) = line ++ crlf ++ unlines lines from rfl,
    List.length_append, List.length_append]
  rfl

theorem closed_ended {line : Bytes} (h : 10 ∉ line) : Closed (ended line) :=
  ⟨line ++ [13], by simpa using h, by simp [ended, crlf]⟩

theorem isBlank_ended (line : Bytes) : isBlank (ended line) = true ↔ line = [] := by
  cases line with
  | nil => exact iff_of_true (by decide) rfl
  | cons b line =>
      refine iff_of_false ?_ (List.cons_ne_nil _ _)
      unfold isBlank ended crlf
      cases line <;> simp

theorem closed_map_ended {lines : List Bytes} (h : ∀ line ∈ lines, 10 ∉ line) :
    ∀ line ∈ lines.map ended, Closed line := by
  intro line hline
  obtain ⟨line, hmem, rfl⟩ := List.mem_map.mp hline
  exact closed_ended (h line hmem)

theorem splitInclusive_unlines {lines : List Bytes} (h : ∀ line ∈ lines, 10 ∉ line) :
    splitInclusive 10 (unlines lines) = lines.map ended := by
  have hsplit := splitInclusive_flatten_append (10 : UInt8)
    (lines.map ended) [] (closed_map_ended h)
  rw [List.append_nil] at hsplit
  rw [unlines_eq, hsplit]
  exact List.append_nil _

/-- The search passes a line unless an empty one follows it. -/
theorem findSubsequence_ended {line : Bytes} (h : 10 ∉ line) (rest : Bytes) :
    findSubsequence [13, 10, 13, 10] (ended line ++ rest) =
      if crlf.isPrefixOf rest then some line.length
      else (findSubsequence [13, 10, 13, 10] rest).map (· + (line.length + 2)) := by
  induction line with
  | nil =>
      show findSubsequence [13, 10, 13, 10] (13 :: 10 :: rest) = _
      have hprefix : ([13, 10, 13, 10] : Bytes).isPrefixOf (13 :: 10 :: rest)
          = crlf.isPrefixOf rest := rfl
      have hnot : ([13, 10, 13, 10] : Bytes).isPrefixOf (10 :: rest) = false := rfl
      rw [findSubsequence, hprefix]
      split
      · rfl
      · rw [findSubsequence, hnot, if_neg (by decide), Option.map_map]
        rfl
  | cons b line ih =>
      have hline : 10 ∉ line := fun hm => h (List.mem_cons_of_mem b hm)
      have hnot : ([13, 10, 13, 10] : Bytes).isPrefixOf
          (b :: (ended line ++ rest)) = false := by
        cases line with
        | nil => simp [ended, crlf, List.isPrefixOf]
        | cons c line =>
            have hc : c ≠ 10 := fun e => hline (e ▸ List.mem_cons_self)
            simp [ended, List.isPrefixOf, Ne.symm hc]
      show findSubsequence [13, 10, 13, 10] (b :: (ended line ++ rest)) = _
      rw [findSubsequence, hnot, if_neg (by decide), ih hline]
      split
      · rfl
      · rw [Option.map_map]
        refine congrArg (Option.map · _) (funext fun i => ?_)
        simp only [Function.comp_apply, List.length_cons]
        omega

theorem isPrefixOf_ended {line : Bytes} (h : 10 ∉ line) (rest : Bytes) :
    crlf.isPrefixOf (ended line ++ rest) = true ↔ line = [] := by
  cases line with
  | nil => exact iff_of_true rfl rfl
  | cons b line =>
      refine iff_of_false ?_ (List.cons_ne_nil _ _)
      cases line with
      | nil => simp [ended, crlf, List.isPrefixOf]
      | cons c line =>
          have hc : c ≠ 10 := fun e => h (by simp [e])
          simp [ended, crlf, List.isPrefixOf, Ne.symm hc]

/-- The search passes lines of which none but the first is empty, unless an
empty one follows them. -/
theorem findSubsequence_unlines {lines : List Bytes} (hempty : [] ∉ lines) (rest : Bytes) :
    ∀ {first : Bytes}, (∀ line ∈ first :: lines, 10 ∉ line) →
      findSubsequence [13, 10, 13, 10] (unlines (first :: lines) ++ rest) =
        if crlf.isPrefixOf rest then some ((unlines (first :: lines)).length - 2)
        else (findSubsequence [13, 10, 13, 10] rest).map
          (· + (unlines (first :: lines)).length) := by
  induction lines with
  | nil =>
      intro first h
      rw [show unlines [first] = ended first from List.append_nil _,
        findSubsequence_ended (h first List.mem_cons_self)]
      simp [ended, crlf]
  | cons line lines ih =>
      intro first h
      have hline : 10 ∉ line := h line (by simp)
      have hrest : ∀ l ∈ line :: lines, 10 ∉ l := fun l hl => h l (List.mem_cons_of_mem _ hl)
      have hprefix : crlf.isPrefixOf (unlines (line :: lines) ++ rest) ≠ true := by
        rw [show unlines (line :: lines) = ended line ++ unlines lines from rfl,
          List.append_assoc, Ne, isPrefixOf_ended hline]
        rintro rfl
        exact hempty List.mem_cons_self
      have hlong : 2 ≤ (unlines (line :: lines)).length := by
        rw [length_unlines_cons]
        omega
      rw [show unlines (first :: line :: lines) = ended first ++ unlines (line :: lines) from
        rfl, List.append_assoc, findSubsequence_ended (h first List.mem_cons_self),
        if_neg hprefix,
        ih (fun hm => hempty (List.mem_cons_of_mem _ hm)) hrest]
      have hlen : (ended first ++ unlines (line :: lines)).length
          = first.length + 2 + (unlines (line :: lines)).length := length_unlines_cons first _
      rw [hlen]
      split
      · rw [Option.map_some]
        congr 1
        omega
      · rw [Option.map_map]
        refine congrArg (Option.map · _) (funext fun i => ?_)
        simp only [Function.comp_apply]
        omega

/-- Lines that end in CR LF contain no two line feeds in a row. -/
theorem findSubsequence_lf_unlines {lines : List Bytes} (h : ∀ line ∈ lines, 10 ∉ line) :
    findSubsequence [10, 10] (unlines lines) = none := by
  cases hlf : findSubsequence [10, 10] (unlines lines) with
  | none => rfl
  | some i =>
      obtain ⟨a, b, hab, -, -⟩ := findSubsequence_some hlf
      have hlines := splitInclusive_unlines h
      rw [hab, show a ++ [10, 10] ++ b = (a ++ [10]) ++ [10] ++ b by simp,
        splitInclusive_blank (by decide)] at hlines
      obtain ⟨line, -, hline⟩ := List.mem_map.mp (hlines ▸ (by simp) : [10] ∈ lines.map ended)
      have hlen := congrArg List.length hline
      simp [ended, crlf] at hlen

/-- Without an empty line after the first one, everything is taken for headers. -/
theorem splitHeadersBody_headers {first : Bytes} {lines : List Bytes}
    (h : ∀ line ∈ first :: lines, 10 ∉ line)
    (hempty : [] ∉ lines) :
    splitHeadersBody (unlines (first :: lines)) = (unlines (first :: lines), unlines []) := by
  have hcrlf := findSubsequence_unlines hempty [] h
  rw [List.append_nil] at hcrlf
  unfold splitHeadersBody
  rw [hcrlf, findSubsequence_lf_unlines h]
  rfl

/-- An empty line after the first one is where it splits. -/
theorem splitHeadersBody_empty {first : Bytes} {lines after : List Bytes}
    (h : ∀ line ∈ first :: lines, 10 ∉ line) (hempty : [] ∉ lines) :
    splitHeadersBody (unlines (first :: lines ++ [] :: after))
      = (unlines (first :: lines), unlines after) := by
  have hraw : unlines (first :: lines ++ [] :: after) = unlines (first :: lines) ++
      (crlf ++ unlines after) :=
    unlines_append _ _
  have hprefix : crlf.isPrefixOf (crlf ++ unlines after) = true :=
    (isPrefixOf_ended List.not_mem_nil (unlines after)).mpr rfl
  have hlong : (unlines (first :: lines)).length - 2 + 2
      = (unlines (first :: lines)).length := by
    rw [length_unlines_cons]
    omega
  unfold splitHeadersBody
  rw [hraw, findSubsequence_unlines hempty _ h, if_pos hprefix]
  refine Prod.ext ?_ ?_
  · show List.take (_ - 2 + 2) _ = _
    rw [List.take_left' hlong.symm]
  · show List.drop (_ - 2 + 4) _ = _
    rw [← List.append_assoc, List.drop_left']
    rw [List.length_append, ← hlong]
    rfl

/-! ## The body -/

/-- The lines after the first empty one. -/
def bodyLines (lines : List Bytes) : List Bytes := (lines.dropWhile (!isBlank ·)).tail

theorem bodyOf_eq (raw : Bytes) : bodyOf raw = (bodyLines (splitInclusive 10 raw)).flatten :=
  rfl

theorem bodyLines_append {before : List Bytes}
    (hbefore : ∀ line ∈ before, isBlank line = false) {sep : Bytes}
    (hsep : isBlank sep = true) (after : List Bytes) :
    bodyLines (before ++ sep :: after) = after := by
  unfold bodyLines
  rw [dropWhile_append_mark (by simp [hsep]) fun line h => by simp [hbefore line h]]
  rfl

theorem bodyLines_leading (after : List Bytes) : bodyLines (crlf :: after) = after := rfl

theorem bodyLines_of_noBlank {lines : List Bytes} (h : ∀ line ∈ lines, isBlank line = false) :
    bodyLines lines = [] := by
  unfold bodyLines
  rw [List.dropWhile_eq_nil_iff.mpr fun line hl => by simp [h line hl]]
  rfl

/-- Closed lines put together are the same only if they are. -/
theorem flatten_closed_inj {lines lines' : List Bytes} (h : ∀ line ∈ lines, Closed line)
    (h' : ∀ line ∈ lines', Closed line) : lines.flatten = lines'.flatten ↔ lines = lines' := by
  constructor
  · intro heq
    have hsplit := splitInclusive_flatten_append 10 lines [] h
    have hsplit' := splitInclusive_flatten_append 10 lines' [] h'
    rw [heq] at hsplit
    have hsame := hsplit.symm.trans hsplit'
    rw [show splitInclusive (10 : UInt8) [] = [] from rfl, List.append_nil,
      List.append_nil] at hsame
    exact hsame
  · exact congrArg _

section
variable {names : List Str} {injected : Str}

/-- What it takes for the body to be relayed as it is. -/
structure BodyIntact (names : List Str) (injected : Str) (lines : List Bytes) : Prop where
  /-- The header lines that are put in front do not end the block. -/
  noBlank : ∀ line ∈ splitInclusive 10 (encode injected), isBlank line = false
  /-- A payload that starts with an empty line has another one, and what is between them
  would pass the stripping as it is. -/
  leading : lines.head? = some [] → ∃ mid after, lines = [] :: mid ++ [] :: after ∧ [] ∉ mid ∧
    ∀ field ∈ rawFields (mid.map ended), keepsRaw names field = true ∧
      ∀ line ∈ field, (fromUtf8 line).isSome = true

/-- Stripping leaves lines as they are if it keeps their fields and reads them right. -/
theorem stripRaw_reread_iff (lines : List Bytes) :
    (stripRaw names false lines).map reread = lines ↔
      ∀ field ∈ rawFields lines, keepsRaw names field = true ∧ ∀ line ∈ field,
      (fromUtf8 line).isSome = true := by
  have h := flatMap_filter_append_eq_iff (p := fun _ => true) (q := keepsRaw names)
    (f := List.map reread) (g := id) (l := rawFields lines) (fun _ _ _ => rfl)
    (fun field _ => (List.length_map reread).le)
    (fun field hfield h => groups_ne_nil _ hfield (List.map_eq_nil_iff.mp h)) []
  simp only [List.filter_true, List.append_nil, List.flatMap_id, true_and,
    forall_const, id_eq] at h
  rw [rawFields, flatten_groups, ← rawFields] at h
  rw [stripRaw_eq, List.map_flatten, ← List.flatMap_def, eq_comm, h]
  refine forall₂_congr fun field _ => and_congr_right fun _ => ?_
  have hsame : field.map reread = field.map id ↔ ∀ line ∈ field, reread line = id line :=
    List.map_eq_map_iff
  rw [List.map_id] at hsame
  rw [eq_comm, hsame]
  exact forall₂_congr fun line _ => encode_lossy_iff

/-- The lines of what is written for a payload. -/
theorem splitInclusive_relay_payload (hinjected : ∃ p, encode injected = p ++ [10])
    {raw : Bytes} {headers body : List Bytes} (hheaders : ∀ line ∈ headers, 10 ∉ line)
    (hbody : ∀ line ∈ body, 10 ∉ line)
    (hsplit : splitHeadersBody raw = (unlines headers, unlines body)) :
    splitInclusive 10 (relay names injected raw) = splitInclusive 10 (encode injected)
      ++ ((stripRaw names false (headers.map ended)).map reread ++
        crlf :: body.map ended) := by
  unfold relay
  have hcrlf : splitInclusive (10 : UInt8) (crlf ++ unlines body) = crlf ::
      splitInclusive 10 (unlines body) :=
    splitInclusive_line 10 [13] (unlines body) (by decide)
  rw [hsplit, stripHeaders_eq_raw, splitInclusive_unlines hheaders, List.append_assoc,
    splitInclusive_relay hinjected (closed_stripRaw names (closed_map_ended hheaders)), hcrlf,
    splitInclusive_unlines hbody]

/-- The body that a reader of the relayed payload takes, line by line. -/
theorem bodyOf_relay_eq_iff (hinjected : ∃ p, encode injected = p ++ [10])
    {lines headers body : List Bytes} (hlines : ∀ line ∈ lines, 10 ∉ line)
    (hheaders : ∀ line ∈ headers, 10 ∉ line) (hbody : ∀ line ∈ body, 10 ∉ line)
    (hsplit : splitHeadersBody (unlines lines) = (unlines headers, unlines body)) :
    bodyOf (relay names injected (unlines lines)) = bodyOf (unlines lines) ↔
      bodyLines (splitInclusive 10 (encode injected)
        ++ ((stripRaw names false (headers.map ended)).map reread ++ crlf :: body.map ended))
        = bodyLines (lines.map ended) := by
  have hbodyLines : ∀ {l : List Bytes}, (∀ line ∈ l, Closed line) →
      ∀ line ∈ bodyLines l, Closed line :=
    fun h line hline => h line
      ((List.dropWhile_sublist _).subset ((List.tail_sublist _).subset hline))
  obtain ⟨p, hp⟩ := hinjected
  rw [bodyOf_eq, bodyOf_eq, splitInclusive_relay_payload ⟨p, hp⟩ hheaders hbody hsplit,
    splitInclusive_unlines hlines]
  refine flatten_closed_inj (hbodyLines ?_) (hbodyLines (closed_map_ended hlines))
  intro line hline
  rcases List.mem_append.mp hline with h | h
  · rw [hp] at h
    exact closed_of_mem_splitInclusive 10 p line h
  · rcases List.mem_append.mp h with h | h
    · exact closed_stripRaw names (closed_map_ended hheaders) line h
    · rcases List.mem_cons.mp h with rfl | h
      · exact closed_of_blank (by decide)
      · exact closed_map_ended hbody line h

/-- A payload is split at its first empty line after the first line. -/
theorem splitHeadersBody_payload {lines : List Bytes} (hlines : ∀ line ∈ lines, 10 ∉ line) :
    ∃ headers body, splitHeadersBody (unlines lines) = (unlines headers, unlines body) ∧
      [] ∉ headers.tail ∧
      (lines = headers ∧ body = [] ∨ headers ≠ [] ∧ lines = headers ++ [] :: body) := by
  cases lines with
  | nil => exact ⟨[], [], rfl, List.not_mem_nil, Or.inl ⟨rfl, rfl⟩⟩
  | cons first lines =>
      rcases exists_mark (fun line : Bytes => decide (line ≠ [])) lines with
        hall | ⟨mid, line, after, rfl, hline, hmid⟩
      · have hempty : [] ∉ lines := fun h => by simpa using hall [] h
        exact ⟨first :: lines, [], splitHeadersBody_headers hlines hempty,
          hempty, Or.inl ⟨rfl, rfl⟩⟩
      · have hempty : [] ∉ mid := fun h => by simpa using hmid [] h
        have hnil : line = [] := by simpa using hline
        subst hnil
        have hheaders : ∀ line ∈ first :: mid, 10 ∉ line := fun line h =>
          hlines line ((List.sublist_append_left (first :: mid) _).subset h)
        exact ⟨first :: mid, after, splitHeadersBody_empty hheaders hempty, hempty,
          Or.inr ⟨List.cons_ne_nil _ _, rfl⟩⟩

/-- The injected lines are passed over, or end the header block and
leave the rest to the body. -/
theorem bodyLines_injected (I : List Bytes) :
    (∀ line ∈ I, isBlank line = false) ∧ (∀ rest, bodyLines (I ++ rest) = bodyLines rest) ∨
      (¬ ∀ line ∈ I, isBlank line = false) ∧ ∃ left, ∀ rest,
      bodyLines (I ++ rest) = left ++ rest := by
  rcases exists_mark (!isBlank ·) I with hall | ⟨before, sep, after, rfl, hsep, hbefore⟩
  · refine Or.inl ⟨fun line h => by simpa using hall line h, fun rest => ?_⟩
    unfold bodyLines
    rw [List.dropWhile_append_of_pos hall]
  · have hsep' : isBlank sep = true := by simpa using hsep
    refine Or.inr ⟨fun h => ?_, after, fun rest => ?_⟩
    · rw [h sep (by simp)] at hsep'
      cases hsep'
    · rw [List.append_assoc, List.cons_append,
        bodyLines_append (fun line h => by simpa using hbefore line h) hsep']

theorem not_isBlank_ended {lines : List Bytes} (h : [] ∉ lines) :
    ∀ line ∈ lines.map ended, isBlank line = false := by
  intro line hline
  obtain ⟨line, hmem, rfl⟩ := List.mem_map.mp hline
  cases hb : isBlank (ended line) with
  | false => rfl
  | true => exact absurd ((isBlank_ended line).mp hb ▸ hmem) h

theorem not_isBlank_stripped {lines : List Bytes} (h : [] ∉ lines) :
    ∀ line ∈ (stripRaw names false (lines.map ended)).map reread, isBlank line = false := by
  intro line hline
  obtain ⟨line, hmem, rfl⟩ := List.mem_map.mp hline
  rw [isBlank_reread]
  exact not_isBlank_ended h line ((stripRaw_sublist _ _ _).subset hmem)

/-- The empty line at the top is left by the stripping. -/
theorem stripRaw_leading (hnames : names.contains [] = false) (lines : List Bytes) :
    (stripRaw names false (([] :: lines).map ended)).map reread
      = crlf :: (stripRaw names false (lines.map ended)).map reread := by
  have hblank : isBlank (ended []) = true := by decide
  obtain ⟨hfolded, hname⟩ := drops_blank hnames hblank
  rw [List.map_cons]
  unfold stripRaw
  simp only [strip, hfolded, hname, Bool.false_eq_true, if_false, List.map_cons]
  rfl

/-- The lines before the first empty one and those after it. -/
theorem append_empty_inj {mid mid' after after' : List Bytes} (h : [] ∉ mid) (h' : [] ∉ mid')
    (heq : mid ++ [] :: after = mid' ++ [] :: after') : mid = mid' ∧ after = after' := by
  have hempty : ∀ {mid : List Bytes}, [] ∉ mid → ∀ line ∈ mid, decide (line ≠ []) = true :=
    fun h line hl =>
    decide_eq_true fun e => h (e ▸ hl)
  have hbefore := congrArg (List.takeWhile fun line : Bytes => decide (line ≠ [])) heq
  rw [takeWhile_append_mark rfl, takeWhile_append_mark rfl,
    List.takeWhile_eq_self_iff.mpr (hempty h),
    List.takeWhile_eq_self_iff.mpr (hempty h')] at hbefore
  rw [hbefore, List.append_cancel_left_eq] at heq
  exact ⟨hbefore, (List.cons.inj heq).2⟩

/-- Where no line of the header block is empty, the body follows the separating line, and is
read so unless an injected line is empty. -/
theorem bodyLines_relay_separated {headers : List Bytes} (hhead : [] ∉ headers)
    (I body : List Bytes) :
    bodyLines (I ++ ((stripRaw names false (headers.map ended)).map reread ++ crlf :: body)) =
      body ↔
      ∀ line ∈ I, isBlank line = false := by
  rcases bodyLines_injected I with ⟨hblank, hpass⟩ | ⟨hblank, left, hpass⟩
  · rw [hpass, bodyLines_append (not_isBlank_stripped hhead) (by decide)]
    exact iff_of_true rfl hblank
  · refine iff_of_false ?_ hblank
    intro heq
    have hlen := congrArg List.length heq
    rw [hpass] at hlen
    simp only [List.length_append, List.length_cons] at hlen
    omega

/-- The empty line at the top ends the block, and what was taken for headers is the body. -/
theorem bodyLines_relay_leading (hnames : names.contains [] = false) {mid : List Bytes}
    (hmid : [] ∉ mid) (I body : List Bytes) :
    bodyLines
      (I ++ ((stripRaw names false (([] :: mid).map ended)).map reread ++ crlf :: body))
        = mid.map ended ++ crlf :: body ↔
      (∀ line ∈ I, isBlank line = false) ∧ (stripRaw names false (mid.map ended)).map reread
      = mid.map ended := by
  rw [stripRaw_leading hnames]
  rcases bodyLines_injected I with ⟨hblank, hpass⟩ | ⟨hblank, left, hpass⟩
  · rw [hpass, List.cons_append, bodyLines_leading, List.append_cancel_right_eq]
    exact (and_iff_right hblank).symm
  · refine iff_of_false ?_ fun h => hblank h.1
    intro heq
    rw [hpass, ← List.append_assoc, List.append_cancel_right_eq] at heq
    have hnone := not_isBlank_ended hmid crlf (by rw [← heq]; simp)
    cases hnone

/-- The body that is read of such a payload has the separating line in it. -/
theorem crlf_mem_bodyLines_leading (hnames : names.contains [] = false) (I mid : List Bytes) :
    crlf ∈ bodyLines
      (I ++ ((stripRaw names false (([] :: mid).map ended)).map reread ++ [crlf])) := by
  rw [stripRaw_leading hnames]
  rcases bodyLines_injected I with ⟨-, hpass⟩ | ⟨-, left, hpass⟩
  · rw [hpass, List.cons_append, bodyLines_leading]
    simp
  · rw [hpass]
    simp

/-- Where the payload does not start with an empty line, the injected lines decide. -/
theorem bodyIntact_of_head {lines : List Bytes} (hhead : lines.head? ≠ some []) :
    BodyIntact names injected lines ↔ ∀ line ∈ splitInclusive 10 (encode injected),
    isBlank line = false :=
  ⟨fun h => h.noBlank, fun h => ⟨h, fun hfirst => absurd hfirst hhead⟩⟩

/-- Where it starts with one and has a second, what is between them decides as well. -/
theorem bodyIntact_leading {mid body : List Bytes} (hmid : [] ∉ mid) :
    BodyIntact names injected ([] :: mid ++ [] :: body) ↔
      (∀ line ∈ splitInclusive 10 (encode injected), isBlank line = false) ∧
        (stripRaw names false (mid.map ended)).map reread = mid.map ended := by
  rw [stripRaw_reread_iff]
  constructor
  · intro h
    obtain ⟨mid', after, heq, hmid', hfields⟩ := h.leading rfl
    obtain ⟨rfl, rfl⟩ := append_empty_inj hmid hmid' (List.cons.inj heq).2
    exact ⟨h.noBlank, hfields⟩
  · exact fun h => ⟨h.1, fun _ => ⟨mid, body, rfl, hmid, h.2⟩⟩

/-- Without a second one the body is not intact. -/
theorem not_bodyIntact_leading {mid : List Bytes} (hmid : [] ∉ mid) :
    ¬ BodyIntact names injected ([] :: mid) := by
  intro h
  obtain ⟨mid', after, hlines, -, -⟩ := h.leading rfl
  rw [List.cons_append] at hlines
  exact hmid ((List.cons.inj hlines).2 ▸ (by simp))

/-- The body is relayed as it is under exactly these conditions. -/
theorem bodyOf_relay_iff (hnames : names.contains [] = false) (hinjected : ∃ p,
      encode injected = p ++ [10])
    {lines : List Bytes} (hlines : ∀ line ∈ lines, 10 ∉ line) :
    bodyOf (relay names injected (unlines lines)) = bodyOf (unlines lines) ↔
    BodyIntact names injected lines := by
  obtain ⟨headers, body, hsplit, htail, hform⟩ := splitHeadersBody_payload hlines
  have hheaders : ∀ line ∈ headers, 10 ∉ line := by
    rcases hform with ⟨rfl, -⟩ | ⟨-, rfl⟩
    · exact hlines
    · exact fun line h => hlines line (List.mem_append_left _ h)
  have hbody : ∀ line ∈ body, 10 ∉ line := by
    rcases hform with ⟨-, rfl⟩ | ⟨-, rfl⟩
    · exact fun _ h => nomatch h
    · exact fun line h => hlines line (List.mem_append_right _ (List.mem_cons_of_mem _ h))
  rw [bodyOf_relay_eq_iff hinjected hlines hheaders hbody hsplit]
  by_cases hhead : [] ∈ headers
  · obtain ⟨mid, rfl⟩ : ∃ mid, headers = [] :: mid := by
      cases headers with
      | nil => exact nomatch hhead
      | cons first mid => exact ⟨mid, by rw [(List.mem_cons.mp hhead).resolve_right htail]⟩
    rw [List.tail_cons] at htail
    rcases hform with ⟨rfl, rfl⟩ | ⟨-, rfl⟩
    · -- there is no other empty line, but the body that is read has one
      refine iff_of_false ?_ (not_bodyIntact_leading htail)
      intro heq
      have hmem := crlf_mem_bodyLines_leading hnames (splitInclusive 10 (encode injected)) mid
      rw [List.map_nil] at heq
      rw [heq] at hmem
      have hnone := not_isBlank_ended htail crlf hmem
      cases hnone
    · have hread : bodyLines (([] :: mid ++ [] :: body).map ended) = mid.map ended ++
          crlf :: body.map ended := by
        rw [List.cons_append, List.map_cons, List.map_append]
        exact bodyLines_leading _
      rw [hread, bodyIntact_leading htail]
      exact bodyLines_relay_leading hnames htail _ _
  · -- only the separating line is empty
    have hread : bodyLines (lines.map ended) = body.map ended := by
      rcases hform with ⟨rfl, rfl⟩ | ⟨-, rfl⟩
      · exact bodyLines_of_noBlank (not_isBlank_ended hhead)
      · rw [List.map_append]
        exact bodyLines_append (not_isBlank_ended hhead) (by decide) _
    have hfirst : lines.head? ≠ some [] := by
      intro hfirst
      rcases hform with ⟨rfl, -⟩ | ⟨hne, rfl⟩
      · exact hhead (List.mem_of_head? hfirst)
      · rw [List.head?_append_of_ne_nil _ hne] at hfirst
        exact hhead (List.mem_of_head? hfirst)
    rw [hread, bodyIntact_of_head hfirst]
    exact bodyLines_relay_separated hhead _ _

end

/-! ## The rewriters -/

/-- The body of a payload is relayed byte for byte in exactly these cases. -/
theorem rewrite_body_iff {lines : List Bytes} (hlines : ∀ line ∈ lines, 10 ∉ line) :
    (∀ params : ForwardRewrite,
      bodyOf (rewriteForForward (unlines lines) params) = bodyOf (unlines lines) ↔
        BodyIntact strippedHeaders params.injected lines) ∧
    ∀ params : ReplyRewrite,
      bodyOf (rewriteForReply (unlines lines) params) = bodyOf (unlines lines) ↔
        BodyIntact replyStripped params.injected lines := by
  constructor
  · intro params
    rw [rewriteForForward_eq]
    exact bodyOf_relay_iff strippedHeaders_nil params.injected_ended hlines
  · intro params
    rw [rewriteForReply_eq]
    exact bodyOf_relay_iff replyStripped_nil params.injected_ended hlines

theorem rewrite_body_iff_sample :
    bodyOf (rewriteForReply (unlines [encode "Subject: Hi".toList, [], encode "Thanks".toList])
      ⟨"shop@example.com", "support@shop.example"⟩) = encode "Thanks\r\n".toList :=
  (((rewrite_body_iff (by decide +kernel)).2 _).mpr
    ⟨by decide +kernel, fun h => absurd h (by decide +kernel)⟩).trans (by decide +kernel)

/-- A message without headers: its text is taken for them, and the body gets an empty line. -/
theorem rewrite_alters_body :
    ¬ ∀ (lines : List Bytes) (params : ForwardRewrite), (∀ line ∈ lines, 10 ∉ line) →
      bodyOf (rewriteForForward (unlines lines) params) = bodyOf (unlines lines) := by
  intro h
  have h := h [[], encode "Hello".toList]
    ⟨"shop@example.com", "ct.a1b2@example.com", none, "support@shop.example"⟩
    (by decide +kernel)
  exact absurd h (by decide +kernel)

end Weiterleitung
