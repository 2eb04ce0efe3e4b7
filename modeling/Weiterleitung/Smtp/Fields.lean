/-
# `Smtp.Fields` — the header fields that are not to be touched

A reader takes the header block for fields: a line with the lines after it that start with a
space or a tab.  What the rewriter writes is the injected block and the fields with other
names, byte for byte, exactly if

    the injected lines do not end the block themselves
    the lines of those fields are UTF-8
    no continuation lines at the top look like a field to be stripped
    the last field is closed, if no empty line follows it          (`rewrite_fields_iff`)

The second is not the client's to keep: the server announces 8BITMIME, but a byte that is not
UTF-8 becomes a replacement character                              (`rewrite_alters_octets`).
-/
import Mathlib
import Weiterleitung.Smtp.HeaderBlock

namespace Weiterleitung

open Text Utf8 Lines Unicode

/-! ## Fields that pass -/

section
variable {names : List Str} {injected : Str}

/-- What it takes for the other fields to pass the rewriter with their bytes. -/
structure PassesIntact (names : List Str) (injected : Str) (raw : Bytes) : Prop where
  /-- The header lines that are put in front do not end the block. -/
  noBlank : ∀ line ∈ splitInclusive 10 (encode injected), isBlank line = false
  /-- The lines of the other fields are UTF-8. -/
  text : ∀ field ∈ rawFields (headLines raw), keptByName names field = true →
    ∀ line ∈ field, (fromUtf8 line).isSome = true
  /-- Continuation lines at the top do not look like a field that is stripped. -/
  top : ∀ field ∈ rawFields (headLines raw), field.head?.any startsFolded = true →
    keptByName names field = true
  /-- Without an empty line, a last field that passes ends with its line. -/
  closed : (∀ line ∈ splitInclusive 10 raw, isBlank line = false) →
    ∀ field, (rawFields (headLines raw)).getLast? = some field →
    keptByName names field = true →
      raw.getLast? = some 10

/-- Lines read and written again are the same bytes exactly if they are UTF-8. -/
theorem flatten_reread_iff {lines : List Bytes} (hne : ∀ line ∈ lines, line ≠ []) :
    (lines.map reread).flatten = lines.flatten ↔
    ∀ line ∈ lines, (fromUtf8 line).isSome = true := by
  have h := flatMap_filter_append_eq_iff (p := fun _ => true) (q := fun _ => true) (f := id)
    (g := reread) (l := lines) (fun _ _ h => h) (fun line _ => length_le_reread line) hne []
  simp only [List.filter_true, List.append_nil, true_and, forall_const,
    id_eq, List.flatMap_id] at h
  rw [← List.flatMap_def, h]
  exact forall₂_congr fun line _ => encode_lossy_iff

/-- A field of lines, none of them empty. -/
theorem ne_nil_of_mem_rawFields {raw line : Bytes} {field : List Bytes}
    (hfield : field ∈ rawFields (headLines raw)) (hline : line ∈ field) : line ≠ [] := by
  have hmem : line ∈ (rawFields (headLines raw)).flatten :=
    List.mem_flatten.mpr ⟨field, hfield, hline⟩
  rw [rawFields, flatten_groups] at hmem
  exact ne_nil_of_mem_splitInclusive 10 raw ((List.takeWhile_sublist _).subset hmem)

/-- The last line is unfinished if the message does not end in a line feed. -/
theorem not_mem_last_iff {raw last : Bytes} {before : List Bytes}
    (hlines : splitInclusive 10 raw = before ++ [last]) :
    10 ∉ last ↔ raw.getLast? ≠ some 10 := by
  have hmem : last ∈ splitInclusive 10 raw := by rw [hlines]; simp
  have hlast : raw.getLast? = last.getLast? := by
    rw [← flatten_splitInclusive 10 raw, hlines, List.flatten_append,
      List.getLast?_append_of_ne_nil]
    · simp
    · simpa using ne_nil_of_mem_splitInclusive 10 raw hmem
  rw [hlast]
  constructor
  · exact fun h hl => h (List.mem_of_getLast? hl)
  · intro h hin
    obtain ⟨l, hl, rfl | rfl⟩ := mem_splitInclusive 10 raw hmem
    · exact h (by simp)
    · exact hl hin

/-- The line that is left open is the end of the last field, if that passes. -/
theorem openEnd_iff (names : List Str) (raw : Bytes) :
    OpenEnd names raw ↔ (∀ line ∈ splitInclusive 10 raw, isBlank line = false) ∧
      ∃ field, (rawFields (splitInclusive 10 raw)).getLast? = some field ∧
        keepsRaw names field = true ∧ raw.getLast? ≠ some 10 := by
  refine and_congr_right fun _ => ?_
  rw [stripRaw_eq]
  have hflat : (rawFields (splitInclusive 10 raw)).flatten = splitInclusive 10 raw :=
    flatten_groups _ _
  rcases List.eq_nil_or_concat' (rawFields (splitInclusive 10 raw))
    with hnil | ⟨init, field, hfields⟩
  · rw [hnil]
    constructor
    · rintro ⟨kept, last, h, -⟩
      exact absurd h.symm (by simp)
    · rintro ⟨field, h, -⟩
      cases h
  · have hne : field ≠ [] := groups_ne_nil (splitInclusive 10 raw)
      (show field ∈ rawFields (splitInclusive 10 raw) by rw [hfields]; simp)
    obtain ⟨more, last, rfl⟩ := (List.eq_nil_or_concat' field).resolve_left hne
    have hlines : splitInclusive 10 raw = (init.flatten ++ more) ++ last :: [] := by
      rw [← hflat, hfields]
      simp
    have hopen : 10 ∉ last ↔ raw.getLast? ≠ some 10 := not_mem_last_iff hlines
    rw [hfields, List.filter_append, List.getLast?_concat]
    cases hkeep : keepsRaw names (more ++ [last]) with
    | true =>
        rw [List.filter_cons_of_pos hkeep, List.filter_nil, List.flatten_append,
          List.flatten_singleton, ← List.append_assoc]
        constructor
        · rintro ⟨kept, last', h, hlast'⟩
          obtain ⟨-, hsame⟩ := List.append_inj' h rfl
          cases hsame
          exact ⟨_, rfl, hkeep, hopen.mp hlast'⟩
        · rintro ⟨_, -, -, hend⟩
          exact ⟨_, last, rfl, hopen.mpr hend⟩
    | false =>
        rw [List.filter_cons_of_neg (by simp [hkeep]), List.filter_nil, List.append_nil]
        constructor
        · -- every line that is left has another one after it
          rintro ⟨kept, last', h, hlast'⟩
          have hin : last' ∈ init.flatten :=
            (List.filter_sublist.flatten).subset (by rw [h]; simp)
          obtain ⟨l, -, rfl⟩ := closed_of_before 10 hlines last' (List.mem_append_left _ hin)
          exact absurd (by simp) hlast'
        · rintro ⟨_, hsome, hkeep', -⟩
          cases hsome
          rw [hkeep] at hkeep'
          cases hkeep'

/-- An empty line among the injected ones ends the header block before they do. -/
theorem headOf_relay_blank (hinjected : ∃ p, encode injected = p ++ [10])
    (hblank : ¬ ∀ line ∈ splitInclusive 10 (encode injected), isBlank line = false)
    (raw : Bytes) :
    (headOf (relay names injected raw)).length < (encode injected).length := by
  obtain ⟨p, hp⟩ := hinjected
  rcases exists_mark (!isBlank ·) (splitInclusive 10 (encode injected)) with
    hnone | ⟨before, sep, after, hlines, hsep, hbefore⟩
  · exact absurd (fun line h => by simpa using hnone line h) hblank
  · have hlen := congrArg (List.length ∘ List.flatten) hlines
    simp only [Function.comp_apply, flatten_splitInclusive, List.flatten_append,
      List.flatten_cons, List.length_append] at hlen
    have hpos := List.length_pos_iff.mpr
      (ne_nil_of_mem_splitInclusive 10 (encode injected) (by rw [hlines]; simp : sep ∈ _))
    unfold headOf headLines relay
    rw [List.append_assoc, List.append_assoc, hp, splitInclusive_append_closed, ← hp, hlines,
      List.append_assoc, List.cons_append, takeWhile_append_mark (p := (!isBlank ·)) hsep,
      List.takeWhile_eq_self_iff.mpr hbefore]
    omega

/-- The fields that the stripping keeps are written as those with another name were, if and
only if they are these and are read right. -/
theorem stripRaw_fields_iff (raw tail : Bytes) :
    ((stripRaw names false (headLines raw)).map reread).flatten ++ tail
        = ((rawFields (headLines raw)).filter (keptByName names)).flatten.flatten ↔
      tail = [] ∧ ∀ field ∈ rawFields (headLines raw), keepsRaw names field = true →
        keptByName names field = true ∧ (field.map reread).flatten = field.flatten := by
  have hleft : ((stripRaw names false (headLines raw)).map reread).flatten
      = ((rawFields (headLines raw)).filter (keepsRaw names)).flatMap fun field =>
        (field.map reread).flatten := by
    rw [stripRaw_eq, List.flatMap_def, List.map_flatten, List.flatten_flatten, List.map_map]
    rfl
  have hright : ((rawFields (headLines raw)).filter (keptByName names)).flatten.flatten
      = ((rawFields (headLines raw)).filter (keptByName names)).flatMap List.flatten := by
    rw [List.flatMap_def, List.flatten_flatten]
  rw [hleft, hright]
  refine flatMap_filter_append_eq_iff ?_ ?_ ?_ tail
  · intro field _ h
    unfold keepsRaw
    rw [h, Bool.or_true]
  · intro field _
    rw [List.length_flatten, List.length_flatten, List.map_map]
    exact List.sum_le_sum fun line _ => length_le_reread line
  · intro field hfield h
    obtain ⟨line, more, rfl⟩ := List.exists_cons_of_ne_nil (groups_ne_nil _ hfield)
    exact ne_nil_of_mem_rawFields hfield List.mem_cons_self (List.append_eq_nil_iff.mp h).1

/-- One field passes as it is. -/
theorem field_intact_iff {raw : Bytes} {field : List Bytes}
    (hfield : field ∈ rawFields (headLines raw)) :
    (keepsRaw names field = true → keptByName names field = true ∧
      (field.map reread).flatten = field.flatten) ↔
      (field.head?.any startsFolded = true → keptByName names field = true) ∧
      (keptByName names field = true → ∀ line ∈ field, (fromUtf8 line).isSome = true) := by
  rw [flatten_reread_iff fun line hline => ne_nil_of_mem_rawFields hfield hline]
  unfold keepsRaw
  cases keptByName names field <;> cases field.head?.any startsFolded <;> simp

/-- The other fields pass with their bytes under exactly these conditions. -/
theorem headOf_relay_iff (hnames : names.contains [] = false) (hinjected : ∃ p,
      encode injected = p ++ [10])
    (raw : Bytes) :
    headOf (relay names injected raw) = encode injected
        ++ ((rawFields (headLines raw)).filter (keptByName names)).flatten.flatten ↔
      PassesIntact names injected raw := by
  by_cases hblank : ∀ line ∈ splitInclusive 10 (encode injected), isBlank line = false
  · obtain ⟨tail, hhead, htail'⟩ := headOf_relay hnames hinjected hblank raw
    rw [hhead, List.append_assoc, List.append_cancel_left_eq, stripRaw_fields_iff]
    constructor
    · rintro ⟨htail, hall⟩
      have hall := fun field h => (field_intact_iff h).mp (hall field h)
      refine ⟨hblank, fun field h => (hall field h).2, fun field h => (hall field h).1, ?_⟩
      intro hnone field hlast hkept
      rw [headLines_eq hnone] at hlast
      by_contra hend
      rcases htail' with ⟨hclosed, -⟩ | ⟨-, hcrlf⟩
      · exact hclosed ((openEnd_iff names raw).mpr
          ⟨hnone, field, hlast, by unfold keepsRaw; rw [hkept, Bool.or_true], hend⟩)
      · exact nomatch htail.symm.trans hcrlf
    · intro h
      refine ⟨?_, fun field hmem => (field_intact_iff hmem).mpr
        ⟨h.top field hmem, h.text field hmem⟩⟩
      rcases htail' with ⟨-, htail⟩ | ⟨hopen, -⟩
      · exact htail
      · obtain ⟨hnone, field, hlast, hkept, hend⟩ := (openEnd_iff names raw).mp hopen
        rw [← headLines_eq hnone] at hlast
        refine absurd (h.closed hnone field hlast ?_) hend
        cases hname : keptByName names field with
        | true => rfl
        | false =>
            unfold keepsRaw at hkept
            rw [hname, Bool.or_false] at hkept
            rw [← hname]
            exact h.top field (List.mem_of_getLast? hlast) hkept
  · constructor
    · intro h
      have hlen : (headOf (relay names injected raw)).length < _ :=
        headOf_relay_blank hinjected hblank raw
      rw [h, List.length_append] at hlen
      omega
    · exact fun h => absurd h.noBlank hblank

end

/-! ## The rewriters -/

/-- The header block of a rewritten message is the injected one and the other fields as they
were, in exactly these cases. -/
theorem rewrite_fields_iff (raw : Bytes) :
    (∀ params : ForwardRewrite, headOf (rewriteForForward raw params) = encode params.injected
        ++ ((rawFields (headLines raw)).filter (keptByName strippedHeaders)).flatten.flatten ↔
      PassesIntact strippedHeaders params.injected raw) ∧
    ∀ params : ReplyRewrite, headOf (rewriteForReply raw params) = encode params.injected
        ++ ((rawFields (headLines raw)).filter (keptByName replyStripped)).flatten.flatten ↔
      PassesIntact replyStripped params.injected raw := by
  constructor
  · intro params
    rw [rewriteForForward_eq]
    exact headOf_relay_iff strippedHeaders_nil params.injected_ended raw
  · intro params
    rw [rewriteForReply_eq]
    exact headOf_relay_iff replyStripped_nil params.injected_ended raw

/-- One byte that is not UTF-8 in a field that no one asked to touch. -/
theorem rewrite_alters_octets :
    ¬ ∀ (raw : Bytes) (params : ForwardRewrite), headLines raw ≠ [] →
      headOf (rewriteForForward raw params) = encode params.injected
        ++ ((rawFields (headLines raw)).filter
          (keptByName strippedHeaders)).flatten.flatten := by
  intro h
  -- `Subject: Grüße` in Latin-1
  have h := h ([83, 117, 98, 106, 101, 99, 116, 58, 32, 71, 114, 252, 223, 101] ++ crlf ++
    crlf) ⟨"shop@example.com", "ct.a1b2@example.com", none, "support@shop.example"⟩
      (by decide +kernel)
  exact absurd h (by decide +kernel)

end Weiterleitung
