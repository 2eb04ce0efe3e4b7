/-
# `Smtp.Unforged` — can a message forge the fields of the service?

The rewriters put fields of their own in front of what they leave of the header block.  Such a
field can be trusted if it is there once, is read with the value that was written, and is one
line (`Unforged`).  A message spoils that

    with a field of that name, where the stripping does not take it
    with a folded line at its top: it goes on with the last field that is put in front
    with a carriage return in the name of the sender

and the operator with line ends or white space in the settings that a reverse alias is made of.
Nothing else does                           (`unforged_iff`, `injected_unforged_iff`).
The first of the three is a slip: what a forward puts in front as `X-Weiterleitung-Sender` is
stripped from replies only.
-/
import Mathlib
import Weiterleitung.Smtp.Agree
import Weiterleitung.Smtp.Body
import Weiterleitung.Smtp.FromHeader
import Weiterleitung.Smtp.Replaced

namespace Weiterleitung

open Text Utf8 Lines Unicode Prog

/-! ## Fields that can be trusted -/

/-- The name a field is stripped by. -/
def lowered (field : Str × Str) : Str := toLowercase (trim field.1)

/-- The fields are in the message once each, are read as they were
written, and are one line each. -/
structure Unforged (fields : Fields) (out : Bytes) : Prop where
  once : ∀ field ∈ fields, (fieldsNamed (lowered field) (headOf out)).length = 1
  value : ∀ field ∈ fields, headerValue (splitHeadersBody out).1 field.1 = some field.2
  oneLine : ∀ field ∈ fields, '\r' ∉ field.2 ∧ '\n' ∉ field.2

/-- A value on one line with nothing to trim. -/
structure Tidy (value : Str) : Prop where
  noCr : '\r' ∉ value
  noLf : '\n' ∉ value
  trimmed : trim value = value

/-- Names of fields of which none is read or counted for another. -/
structure Fields.Apart (fields : Fields) : Prop where
  names : ∀ field ∈ fields, isFieldName field.1 = true ∧
    eqIgnoreAsciiCase (trim field.1) field.1 = true
  lowered : (fields.map lowered).Nodup
  read : fields.Pairwise fun field other => eqIgnoreAsciiCase (trim field.1) other.1 = false

/-! ## The lines of what is written -/

theorem reread_ended (line : Bytes) : reread (ended line) = ended (reread line) := by
  have hcr : reread (line ++ [13]) = reread line ++ [13] := by
    unfold reread
    rw [lossy_append_ascii (by decide), encode_append]
    rfl
  have hform : ∀ l : Bytes, ended l = (l ++ [13]) ++ [10] := by
    intro l
    simp [ended, crlf]
  rw [hform, reread_closed, hcr, hform]

/-- Lines of which the first is not empty are split at the first empty one. -/
theorem splitHeadersBody_head {lines : List Bytes} (hlines : ∀ line ∈ lines, 10 ∉ line)
    (hfirst : lines.head? ≠ some []) :
    (splitHeadersBody (unlines lines)).1 = headOf (unlines lines) := by
  obtain ⟨headers, body, hsplit, htail, hcases⟩ := splitHeadersBody_payload hlines
  have hempty : [] ∉ headers := by
    cases headers with
    | nil => exact List.not_mem_nil
    | cons first headers =>
        have hne : first ≠ [] := by
          rintro rfl
          rcases hcases with ⟨rfl, -⟩ | ⟨-, rfl⟩ <;> exact hfirst rfl
        intro hmem
        rcases List.mem_cons.mp hmem with h | h
        · exact hne h.symm
        · exact htail h
  have hhead : (headers.map ended).takeWhile (!isBlank ·) = headers.map ended :=
    List.takeWhile_eq_self_iff.mpr fun line h => by simp [not_isBlank_ended hempty line h]
  unfold headOf headLines
  rw [hsplit, splitInclusive_unlines hlines]
  show unlines headers = _
  rw [unlines_eq]
  rcases hcases with ⟨rfl, -⟩ | ⟨-, rfl⟩
  · rw [hhead]
  · rw [List.map_append, List.map_cons,
      takeWhile_append_mark (p := (!isBlank ·)) (by rw [(isBlank_ended []).mpr rfl]; rfl),
      hhead]

section
variable {names : List Str} {fields : Fields}

theorem Fields.text_unlines (fields : Fields) :
    encode fields.text.flatten
      = unlines (fields.map fun field => encode (field.1 ++ ": ".toList ++ field.2)) := by
  have hline : ∀ field : Str × Str,
      encode (headerLine field.1 field.2)
        = ended (encode (field.1 ++ ": ".toList ++ field.2)) := by
    intro field
    unfold headerLine
    rw [encode_append]
    rfl
  unfold Fields.text
  rw [encode_flatten, unlines_eq, List.map_map, List.map_map]
  exact congrArg _ (List.map_congr_left fun field _ => hline field)

/-- What is written for a payload is again lines that end in CR LF, and starts with a field. -/
theorem exists_relay_lines (names : List Str) (hfields : fields.Lined)
    (hne : fields ≠ []) {lines : List Bytes} (hlines : ∀ line ∈ lines, 10 ∉ line) :
    ∃ out, (∀ line ∈ out, 10 ∉ line) ∧ out.head? ≠ some [] ∧
      relay names fields.text.flatten (unlines lines) = unlines out := by
  obtain ⟨headers, body, hsplit, -, hcases⟩ := splitHeadersBody_payload hlines
  have hheaders : ∀ line ∈ headers, 10 ∉ line := by
    intro line h
    rcases hcases with ⟨rfl, -⟩ | ⟨-, rfl⟩
    · exact hlines line h
    · exact hlines line (List.mem_append_left _ h)
  have hbody : ∀ line ∈ body, 10 ∉ line := by
    intro line h
    rcases hcases with ⟨-, rfl⟩ | ⟨-, rfl⟩
    · cases h
    · exact hlines line (by simp [h])
  obtain ⟨kept, hkept, hstrip⟩ : ∃ kept, strip (startsFolded ∘ ended)
      ((fun line => names.contains (headerName (fromUtf8Lossy line))) ∘ ended)
      false headers = kept ∧
      stripRaw names false (headers.map ended) = kept.map ended :=
        ⟨_, rfl, strip_map ended headers false⟩
  have hin : ∀ line ∈ kept, line ∈ headers := by
    rw [← hkept]
    exact fun line h => (strip_sublist headers false).subset h
  refine ⟨fields.map (fun field => encode (field.1 ++ ": ".toList ++ field.2)) ++
    kept.map reread ++ [] :: body, ?_, ?_, ?_⟩
  · intro line hline
    rcases List.mem_append.mp hline with hline | hline
    · rcases List.mem_append.mp hline with hline | hline
      · obtain ⟨field, hfield, rfl⟩ := List.mem_map.mp hline
        obtain ⟨hname, hvalue⟩ := hfields field hfield
        have hname := not_mem_of_isFieldName hname (c := '\n') (by decide)
        intro h
        have hmem := mem_encode_ascii (c := '\n') (by decide) h
        simp [hname, hvalue] at hmem
      · obtain ⟨line, hmem, rfl⟩ := List.mem_map.mp hline
        exact not_mem_reread (hheaders line (hin line hmem))
    · rcases List.mem_cons.mp hline with rfl | hline
      · exact List.not_mem_nil
      · exact hbody line hline
  · obtain ⟨field, fields, rfl⟩ := List.exists_cons_of_ne_nil hne
    intro h
    have hcolon : (58 : UInt8) ∈ encode (field.1 ++ ": ".toList ++ field.2) := by
      rw [encode_append, encode_append]
      exact List.mem_append_left _ (List.mem_append_right _ (by decide))
    have hnil : encode (field.1 ++ ": ".toList ++ field.2) = [] := Option.some.inj h
    rw [hnil] at hcolon
    cases hcolon
  · unfold relay
    rw [hsplit, stripHeaders_eq_raw, splitInclusive_unlines hheaders, Fields.text_unlines]
    rw [hstrip, unlines_append, unlines_append, List.map_map]
    have hreread : (kept.map (reread ∘ ended)).flatten = unlines (kept.map reread) := by
      rw [unlines_eq, List.map_map]
      exact congrArg _ (List.map_congr_left fun line _ => reread_ended line)
    rw [hreread, List.append_assoc _ crlf]
    rfl

/-- The last line of a payload is closed. -/
theorem not_openEnd_payload {lines : List Bytes} (hlines : ∀ line ∈ lines, 10 ∉ line) :
    ¬ OpenEnd names (unlines lines) := by
  rintro ⟨-, kept, last, hstrip, hlast⟩
  rw [splitInclusive_unlines hlines] at hstrip
  have hmem : last ∈ lines.map ended := (stripRaw_sublist names false _).subset
    (by rw [hstrip]; simp)
  obtain ⟨line, -, rfl⟩ := List.mem_map.mp hmem
  exact hlast (by simp [ended, crlf])

/-- The header block that is written for a payload: the fields that are put in front, and what
is left of the one that was found. -/
theorem textLines_relay (hnames : names.contains [] = false) (hfields : fields.Lined)
    (hended : ∃ p, encode fields.text.flatten = p ++ [10]) {lines : List Bytes}
    (hlines : ∀ line ∈ lines, 10 ∉ line) :
    textLines (relay names fields.text.flatten (unlines lines))
      = fields.text ++ stripLines names false (textLines (unlines lines)) := by
  obtain ⟨written, hhead, hwritten⟩ :=
    headLines_relay hnames hended hfields.noBlank (unlines lines)
  rcases hwritten with ⟨-, rfl⟩ | ⟨hopen, -⟩
  · have hread : fields.text.map (fromUtf8Lossy ∘ encode) = fields.text.map id :=
      List.map_congr_left fun line _ => lossy_encode line
    have hreread : ∀ kept : List Bytes, (kept.map reread).map fromUtf8Lossy
        = kept.map fromUtf8Lossy := by
      intro kept
      rw [List.map_map]
      exact List.map_congr_left fun line _ => lossy_encode _
    unfold textLines
    rw [hhead, hfields.split, List.map_append, List.map_map, hread, List.map_id,
      hreread, ← stripLines_map]
  · exact absurd hopen (not_openEnd_payload hlines)

/-! ## How often a field is there -/

theorem isNamed_headerLine {name : Str} {field : Str × Str}
    (hname : isFieldName field.1 = true) :
    isNamed name (headerLine field.1 field.2) = decide (lowered field = name) := by
  unfold isNamed lowered
  rw [isContinuation_headerLine hname, headerName_headerLine hname]
  rfl

theorem length_fieldsNamed (name : Str) (raw : Bytes) :
    (fieldsNamed name (headOf raw)).length = (textLines raw).countP (isNamed name) := by
  unfold fieldsNamed
  rw [headerFields_headOf]
  refine length_filter_groups (fun line h => ?_) _
  unfold isNamed at h
  simp only [Bool.and_eq_true, Bool.not_eq_true'] at h
  exact h.1

/-- A name is there as often as it is put in front, and as often as the payload has
it if it is not stripped. -/
theorem length_fieldsNamed_relay (hnames : names.contains [] = false) (hfields : fields.Lined)
    (hended : ∃ p, encode fields.text.flatten = p ++ [10]) {lines : List Bytes}
    (hlines : ∀ line ∈ lines, 10 ∉ line) (name : Str) :
    (fieldsNamed name (headOf (relay names fields.text.flatten (unlines lines)))).length
      = (fields.map lowered).count name
        + if names.contains name then 0
          else (fieldsNamed name (headOf (unlines lines))).length := by
  have hput : fields.text.countP (isNamed name) = (fields.map lowered).count name := by
    unfold Fields.text
    rw [List.count, List.countP_map, List.countP_map]
    refine List.countP_congr fun field hfield => ?_
    rw [Function.comp_apply, isNamed_headerLine (hfields field hfield).1]
    simp
  rw [length_fieldsNamed, textLines_relay hnames hfields hended hlines, List.countP_append,
    hput, stripLines_eq_strip, length_fieldsNamed]
  congr 1
  cases hname : names.contains name with
  | true =>
      -- no line with the name is left
      rw [if_pos rfl, List.countP_eq_zero]
      intro line hline hnamed
      unfold isNamed at hnamed
      simp only [Bool.and_eq_true, Bool.not_eq_true', decide_eq_true_eq] at hnamed
      have hkept := not_hit_of_mem_strip _ hline hnamed.1
      rw [hnamed.2, hname] at hkept
      cases hkept
  | false =>
      rw [if_neg (by decide)]
      refine countP_strip (fun line hnamed => ?_) _ false
      unfold isNamed at hnamed
      simp only [Bool.and_eq_true, Bool.not_eq_true', decide_eq_true_eq] at hnamed
      exact ⟨hnamed.1, by rw [hnamed.2, hname]⟩

/-! ## With which value a field is read -/

theorem trim_headerLine (value : Str) : trim (' ' :: value ++ "\r\n".toList) = trim value := by
  have hspace : "\r\n".toList.all isWhitespace = true := by decide
  rw [trim_append_space _ (List.all_eq_true.mp hspace)]
  rfl

/-- A field with the name is found. -/
theorem headerValueLines_field {name : Str} {field : Str × Str}
    (hname : isFieldName field.1 = true)
    (hread : eqIgnoreAsciiCase (trim field.1) name = true) (rest : List Str) :
    headerValueLines name none (headerLine field.1 field.2 :: rest) = headerValueLines name
      (some (trim field.2)) rest := by
  have hsplit : splitOnce ':' (headerLine field.1 field.2)
      = some (field.1, ' ' :: field.2 ++ "\r\n".toList) := by
    rw [headerLine_eq]
    exact splitOnce_append _ (not_mem_of_isFieldName hname (by decide))
  rw [headerValueLines, isContinuation_headerLine hname, if_neg (by decide), hsplit]
  dsimp only
  rw [if_pos hread, trim_headerLine]

/-- Fields with other names are passed over. -/
theorem headerValueLines_others {name : Str} {others : Fields}
    (hnames : ∀ field ∈ others, isFieldName field.1 = true)
    (hread : ∀ field ∈ others, eqIgnoreAsciiCase (trim field.1) name = false)
    (rest : List Str) :
    headerValueLines name none (others.text ++ rest) = headerValueLines name none rest := by
  induction others with
  | nil => rfl
  | cons field others ih =>
      have hname := hnames field List.mem_cons_self
      have hsplit : splitOnce ':' (headerLine field.1 field.2)
          = some (field.1, ' ' :: field.2 ++ "\r\n".toList) := by
        rw [headerLine_eq]
        exact splitOnce_append _ (not_mem_of_isFieldName hname (by decide))
      have ih := ih (fun f h => hnames f (List.mem_cons_of_mem _ h)) fun f h => hread f
        (List.mem_cons_of_mem _ h)
      rw [← ih]
      show headerValueLines name none
        (headerLine field.1 field.2 :: (Fields.text others ++ rest)) = _
      rw [headerValueLines, isContinuation_headerLine hname, if_neg (by decide), hsplit]
      dsimp only
      rw [if_neg (by rw [hread field List.mem_cons_self]; decide)]

/-- Continuation lines only add to a value. -/
theorem headerValueLines_grows (name : Str) (lines : List Str) : ∀ value : Str,
    ∃ more, headerValueLines name (some value) lines = some (value ++ more) := by
  induction lines with
  | nil => exact fun value => ⟨[], by rw [List.append_nil]; rfl⟩
  | cons line lines ih =>
      intro value
      rw [headerValueLines]
      cases hcont : isContinuation line with
      | true =>
          obtain ⟨more, hmore⟩ := ih (value ++ ' ' :: trim line)
          refine ⟨' ' :: trim line ++ more, ?_⟩
          rw [if_pos rfl, hmore, List.append_assoc]
      | false => exact ⟨[], by rw [List.append_nil]; rfl⟩

/-- A value that was found is the one that is read, unless a continuation line follows. -/
theorem headerValueLines_some_iff (name value : Str) (lines : List Str) :
    headerValueLines name (some value) lines = some value ↔
    lines.head?.any isContinuation = false := by
  cases lines with
  | nil => exact iff_of_true rfl rfl
  | cons line lines =>
      rw [headerValueLines, List.head?_cons, Option.any_some]
      cases hcont : isContinuation line with
      | true =>
          refine iff_of_false ?_ (by decide)
          obtain ⟨more, hmore⟩ := headerValueLines_grows name lines (value ++ ' ' :: trim line)
          rw [if_pos rfl, hmore, Option.some.injEq, List.append_assoc,
            List.append_right_eq_self]
          exact List.cons_ne_nil _ _
      | false => exact iff_of_true rfl rfl

/-- A field that another one follows is read as it was written, but for
white space at the ends. -/
theorem headerValueLines_front {front : Fields} {last field : Str × Str}
    (hapart : Fields.Apart (front ++ [last])) (hfield : field ∈ front) (rest : List Str) :
    headerValueLines field.1 none (Fields.text (front ++ [last]) ++ rest)
      = some (trim field.2) := by
  obtain ⟨before, after, rfl⟩ := List.append_of_mem hfield
  have hform : before ++ field :: after ++ [last] = before ++ field ::
      (after ++ [last]) := by simp
  rw [hform] at hapart ⊢
  obtain ⟨next, more, hnext⟩ : ∃ next more, after ++ [last] = next :: more :=
    List.exists_cons_of_ne_nil (List.append_ne_nil_of_right_ne_nil _ (List.cons_ne_nil _ _))
  rw [hnext] at hapart ⊢
  have hbefore := (List.pairwise_append.mp hapart.read).2.2
  have htext : Fields.text (before ++ field :: next :: more) ++ rest
      = Fields.text before ++ headerLine field.1 field.2 :: headerLine next.1 next.2 ::
        (Fields.text more ++ rest) := by
    simp [Fields.text]
  have hname := hapart.names field (by simp)
  rw [htext, headerValueLines_others (fun f h => (hapart.names f (by simp [h])).1)
    (fun f h => hbefore f h field List.mem_cons_self), headerValueLines_field hname.1 hname.2,
    headerValueLines_some_iff]
  exact isContinuation_headerLine (hapart.names next (by simp)).1

/-- The last field goes on with the lines that follow. -/
theorem headerValueLines_last {front : Fields} {last : Str × Str}
    (hapart : Fields.Apart (front ++ [last])) (rest : List Str) :
    headerValueLines last.1 none (Fields.text (front ++ [last]) ++ rest)
      = headerValueLines last.1 (some (trim last.2)) rest := by
  have hfront := (List.pairwise_append.mp hapart.read).2.2
  have htext : Fields.text (front ++ [last]) ++ rest = Fields.text front ++
      headerLine last.1 last.2 :: rest := by
    simp [Fields.text]
  have hname := hapart.names last (by simp)
  rw [htext, headerValueLines_others (fun f h => (hapart.names f (by simp [h])).1)
    (fun f h => hfront f h last (by simp)), headerValueLines_field hname.1 hname.2]

/-- What a payload has at its top is what is left of it there. -/
theorem head_textLines (raw : Bytes) :
    (stripLines names false (textLines raw)).head?.any isContinuation
      = (headLines raw).head?.any startsFolded := by
  rw [stripLines_eq_strip, head_strip]
  unfold textLines
  rw [List.head?_map]
  cases (headLines raw).head? with
  | none => rfl
  | some line => exact isContinuation_lossy line

/-! ## When the fields are unforged -/

/-- The fields that are put in front of a payload are unforged exactly if their values are
tidy, the payload has none of them that is not stripped, and does not
start with a folded line. -/
theorem unforged_iff (hnames : names.contains [] = false) (hended : ∃ p,
      encode fields.text.flatten = p ++ [10])
    {front : Fields} {last : Str × Str} (hsplit : fields = front ++ [last])
    (hapart : fields.Apart) (hlast : trim last.2 = last.2) {lines : List Bytes}
    (hlines : ∀ line ∈ lines, 10 ∉ line) :
    Unforged fields (relay names fields.text.flatten (unlines lines)) ↔
      (∀ field ∈ fields, Tidy field.2) ∧
        (∀ field ∈ fields, names.contains (lowered field) = false → fieldsNamed (lowered field)
          (headOf (unlines lines)) = []) ∧
        (headLines (unlines lines)).head?.any startsFolded = false := by
  by_cases hlf : ∀ field ∈ fields, '\n' ∉ field.2
  · have hfields : fields.Lined := fun field h => ⟨(hapart.names field h).1, hlf field h⟩
    have hcount := length_fieldsNamed_relay hnames hfields hended hlines
    have hone : ∀ field ∈ fields, (fields.map lowered).count (lowered field) = 1 :=
      fun field h =>
      List.count_eq_one_of_mem hapart.lowered (List.mem_map_of_mem h)
    have hread : ∀ name,
        headerValue (splitHeadersBody (relay names fields.text.flatten (unlines lines))).1 name
        = headerValueLines name none
          (fields.text ++ stripLines names false (textLines (unlines lines))) := by
      intro name
      obtain ⟨out, hout, hfirst, hrelay⟩ := exists_relay_lines names hfields
        (by rw [hsplit]; simp) hlines
      rw [hrelay, splitHeadersBody_head hout hfirst, ← hrelay, headerValue,
        splitInclusive_headOf, textLines_relay hnames hfields hended hlines]
    subst hsplit
    constructor
    · intro h
      have hvalue := h.value last (by simp)
      rw [hread, headerValueLines_last hapart, hlast, headerValueLines_some_iff,
        head_textLines] at hvalue
      refine ⟨fun field hfield => ?_, fun field hfield hname => ?_, hvalue⟩
      · obtain ⟨hcr, hlf⟩ := h.oneLine field hfield
        refine ⟨hcr, hlf, ?_⟩
        rcases List.mem_append.mp hfield with hfront | hfront
        · have hvalue := h.value field hfield
          rw [hread, headerValueLines_front hapart hfront] at hvalue
          exact Option.some.inj hvalue
        · rw [List.mem_singleton.mp hfront]
          exact hlast
      · have honce := h.once field hfield
        rw [hcount, hone field hfield, hname, if_neg (by decide)] at honce
        exact List.eq_nil_of_length_eq_zero (by omega)
    · rintro ⟨htidy, hnone, htop⟩
      refine ⟨fun field hfield => ?_, fun field hfield => ?_, fun field hfield => ?_⟩
      · rw [hcount, hone field hfield]
        cases hname : names.contains (lowered field) with
        | true => rfl
        | false => rw [hnone field hfield hname]; rfl
      · rw [hread]
        rcases List.mem_append.mp hfield with hfront | hfront
        · rw [headerValueLines_front hapart hfront, (htidy field hfield).trimmed]
        · rw [List.mem_singleton.mp hfront, headerValueLines_last hapart, hlast,
            headerValueLines_some_iff, head_textLines, htop]
      · exact ⟨(htidy field hfield).noCr, (htidy field hfield).noLf⟩
  · -- a line feed in a value spoils both
    refine iff_of_false (fun h => hlf fun field hfield => (h.oneLine field hfield).2) ?_
    exact fun h => hlf fun field hfield => (h.1 field hfield).noLf

end

/-! ## Values that are tidy -/

theorem tidy_of_plain {s : Str} (h : ∀ c ∈ s, EmailAddress.Plain c) : Tidy s where
  noCr hm := absurd (h _ hm) (by decide)
  noLf hm := absurd (h _ hm) (by decide)
  trimmed := trim_eq_self.mpr
    ⟨fun c hc => (h c (List.mem_of_mem_head? hc)).1,
      fun c hc => (h c (List.mem_of_mem_getLast? hc)).1⟩

theorem tidy_of_isNormalised {s : Str} (h : IsNormalised s) : Tidy s := by
  obtain ⟨e, rfl⟩ := h
  exact tidy_of_plain fun c hc => e.mem_normalised hc

theorem tidy_toString (e : EmailAddress) : Tidy e.toString :=
  tidy_of_plain fun _ hc => by_contra fun hplain => not_mem_toString e hplain hc

/-- What is configured of an address has no line end, and no white space where the
address starts and ends. -/
structure AliasSettings.Neat (settings : AliasSettings) : Prop where
  oneLine : '\r' ∉ settings.reverseAliasPrefix ++ settings.defaultDomain ∧
    '\n' ∉ settings.reverseAliasPrefix ++ settings.defaultDomain
  front : ∀ c, settings.reverseAliasPrefix.head? = some c → isWhitespace c = false
  back : ∀ c, settings.defaultDomain.getLast? = some c → isWhitespace c = false

/-- A reverse alias is tidy exactly if the settings are neat. -/
theorem tidy_reverseAlias_iff {settings : AliasSettings} {r : Str}
    (h : IsReverseAlias settings r) :
    Tidy r ↔ settings.Neat := by
  obtain ⟨symbols, rfl⟩ := h
  have hmem : ∀ c : Char, ¬ EmailAddress.Plain c →
      (c ∉ composeReverseAlias settings.reverseAliasPrefix
        (tokenOf symbols) settings.defaultDomain ↔
        c ∉ settings.reverseAliasPrefix ++ settings.defaultDomain) := by
    intro c hc
    have htoken : c ∉ tokenOf symbols := fun h => hc (mem_tokenOf h).1
    have hdot : c ≠ '.' := by rintro rfl; exact hc (by decide)
    have hat : c ≠ '@' := by rintro rfl; exact hc (by decide)
    unfold composeReverseAlias
    simp [htoken, hdot, hat]
  have hfront :
      (∀ c, (composeReverseAlias settings.reverseAliasPrefix (tokenOf symbols)
        settings.defaultDomain).head? = some c → isWhitespace c = false) ↔
      ∀ c, settings.reverseAliasPrefix.head? = some c → isWhitespace c = false := by
    unfold composeReverseAlias
    cases settings.reverseAliasPrefix with
    | nil =>
        refine iff_of_true (fun c hc => ?_) nofun
        cases hc
        decide
    | cons c p => exact Iff.rfl
  have hback :
      (∀ c, (composeReverseAlias settings.reverseAliasPrefix (tokenOf symbols)
        settings.defaultDomain).getLast? = some c → isWhitespace c = false) ↔
      ∀ c, settings.defaultDomain.getLast? = some c → isWhitespace c = false := by
    unfold composeReverseAlias
    rw [List.getLast?_append, List.getLast?_cons, Option.some_or]
    cases settings.defaultDomain.getLast? with
    | none =>
        refine iff_of_true (fun c hc => ?_) nofun
        cases hc
        decide
    | some c => exact Iff.rfl
  constructor
  · rintro ⟨hcr, hlf, htrim⟩
    obtain ⟨hhead, hlast⟩ := trim_eq_self.mp htrim
    exact ⟨⟨(hmem _ (by decide)).mp hcr, (hmem _ (by decide)).mp hlf⟩,
      hfront.mp hhead, hback.mp hlast⟩
  · rintro ⟨⟨hcr, hlf⟩, hhead, hlast⟩
    exact ⟨(hmem _ (by decide)).mpr hcr, (hmem _ (by decide)).mpr hlf,
      trim_eq_self.mpr ⟨hfront.mpr hhead, hback.mpr hlast⟩⟩

/-! ## The name of the sender -/

/-- A line feed at the end of a line is trimmed. -/
theorem not_mem_trim_line {line : Str} (h : '\n' ∉ line.dropLast) : '\n' ∉ trim line := by
  rcases List.eq_nil_or_concat' line with rfl | ⟨l, c, rfl⟩
  · exact List.not_mem_nil
  · rw [List.dropLast_concat] at h
    by_cases hc : isWhitespace c = true
    · rw [trim_append_space l (by simpa using hc)]
      exact fun hm => h (mem_trim hm)
    · have hne : '\n' ≠ c := by rintro rfl; exact hc (by decide)
      intro hm
      rcases List.mem_append.mp (mem_trim hm) with hm | hm
      · exact h hm
      · exact hne (List.mem_singleton.mp hm)

theorem headerValueLines_oneLine {name : Str} {lines : List Str}
    (hlines : ∀ line ∈ lines, '\n' ∉ line.dropLast) :
    ∀ value : Option Str, (∀ v, value = some v → '\n' ∉ v) →
      ∀ v, headerValueLines name value lines = some v → '\n' ∉ v := by
  induction lines with
  | nil => exact fun _ h => h
  | cons line lines ih =>
      intro value hvalue v hv
      have ih := ih fun l hl => hlines l (List.mem_cons_of_mem _ hl)
      have hline := hlines line List.mem_cons_self
      cases value with
      | some w =>
          have hw := hvalue w rfl
          rw [headerValueLines] at hv
          cases hcont : isContinuation line with
          | true =>
              rw [hcont, if_pos rfl] at hv
              refine ih _ (fun u hu => ?_) v hv
              cases hu
              have htrim := not_mem_trim_line hline
              simp [hw, htrim]
          | false =>
              rw [hcont, if_neg (by decide)] at hv
              cases hv
              exact hw
      | none =>
          rw [headerValueLines] at hv
          cases hcont : isContinuation line with
          | true =>
              rw [hcont, if_pos rfl] at hv
              exact ih none nofun v hv
          | false =>
              rw [hcont, if_neg (by decide)] at hv
              cases hsplit : splitOnce ':' line with
              | none =>
                  rw [hsplit] at hv
                  exact ih none nofun v hv
              | some parts =>
                  rw [hsplit] at hv
                  dsimp only at hv
                  split at hv
                  · refine ih _ (fun u hu => ?_) v hv
                    cases hu
                    obtain ⟨rfl, -⟩ := splitOnce_eq_some.mp hsplit
                    refine not_mem_trim_line fun hm => hline ?_
                    rw [List.dropLast_append_of_ne_nil (List.cons_ne_nil _ _)]
                    refine List.mem_append_right _ ?_
                    cases hrest : parts.2 with
                    | nil => rw [hrest] at hm; cases hm
                    | cons c rest => rw [hrest] at hm; exact List.mem_cons_of_mem _ hm
                  · exact ih none nofun v hv

/-- A header value is one line, but for carriage returns. -/
theorem headerValue_oneLine {headers : Bytes} {name v : Str}
    (h : headerValue headers name = some v) : '\n' ∉ v := by
  refine headerValueLines_oneLine (fun line hline => ?_) none (fun u hu => nomatch hu) v h
  obtain ⟨l, hl, rfl | rfl⟩ := mem_splitInclusive '\n' _ hline
  · rw [List.dropLast_concat]
    exact hl
  · exact fun hm => hl (List.dropLast_subset _ hm)

/-- A display name is a part of the header, trimmed. -/
theorem displayName_part {header name : Str} (h : displayName header = some name) :
    trim name = name ∧ ∀ c ∈ name, c ∈ header := by
  cases hsplit : splitOnce '<' header with
  | none =>
      unfold displayName at h
      rw [hsplit] at h
      cases h
  | some parts =>
      obtain ⟨hheader, hmark⟩ := splitOnce_eq_some.mp hsplit
      rw [hheader, displayName_append parts.2 hmark] at h
      split at h
      · cases h
      · cases h
        refine ⟨trim_trim _, fun c hc => ?_⟩
        rw [hheader]
        exact List.mem_append_left _ (mem_of_mem_unquoted hc)

/-! ## The parameters of the router -/

/-- What `forward` derives from a message. -/
structure DerivedForward (settings : AliasSettings) (envelope : Envelope)
    (params : ForwardRewrite) : Prop where
  aliasAddress : IsNormalised params.aliasAddress
  reverseAlias : IsReverseAlias settings params.reverseAlias
  senderName : params.senderName = (headerValue (splitHeadersBody envelope.data).1 "from").bind
    displayName
  senderEmail : ∃ sender, envelopeSender envelope.mailFrom
    (headerValue (splitHeadersBody envelope.data).1 "from")
    = .ok sender ∧ params.senderEmail = sender.toString

/-- What `reply` derives from a message: addresses of the tables. -/
structure DerivedReply (params : ReplyRewrite) : Prop where
  aliasAddress : IsNormalised params.aliasAddress
  contactEmail : IsNormalised params.contactEmail

/-- The payload starts with a folded line. -/
def startsWithFolded (raw : Bytes) : Bool := (headLines raw).head?.any startsFolded

/-- What it takes for the fields of a forward to be unforged. -/
structure ForwardClear (settings : AliasSettings) (params : ForwardRewrite) (raw : Bytes) :
    Prop where
  top : startsWithFolded raw = false
  sender : fieldsNamed "x-weiterleitung-sender" (headOf raw) = []
  name : ∀ name, params.senderName = some name → '\r' ∉ name
  settings : settings.Neat

section
variable {settings : AliasSettings} {envelope : Envelope} {params : ForwardRewrite}

theorem DerivedForward.tidy_senderEmail (h : DerivedForward settings envelope params) :
    Tidy params.senderEmail := by
  obtain ⟨sender, -, he⟩ := h.senderEmail
  rw [he]
  exact tidy_toString sender

/-- The name of the sender has no line feed, and nothing to trim. -/
theorem DerivedForward.name_part (h : DerivedForward settings envelope params) {name : Str}
    (hname : params.senderName = some name) : trim name = name ∧ '\n' ∉ name := by
  rw [h.senderName] at hname
  obtain ⟨header, hheader, hdisplay⟩ := Option.bind_eq_some_iff.mp hname
  obtain ⟨htrim, hpart⟩ := displayName_part hdisplay
  exact ⟨htrim, fun hm => headerValue_oneLine hheader (hpart _ hm)⟩

theorem ForwardRewrite.at_mem_display (hat : '@' ∈ params.senderEmail) :
    '@' ∈ params.display := by
  unfold ForwardRewrite.display
  split
  · split
    · exact hat
    · exact List.mem_append_right _ hat
  · exact hat

/-- White space in what is shown comes from the name. -/
theorem ForwardRewrite.mem_display_iff {c : Char} (hdash : c ∉ " - ".toList)
    (hc : c ∉ params.senderEmail) :
    c ∈ params.display ↔ ∃ name, params.senderName = some name ∧ c ∈ trim name := by
  unfold ForwardRewrite.display
  cases params.senderName with
  | none => exact iff_of_false hc fun ⟨_, h, _⟩ => nomatch h
  | some name =>
      dsimp only
      split
      · next hempty =>
          refine iff_of_false hc ?_
          rintro ⟨name', h, hm⟩
          cases h
          rw [List.isEmpty_iff.mp hempty] at hm
          cases hm
      · rw [List.mem_append, List.mem_append, or_iff_left hc, or_iff_left hdash]
        constructor
        · exact fun h => ⟨name, rfl, h⟩
        · rintro ⟨name', h, hm⟩
          cases h
          exact hm

/-- The value of `From` has what the name and the address have. -/
theorem mem_quotedAddress_iff {display address : Str} (hat : '@' ∈ display) {c : Char}
    (hc : c ∈ ['\r', '\n']) :
    c ∈ quotedAddress display address ↔ c ∈ display ∨ c ∈ address := by
  have hquote : display.any (fun c => c ∈ ['<', '>', '(', ')', ',', ':', ';', '@', '"', '.'])
      = true :=
    List.any_eq_true.mpr ⟨'@', hat, by decide⟩
  rw [quotedAddress_eq address hquote]
  unfold quotedFrom
  simp only [List.mem_cons, List.not_mem_nil, or_false] at hc
  rcases hc with rfl | rfl
  · simp [mem_escaped]
  · simp [mem_escaped]

theorem trim_quotedAddress {display : Str} (hat : '@' ∈ display) (address : Str) :
    trim (quotedAddress display address) = quotedAddress display address := by
  have hquote : display.any (fun c => c ∈ ['<', '>', '(', ')', ',', ':', ';', '@', '"', '.'])
      = true :=
    List.any_eq_true.mpr ⟨'@', hat, by decide⟩
  rw [quotedAddress_eq address hquote, trim_eq_self]
  unfold quotedFrom
  constructor
  · intro c hc
    cases hc
    decide
  · intro c hc
    rw [show ">".toList = ['>'] from rfl, List.getLast?_concat] at hc
    cases hc
    decide

/-- Fields are apart if their names are. -/
theorem Fields.apart_of_names {fields : Fields} {ns : List Str} (h : fields.map Prod.fst = ns)
    (hnames : (ns.all fun n => isFieldName n && eqIgnoreAsciiCase (trim n) n) = true)
    (hlowered : (ns.map fun n => toLowercase (trim n)).Nodup)
    (hread : ns.Pairwise fun n m => eqIgnoreAsciiCase (trim n) m = false) : fields.Apart := by
  subst h
  refine ⟨fun field hfield => ?_, ?_, List.pairwise_map.mp hread⟩
  · have hname := List.all_eq_true.mp hnames field.1 (List.mem_map_of_mem hfield)
    exact (Bool.and_eq_true _ _).mp hname
  · rw [List.map_map] at hlowered
    exact hlowered

theorem ForwardRewrite.fields_apart (params : ForwardRewrite) : params.fields.Apart :=
  Fields.apart_of_names
    (show _ = (["From", "Reply-To", "X-Weiterleitung-Alias", "X-Weiterleitung-Sender"] : List
      Str) from rfl)
    (by decide) (by decide) (by decide)

theorem ReplyRewrite.fields_apart (params : ReplyRewrite) : params.fields.Apart :=
  Fields.apart_of_names (show _ = (["From", "To", "X-Weiterleitung-Alias"] : List Str) from
    rfl) (by decide) (by decide) (by decide)

/-- The values of a forward are tidy exactly if the name of the sender has no carriage return
and the settings are neat. -/
theorem DerivedForward.tidy_iff (h : DerivedForward settings envelope params) :
    (∀ field ∈ params.fields, Tidy field.2) ↔
      (∀ name, params.senderName = some name → '\r' ∉ name) ∧ settings.Neat := by
  have hemail := h.tidy_senderEmail
  have hat : '@' ∈ params.display := by
    obtain ⟨sender, -, he⟩ := h.senderEmail
    refine params.at_mem_display ?_
    rw [he]
    exact List.mem_append_right _ List.mem_cons_self
  have hcr : '\r' ∈ params.display ↔ ∃ name, params.senderName = some name ∧ '\r' ∈ name := by
    rw [params.mem_display_iff (by decide) hemail.noCr]
    refine exists_congr fun name => and_congr_right fun hname => ?_
    rw [(h.name_part hname).1]
  have hlf : '\n' ∉ params.display := by
    rw [params.mem_display_iff (by decide) hemail.noLf]
    rintro ⟨name, hname, hm⟩
    exact (h.name_part hname).2 (mem_trim hm)
  rw [← tidy_reverseAlias_iff h.reverseAlias]
  constructor
  · intro htidy
    have hfrom :=
      (htidy (_, quotedAddress params.display params.reverseAlias) List.mem_cons_self).noCr
    rw [mem_quotedAddress_iff hat (by decide), not_or, hcr] at hfrom
    refine ⟨fun name hname hm => hfrom.1 ⟨name, hname, hm⟩, ?_⟩
    exact htidy (_, params.reverseAlias) (List.mem_cons_of_mem _ List.mem_cons_self)
  · rintro ⟨hname, hreverse⟩ field hfield
    simp only [ForwardRewrite.fields, List.mem_cons, List.not_mem_nil, or_false] at hfield
    rcases hfield with rfl | rfl | rfl | rfl
    · refine ⟨?_, ?_, trim_quotedAddress hat _⟩
      · rw [mem_quotedAddress_iff hat (by decide), hcr]
        rintro (⟨name, hsome, hm⟩ | hm)
        · exact hname name hsome hm
        · exact hreverse.noCr hm
      · rw [mem_quotedAddress_iff hat (by decide)]
        exact fun hm => hm.elim hlf hreverse.noLf
    · exact hreverse
    · exact tidy_of_isNormalised h.aliasAddress
    · exact hemail

theorem ForwardRewrite.sender_mem_fields (params : ForwardRewrite) :
    ("X-Weiterleitung-Sender".toList, params.senderEmail) ∈ params.fields := by
  simp [ForwardRewrite.fields]

/-- Of the fields of a forward, one is not stripped. -/
theorem forward_unstripped (params : ForwardRewrite) (P : Str → Prop) :
    (∀ field ∈ params.fields, strippedHeaders.contains (lowered field) = false →
      P (lowered field)) ↔
      P "x-weiterleitung-sender".toList := by
  have hsender : toLowercase (trim "X-Weiterleitung-Sender")
      = "x-weiterleitung-sender".toList := by decide
  constructor
  · intro h
    have hlast := h _ params.sender_mem_fields
    unfold lowered at hlast
    dsimp only at hlast
    rw [hsender] at hlast
    exact hlast (by decide)
  · intro h field hfield hname
    have hothers : (["From", "Reply-To", "X-Weiterleitung-Alias"] : List Str).all
        fun n => strippedHeaders.contains (toLowercase (trim n)) := by decide
    have hother : ∀ f : Str × Str,
        f.1 ∈ (["From", "Reply-To", "X-Weiterleitung-Alias"] : List Str) →
        strippedHeaders.contains (lowered f) = true :=
          fun f hf => List.all_eq_true.mp hothers f.1 hf
    simp only [ForwardRewrite.fields, List.mem_cons, List.not_mem_nil, or_false] at hfield
    rcases hfield with rfl | rfl | rfl | rfl
    · rw [hother _ (by simp)] at hname
      cases hname
    · rw [hother _ (by simp)] at hname
      cases hname
    · rw [hother _ (by simp)] at hname
      cases hname
    · unfold lowered
      dsimp only
      rw [hsender]
      exact h

/-- All fields of a reply are stripped. -/
theorem reply_stripped (params : ReplyRewrite) :
    ∀ field ∈ params.fields, replyStripped.contains (lowered field) = true := by
  have hall : (["From", "To", "X-Weiterleitung-Alias"] : List Str).all
      fun n => replyStripped.contains (toLowercase (trim n)) := by decide
  intro field hfield
  exact List.all_eq_true.mp hall field.1 (List.mem_map_of_mem hfield (f := Prod.fst))

/-- The fields of a forward. -/
theorem forward_unforged_iff (h : DerivedForward settings envelope params) {lines : List Bytes}
    (hlines : ∀ line ∈ lines, 10 ∉ line) :
    Unforged params.fields (rewriteForForward (unlines lines) params) ↔
    ForwardClear settings params (unlines lines) := by
  have hended := params.injected_ended
  rw [rewriteForForward_eq]
  rw [params.injected_text] at hended ⊢
  rw [unforged_iff strippedHeaders_nil hended (show _ = params.fields.dropLast ++ [_] from rfl)
    params.fields_apart h.tidy_senderEmail.trimmed hlines, h.tidy_iff,
    forward_unstripped params fun name => fieldsNamed name (headOf (unlines lines)) = []]
  constructor
  · rintro ⟨⟨hname, hsettings⟩, hsender, htop⟩
    exact ⟨htop, hsender, hname, hsettings⟩
  · rintro ⟨htop, hsender, hname, hsettings⟩
    exact ⟨⟨hname, hsettings⟩, hsender, htop⟩

/-- The fields of a reply. -/
theorem reply_unforged_iff {params : ReplyRewrite} (h : DerivedReply params)
    {lines : List Bytes} (hlines : ∀ line ∈ lines, 10 ∉ line) :
    Unforged params.fields (rewriteForReply (unlines lines) params) ↔
    startsWithFolded (unlines lines) = false := by
  have hended := params.injected_ended
  have halias := tidy_of_isNormalised h.aliasAddress
  have htidy : ∀ field ∈ params.fields, Tidy field.2 := by
    intro field hfield
    simp only [ReplyRewrite.fields, List.mem_cons, List.not_mem_nil, or_false] at hfield
    rcases hfield with rfl | rfl | rfl
    · exact halias
    · exact tidy_of_isNormalised h.contactEmail
    · exact halias
  rw [rewriteForReply_eq]
  rw [params.injected_text] at hended ⊢
  rw [unforged_iff replyStripped_nil hended (show _ = params.fields.dropLast ++ [_] from rfl)
    params.fields_apart halias.trimmed hlines, and_iff_right htidy, and_iff_right ?_]
  · rfl
  · intro field hfield hname
    rw [reply_stripped params field hfield] at hname
    cases hname

end

/-! ## The messages that the router queues -/

/-- The payload, rewritten with parameters that are derived from it. -/
def Relayed (settings : AliasSettings) (envelope : Envelope) (raw : Bytes) : Prop :=
  (∃ params, DerivedForward settings envelope params ∧
    raw = rewriteForForward envelope.data params) ∨
    ∃ params, DerivedReply params ∧ raw = rewriteForReply envelope.data params

namespace AliasRouter

variable {router : AliasRouter}

/-- What is queued for a route that well-formed tables give, if they stay well formed. -/
theorem queueRoute_relayed {envelope : Envelope} {recipient : Str} {r : Route} {h : Host}
    (hr : router.resolve envelope.mailFrom recipient h.world.db = .ok r)
    (hwf : Wf router.aliases h.world.db)
    (hwf' : Wf router.aliases (exec perform (router.queueRoute envelope r) h).2.world.db) :
    (∃ e h', exec perform (router.queueRoute envelope r) h = (.error e, h')) ∨
    ∃ q h' message, exec perform (router.queueRoute envelope r) h = (.ok q, h') ∧
      Queued router.mailDir message h.world h'.world ∧
      Relayed router.aliases envelope message.raw := by
  cases r with
  | forward aliasId aliasAddress =>
      obtain ⟨_, found, -, -, -, hfound, -, -, rfl⟩ := resolve_forward hr
      obtain ⟨hmem, -⟩ := Db.findAliasByAddress_some hfound
      unfold queueRoute at hwf' ⊢
      rcases queueForward_cases router aliasId found.toAlias.address envelope h with
        ⟨e, h', he, -⟩ | ⟨_, _, sender, c, h', message, he, -, -, hsender, hc, -,
          -, -, -, -, hraw, hqueued⟩
      · exact Or.inl ⟨e, h', exec_bind_of_error perform he⟩
      · rw [exec_bind_of_ok perform he] at hwf'
        have hreverse : IsReverseAlias router.aliases c.reverseAlias :=
          (hwf'.contactForms c hc).2
        exact Or.inr ⟨_, h', message, exec_bind_of_ok perform he, hqueued,
          Or.inl ⟨_, ⟨hwf.aliasForms _ hmem, hreverse, rfl, sender, hsender, rfl⟩, hraw⟩⟩
  | reply contactId aliasAddress contactEmail =>
      obtain ⟨_, found, -, -, hfound, -, -, -, rfl, rfl⟩ := resolve_reply hr
      obtain ⟨hc, -, a, ha, haddress, -⟩ := Db.findContactByReverseAlias_some hfound
      unfold queueRoute
      rcases queueReply_cases router contactId found.aliasAddress
        found.toContact.email envelope h with
        ⟨e, h', he, -⟩ | ⟨_, h', message, he, -, -, -, -, -, hraw, hqueued⟩
      · exact Or.inl ⟨e, h', exec_bind_of_error perform he⟩
      · have halias : IsNormalised found.aliasAddress := by
          rw [haddress]
          exact hwf.aliasForms a (List.mem_of_find?_eq_some ha)
        exact Or.inr ⟨_, h', message, exec_bind_of_ok perform he, hqueued,
          Or.inr ⟨_, ⟨halias, (hwf.contactForms _ hc).1⟩, hraw⟩⟩

/-- A turn that succeeds has queued the payload, rewritten with parameters
that are derived from it. -/
theorem place_relayed (router : AliasRouter) (envelope : Envelope) (recipient : Str) {h : Host}
    (hreach : Reachable router.aliases h.world.db)
    {q : Option (Str × AliasCounter)}
    (hok : (exec perform (router.place envelope recipient) h).1 = .ok q) :
    ∃ message, Queued router.mailDir message h.world
      (exec perform (router.place envelope recipient) h).2.world ∧
      Relayed router.aliases envelope message.raw := by
  have hwf : Wf router.aliases (exec perform (router.place envelope recipient) h).2.world.db :=
    Reachable.wf
      (hreach.trans
        (later_exec (uses_mono legal_of_routing (uses_place envelope recipient)) h))
  rcases place_route router envelope recipient h
    with ⟨e, t, he, -⟩ | ⟨r, t, hr, hworld, hplace⟩
  · rw [he] at hok
    cases hok
  · rw [hplace] at hok hwf ⊢
    rw [← hworld] at hr hreach ⊢
    rcases hx : exec perform (router.queueRoute envelope r) t with ⟨e | q', u⟩
    · rw [exec_mapErr_error perform hx] at hok
      cases hok
    · rw [exec_mapErr_ok perform hx] at hwf ⊢
      rcases queueRoute_relayed hr hreach.wf (by rw [hx]; exact hwf) with
        ⟨e, h', he⟩ | ⟨q'', h', message, he, hqueued, hrelayed⟩
      · cases hx.symm.trans he
      · cases hx.symm.trans he
        exact ⟨message, hqueued, hrelayed⟩

end AliasRouter

/-- The fields that the service puts in front of a payload are unforged exactly if the payload
leaves them alone; and what the router queues are payloads with such fields in front. -/
theorem injected_unforged_iff (router : AliasRouter) {broken : Bool} {maxMessageSize : Nat}
    {input : Bytes} {rest : List Bytes} {envelope : Envelope}
    (hdata : readData broken maxMessageSize (splitInclusive 10 input)
      = .ok (.ok envelope.data, rest)) :
    (∀ params, DerivedForward router.aliases envelope params →
      (Unforged params.fields (rewriteForForward envelope.data params) ↔
        ForwardClear router.aliases params envelope.data)) ∧
    (∀ params, DerivedReply params →
      (Unforged params.fields (rewriteForReply envelope.data params) ↔
        startsWithFolded envelope.data = false)) ∧
    ∀ (recipient : Str) (h : Host) (q : Option (Str × AliasCounter)),
    Reachable router.aliases h.world.db →
      (exec perform (router.place envelope recipient) h).1 = .ok q →
      ∃ message, AliasRouter.Queued router.mailDir message h.world
          (exec perform (router.place envelope recipient) h).2.world ∧
        Relayed router.aliases envelope message.raw := by
  obtain ⟨-, lines, hlines, hpayload⟩ := accepted_of_readData hdata
  rw [hpayload]
  refine ⟨fun params h => forward_unforged_iff h hlines,
    fun params h => reply_unforged_iff h hlines, ?_⟩
  exact fun recipient h q hreach hok => router.place_relayed envelope recipient hreach hok

/-! ### A message from a shop -/

/-- Mail from a shop. -/
def shopText : Str := "From: Shop <a@shop.example>\r\n\r\nHi\r\n"

/-- Mail with the field of the service in it. -/
def forgedText : Str := "X-Weiterleitung-Sender: bank@bank.example\r\n\r\nHi\r\n"

/-- Mail to the alias with this payload. -/
def shopEnvelope (data : Str) : Envelope :=
  ⟨"a@shop.example", ["shop@example.com".toList], encode data⟩

/-- What is derived for it, with a reverse alias that was drawn. -/
def shopForward (name : Option Str) : ForwardRewrite where
  aliasAddress := "shop@example.com"
  reverseAlias := composeReverseAlias "ct"
    (tokenOf fun i : Fin 12 => (Chance.calm 14).symbol i) "example.com"
  senderName := name
  senderEmail := "a@shop.example"

theorem derived_shopForward {data : Str} {name : Option Str}
    (hname : name = (headerValue (splitHeadersBody (encode data)).1 "from").bind displayName)
    (hsender : envelopeSender "a@shop.example"
      (headerValue (splitHeadersBody (encode data)).1 "from")
      = EmailAddress.parse "a@shop.example") :
    DerivedForward AliasRouter.sample.aliases (shopEnvelope data) (shopForward name) where
  aliasAddress :=
    ⟨EmailAddress.shop, show "shop@example.com".toList
      = EmailAddress.shop.normalised by decide⟩
  reverseAlias := ⟨fun i => (Chance.calm 14).symbol i, rfl⟩
  senderName := hname
  senderEmail := by
    obtain ⟨e, he, hprint⟩ : ∃ e, EmailAddress.parse "a@shop.example" = .ok e ∧
        "a@shop.example".toList = e.toString :=
      ⟨⟨"a", "shop.example", ⟨by decide, by decide⟩, by decide, by
        decide⟩,
          by decide, by decide⟩
    exact ⟨e, hsender.trans he, hprint⟩

theorem neat_sample : AliasRouter.sample.aliases.Neat where
  oneLine := by decide
  front c hc := by cases hc; decide
  back c hc := by cases hc; decide

theorem injected_unforged_iff_sample :
    Unforged (shopForward (some "Shop".toList)).fields
        (rewriteForForward (encode shopText) (shopForward (some "Shop".toList))) ∧
      ∃ message, AliasRouter.Queued "mail" message AliasRouter.sampleHost.world
          (exec perform (AliasRouter.sample.place (shopEnvelope shopText) "shop@example.com")
            AliasRouter.sampleHost).2.world ∧
        Relayed AliasRouter.sample.aliases (shopEnvelope shopText) message.raw := by
  have hread : readData false 1000 (splitInclusive 10 (encode (shopText ++ ".\r\n".toList)))
      = .ok (.ok (shopEnvelope shopText).data, []) := by decide +kernel
  have hall := injected_unforged_iff AliasRouter.sample hread
  refine ⟨(hall.1 _ (derived_shopForward (by decide +kernel) (by decide +kernel))).mpr ?_, ?_⟩
  · refine ⟨by decide +kernel, by decide +kernel, fun name hname => ?_, neat_sample⟩
    rw [← Option.some.inj (show some "Shop".toList = some name from hname)]
    decide
  · have hok : (exec perform (AliasRouter.sample.place (shopEnvelope shopText)
        "shop@example.com") AliasRouter.sampleHost).1 = .ok (some (['3'], .forwarded)) := by
          decide +kernel
    exact hall.2.2 "shop@example.com" AliasRouter.sampleHost _
      (AliasRouter.reachable_sampleHost _) hok

/-- The payload brings a field `X-Weiterleitung-Sender` of its own, and it is forwarded beside
the one of the service. -/
theorem injected_forged :
    ¬ ∀ (router : AliasRouter) (broken : Bool) (maxMessageSize : Nat) (input : Bytes)
    (rest : List Bytes) (envelope : Envelope),
      readData broken maxMessageSize (splitInclusive 10 input) =
        .ok (.ok envelope.data, rest) →
      (∀ params, DerivedForward router.aliases envelope params →
        Unforged params.fields (rewriteForForward envelope.data params)) ∧
      ∀ params, DerivedReply params →
        Unforged params.fields (rewriteForReply envelope.data params) := by
  intro hall
  have hread : readData false 1000 (splitInclusive 10 (encode (forgedText ++ ".\r\n".toList)))
      = .ok (.ok (shopEnvelope forgedText).data, []) := by decide +kernel
  have hforward := (hall AliasRouter.sample _ _ _ _ _ hread).1 (shopForward none)
    (derived_shopForward (by decide +kernel) (by decide +kernel))
  have honce := hforward.once _ (shopForward none).sender_mem_fields
  exact absurd honce (by decide +kernel)

end Weiterleitung
