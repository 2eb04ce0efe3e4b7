/-
# `Smtp.Replaced` — the fields that name the sender

The rewriter puts its own `From` in front of what it leaves of the header block.  A reader
takes what is written for lines again (`headLines_relay`), and the lines for fields: those that
are put in front are fields of their own, all but the last, which may go on with continuation
lines from the top of the message (`headerFields_relay`).  No line that is left starts a field
with a stripped name, so

    each name that is put in front is there once, with its value
    each other name of the list is not there at all
    and what is left are whole fields                        (`rewrite_replaces`)
-/
import Mathlib
import Weiterleitung.Smtp.HeaderBlock

namespace Weiterleitung

open Text Utf8 Lines Unicode

/-! ## Fields by name -/

/-- Does the line start a field with this name? -/
def isNamed (name line : Str) : Bool := !isContinuation line && headerName line = name

/-- The fields of a header block that have a name: trimmed, in lower case. -/
def fieldsNamed (name : Str) (head : Bytes) : List (List Str) :=
  (headerFields head).filter fun field => field.head?.any (isNamed name)

/-- The text lines of the header block. -/
def textLines (raw : Bytes) : List Str := (headLines raw).map fromUtf8Lossy

theorem splitInclusive_headOf (raw : Bytes) :
    splitInclusive '\n' (fromUtf8Lossy (headOf raw)) = textLines raw := by
  unfold headOf textLines
  rw [splitInclusive_lossy, headLines, splitInclusive_takeWhile]

theorem headerFields_headOf (raw : Bytes) :
    headerFields (headOf raw) = groups isContinuation (textLines raw) := by
  unfold headerFields
  rw [splitInclusive_headOf, fields_eq]

/-- A field on one line. -/
def headerLine (name value : Str) : Str := name ++ ": ".toList ++ value ++ "\r\n".toList

/-- Can the text be the name of a field? -/
def isFieldName (name : Str) :
    Bool := name.all fun c => c ≠ ':' && c ≠ '\n' && c ≠ ' ' && c ≠ '\t'

theorem headerName_colon {name : Str} (h : ':' ∉ name) (rest : Str) :
    headerName (name ++ ':' :: rest) = toLowercase (trim name) := by
  unfold headerName
  rw [splitOnce_append rest h]

theorem headerLine_eq (name value : Str) :
    headerLine name value = name ++ ':' :: (' ' :: value ++ "\r\n".toList) := by
  unfold headerLine
  rw [show ": ".toList = [':', ' '] from rfl]
  simp

section
variable {name value : Str}

theorem not_mem_of_isFieldName (h : isFieldName name = true) {c : Char}
    (hc : c ∈ [':', '\n', ' ', '\t']) :
    c ∉ name := by
  intro hmem
  have hall := List.all_eq_true.mp h c hmem
  simp only [ne_eq, Bool.and_eq_true, decide_eq_true_eq] at hall
  simp only [List.mem_cons, List.not_mem_nil, or_false] at hc
  tauto

theorem headerName_headerLine (h : isFieldName name = true) :
    headerName (headerLine name value) = toLowercase (trim name) := by
  rw [headerLine_eq]
  exact headerName_colon (not_mem_of_isFieldName h (by decide)) _

theorem isContinuation_headerLine (h : isFieldName name = true) :
    isContinuation (headerLine name value) = false := by
  rw [headerLine_eq]
  unfold isContinuation
  cases name with
  | nil => rfl
  | cons c name =>
      have hspace := not_mem_of_isFieldName h (c := ' ') (by decide)
      have htab := not_mem_of_isFieldName h (c := '\t') (by decide)
      rw [List.mem_cons, not_or] at hspace htab
      simp [Ne.symm hspace.1, Ne.symm htab.1]

theorem closed_headerLine (h : isFieldName name = true) (hvalue : '\n' ∉ value) :
    ∃ l, '\n' ∉ l ∧ headerLine name value = l ++ ['\n'] := by
  refine ⟨name ++ ": ".toList ++ value ++ ['\r'], ?_, by unfold headerLine; simp⟩
  have hname := not_mem_of_isFieldName h (c := '\n') (by decide)
  simp [hname, hvalue]

end

/-! ## What is written, as fields -/

/-- The fields that are put in front: names with their values. -/
abbrev Fields := List (Str × Str)

/-- The fields that are put in front, as they are written. -/
def Fields.text (fields : Fields) : List Str :=
  fields.map fun field => headerLine field.1 field.2

/-- Each field is on one line. -/
def Fields.Lined (fields : Fields) :
    Prop := ∀ field ∈ fields, isFieldName field.1 = true ∧ '\n' ∉ field.2

theorem encode_closed {line : Str} (h : ∃ l, '\n' ∉ l ∧ line = l ++ ['\n']) :
    Closed (encode line) := by
  obtain ⟨l, hl, rfl⟩ := h
  refine ⟨encode l, fun hm => hl (mem_encode_ascii (c := '\n') (by decide) hm), ?_⟩
  rw [encode_append]
  rfl

section
variable {names : List Str} {fields : Fields}

theorem Fields.Lined.closed (h : fields.Lined) :
    ∀ line ∈ fields.text, ∃ l, '\n' ∉ l ∧ line = l ++ ['\n'] := by
  intro line hline
  obtain ⟨field, hfield, rfl⟩ := List.mem_map.mp hline
  exact closed_headerLine (h field hfield).1 (h field hfield).2

/-- The bytes of the fields split into them. -/
theorem Fields.Lined.split (h : fields.Lined) :
    splitInclusive 10 (encode fields.text.flatten) = fields.text.map encode := by
  have hclosed : ∀ line ∈ fields.text.map encode, Closed line := by
    intro line hline
    obtain ⟨line, hmem, rfl⟩ := List.mem_map.mp hline
    exact encode_closed (h.closed line hmem)
  have hsplit := splitInclusive_flatten_append (10 : UInt8) (fields.text.map encode) [] hclosed
  rw [List.append_nil] at hsplit
  rw [encode_flatten, hsplit]
  exact List.append_nil _

/-- A field is not an empty line. -/
theorem not_isBlank_headerLine (name value : Str) :
    isBlank (encode (headerLine name value)) = false := by
  have hcolon : ':' ∈ headerLine name value := by
    rw [headerLine_eq]
    simp
  have hne : ∀ s : Str, ':' ∉ s → encode (headerLine name value) ≠ encode s := by
    intro s hs heq
    have hback := congrArg fromUtf8Lossy heq
    rw [lossy_encode, lossy_encode] at hback
    exact hs (hback ▸ hcolon)
  have hlf : encode (headerLine name value) ≠ [10] := hne ['\n'] (by decide)
  have hcrlf : encode (headerLine name value) ≠ crlf := hne ['\r', '\n'] (by decide)
  unfold isBlank
  rw [decide_eq_false hlf, decide_eq_false hcrlf]
  rfl

theorem Fields.Lined.noBlank (h : fields.Lined) :
    ∀ line ∈ splitInclusive 10 (encode fields.text.flatten), isBlank line = false := by
  intro line hline
  rw [h.split] at hline
  obtain ⟨line, hmem, rfl⟩ := List.mem_map.mp hline
  obtain ⟨field, -, rfl⟩ := List.mem_map.mp hmem
  exact not_isBlank_headerLine _ _

/-- A line end more does not give a line another name. -/
theorem headerName_crlf (line : Str) :
    headerName (line ++ "\r\n".toList) = headerName line := by
  cases hsplit : splitOnce ':' line with
  | none =>
      have hcolon : ':' ∉ line ++ "\r\n".toList := by
        have h := splitOnce_eq_none.mp hsplit
        simp [h]
      unfold headerName
      rw [hsplit, splitOnce_eq_none.mpr hcolon]
  | some parts =>
      obtain ⟨hline, hname⟩ := splitOnce_eq_some.mp hsplit
      rw [hline, List.append_assoc, List.cons_append, headerName_colon hname,
        headerName_colon hname]

/-- What is left of the header block has no line that starts a stripped field. -/
theorem written_stripped {raw : Bytes} {written : List Bytes}
    (h : ¬ OpenEnd names raw ∧ written = (stripRaw names false (headLines raw)).map reread ∨
        OpenEnd names raw ∧ ∃ kept last, last ≠ [] ∧ stripRaw names false
          (headLines raw) = kept ++ [last] ∧
          written = kept.map reread ++ [reread last ++ crlf]) :
    ∀ line ∈ written.map fromUtf8Lossy, isContinuation line = false →
      names.contains (headerName line) = false := by
  have hleft : ∀ line ∈ stripRaw names false (headLines raw),
      isContinuation (fromUtf8Lossy line) = false →
      names.contains (headerName (fromUtf8Lossy line)) = false := by
    intro line hline hcont
    rw [isContinuation_lossy] at hcont
    exact not_hit_of_mem_strip (headLines raw) hline hcont
  have hread : ∀ line : Bytes, fromUtf8Lossy (reread line) = fromUtf8Lossy line :=
    fun line => lossy_encode _
  intro line hline
  rcases h with ⟨-, rfl⟩ | ⟨-, kept, last, hne, hstrip, rfl⟩
  · obtain ⟨_, hmem, rfl⟩ := List.mem_map.mp hline
    obtain ⟨line, hin, rfl⟩ := List.mem_map.mp hmem
    rw [hread]
    exact hleft line hin
  · rw [hstrip] at hleft
    rw [List.map_append, List.map_singleton] at hline
    rcases List.mem_append.mp hline with hline | hline
    · obtain ⟨_, hmem, rfl⟩ := List.mem_map.mp hline
      obtain ⟨line, hin, rfl⟩ := List.mem_map.mp hmem
      rw [hread]
      exact hleft line (List.mem_append_left _ hin)
    · have hclosed : fromUtf8Lossy (reread last ++ crlf) = fromUtf8Lossy last ++
          "\r\n".toList := by
        unfold reread
        rw [show crlf = encode "\r\n".toList by decide, ← encode_append, lossy_encode]
      have hcont : isContinuation (fromUtf8Lossy last ++ "\r\n".toList) = isContinuation
          (fromUtf8Lossy last) := by
        have hlen := length_le_reread last
        have hne' : fromUtf8Lossy last ≠ [] := fun e => by
          unfold reread at hlen
          rw [e] at hlen
          exact hne (List.eq_nil_of_length_eq_zero (Nat.le_zero.mp hlen))
        unfold isContinuation
        rw [List.head?_append_of_ne_nil _ hne']
      rw [List.mem_singleton.mp hline, hclosed, hcont, headerName_crlf]
      exact hleft last (by simp)

/-- The fields of what is written: those that are put in front, the last one with the
continuation lines at the top of the message, and fields that are not to be stripped. -/
theorem headerFields_relay (hnames : names.contains [] = false) (hfields : fields.Lined)
    (hended : ∃ p, encode fields.text.flatten = p ++ [10]) (raw : Bytes) :
    ∃ written, headerFields (headOf (relay names fields.text.flatten raw))
        = groups isContinuation (fields.text ++ written) ∧
      ∀ line ∈ written, isContinuation line = false →
        names.contains (headerName line) = false := by
  obtain ⟨written, hlines, hwritten⟩ := headLines_relay hnames hended hfields.noBlank raw
  refine ⟨written.map fromUtf8Lossy, ?_, written_stripped hwritten⟩
  have hread : fields.text.map (fromUtf8Lossy ∘ encode) = fields.text.map id :=
    List.map_congr_left fun line _ => lossy_encode line
  rw [headerFields_headOf, textLines, hlines, hfields.split, List.map_append, List.map_map,
    hread, List.map_id]

/-- A stripped name is there exactly as often as it is put in front before the last field,
which must have another one. -/
theorem fieldsNamed_relay (hnames : names.contains [] = false) {front : Fields}
    {last : Str × Str} (hsplit : fields = front ++ [last]) (hfields : fields.Lined)
    (hended : ∃ p, encode fields.text.flatten = p ++ [10])
    {name : Str} (hname : names.contains name = true)
    (hlast : toLowercase (trim last.1) ≠ name) (raw : Bytes) :
    fieldsNamed name (headOf (relay names fields.text.flatten raw))
      = (Fields.text (front.filter fun field => toLowercase (trim field.1) = name)).map
        (fun line => [line]) := by
  subst hsplit
  obtain ⟨written, hhead, hwritten⟩ := headerFields_relay hnames hfields hended raw
  have hnamed : ∀ field ∈ front ++ [last],
      isContinuation (headerLine field.1 field.2) = false ∧
      isNamed name (headerLine field.1 field.2)
        = decide (toLowercase (trim field.1) = name) := by
    intro field hfield
    have hcont : isContinuation (headerLine field.1 field.2) = false :=
      isContinuation_headerLine (hfields field hfield).1
    refine ⟨hcont, ?_⟩
    unfold isNamed
    rw [hcont, headerName_headerLine (hfields field hfield).1]
    rfl
  have hfront : ∀ line ∈ Fields.text front, isContinuation line = false := by
    intro line hline
    obtain ⟨field, hfield, rfl⟩ := List.mem_map.mp hline
    exact (hnamed field (List.mem_append_left _ hfield)).1
  obtain ⟨hlastline, hlastname⟩ := hnamed last (by simp)
  have hrest : ∀ line ∈ headerLine last.1 last.2 :: written, isNamed name line = false := by
    intro line hline
    rcases List.mem_cons.mp hline with rfl | hline
    · rw [hlastname, decide_eq_false hlast]
    · unfold isNamed
      cases hcont : isContinuation line with
      | true => rfl
      | false =>
          have hother := hwritten line hline hcont
          rw [decide_eq_false fun e => by rw [e, hname] at hother; cases hother]
          rfl
  unfold fieldsNamed
  rw [hhead, Fields.text, List.map_append, List.map_singleton, List.append_assoc,
    List.singleton_append, ← Fields.text, groups_append hfront hlastline, List.filter_append,
    filter_groups_eq_nil hrest, List.append_nil,
    List.filter_map]
  refine congrArg _ ?_
  unfold Fields.text
  rw [List.filter_map]
  refine congrArg _ (List.filter_congr fun field hfield => ?_)
  exact (hnamed field (List.mem_append_left _ hfield)).2

/-- After the fields that are put in front come whole fields of the message, those
that the stripping keeps. -/
theorem headOf_relay_fields (hnames : names.contains [] = false) (hfields : fields.Lined)
    (hended : ∃ p, encode fields.text.flatten = p ++ [10]) (raw : Bytes) :
    ∃ tail, (tail = [] ∨ tail = crlf) ∧ headOf (relay names fields.text.flatten raw)
      = encode fields.text.flatten ++ encode
        ((headerFields (headOf raw)).filter (keeps names)).flatten.flatten ++ tail := by
  obtain ⟨tail, hhead, htail⟩ := headOf_relay hnames hended hfields.noBlank raw
  refine ⟨tail, ?_, ?_⟩
  · rcases htail with ⟨-, h⟩ | ⟨-, h⟩
    · exact Or.inl h
    · exact Or.inr h
  · have hlines : headerFields (headOf raw) = Weiterleitung.fields (textLines raw) := by
      rw [headerFields_headOf, fields_eq]
    have hkept :
        encode ((Weiterleitung.fields (textLines raw)).filter (keeps names)).flatten.flatten
        = ((stripRaw names false (headLines raw)).map reread).flatten := by
      rw [← stripLines_eq, textLines, stripLines_map, encode_flatten, List.map_map]
      rfl
    rw [hhead, hlines, hkept]

end

/-! ## The rewriters -/

def ForwardRewrite.fields (params : ForwardRewrite) : Fields :=
  [("From", quotedAddress params.display params.reverseAlias),
    ("Reply-To", params.reverseAlias),
    ("X-Weiterleitung-Alias", params.aliasAddress),
    ("X-Weiterleitung-Sender", params.senderEmail)]

def ReplyRewrite.fields (params : ReplyRewrite) : Fields :=
  [("From", params.aliasAddress), ("To", params.contactEmail),
    ("X-Weiterleitung-Alias", params.aliasAddress)]

theorem ForwardRewrite.injected_text (params : ForwardRewrite) :
    params.injected = params.fields.text.flatten := by
  have h1 : "From: ".toList = "From".toList ++ ": ".toList := by decide
  have h2 : "\r\nReply-To: ".toList = "\r\n".toList ++ ("Reply-To".toList ++ ": ".toList) := by
    decide
  have h3 : "\r\nX-Weiterleitung-Alias: ".toList
      = "\r\n".toList ++ ("X-Weiterleitung-Alias".toList ++ ": ".toList) := by decide
  have h4 : "\r\nX-Weiterleitung-Sender: ".toList
      = "\r\n".toList ++ ("X-Weiterleitung-Sender".toList ++ ": ".toList) := by decide
  unfold ForwardRewrite.injected Fields.text ForwardRewrite.fields headerLine
  simp only [h1, h2, h3, h4, List.map_cons, List.map_nil, List.flatten_cons, List.flatten_nil,
    List.append_nil, List.append_assoc]

theorem ReplyRewrite.injected_text (params : ReplyRewrite) :
    params.injected = params.fields.text.flatten := by
  rw [params.injected_eq]
  unfold Fields.text ReplyRewrite.fields headerLine
  simp only [List.map_cons, List.map_nil, List.flatten_cons, List.flatten_nil, List.append_nil,
    List.append_assoc]

/-- No parameter has a line feed. -/
structure ForwardRewrite.OneLine (params : ForwardRewrite) : Prop where
  aliasAddress : '\n' ∉ params.aliasAddress
  reverseAlias : '\n' ∉ params.reverseAlias
  senderName : ∀ name, params.senderName = some name → '\n' ∉ name
  senderEmail : '\n' ∉ params.senderEmail

/-- No parameter has a line feed. -/
structure ReplyRewrite.OneLine (params : ReplyRewrite) : Prop where
  aliasAddress : '\n' ∉ params.aliasAddress
  contactEmail : '\n' ∉ params.contactEmail

theorem mem_replace {c d : Char} {new s : Str} (h : d ∈ replace c new s) :
    d ∈ s ∨ d ∈ new := by
  obtain ⟨e, he, hd⟩ := List.mem_flatMap.mp h
  split at hd
  · exact Or.inr hd
  · exact Or.inl (List.mem_singleton.mp hd ▸ he)

theorem not_mem_quotedAddress {display address : Str} (hdisplay : '\n' ∉ display)
    (haddress : '\n' ∉ address) :
    '\n' ∉ quotedAddress display address := by
  have hescaped : '\n' ∉ replace '"' "\\\"" (replace '\\' "\\\\" display) := by
    intro h
    rcases mem_replace h with h | h
    · rcases mem_replace h with h | h
      · exact hdisplay h
      · exact absurd h (by decide)
    · exact absurd h (by decide)
  unfold quotedAddress
  dsimp only
  generalize replace '"' "\\\"" (replace '\\' "\\\\" display) = escaped at hescaped ⊢
  split
  · simp [hescaped, haddress]
  · simp [hescaped, haddress]

theorem ForwardRewrite.OneLine.display {params : ForwardRewrite} (h : params.OneLine) :
    '\n' ∉ params.display := by
  intro hmem
  unfold ForwardRewrite.display at hmem
  split at hmem
  · next name hname =>
      split at hmem
      · exact h.senderEmail hmem
      · rcases List.mem_append.mp hmem with hmem | hmem
        · rcases List.mem_append.mp hmem with hmem | hmem
          · exact h.senderName name hname (mem_trim hmem)
          · exact absurd hmem (by decide)
        · exact h.senderEmail hmem
  · exact h.senderEmail hmem

theorem ForwardRewrite.OneLine.lined {params : ForwardRewrite} (h : params.OneLine) :
    params.fields.Lined := by
  have hnames :
      (["From", "Reply-To", "X-Weiterleitung-Alias", "X-Weiterleitung-Sender"] : List Str).all
        isFieldName := by
    decide
  have hfrom := not_mem_quotedAddress h.display h.reverseAlias
  intro field hfield
  refine ⟨List.all_eq_true.mp hnames field.1 (List.mem_map_of_mem hfield (f := Prod.fst)), ?_⟩
  simp only [ForwardRewrite.fields, List.mem_cons, List.not_mem_nil, or_false] at hfield
  rcases hfield with rfl | rfl | rfl | rfl
  · exact hfrom
  · exact h.reverseAlias
  · exact h.aliasAddress
  · exact h.senderEmail

theorem ReplyRewrite.OneLine.lined {params : ReplyRewrite} (h : params.OneLine) :
    params.fields.Lined := by
  have hnames : (["From", "To", "X-Weiterleitung-Alias"] : List Str).all isFieldName := by
    decide
  intro field hfield
  refine ⟨List.all_eq_true.mp hnames field.1 (List.mem_map_of_mem hfield (f := Prod.fst)), ?_⟩
  simp only [ReplyRewrite.fields, List.mem_cons, List.not_mem_nil, or_false] at hfield
  rcases hfield with rfl | rfl | rfl
  · exact h.aliasAddress
  · exact h.contactEmail
  · exact h.aliasAddress

/-- No field has a name that is not on the list of names. -/
theorem filter_lowered_eq_nil {l : Fields} {lowered : List Str} {name : Str}
    (hname : name ∉ lowered) (h : ∀ n ∈ l.map Prod.fst, toLowercase (trim n) ∈ lowered) :
    l.filter (fun field => toLowercase (trim field.1) = name) = [] := by
  refine List.filter_eq_nil_iff.mpr fun field hfield heq => hname ?_
  rw [← of_decide_eq_true heq]
  exact h field.1 (List.mem_map_of_mem hfield)

/-- The fields that name the sender are replaced, all of them and with their continuation
lines; what follows the new ones are whole fields of the message. -/
theorem rewrite_replaces (raw : Bytes) :
    (∀ params : ForwardRewrite, params.OneLine →
      fieldsNamed "from" (headOf (rewriteForForward raw params))
          = [[headerLine "From" (quotedAddress params.display params.reverseAlias)]] ∧
        fieldsNamed "reply-to" (headOf (rewriteForForward raw params))
          = [[headerLine "Reply-To" params.reverseAlias]] ∧
        (∀ name ∈ strippedHeaders,
          name ∉ (["from", "reply-to", "x-weiterleitung-alias"] : List Str) →
          fieldsNamed name (headOf (rewriteForForward raw params)) = []) ∧
        ∃ tail, (tail = [] ∨ tail = crlf) ∧ headOf (rewriteForForward raw params)
          = encode params.injected
          ++ encode
            ((headerFields (headOf raw)).filter (keeps strippedHeaders)).flatten.flatten ++
              tail) ∧
    ∀ params : ReplyRewrite, params.OneLine →
      fieldsNamed "from" (headOf (rewriteForReply raw params)) =
        [[headerLine "From" params.aliasAddress]] ∧
        fieldsNamed "to" (headOf (rewriteForReply raw params)) =
          [[headerLine "To" params.contactEmail]] ∧
        (∀ name ∈ replyStripped, name ∉ (["from", "to", "x-weiterleitung-alias"] : List Str) →
          fieldsNamed name (headOf (rewriteForReply raw params)) = []) ∧
        ∃ tail, (tail = [] ∨ tail = crlf) ∧ headOf (rewriteForReply raw params)
          = encode params.injected
          ++ encode
            ((headerFields (headOf raw)).filter (keeps replyStripped)).flatten.flatten ++
              tail := by
  constructor
  · intro params h
    have hended := params.injected_ended
    rw [rewriteForForward_eq]
    rw [params.injected_text] at hended ⊢
    have hsplit : params.fields = params.fields.dropLast ++
        [("X-Weiterleitung-Sender".toList, params.senderEmail)] := rfl
    have hsender : toLowercase (trim "X-Weiterleitung-Sender")
        = "x-weiterleitung-sender".toList := by decide
    have hnamed : ∀ name, strippedHeaders.contains name = true →
        "x-weiterleitung-sender".toList ≠ name →
        fieldsNamed name (headOf (relay strippedHeaders params.fields.text.flatten raw))
          = (Fields.text (params.fields.dropLast.filter fun field => toLowercase (trim field.1)
            = name)).map (fun line => [line]) := by
      intro name hname hlast
      rw [← hsender] at hlast
      exact fieldsNamed_relay strippedHeaders_nil hsplit h.lined hended hname hlast raw
    refine ⟨hnamed "from" (by decide) (by decide), hnamed "reply-to" (by decide) (by decide),
      ?_, headOf_relay_fields strippedHeaders_nil h.lined hended raw⟩
    intro name hname hother
    have hlast : "x-weiterleitung-sender".toList ≠ name :=
      fun e => absurd (e ▸ hname) (by decide)
    have hlowered : ∀ n ∈ (["From", "Reply-To", "X-Weiterleitung-Alias"] : List Str),
        toLowercase (trim n) ∈ (["from", "reply-to", "x-weiterleitung-alias"] : List Str) := by
          decide
    rw [hnamed name (List.contains_iff_mem.mpr hname) hlast,
      filter_lowered_eq_nil (l := params.fields.dropLast) hother hlowered]
    rfl
  · intro params h
    have hended := params.injected_ended
    rw [rewriteForReply_eq]
    rw [params.injected_text] at hended ⊢
    have hsplit : params.fields = params.fields.dropLast ++
        [("X-Weiterleitung-Alias".toList, params.aliasAddress)] := rfl
    have halias : toLowercase (trim "X-Weiterleitung-Alias")
        = "x-weiterleitung-alias".toList := by decide
    have hnamed : ∀ name, replyStripped.contains name = true →
        "x-weiterleitung-alias".toList ≠ name →
        fieldsNamed name (headOf (relay replyStripped params.fields.text.flatten raw))
          = (Fields.text (params.fields.dropLast.filter fun field => toLowercase (trim field.1)
            = name)).map (fun line => [line]) := by
      intro name hname hlast
      rw [← halias] at hlast
      exact fieldsNamed_relay replyStripped_nil hsplit h.lined hended hname hlast raw
    refine ⟨hnamed "from" (by decide) (by decide), hnamed "to" (by decide) (by decide), ?_,
      headOf_relay_fields replyStripped_nil h.lined hended raw⟩
    intro name hname hother
    have hlast : "x-weiterleitung-alias".toList ≠ name := fun e => hother (e ▸ by decide)
    have hlowered : ∀ n ∈ (["From", "To"] : List Str), toLowercase (trim n)
        ∈ (["from", "to", "x-weiterleitung-alias"] : List Str) := by decide
    rw [hnamed name (List.contains_iff_mem.mpr hname) hlast,
      filter_lowered_eq_nil (l := params.fields.dropLast) hother hlowered]
    rfl

theorem rewrite_replaces_sample :
    fieldsNamed "from"
      (headOf (rewriteForReply
        (encode "FROM : me@personal.example\n (home)\n\nThanks\n".toList)
      ⟨"shop@example.com", "support@shop.example"⟩))
        = [["From: shop@example.com\r\n".toList]] :=
  ((rewrite_replaces _).2 _ ⟨by decide, by decide⟩).1

end Weiterleitung
