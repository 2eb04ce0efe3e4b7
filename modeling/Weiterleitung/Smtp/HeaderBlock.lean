/-
# `Smtp.HeaderBlock` — the message as a reader of mail takes it

A reader takes the lines up to the first empty one for the header block and the rest for the
body.  The rewriter looks for a pattern of bytes instead, reads the block as text and writes
it again.  Line by line:

    it splits at an empty line, or not at all             (`splitHeadersBody_cases`)
    it keeps a line as the bytes of its text              (`stripHeaders_eq_raw`)
    the header block it makes is the injected one and
      what is left of the block it found    (`headLines_relay`, `headOf_relay`)
-/
import Mathlib
import Weiterleitung.Smtp.Rewrite

namespace Weiterleitung

open Text Utf8 Lines Unicode

/-! ## Lines of a message -/

/-- A line that is nothing but its line end. -/
def isBlank (line : Bytes) : Bool := line = [10] || line = crlf

/-- The lines before the first empty one. -/
def headLines (raw : Bytes) : List Bytes := (splitInclusive 10 raw).takeWhile (!isBlank ·)

/-- The header block: everything before the first empty line. -/
def headOf (raw : Bytes) : Bytes := (headLines raw).flatten

/-- The body: what follows the first empty line, nothing without one. -/
def bodyOf (raw : Bytes) :
    Bytes := ((splitInclusive 10 raw).dropWhile (!isBlank ·)).tail.flatten

/-- Without an empty line all lines are header lines. -/
theorem headLines_eq {raw : Bytes} (h : ∀ line ∈ splitInclusive 10 raw, isBlank line = false) :
    headLines raw = splitInclusive 10 raw :=
  List.takeWhile_eq_self_iff.mpr fun line hline => by simp [h line hline]

/-- A line that starts with a space or a tab. -/
def startsFolded (line : Bytes) : Bool := line.head? = some 32 || line.head? = some 9

/-- The logical fields of a header block: a line with the lines after it that
start with a space or a tab. -/
def rawFields (lines : List Bytes) : List (List Bytes) := groups startsFolded lines

/-- Is the trimmed name of the field, in lower case, none of these names? -/
def keptByName (names : List Str) (field : List Bytes) : Bool :=
  !field.head?.any fun line => names.contains (headerName (fromUtf8Lossy line))

/-! ## Text lines and raw lines -/

theorem not_mem_lossy {line : Bytes} (h : 10 ∉ line) : '\n' ∉ fromUtf8Lossy line :=
  fun hm => h (mem_of_mem_lossy (c := '\n') (by decide) hm)

/-- The lines of the text are the texts of the lines. -/
theorem splitInclusive_lossy (raw : Bytes) :
    splitInclusive '\n' (fromUtf8Lossy raw) = (splitInclusive 10 raw).map fromUtf8Lossy := by
  induction raw using line_induction (10 : UInt8) with
  | nil => rfl
  | last s hne hs =>
      rw [splitInclusive_of_not_mem 10 s hs hne]
      refine splitInclusive_of_not_mem '\n' _ (not_mem_lossy hs) fun h => ?_
      have hlen := length_le_encode_lossy s
      rw [h] at hlen
      exact hne (List.eq_nil_of_length_eq_zero (Nat.le_zero.mp hlen))
  | line l rest hl ih =>
      have hcut := lossy_append_ascii (a := 10) (by decide) l
      rw [splitInclusive_line 10 l rest hl, hcut]
      have hrest := splitInclusive_line '\n' (fromUtf8Lossy l) (fromUtf8Lossy rest)
        (not_mem_lossy hl)
      rw [List.map_cons, hcut]
      exact hrest.trans (congrArg _ ih)

/-- The first character of the text is the first byte, if it is ASCII. -/
theorem head_lossy {c : Char} (hc : c.toNat < 128) (line : Bytes) :
    (fromUtf8Lossy line).head? = some c ↔ line.head? = some (UInt8.ofNat c.toNat) := by
  have hbyte : (UInt8.ofNat c.toNat).toNat = c.toNat := by
    rw [UInt8.toNat_ofNat']
    omega
  constructor
  · intro h
    by_cases hne : line = []
    · rw [hne] at h
      cases h
    · rcases exists_piece hne with ⟨d, rest, rfl⟩ | ⟨p, rest, rfl, -, -, hdecode⟩
      · rw [lossy_char] at h
        cases h
        have hone := encode_singleton_ascii hc
        rw [show encode [c] = String.utf8EncodeChar c from List.append_nil _] at hone
        rw [hone]
        rfl
      · rw [lossy_bad hdecode] at h
        cases h
        exact absurd hc (by decide)
  · intro h
    obtain ⟨rest, rfl⟩ := List.head?_eq_some_iff.mp h
    have hcut := lossy_append_ascii (a := UInt8.ofNat c.toNat)
      (UInt8.lt_iff_toNat_lt.mpr (by rw [hbyte]; exact hc)) [] rest
    rw [List.nil_append] at hcut
    rw [hcut, hbyte, Char.ofNat_toNat]
    rfl

/-- A line is a continuation line of the text exactly if it starts folded. -/
theorem isContinuation_lossy (line : Bytes) :
    isContinuation (fromUtf8Lossy line) = startsFolded line := by
  have hspace := head_lossy (c := ' ') (by decide) line
  have htab := head_lossy (c := '\t') (by decide) line
  unfold isContinuation startsFolded
  rw [decide_eq_decide.mpr hspace, decide_eq_decide.mpr htab]
  rfl

/-! ## Reading a line and writing it again -/

/-- The bytes that are written for a line that was read as text. -/
def reread (line : Bytes) : Bytes := encode (fromUtf8Lossy line)

theorem reread_closed (l : Bytes) : reread (l ++ [10]) = reread l ++ [10] := by
  unfold reread
  rw [lossy_append_ascii (by decide), encode_append]
  rfl

theorem not_mem_reread {line : Bytes} (h : 10 ∉ line) : 10 ∉ reread line :=
  fun hm => not_mem_lossy h (mem_encode_ascii (c := '\n') (by decide) hm)

theorem length_le_reread (line : Bytes) : line.length ≤ (reread line).length :=
  length_le_encode_lossy line

/-- What is written for a line and is text without replacement characters is the line. -/
theorem reread_eq {line : Bytes} {s : Str} (hs : '\uFFFD' ∉ s) (h : reread line = encode s) :
    line = encode s := by
  have hread := congrArg fromUtf8Lossy h
  unfold reread at hread
  rw [lossy_encode, lossy_encode] at hread
  rw [← h, reread, encode_lossy_of_not_mem (by rw [hread]; exact hs)]

theorem isBlank_reread (line : Bytes) : isBlank (reread line) = isBlank line := by
  have hback : ∀ s : Str, '\uFFFD' ∉ s → (reread line = encode s ↔ line = encode s) := by
    intro s hs
    constructor
    · exact reread_eq hs
    · rintro rfl
      unfold reread
      rw [lossy_encode]
  have hlf : reread line = [10] ↔ line = [10] := hback ['\n'] (by decide)
  have hcrlf : reread line = crlf ↔ line = crlf := hback ['\r', '\n'] (by decide)
  unfold isBlank
  rw [decide_eq_decide.mpr hlf, decide_eq_decide.mpr hcrlf]

/-! ## Stripping, line by line -/

/-- The lines of a header block that are left when fields with these names are removed. -/
def stripRaw (names : List Str) (dropping : Bool) (lines : List Bytes) : List Bytes :=
  strip startsFolded (fun line => names.contains (headerName (fromUtf8Lossy line)))
    dropping lines

theorem stripRaw_append (names : List Str) (dropping : Bool) (lines : List Bytes) :
    ∃ dropping', ∀ rest, stripRaw names dropping (lines ++ rest)
      = stripRaw names dropping lines ++ stripRaw names dropping' rest :=
  strip_append lines dropping

theorem stripRaw_sublist (names : List Str) (dropping : Bool) (lines : List Bytes) :
    (stripRaw names dropping lines).Sublist lines :=
  strip_sublist lines dropping

theorem stripLines_map (names : List Str) (dropping : Bool) (lines : List Bytes) :
    stripLines names dropping (lines.map fromUtf8Lossy) = (stripRaw names dropping lines).map
      fromUtf8Lossy := by
  rw [stripLines_eq_strip, strip_map]
  have hjoins : isContinuation ∘ fromUtf8Lossy = startsFolded := funext isContinuation_lossy
  rw [hjoins]
  rfl

/-- What is left of a header block: lines that are not dropped, read and written again. -/
theorem stripHeaders_eq_raw (headers : Bytes) (names : List Str) :
    stripHeaders headers names
      = ((stripRaw names false (splitInclusive 10 headers)).map reread).flatten := by
  unfold stripHeaders
  rw [splitInclusive_lossy, stripLines_map, encode_flatten, List.map_map]
  rfl

/-- Is the field left by the rewriter?  One at the top that starts folded always is. -/
def keepsRaw (names : List Str) (field : List Bytes) : Bool :=
  field.head?.any startsFolded || keptByName names field

theorem stripRaw_eq (names : List Str) (lines : List Bytes) :
    stripRaw names false lines = ((rawFields lines).filter (keepsRaw names)).flatten := by
  unfold stripRaw
  rw [strip_eq]
  unfold rawFields
  congr 1
  refine List.filter_congr fun field hfield => ?_
  obtain ⟨line, more, rfl⟩ := List.exists_cons_of_ne_nil (groups_ne_nil _ hfield)
  show (!(!startsFolded line && _)) = (startsFolded line || !_)
  cases startsFolded line <;> rfl

/-! ## Where the rewriter splits -/

/-- The first occurrence of a pattern. -/
theorem findSubsequence_some {needle : Bytes} : ∀ {s : Bytes} {i : Nat},
    findSubsequence needle s = some i →
      ∃ a b, s = a ++ needle ++ b ∧ a.length = i ∧ ∀ a' b', s = a' ++ needle ++ b' →
        i ≤ a'.length
  | [], _, h => nomatch h
  | c :: s, i, h => by
      rw [findSubsequence] at h
      split at h
      · next hprefix =>
          cases h
          obtain ⟨b, hb⟩ := List.isPrefixOf_iff_prefix.mp hprefix
          exact ⟨[], b, hb.symm, rfl, fun _ _ _ => Nat.zero_le _⟩
      · next hprefix =>
          obtain ⟨j, hj, rfl⟩ := Option.map_eq_some_iff.mp h
          obtain ⟨a, b, rfl, rfl, hmin⟩ := findSubsequence_some hj
          refine ⟨c :: a, b, rfl, rfl, fun a' b' hs => ?_⟩
          cases a' with
          | nil => exact absurd (List.isPrefixOf_iff_prefix.mpr ⟨b', hs.symm⟩) hprefix
          | cons d a' => exact Nat.succ_le_succ (hmin a' b' (List.cons.inj hs).2)

/-- A line with its line end and no other one. -/
def Closed (line : Bytes) : Prop := ∃ l, 10 ∉ l ∧ line = l ++ [10]

theorem closed_of_blank {sep : Bytes} (hsep : isBlank sep = true) : Closed sep := by
  unfold isBlank at hsep
  simp only [Bool.or_eq_true, decide_eq_true_eq] at hsep
  rcases hsep with rfl | rfl
  · exact ⟨[], List.not_mem_nil, rfl⟩
  · exact ⟨[13], by decide, rfl⟩

/-- Lines around an empty one. -/
theorem splitInclusive_blank {p sep : Bytes} (hsep : isBlank sep = true) (rest : Bytes) :
    splitInclusive 10 ((p ++ [10]) ++ sep ++ rest)
      = splitInclusive 10 (p ++ [10]) ++ sep :: splitInclusive 10 rest := by
  obtain ⟨l, hl, rfl⟩ := closed_of_blank hsep
  rw [List.append_assoc, splitInclusive_append_closed, List.append_assoc,
    List.singleton_append, splitInclusive_line 10 l rest hl]

/-- The rewriter splits at an empty line after closed ones, or takes everything for headers. -/
theorem splitHeadersBody_cases (raw : Bytes) :
    (∃ p sep body, isBlank sep = true ∧ raw = (p ++ [10]) ++ sep ++ body ∧
      splitHeadersBody raw = (p ++ [10], body)) ∨
    splitHeadersBody raw = (raw, []) := by
  unfold splitHeadersBody
  cases hcrlf : findSubsequence [13, 10, 13, 10] raw with
  | some i =>
      obtain ⟨a, b, rfl, rfl, -⟩ := findSubsequence_some hcrlf
      refine Or.inl ⟨a ++ [13], crlf, b, rfl, by simp [crlf], ?_⟩
      have hhead : a ++ [13, 10, 13, 10] ++ b = (a ++ [13, 10]) ++ ([13, 10] ++ b) := by simp
      have hbody : a ++ [13, 10, 13, 10] ++ b = (a ++ [13, 10, 13, 10]) ++ b := rfl
      refine Prod.ext ?_ ?_
      · show List.take (a.length + 2) _ = _
        rw [hhead, List.take_left' (by simp)]
        simp
      · show List.drop (a.length + 4) _ = _
        rw [hbody, List.drop_left' (by simp)]
  | none =>
      cases hlf : findSubsequence [10, 10] raw with
      | none => exact Or.inr rfl
      | some i =>
          obtain ⟨a, b, rfl, rfl, -⟩ := findSubsequence_some hlf
          refine Or.inl ⟨a, [10], b, rfl, by simp, ?_⟩
          have hhead : a ++ [10, 10] ++ b = (a ++ [10]) ++ ([10] ++ b) := by simp
          refine Prod.ext ?_ ?_
          · show List.take (a.length + 1) _ = _
            rw [hhead, List.take_left' (by simp)]
          · show List.drop (a.length + 2) _ = _
            rw [List.drop_left' (by simp)]

/-! ## What the rewriter writes -/

/-- Both rewriters: other headers in front, those with these names removed. -/
def relay (names : List Str) (injected : Str) (raw : Bytes) : Bytes :=
  encode injected ++ stripHeaders (splitHeadersBody raw).1 names ++ crlf ++
    (splitHeadersBody raw).2

theorem rewriteForForward_eq (raw : Bytes) (params : ForwardRewrite) :
    rewriteForForward raw params = relay strippedHeaders params.injected raw := rfl

theorem rewriteForReply_eq (raw : Bytes) (params : ReplyRewrite) :
    rewriteForReply raw params = relay replyStripped params.injected raw := rfl

theorem ended_of_crlf (s : Str) : ∃ p, encode (s ++ "\r\n".toList) = p ++ [10] :=
  ⟨encode s ++ [13], by rw [encode_append, List.append_assoc]; rfl⟩

theorem ForwardRewrite.injected_ended (params : ForwardRewrite) :
    ∃ p, encode params.injected = p ++ [10] :=
  ended_of_crlf _

theorem ReplyRewrite.injected_ended (params : ReplyRewrite) :
    ∃ p, encode params.injected = p ++ [10] :=
  ended_of_crlf _

theorem strippedHeaders_nil : strippedHeaders.contains [] = false := by decide

theorem replyStripped_nil : replyStripped.contains [] = false := by decide

theorem Closed.reread {line : Bytes} (h : Closed line) : Closed (reread line) := by
  obtain ⟨l, hl, rfl⟩ := h
  exact ⟨Weiterleitung.reread l, not_mem_reread hl, reread_closed l⟩

/-- What is left of closed lines, as it is written. -/
theorem closed_stripRaw (names : List Str) {lines : List Bytes}
    (h : ∀ line ∈ lines, Closed line) :
    ∀ line ∈ (stripRaw names false lines).map reread, Closed line := by
  intro line hline
  obtain ⟨line, hmem, rfl⟩ := List.mem_map.mp hline
  rw [stripRaw_eq] at hmem
  obtain ⟨field, hfield, hmem⟩ := List.mem_flatten.mp hmem
  have hall : line ∈ (rawFields lines).flatten :=
    List.mem_flatten.mpr ⟨field, List.mem_of_mem_filter hfield, hmem⟩
  rw [rawFields, flatten_groups] at hall
  exact (h line hall).reread

section
variable {names : List Str} {injected : Str}

/-- The lines of what is written, if only closed lines are left of the header block. -/
theorem splitInclusive_relay (hinjected : ∃ p, encode injected = p ++ [10])
    {lines : List Bytes} (hlines : ∀ line ∈ lines, Closed line) (rest : Bytes) :
    splitInclusive 10 (encode injected ++ lines.flatten ++ rest)
      = splitInclusive 10 (encode injected) ++ (lines ++ splitInclusive 10 rest) := by
  obtain ⟨p, hp⟩ := hinjected
  rw [hp, List.append_assoc, splitInclusive_append_closed,
    splitInclusive_flatten_append 10 lines _ hlines]

/-- An empty line is left, whatever comes before it. -/
theorem drops_blank (hnames : names.contains [] = false) {line : Bytes}
    (h : isBlank line = true) :
    startsFolded line = false ∧ names.contains (headerName (fromUtf8Lossy line)) = false := by
  unfold isBlank at h
  simp only [Bool.or_eq_true, decide_eq_true_eq] at h
  rcases h with rfl | rfl
  · refine ⟨by decide, ?_⟩
    rw [show headerName (fromUtf8Lossy [10]) = [] by decide]
    exact hnames
  · refine ⟨by decide, ?_⟩
    rw [show headerName (fromUtf8Lossy crlf) = [] by decide]
    exact hnames

/-- What is left before the first empty line is what is left of the lines before it. -/
theorem takeWhile_stripRaw (hnames : names.contains [] = false) (lines : List Bytes) :
    ∀ dropping, ((stripRaw names dropping lines).map reread).takeWhile (!isBlank ·)
      = (stripRaw names dropping (lines.takeWhile (!isBlank ·))).map reread := by
  induction lines with
  | nil => exact fun _ => rfl
  | cons line lines ih =>
      intro dropping
      cases hblank : isBlank line with
      | true =>
          obtain ⟨hfolded, hname⟩ := drops_blank hnames hblank
          rw [List.takeWhile_cons_of_neg (by simp [hblank])]
          unfold stripRaw
          simp only [strip, hfolded, hname, Bool.false_eq_true, if_false,
            List.map_cons, List.map_nil]
          rw [List.takeWhile_cons_of_neg (by simp [isBlank_reread, hblank])]
      | false =>
          rw [List.takeWhile_cons_of_pos (by simp [hblank])]
          unfold stripRaw at ih ⊢
          simp only [strip]
          generalize (if startsFolded line then dropping
            else names.contains (headerName (fromUtf8Lossy line))) = dropped
          cases dropped with
          | true => exact ih true
          | false =>
              simp only [Bool.false_eq_true, if_false]
              rw [List.map_cons, List.map_cons,
                List.takeWhile_cons_of_pos (by simp [isBlank_reread, hblank]), ih]

/-- Without an empty line, is the last line left and not closed?  The line end that the
rewriter puts before the body then closes it. -/
def OpenEnd (names : List Str) (raw : Bytes) : Prop :=
  (∀ line ∈ splitInclusive 10 raw, isBlank line = false) ∧
    ∃ kept last, stripRaw names false (splitInclusive 10 raw) = kept ++ [last] ∧ 10 ∉ last

/-- All lines that are left are closed, or all but the last. -/
theorem stripRaw_cases (names : List Str) (raw : Bytes) :
    (∀ line ∈ stripRaw names false (splitInclusive 10 raw), Closed line) ∨
      ∃ kept last, stripRaw names false (splitInclusive 10 raw) = kept ++ [last] ∧ 10 ∉ last ∧
        ∀ line ∈ kept, Closed line := by
  rcases splitInclusive_cases (10 : UInt8) raw with hall | ⟨lines, last, hlines, hlast, hall⟩
  · exact Or.inl fun line h => hall line ((stripRaw_sublist _ _ _).subset h)
  · obtain ⟨dropping, happend⟩ := stripRaw_append names false lines
    have hkept := fun line h => hall line ((stripRaw_sublist names false lines).subset h)
    rw [hlines, happend]
    rcases List.sublist_singleton.mp (stripRaw_sublist names dropping [last]) with h | h
    · rw [h, List.append_nil]
      exact Or.inl hkept
    · rw [h]
      exact Or.inr ⟨_, last, rfl, hlast, hkept⟩

/-- An empty line is never dropped. -/
theorem mem_stripRaw_blank (hnames : names.contains [] = false) {sep : Bytes}
    (hsep : isBlank sep = true) {lines : List Bytes} (h : sep ∈ lines) :
    ∀ dropping, sep ∈ stripRaw names dropping lines := by
  induction lines with
  | nil => exact nomatch h
  | cons line lines ih =>
      intro dropping
      unfold stripRaw at ih ⊢
      rcases List.mem_cons.mp h with rfl | h
      · obtain ⟨hfolded, hname⟩ := drops_blank hnames hsep
        simp only [strip, hfolded, hname, Bool.false_eq_true, if_false]
        exact List.mem_cons_self
      · simp only [strip]
        generalize (if startsFolded line then dropping
          else names.contains (headerName (fromUtf8Lossy line))) = dropped
        cases dropped with
        | true => exact ih h true
        | false => exact List.mem_cons_of_mem _ (ih h false)

/-- The header block that is written when only closed lines are left
of what was taken for it. -/
theorem headLines_closed (hnames : names.contains [] = false) (hinjected : ∃ p,
      encode injected = p ++ [10])
    (hblank : ∀ line ∈ splitInclusive 10 (encode injected), isBlank line = false)
    {lines : List Bytes} (hlines : ∀ line ∈ (stripRaw names false lines).map reread,
      Closed line) (body : Bytes) :
    headLines (encode injected ++ ((stripRaw names false lines).map reread).flatten ++ crlf ++
      body) = splitInclusive 10 (encode injected)
        ++ (stripRaw names false (lines.takeWhile (!isBlank ·))).map reread := by
  have hcrlf : splitInclusive (10 : UInt8) (crlf ++ body) = crlf :: splitInclusive 10 body :=
    splitInclusive_line 10 [13] body (by decide)
  unfold headLines
  rw [List.append_assoc, splitInclusive_relay hinjected hlines, hcrlf,
    List.takeWhile_append_of_pos (fun line h => by simp [hblank line h]),
    takeWhile_append_mark (p := (!isBlank ·)) (by decide), takeWhile_stripRaw hnames]

/-- The line end before the body goes on a line that is left open. -/
theorem splitInclusive_open {last : Bytes} (hlast : 10 ∉ last) :
    splitInclusive 10 (reread last ++ crlf) = [reread last ++ crlf] := by
  have hl : (10 : UInt8) ∉ reread last ++ [13] := by
    intro h
    rcases List.mem_append.mp h with h | h
    · exact not_mem_reread hlast h
    · exact absurd (List.mem_singleton.mp h) (by decide)
  have hone := splitInclusive_line (10 : UInt8) (reread last ++ [13]) [] hl
  rw [List.append_assoc] at hone
  exact hone

theorem not_isBlank_open {last : Bytes} (hne : last ≠ []) :
    isBlank (reread last ++ crlf) = false := by
  have hne' : reread last ≠ [] := fun h => by
    have hlen := length_le_reread last
    rw [h] at hlen
    exact hne (List.eq_nil_of_length_eq_zero (Nat.le_zero.mp hlen))
  obtain ⟨b, l, hl⟩ := List.exists_cons_of_ne_nil hne'
  rw [hl]
  unfold isBlank crlf
  cases l <;> simp

/-- The header block that is written when the last line is left and not closed: that line is
in it only if there is no empty one before. -/
theorem headLines_open (hnames : names.contains [] = false) (hinjected : ∃ p,
      encode injected = p ++ [10])
    (hblank : ∀ line ∈ splitInclusive 10 (encode injected), isBlank line = false) {raw : Bytes}
    {kept : List Bytes} {last : Bytes}
    (hstrip : stripRaw names false (splitInclusive 10 raw) = kept ++ [last])
    (hlast : 10 ∉ last) (hkept : ∀ line ∈ kept, Closed line) :
    ∃ written, headLines (encode injected ++ ((kept ++ [last]).map reread).flatten ++ crlf ++
      []) = splitInclusive 10 (encode injected) ++ written ∧
      ((∀ line ∈ splitInclusive 10 raw, isBlank line = false) ∧
          written = kept.map reread ++ [reread last ++ crlf] ∨
        (¬ ∀ line ∈ splitInclusive 10 raw, isBlank line = false) ∧
          written = (stripRaw names false (headLines raw)).map reread) := by
  have hwritten : ∀ line ∈ kept.map reread, Closed line := by
    intro line hline
    obtain ⟨line, hmem, rfl⟩ := List.mem_map.mp hline
    exact (hkept line hmem).reread
  have hne : last ≠ [] := ne_nil_of_mem_splitInclusive 10 raw
    ((stripRaw_sublist names false _).subset (by rw [hstrip]; simp))
  have hform : encode injected ++ ((kept ++ [last]).map reread).flatten ++ crlf ++ []
      = encode injected ++ (kept.map reread).flatten ++ (reread last ++ crlf) := by simp
  unfold headLines
  rw [hform, splitInclusive_relay hinjected hwritten, splitInclusive_open hlast,
    List.takeWhile_append_of_pos (fun line h => by simp [hblank line h])]
  refine ⟨_, rfl, ?_⟩
  by_cases hnone : ∀ line ∈ splitInclusive 10 raw, isBlank line = false
  · refine Or.inl ⟨hnone, List.takeWhile_eq_self_iff.mpr fun line hline => ?_⟩
    rcases List.mem_append.mp hline with h | h
    · obtain ⟨line, hmem, rfl⟩ := List.mem_map.mp h
      rw [isBlank_reread,
        hnone line ((stripRaw_sublist names false _).subset (by rw [hstrip]; simp [hmem]))]
      rfl
    · rw [List.mem_singleton.mp h, not_isBlank_open hne]
      rfl
  · -- an empty line is left among those before the last one, and ends the block there
    refine Or.inr ⟨hnone, ?_⟩
    push Not at hnone
    obtain ⟨sep, hmem, hsep⟩ := hnone
    have hsep : isBlank sep = true := by simpa using hsep
    have hin := mem_stripRaw_blank hnames hsep hmem false
    rw [hstrip] at hin
    have hsepkept : sep ∈ kept := by
      rcases List.mem_append.mp hin with h | h
      · exact h
      · obtain ⟨l, -, hl⟩ := closed_of_blank hsep
        exact absurd (by rw [← List.mem_singleton.mp h, hl]; simp) hlast
    rw [← takeWhile_stripRaw hnames, hstrip, List.map_append, List.map_singleton]
    obtain ⟨before, after, rfl⟩ := List.append_of_mem hsepkept
    have hmark : (!isBlank (reread sep)) = false := by rw [isBlank_reread, hsep]; rfl
    rw [List.map_append, List.map_cons, List.append_assoc, List.append_assoc, List.cons_append,
      List.cons_append, takeWhile_append_mark (p := (!isBlank ·)) hmark,
      takeWhile_append_mark (p := (!isBlank ·)) hmark]

/-- The header block that the rewriter makes, line by line: the injected one, and what is left
of the block of the message. -/
theorem headLines_relay (hnames : names.contains [] = false) (hinjected : ∃ p,
      encode injected = p ++ [10])
    (hblank : ∀ line ∈ splitInclusive 10 (encode injected), isBlank line = false)
    (raw : Bytes) :
    ∃ written, headLines (relay names injected raw) = splitInclusive 10
      (encode injected) ++ written ∧
      (¬ OpenEnd names raw ∧ written = (stripRaw names false (headLines raw)).map reread ∨
        OpenEnd names raw ∧ ∃ kept last, last ≠ [] ∧ stripRaw names false
          (headLines raw) = kept ++ [last] ∧
          written = kept.map reread ++ [reread last ++ crlf]) := by
  unfold relay
  rcases splitHeadersBody_cases raw with ⟨p, sep, body, hsep, hraw, hsplit⟩ | hsplit
  · -- the empty line where it splits ends the header block, if none before it does
    have hlines : splitInclusive 10 raw = splitInclusive 10 (p ++ [10]) ++ sep ::
        splitInclusive 10 body := by
      rw [hraw, splitInclusive_blank hsep]
    have hhead : headLines raw = (splitInclusive 10 (p ++ [10])).takeWhile (!isBlank ·) := by
      unfold headLines
      rw [hlines, takeWhile_append_mark (by simp [hsep])]
    refine ⟨_, ?_, Or.inl ⟨?_, rfl⟩⟩
    · rw [hsplit, stripHeaders_eq_raw, headLines_closed hnames hinjected hblank
        (closed_stripRaw names (closed_of_mem_splitInclusive 10 p)), hhead]
    · rintro ⟨hnone, -⟩
      rw [hnone sep (by rw [hlines]; simp)] at hsep
      cases hsep
  · rw [hsplit, stripHeaders_eq_raw]
    rcases stripRaw_cases names raw with hall | ⟨kept, last, hstrip, hlast, hall⟩
    · have hclosed : ∀ line ∈ (stripRaw names false (splitInclusive 10 raw)).map reread,
          Closed line := by
        intro line hline
        obtain ⟨line, hmem, rfl⟩ := List.mem_map.mp hline
        exact (hall line hmem).reread
      refine ⟨_, headLines_closed hnames hinjected hblank hclosed [], Or.inl ⟨?_, rfl⟩⟩
      rintro ⟨-, kept, last, hstrip, hlast⟩
      obtain ⟨l, -, rfl⟩ := hall last (by rw [hstrip]; simp)
      exact hlast (by simp)
    · obtain ⟨written, hwritten, hcases⟩ :=
        headLines_open hnames hinjected hblank hstrip hlast hall
      refine ⟨written, by rw [hstrip]; exact hwritten, ?_⟩
      rcases hcases with ⟨hnone, rfl⟩ | ⟨hsome, rfl⟩
      · refine Or.inr ⟨⟨hnone, kept, last, hstrip, hlast⟩, kept, last, ?_, ?_, rfl⟩
        · exact ne_nil_of_mem_splitInclusive 10 raw
            ((stripRaw_sublist names false _).subset (by rw [hstrip]; simp))
        · rw [headLines_eq hnone, hstrip]
      · exact Or.inl ⟨fun h => hsome h.1, rfl⟩

/-- The header block that the rewriter makes. -/
theorem headOf_relay (hnames : names.contains [] = false) (hinjected : ∃ p,
      encode injected = p ++ [10])
    (hblank : ∀ line ∈ splitInclusive 10 (encode injected), isBlank line = false)
    (raw : Bytes) :
    ∃ tail, headOf (relay names injected raw)
        = encode injected ++ ((stripRaw names false (headLines raw)).map reread).flatten ++
          tail ∧
      (¬ OpenEnd names raw ∧ tail = [] ∨ OpenEnd names raw ∧ tail = crlf) := by
  obtain ⟨written, hlines, hwritten⟩ := headLines_relay hnames hinjected hblank raw
  unfold headOf
  rw [hlines, List.flatten_append, flatten_splitInclusive]
  rcases hwritten with ⟨hopen, rfl⟩ | ⟨hopen, kept, last, -, hstrip, rfl⟩
  · exact ⟨[], (List.append_nil _).symm, Or.inl ⟨hopen, rfl⟩⟩
  · refine ⟨crlf, ?_, Or.inr ⟨hopen, rfl⟩⟩
    rw [hstrip]
    simp

end

end Weiterleitung
