/-
# `Smtp.Client` — what a client that waits for its replies gets across

A client greets and sends its messages one after the other: `MAIL`, a `RCPT` for each
recipient, and `DATA` with the stuffed lines if one of them was taken, `RSET` if none was.
What is to come of a message says `transfer`, without lines and commands: the recipients are
asked for in turn until fifty are taken, and the message goes to the
handler with those that were.

    a path is read back from its line                          (`parse_argument`)
    what the client says of one message                        (`leads_mail`)
    the session over everything it says is the transfer        (`handleSession_transfers`)
-/
import Mathlib
import Weiterleitung.Smtp.Argument
import Weiterleitung.Smtp.Dialogue

namespace Weiterleitung

open Text Utf8 Lines

/-! ## Messages and reports -/

/-- A text without line ends. -/
def oneLine (s : Str) : Bool := s.all fun c => c ≠ '\r' && c ≠ '\n'

/-- An address and the parameters after it, on a line that is not too long. -/
structure Path where
  address : Str
  parameters : Str
  isPath_address : isPath address = true
  oneLine_parameters : oneLine parameters = true
  fits : len address + len parameters + 7 ≤ maxLineLength

/-- A message that a client has to send. -/
structure Mail where
  sender : Path
  recipients : List Path
  lines : List Bytes
  no_feed : ∀ line ∈ lines, 10 ∉ line

/-- The answer to a recipient. -/
inductive Answer where
  | asked (d : RecipientDecision)
  /-- The message has as many recipients as it can have. -/
  | full
  deriving DecidableEq

/-- What became of a message. -/
inductive Fate where
  /-- None of its recipients was taken. -/
  | dropped
  | tooLarge
  | handed (envelope : Envelope) (result : Except Str Unit)
  deriving DecidableEq

/-- What a client is told about a message. -/
structure Report where
  mailFrom : Str
  answers : List (Str × Answer)
  fate : Fate
  deriving DecidableEq

/-- The recipients that were taken. -/
def takenOf (answers : List (Str × Answer)) : List Str :=
  (answers.filter fun a => a.2 = .asked .accept).map (·.1)

section
variable {σ : Type} (handler : MailHandler σ) (config : SessionConfig)

/-- A recipient is asked for, unless as many are taken as a message can have. -/
def askRecipient (mailFrom : Str) (taken : List Str) (recipient : Str) (h : σ) : Answer × σ :=
  if taken.length ≥ maxRecipients then (.full, h)
  else
    match handler.verifyRecipient mailFrom recipient h with
    | (d, h') => (.asked d, h')

/-- The recipients are asked for in turn. -/
def offer (mailFrom : Str) : List Str → List Str → σ → List (Str × Answer) × σ
  | _, [], h => ([], h)
  | taken, r :: rs, h =>
      let one := askRecipient handler mailFrom taken r h
      let rest := offer mailFrom (taken ++ takenOf [(r, one.1)]) rs one.2
      ((r, one.1) :: rest.1, rest.2)

/-- A message goes to the handler with the recipients that were taken, if there
are any and its lines fit. -/
def settle (mailFrom : Str) (taken : List Str) (lines : List Bytes) (h : σ) : Fate × σ :=
  if taken.isEmpty then (.dropped, h)
  else if payloadLength lines > config.maxMessageSize then (.tooLarge, h)
  else
    match handler.handle ⟨mailFrom, taken, unlines lines⟩ h with
    | (result, h') => (.handed ⟨mailFrom, taken, unlines lines⟩ result, h')

def transfer (m : Mail) (h : σ) : Report × σ :=
  let offered := offer handler m.sender.address [] (m.recipients.map (·.address)) h
  let settled := settle handler config m.sender.address (takenOf offered.1) m.lines offered.2
  (⟨m.sender.address, offered.1, settled.1⟩, settled.2)

/-- One message after the other. -/
def transferAll : List Mail → σ → List Report × σ
  | [], h => ([], h)
  | m :: ms, h =>
      let one := transfer handler config m h
      let rest := transferAll ms one.2
      (one.1 :: rest.1, rest.2)

end

/-! ## What the client hears -/

/-- What was answered and done in an exchange. -/
structure Deed where
  replies : List Str
  verified : Option (Str × Str × RecipientDecision)
  handled : Option (Envelope × Except Str Unit)
  deriving DecidableEq

def Exchange.deed (x : Exchange) : Deed := ⟨x.replies, x.verified, x.handled⟩

def Answer.deed (mailFrom recipient : Str) : Answer → Deed
  | asked .accept =>
      ⟨["250 2.1.5 Recipient ok".toList], some (mailFrom, recipient, .accept), none⟩
  | asked (.reject reason) =>
      ⟨["550 5.1.1 ".toList ++ reason], some (mailFrom, recipient, .reject reason), none⟩
  | full => ⟨["452 4.5.3 Too many recipients".toList], none, none⟩

def Fate.deed : Fate → Deed
  | dropped => ⟨["250 2.0.0 Ok".toList], none, none⟩
  | tooLarge => ⟨[startData, tooLargeReply], none, none⟩
  | handed envelope result => ⟨[startData, dataReply result], none, some (envelope, result)⟩

namespace Report

variable (r : Report)

/-- The exchanges over the recipients. -/
def asked : List Deed := r.answers.map fun a => a.2.deed r.mailFrom a.1

def deeds : List Deed := ⟨[senderOk], none, none⟩ :: (r.asked ++ [r.fate.deed])

/-- The replies to the recipients. -/
def heard : List Str := r.asked.flatMap (·.replies)

end Report

/-! ## What the client says -/

/-- A command on a line of its own. -/
def spoken (text : Str) : Bytes := encode (text ++ ['\r', '\n'])

/-- A reply that says yes. -/
def positive (reply : Str) : Bool := reply.head? = some '2'

def Path.argument (word : Str) (p : Path) : Str :=
  PathForm.bracketed.argument word p.address p.parameters

/-- The lines of a message for a client that hears these replies to its recipients. -/
def Mail.script (m : Mail) (heard : List Str) : List Bytes :=
  spoken ("MAIL".toList ++ ' ' :: m.sender.argument "FROM") ::
    (m.recipients.map fun p => spoken ("RCPT".toList ++ ' ' :: p.argument "TO")) ++
    if heard.any positive then spoken "DATA" :: (m.lines.map sentLine ++ [[46, 13, 10]])
    else [spoken "RSET"]

/-- How a client greets. -/
structure Hello where
  /-- `EHLO`, or `HELO`. -/
  extended : Bool
  domain : Str
  oneLine_domain : oneLine domain = true

def Hello.text (hello : Hello) : Str :=
  (if hello.extended then "EHLO".toList else "HELO".toList) ++ ' ' :: hello.domain

def Hello.deed (config : SessionConfig) (hello : Hello) : Deed :=
  ⟨if hello.extended then ehloReplies config else ["250 ".toList ++ config.hostname],
    none, none⟩

/-- The lines of messages for a client that hears of each what is reported of it. -/
def scripts (mails : List Mail) (reports : List Report) : List Bytes :=
  (List.zipWith (fun (m : Mail) (r : Report) => m.script r.heard) mails reports).flatten

/-- Everything a client says, line by line. -/
def speech (hello : Hello) (mails : List Mail) (reports : List Report) : List Bytes :=
  spoken hello.text :: (scripts mails reports ++ [spoken "QUIT"])

def bye : Deed := ⟨["221 2.0.0 Bye".toList], none, none⟩

/-- Everything a client hears. -/
def conversation (config : SessionConfig) (hello : Hello) (reports : List Report) :
    List Deed :=
  hello.deed config :: (reports.flatMap Report.deeds ++ [bye])

/-! ## A line is read as it was meant -/

theorem of_mem_oneLine {s : Str} (h : oneLine s = true) {c : Char} (hc : c ∈ s) :
    c ≠ '\r' ∧ c ≠ '\n' := by
  have h := List.all_eq_true.mp h c hc
  simp only [Bool.and_eq_true, decide_eq_true_eq] at h
  exact h

theorem oneLine_append {s t : Str} : oneLine (s ++ t) = (oneLine s && oneLine t) :=
  List.all_append

theorem oneLine_cons {c : Char} {s : Str} :
    oneLine (c :: s) = ((c ≠ '\r' && c ≠ '\n') && oneLine s) := List.all_cons

theorem oneLine_of_isPath {a : Str} (h : isPath a = true) : oneLine a = true := by
  refine List.all_eq_true.mpr fun c hc => ?_
  have hspace := (of_mem_isPath h hc).1
  have hne : ∀ d, Unicode.isWhitespace d = true → c ≠ d := by
    rintro d hd rfl
    rw [hspace] at hd
    cases hd
  simp [hne '\r' (by decide), hne '\n' (by decide)]

theorem spoken_eq (text : Str) : spoken text = encode (text ++ ['\r']) ++ [10] := by
  unfold spoken encode
  rw [List.flatMap_append, List.flatMap_append, List.append_assoc]
  rfl

/-- A line that ends in CR LF is read, whatever becomes of the stream after it. -/
theorem readLine_spoken (broken : Bool) (text : Str) :
    readLine broken (spoken text) = .ok (text ++ ['\r', '\n']) := by
  refine (readLine_eq_ok broken).mpr ⟨?_, fromUtf8_eq_some.mpr rfl⟩
  rw [spoken_eq]
  exact torn_closed 10 broken _

theorem trimLineEnd_spoken {text : Str} (h : oneLine text = true) :
    trimLineEnd (text ++ ['\r', '\n']) = text := by
  have hends : text ++ ['\r', '\n'] = (text ++ ['\r']) ++ ['\n'] := by simp
  unfold trimLineEnd
  rw [hends, List.rdropWhile_concat_pos _ _ _ (by decide),
    List.rdropWhile_concat_pos _ _ _ (by decide)]
  refine List.rdropWhile_eq_self_iff.mpr fun hne => ?_
  obtain ⟨hr, hn⟩ := of_mem_oneLine h (List.getLast_mem hne)
  simp [hr, hn]

/-- A spoken command is one line of the stream. -/
theorem closed_spoken {text : Str} (h : oneLine text = true) :
    ∃ l, (10 : UInt8) ∉ l ∧ spoken text = l ++ [10] := by
  refine ⟨_, fun hm => ?_, spoken_eq text⟩
  have hmem : '\n' ∈ text ++ ['\r'] := mem_encode_ascii (by decide) hm
  rcases List.mem_append.mp hmem with hm | hm
  · exact (of_mem_oneLine h hm).2 rfl
  · exact absurd (List.mem_singleton.mp hm) (by decide)

theorem splitCommand_spoken {verb : Str} (hverb : ' ' ∉ verb) (rest : Str) :
    splitCommand (verb ++ ' ' :: rest) = (Verb.parse (toAsciiUppercase verb), trim rest) := by
  unfold splitCommand
  rw [splitOnce_append rest hverb]

namespace Path

variable (p : Path) {word : Str}

theorem oneLine_argument (hword : oneLine word = true) : oneLine (p.argument word) = true := by
  unfold argument PathForm.argument
  simp [oneLine_append, oneLine_cons, hword, oneLine_of_isPath p.isPath_address,
    p.oneLine_parameters]

theorem len_argument (hword : word ∈ keywords) : len (p.argument word) ≤ maxLineLength := by
  have hshort : len word ≤ 4 := by
    have hall : (keywords.all fun k => len k ≤ 4) = true := by decide
    exact of_decide_eq_true (List.all_eq_true.mp hall word hword)
  have hfits := p.fits
  have hsigns : ':'.utf8Size = 1 ∧ '<'.utf8Size = 1 ∧ '>'.utf8Size = 1 := by decide
  unfold argument PathForm.argument
  simp only [List.cons_append, len_append, len_cons, hsigns]
  omega

/-- A path is read back from its line, whatever its parameters. -/
theorem parse_argument (hword : word ∈ keywords) :
    parseAddressArgument (trim (p.argument word)) word = some p.address := by
  have hself : eqIgnoreAsciiCase word word = true := decide_eq_true rfl
  have htrim : trim (p.argument word)
      = PathForm.bracketed.argument word p.address (trimEnd p.parameters) := by
    unfold argument PathForm.argument
    rw [trim_keyword hword hself, trimEnd_append_cons (by decide)]
  rw [htrim]
  refine parse_bracketed hword hself p.isPath_address ?_
  obtain ⟨more, hmore⟩ := trimEnd_prefix p.parameters
  have hlen := p.len_argument hword
  unfold argument at hlen
  rw [← hmore] at hlen
  simp only [PathForm.argument, List.cons_append, len_append, len_cons] at hlen ⊢
  omega

end Path

/-! ## What is said is answered -/

section
variable {σ : Type} {handler : MailHandler σ} {config : SessionConfig} {broken : Bool}

/-- From one position to another, with these deeds on the way. -/
def Leads (handler : MailHandler σ) (config : SessionConfig) (broken : Bool) (p : Position σ)
    (ds : List Deed) (q : Position σ) : Prop :=
  ∃ xs, Turns handler config broken p xs q ∧ xs.map Exchange.deed = ds

/-- The reply lines of some deeds. -/
def width (ds : List Deed) : Nat := (ds.flatMap (·.replies)).length

@[simp] theorem width_cons (d : Deed) (ds : List Deed) :
    width (d :: ds) = d.replies.length + width ds := by
  simp [width]

@[simp] theorem width_append (ds es : List Deed) : width (ds ++ es) = width ds + width es := by
  simp [width]

@[simp] theorem width_nil : width [] = 0 := rfl

theorem Turns.append {p q r : Position σ} {xs ys : List Exchange}
    (h : Turns handler config broken p xs q)
    (h' : Turns handler config broken q ys r) :
    Turns handler config broken p (xs ++ ys) r := by
  induction h with
  | done p => exact h'
  | turn htext hdef hle hnext _ ih => exact .turn htext hdef hle hnext (ih h')

theorem Leads.refl (p : Position σ) : Leads handler config broken p [] p := ⟨[], .done p, rfl⟩

theorem Leads.append {p q r : Position σ} {d e : List Deed}
    (h : Leads handler config broken p d q)
    (h' : Leads handler config broken q e r) : Leads handler config broken p (d ++ e) r := by
  obtain ⟨xs, hxs, rfl⟩ := h
  obtain ⟨ys, hys, rfl⟩ := h'
  exact ⟨xs ++ ys, hxs.append hys, List.map_append⟩

/-- A command that is answered. -/
theorem leads_spoken {text : Str} (htext : oneLine text = true) {s s' : SessionState}
    {room : Nat} {lines lines' : List Bytes} {h h' : σ} (d : Deed)
    (hdef : command handler config broken (d.replies.length + room) s text lines h
      = ⟨⟨text, lines, d.replies, d.verified, d.handled⟩, .more s' lines', h'⟩) :
    Leads handler config broken ⟨d.replies.length + room, s, spoken text :: lines, h⟩ [d]
      ⟨room, s', lines', h'⟩ := by
  refine ⟨[⟨text, lines, d.replies, d.verified, d.handled⟩], ?_, rfl⟩
  have hread :
      (⟨⟨text, lines, d.replies, d.verified, d.handled⟩, .more s' lines', h'⟩ : Step σ)
      = command handler config broken (d.replies.length + room) s
        (trimLineEnd (text ++ ['\r', '\n'])) lines h := by
    rw [trimLineEnd_spoken htext]
    exact hdef.symm
  refine .turn (readLine_spoken broken text) hread (Nat.le_add_right _ _) rfl ?_
  dsimp only
  rw [Nat.add_sub_cancel_left]
  exact .done _

variable (handler config broken)

theorem leads_mail (p : Path) {s : SessionState} (hgreeted : s.greeted = true) (room : Nat)
    (lines : List Bytes) (h : σ) :
    Leads handler config broken
      ⟨1 + room, s, spoken ("MAIL".toList ++ ' ' :: p.argument "FROM") :: lines, h⟩
      [⟨[senderOk], none, none⟩]
      ⟨room, { s with haveSender := true, envelope := ⟨p.address, [], []⟩ }, lines, h⟩ := by
  have hword : "FROM".toList ∈ keywords := List.mem_cons_self
  have hline : oneLine ("MAIL".toList ++ ' ' :: p.argument "FROM") = true := by
    rw [oneLine_append, oneLine_cons, p.oneLine_argument (by decide)]
    decide
  have hsplit : splitCommand ("MAIL".toList ++ ' ' :: p.argument "FROM")
      = (.mail, trim (p.argument "FROM")) :=
    splitCommand_spoken (by decide) _
  refine leads_spoken hline ⟨[senderOk], none, none⟩ ?_
  simp only [command, hsplit, hgreeted, if_true, p.parse_argument hword]
  rfl

theorem leads_rcpt (p : Path)
    (greeted : Bool) (mailFrom : Str) (room : Nat) (lines : List Bytes)
    (taken : List Str) (h : σ) :
    Leads handler config broken
      ⟨(((askRecipient handler mailFrom taken p.address h).1.deed mailFrom
        p.address).replies.length + room),
        ⟨greeted, true, ⟨mailFrom, taken, []⟩⟩,
        spoken ("RCPT".toList ++ ' ' :: p.argument "TO") :: lines, h⟩
      [(askRecipient handler mailFrom taken p.address h).1.deed mailFrom p.address]
      ⟨room, ⟨greeted, true,
          ⟨mailFrom, taken ++ takenOf
            [(p.address, (askRecipient handler mailFrom taken p.address h).1)], []⟩⟩,
        lines, (askRecipient handler mailFrom taken p.address h).2⟩ := by
  have hline : oneLine ("RCPT".toList ++ ' ' :: p.argument "TO") = true := by
    rw [oneLine_append, oneLine_cons, p.oneLine_argument (by decide)]
    decide
  have hsplit : splitCommand ("RCPT".toList ++ ' ' :: p.argument "TO")
      = (.rcpt, trim (p.argument "TO")) :=
    splitCommand_spoken (by decide) _
  have hparse : parseAddressArgument (trim (p.argument "TO")) "TO" = some p.address :=
    p.parse_argument (by decide)
  refine leads_spoken hline _ ?_
  unfold askRecipient
  by_cases hfull : taken.length ≥ maxRecipients
  · simp only [command, hsplit, if_true, if_pos hfull, takenOf]
    simp [Answer.deed, say]
  · rcases hverify : handler.verifyRecipient mailFrom p.address h with ⟨_ | reason, h'⟩
    · simp only [command, hsplit, if_true, if_neg hfull, hparse, hverify, takenOf]
      simp [Answer.deed]
    · simp only [command, hsplit, if_true, if_neg hfull, hparse, hverify, takenOf]
      simp [Answer.deed]

theorem takenOf_cons (a : Str × Answer) (as : List (Str × Answer)) :
    takenOf (a :: as) = takenOf [a] ++ takenOf as := by
  unfold takenOf
  rw [← List.map_append, ← List.filter_append]
  rfl

/-- The recipients of a message, one line each. -/
theorem leads_rcpts (greeted : Bool) (mailFrom : Str) (room : Nat) (lines : List Bytes) :
    ∀ (ps : List Path) (taken : List Str) (h : σ) (answers : List (Str × Answer)) (h' : σ),
      offer handler mailFrom taken (ps.map (·.address)) h = (answers, h') →
      Leads handler config broken
        ⟨width (answers.map fun a => a.2.deed mailFrom a.1) + room,
          ⟨greeted, true, ⟨mailFrom, taken, []⟩⟩,
          (ps.map fun p => spoken ("RCPT".toList ++ ' ' :: p.argument "TO")) ++ lines, h⟩
        (answers.map fun a => a.2.deed mailFrom a.1)
        ⟨room, ⟨greeted, true, ⟨mailFrom, taken ++ takenOf answers, []⟩⟩, lines, h'⟩ := by
  intro ps
  induction ps with
  | nil =>
      intro taken h answers h' hoffer
      cases hoffer
      simpa [takenOf] using Leads.refl _
  | cons p ps ih =>
      intro taken h answers h' hoffer
      have hone := leads_rcpt handler config broken p greeted mailFrom
      rw [List.map_cons, offer] at hoffer
      specialize hone (width (answers.tail.map fun a => a.2.deed mailFrom a.1) + room)
        (ps.map (fun p => spoken ("RCPT".toList ++ ' ' :: p.argument "TO")) ++ lines) taken h
      generalize askRecipient handler mailFrom taken p.address h = one at hoffer hone
      rcases hrest : offer handler mailFrom (taken ++ takenOf [(p.address, one.1)])
        (ps.map (·.address)) one.2 with
        ⟨rest, h''⟩
      rw [hrest] at hoffer
      cases hoffer
      rw [List.map_cons, List.map_cons, width_cons, Nat.add_assoc, List.cons_append,
        takenOf_cons, ← List.append_assoc]
      exact hone.append (ih _ _ _ _ hrest)

/-! ## A whole message -/

/-- The client hears a yes exactly if somebody was taken. -/
theorem positive_heard (mailFrom : Str) (answers : List (Str × Answer)) (fate : Fate) :
    (Report.heard ⟨mailFrom, answers, fate⟩).any positive = true ↔ takenOf answers ≠ [] := by
  have hyes : ∀ a : Str × Answer, (a.2.deed mailFrom a.1).replies.any positive = true ↔
      a.2 = .asked .accept := by
    rintro ⟨r, (_ | reason) | _⟩
    · exact iff_of_true rfl rfl
    · refine iff_of_false ?_ (by simp)
      simp [Answer.deed, positive]
    · refine iff_of_false ?_ (by simp)
      simp [Answer.deed, positive]
  unfold Report.heard Report.asked takenOf
  rw [List.any_eq_true]
  simp only [ne_eq, List.map_eq_nil_iff, List.filter_eq_nil_iff, decide_eq_true_eq, not_forall,
    not_not, List.mem_flatMap, List.mem_map]
  constructor
  · rintro ⟨reply, ⟨d, ⟨a, ha, rfl⟩, hreply⟩, hpos⟩
    exact ⟨a, ha, (hyes a).mp (List.any_eq_true.mpr ⟨reply, hreply, hpos⟩)⟩
  · rintro ⟨a, ha, haccept⟩
    obtain ⟨reply, hreply, hpos⟩ := List.any_eq_true.mp ((hyes a).mpr haccept)
    exact ⟨reply, ⟨_, ⟨a, ha, rfl⟩, hreply⟩, hpos⟩

/-- The payload of a message is read back if it fits, and the reader stands behind it. -/
theorem readData_sentLines (maxMessageSize : Nat) (lines rest : List Bytes) :
    readData broken maxMessageSize (lines.map sentLine ++ [46, 13, 10] :: rest)
      = .ok (if payloadLength lines > maxMessageSize then .error tooLargeReply
        else .ok (unlines lines), rest) := by
  rw [readData, readDataLoop_stops broken maxMessageSize (endsPayload_sentLines broken lines),
    verdict_sentLines maxMessageSize lines [] (Nat.zero_le _)]
  simp only [List.length_nil, Nat.zero_add, List.nil_append, ← Nat.not_lt, ite_not, gt_iff_lt]

/-- The variables between two messages. -/
def SessionState.ready : SessionState := ⟨true, false, .empty⟩

theorem leads_rset {s : SessionState} (hgreeted : s.greeted = true) (room : Nat)
    (lines : List Bytes) (h : σ) :
    Leads handler config broken ⟨1 + room, s, spoken "RSET" :: lines, h⟩ [Fate.dropped.deed]
      ⟨room, .ready, lines, h⟩ := by
  have hline : oneLine "RSET".toList = true := by decide
  have hverb : (splitCommand "RSET".toList).1 = .rset := by decide
  refine leads_spoken hline Fate.dropped.deed ?_
  simp only [command, hverb, say, SessionState.ready, hgreeted]
  rfl

/-- What follows the recipients: the message with its `DATA`, or `RSET`. -/
theorem leads_settle (mailFrom : Str) (taken : List Str) (room : Nat)
    (content lines : List Bytes) (h : σ) :
    Leads handler config broken
      ⟨(settle handler config mailFrom taken content h).1.deed.replies.length + room,
        ⟨true, true, ⟨mailFrom, taken, []⟩⟩,
        (if taken.isEmpty then [spoken "RSET"] else spoken "DATA" ::
          (content.map sentLine ++ [[46, 13, 10]])) ++ lines,
        h⟩
      [(settle handler config mailFrom taken content h).1.deed]
      ⟨room, .ready, lines, (settle handler config mailFrom taken content h).2⟩ := by
  unfold settle
  cases hempty : taken.isEmpty with
  | true => exact leads_rset handler config broken rfl room lines h
  | false =>
      have hline : oneLine "DATA".toList = true := by decide
      have hverb : (splitCommand "DATA".toList).1 = .data := by decide
      have hread := readData_sentLines broken config.maxMessageSize content lines
      have hlines : content.map sentLine ++ [[46, 13, 10]] ++ lines = content.map sentLine ++
          [46, 13, 10] :: lines := by
        simp
      simp only [Bool.false_eq_true, if_false, List.cons_append, hlines]
      by_cases hlarge : payloadLength content > config.maxMessageSize
      · rw [if_pos hlarge] at hread ⊢
        refine leads_spoken hline Fate.tooLarge.deed ?_
        simp only [command, hverb, hempty, hread]
        simp [Fate.deed, SessionState.ready]
      · rw [if_neg hlarge] at hread ⊢
        rcases hhandle : handler.handle ⟨mailFrom, taken, unlines content⟩ h with ⟨result, h'⟩
        simp only [hhandle]
        refine leads_spoken hline (Fate.handed _ result).deed ?_
        simp only [command, hverb, hempty, hread, hhandle]
        simp [Fate.deed, SessionState.ready]

/-- One message, as the client says it that hears the answers to it. -/
theorem leads_transfer (m : Mail) (room : Nat) (lines : List Bytes) (h : σ) :
    Leads handler config broken
      ⟨width (transfer handler config m h).1.deeds + room, .ready,
        m.script (transfer handler config m h).1.heard ++ lines, h⟩
      (transfer handler config m h).1.deeds
        ⟨room, .ready, lines, (transfer handler config m h).2⟩ := by
  rcases hoffer : offer handler m.sender.address [] (m.recipients.map (·.address)) h
    with ⟨answers, h'⟩
  have hsettle := leads_settle handler config broken m.sender.address
    (takenOf answers) room m.lines lines h'
  have hrcpts := leads_rcpts handler config broken true m.sender.address
    ((settle handler config m.sender.address (takenOf answers)
      m.lines h').1.deed.replies.length + room)
    ((if (takenOf answers).isEmpty then [spoken "RSET"]
      else spoken "DATA" :: (m.lines.map sentLine ++ [[46, 13, 10]])) ++ lines) m.recipients
        [] h answers h' hoffer
  unfold transfer
  rw [hoffer]
  dsimp only
  generalize settle handler config m.sender.address (takenOf answers) m.lines h'
    = settled at hsettle hrcpts ⊢
  -- the client goes on with `DATA` exactly if somebody was taken
  have hscript : m.script (Report.heard ⟨m.sender.address, answers, settled.1⟩) ++ lines
      = spoken ("MAIL".toList ++ ' ' :: m.sender.argument "FROM") ::
        ((m.recipients.map fun p => spoken ("RCPT".toList ++ ' ' :: p.argument "TO")) ++
          ((if (takenOf answers).isEmpty then [spoken "RSET"]
            else spoken "DATA" :: (m.lines.map sentLine ++ [[46, 13, 10]])) ++ lines)) := by
    have hheard := positive_heard m.sender.address answers settled.1
    unfold Mail.script
    rw [List.append_assoc, List.cons_append]
    by_cases hempty : takenOf answers = []
    · rw [if_neg (fun h => hheard.mp h hempty), if_pos (List.isEmpty_iff.mpr hempty)]
    · rw [if_pos (hheard.mpr hempty), if_neg (fun h => hempty (List.isEmpty_iff.mp h))]
  have hwidth : width (Report.deeds ⟨m.sender.address, answers, settled.1⟩) + room
      = 1 + (width (answers.map fun a => a.2.deed m.sender.address a.1)
        + (settled.1.deed.replies.length + room)) := by
    simp only [Report.deeds, Report.asked, width_cons, width_append, width_nil,
      List.length_cons, List.length_nil]
    omega
  rw [hscript, hwidth]
  refine Leads.append (d := [_]) ?_ (hrcpts.append hsettle)
  exact leads_mail handler config broken m.sender rfl _ _ h

/-! ## All of them -/

theorem leads_transferAll (room : Nat) (lines : List Bytes) : ∀ (mails : List Mail) (h : σ),
    Leads handler config broken
      ⟨width ((transferAll handler config mails h).1.flatMap Report.deeds) + room, .ready,
        scripts mails (transferAll handler config mails h).1 ++ lines, h⟩
      ((transferAll handler config mails h).1.flatMap Report.deeds)
      ⟨room, .ready, lines, (transferAll handler config mails h).2⟩ := by
  intro mails
  induction mails with
  | nil =>
      intro h
      simpa [transferAll, scripts] using Leads.refl _
  | cons m ms ih =>
      intro h
      have hone := leads_transfer handler config broken m
        (width ((transferAll handler config ms (transfer handler config m h).2).1.flatMap
          Report.deeds) + room)
        (scripts ms (transferAll handler config ms (transfer handler config m h).2).1 ++ lines)
        h
      have hboth := hone.append (ih (transfer handler config m h).2)
      simpa only [transferAll, scripts, List.zipWith_cons_cons, List.flatten_cons,
        List.flatMap_cons, width_append, List.append_assoc, Nat.add_assoc] using hboth

theorem leads_hello (hello : Hello) (s : SessionState) (room : Nat)
    (lines : List Bytes) (h : σ) :
    Leads handler config broken
      ⟨(hello.deed config).replies.length + room, s, spoken hello.text :: lines, h⟩
      [hello.deed config] ⟨room, .ready, lines, h⟩ := by
  obtain ⟨extended, domain, hdomain⟩ := hello
  cases extended with
  | true =>
      have hsplit : splitCommand ("EHLO".toList ++ ' ' :: domain) = (.ehlo, trim domain) :=
        splitCommand_spoken (by decide) _
      have hline : oneLine ("EHLO".toList ++ ' ' :: domain) = true := by
        rw [oneLine_append, oneLine_cons, hdomain]
        decide
      refine leads_spoken hline ⟨ehloReplies config, none, none⟩ ?_
      simp only [command, hsplit]
      rfl
  | false =>
      have hsplit : splitCommand ("HELO".toList ++ ' ' :: domain) = (.helo, trim domain) :=
        splitCommand_spoken (by decide) _
      have hline : oneLine ("HELO".toList ++ ' ' :: domain) = true := by
        rw [oneLine_append, oneLine_cons, hdomain]
        decide
      refine leads_spoken hline ⟨["250 ".toList ++ config.hostname], none, none⟩ ?_
      simp only [command, hsplit]
      rfl

/-- `QUIT` ends the session, whatever comes after it. -/
theorem rest_quit (s : SessionState) (room : Nat) (lines : List Bytes) (h : σ) :
    ∃ x : Exchange, x.deed = bye ∧
      Position.rest handler config broken ⟨room + 1, s, spoken "QUIT" :: lines, h⟩
        = ⟨[x], h, .ok ()⟩ := by
  have hline : oneLine "QUIT".toList = true := by decide
  have hverb : (splitCommand "QUIT".toList).1 = .quit := by decide
  refine ⟨⟨"QUIT", lines, bye.replies, none, none⟩, rfl, ?_⟩
  have hone : ¬ room + 1 < 1 := by omega
  unfold Position.rest
  dsimp only
  rw [sessionLoop, readLine_spoken]
  dsimp only
  rw [trimLineEnd_spoken hline]
  simp only [command, hverb, List.length_singleton, if_neg hone]
  rfl

/-- Each line of a message is one line of the stream. -/
theorem closed_script (m : Mail) (heard : List Str) :
    ∀ line ∈ m.script heard, ∃ l, (10 : UInt8) ∉ l ∧ line = l ++ [10] := by
  have hpath : ∀ {verb word : Str} (p : Path), oneLine verb = true → oneLine word = true →
      ∃ l, (10 : UInt8) ∉ l ∧ spoken (verb ++ ' ' :: p.argument word) = l ++ [10] := by
    intro verb word p hverb hword
    refine closed_spoken ?_
    rw [oneLine_append, oneLine_cons, hverb, p.oneLine_argument hword]
    decide
  intro line hline
  unfold Mail.script at hline
  rcases List.mem_append.mp hline with hline | hline
  · rcases List.mem_cons.mp hline with rfl | hline
    · exact hpath m.sender (by decide) (by decide)
    · obtain ⟨p, -, rfl⟩ := List.mem_map.mp hline
      exact hpath p (by decide) (by decide)
  · split at hline
    · rcases List.mem_cons.mp hline with rfl | hline
      · exact closed_spoken (by decide)
      · rcases List.mem_append.mp hline with hline | hline
        · obtain ⟨content, hcontent, rfl⟩ := List.mem_map.mp hline
          refine ⟨stuff content ++ [13], fun hm => ?_, by simp [sentLine, crlf]⟩
          rcases List.mem_append.mp hm with hm | hm
          · exact not_mem_stuff (m.no_feed content hcontent) hm
          · exact absurd (List.mem_singleton.mp hm) (by decide)
        · exact ⟨[46, 13], by decide, List.mem_singleton.mp hline⟩
    · cases List.mem_singleton.mp hline
      exact closed_spoken (by decide)

theorem closed_speech (hello : Hello) (mails : List Mail) (reports : List Report) :
    ∀ line ∈ speech hello mails reports, ∃ l, (10 : UInt8) ∉ l ∧ line = l ++ [10] := by
  intro line hline
  unfold speech at hline
  rcases List.mem_cons.mp hline with rfl | hline
  · refine closed_spoken ?_
    unfold Hello.text
    rw [oneLine_append, oneLine_cons, hello.oneLine_domain]
    cases hello.extended <;> decide
  · rcases List.mem_append.mp hline with hline | hline
    · obtain ⟨script, hscript, hline⟩ := List.mem_flatten.mp hline
      rw [← List.map_uncurry_zip_eq_zipWith] at hscript
      obtain ⟨⟨m, r⟩, -, rfl⟩ := List.mem_map.mp hscript
      exact closed_script m r.heard line hline
    · cases List.mem_singleton.mp hline
      exact closed_spoken (by decide)

/-- The session with a client that waits for its replies is the transfer of its messages: the
handler is asked and given what `transferAll` says, in that order, and the client hears of each
message what became of it. -/
theorem handleSession_transfers (hello : Hello) (mails : List Mail) (after : Bytes)
    (room : Nat) (h : σ)
    (hroom : width (conversation config hello (transferAll handler config mails h).1) < room) :
    ((handleSession handler config broken room
        ((speech hello mails (transferAll handler config mails h).1).flatten ++ after)
        h).trace.map Exchange.deed = conversation config hello
          (transferAll handler config mails h).1) ∧
    (handleSession handler config broken room
        ((speech hello mails (transferAll handler config mails h).1).flatten ++ after)
        h).handler = (transferAll handler config mails h).2 ∧
    (handleSession handler config broken room
        ((speech hello mails (transferAll handler config mails h).1).flatten ++ after)
        h).result = .ok () := by
  obtain ⟨more, rfl⟩ : ∃ more,
      room = width (conversation config hello (transferAll handler config mails h).1)
        + more + 1 :=
    ⟨room - width (conversation config hello (transferAll handler config mails h).1)
      - 1, by omega⟩
  have hall := leads_transferAll handler config broken (more + 1)
    (spoken "QUIT" :: splitInclusive 10 after) mails h
  generalize hrun : transferAll handler config mails h = run at hroom hall ⊢
  have hlines := splitInclusive_flatten_append 10 _ after (closed_speech hello mails run.1)
  have hhello := leads_hello handler config broken hello .initial
    (width (run.1.flatMap Report.deeds) + (more + 1))
    (scripts mails run.1 ++ spoken "QUIT" :: splitInclusive 10 after) h
  obtain ⟨xs, hturns, hdeeds⟩ := hhello.append hall
  obtain ⟨x, hbye, hquit⟩ := rest_quit handler config broken .ready more
    (splitInclusive 10 after) run.2
  have hrest := hturns.rest_eq
  rw [hquit] at hrest
  have hsplit : splitInclusive 10 ((speech hello mails run.1).flatten ++ after)
      = spoken hello.text ::
        (scripts mails run.1 ++ spoken "QUIT" :: splitInclusive 10 after) := by
    rw [hlines]
    simp [speech]
  have hwidth : width (conversation config hello run.1) + more
      = (hello.deed config).replies.length
        + (width (run.1.flatMap Report.deeds) + (more + 1)) := by
    simp only [conversation, width_cons, width_append, width_nil, bye,
      List.length_cons, List.length_nil]
    omega
  rw [handleSession_succ, hsplit, hwidth, hrest]
  refine ⟨?_, rfl, rfl⟩
  rw [List.map_append, hdeeds, List.map_singleton, hbye]
  rfl

end

/-- A handler that takes one recipient, and remembers what it is given. -/
def takeOne : MailHandler (List Envelope) where
  verifyRecipient _ recipient h :=
    (if recipient = "x@y.z".toList then .accept else .reject
      ("Unknown recipient ".toList ++ recipient), h)
  handle envelope h := (.ok (), h ++ [envelope])

/-- A message with a dot on its first line, one without a known recipient
and one that is too large. -/
def threeMails : List Mail :=
  let sender : Path := ⟨"a@b.c", " SIZE=100 BODY=8BITMIME", by decide, by decide, by decide⟩
  let known : Path := ⟨"x@y.z", [], by decide, by decide, by decide⟩
  let unknown : Path := ⟨"ü@y.z", [], by decide, by decide, by decide⟩
  [⟨sender, [unknown, known], [encode ".Hi".toList], by decide +kernel⟩,
    ⟨sender, [unknown], [encode "QUIT".toList], by decide +kernel⟩,
    ⟨sender, [known], [encode "0123456789".toList], by decide +kernel⟩]

theorem handleSession_transfers_three :
    let hello : Hello := ⟨true, "c", by decide⟩
    let reports := (transferAll takeOne ⟨"mx", 10⟩ threeMails []).1
    let o := handleSession takeOne ⟨"mx", 10⟩ true 100
      ((speech hello threeMails reports).flatten ++ [200, 10]) []
    reports.map (·.fate) = [.handed ⟨"a@b.c", ["x@y.z".toList], encode ".Hi\r\n".toList⟩
      (.ok ()), .dropped, .tooLarge] ∧
      o.trace.map Exchange.deed = conversation ⟨"mx", 10⟩ hello reports ∧
      o.handler = [⟨"a@b.c", ["x@y.z".toList], encode ".Hi\r\n".toList⟩] ∧
      o.result = .ok () := by
  have hrun := handleSession_transfers takeOne ⟨"mx", 10⟩ true ⟨true, "c", by decide⟩
    threeMails [200, 10] 100 [] (by decide +kernel)
  refine ⟨by decide +kernel, hrun.1, ?_, hrun.2.2⟩
  rw [hrun.2.1]
  decide +kernel

end Weiterleitung
