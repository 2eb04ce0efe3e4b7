/-
# `Smtp.Session` — the conversation with one client

`handle_session` reads a line, answers it, reads the next.  Its three variables are a
`SessionState`; one turn of its loop is `command`, which also says what was exchanged:
the line, the replies, the calls of the handler.  The session is the loop over the lines
of the stream, and its trace is the list of its exchanges.

A stream ends or fails (`broken`) after its bytes, and takes a number of reply lines
(`room`) before writing fails.  A line in which the stream fails is not read at all.

    the loop reads the stream line by line        (`sessionLoop_reads`)
    what one command can do                       (`Does`, `command_does`)
    the variables and the history agree           (`Linked`, `Does.linked`)
    every envelope is that of its transaction     (`handleSession_envelopes`)
-/
import Mathlib
import Weiterleitung.Smtp.ReadData

namespace Weiterleitung

open Text Utf8 Lines

/-! ## The source -/

/-- One message as handed over by a client. -/
structure Envelope where
  mailFrom : Str
  rcptTo : List Str
  data : Bytes
  deriving DecidableEq

def Envelope.empty : Envelope := ⟨[], [], []⟩

/-- Verdict for a `RCPT TO` command. -/
inductive RecipientDecision where
  | accept
  | reject (reason : Str)
  deriving DecidableEq

/-- What the SMTP server does with the mail it accepts; `σ` is what its calls change. -/
structure MailHandler (σ : Type) where
  verifyRecipient (mailFrom recipient : Str) : σ → RecipientDecision × σ
  handle (envelope : Envelope) : σ → Except Str Unit × σ

structure SessionConfig where
  hostname : Str
  maxMessageSize : Nat

def maxRecipients : Nat := 50

def maxLineLength : Nat := 4096

/-- The first word, `""` if there is none. -/
def firstWord (s : Str) : Str := (trimStart s).takeWhile fun c => !Unicode.isWhitespace c

/-- Parses `FROM:<addr>` / `TO:<addr>`, dropping any ESMTP parameters that follow.  An empty
path (the null sender) comes back as an empty string. -/
def parseAddressArgument (rest keyword : Str) : Option Str :=
  if len rest > maxLineLength then none
  else
    match splitOnce ':' (trim rest) with
    | none => none
    | some (candidate, value) =>
        if eqIgnoreAsciiCase (trim candidate) keyword then
          let value := trim value
          let address :=
            match find '>' value with
            | some stop =>
                match value with
                | '<' :: inner => getTo (stop - 1) inner
                | _ => none
            | none => some (firstWord value)
          address.map trim
        else none

inductive Verb where
  | ehlo | helo | mail | rcpt | data | rset | noop | vrfy | expn | starttls | quit | none
  | other
  deriving DecidableEq

def Verb.parse (word : Str) : Verb :=
  if word = "EHLO".toList then .ehlo
  else if word = "HELO".toList then .helo
  else if word = "MAIL".toList then .mail
  else if word = "RCPT".toList then .rcpt
  else if word = "DATA".toList then .data
  else if word = "RSET".toList then .rset
  else if word = "NOOP".toList then .noop
  else if word = "VRFY".toList then .vrfy
  else if word = "EXPN".toList then .expn
  else if word = "STARTTLS".toList then .starttls
  else if word = "QUIT".toList then .quit
  else if word = [] then .none
  else .other

/-- A command line cut at its first space. -/
def splitCommand (command : Str) : Verb × Str :=
  match splitOnce ' ' command with
  | some (verb, rest) => (Verb.parse (toAsciiUppercase verb), trim rest)
  | none => (Verb.parse (toAsciiUppercase command), [])

/-- `line.trim_end_matches(['\r', '\n'])`. -/
def trimLineEnd (line : Str) : Str := line.rdropWhile fun c => c = '\r' || c = '\n'

/-- `read_line`, at a line of the stream.  A failure of the stream is reported before bytes
that are no text. -/
def readLine (broken : Bool) (line : Bytes) : Except IoError Str :=
  if torn 10 broken line then .error .broken
  else
    match fromUtf8 line with
    | none => .error .invalidUtf8
    | some text => .ok text

/-- The variables `greeted`, `have_sender` and `envelope`. -/
structure SessionState where
  greeted : Bool
  haveSender : Bool
  envelope : Envelope
  deriving DecidableEq

def SessionState.initial : SessionState := ⟨false, false, .empty⟩

/-- One command and what followed from it. -/
structure Exchange where
  command : Str
  /-- The lines of the stream after the command. -/
  ahead : List Bytes
  replies : List Str
  /-- The call of `verify_recipient`: sender, recipient and verdict. -/
  verified : Option (Str × Str × RecipientDecision)
  /-- The call of `handle`. -/
  handled : Option (Envelope × Except Str Unit)
  deriving DecidableEq

/-- The exchange with the first `room` reply lines only: the others were not written. -/
def Exchange.cut (x : Exchange) (room : Nat) : Exchange :=
  { x with replies := x.replies.take room }

/-- How the loop goes on: with these variables and lines, or not at all. -/
inductive Next where
  | more (s : SessionState) (lines : List Bytes)
  | stop (result : Except IoError Unit)

structure Step (σ : Type) where
  exchange : Exchange
  next : Next
  handler : σ

def senderOk : Str := "250 2.1.0 Sender ok"

def startData : Str := "354 End data with <CR><LF>.<CR><LF>"

/-- The reply to a payload the handler was given. -/
def dataReply : Except Str Unit → Str
  | .ok () => "250 2.0.0 Message accepted"
  | .error reason => "451 4.3.0 ".toList ++ reason

section
variable {σ : Type}

/-- Answer with `replies` and go on with `s`. -/
def say (command : Str) (lines : List Bytes) (h : σ) (replies : List Str) (s : SessionState) :
    Step σ :=
  { exchange := ⟨command, lines, replies, none, none⟩, next := .more s lines, handler := h }

/-- The body of the loop, for a command line without its line end. -/
def command (handler : MailHandler σ) (config : SessionConfig) (broken : Bool) (room : Nat)
    (s : SessionState) (command : Str) (lines : List Bytes) (h : σ) : Step σ :=
  let rest := (splitCommand command).2
  let say := say command lines h
  match (splitCommand command).1 with
  | .ehlo =>
      say ["250-".toList ++ config.hostname ++ " greets you",
        "250-SIZE ".toList ++ Nat.toDigits 10 config.maxMessageSize, "250-8BITMIME".toList,
        "250 SMTPUTF8".toList] ⟨true, false, .empty⟩
  | .helo => say ["250 ".toList ++ config.hostname] ⟨true, false, .empty⟩
  | .mail =>
      if s.greeted then
        match parseAddressArgument rest "FROM" with
        | some address =>
            say [senderOk] { s with haveSender := true, envelope := ⟨address, [], []⟩ }
        | none => say ["501 5.5.4 Syntax: MAIL FROM:<address>".toList] s
      else say ["503 Bad sequence of commands".toList] s
  | .rcpt =>
      if s.haveSender then
        if s.envelope.rcptTo.length ≥ maxRecipients then
          say ["452 4.5.3 Too many recipients".toList] s
        else
          match parseAddressArgument rest "TO" with
          | some address =>
              match handler.verifyRecipient s.envelope.mailFrom address h with
              | (.accept, h') =>
                  { exchange := ⟨command, lines, ["250 2.1.5 Recipient ok".toList],
                      some (s.envelope.mailFrom, address, .accept), none⟩
                    next := .more
                      { s with
                        envelope :=
                          { s.envelope with rcptTo := s.envelope.rcptTo ++ [address] } }
                      lines
                    handler := h' }
              | (.reject reason, h') =>
                  { exchange := ⟨command, lines, ["550 5.1.1 ".toList ++ reason],
                      some (s.envelope.mailFrom, address, .reject reason), none⟩
                    next := .more s lines
                    handler := h' }
          | none => say ["501 5.5.4 Syntax: RCPT TO:<address>".toList] s
      else say ["503 5.5.1 Need MAIL before RCPT".toList] s
  | .data =>
      if s.envelope.rcptTo.isEmpty then say ["503 5.5.1 Need RCPT before DATA".toList] s
      else if room = 0 then
        { exchange := ⟨command, lines, [startData], none, none⟩
          next := .stop (.error .broken)
          handler := h }
      else
        let done : SessionState := { s with haveSender := false, envelope := .empty }
        match readData broken config.maxMessageSize lines with
        | .error e =>
            { exchange := ⟨command, lines, [startData], none, none⟩
              next := .stop (.error e)
              handler := h }
        | .ok (.ok data, rest) =>
            let envelope := { s.envelope with data := data }
            match handler.handle envelope h with
            | (result, h') =>
                { exchange := ⟨command, lines, [startData, dataReply result], none,
                    some (envelope, result)⟩
                  next := .more done rest
                  handler := h' }
        | .ok (.error reply, rest) =>
            { exchange := ⟨command, lines, [startData, reply], none, none⟩
              next := .more done rest
              handler := h }
  | .rset => say ["250 2.0.0 Ok".toList] { s with haveSender := false, envelope := .empty }
  | .noop => say ["250 2.0.0 Ok".toList] s
  | .vrfy | .expn => say ["252 2.5.2 Cannot verify recipients".toList] s
  | .starttls => say ["454 4.7.0 TLS not available".toList] s
  | .quit =>
      { exchange := ⟨command, lines, ["221 2.0.0 Bye".toList], none, none⟩
        next := .stop (.ok ())
        handler := h }
  | .none => say ["500 5.5.2 Error: bad syntax".toList] s
  | .other => say ["502 5.5.1 Command not implemented".toList] s

/-- The exchanges of a session, the handler after it and how it ended. -/
structure Outcome (σ : Type) where
  trace : List Exchange
  handler : σ
  result : Except IoError Unit

/-- The loop.  Every turn reads a line, so more turns than lines are enough. -/
def sessionLoop (handler : MailHandler σ) (config : SessionConfig) (broken : Bool) :
    Nat → Nat → SessionState → List Bytes → σ → Outcome σ
  | 0, _, _, _, h => ⟨[], h, .ok ()⟩
  | _ + 1, _, _, [], h => ⟨[], h, if broken then .error .broken else .ok ()⟩
  | fuel + 1, room, s, line :: lines, h =>
      match readLine broken line with
      | .error e => ⟨[], h, .error e⟩
      | .ok text =>
          let step := command handler config broken room s (trimLineEnd text) lines h
          let exchange := step.exchange
          if room < exchange.replies.length then
            -- the write that fails ends the session
            ⟨[exchange.cut room], step.handler, .error .broken⟩
          else
            match step.next with
            | .stop result => ⟨[exchange], step.handler, result⟩
            | .more s' lines' =>
                let rest := sessionLoop handler config broken fuel
                  (room - exchange.replies.length) s' lines' step.handler
                ⟨exchange :: rest.trace, rest.handler, rest.result⟩

/-- Runs the RFC 5321 conversation for a single connection: the banner, which takes a reply
line, then the loop. -/
def handleSession (handler : MailHandler σ) (config : SessionConfig) (broken : Bool)
    (room : Nat) (input : Bytes) (h : σ) : Outcome σ :=
  if room = 0 then ⟨[], h, .error .broken⟩
  else
    sessionLoop handler config broken ((splitInclusive 10 input).length + 1)
      (room - 1) .initial (splitInclusive 10 input) h

end

/-! ## What an exchange was -/

namespace Exchange

variable (x : Exchange)

def verb : Verb := (splitCommand x.command).1

/-- A greeting by the client. -/
def Greets : Prop := x.verb = .ehlo ∨ x.verb = .helo

/-- A command that closes the transaction: a greeting, `RSET`, or a `DATA` that was let in. -/
def Closes : Prop :=
  x.verb = .ehlo ∨ x.verb = .helo ∨ x.verb = .rset ∨
    x.verb = .data ∧ x.replies.head? = some startData

/-- The sender, if this is a successful `MAIL`. -/
def opened : Option Str :=
  if x.verb = .mail ∧ x.replies = [senderOk] then
    parseAddressArgument (splitCommand x.command).2 "FROM"
  else none

/-- The recipient, if this is a `RCPT` that `verify_recipient` accepted. -/
def accepted : Option Str :=
  match x.verified with
  | some (_, address, .accept) => some address
  | _ => none

end Exchange

/-! ## What a command can do -/

/-- The exchanges of one command, by what they do to the variables. -/
inductive Does (broken : Bool) (maxMessageSize : Nat) (s : SessionState) :
    Exchange → Next → Prop
  /-- The transaction is closed and nothing is handed over. -/
  | close (x : Exchange) (s' : SessionState) (lines : List Bytes) :
      x.Closes → x.handled = none → s'.haveSender = false → s'.envelope.rcptTo = [] →
      (s'.greeted = true → s.greeted = true ∨ x.Greets) → lines <:+ x.ahead →
      Does broken maxMessageSize s x (.more s' lines)
  /-- `DATA` hands the envelope over. -/
  | handle (x : Exchange) (data : Bytes) (lines : List Bytes) (result : Except Str Unit) :
      x.verb = .data → x.Closes → s.envelope.rcptTo ≠ [] →
      readData broken maxMessageSize x.ahead = .ok (.ok data, lines) →
      x.handled = some ({ s.envelope with data := data }, result) → lines <:+ x.ahead →
      Does broken maxMessageSize s x
        (.more { s with haveSender := false, envelope := .empty } lines)
  /-- `MAIL` opens a transaction. -/
  | mail (x : Exchange) (address : Str) (lines : List Bytes) :
      s.greeted = true → x.opened = some address → x.handled = none → lines <:+ x.ahead →
      Does broken maxMessageSize s x
        (.more { s with haveSender := true, envelope := ⟨address, [], []⟩ } lines)
  /-- `RCPT` adds a recipient. -/
  | rcpt (x : Exchange) (address : Str) (lines : List Bytes) :
      s.haveSender = true → s.envelope.rcptTo.length < maxRecipients →
      ¬ x.Closes → x.opened = none →
      x.verified = some (s.envelope.mailFrom, address, .accept) →
      x.handled = none → lines <:+ x.ahead →
      Does broken maxMessageSize s x (.more
        { s with envelope := { s.envelope with rcptTo := s.envelope.rcptTo ++ [address] } }
        lines)
  /-- Nothing changes. -/
  | idle (x : Exchange) (lines : List Bytes) :
      ¬ x.Closes → x.opened = none → x.accepted = none →
      (∀ v, x.verified = some v → v.1 = s.envelope.mailFrom) → x.handled = none →
      lines <:+ x.ahead → Does broken maxMessageSize s x (.more s lines)
  /-- The session ends. -/
  | stop (x : Exchange) (result : Except IoError Unit) :
      x.handled = none → Does broken maxMessageSize s x (.stop result)

section
variable {σ : Type} (handler : MailHandler σ) (config : SessionConfig) (broken : Bool)

theorem opened_eq_none {text reply : Str} {lines : List Bytes} (h : reply ≠ senderOk) :
    (⟨text, lines, [reply], none, none⟩ : Exchange).opened = none := by
  rw [Exchange.opened, if_neg]
  exact fun hc => h (List.cons.inj hc.2).1

/-- An answer without a call that leaves the variables as they are. -/
theorem does_say {s : SessionState} {text : Str} {lines : List Bytes} {h : σ} {reply : Str}
    (hclose : ¬ (⟨text, lines, [reply], none, none⟩ : Exchange).Closes)
    (hopen : (⟨text, lines, [reply], none, none⟩ : Exchange).opened = none) :
    Does broken config.maxMessageSize s (say text lines h [reply] s).exchange
      (say text lines h [reply] s).next :=
  .idle _ _ hclose hopen rfl (fun _ h => nomatch h) rfl List.suffix_rfl

theorem command_does (room : Nat) (s : SessionState) (text : Str)
    (lines : List Bytes) (h : σ) :
    Does broken config.maxMessageSize s
      (command handler config broken room s text lines h).exchange
      (command handler config broken room s text lines h).next := by
  cases hverb : (splitCommand text).1 with
  | ehlo =>
      simp only [command, hverb]
      exact .close _ _ _ (Or.inl hverb) rfl rfl rfl (fun _ => Or.inr (Or.inl hverb))
        List.suffix_rfl
  | helo =>
      simp only [command, hverb]
      exact .close _ _ _ (Or.inr (Or.inl hverb)) rfl rfl rfl (fun _ => Or.inr (Or.inr hverb))
        List.suffix_rfl
  | rset =>
      simp only [command, hverb]
      exact .close _ _ _ (Or.inr (Or.inr (Or.inl hverb))) rfl rfl rfl Or.inl List.suffix_rfl
  | quit =>
      simp only [command, hverb]
      exact .stop _ _ rfl
  | mail =>
      have hclose : ∀ replies, ¬ (⟨text, lines, replies, none, none⟩ : Exchange).Closes := by
        intro replies
        simp [Exchange.Closes, Exchange.verb, hverb]
      simp only [command, hverb]
      by_cases hg : s.greeted = true
      · rw [if_pos hg]
        cases hp : parseAddressArgument (splitCommand text).2 "FROM" with
        | none => exact does_say config broken (hclose _) (opened_eq_none (by decide))
        | some address =>
            refine .mail _ address _ hg ?_ rfl List.suffix_rfl
            show Exchange.opened ⟨text, lines, [senderOk], none, none⟩ = _
            rw [Exchange.opened, if_pos ⟨hverb, rfl⟩]
            exact hp
      · rw [if_neg hg]
        exact does_say config broken (hclose _) (opened_eq_none (by decide))
  | rcpt =>
      have hclose : ∀ replies v, ¬ (⟨text, lines, replies, v, none⟩ : Exchange).Closes := by
        intro replies v
        simp [Exchange.Closes, Exchange.verb, hverb]
      have hopen : ∀ replies v,
          (⟨text, lines, replies, v, none⟩ : Exchange).opened = none := by
        intro replies v
        simp [Exchange.opened, Exchange.verb, hverb]
      simp only [command, hverb]
      by_cases hs : s.haveSender = true
      · rw [if_pos hs]
        by_cases hcount : s.envelope.rcptTo.length ≥ maxRecipients
        · rw [if_pos hcount]
          exact does_say config broken (hclose _ _) (hopen _ _)
        · rw [if_neg hcount]
          cases hp : parseAddressArgument (splitCommand text).2 "TO" with
          | none => exact does_say config broken (hclose _ _) (hopen _ _)
          | some address =>
              simp only
              rcases hv : handler.verifyRecipient s.envelope.mailFrom address h
                with ⟨_ | reason, h'⟩
              · exact .rcpt _ address _ hs (Nat.lt_of_not_le hcount) (hclose _ _)
                  (hopen _ _) rfl rfl List.suffix_rfl
              · refine .idle _ _ (hclose _ _) (hopen _ _) rfl ?_ rfl List.suffix_rfl
                rintro v hv
                cases hv
                rfl
      · rw [if_neg hs]
        exact does_say config broken (hclose _ _) (hopen _ _)
  | data =>
      have hopen : ∀ replies, (⟨text, lines, replies, none, none⟩ : Exchange).opened
          = none := by
        intro replies
        simp [Exchange.opened, Exchange.verb, hverb]
      simp only [command, hverb]
      cases he : s.envelope.rcptTo.isEmpty with
      | true =>
          refine does_say config broken ?_ (hopen _)
          simp only [Exchange.Closes, Exchange.verb, hverb]
          decide
      | false =>
          have hne : s.envelope.rcptTo ≠ [] := by
            intro h0
            rw [h0] at he
            cases he
          simp only [Bool.false_eq_true, if_false]
          split
          · exact .stop _ _ rfl
          · cases hr : readData broken config.maxMessageSize lines with
            | error e => exact .stop _ _ rfl
            | ok r =>
                obtain ⟨payload, rest⟩ := r
                cases payload with
                | error reply =>
                    exact .close _ _ _ (Or.inr (Or.inr (Or.inr ⟨hverb, rfl⟩))) rfl rfl rfl
                      Or.inl (readData_suffix hr)
                | ok data =>
                    exact .handle _ data rest _ hverb (Or.inr (Or.inr (Or.inr ⟨hverb, rfl⟩)))
                      hne hr rfl (readData_suffix hr)
  | noop | vrfy | expn | starttls | none | other =>
      simp only [command, hverb]
      refine does_say config broken ?_ ?_
      · simp [Exchange.Closes, Exchange.verb, hverb]
      · simp [Exchange.opened, Exchange.verb, hverb]

end

/-! ## The variables and the history -/

/-- The transaction a history leaves open: its sender from the last successful `MAIL`, its
recipients those accepted since, each verified with that sender. -/
def Transaction (history : List Exchange) (mailFrom : Str) (rcptTo : List Str) : Prop :=
  ∃ before x since, history = before ++ x :: since ∧ x.opened = some mailFrom ∧
    (∀ y ∈ since, ¬ y.Closes ∧ y.opened = none) ∧
    rcptTo = since.filterMap Exchange.accepted ∧
    ∀ y ∈ since, ∀ v, y.verified = some v → v.1 = mailFrom

/-- The variables of the loop, as far as the history determines them. -/
structure Linked (history : List Exchange) (s : SessionState) : Prop where
  greeted : s.greeted = true → ∃ x ∈ history, x.Greets
  noSender : s.haveSender = false → s.envelope.rcptTo = []
  sender : s.haveSender = true →
    s.greeted = true ∧ Transaction history s.envelope.mailFrom s.envelope.rcptTo
  count : s.envelope.rcptTo.length ≤ maxRecipients

/-- An envelope is that of the transaction its `DATA` ends. -/
structure EnvelopeOf (broken : Bool) (maxMessageSize : Nat) (history : List Exchange)
    (x : Exchange) (envelope : Envelope) : Prop where
  verb : x.verb = .data
  greeted : ∃ y ∈ history, y.Greets
  transaction : Transaction history envelope.mailFrom envelope.rcptTo
  count : 1 ≤ envelope.rcptTo.length ∧ envelope.rcptTo.length ≤ maxRecipients
  data : ∃ rest, readData broken maxMessageSize x.ahead = .ok (.ok envelope.data, rest)

theorem linked_initial : Linked [] .initial where
  greeted h := nomatch h
  noSender _ := rfl
  sender h := nomatch h
  count := Nat.zero_le _

theorem Transaction.snoc {history : List Exchange} {mailFrom : Str} {rcptTo : List Str}
    {x : Exchange} (h : Transaction history mailFrom rcptTo) (hclose : ¬ x.Closes)
    (hopen : x.opened = none)
    (hverified : ∀ v, x.verified = some v → v.1 = mailFrom) :
    Transaction (history ++ [x]) mailFrom (rcptTo ++ x.accepted.toList) := by
  obtain ⟨before, y, since, rfl, hy, hsince, rfl, hv⟩ := h
  refine ⟨before, y, since ++ [x], by simp, hy, ?_, ?_, ?_⟩
  · intro z hz
    rcases List.mem_append.mp hz with hz | hz
    · exact hsince z hz
    · cases List.mem_singleton.mp hz
      exact ⟨hclose, hopen⟩
  · rw [List.filterMap_append]
    cases ha : x.accepted <;> simp [ha]
  · intro z hz
    rcases List.mem_append.mp hz with hz | hz
    · exact hv z hz
    · cases List.mem_singleton.mp hz
      exact hverified

theorem greets_snoc {history : List Exchange} (x : Exchange) (h : ∃ y ∈ history, y.Greets) :
    ∃ y ∈ history ++ [x], y.Greets :=
  let ⟨y, hy, hg⟩ := h
  ⟨y, List.mem_append_left _ hy, hg⟩

section
variable {broken : Bool} {maxMessageSize : Nat} {s s' : SessionState} {x : Exchange}
  {history : List Exchange} {lines : List Bytes}

/-- One command keeps variables and history in agreement. -/
theorem Does.linked (h : Does broken maxMessageSize s x (.more s' lines))
    (hl : Linked history s) :
    Linked (history ++ [x]) s' := by
  cases h with
  | close _ _ hclose hh hs hr hg =>
      refine ⟨fun hg' => ?_, fun _ => hr, fun h' => ?_, ?_⟩
      · rcases hg hg' with hg' | hx
        · exact greets_snoc x (hl.greeted hg')
        · exact ⟨x, by simp, hx⟩
      · rw [hs] at h'
        cases h'
      · rw [hr]
        exact Nat.zero_le _
  | handle data _ result =>
      exact ⟨fun hg => greets_snoc x (hl.greeted hg), fun _ => rfl,
        (fun h' => nomatch h'), Nat.zero_le _⟩
  | mail address _ hg hopen =>
      refine ⟨fun hg => greets_snoc x (hl.greeted hg), (fun h' => nomatch h'),
        fun _ => ⟨hg, ?_⟩, Nat.zero_le _⟩
      exact ⟨history, x, [], rfl, hopen, List.forall_mem_nil _, rfl, List.forall_mem_nil _⟩
  | rcpt address _ hs hcount hclose hopen hv =>
      have ha : x.accepted = some address := by rw [Exchange.accepted, hv]
      refine ⟨fun hg => greets_snoc x (hl.greeted hg), fun h' => ?_, fun _ => ?_, ?_⟩
      · exact absurd (hs.symm.trans h') (by decide)
      · obtain ⟨hg, ht⟩ := hl.sender hs
        have hsnoc := ht.snoc hclose hopen (fun v h' => by rw [hv] at h'; cases h'; rfl)
        rw [ha] at hsnoc
        exact ⟨hg, hsnoc⟩
      · simpa using hcount
  | idle _ hclose hopen ha hv =>
      refine ⟨fun hg => greets_snoc x (hl.greeted hg), hl.noSender, fun h' => ?_, hl.count⟩
      obtain ⟨hg, ht⟩ := hl.sender h'
      have hsnoc := ht.snoc hclose hopen hv
      rw [ha, Option.toList_none, List.append_nil] at hsnoc
      exact ⟨hg, hsnoc⟩

/-- What a command hands over is the envelope of its transaction. -/
theorem Does.envelopeOf {next : Next} {envelope : Envelope} {result : Except Str Unit}
    (h : Does broken maxMessageSize s x next) (hl : Linked history s)
    (hx : x.handled = some (envelope, result)) :
    EnvelopeOf broken maxMessageSize history x envelope := by
  cases h with
  | handle data lines result' hverb _ hne hread hhandled _ =>
      rw [hhandled] at hx
      cases hx
      have hs : s.haveSender = true := by
        cases h0 : s.haveSender with
        | true => rfl
        | false => exact absurd (hl.noSender h0) hne
      obtain ⟨hg, ht⟩ := hl.sender hs
      exact ⟨hverb, hl.greeted hg, ht, ⟨List.length_pos_iff.mpr hne, hl.count⟩, _, hread⟩
  | close _ _ _ hh => rw [hh] at hx; cases hx
  | mail _ _ _ _ hh => rw [hh] at hx; cases hx
  | rcpt _ _ _ _ _ _ _ hh => rw [hh] at hx; cases hx
  | idle _ _ _ _ _ hh => rw [hh] at hx; cases hx
  | stop _ hh => rw [hh] at hx; cases hx

end

/-! ## Whole sessions -/

section
variable {σ : Type} (handler : MailHandler σ) (config : SessionConfig) (broken : Bool)

/-- The line a command was read from came in full, and is text. -/
theorem readLine_eq_ok {line : Bytes} {text : Str} :
    readLine broken line = .ok text ↔ torn 10 broken line = false ∧
    fromUtf8 line = some text := by
  unfold readLine
  cases torn 10 broken line with
  | true => simp
  | false => cases fromUtf8 line <;> simp

/-- A turn of the loop over the lines of a stream is one of the source: read a line, give up
if the read fails or finds nothing, and answer the line if it is text. -/
theorem sessionLoop_reads (fuel room : Nat) (s : SessionState) (input : Bytes) (h : σ) :
    sessionLoop handler config broken (fuel + 1) room s (splitInclusive 10 input) h =
      match tryRead 10 broken input with
      | none => ⟨[], h, .error .broken⟩
      | some ([], _) => ⟨[], h, .ok ()⟩
      | some (line, rest) =>
          match fromUtf8 line with
          | none => ⟨[], h, .error .invalidUtf8⟩
          | some text =>
              let step := command handler config broken room s (trimLineEnd text)
                (splitInclusive 10 rest) h
              if room < step.exchange.replies.length then
                ⟨[step.exchange.cut room], step.handler, .error .broken⟩
              else
                match step.next with
                | .stop result => ⟨[step.exchange], step.handler, result⟩
                | .more s' lines' =>
                    let after := sessionLoop handler config broken fuel
                      (room - step.exchange.replies.length) s' lines' step.handler
                    ⟨step.exchange :: after.trace, after.handler, after.result⟩ := by
  rcases tryRead_cases 10 broken input with ⟨hsplit, hread⟩ | ⟨line, rest, hne, hsplit, hread⟩
  · rw [hsplit, hread, sessionLoop]
    cases broken <;> rfl
  · rw [hsplit, hread, sessionLoop, readLine]
    cases torn 10 broken line with
    | true => rfl
    | false =>
        obtain ⟨b, line, rfl⟩ := List.exists_cons_of_ne_nil hne
        simp only [Bool.false_eq_true, if_false]
        cases fromUtf8 (b :: line) <;> rfl

/-- One turn of the loop: it ends without a command, or during or after one, or goes on. -/
theorem sessionLoop_cases (fuel room : Nat) (s : SessionState) (lines : List Bytes) (h : σ) :
    (sessionLoop handler config broken (fuel + 1) room s lines h).trace = [] ∨
    ∃ line rest text, lines = line :: rest ∧ readLine broken line = .ok text ∧
      ∃ step, step = command handler config broken room s (trimLineEnd text) rest h ∧
        ((sessionLoop handler config broken (fuel + 1) room s lines h).trace
            = [step.exchange.cut room] ∨
          (sessionLoop handler config broken (fuel + 1) room s lines h).trace =
            [step.exchange] ∧
            step.exchange.replies.length ≤ room ∨
          ∃ s' lines', step.next = .more s' lines' ∧ step.exchange.replies.length ≤ room ∧
            (sessionLoop handler config broken (fuel + 1) room s lines h).trace =
              step.exchange :: (sessionLoop handler config broken fuel
                (room - step.exchange.replies.length) s' lines' step.handler).trace) := by
  cases lines with
  | nil => exact Or.inl rfl
  | cons line rest =>
      cases htext : readLine broken line with
      | error e =>
          refine Or.inl ?_
          rw [sessionLoop, htext]
      | ok text =>
          refine Or.inr ⟨line, rest, text, rfl, htext, _, rfl, ?_⟩
          rw [sessionLoop, htext]
          simp only
          by_cases hroom :
            room < (command handler config broken room s (trimLineEnd text)
              rest h).exchange.replies.length
          · rw [if_pos hroom]
            exact Or.inl rfl
          · rw [if_neg hroom]
            have hle := Nat.le_of_not_lt hroom
            cases hnext :
              (command handler config broken room s (trimLineEnd text) rest h).next with
            | stop result => exact Or.inr (Or.inl ⟨rfl, hle⟩)
            | more s' lines' => exact Or.inr (Or.inr ⟨s', lines', rfl, hle, rfl⟩)

/-- Every envelope of a run is that of the transaction its history leaves open. -/
theorem sessionLoop_envelopes (fuel : Nat) :
    ∀ (room : Nat) (s : SessionState) (lines : List Bytes)
    (h : σ) (history : List Exchange), Linked history s →
    ∀ before x after envelope result,
      (sessionLoop handler config broken fuel room s lines h).trace = before ++ x :: after →
      x.handled = some (envelope, result) →
      EnvelopeOf broken config.maxMessageSize (history ++ before) x envelope := by
  induction fuel with
  | zero =>
      intro room s lines h history _ before x after envelope result htrace
      cases before <;> cases htrace
  | succ fuel ih =>
      intro room s lines h history hl before x after envelope result htrace hx
      rcases sessionLoop_cases handler config broken fuel room s lines h with
        hnil | ⟨line, rest, text, rfl, -, step, rfl, hturn⟩
      · rw [hnil] at htrace
        cases before <;> cases htrace
      · have hdoes := command_does handler config broken room s (trimLineEnd text) rest h
        rcases hturn with hcut | ⟨hlast, -⟩ | ⟨s', lines', hnext, -, hmore⟩
        · rw [hcut] at htrace
          obtain ⟨rfl, rfl, -⟩ : before = [] ∧ x = _ ∧ after = [] := by
            cases before with
            | nil => cases htrace; exact ⟨rfl, rfl, rfl⟩
            | cons y before => cases before <;> cases htrace
          obtain ⟨h1, h2, h3, h4, h5⟩ := hdoes.envelopeOf hl hx
          rw [List.append_nil]
          exact ⟨h1, h2, h3, h4, h5⟩
        · rw [hlast] at htrace
          obtain ⟨rfl, rfl, -⟩ : before = [] ∧ x = _ ∧ after = [] := by
            cases before with
            | nil => cases htrace; exact ⟨rfl, rfl, rfl⟩
            | cons y before => cases before <;> cases htrace
          rw [List.append_nil]
          exact hdoes.envelopeOf hl hx
        · rw [hmore] at htrace
          cases before with
          | nil =>
              cases htrace
              rw [List.append_nil]
              exact hdoes.envelopeOf hl hx
          | cons y before =>
              simp only [List.cons_append, List.cons.injEq] at htrace
              obtain ⟨rfl, htrace⟩ := htrace
              rw [hnext] at hdoes
              have := ih _ s' lines' _ _ (hdoes.linked hl) before x after
                envelope result htrace hx
              simpa using this

theorem command_exchange (room : Nat) (s : SessionState) (text : Str)
    (lines : List Bytes) (h : σ) :
    (command handler config broken room s text lines h).exchange.command = text ∧
      (command handler config broken room s text lines h).exchange.ahead = lines := by
  cases hverb : (splitCommand text).1 <;> simp only [command, hverb] <;> repeat' split
  all_goals simp [say]

theorem Does.suffix {maxMessageSize : Nat} {s s' : SessionState} {x : Exchange}
    {lines : List Bytes} (h : Does broken maxMessageSize s x (.more s' lines)) :
    lines <:+ x.ahead := by
  cases h <;> assumption

/-- What holds of the exchange of every command, written in full or cut, holds of every
exchange of a run. -/
theorem sessionLoop_forall {P : Exchange → Prop} {all : List Bytes}
    (hstep : ∀ room s line rest text h, readLine broken line = .ok text →
      (line :: rest) <:+ all →
      ∀ x, x = (command handler config broken room s (trimLineEnd text) rest h).exchange →
        (x.replies.length ≤ room → P x) ∧ P (x.cut room))
    (fuel : Nat) :
    ∀ (room : Nat) (s : SessionState) (lines : List Bytes) (h : σ), lines <:+ all →
      ∀ x ∈ (sessionLoop handler config broken fuel room s lines h).trace, P x := by
  induction fuel with
  | zero =>
      intro room s lines h _ x hx
      cases hx
  | succ fuel ih =>
      intro room s lines h hall x hx
      rcases sessionLoop_cases handler config broken fuel room s lines h with
        hnil | ⟨line, rest, text, rfl, htext, step, hdef, hturn⟩
      · rw [hnil] at hx
        cases hx
      · obtain ⟨hfull, hcut⟩ := hstep room s line rest text h htext hall step.exchange
          (by rw [hdef])
        rcases hturn with hturn | ⟨hturn, hle⟩ | ⟨s', lines', hnext, hle, hturn⟩
        · rw [hturn] at hx
          exact List.mem_singleton.mp hx ▸ hcut
        · rw [hturn] at hx
          exact List.mem_singleton.mp hx ▸ hfull hle
        · rw [hturn] at hx
          rcases List.mem_cons.mp hx with rfl | hx
          · exact hfull hle
          · have hdoes := command_does handler config broken room s (trimLineEnd text) rest h
            rw [← hdef, hnext] at hdoes
            have hsuffix : lines' <:+ rest := by
              have hahead :=
                (command_exchange handler config broken room s (trimLineEnd text) rest h).2
              rw [← hdef] at hahead
              exact hahead ▸ hdoes.suffix
            exact ih _ s' lines' _
              ((hsuffix.trans (List.suffix_cons line rest)).trans hall) x hx

/-- A `DATA` that is let in and received in full calls the handler. -/
theorem command_handles {room : Nat} {s : SessionState} {text : Str} {lines rest : List Bytes}
    {h : σ} {data : Bytes} (hverb : (splitCommand text).1 = .data) (hroom : room ≠ 0)
    (hreply : (command handler config broken room s text lines h).exchange.replies.head?
      = some startData)
    (hread : readData broken config.maxMessageSize lines = .ok (.ok data, rest)) :
    ∃ envelope result,
      (command handler config broken room s text lines h).exchange.handled =
        some (envelope, result) ∧
        envelope.data = data := by
  cases he : s.envelope.rcptTo.isEmpty with
  | true =>
      simp only [command, hverb, he, if_true] at hreply
      have hsame : "503 5.5.1 Need RCPT before DATA".toList = startData :=
        Option.some.inj hreply
      exact absurd hsame (by decide)
  | false =>
      simp only [command, hverb, he, hread, if_neg hroom]
      exact ⟨_, _, rfl, rfl⟩

/-- The handler with a record of the envelopes it was given. -/
def recording : MailHandler (List Envelope × σ) where
  verifyRecipient mailFrom recipient s :=
    ((handler.verifyRecipient mailFrom recipient s.2).1,
      s.1, (handler.verifyRecipient mailFrom recipient s.2).2)
  handle envelope s :=
    ((handler.handle envelope s.2).1, s.1 ++ [envelope], (handler.handle envelope s.2).2)

/-- The envelope an exchange handed over. -/
def Exchange.envelope? (x : Exchange) : Option Envelope := x.handled.map (·.1)

theorem command_recording (room : Nat) (s : SessionState) (text : Str) (lines : List Bytes)
    (h : σ) (log : List Envelope) :
    command (recording handler) config broken room s text lines (log, h) =
      { exchange := (command handler config broken room s text lines h).exchange
        next := (command handler config broken room s text lines h).next
        handler :=
          (log ++ (command handler config broken room s text
            lines h).exchange.envelope?.toList,
          (command handler config broken room s text lines h).handler) } := by
  cases hverb : (splitCommand text).1 with
  | mail =>
      simp only [command, hverb]
      split
      · split <;> simp [say, Exchange.envelope?]
      · simp [say, Exchange.envelope?]
  | rcpt =>
      simp only [command, hverb]
      split
      · split
        · simp [say, Exchange.envelope?]
        · cases parseAddressArgument (splitCommand text).2 "TO" with
          | none => simp [say, Exchange.envelope?]
          | some address =>
              rcases hv : handler.verifyRecipient s.envelope.mailFrom address h
                with ⟨_ | reason, h'⟩ <;>
                simp [recording, hv, Exchange.envelope?]
      · simp [say, Exchange.envelope?]
  | data =>
      simp only [command, hverb]
      split
      · simp [say, Exchange.envelope?]
      · split
        · simp [Exchange.envelope?]
        · rcases readData broken config.maxMessageSize lines with e | ⟨reply | data, rest⟩ <;>
            simp [recording, Exchange.envelope?]
  | _ => simp [command, hverb, say, Exchange.envelope?]

/-- A recorded run is the run, and the record is what its trace says was handed over. -/
theorem sessionLoop_recording (fuel : Nat) :
    ∀ (room : Nat) (s : SessionState) (lines : List Bytes)
    (h : σ) (log : List Envelope),
    sessionLoop (recording handler) config broken fuel room s lines (log, h) =
      { trace := (sessionLoop handler config broken fuel room s lines h).trace
        handler :=
          (log ++ (sessionLoop handler config broken fuel room s lines h).trace.filterMap
            Exchange.envelope?,
            (sessionLoop handler config broken fuel room s lines h).handler)
        result := (sessionLoop handler config broken fuel room s lines h).result } := by
  induction fuel with
  | zero =>
      intro room s lines h log
      simp [sessionLoop]
  | succ fuel ih =>
      intro room s lines h log
      cases lines with
      | nil => simp [sessionLoop]
      | cons line rest =>
          rw [sessionLoop, sessionLoop]
          cases readLine broken line with
          | error e => simp
          | ok text =>
              simp only [command_recording]
              generalize command handler config broken room s (trimLineEnd text) rest h = step
              by_cases hroom : room < step.exchange.replies.length
              · simp only [if_pos hroom]
                have hcut : (step.exchange.cut room).envelope? = step.exchange.envelope? := rfl
                cases he : step.exchange.envelope? <;> simp [he, hcut]
              · simp only [if_neg hroom]
                cases step.next with
                | stop result => cases he : step.exchange.envelope? <;> simp [he]
                | more s' lines' =>
                    simp only [ih]
                    cases he : step.exchange.envelope? <;> simp [he]

/-- The loop has turns enough: more of them than lines make no difference. -/
theorem sessionLoop_fuel (fuel : Nat) :
    ∀ (fuel' room : Nat) (s : SessionState) (lines : List Bytes)
    (h : σ), lines.length < fuel → lines.length < fuel' →
    sessionLoop handler config broken fuel room s lines h
      = sessionLoop handler config broken fuel' room s lines h := by
  induction fuel with
  | zero =>
      intro _ _ _ _ _ hlt
      exact absurd hlt (Nat.not_lt_zero _)
  | succ fuel ih =>
      intro fuel' room s lines h hlt hlt'
      obtain ⟨fuel', rfl⟩ :=
        Nat.exists_eq_succ_of_ne_zero (Nat.ne_of_gt (Nat.zero_lt_of_lt hlt'))
      cases lines with
      | nil => rfl
      | cons line rest =>
          rw [sessionLoop, sessionLoop]
          cases readLine broken line with
          | error e => rfl
          | ok text =>
              have hdoes := command_does handler config broken room s (trimLineEnd text) rest h
              have hahead :=
                (command_exchange handler config broken room s (trimLineEnd text) rest h).2
              simp only
              cases hnext :
                (command handler config broken room s (trimLineEnd text) rest h).next with
              | stop result => rfl
              | more s' lines' =>
                  rw [hnext] at hdoes
                  have hlen : lines'.length ≤ rest.length := (hahead ▸ hdoes.suffix).length_le
                  simp only [List.length_cons] at hlt hlt'
                  simp only [ih fuel' _ s' lines' _ (by omega) (by omega)]

/-- Envelope integrity.  Every envelope handed over is that of the transaction open in the
history before its `DATA`, with the payload of that `DATA`; every `DATA` that is let in and
received in full hands one over; these are all calls of the handler; and the lines of a
`DATA` are those that follow it in the stream. -/
theorem handleSession_envelopes (room : Nat) (input : Bytes) (h : σ) (log : List Envelope) :
    (∀ before x after envelope result,
      (handleSession handler config broken room input h).trace = before ++ x :: after →
      x.handled = some (envelope, result) →
      EnvelopeOf broken config.maxMessageSize before x envelope) ∧
    (∀ x ∈ (handleSession handler config broken room input h).trace,
      x.verb = .data → x.replies.head? = some startData →
      ∀ data rest, readData broken config.maxMessageSize x.ahead = .ok (.ok data, rest) →
        ∃ envelope result, x.handled = some (envelope, result) ∧ envelope.data = data) ∧
    (handleSession (recording handler) config broken room input (log, h)).handler.1
      = log ++ (handleSession handler config broken room input h).trace.filterMap
        Exchange.envelope? ∧
    (∀ x ∈ (handleSession handler config broken room input h).trace, ∃ line text,
      fromUtf8 line = some text ∧ trimLineEnd text = x.command ∧
      (line :: x.ahead) <:+ splitInclusive 10 input) := by
  unfold handleSession
  by_cases hroom : room = 0
  · simp [hroom]
  · simp only [if_neg hroom]
    refine ⟨?_, ?_, ?_, ?_⟩
    · intro before x after envelope result htrace hx
      exact sessionLoop_envelopes handler config broken _ _ _ _ _ [] linked_initial before x
        after envelope result htrace hx
    · refine sessionLoop_forall handler config broken ?_ _ _ _ (splitInclusive 10 input) _
        List.suffix_rfl
      intro room s line rest text h _ _ x hx
      obtain ⟨hcommand, hahead⟩ :=
        command_exchange handler config broken room s (trimLineEnd text) rest h
      rw [← hx] at hcommand hahead
      have key : room ≠ 0 → x.verb = .data → x.replies.head? = some startData → ∀ data rest,
          readData broken config.maxMessageSize x.ahead = .ok (.ok data, rest) →
            ∃ envelope result, x.handled = some (envelope, result) ∧ envelope.data = data := by
        intro hroom hverb hreply data rest hread
        rw [Exchange.verb, hcommand] at hverb
        rw [hahead] at hread
        rw [hx] at hreply ⊢
        exact command_handles handler config broken hverb hroom hreply hread
      constructor
      · intro hle hverb hreply
        refine key (fun h0 => ?_) hverb hreply
        rw [h0] at hle
        rw [List.length_eq_zero_iff.mp (Nat.le_zero.mp hle)] at hreply
        cases hreply
      · intro hverb hreply
        rw [Exchange.cut, List.head?_take] at hreply
        split at hreply
        · cases hreply
        · next hroom => exact key hroom hverb hreply
    · rw [sessionLoop_recording]
    · refine sessionLoop_forall handler config broken ?_ _ _ _ _ _ List.suffix_rfl
      intro room s line rest text h htext hall x hx
      obtain ⟨hcommand, hahead⟩ :=
        command_exchange handler config broken room s (trimLineEnd text) rest h
      rw [← hx] at hcommand hahead
      have hpos : ∃ line text, fromUtf8 line = some text ∧ trimLineEnd text = x.command ∧
          (line :: x.ahead) <:+ splitInclusive 10 input :=
        ⟨line, text, ((readLine_eq_ok broken).mp htext).2, hcommand.symm, hahead ▸ hall⟩
      exact ⟨fun _ => hpos, hpos⟩

end

/-- A handler that takes everything. -/
def takeAll : MailHandler Unit where
  verifyRecipient _ _ _ := (.accept, ())
  handle _ _ := (.ok (), ())

theorem handleSession_envelopes_takeAll :
    ∃ before x envelope, x.handled = some (envelope, .ok ()) ∧
      envelope = ⟨"a@b.c", ["x@y.z".toList], encode "Hi\r\n".toList⟩ ∧
      EnvelopeOf false 1000 before x envelope ∧
      ∃ envelope' result, x.handled = some (envelope', result) ∧
        envelope'.data = envelope.data := by
  let input := encode
    "EHLO c\r\nMAIL FROM:<a@b.c>\r\nRCPT TO:<x@y.z>\r\nDATA\r\nHi\r\n.\r\nQUIT\r\n".toList
  let trace := (handleSession takeAll ⟨"mx", 1000⟩ false 20 input ()).trace
  let x : Exchange :=
    ⟨"DATA", [encode "Hi\r\n".toList, encode ".\r\n".toList, encode "QUIT\r\n".toList],
    [startData, "250 2.0.0 Message accepted"], none,
    some (⟨"a@b.c", ["x@y.z".toList], encode "Hi\r\n".toList⟩, .ok ())⟩
  have hmem : x ∈ trace := by decide +kernel
  obtain ⟨henvelope, hdata, -, -⟩ :=
    handleSession_envelopes takeAll ⟨"mx", 1000⟩ false 20 input () []
  refine ⟨trace.take 3, x, _, rfl, rfl, henvelope (trace.take 3) x (trace.drop 4) _ _ ?_ rfl,
    hdata x hmem (by decide +kernel) (by decide +kernel) _
      [encode "QUIT\r\n".toList] (by decide +kernel)⟩
  decide +kernel

end Weiterleitung
