/-
# `Smtp.Dialogue` — a session, command by command

Between two commands a session is a `Position`: the number of reply lines its stream still
takes, the variables, the lines to come and the handler.  A command that is answered in full
leads to the next position; a session is such turns, and then an end.

    what a command answers, and where it leads              (`Handled`, `command_handled`)
    a trace is turns up to each of its exchanges            (`exists_turns`, `Turns.rest_eq`)
    turns do not depend on what comes after them            (`Turns.frame`)
-/
import Mathlib
import Weiterleitung.Smtp.Session

namespace Weiterleitung

open Text Utf8 Lines

/-! ## What a command answers -/

/-- The payload of a `DATA` ends at the first line of a dot, or with a stream that does not
fail; `rest` comes after it. -/
def PayloadEnds (broken : Bool) (lines rest : List Bytes) : Prop :=
  (∃ before last, lines = before ++ last :: rest ∧ EndsPayload broken before last) ∨
    broken = false ∧ Unended broken lines ∧ rest = []

section
variable {broken : Bool} {maxMessageSize : Nat} {lines rest : List Bytes}

/-- A payload that was read ended with a line of a dot, whatever came after that
line, or with the stream. -/
theorem readData_ok {payload : Except Str Bytes}
    (h : readData broken maxMessageSize lines = .ok (payload, rest)) :
    (∃ before last, lines = before ++ last :: rest ∧ EndsPayload broken before last ∧ ∀ tail,
        readData broken maxMessageSize (before ++ last :: tail) = .ok (payload, tail)) ∨
      broken = false ∧ Unended broken lines ∧ rest = [] := by
  rcases readData_cases broken maxMessageSize lines with
    ⟨before, last, after, rfl, hends, hread⟩ | ⟨hnone, hread⟩
  · rw [hread after] at h
    cases h
    exact Or.inl ⟨before, last, rfl, hends, hread⟩
  · rw [hread] at h
    cases broken <;> cases h
    exact Or.inr ⟨rfl, hnone, rfl⟩

theorem payloadEnds_readData {payload : Except Str Bytes}
    (h : readData broken maxMessageSize lines = .ok (payload, rest)) :
    PayloadEnds broken lines rest := by
  rcases readData_ok h with ⟨before, last, hlines, hends, -⟩ | hnone
  · exact Or.inl ⟨before, last, hlines, hends⟩
  · exact Or.inr hnone

/-- Reading a payload fails only with the stream, before any line of a dot. -/
theorem readData_error {e : IoError} (h : readData broken maxMessageSize lines = .error e) :
    e = .broken ∧ broken = true ∧ Unended broken lines := by
  rcases readData_cases broken maxMessageSize lines with
    ⟨before, last, after, rfl, -, hread⟩ | ⟨hnone, hread⟩
  · rw [hread after] at h
    cases h
  · rw [hread] at h
    cases broken <;> cases h
    exact ⟨rfl, rfl, hnone⟩

end

/-- The answers to a command that changes nothing. -/
def idleReplies : Verb → List Str
  | .mail =>
      ["503 Bad sequence of commands".toList, "501 5.5.4 Syntax: MAIL FROM:<address>".toList]
  | .rcpt => ["503 5.5.1 Need MAIL before RCPT".toList, "452 4.5.3 Too many recipients".toList,
      "501 5.5.4 Syntax: RCPT TO:<address>".toList]
  | .data => ["503 5.5.1 Need RCPT before DATA".toList]
  | .noop => ["250 2.0.0 Ok".toList]
  | .vrfy | .expn => ["252 2.5.2 Cannot verify recipients".toList]
  | .starttls => ["454 4.7.0 TLS not available".toList]
  | .none => ["500 5.5.2 Error: bad syntax".toList]
  | .other => ["502 5.5.1 Command not implemented".toList]
  | .ehlo | .helo | .rset | .quit => []

/-- The answer to `EHLO`. -/
def ehloReplies (config : SessionConfig) : List Str :=
  ["250-".toList ++ config.hostname ++ " greets you",
    "250-SIZE ".toList ++ Nat.toDigits 10 config.maxMessageSize, "250-8BITMIME".toList,
    "250 SMTPUTF8".toList]

section
variable {σ : Type} (handler : MailHandler σ) (config : SessionConfig) (broken : Bool)

/-- The turns of the loop, one by one. -/
inductive Handled (room : Nat) (s : SessionState) (text : Str) (lines : List Bytes) (h : σ) :
    Step σ → Prop
  | ehlo : (splitCommand text).1 = .ehlo →
      Handled room s text lines h (say text lines h (ehloReplies config) ⟨true, false, .empty⟩)
  | helo : (splitCommand text).1 = .helo →
      Handled room s text lines h
        (say text lines h ["250 ".toList ++ config.hostname] ⟨true, false, .empty⟩)
  | rset : (splitCommand text).1 = .rset →
      Handled room s text lines h (say text lines h ["250 2.0.0 Ok".toList]
        { s with haveSender := false, envelope := .empty })
  | mail (address : Str) : (splitCommand text).1 = .mail → s.greeted = true →
      parseAddressArgument (splitCommand text).2 "FROM" = some address →
      Handled room s text lines h (say text lines h [senderOk]
        { s with haveSender := true, envelope := ⟨address, [], []⟩ })
  | idle (reply : Str) : reply ∈ idleReplies (splitCommand text).1 →
      Handled room s text lines h (say text lines h [reply] s)
  | accept (address : Str) (h' : σ) : (splitCommand text).1 = .rcpt →
      parseAddressArgument (splitCommand text).2 "TO" = some address →
      handler.verifyRecipient s.envelope.mailFrom address h = (.accept, h') →
      Handled room s text lines h
        { exchange := ⟨text, lines, ["250 2.1.5 Recipient ok".toList],
            some (s.envelope.mailFrom, address, .accept), none⟩
          next := .more
            { s with envelope := { s.envelope with rcptTo := s.envelope.rcptTo ++ [address] } }
            lines
          handler := h' }
  | reject (address reason : Str) (h' : σ) : (splitCommand text).1 = .rcpt →
      parseAddressArgument (splitCommand text).2 "TO" = some address →
      handler.verifyRecipient s.envelope.mailFrom address h = (.reject reason, h') →
      Handled room s text lines h
        { exchange := ⟨text, lines, ["550 5.1.1 ".toList ++ reason],
            some (s.envelope.mailFrom, address, .reject reason), none⟩
          next := .more s lines
          handler := h' }
  | full : (splitCommand text).1 = .data → room = 0 →
      Handled room s text lines h
        { exchange := ⟨text, lines, [startData], none, none⟩
          next := .stop (.error .broken)
          handler := h }
  | lost (e : IoError) : (splitCommand text).1 = .data →
      readData broken config.maxMessageSize lines = .error e →
      Handled room s text lines h
        { exchange := ⟨text, lines, [startData], none, none⟩
          next := .stop (.error e)
          handler := h }
  | refused (reply : Str) (rest : List Bytes) : (splitCommand text).1 = .data →
      readData broken config.maxMessageSize lines = .ok (.error reply, rest) →
      Handled room s text lines h
        { exchange := ⟨text, lines, [startData, reply], none, none⟩
          next := .more { s with haveSender := false, envelope := .empty } rest
          handler := h }
  | handed (data : Bytes) (rest : List Bytes) (result : Except Str Unit) (h' : σ) :
      (splitCommand text).1 = .data →
      readData broken config.maxMessageSize lines = .ok (.ok data, rest) →
      handler.handle { s.envelope with data := data } h = (result, h') →
      Handled room s text lines h
        { exchange := ⟨text, lines, [startData, dataReply result], none,
            some ({ s.envelope with data := data }, result)⟩
          next := .more { s with haveSender := false, envelope := .empty } rest
          handler := h' }
  | quit : (splitCommand text).1 = .quit →
      Handled room s text lines h
        { exchange := ⟨text, lines, ["221 2.0.0 Bye".toList], none, none⟩
          next := .stop (.ok ())
          handler := h }

variable {handler config broken} in
theorem command_handled {room : Nat} {s : SessionState} {text : Str} {lines : List Bytes}
    {h : σ} {step : Step σ} (hdef : step = command handler config broken room s text lines h) :
    Handled handler config broken room s text lines h step := by
  subst hdef
  have idle : ∀ reply ∈ idleReplies (splitCommand text).1,
      Handled handler config broken room s text lines h (say text lines h [reply] s) :=
    fun reply hreply => .idle reply hreply
  cases hverb : (splitCommand text).1 with
  | ehlo =>
      simp only [command, hverb]
      exact .ehlo hverb
  | helo =>
      simp only [command, hverb]
      exact .helo hverb
  | rset =>
      simp only [command, hverb]
      exact .rset hverb
  | quit =>
      simp only [command, hverb]
      exact .quit hverb
  | mail =>
      rw [hverb] at idle
      simp only [command, hverb]
      split
      · next hgreeted =>
          split
          · next address haddress => exact .mail address hverb hgreeted haddress
          · exact idle _ (by decide)
      · exact idle _ (by decide)
  | rcpt =>
      rw [hverb] at idle
      simp only [command, hverb]
      split
      · split
        · exact idle _ (by decide)
        · split
          · next address haddress =>
              rcases hverify : handler.verifyRecipient s.envelope.mailFrom address h with
                ⟨_ | reason, h'⟩
              · exact .accept address h' hverb haddress hverify
              · exact .reject address reason h' hverb haddress hverify
          · exact idle _ (by decide)
      · exact idle _ (by decide)
  | data =>
      rw [hverb] at idle
      simp only [command, hverb]
      split
      · exact idle _ (by decide)
      · split
        · next hroom => exact .full hverb hroom
        · rcases hread : readData broken config.maxMessageSize lines
            with e | ⟨reply | data, rest⟩
          · exact .lost e hverb hread
          · exact .refused reply rest hverb hread
          · exact .handed data rest _ _ hverb hread rfl
  | noop | vrfy | expn | starttls | none | other =>
      rw [hverb] at idle
      simp only [command, hverb]
      exact idle _ (by decide)

/-! ## Positions and turns -/

/-- A session between two commands. -/
structure Position (σ : Type) where
  /-- The reply lines that the stream still takes. -/
  room : Nat
  state : SessionState
  lines : List Bytes
  handler : σ

/-- What is left of the session. -/
def Position.rest (p : Position σ) : Outcome σ :=
  sessionLoop handler config broken (p.lines.length + 1) p.room p.state p.lines p.handler

/-- Commands answered in full, one after the other. -/
inductive Turns : Position σ → List Exchange → Position σ → Prop
  | done (p : Position σ) : Turns p [] p
  | turn {room : Nat} {s s' : SessionState} {line : Bytes} {text : Str}
      {lines lines' : List Bytes} {h : σ} {step : Step σ} {xs : List Exchange}
      {q : Position σ} :
      readLine broken line = .ok text →
      step = command handler config broken room s (trimLineEnd text) lines h →
      step.exchange.replies.length ≤ room → step.next = .more s' lines' →
      Turns ⟨room - step.exchange.replies.length, s', lines', step.handler⟩ xs q →
      Turns ⟨room, s, line :: lines, h⟩ (step.exchange :: xs) q

variable {handler config broken}

theorem Handled.suffix {room : Nat} {s s' : SessionState} {text : Str}
    {lines lines' : List Bytes} {h : σ} {step : Step σ}
    (ha : Handled handler config broken room s text lines h step)
    (hnext : step.next = .more s' lines') : lines' <:+ lines := by
  cases ha with
  | ehlo | helo | rset | mail | idle | accept | reject =>
      cases hnext
      exact List.suffix_rfl
  | refused _ _ _ hread | handed _ _ _ _ _ hread =>
      cases hnext
      exact readData_suffix hread
  | full | lost | quit => cases hnext

/-- The ways in which a session goes on from a position, one by one. -/
inductive GoesOn (handler : MailHandler σ) (config : SessionConfig) (broken : Bool) :
    Position σ → Outcome σ → Prop
  | ended (room : Nat) (s : SessionState) (h : σ) :
      GoesOn handler config broken
        ⟨room, s, [], h⟩ ⟨[], h, if broken then .error .broken else .ok ()⟩
  | unread (room : Nat) (s : SessionState) (line : Bytes) (lines : List Bytes) (h : σ)
      (e : IoError) : readLine broken line = .error e →
      GoesOn handler config broken ⟨room, s, line :: lines, h⟩ ⟨[], h, .error e⟩
  | cut (room : Nat) (s : SessionState) (line : Bytes) (text : Str) (lines : List Bytes)
      (h : σ) (step : Step σ) : readLine broken line = .ok text →
      step = command handler config broken room s (trimLineEnd text) lines h →
      room < step.exchange.replies.length →
      GoesOn handler config broken ⟨room, s, line :: lines, h⟩
        ⟨[step.exchange.cut room], step.handler, .error .broken⟩
  | stopped (room : Nat) (s : SessionState) (line : Bytes) (text : Str) (lines : List Bytes)
      (h : σ) (step : Step σ) (result : Except IoError Unit) :
      readLine broken line = .ok text →
      step = command handler config broken room s (trimLineEnd text) lines h →
      step.exchange.replies.length ≤ room → step.next = .stop result →
      GoesOn handler config broken ⟨room, s, line :: lines, h⟩
        ⟨[step.exchange], step.handler, result⟩
  | turned (room : Nat) (s s' : SessionState) (line : Bytes) (text : Str)
      (lines lines' : List Bytes) (h : σ) (step : Step σ) (o : Outcome σ) :
      readLine broken line = .ok text →
      step = command handler config broken room s (trimLineEnd text) lines h →
      step.exchange.replies.length ≤ room → step.next = .more s' lines' → lines' <:+ lines →
      o = Position.rest handler config broken
        ⟨room - step.exchange.replies.length, s', lines', step.handler⟩ →
      GoesOn handler config broken ⟨room, s, line :: lines, h⟩
        ⟨step.exchange :: o.trace, o.handler, o.result⟩

/-- A turn, and the rest after it. -/
theorem rest_of_more {room : Nat} {s s' : SessionState} {line : Bytes} {text : Str}
    {lines lines' : List Bytes} {h : σ} {step : Step σ}
    (htext : readLine broken line = .ok text)
    (hdef : step = command handler config broken room s (trimLineEnd text) lines h)
    (hle : step.exchange.replies.length ≤ room) (hnext : step.next = .more s' lines') :
    lines' <:+ lines ∧ ∃ o, o = Position.rest handler config broken
        ⟨room - step.exchange.replies.length, s', lines', step.handler⟩ ∧
      Position.rest handler config broken ⟨room, s, line :: lines, h⟩
        = ⟨step.exchange :: o.trace, o.handler, o.result⟩ := by
  have hsuffix : lines' <:+ lines := by
    have ha := command_handled hdef
    exact ha.suffix hnext
  refine ⟨hsuffix, _, rfl, ?_⟩
  have hlen := hsuffix.length_le
  -- fewer lines are left than turns
  have hfuel : ∀ room h, sessionLoop handler config broken (line :: lines).length room s'
      lines' h = Position.rest handler config broken ⟨room, s', lines', h⟩ := fun room h =>
    sessionLoop_fuel handler config broken _ _ room s' lines' h
      (by rw [List.length_cons]; omega) (Nat.lt_succ_self _)
  rw [Position.rest, sessionLoop, htext]
  dsimp only
  rw [← hdef, if_neg (Nat.not_lt.mpr hle), hnext]
  dsimp only
  rw [hfuel]

theorem goesOn_rest (handler : MailHandler σ) (config : SessionConfig) (broken : Bool)
    (p : Position σ) :
    GoesOn handler config broken p (p.rest handler config broken) := by
  obtain ⟨room, s, lines, h⟩ := p
  cases lines with
  | nil => exact .ended room s h
  | cons line lines =>
      cases htext : readLine broken line with
      | error e =>
          rw [Position.rest, sessionLoop, htext]
          exact .unread room s line lines h e htext
      | ok text =>
          obtain ⟨step, hdef⟩ : ∃ step, step = command handler config broken room s
              (trimLineEnd text) lines h :=
            ⟨_, rfl⟩
          by_cases hroom : room < step.exchange.replies.length
          · rw [Position.rest, sessionLoop, htext]
            dsimp only
            rw [← hdef, if_pos hroom]
            exact .cut room s line text lines h step htext hdef hroom
          · have hle := Nat.le_of_not_lt hroom
            cases hnext : step.next with
            | stop result =>
                rw [Position.rest, sessionLoop, htext]
                dsimp only
                rw [← hdef, if_neg hroom, hnext]
                exact .stopped room s line text lines h step result htext hdef hle hnext
            | more s' lines' =>
                obtain ⟨hsuffix, o, ho, hrest⟩ := rest_of_more htext hdef hle hnext
                rw [hrest]
                exact .turned room s s' line text lines lines' h step o htext
                  hdef hle hnext hsuffix ho

/-- Turns, and then the rest. -/
theorem Turns.rest_eq {p q : Position σ} {xs : List Exchange}
    (h : Turns handler config broken p xs q) :
    p.rest handler config broken = ⟨xs ++ (q.rest handler config broken).trace,
      (q.rest handler config broken).handler, (q.rest handler config broken).result⟩ := by
  induction h with
  | done p => rfl
  | turn htext hdef hle hnext _ ih =>
      obtain ⟨-, o, ho, hrest⟩ := rest_of_more htext hdef hle hnext
      rw [hrest, ho, ih]
      rfl

/-- Up to each of its exchanges a session is turns. -/
theorem exists_turns {x : Exchange} {after : List Exchange} :
    ∀ {before : List Exchange} {p : Position σ},
    (p.rest handler config broken).trace = before ++ x :: after →
      ∃ q, Turns handler config broken p before q ∧
        (q.rest handler config broken).trace = x :: after
  | [], p, htrace => ⟨p, .done p, htrace⟩
  | y :: before, p, htrace => by
      have hgo := goesOn_rest handler config broken p
      generalize p.rest handler config broken = o at hgo htrace
      cases hgo with
      | ended | unread => cases htrace
      | cut | stopped => cases before <;> cases htrace
      | turned room s s' line text lines lines' h step o htext hdef hle hnext _ ho =>
          subst ho
          obtain ⟨rfl, htail⟩ := List.cons.inj htrace
          obtain ⟨q, hturns, hq⟩ := exists_turns htail
          exact ⟨q, .turn htext hdef hle hnext hturns, hq⟩

theorem Turns.suffix {p q : Position σ} {xs : List Exchange}
    (h : Turns handler config broken p xs q) :
    q.lines <:+ p.lines := by
  induction h with
  | done p => exact List.suffix_rfl
  | turn htext hdef hle hnext _ ih =>
      exact ih.trans ((rest_of_more htext hdef hle hnext).1.trans (List.suffix_cons _ _))

/-- The last turn is one by itself. -/
theorem Turns.snoc {x : Exchange} {q : Position σ} : ∀ {xs : List Exchange} {p : Position σ},
    Turns handler config broken p (xs ++ [x]) q →
      ∃ m, Turns handler config broken p xs m ∧ Turns handler config broken m [x] q
  | [], p, h => ⟨p, .done p, h⟩
  | y :: xs, p, h => by
      cases h with
      | turn htext hdef hle hnext hturns =>
          obtain ⟨m, hm, hlast⟩ := Turns.snoc hturns
          exact ⟨m, .turn htext hdef hle hnext hm, hlast⟩

/-- The banner written, a session starts. -/
theorem handleSession_succ (room : Nat) (input : Bytes) (h : σ) :
    handleSession handler config broken (room + 1) input h
      = Position.rest handler config broken ⟨room, .initial, splitInclusive 10 input, h⟩ := by
  rw [handleSession, if_neg (Nat.succ_ne_zero room)]
  rfl

theorem Exchange.cut_length (x : Exchange) : x.cut x.replies.length = x := by
  rw [Exchange.cut, List.take_length]

/-- What commands keep of the variables holds all the time, and what it makes of each exchange
holds of every one, written in full or not. -/
theorem rest_forall {I : SessionState → Prop} {P : Exchange → Prop} {L : List Bytes}
    (hstep : ∀ room s line text lines h step, I s → line ∈ L →
      readLine broken line = .ok text →
      Handled handler config broken room s (trimLineEnd text) lines h step →
      (∀ n, P (step.exchange.cut n)) ∧ ∀ s' lines', step.next = .more s' lines' → I s') :
    ∀ (n : Nat) (p : Position σ), p.lines.length = n → p.lines <:+ L → I p.state →
      ∀ x ∈ (p.rest handler config broken).trace, P x := by
  intro n
  induction n using Nat.strong_induction_on with
  | _ n ih =>
      intro p hlength hsuffix hI x hx
      have hgo := goesOn_rest handler config broken p
      generalize p.rest handler config broken = o at hgo hx
      cases hgo with
      | ended | unread => cases hx
      | cut room s line text lines h step htext hdef hcut =>
          have ha := command_handled hdef
          cases List.mem_singleton.mp hx
          exact (hstep room s line text lines h step hI
            (hsuffix.subset List.mem_cons_self) htext ha).1 room
      | stopped room s line text lines h step result htext hdef hle hstop =>
          have ha := command_handled hdef
          cases List.mem_singleton.mp hx
          rw [← step.exchange.cut_length]
          exact (hstep room s line text lines h step hI
            (hsuffix.subset List.mem_cons_self) htext ha).1 _
      | turned room s s' line text lines lines' h step o htext hdef hle hnext hleft ho =>
          have ha := command_handled hdef
          obtain ⟨hP, hI'⟩ := hstep room s line text lines h step hI
            (hsuffix.subset List.mem_cons_self) htext ha
          rcases List.mem_cons.mp hx with rfl | hx
          · rw [← step.exchange.cut_length]
            exact hP _
          · subst ho
            refine ih lines'.length ?_ ⟨_, s', lines', step.handler⟩ rfl ?_
              (hI' s' lines' hnext) x hx
            · have hle' := hleft.length_le
              rw [← hlength, List.length_cons]
              omega
            · exact hleft.trans ((List.suffix_cons line lines).trans hsuffix)

/-! ## What comes later -/

/-- The exchange without the lines that came after the command. -/
def Exchange.said (x : Exchange) : Exchange := { x with ahead := [] }

theorem Handled.replies_ne_nil {room : Nat} {s : SessionState} {text : Str}
    {lines : List Bytes} {h : σ} {step : Step σ}
    (ha : Handled handler config broken room s text lines h step) :
    step.exchange.replies ≠ [] := by
  cases ha <;> exact List.cons_ne_nil _ _

/-- The same with other lines to come. -/
def Next.over (lines : List Bytes) : Next → Next
  | .more s _ => .more s lines
  | .stop result => .stop result

/-- No command but `DATA` looks at the lines to come. -/
theorem command_over {room' : Nat} {s : SessionState} {text : Str} {h : σ}
    (hverb : (splitCommand text).1 ≠ .data) (room : Nat) (lines tail : List Bytes) :
    command handler config broken room' s text tail h
      = { exchange := { (command handler config broken room s text lines h).exchange
        with ahead := tail }
          next := (command handler config broken room s text lines h).next.over tail
          handler := (command handler config broken room s text lines h).handler } := by
  cases hcase : (splitCommand text).1 with
  | data => exact absurd hcase hverb
  | mail =>
      simp only [command, hcase]
      split
      · split <;> rfl
      · rfl
  | rcpt =>
      simp only [command, hcase]
      split
      · split
        · rfl
        · split
          · split <;> rfl
          · rfl
      · rfl
  | _ =>
      simp only [command, hcase]
      rfl

/-- A command that is answered looks at the lines up to those it leaves, and at no others. -/
theorem command_frame {room : Nat} {s s' : SessionState} {text : Str}
    {lines lines' : List Bytes} {h : σ} {step : Step σ}
    (hdef : step = command handler config broken room s text lines h)
    (hroom : room ≠ 0) (hnext : step.next = .more s' lines') (hne : lines' ≠ []) :
    ∃ used, lines = used ++ lines' ∧ ∀ room' tail, room' ≠ 0 →
      command handler config broken room' s text (used ++ tail) h
        = { exchange := { step.exchange with ahead := used ++ tail }
            next := .more s' tail
            handler := step.handler } := by
  by_cases hverb : (splitCommand text).1 = .data
  · simp only [command, hverb] at hdef ⊢
    by_cases hempty : s.envelope.rcptTo.isEmpty = true
    · rw [if_pos hempty] at hdef
      subst hdef
      cases hnext
      exact ⟨[], rfl, fun _ _ _ => if_pos hempty⟩
    · simp only [if_neg hempty, if_neg hroom] at hdef
      rcases hread : readData broken config.maxMessageSize lines with e | ⟨payload, rest⟩
      · rw [hread] at hdef
        subst hdef
        cases hnext
      · rw [hread] at hdef
        have hrest : rest = lines' := by
          cases payload <;> subst hdef <;> cases hnext <;> rfl
        subst hrest
        rcases readData_ok hread with ⟨before, last, rfl, -, htail⟩ | ⟨-, -, h0⟩
        · refine ⟨before ++ [last], by simp, fun room' tail hroom' => ?_⟩
          rw [if_neg hempty, if_neg hroom', List.append_assoc,
            List.singleton_append, htail tail]
          cases payload <;> subst hdef <;> cases hnext <;> rfl
        · exact absurd h0 hne
  · have ha := command_handled hdef
    have hlines : lines' = lines := by
      cases ha with
      | ehlo | helo | rset | mail | idle | accept | reject => cases hnext; rfl
      | full h0 | lost _ h0 | refused _ _ h0 | handed _ _ _ _ h0 => exact absurd h0 hverb
      | quit => cases hnext
    subst hlines
    refine ⟨[], rfl, fun room' tail _ => ?_⟩
    rw [List.nil_append, command_over hverb room lines' tail, ← hdef, hnext]
    rfl

/-- Turns take the stream to a line; with any other lines from there on they are the same. -/
theorem Turns.frame {p q : Position σ} {xs : List Exchange}
    (h : Turns handler config broken p xs q)
    (hne : q.lines ≠ []) : ∃ n used, p.room = n + q.room ∧ p.lines = used ++ q.lines ∧
      ∀ room tail, ∃ xs', xs'.map Exchange.said = xs.map Exchange.said ∧
        Turns handler config broken ⟨n + room, p.state, used ++ tail, p.handler⟩ xs'
          ⟨room, q.state, tail, q.handler⟩ := by
  induction h with
  | done p => exact ⟨0, [], (Nat.zero_add _).symm, rfl, fun room tail => ⟨[], rfl, by
      rw [Nat.zero_add]
      exact .done _⟩⟩
  | @turn room s s' line text lines lines' h step xs q htext hdef hle hnext _ ih =>
      obtain ⟨n, used', hroom, hlines, hsame⟩ := ih hne
      dsimp only at hroom hlines hsame
      subst hlines
      have hpos : 0 < step.exchange.replies.length := by
        have ha := command_handled hdef
        exact List.length_pos_iff.mpr ha.replies_ne_nil
      obtain ⟨used, rfl, hframe⟩ := command_frame hdef (by omega) hnext
        (List.append_ne_nil_of_right_ne_nil used' hne)
      refine ⟨step.exchange.replies.length + n, line :: (used ++ used'), by dsimp only; omega,
        by simp, fun room' tail => ?_⟩
      obtain ⟨xs', hsaid, hturns⟩ := hsame room' tail
      have hcommand := hframe (step.exchange.replies.length + n + room')
        (used' ++ tail) (by omega)
      refine ⟨{ step.exchange with ahead := used ++ (used' ++ tail) } ::
        xs', by simp [hsaid, Exchange.said], ?_⟩
      dsimp only
      rw [List.cons_append, List.append_assoc]
      have hroom' : step.exchange.replies.length + n + room' - step.exchange.replies.length
          = n + room' := by
        omega
      refine .turn htext hcommand.symm (by dsimp only; omega) rfl ?_
      dsimp only
      rw [hroom']
      exact hturns

end

end Weiterleitung
