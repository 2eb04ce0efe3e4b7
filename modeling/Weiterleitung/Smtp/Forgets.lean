/-
# `Smtp.Forgets` — refused commands and finished transactions

A command that is refused, or that asks for nothing, leaves the variables of the session as
they are; a greeting, `RSET` and the end of a `DATA` reset all of them.  So the first may be
deleted from what a client sends, and after the second the session is a new one.

The handler outlives both.  That a deleted `RCPT` had it look up a recipient must not show in
its verdicts (`Impartial`); where it does not show in its answers to mail either (`AnswersBy`),
these too are the same.

    two handlers that cannot be told apart give the same session     (`rest_alike`)
    what a refused command does                                      (`Handled.idle`)
    what a finished transaction leaves                               (`Handled.settled`)
    refused commands have no effect, finished transactions leave
      no trace                                                       (`session_forgets`)
-/
import Mathlib
import Weiterleitung.Smtp.Dialogue

namespace Weiterleitung

open Text Utf8 Lines

/-! ## Handlers that answer alike -/

section
variable {σ τ β : Type}

/-- The verdict on a recipient depends on the sender and the recipient only. -/
def Impartial (handler : MailHandler σ) : Prop :=
  ∀ mailFrom recipient h h',
    (handler.verifyRecipient mailFrom recipient h).1
      = (handler.verifyRecipient mailFrom recipient h').1

/-- Its answers to mail depend on `seen` only, and verdicts leave that as it is. -/
structure AnswersBy (handler : MailHandler σ) (seen : σ → τ) : Prop where
  asked (mailFrom recipient : Str) (h : σ) :
    seen (handler.verifyRecipient mailFrom recipient h).2 = seen h
  answer (envelope : Envelope) (h h' : σ) : seen h = seen h' →
    (handler.handle envelope h).1 = (handler.handle envelope h').1 ∧
      seen (handler.handle envelope h).2 = seen (handler.handle envelope h').2

/-- Between states that `R` relates the handler makes no difference to what `view` shows. -/
structure Indifferent (handler : MailHandler σ) (R : σ → σ → Prop) (view : Exchange → β) :
    Prop where
  verify (mailFrom recipient : Str) (h h' : σ) : R h h' →
    (handler.verifyRecipient mailFrom recipient h).1 =
      (handler.verifyRecipient mailFrom recipient h').1 ∧
      R (handler.verifyRecipient mailFrom recipient h).2
        (handler.verifyRecipient mailFrom recipient h').2
  handle (envelope : Envelope) (h h' : σ) : R h h' →
    R (handler.handle envelope h).2 (handler.handle envelope h').2 ∧ ∀ text lines room,
      view (Exchange.cut ⟨text, lines, [startData, dataReply (handler.handle envelope h).1],
        none, some (envelope, (handler.handle envelope h).1)⟩ room)
        = view (Exchange.cut ⟨text, lines,
          [startData, dataReply (handler.handle envelope h').1], none,
          some (envelope, (handler.handle envelope h').1)⟩ room)

/-- What a session shows of an exchange, the answer of the handler to mail left out. -/
def Exchange.gist (x : Exchange) : Exchange :=
  { x.said with
    replies := if x.handled.isSome then x.replies.take 1 else x.replies
    handled := x.handled.map fun handled => (handled.1, .ok ()) }

theorem Impartial.indifferent {handler : MailHandler σ} (h : Impartial handler) :
    Indifferent handler (fun _ _ => True) Exchange.gist where
  verify mailFrom recipient h₁ h₂ _ := ⟨h mailFrom recipient h₁ h₂, trivial⟩
  handle envelope h₁ h₂ _ := by
    refine ⟨trivial, fun text lines room => ?_⟩
    cases room <;> rfl

theorem AnswersBy.indifferent {handler : MailHandler σ} {seen : σ → τ} (hv : Impartial handler)
    (ha : AnswersBy handler seen) :
    Indifferent handler (fun h h' => seen h = seen h') Exchange.said where
  verify mailFrom recipient h₁ h₂ hseen := by
    refine ⟨hv mailFrom recipient h₁ h₂, ?_⟩
    rw [ha.asked, ha.asked, hseen]
  handle envelope h₁ h₂ hseen := by
    obtain ⟨hanswer, hafter⟩ := ha.answer envelope h₁ h₂ hseen
    refine ⟨hafter, fun text lines room => ?_⟩
    rw [hanswer]

variable {handler : MailHandler σ} {config : SessionConfig} {broken : Bool} {R : σ → σ → Prop}
  {view : Exchange → β}

/-- One command, to handlers that cannot be told apart. -/
theorem command_indifferent (hi : Indifferent handler R view) (config : SessionConfig)
    (broken : Bool) (room : Nat) (s : SessionState) (text : Str)
    (lines : List Bytes) {h h' : σ} (hR : R h h') {a b : Step σ}
    (ha : a = command handler config broken room s text lines h)
    (hb : b = command handler config broken room s text lines h') :
    a.next = b.next ∧ a.exchange.replies.length = b.exchange.replies.length ∧
    R a.handler b.handler ∧
      ∀ n, view (a.exchange.cut n) = view (b.exchange.cut n) := by
  subst ha hb
  cases hverb : (splitCommand text).1 with
  | mail =>
      simp only [command, hverb]
      split
      · split <;> exact ⟨rfl, rfl, hR, fun _ => rfl⟩
      · exact ⟨rfl, rfl, hR, fun _ => rfl⟩
  | rcpt =>
      simp only [command, hverb]
      split
      · split
        · exact ⟨rfl, rfl, hR, fun _ => rfl⟩
        · split
          · next address _ =>
              obtain ⟨hsame, hR'⟩ := hi.verify s.envelope.mailFrom address h h' hR
              generalize handler.verifyRecipient s.envelope.mailFrom address h = v at hsame hR'
              generalize handler.verifyRecipient s.envelope.mailFrom address h'
                = v' at hsame hR'
              obtain ⟨verdict, t⟩ := v
              obtain ⟨verdict', t'⟩ := v'
              cases hsame
              cases verdict <;> exact ⟨rfl, rfl, hR', fun _ => rfl⟩
          · exact ⟨rfl, rfl, hR, fun _ => rfl⟩
      · exact ⟨rfl, rfl, hR, fun _ => rfl⟩
  | data =>
      simp only [command, hverb]
      split
      · exact ⟨rfl, rfl, hR, fun _ => rfl⟩
      · split
        · exact ⟨rfl, rfl, hR, fun _ => rfl⟩
        · rcases readData broken config.maxMessageSize lines with e | ⟨reply | data, rest⟩
          · exact ⟨rfl, rfl, hR, fun _ => rfl⟩
          · exact ⟨rfl, rfl, hR, fun _ => rfl⟩
          · obtain ⟨hR', hview⟩ := hi.handle { s.envelope with data := data } h h' hR
            exact ⟨rfl, rfl, hR', hview text lines⟩
  | quit =>
      simp only [command, hverb]
      exact ⟨trivial, trivial, hR, fun _ => trivial⟩
  | _ =>
      simp only [command, hverb]
      exact ⟨rfl, rfl, hR, fun _ => rfl⟩

theorem sessionLoop_indifferent (hi : Indifferent handler R view) (config : SessionConfig)
    (broken : Bool) (fuel : Nat) :
    ∀ (room : Nat) (s : SessionState) (lines : List Bytes) (h h' : σ), R h h' →
      (sessionLoop handler config broken fuel room s lines h).trace.map view
          = (sessionLoop handler config broken fuel room s lines h').trace.map view ∧
        (sessionLoop handler config broken fuel room s lines h).result
          = (sessionLoop handler config broken fuel room s lines h').result ∧
        R (sessionLoop handler config broken fuel room s lines h).handler
          (sessionLoop handler config broken fuel room s lines h').handler := by
  induction fuel with
  | zero =>
      intro room s lines h h' hR
      exact ⟨rfl, rfl, hR⟩
  | succ fuel ih =>
      intro room s lines h h' hR
      cases lines with
      | nil => exact ⟨rfl, rfl, hR⟩
      | cons line lines =>
          rw [sessionLoop, sessionLoop]
          cases readLine broken line with
          | error e => exact ⟨rfl, rfl, hR⟩
          | ok text =>
              obtain ⟨hnext, hlength, hafter, hview⟩ :=
                command_indifferent hi config broken room s (trimLineEnd text) lines hR rfl rfl
              dsimp only
              generalize command handler config broken room s
                (trimLineEnd text) lines h = a at *
              generalize command handler config broken room s
                (trimLineEnd text) lines h' = b at *
              by_cases hroom : room < a.exchange.replies.length
              · rw [if_pos hroom, if_pos (hlength ▸ hroom)]
                exact ⟨congrArg (fun y => [y]) (hview room), rfl, hafter⟩
              · rw [if_neg hroom, if_neg (hlength ▸ hroom), ← hnext, ← hlength]
                have hfull : view a.exchange = view b.exchange := by
                  have := hview a.exchange.replies.length
                  unfold Exchange.cut at this
                  rwa [List.take_length, hlength, List.take_length] at this
                cases a.next with
                | stop result => exact ⟨congrArg (fun y => [y]) hfull, rfl, hafter⟩
                | more s' lines' =>
                    obtain ⟨htrace, hresult, hR'⟩ :=
                      ih (room - a.exchange.replies.length) s' lines' _ _ hafter
                    exact ⟨congrArg₂ List.cons hfull htrace, hresult, hR'⟩

/-- A session after which `o'` is what `o` was, from handlers `h'` and `h`: the same end, the
same commands, envelopes and replies, and also the same answers to mail if it cannot
tell the handlers apart. -/
structure Indistinct (handler : MailHandler σ) (h h' : σ) (o o' : Outcome σ) : Prop where
  result : o.result = o'.result
  gist : o.trace.map Exchange.gist = o'.trace.map Exchange.gist
  said (τ : Type) (seen : σ → τ) : AnswersBy handler seen → seen h = seen h' →
    o.trace.map Exchange.said = o'.trace.map Exchange.said ∧ seen o.handler = seen o'.handler

theorem rest_alike (hv : Impartial handler) (room : Nat) (s : SessionState)
    (lines : List Bytes) (h h' : σ) :
    Indistinct handler h h' (Position.rest handler config broken ⟨room, s, lines, h⟩)
      (Position.rest handler config broken ⟨room, s, lines, h'⟩) := by
  obtain ⟨hgist, hresult, -⟩ := sessionLoop_indifferent hv.indifferent config broken
    (lines.length + 1) room s lines h h' trivial
  refine ⟨hresult, hgist, fun τ seen ha hseen => ?_⟩
  obtain ⟨hsaid, -, hafter⟩ := sessionLoop_indifferent (ha.indifferent hv) config broken
    (lines.length + 1) room s lines h h' hseen
  exact ⟨hsaid, hafter⟩

/-- Said before the same things were, they make no difference. -/
theorem Indistinct.after {h₁ h₂ : σ} {o o' : Outcome σ} {xs xs' : List Exchange}
    (ho : Indistinct handler h₁ h₂ o o')
    (hxs : xs.map Exchange.said = xs'.map Exchange.said) {h : σ}
    (hseen : ∀ (τ : Type) (seen : σ → τ), AnswersBy handler seen → seen h₁ = seen h₂) :
    Indistinct handler h h ⟨xs ++ o.trace, o.handler, o.result⟩ ⟨xs' ++ o'.trace,
      o'.handler, o'.result⟩ := by
  refine ⟨ho.result, ?_, fun τ seen ha _ => ?_⟩
  · -- the gist of an exchange is that of what was said
    have hgist : xs.map Exchange.gist = xs'.map Exchange.gist := by
      have h0 := congrArg (List.map Exchange.gist) hxs
      rwa [List.map_map, List.map_map] at h0
    rw [List.map_append, List.map_append, hgist, ho.gist]
  · obtain ⟨hsaid, hafter⟩ := ho.said τ seen ha (hseen τ seen ha)
    refine ⟨?_, hafter⟩
    rw [List.map_append, List.map_append, hxs, hsaid]

/-! ## Commands without effect -/

/-- Refused with a code of 4xx or 5xx, or one of the commands that ask for nothing. -/
def Exchange.Idle (x : Exchange) : Prop :=
  (∃ reply, x.replies = [reply] ∧ (reply.head? = some '4' ∨ reply.head? = some '5')) ∨
    x.replies ≠ [] ∧ (x.verb = .noop ∨ x.verb = .vrfy ∨ x.verb = .expn)

/-- Such a command got one line, and left everything but the handler as it was. -/
theorem Handled.idle_of {room : Nat} {s : SessionState} {text : Str} {lines : List Bytes}
    {h : σ} {step : Step σ} (ha : Handled handler config broken room s text lines h step)
    {n : Nat}
    (hx : (step.exchange.cut n).Idle) :
    n ≠ 0 ∧ step.exchange.replies.length = 1 ∧ step.next = .more s lines ∧
      (step.handler = h ∨ ∃ mailFrom recipient,
        step.handler = (handler.verifyRecipient mailFrom recipient h).2) := by
  have hn : n ≠ 0 := by
    rintro rfl
    rcases hx with ⟨reply, hreply, -⟩ | ⟨hne, -⟩
    · cases hreply
    · exact hne rfl
  -- the first line of every other answer has another code, and its command another verb
  have other : ∀ {reply : Str} {replies : List Str}, step.exchange.replies = reply :: replies →
      reply.head? ≠ some '4' → reply.head? ≠ some '5' →
      ¬ (step.exchange.verb = .noop ∨ step.exchange.verb = .vrfy ∨
        step.exchange.verb = .expn) → False := by
    intro reply replies hreplies h4 h5 hverb
    rcases hx with ⟨reply', hreply, hcode⟩ | ⟨-, hidle⟩
    · rw [Exchange.cut, hreplies] at hreply
      obtain ⟨n, rfl⟩ := Nat.exists_eq_succ_of_ne_zero hn
      obtain ⟨rfl, -⟩ := List.cons.inj hreply
      exact hcode.elim h4 h5
    · exact hverb hidle
  cases ha with
  | idle reply hreply => exact ⟨hn, rfl, rfl, Or.inl rfl⟩
  | reject address reason h' _ _ hverify =>
      exact ⟨hn, rfl, rfl, Or.inr ⟨s.envelope.mailFrom, address, by rw [hverify]⟩⟩
  | ehlo hverb | helo hverb | rset hverb | mail _ hverb | accept _ _ hverb | full hverb
    | lost _ hverb | refused _ _ hverb | handed _ _ _ _ hverb | quit hverb =>
      refine (other rfl ?_ ?_ ?_).elim
      · exact fun h0 => absurd (Option.some.inj h0) (by decide)
      · exact fun h0 => absurd (Option.some.inj h0) (by decide)
      · simp only [Exchange.verb, say, hverb]
        decide

/-- One command fewer: what comes before and after it is the same. -/
theorem idle_deleted (hv : Impartial handler) {room : Nat} {input : Bytes} {h : σ}
    {before after : List Exchange}
    {x : Exchange} (htrace : (handleSession handler config broken (room + 1) input h).trace
      = before ++ x :: after)
    (hx : x.Idle) :
    ∃ used line text, splitInclusive 10 input = used ++ line :: x.ahead ∧
      fromUtf8 line = some text ∧
      x.command = trimLineEnd text ∧
      Indistinct handler h h
        (handleSession handler config broken room (used ++ x.ahead).flatten h)
        ⟨before ++ after, (handleSession handler config broken (room + 1) input h).handler,
          (handleSession handler config broken (room + 1) input h).result⟩ := by
  rw [handleSession_succ] at htrace ⊢
  obtain ⟨q, hturns, hq⟩ := exists_turns htrace
  have hwhole := hturns.rest_eq
  have hgo := goesOn_rest handler config broken q
  generalize Position.rest handler config broken q = rest at hq hwhole hgo
  cases hgo with
  | ended | unread => cases hq
  | cut r s line text lines h₁ step htext hdef hcut =>
      obtain ⟨rfl, -⟩ := List.cons.inj hq
      have ha := command_handled hdef
      obtain ⟨hne, hone, -⟩ := ha.idle_of hx
      omega
  | stopped r s line text lines h₁ step result htext hdef hle hstop =>
      obtain ⟨rfl, -⟩ := List.cons.inj hq
      have ha := command_handled hdef
      rw [← step.exchange.cut_length] at hx
      obtain ⟨-, -, hmore, -⟩ := ha.idle_of hx
      rw [hmore] at hstop
      cases hstop
  | turned r s s' line text lines lines' h₁ step o htext hdef hle hnext hsuffix ho =>
      obtain ⟨rfl, rfl⟩ := List.cons.inj hq
      have ha := command_handled hdef
      have hidle := hx
      rw [← step.exchange.cut_length] at hidle
      obtain ⟨-, hone, hmore, hafter⟩ := ha.idle_of hidle
      rw [hmore] at hnext
      cases hnext
      obtain ⟨hcommand, hahead⟩ := command_exchange handler config broken r s
        (trimLineEnd text) lines h₁
      rw [← hdef] at hcommand hahead
      obtain ⟨r, rfl⟩ := Nat.exists_eq_add_one_of_ne_zero (by omega : r ≠ 0)
      obtain ⟨n, used, hroom, hlines, hsame⟩ := hturns.frame (List.cons_ne_nil line lines)
      dsimp only at hroom hlines hsame
      obtain ⟨xs', hsaid, hturns'⟩ := hsame r lines
      refine ⟨used, line, text, by rw [hahead, hlines], ((readLine_eq_ok broken).mp htext).2,
        hcommand, ?_⟩
      have hroom' : room = n + r + 1 := by omega
      have hinput : splitInclusive 10 (used ++ lines).flatten = used ++ lines :=
        splitInclusive_without 10 hlines
      rw [hwhole, hahead, hroom', handleSession_succ, hinput, hturns'.rest_eq]
      subst ho
      rw [hone, Nat.add_sub_cancel]
      refine (rest_alike hv r s lines h₁ step.handler).after hsaid fun τ seen hanswers => ?_
      rcases hafter with hafter | ⟨mailFrom, recipient, hafter⟩
      · rw [hafter]
      · rw [hafter, hanswers.asked]

/-! ## Finished transactions -/

/-- A greeting, `RSET`, or a `DATA` that was let in and answered. -/
def Exchange.Settles (x : Exchange) : Prop :=
  x.Greets ∨ x.verb = .rset ∨ x.verb = .data ∧ ∃ reply, x.replies = [startData, reply]

theorem Handled.verb {room : Nat} {s : SessionState} {text : Str} {lines : List Bytes} {h : σ}
    {step : Step σ} (ha : Handled handler config broken room s text lines h step) :
    step.exchange.verb = (splitCommand text).1 := by
  cases ha <;> rfl

theorem Handled.greeted {room : Nat} {s s' : SessionState} {text : Str}
    {lines lines' : List Bytes} {h : σ}
    {step : Step σ} (ha : Handled handler config broken room s text lines h step)
    (hnext : step.next = .more s' lines') (hg : s.greeted = true ∨ step.exchange.Greets) :
    s'.greeted = true := by
  have hverb := ha.verb
  unfold Exchange.Greets at hg
  rw [hverb] at hg
  cases ha with
  | ehlo | helo =>
      cases hnext
      rfl
  | rset h0 | mail _ h0 | accept _ _ h0 | reject _ _ _ h0
    | refused _ _ h0 | handed _ _ _ _ h0 =>
      cases hnext
      rw [h0] at hg
      exact hg.resolve_right (by decide)
  | idle reply hreply =>
      cases hnext
      refine hg.resolve_right fun h0 => ?_
      rcases h0 with h0 | h0 <;> rw [h0] at hreply <;> cases hreply
  | full | lost | quit => cases hnext

/-- What such a command leaves of the variables is what a greeting leaves. -/
theorem Handled.settled {room : Nat} {s s' : SessionState} {text : Str}
    {lines lines' : List Bytes} {h : σ}
    {step : Step σ} (ha : Handled handler config broken room s text lines h step)
    (hnext : step.next = .more s' lines') (hg : s.greeted = true ∨ step.exchange.Greets)
    (hx : step.exchange.Settles) : s' = ⟨true, false, .empty⟩ := by
  have hgreeted := ha.greeted hnext hg
  have hverb := ha.verb
  unfold Exchange.Settles Exchange.Greets at hx
  rw [hverb] at hx
  cases ha with
  | ehlo | helo =>
      cases hnext
      rfl
  | rset | refused | handed =>
      cases hnext
      dsimp only at hgreeted
      rw [hgreeted]
  | full | lost | quit => cases hnext
  | mail _ h0 | accept _ _ h0 | reject _ _ _ h0 =>
      rw [h0] at hx
      exact absurd hx (by simp)
  | idle reply hreply =>
      rcases hx with (h0 | h0) | h0 | ⟨-, reply', h0⟩
      · rw [h0] at hreply
        cases hreply
      · rw [h0] at hreply
        cases hreply
      · rw [h0] at hreply
        cases hreply
      · cases h0

theorem Turns.greeted {p q : Position σ} {xs : List Exchange}
    (h : Turns handler config broken p xs q) :
    (p.state.greeted = true ∨ ∃ y ∈ xs, y.Greets) → q.state.greeted = true := by
  induction h with
  | done p => exact fun hg => hg.resolve_right fun ⟨_, hmem, _⟩ => nomatch hmem
  | @turn room s s' line text lines lines' h step xs q htext hdef hle hnext _ ih =>
      intro hg
      have ha := command_handled hdef
      rcases hg with hg | ⟨y, hmem, hy⟩
      · exact ih (Or.inl (ha.greeted hnext (Or.inl hg)))
      · rcases List.mem_cons.mp hmem with rfl | hmem
        · exact ih (Or.inl (ha.greeted hnext (Or.inr hy)))
        · exact ih (Or.inr ⟨y, hmem, hy⟩)

/-- After such a command the variables are those after a greeting. -/
theorem Turns.settled {p q : Position σ} {xs : List Exchange} {x : Exchange}
    (h : Turns handler config broken p (xs ++ [x]) q) (hx : x.Settles)
    (hg : ∃ y ∈ xs ++ [x], y.Greets) :
    q.state = ⟨true, false, .empty⟩ := by
  obtain ⟨m, hm, hlast⟩ := h.snoc
  cases hlast with
  | @turn room s s' line text lines lines' h₁ step _ _ htext hdef hle hnext hdone =>
      cases hdone
      have ha := command_handled hdef
      refine ha.settled hnext ?_ hx
      obtain ⟨y, hmem, hy⟩ := hg
      rcases List.mem_append.mp hmem with hmem | hmem
      · exact Or.inl (hm.greeted (Or.inr ⟨y, hmem, hy⟩))
      · cases List.mem_singleton.mp hmem
        exact Or.inr hy

/-- After such a command the session is one that has just been greeted. -/
theorem settled_fresh (hv : Impartial handler) {p q : Position σ} {xs : List Exchange}
    {x : Exchange} (hlines : splitInclusive 10 p.lines.flatten = p.lines)
    (hturns : Turns handler config broken p (xs ++ [x]) q)
    (hx : x.Settles) (hg : ∃ y ∈ xs ++ [x], y.Greets) {hello : Bytes} {text : Str} (h' : σ)
    (hclosed : 10 ∉ hello) (htext : fromUtf8 (hello ++ [10]) = some text)
    (hverb : (splitCommand (trimLineEnd text)).1 = .ehlo ∨
      (splitCommand (trimLineEnd text)).1 = .helo) :
    ∃ greeting o, greeting.Greets ∧
      handleSession handler config broken (q.room + greeting.replies.length + 1)
        (hello ++ 10 :: q.lines.flatten) h' = ⟨greeting :: o.trace, o.handler, o.result⟩ ∧
      Indistinct handler h' q.handler o (q.rest handler config broken) := by
  obtain ⟨used, hused⟩ := hturns.suffix
  have hrest : splitInclusive 10 q.lines.flatten = q.lines := by
    rw [← hused] at hlines
    exact splitInclusive_suffix 10 hlines
  obtain ⟨room, s, lines, h⟩ := q
  have hs : s = ⟨true, false, .empty⟩ := hturns.settled hx hg
  subst hs
  dsimp only at hrest
  -- the greeting is answered, and the variables after it are the same
  have hgreets : ∃ greeting : Exchange, greeting.Greets ∧ ∀ room',
      command handler config broken room' .initial (trimLineEnd text) lines h'
        = ⟨greeting, .more ⟨true, false, .empty⟩ lines, h'⟩ := by
    rcases hverb with hverb | hverb
    · refine ⟨⟨trimLineEnd text, lines, ehloReplies config, none, none⟩,
        Or.inl hverb, fun room' => ?_⟩
      simp only [command, hverb]
      rfl
    · refine ⟨⟨trimLineEnd text, lines, ["250 ".toList ++ config.hostname], none, none⟩,
        Or.inr hverb, fun room' => ?_⟩
      simp only [command, hverb]
      rfl
  obtain ⟨greeting, hgreeting, hcommand⟩ := hgreets
  have hstep := hcommand (room + greeting.replies.length)
  have hread : readLine broken (hello ++ [10]) = .ok text :=
    (readLine_eq_ok broken).mpr ⟨torn_closed 10 broken hello, htext⟩
  obtain ⟨-, o, ho, hturn⟩ := rest_of_more hread hstep.symm (by dsimp only; omega) rfl
  refine ⟨greeting, o, hgreeting, ?_, ?_⟩
  · rw [handleSession_succ, splitInclusive_line 10 hello _ hclosed, hrest, hturn]
  · dsimp only at ho
    rw [Nat.add_sub_cancel] at ho
    subst ho
    exact rest_alike hv room ⟨true, false, .empty⟩ lines h' h

/-- Refused commands have no effect and finished transactions leave no trace.  A command that
was refused or asked for nothing may be deleted from the stream (which then takes one line
less); and at every position after a command that settles, what follows is, whatever the lines,
what follows in a new session after its greeting. -/
theorem session_forgets (hv : Impartial handler) (room : Nat) (input : Bytes) (h : σ) :
    (∀ before x after,
      (handleSession handler config broken (room + 1) input h).trace = before ++ x :: after →
      x.Idle →
      ∃ used line text, splitInclusive 10 input = used ++ line :: x.ahead ∧
        fromUtf8 line = some text ∧
        x.command = trimLineEnd text ∧
        Indistinct handler h h
          (handleSession handler config broken room (used ++ x.ahead).flatten h)
          ⟨before ++ after, (handleSession handler config broken (room + 1) input h).handler,
            (handleSession handler config broken (room + 1) input h).result⟩) ∧
    (∀ before x q,
      Turns handler config broken ⟨room, .initial, splitInclusive 10 input, h⟩
        (before ++ [x]) q →
      x.Settles → (∃ y ∈ before ++ [x], y.Greets) →
      handleSession handler config broken (room + 1) input h
        = ⟨before ++ x :: (q.rest handler config broken).trace,
          (q.rest handler config broken).handler, (q.rest handler config broken).result⟩ ∧
      ∀ hello text h', 10 ∉ hello → fromUtf8 (hello ++ [10]) = some text →
        ((splitCommand (trimLineEnd text)).1 = .ehlo ∨
          (splitCommand (trimLineEnd text)).1 = .helo) →
        ∃ greeting o, greeting.Greets ∧
          handleSession handler config broken (q.room + greeting.replies.length + 1)
            (hello ++ 10 :: q.lines.flatten) h' = ⟨greeting :: o.trace, o.handler, o.result⟩ ∧
          Indistinct handler h' q.handler o (q.rest handler config broken)) := by
  constructor
  · intro before x after htrace hx
    exact idle_deleted hv htrace hx
  · intro before x q hturns hx hg
    constructor
    · rw [handleSession_succ, hturns.rest_eq, List.append_assoc]
      rfl
    · intro hello text h' hclosed htext hverb
      refine settled_fresh hv ?_ hturns hx hg h' hclosed htext hverb
      rw [flatten_splitInclusive]

end

/-! ### A refused recipient -/

/-- A handler that takes mail for one recipient. -/
def takeFor (known : Str) : MailHandler Unit where
  verifyRecipient _ recipient _ :=
    (if recipient = known then .accept else .reject "Unknown recipient", ())
  handle _ _ := (.ok (), ())

theorem impartial_takeFor (known : Str) : Impartial (takeFor known) := fun _ _ _ _ => rfl

/-- A client that tries two recipients. -/
def twoRecipients : Bytes :=
  encode "EHLO c\r\nMAIL FROM:<a@b.c>\r\nRCPT TO:<n@y.z>\r\nRCPT TO:<x@y.z>\r\nDATA\r\nHi\r\n.\r\n".toList

def oneRecipient : Bytes :=
  encode "EHLO c\r\nMAIL FROM:<a@b.c>\r\nRCPT TO:<x@y.z>\r\nDATA\r\nHi\r\n.\r\n".toList

/-- A session of 21 lines at most, with one known recipient. -/
def sessionFor (known : Str) (input : Bytes) : Outcome Unit :=
  handleSession (takeFor known) ⟨"mx", 1000⟩ false 21 input ()

/-- The exchange about the first of two recipients. -/
def refusedRecipient : Exchange where
  command := "RCPT TO:<n@y.z>"
  ahead := (splitInclusive 10 twoRecipients).drop 3
  replies := ["550 5.1.1 Unknown recipient".toList]
  verified := some ("a@b.c", "n@y.z", .reject "Unknown recipient")
  handled := none

theorem twoRecipients_trace : (sessionFor "x@y.z" twoRecipients).trace
    = (sessionFor "x@y.z" twoRecipients).trace.take 2
      ++ refusedRecipient :: (sessionFor "x@y.z" twoRecipients).trace.drop 3 := by
  decide +kernel

theorem twoRecipients_split :
    splitInclusive 10 twoRecipients = (splitInclusive 10 twoRecipients).take 2
    ++ encode "RCPT TO:<n@y.z>\r\n".toList :: refusedRecipient.ahead := by
  decide +kernel

theorem twoRecipients_without :
    ((splitInclusive 10 twoRecipients).take 2 ++ refusedRecipient.ahead).flatten
      = oneRecipient := by
  decide +kernel

theorem session_forgets_refused :
    Indistinct (takeFor "x@y.z")
      () () (handleSession (takeFor "x@y.z") ⟨"mx", 1000⟩ false 20 oneRecipient ())
      ⟨(sessionFor "x@y.z" twoRecipients).trace.take 2 ++
        (sessionFor "x@y.z" twoRecipients).trace.drop 3,
        (sessionFor "x@y.z" twoRecipients).handler,
        (sessionFor "x@y.z" twoRecipients).result⟩ := by
  obtain ⟨used, line, text, hlines, -, -, halike⟩ :=
    (@session_forgets _ _ ⟨"mx", 1000⟩ false (impartial_takeFor "x@y.z") 20 twoRecipients ()).1
      _ _ _ twoRecipients_trace (Or.inl ⟨_, rfl, Or.inr rfl⟩)
  obtain ⟨rfl, -⟩ := List.append_inj' (hlines.symm.trans twoRecipients_split) rfl
  rw [twoRecipients_without] at halike
  exact halike

end Weiterleitung
