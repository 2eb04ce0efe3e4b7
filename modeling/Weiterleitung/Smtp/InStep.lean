/-
# `Smtp.InStep` — command and reply stay in step

A client may send whatever bytes it likes.  Each line that the session reads in command
position gets one complete reply, a `DATA` that was let in gets one more where its payload
ends, and only `QUIT`, the end of the stream or its failure end the session: that is `InStep`,
which says nothing of how the session works.  A line within which the stream fails is never
read, so nothing is owed for it.  A command line is decoded before anything else, though, and
bytes that are no text end the session without a reply.

    a line in command position has no line end within               (`not_mem_trimLineEnd`)
    every answer is complete                                        (`Handled.complete`)
    an LF in a reply is the operator's or the handler's             (`Handled.lined`)
    command and reply stay in step
      ⟺  every line that is read in command position is text        (`session_inStep_iff`)
-/
import Mathlib
import Weiterleitung.Smtp.Dialogue
import Weiterleitung.Smtp.Router

namespace Weiterleitung

open Text Utf8 Lines Prog

/-! ## Replies in step -/

/-- A line that ends a reply: a code of three digits, and a blank. -/
def Final (reply : Str) : Prop :=
  (reply.take 3).length = 3 ∧ (reply.take 3).all Char.isDigit = true ∧ reply[3]? = some ' '

instance (reply : Str) : Decidable (Final reply) :=
  inferInstanceAs
    (Decidable ((reply.take 3).length = 3 ∧ (reply.take 3).all Char.isDigit = true ∧
      reply[3]? = some ' '))

/-- One complete reply: a final line, and continued lines before it for `EHLO`.  `DATA` that is
let in is answered a second time. -/
inductive Complete : Verb → List Str → Prop
  | single (verb : Verb) (last : Str) : Final last → last ≠ startData → Complete verb [last]
  | ehlo (lines : List Str) (last : Str) : (∀ line ∈ lines, "250-".toList <+: line) →
      Final last →
      Complete .ehlo (lines ++ [last])
  | data (last : Str) : Final last → last ≠ startData → Complete .data [startData, last]

/-- Each LF in the replies is in the name of this host or in a reason that the handler gave,
for addresses without one. -/
def Exchange.Lined (hostname : Str) (x : Exchange) : Prop :=
  ∀ reply ∈ x.replies, '\n' ∈ reply → '\n' ∈ hostname ∨
    (∃ mailFrom recipient reason, x.verified = some (mailFrom, recipient, .reject reason) ∧
      '\n' ∈ reason ∧ '\n' ∉ mailFrom ∧ '\n' ∉ recipient) ∨
    ∃ envelope reason, x.handled = some (envelope, .error reason) ∧
      '\n' ∈ reason ∧ '\n' ∉ envelope.mailFrom ∧ ∀ recipient ∈ envelope.rcptTo,
      '\n' ∉ recipient

/-- The exchange is about this line. -/
structure Exchange.Of (hostname : Str) (line : Bytes) (lines : List Bytes) (x : Exchange) :
    Prop where
  ahead : x.ahead = lines
  command (text : Str) : fromUtf8 line = some text → x.command = trimLineEnd text
  lined : x.Lined hostname

/-- Where the next command is read: after the payload, if there is one. -/
def ReadsOn (broken : Bool) (replies : List Str) (lines lines' : List Bytes) : Prop :=
  replies.head? = some startData ∧ PayloadEnds broken lines lines' ∨
    replies.head? ≠ some startData ∧ lines' = lines

/-- A session over these lines, on a stream that takes `room` more lines of replies. -/
inductive InStep (hostname : Str) (broken : Bool) :
    Nat → List Bytes → List Exchange → Except IoError Unit → Prop
  /-- The stream ends, or fails. -/
  | ended (room : Nat) :
      InStep hostname broken room [] [] (if broken then .error .broken else .ok ())
  /-- The stream fails within a command line. -/
  | unread {line : Bytes} (room : Nat) (lines : List Bytes) : torn 10 broken line = true →
      InStep hostname broken room (line :: lines) [] (.error .broken)
  /-- A complete reply, and on to the line after it, or after the payload. -/
  | next {room : Nat} {line : Bytes} {lines lines' : List Bytes} {x : Exchange}
      {xs : List Exchange} {result : Except IoError Unit} :
      x.Of hostname line lines → x.verb ≠ .quit → Complete x.verb x.replies →
      x.replies.length ≤ room →
      ReadsOn broken x.replies lines lines' →
      InStep hostname broken (room - x.replies.length) lines' xs result →
      InStep hostname broken room (line :: lines) (x :: xs) result
  | quit {room : Nat} {line : Bytes} {lines : List Bytes} {x : Exchange} :
      x.Of hostname line lines → x.verb = .quit → Complete x.verb x.replies →
      x.replies.length ≤ room →
      InStep hostname broken room (line :: lines) [x] (.ok ())
  /-- The stream takes no more of the reply. -/
  | cut {room : Nat} {line : Bytes} {lines : List Bytes} {x : Exchange} (more : List Str) :
      x.Of hostname line lines → x.replies.length = room → more ≠ [] →
      Complete x.verb (x.replies ++ more) →
      InStep hostname broken room (line :: lines) [x] (.error .broken)
  /-- The stream fails before the payload ends. -/
  | lost {room : Nat} {line : Bytes} {lines : List Bytes} {x : Exchange} :
      x.Of hostname line lines → x.verb = .data → x.replies = [startData] →
      1 ≤ room → broken = true →
      Unended broken lines →
      InStep hostname broken room (line :: lines) [x] (.error .broken)

/-- The same with the banner, if the stream takes it. -/
def SessionInStep {σ : Type} (hostname : Str) (broken : Bool) (room : Nat) (input : Bytes)
    (o : Outcome σ) : Prop :=
  match room with
  | 0 => o.trace = [] ∧ o.result = .error .broken
  | room + 1 => InStep hostname broken room (splitInclusive 10 input) o.trace o.result

/-- No session in step ends because of what a line contains. -/
theorem InStep.result_ne {hostname : Str} {broken : Bool} {room : Nat} {lines : List Bytes}
    {xs : List Exchange} {result : Except IoError Unit}
    (h : InStep hostname broken room lines xs result) :
    result ≠ .error .invalidUtf8 := by
  induction h with
  | ended room =>
      cases broken with
      | true => exact fun h0 => nomatch h0
      | false => exact fun h0 => nomatch h0
  | next _ _ _ _ _ _ ih => exact ih
  | quit => exact fun h0 => nomatch h0
  | unread | cut | lost => exact fun h0 => nomatch h0

/-! ## Addresses without line ends -/

/-- A command line has no line end within. -/
theorem not_mem_trimLineEnd {input line : Bytes} {text : Str}
    (hline : line ∈ splitInclusive 10 input)
    (htext : fromUtf8 line = some text) : '\n' ∉ trimLineEnd text := by
  have hread : fromUtf8Lossy line = text := by
    rw [fromUtf8_eq_some.mp htext, lossy_encode]
  obtain ⟨l, hl, hcase⟩ := mem_splitInclusive 10 input hline
  have hnone : '\n' ∉ fromUtf8Lossy l := fun h => hl (mem_of_mem_lossy (by decide) h)
  intro h
  rcases hcase with rfl | rfl
  · have htail : fromUtf8Lossy (l ++ [10]) = fromUtf8Lossy l ++ ['\n'] :=
      lossy_append_ascii (by decide) l []
    rw [← hread, htail, trimLineEnd, List.rdropWhile_concat_pos _ _ _ (by decide)] at h
    exact hnone ((List.rdropWhile_prefix _ _).subset h)
  · rw [← hread, trimLineEnd] at h
    exact hnone ((List.rdropWhile_prefix _ _).subset h)

theorem mem_getTo {c : Char} : ∀ {n : Nat} {s a : Str}, getTo n s = some a → c ∈ a → c ∈ s
  | 0, s, a, h, hc => by
      cases s <;> cases h <;> cases hc
  | n + 1, [], a, h, hc => by cases h
  | n + 1, d :: s, a, h, hc => by
      rw [getTo] at h
      split at h
      · obtain ⟨a', ha', rfl⟩ := Option.map_eq_some_iff.mp h
        rcases List.mem_cons.mp hc with rfl | hc
        · exact List.mem_cons_self
        · exact List.mem_cons_of_mem d (mem_getTo ha' hc)
      · cases h

/-- An address is made of characters of the argument. -/
theorem mem_parseAddressArgument {c : Char} {rest keyword address : Str}
    (h : parseAddressArgument rest keyword = some address) (hc : c ∈ address) : c ∈ rest := by
  unfold parseAddressArgument at h
  split at h
  · cases h
  · split at h
    · cases h
    · next candidate value hsplit =>
        have hvalue : ∀ d, d ∈ trim value → d ∈ rest := by
          intro d hd
          refine mem_trim ?_
          rw [(splitOnce_eq_some.mp hsplit).1]
          exact List.mem_append_right _ (List.mem_cons_of_mem _ (mem_trim hd))
        split at h
        · dsimp only at h
          obtain ⟨found, hfound, rfl⟩ := Option.map_eq_some_iff.mp h
          refine hvalue c ?_
          have hc' := mem_trim hc
          split at hfound
          · split at hfound
            · next inner heq =>
                rw [heq]
                exact List.mem_cons_of_mem _ (mem_getTo hfound hc')
            · cases hfound
          · cases hfound
            have htake := (List.takeWhile_prefix (l := trimStart (trim value))
              (fun c => !Unicode.isWhitespace c)).subset hc'
            exact (List.dropWhile_suffix Unicode.isWhitespace).subset htake
        · cases h

theorem mem_splitCommand {c : Char} {command : Str} (h : c ∈ (splitCommand command).2) :
    c ∈ command := by
  unfold splitCommand at h
  split at h
  · next verb rest hsplit =>
      rw [(splitOnce_eq_some.mp hsplit).1]
      exact List.mem_append_right _ (List.mem_cons_of_mem _ (mem_trim h))
  · cases h

/-- The addresses of the envelope have no LF. -/
def SessionState.OneLine (s : SessionState) : Prop :=
  '\n' ∉ s.envelope.mailFrom ∧ ∀ recipient ∈ s.envelope.rcptTo, '\n' ∉ recipient

section
variable {σ : Type} {handler : MailHandler σ} {config : SessionConfig} {broken : Bool}
    {room : Nat}
  {s s' : SessionState} {text : Str} {lines lines' : List Bytes} {h : σ} {step : Step σ}

theorem Final.append {reply : Str} (h : Final reply) (more : Str) : Final (reply ++ more) := by
  obtain ⟨hlength, hdigits, hblank⟩ := h
  have hle : 3 ≤ reply.length := by
    rw [List.length_take] at hlength
    omega
  obtain ⟨hlt, -⟩ := List.getElem?_eq_some_iff.mp hblank
  unfold Final
  rw [List.take_append_of_le_length hle, List.getElem?_append_left hlt]
  exact ⟨hlength, hdigits, hblank⟩

/-- The answers to commands that change nothing are complete lines. -/
theorem idleReplies_spec {verb : Verb} {reply : Str} (h : reply ∈ idleReplies verb) :
    Final reply ∧ reply ≠ startData ∧ '\n' ∉ reply := by
  have hall : ∀ verb, ∀ reply ∈ idleReplies verb, Final reply ∧ reply ≠ startData ∧
      '\n' ∉ reply := by
    intro verb
    cases verb <;> decide
  exact hall verb reply h

theorem readData_reply {maxMessageSize : Nat} {reply : Str} {rest : List Bytes}
    (h : readData broken maxMessageSize lines = .ok (.error reply, rest)) :
    reply = tooLargeReply ∨ reply = closedReply := by
  rcases readData_cases broken maxMessageSize lines with
    ⟨before, last, after, rfl, -, hread⟩ | ⟨-, hread⟩
  · rw [hread after, verdict] at h
    split at h
    · cases h
      exact Or.inl rfl
    · cases h
  · rw [hread] at h
    cases broken <;> cases h
    exact Or.inr rfl

theorem final_dataReply (result : Except Str Unit) :
    Final (dataReply result) ∧ dataReply result ≠ startData := by
  cases result with
  | ok value =>
      cases value
      exact ⟨by decide, by decide⟩
  | error reason =>
      have hfinal : Final "451 4.3.0 ".toList := by decide
      exact ⟨hfinal.append reason, fun h0 => nomatch h0⟩

/-- The session goes on or ends after a complete answer, unless the stream fails. -/
theorem Handled.complete (ha : Handled handler config broken room s text lines h step) :
    (∃ s' lines', step.next = .more s' lines' ∧ step.exchange.verb ≠ .quit ∧
        Complete step.exchange.verb step.exchange.replies ∧
        ReadsOn broken step.exchange.replies lines lines') ∨
      (step.next = .stop (.ok ()) ∧ step.exchange.verb = .quit ∧
        Complete step.exchange.verb step.exchange.replies) ∨
      step.next = .stop (.error .broken) ∧ step.exchange.verb = .data ∧
      step.exchange.replies = [startData] ∧
        (room = 0 ∨ broken = true ∧ Unended broken lines) := by
  have hverb : step.exchange.verb = (splitCommand text).1 := by
    cases ha <;> rfl
  rw [hverb]
  -- a single line, after which the session goes on
  have single : ∀ {reply : Str} {s' : SessionState}, step.next = .more s' lines →
      step.exchange.replies = [reply] → (splitCommand text).1 ≠ .quit → Final reply →
      reply ≠ startData →
      ∃ s' lines', step.next = .more s' lines' ∧ (splitCommand text).1 ≠ .quit ∧
        Complete (splitCommand text).1 step.exchange.replies ∧
        ReadsOn broken step.exchange.replies lines lines' := by
    intro reply s' hnext hreplies hquit hfinal hne
    refine ⟨s', lines, hnext, hquit, ?_, ?_⟩
    · rw [hreplies]
      exact .single _ reply hfinal hne
    · rw [hreplies]
      exact Or.inr ⟨fun h0 => hne (Option.some.inj h0), rfl⟩
  -- a second line after the payload
  have twice : ∀ {reply : Str} {s' : SessionState} {rest : List Bytes},
      step.next = .more s' rest →
      step.exchange.replies = [startData, reply] → (splitCommand text).1 = .data →
      PayloadEnds broken lines rest →
      Final reply → reply ≠ startData →
      ∃ s' lines', step.next = .more s' lines' ∧ (splitCommand text).1 ≠ .quit ∧
        Complete (splitCommand text).1 step.exchange.replies ∧
        ReadsOn broken step.exchange.replies lines lines' := by
    intro reply s' rest hnext hreplies hdata hends hfinal hne
    refine ⟨s', rest, hnext, by rw [hdata]; decide, ?_, ?_⟩
    · rw [hreplies, hdata]
      exact .data reply hfinal hne
    · rw [hreplies]
      exact Or.inl ⟨rfl, hends⟩
  cases ha with
  | ehlo h0 =>
      refine Or.inl ⟨_, lines, rfl, by rw [h0]; decide, ?_,
        Or.inr ⟨(fun h1 => nomatch h1), rfl⟩⟩
      rw [h0]
      refine .ehlo ((ehloReplies config).take 3) "250 SMTPUTF8".toList
        (fun line hline => ?_) (by decide)
      simp only [ehloReplies, List.take_succ_cons, List.take_zero, List.mem_cons,
        List.not_mem_nil, or_false] at hline
      rcases hline with rfl | rfl | rfl
      · rw [List.append_assoc]
        exact List.prefix_append _ _
      · exact ⟨"SIZE ".toList ++ Nat.toDigits 10 config.maxMessageSize, rfl⟩
      · exact ⟨"8BITMIME".toList, by decide⟩
  | helo h0 =>
      have hfinal : Final "250 ".toList := by decide
      exact Or.inl (single rfl rfl (by rw [h0]; decide) (hfinal.append _) fun h1 => nomatch h1)
  | rset h0 => exact Or.inl (single rfl rfl (by rw [h0]; decide) (by decide) (by decide))
  | mail address h0 =>
      exact Or.inl (single rfl rfl (by rw [h0]; decide) (by decide) (by decide))
  | idle reply hreply =>
      obtain ⟨hfinal, hne, -⟩ := idleReplies_spec hreply
      refine Or.inl (single rfl rfl (fun h0 => ?_) hfinal hne)
      rw [h0] at hreply
      cases hreply
  | accept address h' h0 =>
      exact Or.inl (single rfl rfl (by rw [h0]; decide) (by decide) (by decide))
  | reject address reason h' h0 =>
      have hfinal : Final "550 5.1.1 ".toList := by decide
      exact Or.inl (single rfl rfl (by rw [h0]; decide) (hfinal.append reason)
        fun h1 => nomatch h1)
  | full h0 hroom => exact Or.inr (Or.inr ⟨rfl, h0, rfl, Or.inl hroom⟩)
  | lost e h0 hread =>
      obtain ⟨rfl, hbroken, hnone⟩ := readData_error hread
      exact Or.inr (Or.inr ⟨rfl, h0, rfl, Or.inr ⟨hbroken, hnone⟩⟩)
  | refused reply rest h0 hread =>
      have hreply : Final reply ∧ reply ≠ startData := by
        rcases readData_reply hread with rfl | rfl
        · exact ⟨by decide, by decide⟩
        · exact ⟨by decide, by decide⟩
      exact Or.inl (twice rfl rfl h0 (payloadEnds_readData hread) hreply.1 hreply.2)
  | handed data rest result h' h0 hread =>
      obtain ⟨hfinal, hne⟩ := final_dataReply result
      exact Or.inl (twice rfl rfl h0 (payloadEnds_readData hread) hfinal hne)
  | quit h0 =>
      refine Or.inr (Or.inl ⟨rfl, h0, ?_⟩)
      exact .single _ _ (by decide) (by decide)

/-- The addresses that come into the envelope are made of command lines. -/
theorem Handled.oneLine (ha : Handled handler config broken room s text lines h step)
    (hnext : step.next = .more s' lines') (htext : '\n' ∉ text) (hs : s.OneLine) :
    s'.OneLine := by
  have argument : ∀ {keyword address : Str},
      parseAddressArgument (splitCommand text).2 keyword = some address → '\n' ∉ address :=
    fun haddress h0 => htext (mem_splitCommand (mem_parseAddressArgument haddress h0))
  cases ha with
  | ehlo | helo | rset | refused | handed =>
      cases hnext
      exact ⟨List.not_mem_nil, fun _ h0 => nomatch h0⟩
  | mail address _ _ haddress =>
      cases hnext
      exact ⟨argument haddress, fun _ h0 => nomatch h0⟩
  | idle | reject =>
      cases hnext
      exact hs
  | accept address h' _ haddress =>
      cases hnext
      refine ⟨hs.1, fun recipient hmem => ?_⟩
      rcases List.mem_append.mp hmem with hmem | hmem
      · exact hs.2 recipient hmem
      · cases List.mem_singleton.mp hmem
        exact argument haddress
  | full | lost | quit => cases hnext

/-- The session adds no LF to its replies. -/
theorem Handled.lined (ha : Handled handler config broken room s text lines h step)
    (htext : '\n' ∉ text) (hs : s.OneLine) : step.exchange.Lined config.hostname := by
  have argument : ∀ {keyword address : Str},
      parseAddressArgument (splitCommand text).2 keyword = some address → '\n' ∉ address :=
    fun haddress h0 => htext (mem_splitCommand (mem_parseAddressArgument haddress h0))
  have fixed : ∀ {replies : List Str}, step.exchange.replies = replies →
      (∀ reply ∈ replies, '\n' ∉ reply) →
      step.exchange.Lined config.hostname := by
    intro replies hreplies hall reply hmem h0
    rw [hreplies] at hmem
    exact absurd h0 (hall reply hmem)
  have single : ∀ {reply : Str}, step.exchange.replies = [reply] → '\n' ∉ reply →
      step.exchange.Lined config.hostname :=
    fun hreplies hnone => fixed hreplies (List.forall_mem_singleton.mpr hnone)
  cases ha with
  | ehlo =>
      intro reply hmem h0
      have hdigits : '\n' ∉ Nat.toDigits 10 config.maxMessageSize := fun h1 =>
        absurd (Nat.isDigit_of_mem_toDigits (by decide) (by decide) h1) (by decide)
      simp only [say, ehloReplies, List.mem_cons, List.not_mem_nil, or_false] at hmem
      rcases hmem with rfl | rfl | rfl | rfl
      · rcases List.mem_append.mp h0 with h0 | h0
        · exact Or.inl ((List.mem_append.mp h0).resolve_left (by decide))
        · exact absurd h0 (by decide)
      · exact absurd h0 (List.not_mem_append (by decide) hdigits)
      · exact absurd h0 (by decide)
      · exact absurd h0 (by decide)
  | helo =>
      intro reply hmem h0
      cases List.mem_singleton.mp hmem
      exact Or.inl ((List.mem_append.mp h0).resolve_left (by decide))
  | idle reply hreply => exact single rfl (idleReplies_spec hreply).2.2
  | reject address reason h' _ haddress =>
      intro reply hmem h0
      cases List.mem_singleton.mp hmem
      refine Or.inr
        (Or.inl ⟨s.envelope.mailFrom, address, reason, rfl, ?_, hs.1, argument haddress⟩)
      exact (List.mem_append.mp h0).resolve_left (by decide)
  | refused reply rest _ hread =>
      have hreply : '\n' ∉ reply := by
        rcases readData_reply hread with rfl | rfl
        · decide
        · decide
      exact fixed rfl
        (List.forall_mem_cons.mpr ⟨by decide, List.forall_mem_singleton.mpr hreply⟩)
  | handed data rest result h' =>
      intro reply hmem h0
      rcases List.mem_cons.mp hmem with rfl | hmem
      · exact absurd h0 (by decide)
      · cases List.mem_singleton.mp hmem
        cases result with
        | ok value =>
            cases value
            exact absurd h0 (by decide)
        | error reason =>
            refine Or.inr (Or.inr ⟨_, reason, rfl, ?_, hs⟩)
            exact (List.mem_append.mp h0).resolve_left (by decide)
  | rset | mail | accept | full | lost | quit => exact single rfl (by decide)

/-- The calls of the handler are those that an exchange records. -/
def Exchange.Asked (handler : MailHandler σ) (x : Exchange) : Prop :=
  (∀ mailFrom recipient verdict, x.verified = some (mailFrom, recipient, verdict) →
    ∃ h h', handler.verifyRecipient mailFrom recipient h = (verdict, h')) ∧
  ∀ envelope result, x.handled = some (envelope, result) →
  ∃ h h', handler.handle envelope h = (result, h')

theorem Handled.asked (ha : Handled handler config broken room s text lines h step) (n : Nat) :
    (step.exchange.cut n).Asked handler := by
  cases ha with
  | accept address h' _ _ hverify | reject address reason h' _ _ hverify =>
      refine ⟨fun mailFrom recipient verdict hv => ?_, fun _ _ hh => nomatch hh⟩
      cases hv
      exact ⟨h, h', hverify⟩
  | handed data rest result h' _ _ hhandle =>
      refine ⟨fun _ _ _ hv => (nomatch hv), fun envelope result hh => ?_⟩
      cases hh
      exact ⟨h, h', hhandle⟩
  | _ => exact ⟨fun _ _ _ hv => (nomatch hv), fun _ _ hh => nomatch hh⟩

theorem Exchange.Lined.cut {hostname : Str} {x : Exchange} (hx : x.Lined hostname) (n : Nat) :
    (x.cut n).Lined hostname :=
  fun reply hmem h0 => hx reply (List.mem_of_mem_take hmem) h0

/-! ## Sessions in step -/

theorem Exchange.Of.cut {hostname : Str} {line : Bytes} {x : Exchange}
    (hx : x.Of hostname line lines) (n : Nat) : (x.cut n).Of hostname line lines :=
  ⟨hx.ahead, hx.command, hx.lined.cut n⟩

theorem of_command {input line : Bytes} (htext : readLine broken line = .ok text)
    (hmem : line ∈ splitInclusive 10 input) (hs : s.OneLine)
    (hdef : step = command handler config broken room s (trimLineEnd text) lines h) :
    step.exchange.Of config.hostname line lines := by
  have ha := command_handled hdef
  obtain ⟨hcommand, hahead⟩ := command_exchange handler config broken room s
    (trimLineEnd text) lines h
  rw [← hdef] at hcommand hahead
  have htext := ((readLine_eq_ok broken).mp htext).2
  refine ⟨hahead, fun text' htext' => ?_, ha.lined (not_mem_trimLineEnd hmem htext) hs⟩
  rw [htext] at htext'
  cases htext'
  exact hcommand

/-- An answer that the stream did not take in full. -/
theorem Handled.inStep_cut {line : Bytes}
    (ha : Handled handler config broken room s text lines h step)
    (hof : step.exchange.Of config.hostname line lines)
    (hcut : room < step.exchange.replies.length) :
    InStep config.hostname broken room (line :: lines) [step.exchange.cut room]
      (.error .broken) := by
  have hlength : (step.exchange.cut room).replies.length = room := by
    rw [Exchange.cut, List.length_take]
    omega
  have hrest : step.exchange.replies.drop room ≠ [] := by
    rw [Ne, List.drop_eq_nil_iff]
    omega
  have hwhole : (step.exchange.cut room).replies ++ step.exchange.replies.drop room
      = step.exchange.replies :=
    List.take_append_drop room step.exchange.replies
  rcases ha.complete with ⟨_, _, _, _, hcomplete, _⟩ | ⟨_, _, hcomplete⟩ | ⟨_,
    hverb, hreplies, _⟩
  · exact .cut _ (hof.cut room) hlength hrest (hwhole.symm ▸ hcomplete)
  · exact .cut _ (hof.cut room) hlength hrest (hwhole.symm ▸ hcomplete)
  · -- not even the line that lets `DATA` in
    refine .cut [startData, closedReply] (hof.cut room) hlength (List.cons_ne_nil _ _) ?_
    have hnil : (step.exchange.cut room).replies = [] := by
      rw [hreplies] at hcut
      rw [Exchange.cut, Nat.lt_one_iff.mp hcut]
      rfl
    have hverb' : (step.exchange.cut room).verb = .data := hverb
    rw [hnil, hverb']
    exact .data closedReply (by decide) (by decide)

/-- What is left of a session is in step, if every line that is read in
command position is text. -/
theorem rest_inStep {input : Bytes} : ∀ (n : Nat) (p : Position σ), p.lines.length = n →
    p.lines <:+ splitInclusive 10 input → p.state.OneLine →
    (∀ xs q line lines, Turns handler config broken p xs q → q.lines = line :: lines →
      torn 10 broken line = false → (fromUtf8 line).isSome = true) →
    InStep config.hostname broken p.room p.lines (p.rest handler config broken).trace
      (p.rest handler config broken).result := by
  intro n
  induction n using Nat.strong_induction_on with
  | _ n ih =>
      intro p hlength hsuffix hs htexts
      have hgo := goesOn_rest handler config broken p
      generalize p.rest handler config broken = o at hgo
      cases hgo with
      | ended room => exact .ended room
      | unread room s line lines h e hread =>
          cases htorn : torn 10 broken line with
          | true =>
              rw [readLine, htorn] at hread
              cases hread
              exact .unread room lines htorn
          | false =>
              obtain ⟨text, htext⟩ :=
                Option.isSome_iff_exists.mp (htexts [] _ line lines (.done _) rfl htorn)
              rw [(readLine_eq_ok broken).mpr ⟨htorn, htext⟩] at hread
              cases hread
      | cut room s line text lines h step htext hdef hcut =>
          have ha := command_handled hdef
          exact ha.inStep_cut
            (of_command htext (hsuffix.subset List.mem_cons_self) hs hdef) hcut
      | stopped room s line text lines h step result htext hdef hle hstop =>
          have ha := command_handled hdef
          have hof := of_command htext (hsuffix.subset List.mem_cons_self) hs hdef
          rcases ha.complete with ⟨_, _, hnext, _⟩ | ⟨hnext, hquit, hcomplete⟩ | ⟨hnext,
            hdata, hreplies, hwhy⟩
          · rw [hnext] at hstop
            cases hstop
          · rw [hnext] at hstop
            cases hstop
            exact .quit hof hquit hcomplete hle
          · rw [hnext] at hstop
            cases hstop
            rw [hreplies] at hle
            obtain ⟨hbroken, hnone⟩ := hwhy.resolve_left (Nat.ne_of_gt hle)
            exact .lost hof hdata hreplies hle hbroken hnone
      | turned room s s' line text lines lines' h step o htext hdef hle hnext hleft ho =>
          have ha := command_handled hdef
          have hmem : line ∈ splitInclusive 10 input := hsuffix.subset List.mem_cons_self
          have hof := of_command htext hmem hs hdef
          rcases ha.complete with ⟨_, _, hmore, hquit, hcomplete,
            hreads⟩ | ⟨hmore, _⟩ | ⟨hmore, _⟩
          · rw [hnext] at hmore
            cases hmore
            subst ho
            refine .next hof hquit hcomplete hle hreads ?_
            refine ih lines'.length ?_ ⟨_, s', lines', step.handler⟩ rfl ?_ ?_
              fun xs q line lines hturns =>
              htexts (step.exchange :: xs) q line lines (.turn htext hdef hle hnext hturns)
            · have hle' := hleft.length_le
              rw [← hlength, List.length_cons]
              omega
            · exact hleft.trans ((List.suffix_cons line lines).trans hsuffix)
            · exact ha.oneLine hnext
                (not_mem_trimLineEnd hmem ((readLine_eq_ok broken).mp htext).2) hs
          · rw [hnext] at hmore
            cases hmore
          · rw [hnext] at hmore
            cases hmore

end

/-- Every line that the session reads in command position is text; one within which the stream
fails is not read. -/
def CommandsAreText {σ : Type} (handler : MailHandler σ) (config : SessionConfig)
    (broken : Bool) (room : Nat) (input : Bytes) (h : σ) : Prop :=
  ∀ written, room = written + 1 → ∀ xs q line lines,
    Turns handler config broken ⟨written, .initial, splitInclusive 10 input, h⟩ xs q →
    q.lines = line :: lines → torn 10 broken line = false → (fromUtf8 line).isSome = true

/-! ## The reasons of the router -/

namespace AliasRouter

variable {router : AliasRouter}

theorem resolve_oneLine {mailFrom recipient reason : Str} {db : Db}
    (h : router.resolve mailFrom recipient db = .error reason) (hr : '\n' ∉ recipient) :
    '\n' ∉ reason := by
  unfold resolve at h
  split at h
  · cases h
    exact List.not_mem_append (List.not_mem_append (by decide) hr) (by decide)
  · next address hparse =>
      have haddress : '\n' ∉ address.toString := by
        intro hc
        rcases List.mem_append.mp hc with hc | hc
        · exact absurd (address.plain_of_mem_localPart hc) (by decide)
        · rcases List.mem_cons.mp hc with hc | hc
          · exact absurd hc (by decide)
          · exact absurd (EmailAddress.plain_of_mem_validDomain address.valid.2 hc).1
              (by decide)
      split at h
      · cases h
        decide
      · split at h
        · split at h
          · cases h
            decide
          · split at h
            · cases h
              decide
            · cases h
        · split at h
          · cases h
            exact List.not_mem_append (by decide) haddress
          · split at h
            · cases h
              decide
            · cases h

theorem route_oneLine {mailFrom recipient reason : Str} {h h' : Host}
    (hroute : exec perform (router.route mailFrom recipient) h = (.error reason, h'))
    (hr : '\n' ∉ recipient) :
    '\n' ∉ reason := by
  rcases route_cases router mailFrom recipient h
    with ⟨-, t, he⟩ | ⟨-, ⟨e, t, hresolve, he⟩ | ⟨r, t, -, he, -⟩⟩
  · rw [he] at hroute
    cases hroute
    decide
  · rw [he] at hroute
    cases hroute
    exact resolve_oneLine hresolve hr
  · rw [he] at hroute
    cases hroute

theorem handleRecipient_oneLine {envelope : Envelope} {recipient reason : Str} {h h' : Host}
    (hhandle : exec perform (router.handleRecipient envelope recipient) h
      = (.error reason, h'))
    (hr : '\n' ∉ recipient) : '\n' ∉ reason := by
  have queued : ∀ {x : App Unit} {t : Host},
      exec perform (mapErr (fun _ => notQueued) x) t = (.error reason, h') →
      '\n' ∉ reason := by
    intro x t hx
    rcases hrun : exec perform x t with ⟨e | a, t'⟩
    · rw [exec_mapErr_error perform hrun] at hx
      cases hx
      decide
    · rw [exec_mapErr_ok perform hrun] at hx
      cases hx
  unfold handleRecipient at hhandle
  rcases hroute : exec perform (router.route envelope.mailFrom recipient) h with ⟨e | r, t⟩
  · rw [exec_bind_of_error perform (exec_mapErr_error perform hroute)] at hhandle
    cases hhandle
    refine List.not_mem_append
      (List.not_mem_append (List.not_mem_append (by decide) hr) (by decide)) ?_
    exact route_oneLine hroute hr
  · rw [exec_bind_of_ok perform (exec_mapErr_ok perform hroute)] at hhandle
    cases r <;> exact queued hhandle

theorem handleAll_oneLine {envelope : Envelope} {reason : Str} {h' : Host} :
    ∀ {recipients : List Str} {h : Host}, (∀ recipient ∈ recipients, '\n' ∉ recipient) →
    exec perform (router.handleAll envelope recipients) h = (.error reason, h') → '\n' ∉ reason
  | [], h, _, hhandle => by cases hhandle
  | recipient :: recipients, h, hall, hhandle => by
      obtain ⟨hr, hrs⟩ := List.forall_mem_cons.mp hall
      unfold handleAll at hhandle
      rcases hfirst : exec perform (router.handleRecipient envelope recipient) h
        with ⟨e | a, t⟩
      · rw [exec_bind_of_error perform hfirst] at hhandle
        cases hhandle
        exact handleRecipient_oneLine hfirst hr
      · rw [exec_bind_of_ok perform hfirst] at hhandle
        exact handleAll_oneLine hrs hhandle

/-- Where the name of this host has no LF, no reply has one. -/
theorem replies_oneLine (router : AliasRouter) {config : SessionConfig} {broken : Bool}
    {room : Nat} {input : Bytes} {h : Host} (hhost : '\n' ∉ config.hostname) :
    ∀ x ∈ (handleSession router.mailHandler config broken room input h).trace,
    ∀ reply ∈ x.replies, '\n' ∉ reply := by
  cases room with
  | zero =>
      intro x hx
      cases hx
  | succ room =>
      rw [handleSession_succ]
      -- what is lined, and was asked of the router, has no LF
      have spared : ∀ x : Exchange, x.Lined config.hostname → x.Asked router.mailHandler →
          ∀ reply ∈ x.replies, '\n' ∉ reply := by
        intro x hlined hasked reply hreply hlf
        rcases hlined reply hreply hlf with hlf | ⟨m, r, reason, hv, hlf, -, hr⟩ | ⟨e,
          reason, hh, hlf, -, hrs⟩
        · exact hhost hlf
        · obtain ⟨h₁, h₂, hverify⟩ := hasked.1 m r _ hv
          have hrun : run perform (router.verifyRecipient m r) h₁ = (.reject reason, h₂) :=
            hverify
          rw [run_verifyRecipient] at hrun
          rcases hroute : exec perform (router.route m r) h₁ with ⟨e | route, t⟩
          · rw [hroute] at hrun
            cases hrun
            exact route_oneLine hroute hr hlf
          · rw [hroute] at hrun
            cases hrun
        · obtain ⟨h₁, h₂, hhandle⟩ := hasked.2 e _ hh
          exact handleAll_oneLine hrs hhandle hlf
      refine rest_forall (L := splitInclusive 10 input) (I := SessionState.OneLine) ?_ _ _ rfl
        List.suffix_rfl ⟨List.not_mem_nil, fun _ h0 => nomatch h0⟩
      intro room s line text lines h step hs hmem htext ha
      have hnone := not_mem_trimLineEnd hmem ((readLine_eq_ok broken).mp htext).2
      exact ⟨fun n => spared _ ((ha.lined hnone hs).cut n) (ha.asked n),
        fun s' lines' hnext => ha.oneLine hnext hnone hs⟩

end AliasRouter

/-! ## Command and reply -/

/-- Command and reply stay in step exactly if every line read in command position is text; and
with the router no reply has an LF that is not in the name of this host. -/
theorem session_inStep_iff {σ : Type} (handler : MailHandler σ) (router : AliasRouter)
    (config : SessionConfig) (broken : Bool) (room : Nat) (input : Bytes)
    (h : σ) (host : Host) :
    (SessionInStep config.hostname broken room input
      (handleSession handler config broken room input h) ↔
      CommandsAreText handler config broken room input h) ∧
    ('\n' ∉ config.hostname →
      ∀ x ∈ (handleSession router.mailHandler config broken room input host).trace,
      ∀ reply ∈ x.replies, '\n' ∉ reply) := by
  refine ⟨?_, fun hhost => router.replies_oneLine hhost⟩
  cases room with
  | zero => exact iff_of_true ⟨rfl, rfl⟩ fun _ h0 => absurd h0.symm (Nat.succ_ne_zero _)
  | succ room =>
      constructor
      · intro hstep written hwritten xs q line lines hturns hq htorn
        cases hwritten
        cases htext : fromUtf8 line with
        | some text => rfl
        | none =>
            -- there the session ends, in a way that none in step does
            have hend : (handleSession handler config broken (room + 1) input h).result
                = .error .invalidUtf8 := by
              rw [handleSession_succ, hturns.rest_eq, Position.rest, hq, sessionLoop,
                readLine, htorn, htext]
              rfl
            exact absurd hend hstep.result_ne
      · intro htexts
        have hinStep := rest_inStep _ ⟨room, .initial, splitInclusive 10 input, h⟩ rfl
          List.suffix_rfl ⟨List.not_mem_nil, fun _ h0 => absurd h0 List.not_mem_nil⟩
            (htexts room rfl)
        rw [← handleSession_succ] at hinStep
        exact hinStep

/-- Where the stream fails within the line, that ends the session. -/
example : (handleSession takeAll ⟨"mx", 1000⟩ true 20 (encode "NOOP ".toList ++ [0xFF])
    ()).result = .error .broken := by decide +kernel

/-- A byte that is no text, after a greeting: the session is gone, without a word. -/
theorem session_out_of_step :
    ¬ ∀ (handler : MailHandler Unit) (config : SessionConfig) (broken : Bool) (room : Nat)
    (input : Bytes),
      SessionInStep config.hostname broken room input
        (handleSession handler config broken room input ()) := by
  intro hall
  have hstep : InStep _ _ _ _ _ _ := hall takeAll ⟨"mx", 1000⟩ false 20
    (encode "EHLO c\r\nNOOP ".toList ++ 0xFF :: encode "\r\nQUIT\r\n".toList)
  exact hstep.result_ne (by decide +kernel)

end Weiterleitung
