/-
# `Smtp.Router` — what an accepted recipient means

`route` decides: a contact writing to an alias, or the mailbox replying through a reverse
alias.  `forward` and `reply` queue the rewritten message, `handle` does so for every
recipient of an envelope, one after the other.

On a store that answers, `route` is a function of the tables (`resolve`); a lookup that
fails replaces its result:

    route  =  resolve, or "Temporary lookup failure"       (`route_cases`)
    the reply to `RCPT` is permanent for permanent reasons
      ⟺  no lookup fails                                  (`rcpt_permanent_iff`)
-/
import Mathlib
import Weiterleitung.Smtp.Rewrite
import Weiterleitung.Smtp.Session
import Weiterleitung.Delivery.Queue

namespace Weiterleitung

open Text Prog

/-! ## The source -/

/-- Decides what an accepted recipient means. -/
inductive Route where
  | forward (aliasId aliasAddress : Str)
  | reply (contactId aliasAddress contactEmail : Str)
  deriving DecidableEq

/-- The address of the alias that the mail goes through. -/
def Route.aliasAddress : Route → Str
  | forward _ aliasAddress => aliasAddress
  | reply _ aliasAddress _ => aliasAddress

/-- Prefers the envelope sender and falls back to the `From` header, which matters for mail
sent with the null sender (bounces, auto-replies). -/
def envelopeSender (mailFrom : Str) (fromHeader : Option Str) : Except Str EmailAddress :=
  match EmailAddress.parse mailFrom with
  | .ok address => .ok address
  | .error _ =>
      let header := fromHeader.getD []
      let candidate :=
        match find '<' header, find '>' header with
        | some start, some stop =>
            -- both are offsets of a character, so the slice is there
            if stop > start then (slice (start + 1) stop header).getD [] else header
        | _, _ => header
      EmailAddress.parse candidate

/-- Pulls the display name out of a `From` header value. -/
def displayName (fromHeader : Str) : Option Str :=
  match splitOnce '<' fromHeader with
  | none => none
  | some (name, _) =>
      let name := trim (trimEndMatches '"' (trimStartMatches '"' (trim name)))
      if name.isEmpty then none else some name

/-- Resolves recipients against the alias tables and queues the rewritten mail. -/
structure AliasRouter where
  aliases : AliasSettings
  mailDir : Str

def noLookup : Str := "Temporary lookup failure"

namespace AliasRouter

variable (router : AliasRouter)

def route (mailFrom recipient : Str) : App Route := do
  let address ← computed ((EmailAddress.parse recipient).mapError fun _ =>
    "`".toList ++ recipient ++ "` is not a valid address".toList)
  if !router.aliases.ownsDomain address.domain then throw "Relay access denied".toList
  else
    match ← mapErr (fun _ => noLookup) (findContactByReverseAlias address) with
    | some contact =>
        -- Only the mailbox behind the alias may send through a reverse alias.
        if !eqIgnoreAsciiCase contact.mailboxEmail (trim mailFrom) then
          throw "Reverse aliases only accept mail from their mailbox".toList
        else if !contact.aliasEnabled then throw "Alias is disabled".toList
        else
          return .reply contact.toContact.contactId contact.aliasAddress contact.toContact.email
    | none =>
        match ← mapErr (fun _ => noLookup) (findAliasByAddress address) with
        | none => throw ("No such alias: ".toList ++ address.toString)
        | some found =>
            if !found.toAlias.enabled then do
              let _ ← ExceptT.lift (recordAliasActivity found.toAlias.aliasId .blocked).run
              throw "Alias is disabled".toList
            else return .forward found.toAlias.aliasId found.toAlias.address

/-- `forward` up to its last statement. -/
def queueForward (aliasId aliasAddress : Str) (envelope : Envelope) : App Unit := do
  let address ← computed (EmailAddress.parse aliasAddress)
  match ← findAliasByAddress address with
  | none =>
      throw ("Alias `".toList ++ aliasAddress ++ "` vanished between RCPT and DATA".toList)
  | some aliasWithMailbox => do
      let headers := (splitHeadersBody envelope.data).1
      let fromHeader := headerValue headers "from"
      let senderEmail ← computed (envelopeSender envelope.mailFrom fromHeader)
      let senderName := fromHeader.bind displayName
      let contact ← getOrCreateContact aliasId senderEmail senderName
        router.aliases.reverseAliasPrefix router.aliases.defaultDomain
      let rewritten := rewriteForForward envelope.data
        { aliasAddress := aliasAddress, reverseAlias := contact.reverseAlias,
          senderName := senderName, senderEmail := senderEmail.toString }
      let _ ← enqueue router.mailDir
        { direction := .forward, envelopeFrom := contact.reverseAlias,
          envelopeTo := aliasWithMailbox.mailboxEmail, raw :=
            rewritten, aliasId := some aliasId,
          contactId := some contact.contactId, subject := headerValue headers "subject" }
      return ()

def forward (aliasId aliasAddress : Str) (envelope : Envelope) : App Unit := do
  router.queueForward aliasId aliasAddress envelope
  recordAliasActivity aliasId .forwarded

/-- `reply` up to its last statement; returns `alias_id`. -/
def queueReply (contactId aliasAddress contactEmail : Str) (envelope : Envelope) :
    App (Option Str) := do
  let headers := (splitHeadersBody envelope.data).1
  let rewritten := rewriteForReply envelope.data
    { aliasAddress := aliasAddress, contactEmail := contactEmail }
  let address ← computed (EmailAddress.parse aliasAddress)
  let found ← findAliasByAddress address
  let aliasId := found.map (·.toAlias.aliasId)
  let _ ← enqueue router.mailDir
    { direction := .reply, envelopeFrom := aliasAddress, envelopeTo := contactEmail,
      raw := rewritten, aliasId := aliasId, contactId := some contactId,
      subject := headerValue headers "subject" }
  return aliasId

def reply (contactId aliasAddress contactEmail : Str) (envelope : Envelope) : App Unit := do
  match ← router.queueReply contactId aliasAddress contactEmail envelope with
  | some aliasId => recordAliasActivity aliasId .replied
  | none => return ()

def verifyRecipient (mailFrom recipient : Str) : Prog Op Res RecipientDecision := do
  match ← (router.route mailFrom recipient).run with
  | .ok _ => return .accept
  | .error reason => return .reject reason

def notRoutable (recipient reason : Str) : Str :=
  "Recipient `".toList ++ recipient ++ "` is no longer routable: ".toList ++ reason

def notQueued : Str := "Failed to queue the message"

/-- The body of the loop of `handle`. -/
def handleRecipient (envelope : Envelope) (recipient : Str) : App Unit := do
  match ← mapErr (notRoutable recipient) (router.route envelope.mailFrom recipient) with
  | .forward aliasId aliasAddress =>
      mapErr (fun _ => notQueued) (router.forward aliasId aliasAddress envelope)
  | .reply contactId aliasAddress contactEmail =>
      mapErr (fun _ => notQueued) (router.reply contactId aliasAddress contactEmail envelope)

/-- The loop of `handle`. -/
def handleAll (envelope : Envelope) : List Str → App Unit
  | [] => return ()
  | recipient :: recipients => do
      router.handleRecipient envelope recipient
      handleAll envelope recipients

def handle (envelope : Envelope) : App Unit := router.handleAll envelope envelope.rcptTo

/-- The router as what a session hands mail to. -/
def mailHandler : MailHandler Host where
  verifyRecipient mailFrom recipient h :=
    run perform (router.verifyRecipient mailFrom recipient) h
  handle envelope h := exec perform (router.handle envelope) h

/-! ## What a recipient means -/

/-- The result of `route` on tables that answer. -/
def resolve (mailFrom recipient : Str) (db : Db) : Except Str Route :=
  match EmailAddress.parse recipient with
  | .error _ => .error ("`".toList ++ recipient ++ "` is not a valid address".toList)
  | .ok address =>
      if !router.aliases.ownsDomain address.domain then .error "Relay access denied".toList
      else
        match db.findContactByReverseAlias address.normalised with
        | some contact =>
            if !eqIgnoreAsciiCase contact.mailboxEmail (trim mailFrom) then
              .error "Reverse aliases only accept mail from their mailbox".toList
            else if !contact.aliasEnabled then .error "Alias is disabled".toList
            else .ok
              (.reply contact.toContact.contactId contact.aliasAddress contact.toContact.email)
        | none =>
            match db.findAliasByAddress address.normalised with
            | none => .error ("No such alias: ".toList ++ address.toString)
            | some found =>
                if !found.toAlias.enabled then .error "Alias is disabled".toList
                else .ok (.forward found.toAlias.aliasId found.toAlias.address)

section
variable {router} {mailFrom recipient : Str} {db : Db}

/-- A forward is to an enabled alias, and no contact has the address for its reverse alias. -/
theorem resolve_forward {aliasId aliasAddress : Str}
    (h : router.resolve mailFrom recipient db = .ok (.forward aliasId aliasAddress)) :
    ∃ address found, EmailAddress.parse recipient = .ok address ∧
      router.aliases.ownsDomain address.domain = true ∧
      db.findContactByReverseAlias address.normalised = none ∧
      db.findAliasByAddress address.normalised = some found ∧ found.toAlias.enabled = true ∧
      aliasId = found.toAlias.aliasId ∧ aliasAddress = found.toAlias.address := by
  unfold resolve at h
  split at h
  · cases h
  · next address hparse =>
      split at h
      · cases h
      · next hown =>
          split at h
          · split at h
            · cases h
            · split at h <;> cases h
          · next hcontact =>
              split at h
              · cases h
              · next found hfound =>
                  split at h
                  · cases h
                  · next henabled =>
                      cases h
                      exact ⟨address, found, hparse, by simpa using hown, hcontact, hfound,
                        by simpa using henabled, rfl, rfl⟩

theorem resolve_of_alias {address : EmailAddress} {found : AliasWithMailbox}
    (hparse : EmailAddress.parse recipient = .ok address)
    (hown : router.aliases.ownsDomain address.domain = true)
    (hcontact : db.findContactByReverseAlias address.normalised = none)
    (hfound : db.findAliasByAddress address.normalised = some found)
    (henabled : found.toAlias.enabled = true) :
    router.resolve mailFrom recipient db
      = .ok (.forward found.toAlias.aliasId found.toAlias.address) := by
  unfold resolve
  simp only [hparse, hown, hcontact, hfound, henabled, Bool.not_true,
    Bool.false_eq_true, if_false]

theorem resolve_of_contact {address : EmailAddress} {found : ContactWithAlias}
    (hparse : EmailAddress.parse recipient = .ok address)
    (hown : router.aliases.ownsDomain address.domain = true)
    (hfound : db.findContactByReverseAlias address.normalised = some found)
    (hauth : eqIgnoreAsciiCase found.mailboxEmail (trim mailFrom) = true)
    (henabled : found.aliasEnabled = true) :
    router.resolve mailFrom recipient db
      = .ok (.reply found.toContact.contactId found.aliasAddress found.toContact.email) := by
  unfold resolve
  simp only [hparse, hown, hfound, hauth, henabled, Bool.not_true,
    Bool.false_eq_true, if_false]

/-- A reply is from the mailbox of an enabled alias. -/
theorem resolve_reply {contactId aliasAddress contactEmail : Str}
    (h : router.resolve mailFrom recipient db
      = .ok (.reply contactId aliasAddress contactEmail)) :
    ∃ address found, EmailAddress.parse recipient = .ok address ∧
      router.aliases.ownsDomain address.domain = true ∧
      db.findContactByReverseAlias address.normalised = some found ∧
      eqIgnoreAsciiCase found.mailboxEmail (trim mailFrom) = true ∧ found.aliasEnabled = true ∧
      contactId = found.toContact.contactId ∧ aliasAddress = found.aliasAddress ∧
      contactEmail = found.toContact.email := by
  unfold resolve at h
  split at h
  · cases h
  · next address hparse =>
      split at h
      · cases h
      · next hown =>
          split at h
          · next found hfound =>
              split at h
              · cases h
              · next hauth =>
                  split at h
                  · cases h
                  · next henabled =>
                      cases h
                      exact ⟨address, found, hparse, by simpa using hown,
                        hfound, by simpa using hauth, by simpa using henabled, rfl, rfl, rfl⟩
          · split at h
            · cases h
            · split at h <;> cases h

end

/-- Does a lookup that `route` makes for this recipient fail?  It makes none for an address
that is not valid or not ours, and the second one only if there is no such contact. -/
def LookupFails (recipient : Str) (h : Host) : Prop :=
  ∃ address, EmailAddress.parse recipient = .ok address ∧
    router.aliases.ownsDomain address.domain = true ∧
    (h.chance.fails = true ∨
      h.world.db.findContactByReverseAlias address.normalised = none ∧
      h.skip.chance.fails = true)

section
variable {router}

/-- A lookup of `route` fails, or returns what the tables hold. -/
theorem lookup_cases {α : Type} {x : App α} {a : α} {h : Host}
    (hx : exec perform x h = (h.chance.give a, h.skip)) :
    (h.chance.fails = true ∧ exec perform (mapErr (fun _ => noLookup) x) h =
      (.error noLookup, h.skip)) ∨
    (h.chance.fails = false ∧ exec perform (mapErr (fun _ => noLookup) x) h
      = (.ok a, h.skip)) := by
  rcases give_cases hx with ⟨hf, he⟩ | ⟨hf, he⟩
  · exact Or.inl ⟨hf, exec_mapErr_error perform he⟩
  · exact Or.inr ⟨hf, exec_mapErr_ok perform he⟩

theorem lookupFails_iff {recipient : Str} {address : EmailAddress} {h : Host}
    (hparse : EmailAddress.parse recipient = .ok address)
    (hown : router.aliases.ownsDomain address.domain = true) :
    router.LookupFails recipient h ↔ h.chance.fails = true ∨
      h.world.db.findContactByReverseAlias address.normalised = none ∧
      h.skip.chance.fails = true := by
  constructor
  · rintro ⟨address', hparse', -, hf⟩
    rw [hparse] at hparse'
    cases hparse'
    exact hf
  · exact fun hf => ⟨address, hparse, hown, hf⟩

end

/-- `route` fails with a lookup, or does what `resolve` says; a recipient that
is taken changes nothing. -/
theorem route_cases (mailFrom recipient : Str) (h : Host) :
    (router.LookupFails recipient h ∧
      ∃ h', exec perform (router.route mailFrom recipient) h = (.error noLookup, h')) ∨
    (¬ router.LookupFails recipient h ∧
      ((∃ e h', router.resolve mailFrom recipient h.world.db = .error e ∧
          exec perform (router.route mailFrom recipient) h = (.error e, h')) ∨
        ∃ r h', router.resolve mailFrom recipient h.world.db = .ok r ∧
          exec perform (router.route mailFrom recipient) h = (.ok r, h') ∧
          h'.world = h.world)) := by
  unfold route resolve
  cases hparse : EmailAddress.parse recipient with
  | error e =>
      refine Or.inr ⟨?_, Or.inl ⟨_, h, rfl, rfl⟩⟩
      rintro ⟨_, h0, -⟩
      rw [hparse] at h0
      cases h0
  | ok address =>
      simp only [Except.mapError]
      rw [exec_bind_of_ok perform (exec_computed perform _ h)]
      cases hown : router.aliases.ownsDomain address.domain with
      | false =>
          refine Or.inr ⟨?_, Or.inl ⟨_, h, rfl, rfl⟩⟩
          rintro ⟨address', hparse', hown', -⟩
          rw [hparse] at hparse'
          cases hparse'
          rw [hown] at hown'
          cases hown'
      | true =>
          rw [lookupFails_iff hparse hown]
          simp only [Bool.not_true, Bool.false_eq_true, if_false]
          rcases lookup_cases (exec_findContactByReverseAlias address h)
            with ⟨hf, hx⟩ | ⟨hf, hx⟩
          · rw [exec_bind_of_error perform hx]
            exact Or.inl ⟨Or.inl hf, h.skip, rfl⟩
          · rw [exec_bind_of_ok perform hx]
            cases hcontact : h.world.db.findContactByReverseAlias address.normalised with
            | some contact =>
                refine Or.inr ⟨by simp [hf], ?_⟩
                dsimp only
                cases eqIgnoreAsciiCase contact.mailboxEmail (trim mailFrom) with
                | false => exact Or.inl ⟨_, h.skip, rfl, rfl⟩
                | true =>
                    cases contact.aliasEnabled with
                    | false => exact Or.inl ⟨_, h.skip, rfl, rfl⟩
                    | true => exact Or.inr ⟨_, h.skip, rfl, rfl, rfl⟩
            | none =>
                rcases lookup_cases (exec_findAliasByAddress address h.skip)
                  with ⟨hf', hx'⟩ | ⟨hf', hx'⟩
                · dsimp only
                  rw [exec_bind_of_error perform hx']
                  exact Or.inl ⟨Or.inr ⟨rfl, hf'⟩, h.skip.skip, rfl⟩
                · dsimp only
                  rw [exec_bind_of_ok perform hx', Host.skip_world]
                  refine Or.inr ⟨by simp [hf, hf'], ?_⟩
                  cases h.world.db.findAliasByAddress address.normalised with
                  | none => exact Or.inl ⟨_, h.skip.skip, rfl, rfl⟩
                  | some found =>
                      dsimp only
                      cases found.toAlias.enabled with
                      | false =>
                          refine Or.inl ⟨_, (run perform
                            (recordAliasActivity found.toAlias.aliasId .blocked).run
                              h.skip.skip).2, rfl, ?_⟩
                          exact exec_bind_of_ok perform (exec_lift perform _ _)
                      | true => exact Or.inr ⟨_, h.skip.skip, rfl, rfl, rfl⟩

/-- A recipient is accepted if `route` returns anything. -/
theorem run_verifyRecipient (mailFrom recipient : Str) (h : Host) :
    run perform (router.verifyRecipient mailFrom recipient) h =
      match exec perform (router.route mailFrom recipient) h with
      | (.ok _, h') => (.accept, h')
      | (.error reason, h') => (.reject reason, h') := by
  unfold verifyRecipient
  have hroute : run perform (router.route mailFrom recipient).run h
      = exec perform (router.route mailFrom recipient) h := rfl
  rw [run_bind, hroute]
  rcases exec perform (router.route mailFrom recipient) h with ⟨e | r, h'⟩ <;> rfl

/-! ## The reply to `RCPT` -/

/-- Is one of the replies of this class, `4` for temporary and `5` for permanent? -/
def HasClass (digit : Char) (replies : List Str) :
    Prop := ∃ reply ∈ replies, reply.head? = some digit

/-- The replies to a `RCPT` that the session lets through. -/
theorem rcpt_replies {config : SessionConfig} {broken : Bool} {room : Nat} {s : SessionState}
    {line recipient : Str} {lines : List Bytes} {h : Host}
    (hverb : (splitCommand line).1 = .rcpt)
    (haddress : parseAddressArgument (splitCommand line).2 "TO" = some recipient)
    (hopen : s.haveSender = true) (hroom : s.envelope.rcptTo.length < maxRecipients) :
    (command router.mailHandler config broken room s line lines h).exchange.replies =
      match (exec perform (router.route s.envelope.mailFrom recipient) h).1 with
      | .ok _ => ["250 2.1.5 Recipient ok".toList]
      | .error reason => ["550 5.1.1 ".toList ++ reason] := by
  unfold command
  dsimp only
  rw [hverb]
  dsimp only
  rw [if_pos hopen, if_neg (Nat.not_le.mpr hroom), haddress]
  dsimp only
  have hverify : router.mailHandler.verifyRecipient s.envelope.mailFrom recipient h
      = run perform (router.verifyRecipient s.envelope.mailFrom recipient) h := rfl
  rw [hverify, run_verifyRecipient]
  rcases exec perform (router.route s.envelope.mailFrom recipient) h with ⟨e | r, h'⟩ <;> rfl

/-- For a `RCPT` in an open transaction: a permanent reply has a permanent reason and a
failed lookup gets a temporary one, if and only if no lookup fails. -/
theorem rcpt_permanent_iff (config : SessionConfig) (broken : Bool) (room : Nat)
    (s : SessionState) (line recipient : Str) (lines : List Bytes) (h : Host)
    (hverb : (splitCommand line).1 = .rcpt)
    (haddress : parseAddressArgument (splitCommand line).2 "TO" = some recipient)
    (hopen : s.haveSender = true) (hroom : s.envelope.rcptTo.length < maxRecipients) :
    ((HasClass '5'
      (command router.mailHandler config broken room s line lines h).exchange.replies →
        ∃ reason, router.resolve s.envelope.mailFrom recipient h.world.db = .error reason) ∧
      (router.LookupFails recipient h →
        HasClass '4'
          (command router.mailHandler config broken room s line lines h).exchange.replies)) ↔
    ¬ router.LookupFails recipient h := by
  rw [rcpt_replies router hverb haddress hopen hroom]
  rcases route_cases router s.envelope.mailFrom recipient h with
    ⟨hf, h', he⟩ | ⟨hf, ⟨e, h', hr, he⟩ | ⟨r, h', hr, he, -⟩⟩
  · rw [he]
    refine iff_of_false (fun hall => ?_) (not_not.mpr hf)
    obtain ⟨reply, hreply, hclass⟩ := hall.2 hf
    rw [List.mem_singleton.mp hreply] at hclass
    exact absurd hclass (by decide)
  · exact iff_of_true ⟨fun _ => ⟨e, hr⟩, fun h0 => absurd h0 hf⟩ hf
  · rw [he]
    refine iff_of_true ⟨fun hclass => ?_, fun h0 => absurd h0 hf⟩ hf
    obtain ⟨reply, hreply, hclass⟩ := hclass
    rw [List.mem_singleton.mp hreply] at hclass
    exact absurd hclass (by decide)

/-! ### A store with one alias -/

/-- The domain `example.com`. -/
def sample : AliasRouter := ⟨⟨["example.com".toList], "ct".toList⟩, "mail".toList⟩

/-- A mailbox, and an alias that forwards to it. -/
def setUp (mailbox aliasAddress : Str) : App Alias := do
  let mailbox ← insertMailbox (← computed (EmailAddress.parse mailbox)) true
  insertAlias (← computed (EmailAddress.parse aliasAddress)) mailbox.mailboxId none

/-- The machine after setting up the alias `shop@example.com` of `me@personal.example`. -/
def sampleHost : Host :=
  (exec perform (setUp "me@personal.example" "shop@example.com")
    (Host.calm ⟨Db.empty, [], []⟩)).2

/-- The lookups fail for a while: the sender of mail to an alias in use is
told never to come back. -/
theorem rcpt_permanent_on_failed_lookup :
    ¬ ∀ (router : AliasRouter) (config : SessionConfig) (broken : Bool) (room : Nat)
    (s : SessionState) (line recipient : Str) (lines : List Bytes) (h : Host),
    (splitCommand line).1 = .rcpt →
      parseAddressArgument (splitCommand line).2 "TO" = some recipient →
      s.haveSender = true → s.envelope.rcptTo.length < maxRecipients →
      (HasClass '5'
        (command router.mailHandler config broken room s line lines h).exchange.replies →
        ∃ reason, router.resolve s.envelope.mailFrom recipient h.world.db = .error reason) ∧
      (router.LookupFails recipient h →
        HasClass '4'
          (command router.mailHandler config broken room s line
            lines h).exchange.replies) := by
  intro hall
  let s : SessionState := ⟨true, true, ⟨"a@shop.example", [], []⟩⟩
  let h : Host := { sampleHost with oracle := fun n => { Chance.calm n with fails := true } }
  have hreplies :
      (command sample.mailHandler ⟨"mx", 1000⟩ false 9 s "RCPT TO:<shop@example.com>" [] h
      ).exchange.replies = ["550 5.1.1 Temporary lookup failure".toList] := by decide +kernel
  obtain ⟨reason, hreason⟩ := (hall sample ⟨"mx", 1000⟩ false 9 s "RCPT TO:<shop@example.com>"
    "shop@example.com" [] h (by decide +kernel) (by decide +kernel) rfl (by decide)).1
    ⟨_, by rw [hreplies]; exact List.mem_singleton_self _, by decide⟩
  have hresolve : sample.resolve s.envelope.mailFrom "shop@example.com" h.world.db
      = .ok (.forward ['3'] "shop@example.com") := by decide +kernel
  rw [hresolve] at hreason
  cases hreason

theorem rcpt_permanent_iff_sample :
    ((HasClass '5' (command sample.mailHandler ⟨"mx", 1000⟩ false 9
          ⟨true, true, ⟨"a@shop.example", [], []⟩⟩ "RCPT TO:<no@example.com>" [] sampleHost
          ).exchange.replies →
        ∃ reason, sample.resolve "a@shop.example" "no@example.com" sampleHost.world.db =
          .error reason) ∧
      (sample.LookupFails "no@example.com" sampleHost →
        HasClass '4' (command sample.mailHandler ⟨"mx", 1000⟩ false 9
          ⟨true, true, ⟨"a@shop.example", [], []⟩⟩ "RCPT TO:<no@example.com>" [] sampleHost
          ).exchange.replies)) ↔
    ¬ sample.LookupFails "no@example.com" sampleHost :=
  rcpt_permanent_iff sample ⟨"mx", 1000⟩ false 9 ⟨true, true, ⟨"a@shop.example", [], []⟩⟩
    "RCPT TO:<no@example.com>" "no@example.com" [] sampleHost (by decide +kernel)
      (by decide +kernel)
    rfl (by decide)

end AliasRouter

end Weiterleitung
