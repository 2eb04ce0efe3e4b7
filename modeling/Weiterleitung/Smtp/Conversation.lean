/-
# `Smtp.Conversation` — a message, and the answer to it

A mailbox is entered and has an alias, somebody writes to the alias, and the mailbox answers
through the reverse alias: three calls with anything in between.  What the store keeps of
both parties is the normalised form of their addresses, and that is where mail goes:

    the message goes to the normalised form of the mailbox      (`Conversation.forwarded_to`)
    the answer goes from the alias to the normalised form of
      the sender                                                (`Conversation.replied_to`)
    mail goes where it was meant to, and different senders
      stay apart  ⟺  lower-casing leaves the local parts       (`conversation_keeps_iff`)
-/
import Mathlib
import Weiterleitung.Smtp.Agree

namespace Weiterleitung

open Text Unicode Prog

namespace AliasRouter

variable {router : AliasRouter}

/-! ## Rows by their recipients -/

/-- The rows that `handle` adds. -/
def queued (router : AliasRouter) (envelope : Envelope) (h : Host) : List OutboxRow :=
  (exec perform (router.handle envelope) h).2.world.db.outbox.drop h.world.db.outbox.length

/-- A row stands at the place of the recipient that justifies it. -/
theorem queued_justified {envelope : Envelope} {h : Host} {recipient : Str} {row : OutboxRow}
    (hmem : (recipient, row) ∈ envelope.rcptTo.zip (router.queued envelope h)) :
    Justified router envelope h.world.db (exec perform (router.handle envelope) h).2.world.db
      recipient row.direction row.envelopeFrom row.envelopeTo := by
  obtain ⟨added, houtbox, -, hjust⟩ := adds_handleAll router envelope envelope.rcptTo h
  have hqueued : router.queued envelope h = added := by
    unfold queued handle
    rw [houtbox, List.drop_left]
  rw [hqueued] at hmem
  exact hjust recipient row hmem

theorem Justified.of_forward {envelope : Envelope} {db db' : Db} {recipient from_ to_ : Str}
    {d : Direction} (h : Justified router envelope db db' recipient d from_ to_)
    (hd : d = .forward) :
    ∃ address a m c sender, EmailAddress.parse recipient = .ok address ∧
      a ∈ db.aliases ∧ a.address = address.normalised ∧ db.mailboxOf a = some m ∧
      envelopeSender envelope.mailFrom (headerValue (splitHeadersBody envelope.data).1 "from")
        = .ok sender ∧
      c ∈ db'.contacts ∧ c.aliasId = a.aliasId ∧ c.email = sender.normalised ∧
      from_ = c.reverseAlias ∧ to_ = m.email := by
  cases h with
  | reply => cases hd
  | forward address a m c sender hparse _ ha haddress _ hm hsender hc hcid hcemail =>
      exact ⟨address, a, m, c, sender, hparse, ha, haddress, hm, hsender, hc,
        hcid, hcemail, rfl, rfl⟩

theorem Justified.of_reply {envelope : Envelope} {db db' : Db} {recipient from_ to_ : Str}
    {d : Direction} (h : Justified router envelope db db' recipient d from_ to_)
    (hd : d = .reply) :
    ∃ address a c, EmailAddress.parse recipient = .ok address ∧
      c ∈ db'.contacts ∧ c.reverseAlias = address.normalised ∧
      a ∈ db.aliases ∧ a.aliasId = c.aliasId ∧ from_ = a.address ∧ to_ = c.email := by
  cases h with
  | forward => cases hd
  | reply address a m c hparse _ hc hrev ha hid _ _ _ =>
      exact ⟨address, a, c, hparse, hc, hrev, ha, hid, rfl, rfl⟩

theorem later_handle (router : AliasRouter) (envelope : Envelope) (h : Host) :
    Later router.aliases h.world.db (exec perform (router.handle envelope) h).2.world.db :=
  later_exec (uses_mono legal_of_routing (uses_handleAll router envelope envelope.rcptTo)) h

/-! ## Conversations -/

/-- The mailbox `e` is entered, the sender `s` writes to an alias of it, and the mailbox
answers.  In between and besides anything may happen; the mailbox is still there when `s`
writes, and the alias and its contacts when the answer comes. -/
structure Conversation (router : AliasRouter) (e s : EmailAddress) where
  /-- Before the mailbox is entered. -/
  h₀ : Host
  isDefault : Bool
  mailbox : Mailbox
  /-- Before `s` writes. -/
  h₂ : Host
  owned : Alias
  incoming : Envelope
  recipient : Str
  address : EmailAddress
  forwarded : OutboxRow
  /-- Before the mailbox answers. -/
  h₄ : Host
  outgoing : Envelope
  replied : OutboxRow
  reachable : Reachable router.aliases h₀.world.db
  entered : (exec perform (insertMailbox e isDefault) h₀).1 = .ok mailbox
  later₂ : Later router.aliases (exec perform (insertMailbox e isDefault) h₀).2.world.db
    h₂.world.db
  mailbox_kept : ∃ m ∈ h₂.world.db.mailboxes, m.mailboxId = mailbox.mailboxId ∧
    m.email = mailbox.email
  owned_mem : owned ∈ h₂.world.db.aliases
  owned_by : owned.mailboxId = mailbox.mailboxId
  sender : envelopeSender incoming.mailFrom
    (headerValue (splitHeadersBody incoming.data).1 "from") = .ok s
  parsed : EmailAddress.parse recipient = .ok address
  addressed : address.normalised = owned.address
  forwarded_mem : (recipient, forwarded) ∈ incoming.rcptTo.zip (router.queued incoming h₂)
  forwards : forwarded.direction = .forward
  later₄ : Later router.aliases (exec perform (router.handle incoming) h₂).2.world.db
    h₄.world.db
  alias_kept : ∃ a ∈ h₄.world.db.aliases, a.aliasId = owned.aliasId ∧ a.address = owned.address
  contact_kept : ∀ c ∈ (exec perform (router.handle incoming) h₂).2.world.db.contacts,
    c.reverseAlias = forwarded.envelopeFrom → c ∈ h₄.world.db.contacts
  replied_mem : (forwarded.envelopeFrom, replied) ∈ outgoing.rcptTo.zip
    (router.queued outgoing h₄)
  replies : replied.direction = .reply

namespace Conversation

variable {e s s' : EmailAddress}

/-- The mailbox is written down under its normalised form. -/
theorem insertMailbox_email {isDefault : Bool} {h t : Host} {m : Mailbox}
    (he : exec perform (insertMailbox e isDefault) h = (.ok m, t)) :
    m.email = e.normalised := by
  unfold insertMailbox at he
  obtain ⟨_, _, -, he⟩ := (exec_bind_ok perform).mp he
  obtain ⟨_, _, -, he⟩ := (exec_bind_ok perform).mp he
  obtain ⟨_, _, -, he⟩ := (exec_bind_ok perform).mp he
  cases he
  rfl

theorem reachable₂ (x : Conversation router e s) : Reachable router.aliases x.h₂.world.db :=
  (x.reachable.trans (later_exec (legal_insertMailbox e x.isDefault) x.h₀)).trans x.later₂

theorem reachable₄ (x : Conversation router e s) : Reachable router.aliases x.h₄.world.db :=
  (x.reachable₂.trans (later_handle router x.incoming x.h₂)).trans x.later₄

/-- The message goes to the normalised form of the mailbox, from the reverse alias of a
contact that has the normalised form of the sender. -/
theorem forwarded_to (x : Conversation router e s) :
    x.forwarded.envelopeTo = e.normalised ∧
      ∃ c ∈ (exec perform (router.handle x.incoming) x.h₂).2.world.db.contacts,
        c.reverseAlias = x.forwarded.envelopeFrom ∧ c.aliasId = x.owned.aliasId ∧
        c.email = s.normalised := by
  have hwf := x.reachable₂.wf
  obtain ⟨address, a, m, c, sender, hparse, ha, haddress, hm, hsender, hc, hcid,
      hcemail, hfrom, hto⟩ :=
    (queued_justified x.forwarded_mem).of_forward x.forwards
  -- the alias that was found is the one that was written to
  cases x.parsed.symm.trans hparse
  cases x.sender.symm.trans hsender
  obtain rfl : a = x.owned :=
    List.inj_on_of_nodup_map hwf.addresses ha x.owned_mem (haddress.trans x.addressed)
  refine ⟨?_, c, hc, hfrom.symm, hcid, hcemail⟩
  -- and its mailbox is the one that was entered
  obtain ⟨hmem, hid⟩ := Db.mailboxOf_some hm
  obtain ⟨m', hmem', hid', hemail⟩ := x.mailbox_kept
  obtain rfl : m = m' := List.inj_on_of_nodup_map hwf.mailboxIds hmem hmem'
    (hid.trans (x.owned_by.trans hid'.symm))
  rw [hto, hemail, insertMailbox_email (Prod.ext x.entered rfl)]

/-- The answer goes from the alias to the normalised form of the sender. -/
theorem replied_to (x : Conversation router e s) :
    x.replied.envelopeFrom = x.owned.address ∧ x.replied.envelopeTo = s.normalised := by
  obtain ⟨-, c, hc, hrev, hcid, hcemail⟩ := x.forwarded_to
  have hgrows := grows_exec (uses_handleAll router x.outgoing x.outgoing.rcptTo) x.h₄
  have hwf : Wf router.aliases (exec perform (router.handle x.outgoing) x.h₄).2.world.db :=
    Reachable.wf (x.reachable₄.trans (later_handle router x.outgoing x.h₄))
  have hc' := hgrows.contacts.subset (x.contact_kept c hc hrev)
  obtain ⟨address, a, d, hparse, hd, hdrev, ha, haid, hfrom, hto⟩ :=
    (queued_justified x.replied_mem).of_reply x.replies
  -- the contact that was found is the one that was made for the sender
  obtain ⟨symbols, hsymbols⟩ := (hwf.contactForms c hc').2
  obtain ⟨symbols', hsymbols'⟩ := (hwf.contactForms d hd).2
  rw [← hrev, hsymbols] at hparse
  have hsame := normalised_of_parse_compose hparse (hdrev.symm.trans hsymbols')
  obtain rfl : d = c := List.inj_on_of_nodup_map hwf.reverseAliases hd hc'
    (hdrev.trans (hsame.trans hsymbols.symm))
  obtain ⟨a', ha', haid', haddress⟩ := x.alias_kept
  obtain rfl : a = a' := List.inj_on_of_nodup_map x.reachable₄.wf.aliasIds ha ha'
    (haid.trans (hcid.trans haid'.symm))
  exact ⟨hfrom.trans haddress, hto.trans hcemail⟩

/-! ## Where mail was meant to go -/

/-- The message goes to the local part of the mailbox, and the answer from the alias to the
address of the sender. -/
def Keeps (x : Conversation router e s) : Prop :=
  (∃ d, '@' ∉ d ∧ x.forwarded.envelopeTo = e.localPart ++ '@' :: d) ∧
    x.replied.envelopeFrom = x.owned.address ∧ x.replied.envelopeTo = s.localPart ++
      '@' :: s.domain

end Conversation

theorem Conversation.keeps_iff {e s : EmailAddress} (x : Conversation router e s) :
    x.Keeps ↔ toLowercase e.localPart = e.localPart ∧
    toLowercase s.localPart = s.localPart := by
  unfold Conversation.Keeps
  obtain ⟨hfrom, hto⟩ := x.replied_to
  rw [x.forwarded_to.1, hfrom, hto, EmailAddress.normalised, EmailAddress.normalised]
  constructor
  · rintro ⟨⟨d, hd, he⟩, -, hs⟩
    exact ⟨(append_cons_inj_last e.at_not_mem_domain hd he).1,
      (append_cons_inj_last s.at_not_mem_domain s.at_not_mem_domain hs).1⟩
  · rintro ⟨he, hs⟩
    exact ⟨⟨e.domain, e.at_not_mem_domain, by rw [he]⟩, rfl, by rw [hs]⟩

/-- Mail goes to the addresses it was meant for, and two senders stay apart, if and only if
lower-casing leaves the local parts of the mailbox and of the senders. -/
theorem conversation_keeps_iff {e s s' : EmailAddress} (x : Conversation router e s)
    (y : Conversation router e s') :
    (x.Keeps ∧ y.Keeps ∧ (s ≠ s' → x.replied.envelopeTo ≠ y.replied.envelopeTo)) ↔
      toLowercase e.localPart = e.localPart ∧ toLowercase s.localPart = s.localPart ∧
        toLowercase s'.localPart = s'.localPart := by
  rw [x.keeps_iff, y.keeps_iff]
  constructor
  · rintro ⟨⟨he, hs⟩, ⟨-, hs'⟩, -⟩
    exact ⟨he, hs, hs'⟩
  · rintro ⟨he, hs, hs'⟩
    refine ⟨⟨he, hs⟩, ⟨he, hs'⟩, fun hne h0 => hne ?_⟩
    rw [x.replied_to.2, y.replied_to.2, EmailAddress.normalised,
      EmailAddress.normalised, hs, hs'] at h0
    have hparse := EmailAddress.parse_toString s
    rw [EmailAddress.toString, h0] at hparse
    exact Except.ok.inj (hparse.symm.trans (EmailAddress.parse_toString s'))

/-! ### Two senders, one reply target -/

/-- An address at `shop.example`. -/
def ofShop (name : Str) (valid : validLocal name = true) : EmailAddress :=
  ⟨name, "shop.example", ⟨valid, by decide⟩, by decide, by decide⟩

/-- The machine after entering `me@personal.example`. -/
def enteredHost :
    Host := (exec perform (insertMailbox .me true) (Host.calm ⟨Db.empty, [], []⟩)).2

/-- The alias of `sampleHost`, and its mailbox. -/
def shopAlias : Alias :=
  ⟨['3'], "shop@example.com", ['0'], none, true, 0, 0, 0, "2026-09-23T00:00:04+00:00", none⟩

def meMailbox : Mailbox := ⟨['0'], "me@personal.example", true, "2026-09-23T00:00:01+00:00"⟩

theorem sampleHost_eq :
    sampleHost = (exec perform (insertAlias .shop ['0'] none) enteredHost).2 := by
  have hme : EmailAddress.parse "me@personal.example" = .ok .me := by decide +kernel
  have hshop : EmailAddress.parse "shop@example.com" = .ok .shop := by decide +kernel
  have hentered : exec perform (insertMailbox .me true) (Host.calm ⟨Db.empty, [], []⟩)
      = (.ok meMailbox, enteredHost) := Prod.ext (by decide +kernel) rfl
  unfold sampleHost setUp
  rw [exec_bind_of_ok perform (exec_computed_ok perform hme _),
    exec_bind_of_ok perform hentered,
    exec_bind_of_ok perform (exec_computed_ok perform hshop _)]
  rfl

theorem shopAlias_mem : shopAlias ∈ sampleHost.world.db.aliases := by decide +kernel

def incoming (s : EmailAddress) : Envelope := ⟨s.toString, ["shop@example.com".toList], []⟩

/-- The machine after a message from `s` to the alias of `sampleHost`. -/
def forwardedHost (s : EmailAddress) :
    Host := (exec perform (sample.handle (incoming s)) sampleHost).2

def outgoing (reverseAlias : Str) : Envelope := ⟨"me@personal.example", [reverseAlias], []⟩

/-- `s` writes to the alias of `sampleHost` and is answered. -/
def talk (s : EmailAddress) (forwarded replied : OutboxRow)
    (hforwarded : sample.queued (incoming s) sampleHost = [forwarded])
    (forwards : forwarded.direction = .forward)
    (hreplied : sample.queued (outgoing forwarded.envelopeFrom) (forwardedHost s) = [replied])
    (replies : replied.direction = .reply) : Conversation sample .me s where
  h₀ := Host.calm ⟨Db.empty, [], []⟩
  isDefault := true
  mailbox := meMailbox
  h₂ := sampleHost
  owned := shopAlias
  incoming := incoming s
  recipient := "shop@example.com"
  address := .shop
  forwarded := forwarded
  h₄ := forwardedHost s
  outgoing := outgoing forwarded.envelopeFrom
  replied := replied
  reachable := .refl
  entered := by decide +kernel
  later₂ := by
    rw [sampleHost_eq]
    exact later_exec (legal_insertAlias .shop ['0'] none) enteredHost
  mailbox_kept := by decide +kernel
  owned_mem := shopAlias_mem
  owned_by := rfl
  sender := by
    unfold envelopeSender incoming
    rw [EmailAddress.parse_toString]
  parsed := by decide
  addressed := by decide
  forwarded_mem := by
    rw [hforwarded]
    exact List.mem_singleton_self _
  forwards := forwards
  later₄ := by
    unfold forwardedHost
    exact .refl
  alias_kept := by
    obtain ⟨a, ha, hcore⟩ :=
      (grows_exec (uses_handleAll sample (incoming s) _) sampleHost).alias_still shopAlias_mem
    obtain ⟨hid, haddress, -⟩ := Alias.of_core hcore
    unfold forwardedHost handle
    exact ⟨a, ha, hid, haddress⟩
  contact_kept := by
    intro c hc _
    unfold forwardedHost
    exact hc
  replied_mem := by
    rw [hreplied]
    exact List.mem_singleton_self _
  replies := replies

theorem exists_conversation {s : EmailAddress} (reverseAlias : Str)
    (hforwarded : (sample.queued (incoming s) sampleHost).map
      (fun row => (row.direction, row.envelopeFrom)) = [(.forward, reverseAlias)])
    (hreplied : (sample.queued (outgoing reverseAlias) (forwardedHost s)).map
      (·.direction) = [.reply]) :
    Nonempty (Conversation sample .me s) := by
  obtain ⟨forwarded, hone, hrow⟩ := List.map_eq_singleton_iff.mp hforwarded
  obtain ⟨hdirection, rfl⟩ := Prod.mk.inj hrow
  obtain ⟨replied, hone', hdirection'⟩ := List.map_eq_singleton_iff.mp hreplied
  exact ⟨talk s forwarded replied hone hdirection hone' hdirection'⟩

def bob : EmailAddress := ofShop "bob" (by decide)

theorem bob_talks : Nonempty (Conversation sample .me bob) :=
  exists_conversation "ct.lmnopqrstuvw@example.com" (by decide +kernel) (by decide +kernel)

def clerk : EmailAddress := ofShop "clerk" (by decide)

/-- Who is written in lower case gets the answers to what he wrote. -/
theorem conversation_keeps_iff_sample :
    ∃ (x : Conversation sample .me bob) (y : Conversation sample .me clerk),
    x.Keeps ∧ y.Keeps ∧ x.replied.envelopeTo ≠ y.replied.envelopeTo := by
  obtain ⟨x⟩ := bob_talks
  obtain ⟨y⟩ : Nonempty (Conversation sample .me clerk) :=
    exists_conversation "ct.lmnopqrstuvw@example.com" (by decide +kernel) (by decide +kernel)
  have hlower : toLowercase EmailAddress.me.localPart = EmailAddress.me.localPart ∧
      toLowercase bob.localPart = bob.localPart ∧ toLowercase clerk.localPart
        = clerk.localPart := by decide
  obtain ⟨hx, hy, hapart⟩ := (conversation_keeps_iff x y).mpr hlower
  exact ⟨x, y, hx, hy, hapart (by decide)⟩

/-- The answers to `Bob` and to `bob` go to one address. -/
theorem conversation_merges_senders :
    ¬ ∀ (router : AliasRouter) (e s s' : EmailAddress),
      toLowercase router.aliases.reverseAliasPrefix = router.aliases.reverseAliasPrefix →
      (∀ domain ∈ router.aliases.domains, toLowercase domain = domain) →
      ∀ (x : Conversation router e s) (y : Conversation router e s'),
        x.Keeps ∧ y.Keeps ∧ (s ≠ s' → x.replied.envelopeTo ≠ y.replied.envelopeTo) := by
  intro hall
  let s : EmailAddress := ofShop "Bob" (by decide)
  obtain ⟨x⟩ : Nonempty (Conversation sample .me s) :=
    exists_conversation "ct.lmnopqrstuvw@example.com" (by decide +kernel) (by decide +kernel)
  obtain ⟨y⟩ := bob_talks
  obtain ⟨-, -, hapart⟩ := hall sample .me s bob (by decide) (by decide) x y
  refine hapart (by decide) ?_
  rw [x.replied_to.2, y.replied_to.2]
  decide

end AliasRouter

end Weiterleitung
