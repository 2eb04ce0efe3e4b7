/-
# `Smtp.Turn` — one recipient of an envelope

The turn of a recipient has two halves: `place` resolves it and queues the message,
`count` counts it.  A `place` that fails has queued nothing (`place_cases`); one that
succeeds has queued one row with its file, and the row is `Justified`: it goes from an
enabled alias to its mailbox, or from the mailbox of an enabled alias to a contact of it.

    handleRecipient  =  place, then count                  (`handleRecipient_eq`)
    a place that fails is quiet, one that succeeds
      queues one justified row                             (`place_cases`)
    a justification holds of the tables before and after,
      however they grew                                    (`Justified.mono`)
-/
import Mathlib
import Weiterleitung.Smtp.Router
import Weiterleitung.Store.Frame

namespace Weiterleitung

open Text Prog

/-! ## The two halves -/

namespace AliasRouter

variable (router : AliasRouter)

/-- `forward` or `reply` up to the row; returns what is to be counted. -/
def queueRoute (envelope : Envelope) : Route → App (Option (Str × AliasCounter))
  | .forward aliasId aliasAddress => do
      router.queueForward aliasId aliasAddress envelope
      return some (aliasId, .forwarded)
  | .reply contactId aliasAddress contactEmail => do
      let aliasId ← router.queueReply contactId aliasAddress contactEmail envelope
      return aliasId.map (·, .replied)

/-- The turn of a recipient up to its row. -/
def place (envelope : Envelope) (recipient : Str) : App (Option (Str × AliasCounter)) := do
  let r ← mapErr (notRoutable recipient) (router.route envelope.mailFrom recipient)
  mapErr (fun _ => notQueued) (router.queueRoute envelope r)

/-- The rest of the turn. -/
def count : Option (Str × AliasCounter) → App Unit
  | some (aliasId, counter) =>
      mapErr (fun _ => notQueued) (recordAliasActivity aliasId counter)
  | none => return ()

theorem handleRecipient_eq (envelope : Envelope) (recipient : Str) :
    router.handleRecipient envelope recipient = router.place envelope recipient >>= count := by
  unfold handleRecipient place
  rw [bind_assoc]
  refine congrArg _ (funext fun r => ?_)
  cases r with
  | forward aliasId aliasAddress =>
      dsimp only [forward, queueRoute]
      rw [mapErr_bind, mapErr_bind, bind_assoc]
      rfl
  | reply contactId aliasAddress contactEmail =>
      dsimp only [reply, queueRoute]
      rw [mapErr_bind, mapErr_bind, bind_assoc]
      refine congrArg _ (funext fun aliasId => ?_)
      cases aliasId <;> rfl

/-! ## What a half can do -/

/-- Nothing is queued and nothing is counted as forwarded or replied. -/
def Untouched (w w' : World) : Prop :=
  w'.db.outbox = w.db.outbox ∧ w'.db.aliases.map Alias.moved = w.db.aliases.map Alias.moved

/-- One message is queued, with its file. -/
def Queued (mailDir : Str) (message : NewOutboundMessage) (w w' : World) : Prop :=
  ∃ messageId now, (∀ other ∈ w.db.outbox, other.messageId ≠ messageId) ∧
    w'.db.outbox = w.db.outbox ++ [message.row mailDir messageId now] ∧
    w'.spool = w.spool.write (rawPath mailDir messageId) message.raw

variable {router}

theorem untouched_of_quiet {w w' : World} (h : Quiet w w') : Untouched w w' := ⟨h.1, h.2.2⟩

/-- Quiet steps, then enqueueing. -/
theorem enqueue_after {mailDir : Str} (message : NewOutboundMessage) {w : World} {h : Host}
    (hw : Quiet w h.world) :
    (∃ messageId h', exec perform (enqueue mailDir message) h = (.ok messageId, h') ∧
      Queued mailDir message w h'.world ∧ h'.world.db.contacts = h.world.db.contacts) ∨
    (∃ e h', exec perform (enqueue mailDir message) h = (.error e, h') ∧
      Untouched w h'.world) := by
  obtain ⟨houtbox, hspool, hmoved⟩ := hw
  rcases enqueue_cases mailDir message h
    with ⟨now, db, h', he, hdb, hworld⟩ | ⟨e, h', he, hdb, -⟩
  · obtain ⟨hfresh, rfl⟩ := Db.insertOutbox_eq_some hdb
    refine Or.inl ⟨_, h', he, ⟨h.skip.chance.uuid, now, ?_, ?_, ?_⟩, ?_⟩
    · rw [← houtbox]
      exact hfresh
    · rw [hworld, ← houtbox]
    · rw [hworld, ← hspool]
    · rw [hworld]
  · exact Or.inr ⟨e, h', he, by rw [hdb]; exact houtbox, by rw [hdb]; exact hmoved⟩

/-- Enqueueing leaves the contacts. -/
theorem enqueue_contacts {mailDir messageId : Str} {message : NewOutboundMessage} {h t : Host}
    (he : exec perform (enqueue mailDir message) h = (.ok messageId, t)) :
    t.world.db.contacts = h.world.db.contacts := by
  rcases enqueue_after message (Quiet.refl h.world)
    with ⟨_, t', he', -, hcontacts⟩ | ⟨_, t', he', -⟩
  · rw [he] at he'
    cases he'
    exact hcontacts
  · rw [he] at he'
    cases he'

/-- Counting queues nothing and adds no contact. -/
theorem count_quiet (q : Option (Str × AliasCounter)) (h : Host) :
    (exec perform (count q) h).2.world.db.outbox = h.world.db.outbox ∧
      (exec perform (count q) h).2.world.spool = h.world.spool ∧
      (exec perform (count q) h).2.world.db.contacts = h.world.db.contacts := by
  cases q with
  | none => exact ⟨rfl, rfl, rfl⟩
  | some q =>
      unfold count recordAliasActivity
      rw [exec_mapErr, exec_bind_of_ok perform (exec_utcNow h)]
      rcases exec_write_cases h.skip (.recordAliasActivity q.1 q.2 h.chance.now.toRfc3339) with
        ⟨db, -, hdb, he⟩ | ⟨-, he⟩
      · rw [he]
        cases hdb
        exact ⟨rfl, rfl, rfl⟩
      · rw [he]
        exact ⟨rfl, rfl, rfl⟩

theorem getOrCreateContact_cases (settings : AliasSettings) (aliasId : Str)
    (email : EmailAddress) (name : Option Str) (h : Host) :
    (∃ e t, exec perform (getOrCreateContact aliasId email name settings.reverseAliasPrefix
        settings.defaultDomain) h = (.error e, t) ∧ Quiet h.world t.world) ∨
    (∃ c t, exec perform (getOrCreateContact aliasId email name settings.reverseAliasPrefix
        settings.defaultDomain) h = (.ok c, t) ∧
      Quiet h.world t.world ∧ c ∈ t.world.db.contacts ∧ c.aliasId = aliasId ∧
      c.email = email.normalised) := by
  have hquiet := quiet_exec (uses_getOrCreateContact settings aliasId email name) h
  rcases hget : exec perform (getOrCreateContact aliasId email name settings.reverseAliasPrefix
    settings.defaultDomain) h with ⟨e | c, t⟩
  · rw [hget] at hquiet
    exact Or.inl ⟨e, t, rfl, hquiet⟩
  · rw [hget] at hquiet
    exact Or.inr ⟨c, t, rfl, hquiet, getOrCreateContact_ok hget⟩

theorem queueForward_cases (router : AliasRouter) (aliasId aliasAddress : Str)
    (envelope : Envelope) (h : Host) :
    (∃ e h', exec perform (router.queueForward aliasId aliasAddress envelope)
      h = (.error e, h') ∧
      Untouched h.world h'.world) ∨
    ∃ address found sender c h' message,
      exec perform (router.queueForward aliasId aliasAddress envelope) h = (.ok (), h') ∧
      EmailAddress.parse aliasAddress = .ok address ∧
      h.world.db.findAliasByAddress address.normalised = some found ∧
      envelopeSender envelope.mailFrom (headerValue (splitHeadersBody envelope.data).1 "from")
        = .ok sender ∧
      c ∈ h'.world.db.contacts ∧ c.aliasId = aliasId ∧ c.email = sender.normalised ∧
      message.direction = .forward ∧ message.envelopeFrom = c.reverseAlias ∧
      message.envelopeTo = found.mailboxEmail ∧
      message.raw = rewriteForForward envelope.data
        { aliasAddress := aliasAddress, reverseAlias := c.reverseAlias,
          senderName :=
        (headerValue (splitHeadersBody envelope.data).1 "from").bind displayName,
          senderEmail := sender.toString } ∧
      Queued router.mailDir message h.world h'.world := by
  unfold queueForward
  cases hparse : EmailAddress.parse aliasAddress with
  | error e => exact Or.inl ⟨_, h, rfl, rfl, rfl⟩
  | ok address =>
      rw [exec_bind_of_ok perform (exec_computed perform _ h)]
      rcases give_cases (exec_findAliasByAddress address h) with ⟨-, hx⟩ | ⟨-, hx⟩
      · rw [exec_bind_of_error perform hx]
        exact Or.inl ⟨_, h.skip, rfl, rfl, rfl⟩
      · rw [exec_bind_of_ok perform hx]
        cases hfound : h.world.db.findAliasByAddress address.normalised with
        | none => exact Or.inl ⟨_, h.skip, rfl, rfl, rfl⟩
        | some found =>
            dsimp only
            cases hsender : envelopeSender envelope.mailFrom
                (headerValue (splitHeadersBody envelope.data).1 "from") with
            | error e => exact Or.inl ⟨_, h.skip, rfl, rfl, rfl⟩
            | ok sender =>
                rw [exec_bind_of_ok perform (exec_computed perform _ h.skip)]
                rcases getOrCreateContact_cases router.aliases aliasId sender _ h.skip with
                  ⟨e, t, hget, hquiet⟩ | ⟨c, t, hget, hquiet, hc, hcid, hcemail⟩
                · rw [exec_bind_of_error perform hget]
                  exact Or.inl ⟨_, t, rfl, untouched_of_quiet hquiet⟩
                · rw [exec_bind_of_ok perform hget]
                  rcases enqueue_after _ hquiet
                    with ⟨messageId, h', he, hqueued, hcontacts⟩ | ⟨e, h', he, hun⟩
                  · rw [exec_bind_of_ok perform he]
                    exact Or.inr ⟨address, found, sender, c, h', _, rfl, rfl, hfound, rfl,
                      by rw [hcontacts]; exact hc, hcid, hcemail, rfl, rfl, rfl, rfl, hqueued⟩
                  · rw [exec_bind_of_error perform he]
                    exact Or.inl ⟨e, h', rfl, hun⟩

theorem queueReply_cases (router : AliasRouter) (contactId aliasAddress contactEmail : Str)
    (envelope : Envelope) (h : Host) :
    (∃ e h', exec perform (router.queueReply contactId aliasAddress contactEmail envelope) h
        = (.error e, h') ∧ Untouched h.world h'.world) ∨
    ∃ address h' message,
      exec perform (router.queueReply contactId aliasAddress contactEmail envelope) h
        = (.ok ((h.world.db.findAliasByAddress address.normalised).map (·.toAlias.aliasId)),
          h') ∧
      EmailAddress.parse aliasAddress = .ok address ∧
      h'.world.db.contacts = h.world.db.contacts ∧
      message.direction = .reply ∧ message.envelopeFrom = aliasAddress ∧
      message.envelopeTo = contactEmail ∧
      message.raw = rewriteForReply envelope.data
        { aliasAddress := aliasAddress, contactEmail := contactEmail } ∧
      Queued router.mailDir message h.world h'.world := by
  unfold queueReply
  cases hparse : EmailAddress.parse aliasAddress with
  | error e => exact Or.inl ⟨_, h, rfl, rfl, rfl⟩
  | ok address =>
      rw [exec_bind_of_ok perform (exec_computed perform _ h)]
      rcases give_cases (exec_findAliasByAddress address h) with ⟨-, hx⟩ | ⟨-, hx⟩
      · rw [exec_bind_of_error perform hx]
        exact Or.inl ⟨_, h.skip, rfl, rfl, rfl⟩
      · rw [exec_bind_of_ok perform hx]
        have hquiet : Quiet h.world h.skip.world := Quiet.refl _
        rcases enqueue_after _ hquiet
          with ⟨messageId, h', he, hqueued, hcontacts⟩ | ⟨e, h', he, hun⟩
        · rw [exec_bind_of_ok perform he]
          exact Or.inr ⟨address, h', _, rfl, rfl, hcontacts, rfl, rfl, rfl, rfl, hqueued⟩
        · rw [exec_bind_of_error perform he]
          exact Or.inl ⟨e, h', rfl, hun⟩

/-! ## Justification -/

/-- Why a message may be queued for a recipient: the two ways, on the
tables before and after. -/
inductive Justified (router : AliasRouter) (envelope : Envelope) (db db' : Db)
    (recipient : Str) :
    Direction → Str → Str → Prop
  /-- Somebody writes to an enabled alias: to its mailbox, from the reverse alias that the
  alias keeps for the sender. -/
  | forward (address : EmailAddress) (a : Alias) (m : Mailbox) (c : Contact)
      (sender : EmailAddress) :
      EmailAddress.parse recipient = .ok address →
      router.aliases.ownsDomain address.domain = true →
      a ∈ db.aliases → a.address = address.normalised → a.enabled = true →
      db.mailboxOf a = some m →
      envelopeSender envelope.mailFrom (headerValue (splitHeadersBody envelope.data).1 "from")
        = .ok sender →
      c ∈ db'.contacts → c.aliasId = a.aliasId → c.email = sender.normalised →
      Justified router envelope db db' recipient .forward c.reverseAlias m.email
  /-- The mailbox of an enabled alias writes to a reverse alias of it: to the
  contact, from the alias. -/
  | reply (address : EmailAddress) (a : Alias) (m : Mailbox) (c : Contact) :
      EmailAddress.parse recipient = .ok address →
      router.aliases.ownsDomain address.domain = true →
      c ∈ db'.contacts → c.reverseAlias = address.normalised →
      a ∈ db.aliases → a.aliasId = c.aliasId → a.enabled = true → db.mailboxOf a = some m →
      eqIgnoreAsciiCase m.email (trim envelope.mailFrom) = true →
      Justified router envelope db db' recipient .reply a.address c.email

/-- A justification is one for tables that grew later, and for tables they grew from. -/
theorem Justified.mono {envelope : Envelope} {db₀ db db' db₁ : Db} {recipient from_ to_ : Str}
    {d : Direction} (h₀ : Grows db₀ db) (h₁ : Grows db' db₁)
    (h : Justified router envelope db db' recipient d from_ to_) :
    Justified router envelope db₀ db₁ recipient d from_ to_ := by
  cases h with
  | forward address a m c sender hparse hown ha haddress henabled hm hsender hc hcid hcemail =>
      obtain ⟨a₀, ha₀, hcore⟩ := h₀.alias_of ha
      obtain ⟨hid, haddr, -, hen⟩ := Alias.of_core hcore
      exact .forward address a₀ m c sender hparse hown ha₀ (haddr.trans haddress)
        (hen.trans henabled) ((h₀.mailboxOf hcore).symm.trans hm) hsender
        (h₁.contacts.subset hc) (hcid.trans hid.symm) hcemail
  | reply address a m c hparse hown hc hrev ha hid henabled hm hauth =>
      obtain ⟨a₀, ha₀, hcore⟩ := h₀.alias_of ha
      obtain ⟨hid₀, haddr, -, hen⟩ := Alias.of_core hcore
      rw [← haddr]
      exact .reply address a₀ m c hparse hown (h₁.contacts.subset hc) hrev ha₀ (hid₀.trans hid)
        (hen.trans henabled) ((h₀.mailboxOf hcore).symm.trans hm) hauth

/-- The message as it was, with other headers. -/
def Rewritten (envelope : Envelope) (raw : Bytes) : Prop :=
  (∃ params, raw = rewriteForForward envelope.data params) ∨
    ∃ params, raw = rewriteForReply envelope.data params

theorem uses_route (router : AliasRouter) (mailFrom recipient : Str) :
    Uses (Aside router.aliases) (router.route mailFrom recipient).run := by
  unfold route
  refine uses_seq trivial fun address => ?_
  split
  · trivial
  · refine uses_seq (uses_mapErr ⟨trivial, fun _ => trivial⟩) fun contact => ?_
    cases contact with
    | some contact =>
        dsimp only
        split
        · trivial
        · split <;> trivial
    | none =>
        refine uses_seq (uses_mapErr ⟨trivial, fun _ => trivial⟩) fun found => ?_
        cases found with
        | none => trivial
        | some found =>
            dsimp only
            split
            · exact uses_seq ⟨trivial, fun _ => ⟨rfl, fun _ => trivial⟩⟩ fun _ => trivial
            · trivial

/-- Queueing for a route that the tables give. -/
theorem queueRoute_cases {envelope : Envelope} {recipient : Str} {r : Route} {h : Host}
    (hr : router.resolve envelope.mailFrom recipient h.world.db = .ok r) :
    (∃ e h', exec perform (router.queueRoute envelope r) h = (.error e, h') ∧
      Untouched h.world h'.world) ∨
    ∃ q h' message, exec perform (router.queueRoute envelope r) h = (.ok q, h') ∧
      Justified router envelope h.world.db h'.world.db recipient message.direction
        message.envelopeFrom message.envelopeTo ∧
      Rewritten envelope message.raw ∧ Queued router.mailDir message h.world h'.world := by
  cases r with
  | forward aliasId aliasAddress =>
      obtain ⟨address, found, hparse, hown, -, hfound, henabled, rfl, rfl⟩ :=
        resolve_forward hr
      obtain ⟨hmem, haddress, m, hm, hemail⟩ := Db.findAliasByAddress_some hfound
      unfold queueRoute
      rcases queueForward_cases router found.toAlias.aliasId
        found.toAlias.address envelope h with
        ⟨e, h', he, hun⟩ | ⟨address', found', sender, c, h', message, he, hparse', hfound',
          hsender, hc, hcid, hcemail, hd, hfrom, hto, hraw, hqueued⟩
      · exact Or.inl ⟨e, h', exec_bind_of_error perform he, hun⟩
      · refine Or.inr ⟨_, h', message, exec_bind_of_ok perform he, ?_,
          Or.inl ⟨_, hraw⟩, hqueued⟩
        -- the alias is looked up again under its own address
        rw [haddress] at hparse'
        rw [EmailAddress.normalised_of_parse_normalised hparse', hfound] at hfound'
        cases hfound'
        rw [hd, hfrom, hto, hemail]
        exact .forward address found.toAlias m c sender hparse hown hmem haddress henabled hm
          hsender hc hcid hcemail
  | reply contactId aliasAddress contactEmail =>
      obtain ⟨address, found, hparse, hown, hfound, hauth, henabled, rfl, rfl, rfl⟩ :=
        resolve_reply hr
      obtain ⟨hc, hrev, a, ha, haddress, hen, m, hm, hemail⟩ :=
        Db.findContactByReverseAlias_some hfound
      unfold queueRoute
      rcases queueReply_cases router found.toContact.contactId found.aliasAddress
          found.toContact.email envelope h with
        ⟨e, h', he, hun⟩ | ⟨address', h', message, he, -, hcontacts, hd,
          hfrom, hto, hraw, hqueued⟩
      · exact Or.inl ⟨e, h', exec_bind_of_error perform he, hun⟩
      · refine Or.inr ⟨_, h', message, exec_bind_of_ok perform he, ?_,
          Or.inr ⟨_, hraw⟩, hqueued⟩
        rw [hd, hfrom, hto, haddress]
        exact .reply address a m found.toContact hparse hown (by rw [hcontacts]; exact hc) hrev
          (List.mem_of_find?_eq_some ha) (by simpa using List.find?_some ha)
          (hen.symm.trans henabled) hm (by rw [← hemail]; exact hauth)

/-- A turn fails before anything is queued, or its message is queued for a
route that the tables give. -/
theorem place_route (router : AliasRouter) (envelope : Envelope) (recipient : Str) (h : Host) :
    (∃ e h', exec perform (router.place envelope recipient) h = (.error e, h') ∧
      Untouched h.world h'.world) ∨
    ∃ r t, router.resolve envelope.mailFrom recipient h.world.db = .ok r ∧ t.world = h.world ∧
      exec perform (router.place envelope recipient) h
        = exec perform (mapErr (fun _ => notQueued) (router.queueRoute envelope r)) t := by
  have hquiet := quiet_exec (uses_route router envelope.mailFrom recipient) h
  have hfail : ∀ {e t}, exec perform (router.route envelope.mailFrom recipient)
      h = (.error e, t) →
      ∃ e h', exec perform (router.place envelope recipient) h = (.error e, h') ∧
        Untouched h.world h'.world := by
    intro e t he
    rw [he] at hquiet
    exact ⟨_, t, exec_bind_of_error perform (exec_mapErr_error perform he),
      untouched_of_quiet hquiet⟩
  rcases route_cases router envelope.mailFrom recipient h with
    ⟨-, t, he⟩ | ⟨-, ⟨e, t, -, he⟩ | ⟨r, t, hr, he, hworld⟩⟩
  · exact Or.inl (hfail he)
  · exact Or.inl (hfail he)
  · exact Or.inr ⟨r, t, hr, hworld, exec_bind_of_ok perform (exec_mapErr_ok perform he)⟩

/-- A turn that fails before its row is in has queued nothing; otherwise one justified
message is queued. -/
theorem place_cases (router : AliasRouter) (envelope : Envelope) (recipient : Str) (h : Host) :
    (∃ e h', exec perform (router.place envelope recipient) h = (.error e, h') ∧
      Untouched h.world h'.world) ∨
    ∃ q h' message, exec perform (router.place envelope recipient) h = (.ok q, h') ∧
      Justified router envelope h.world.db h'.world.db recipient message.direction
        message.envelopeFrom message.envelopeTo ∧
      Rewritten envelope message.raw ∧ Queued router.mailDir message h.world h'.world := by
  rcases place_route router envelope recipient h with hfail | ⟨r, t, hr, hworld, hplace⟩
  · exact Or.inl hfail
  · rw [← hworld] at hr ⊢
    rw [hplace]
    rcases queueRoute_cases hr with ⟨e, h', hq, hun⟩ | ⟨q, h', message,
      hq, hjust, hraw, hqueued⟩
    · exact Or.inl ⟨_, h', exec_mapErr_error perform hq, hun⟩
    · exact Or.inr ⟨q, h', message, exec_mapErr_ok perform hq, hjust, hraw, hqueued⟩

end AliasRouter

end Weiterleitung
