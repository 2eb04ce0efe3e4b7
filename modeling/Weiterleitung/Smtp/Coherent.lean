/-
# `Smtp.Coherent` — queued mail and its correspondents, while the operator works

Mail is handled statement by statement, and between two statements the operator may make,
disable and delete aliases and mailboxes.  `handle` trusts what it has read.  That is right:
what it knows of a contact (`Known`) is not broken by anybody, and at the last statement the
foreign key says which of the two cases it is.

    whatever alias `reply` finds for the address of a contact, it
      is that of the contact, or the contact is gone               (`amids_findAliasByAddress`)
    handling mail inserts rows that fit                            (`amids_handleRecipient`)
    every row suits the contact it names, in every order of
      statements                                                   (`outbox_coherent`)
-/
import Mathlib
import Weiterleitung.Smtp.Among
import Weiterleitung.Store.References

namespace Weiterleitung

open Text Prog

/-- A row that is inserted fits; identifiers are new. -/
def mailRules (settings : AliasSettings) : Rules Op Res Chance Archive where
  answer o c s := s.answer o c
  inv := Archive.Inv settings
  rely s t := ∀ c address, Known c address s → Known c address t
  may o s := Legal settings o ∧ RowFits o s
  fair o _ s := NewIdentifier o s
  refl _ _ _ := id
  trans hst htu c address h := htu c address (hst c address h)
  step h ho hnew :=
    ⟨Archive.inv_answer _ ho.1 hnew ho.2 h, fun _ _ hk => known_of_answer _ ho.1 hnew h hk⟩

theorem onStore_mailRules (settings : AliasSettings) :
    OnStore settings (mailRules settings) Archive.world where
  answer _ _ _ := rfl
  world _ _ _ := rfl
  may o _ ho hrow := by
    refine ⟨legal_of_routing o ho, ?_⟩
    unfold RowFits
    split
    · exact hrow.elim
    · trivial

section
variable {settings : AliasSettings} {s t : Archive}

theorem Fits.later {row : OutboxRow} (h : Fits row s) (hst : (mailRules settings).rely s t) :
    Fits row t := by
  intro contactId hid
  obtain ⟨c, address, hcid, hknown, hsuits⟩ := h contactId hid
  exact ⟨c, address, hcid, hst c address hknown, hsuits⟩

/-- A row that fits what has been read still fits when it is inserted. -/
theorem amids_enqueue (mailDir : Str) (message : NewOutboundMessage)
    (hfits : ∀ messageId now, Fits (message.row mailDir messageId now) s) :
    (mailRules settings).Amids (fun _ _ => True) (enqueue mailDir message) s :=
  (onStore_mailRules settings).amids_enqueue mailDir message fun messageId now _ hst _ =>
    ⟨⟨rfl, rfl⟩, (hfits messageId now).later hst⟩

end

namespace AliasRouter

variable (router : AliasRouter)

/-- What a reply is told of the contact and of its alias. -/
def ReplyKnown (contactId aliasAddress contactEmail : Str) (s : Archive) : Prop :=
  IsNormalised aliasAddress ∧ ∃ c, c.contactId = contactId ∧ c.email = contactEmail ∧
    Known c aliasAddress s

theorem replyKnown_of_found {contactId aliasAddress contactEmail : Str} {s : Archive}
    (hs : s.Inv router.aliases)
    (h : (Route.reply contactId aliasAddress contactEmail).Found s.world.db) :
    ReplyKnown contactId aliasAddress contactEmail s := by
  obtain ⟨c, hc, rfl, rfl, a, ha, hid, rfl⟩ := h
  exact ⟨hs.wf.aliasForms a ha, c, rfl, rfl, Or.inl ⟨hc, a, ha, hid, rfl⟩⟩

/-- Whatever alias the lookup finds, it is that of the contact, unless that is gone. -/
theorem amids_findAliasByAddress {aliasAddress contactId contactEmail : Str}
    {address : EmailAddress} {s : Archive}
    (hparse : EmailAddress.parse aliasAddress = .ok address)
    (hroute : ReplyKnown contactId aliasAddress contactEmail s) :
    (mailRules router.aliases).Amids (fun found s => ∃ c, c.contactId = contactId ∧
      c.email = contactEmail ∧
        Known c aliasAddress s ∧ ∀ f, found = some f → c.aliasId = f.toAlias.aliasId)
      (findAliasByAddress address) s := by
  obtain ⟨⟨e, rfl⟩, c, hcid, hemail, hknown⟩ := hroute
  have hnormalised : address.normalised = e.normalised :=
    EmailAddress.normalised_of_parse_normalised hparse
  refine Rules.amids_later ((onStore_mailRules router.aliases).amids_findAliasByAddress address
    s) fun found t hst hfound => ?_
  have hknown : Known c e.normalised t := hst c _ hknown
  cases found with
  | none => exact ⟨c, hcid, hemail, hknown, nofun⟩
  | some f =>
      obtain ⟨ht, hf, haddress, -⟩ := hfound f rfl
      rw [hnormalised] at haddress
      rcases hknown with ⟨hc, a, ha, hid, hsame⟩ | hgone
      · refine ⟨c, hcid, hemail, Or.inl ⟨hc, a, ha, hid, hsame⟩, ?_⟩
        rintro _ ⟨⟩
        rw [← hid, List.inj_on_of_nodup_map ht.wf.addresses ha hf (hsame.trans haddress.symm)]
      · -- the contact is gone, so nothing more is known of it than the identifier
        refine ⟨{ c with aliasId := f.toAlias.aliasId }, hcid, hemail, Or.inr hgone, ?_⟩
        rintro _ ⟨⟩
        rfl

theorem amids_queueReply {contactId aliasAddress contactEmail : Str} (envelope : Envelope)
    {s : Archive} (hroute : ReplyKnown contactId aliasAddress contactEmail s) :
    (mailRules router.aliases).Amids (fun _ _ => True)
      (router.queueReply contactId aliasAddress contactEmail envelope) s := by
  unfold queueReply
  dsimp only
  refine Rules.amids_seq (m := fun address t => EmailAddress.parse aliasAddress = .ok address ∧
    t = s) (Rules.amids_computed fun address haddress => ⟨haddress, rfl⟩) ?_
  rintro address _ - ⟨hparse, rfl⟩
  refine Rules.amids_seq (router.amids_findAliasByAddress hparse hroute) ?_
  rintro found s - ⟨c, hcid, hemail, hknown, halias⟩
  refine Rules.amids_seq (amids_enqueue _ _ fun messageId now => ?_) fun _ _ _ _ =>
    Rules.amids_pure trivial
  rintro _ ⟨⟩
  refine ⟨c, aliasAddress, hcid, hknown, fun i hi => ?_, hemail.symm, rfl⟩
  obtain ⟨f, hf, rfl⟩ := Option.map_eq_some_iff.mp hi
  exact halias f hf

theorem amids_queueForward (aliasId aliasAddress : Str) (envelope : Envelope) (s : Archive) :
    (mailRules router.aliases).Amids
      (fun _ _ => True) (router.queueForward aliasId aliasAddress envelope) s := by
  unfold queueForward
  refine Rules.amids_seq (m := fun _ _ => True) (Rules.amids_computed fun _ _ => trivial)
    fun address s _ _ => ?_
  refine Rules.amids_seq ((onStore_mailRules router.aliases).amids_findAliasByAddress address
    s) fun found s _ _ => ?_
  cases found with
  | none => exact Rules.amids_throw _ _
  | some aliasWithMailbox =>
      dsimp only
      refine Rules.amids_seq (m := fun _ _ => True) (Rules.amids_computed fun _ _ => trivial)
        fun senderEmail s _ _ => ?_
      refine Rules.amids_seq
        ((onStore_mailRules router.aliases).amids_getOrCreateContact _ _ _ _) ?_
      rintro contact s - ⟨⟨hc, haliasId, -⟩, hs⟩
      obtain ⟨a, ha, hid⟩ := hs.wf.correspondents contact hc
      refine Rules.amids_seq (amids_enqueue _ _ fun messageId now => ?_) fun _ _ _ _ =>
        Rules.amids_pure trivial
      rintro _ ⟨⟩
      refine ⟨contact, a.address, rfl, Or.inl ⟨hc, a, ha, hid, rfl⟩, ?_, rfl⟩
      rintro _ ⟨⟩
      exact haliasId

theorem amids_handleRecipient (envelope : Envelope) (recipient : Str) (s : Archive) :
    (mailRules router.aliases).Amids
      (fun _ _ => True) (router.handleRecipient envelope recipient) s := by
  unfold handleRecipient
  have hstore := onStore_mailRules router.aliases
  refine Rules.amids_seq (Rules.amids_mapErr (hstore.amids_route router _ _ s)) ?_
  rintro route s - ⟨hs, hroute⟩
  cases route with
  | forward aliasId aliasAddress =>
      refine Rules.amids_mapErr ?_
      unfold forward
      exact Rules.amids_seq (router.amids_queueForward _ _ _ _) fun _ s _ _ =>
        hstore.amids_recordAliasActivity _ _ s
  | reply contactId aliasAddress contactEmail =>
      refine Rules.amids_mapErr ?_
      unfold reply
      refine Rules.amids_seq (router.amids_queueReply _ (router.replyKnown_of_found hs hroute))
        fun aliasId s _ _ => ?_
      cases aliasId with
      | none => exact Rules.amids_pure trivial
      | some aliasId => exact hstore.amids_recordAliasActivity _ _ s

theorem amids_handleAll (envelope : Envelope) (recipients : List Str) : ∀ s : Archive,
    (mailRules router.aliases).Amids (fun _ _ => True) (router.handleAll envelope recipients)
      s := by
  induction recipients with
  | nil => exact fun s => Rules.amids_pure trivial
  | cons recipient recipients ih =>
      exact fun s => Rules.amids_seq (router.amids_handleRecipient _ _ s) fun _ s _ _ => ih s

end AliasRouter

/-! ## Every order of statements -/

/-- What clients make the server do, its answer thrown away. -/
inductive MailTask (router : AliasRouter) : Prog Op Res Unit → Prop
  | verifyRecipient (mailFrom recipient : Str) :
      MailTask router (router.verifyRecipient mailFrom recipient >>= fun _ => .ret ())
  | handle (envelope : Envelope) :
      MailTask router ((router.handle envelope).run >>= fun _ => .ret ())

theorem MailTask.amid {router : AliasRouter} {p : Prog Op Res Unit} (hp : MailTask router p)
    (s : Archive) :
    (mailRules router.aliases).Amid (fun _ _ => True) p s := by
  cases hp with
  | handle envelope =>
      exact Rules.amid_bind (Rules.amid_of_amids (router.amids_handleAll envelope _ s))
        fun _ _ _ _ => trivial
  | verifyRecipient mailFrom recipient =>
      exact Rules.amid_bind
        ((onStore_mailRules router.aliases).amid_verifyRecipient router mailFrom recipient s)
        fun _ _ _ _ => trivial

/-- What else happens to the store: everything but making contacts and rows. -/
def Beside (settings : AliasSettings) : Op → Prop
  | .write (.insertContact _) | .write (.insertOutbox _) => False
  | o => Legal settings o

theorem Beside.legal {settings : AliasSettings} {o : Op} (h : Beside settings o) :
    Legal settings o ∧
    ∀ s, NewIdentifier o s ∧ RowFits o s := by
  cases o with
  | write u =>
      cases u with
      | insertContact | insertOutbox => exact h.elim
      | _ => exact ⟨h, fun _ => ⟨trivial, trivial⟩⟩
  | _ => exact ⟨h, fun _ => ⟨trivial, trivial⟩⟩

/-- The store, and the calls of the router that are at work on it. -/
abbrev Mailroom := Crew Op Res Archive Unit

/-- Calls start, take turns, and the operator and the worker act in between. -/
def Mailroom.Run (router : AliasRouter) : Mailroom → Mailroom → Prop :=
  Crew.Run (mailRules router.aliases) (MailTask router) fun s t =>
    ∃ o c, Beside router.aliases o ∧ t = (s.answer o c).2

theorem Mailroom.Run.inv {router : AliasRouter} {s s' : Mailroom}
    (h : Mailroom.Run router s s') (hs : Crew.Sound (mailRules router.aliases)
      (fun _ _ => True) s) : s'.state.Inv router.aliases := by
  refine (Crew.sound_run (fun p hp t _ => hp.amid t) ?_ hs h).1.inv
  rintro s t hs ⟨o, c, ho, rfl⟩
  obtain ⟨hlegal, hbeside⟩ := ho.legal
  exact (mailRules router.aliases).step hs ⟨hlegal, (hbeside s).2⟩ (hbeside s).1

theorem Archive.inv_empty (settings : AliasSettings) (spool : Spool) (relayed : List Str) :
    Archive.Inv settings ⟨⟨Db.empty, spool, relayed⟩, []⟩ where
  wf := wf_empty
  contactIds := List.nodup_nil
  given := nofun
  refers := nofun
  coherent := nofun

/-- In every order of statements, as long as no two contacts get the same identifier: the
contact that a row names is there, and it is the one that the mail is from or for; and a
deletion takes nothing from a row but references. -/
theorem outbox_coherent (router : AliasRouter) (spool : Spool) (relayed : List Str)
    (s : Mailroom) (hrun : Mailroom.Run router ⟨⟨⟨Db.empty, spool, relayed⟩, []⟩, []⟩ s) :
    (∀ row ∈ s.state.world.db.outbox, ∀ contactId, row.contactId = some contactId →
      ∃ c ∈ s.state.world.db.contacts, c.contactId = contactId ∧
        (∀ d ∈ s.state.world.db.contacts, d.contactId = contactId → d = c) ∧
        (∀ aliasId, row.aliasId = some aliasId → c.aliasId = aliasId) ∧
        (row.direction = .forward → row.envelopeFrom = c.reverseAlias) ∧
        (row.direction = .reply → row.envelopeTo = c.email ∧
          ∃ a ∈ s.state.world.db.aliases, a.aliasId = c.aliasId ∧
            row.envelopeFrom = a.address)) ∧
    (∀ aliasId, List.Forall₂ Nulled s.state.world.db.outbox
      (s.state.world.db.deleteAlias aliasId).outbox) ∧
    ∀ mailboxId, List.Forall₂ Nulled s.state.world.db.outbox
      (s.state.world.db.deleteMailbox mailboxId).outbox := by
  have hinv := hrun.inv (Crew.sound_start (Archive.inv_empty router.aliases spool relayed))
  refine ⟨?_, fun aliasId => nulled_removeAliases _ _,
    fun mailboxId => nulled_removeAliases _ _⟩
  intro row hrow contactId hid
  obtain ⟨c, hc, rfl, a, ha, haid, halias, hmail⟩ := hinv.coherent row hrow contactId hid
  refine ⟨c, hc, rfl, fun d hd hdid => List.inj_on_of_nodup_map hinv.contactIds hd hc hdid,
    halias, ?_, ?_⟩
  · intro hdirection
    rw [hdirection] at hmail
    exact hmail
  · intro hdirection
    rw [hdirection] at hmail
    exact ⟨hmail.1, a, ha, haid, hmail.2⟩

/-! ### A message and the reply to it -/

instance (o : Op) (s : Archive) : Decidable (NewIdentifier o s) := by
  cases o with
  | write w =>
      cases w with
      | insertContact d => exact inferInstanceAs (Decidable (d.contactId ∉ s.given))
      | _ => exact isTrue trivial
  | _ => exact isTrue trivial

instance (settings : AliasSettings) (o : Op) (c : Chance) (s : Archive) :
    Decidable ((mailRules settings).fair o c s) :=
  inferInstanceAs (Decidable (NewIdentifier o s))

/-- The store with the mailbox `me@personal.example` and its alias `shop@example.com`. -/
def shopArchive : Archive :=
  ((Archive.answer (.write (.insertMailbox ⟨['m'], EmailAddress.me.normalised, true, []⟩))
    (Chance.calm 0) ⟨⟨Db.empty, [], []⟩, []⟩).2.answer
      (.write (.insertAlias ⟨['a'], EmailAddress.shop.normalised, ['m'], none, true, 0, 0, 0,
        [], none⟩)) (Chance.calm 0)).2

/-- Mail to the alias, and what the mailbox writes to the reverse alias that comes of it. -/
def shopMail : Mailroom :=
  ⟨shopArchive,
    [(AliasRouter.sample.handle ⟨"me@personal.example", ["ct.pqrstuvwxyza@example.com".toList],
      []⟩).run >>= fun _ => .ret (),
      (AliasRouter.sample.handle ⟨"a@shop.example", ["shop@example.com".toList], []⟩).run >>=
        fun _ => .ret ()]⟩

/-- Sixteen turns for the first message, then nine for the reply. -/
def shopTurns : List (Nat × Chance) :=
  (List.range 25).map fun n => (if n < 16 then 1 else 0, Chance.calm (10 + n))

theorem run_shopMail : Mailroom.Run AliasRouter.sample ⟨⟨⟨Db.empty, [], []⟩, []⟩, []⟩
    (shopTurns.foldl (Crew.turnOf (mailRules AliasRouter.sample.aliases)) shopMail) := by
  refine Relation.ReflTransGen.trans ?_ (Crew.run_turns shopTurns shopMail (by decide +kernel))
  refine .tail
    (.tail (.tail (.tail .refl (.other _ _ ⟨_, _, ?_, rfl⟩)) (.other _ _ ⟨_, _, ?_, rfl⟩))
    (.join _ _ (.handle _))) (.join _ _ (.handle _))
  · exact ⟨EmailAddress.me, rfl⟩
  · exact ⟨EmailAddress.shop, rfl⟩

/-- Both rows are queued, and both name the contact. -/
theorem outbox_coherent_sample :
    (shopTurns.foldl (Crew.turnOf (mailRules AliasRouter.sample.aliases))
      shopMail).state.world.db.outbox.map
      (fun row => (row.direction, row.contactId)) = [(.forward, some "14".toList),
        (.reply, some "14".toList)] ∧
    ∀ row ∈ (shopTurns.foldl (Crew.turnOf (mailRules AliasRouter.sample.aliases))
      shopMail).state.world.db.outbox, row.contactId = some "14".toList →
      ∃ c ∈ (shopTurns.foldl (Crew.turnOf (mailRules AliasRouter.sample.aliases))
        shopMail).state.world.db.contacts,
        c.contactId = "14".toList ∧ (row.direction = .reply → row.envelopeTo = c.email) := by
  refine ⟨by decide +kernel, fun row hrow hid => ?_⟩
  obtain ⟨c, hc, hcid, -, -, -, hreply⟩ :=
    (outbox_coherent AliasRouter.sample [] [] _ run_shopMail).1 row hrow _ hid
  exact ⟨c, hc, hcid, fun h => (hreply h).1⟩

end Weiterleitung
