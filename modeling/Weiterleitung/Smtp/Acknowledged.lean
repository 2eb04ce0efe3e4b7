/-
# `Smtp.Acknowledged` — mail that a client was told is accepted is queued

A session runs while the rest of the process does what it likes: between any two operations of
the router others are answered, of other sessions, of the worker, of the operator (`Busy`).
When the client reads `250` after a message, then each recipient has a row of its own in the
outbox, which leads where the recipient led at moments of this very call
(`Meant`), and which stays:

    nobody takes a row out of the outbox                        (`mailStays_answer`)
    a lookup returns what the tables held at a moment           (`heard_findAliasByAddress`, …)
    a recipient that went through has a new row that is meant
      for it                                                    (`heard_handleRecipient`)
    and all of an envelope have, each its own                   (`heard_handleAll`)
    what holds of the calls of the handler holds of a session   (`session_calls`)
    acknowledged mail is queued, for good                       (`acknowledged_queued`)
-/
import Mathlib
import Weiterleitung.Delivery.Release
import Weiterleitung.Lib.Tasks
import Weiterleitung.Smtp.Dialogue
import Weiterleitung.Smtp.InStep
import Weiterleitung.Smtp.Turn
import Weiterleitung.Store.Reachable

namespace Weiterleitung

open Text Prog Lines

/-! ## Rows stay -/

/-- The same mail; only its delivery has gone on, or its alias is gone. -/
structure SameMail (row row' : OutboxRow) : Prop where
  messageId : row'.messageId = row.messageId
  direction : row'.direction = row.direction
  envelopeFrom : row'.envelopeFrom = row.envelopeFrom
  envelopeTo : row'.envelopeTo = row.envelopeTo
  rawPath : row'.rawPath = row.rawPath
  subject : row'.subject = row.subject
  createdAt : row'.createdAt = row.createdAt

theorem SameMail.refl (row : OutboxRow) : SameMail row row :=
  ⟨rfl, rfl, rfl, rfl, rfl, rfl, rfl⟩

theorem SameMail.trans {a b c : OutboxRow} (h : SameMail a b) (h' : SameMail b c) :
    SameMail a c :=
  ⟨h'.messageId.trans h.messageId, h'.direction.trans h.direction,
    h'.envelopeFrom.trans h.envelopeFrom,
    h'.envelopeTo.trans h.envelopeTo, h'.rawPath.trans h.rawPath, h'.subject.trans h.subject,
    h'.createdAt.trans h.createdAt⟩

/-- The mail is in the outbox. -/
def Db.Holds (db : Db) (row : OutboxRow) : Prop := ∃ row' ∈ db.outbox, SameMail row row'

/-- What was in the outbox still is. -/
def MailStays (db db' : Db) : Prop := ∀ row ∈ db.outbox, db'.Holds row

theorem MailStays.refl (db : Db) : MailStays db db := fun row h => ⟨row, h, .refl row⟩

theorem Db.Holds.stays {db db' : Db} {row : OutboxRow} (h : db.Holds row)
    (hstays : MailStays db db') : db'.Holds row := by
  obtain ⟨row', hrow', hsame⟩ := h
  obtain ⟨row'', hrow'', hsame'⟩ := hstays row' hrow'
  exact ⟨row'', hrow'', hsame.trans hsame'⟩

theorem MailStays.trans {a b c : Db} (h : MailStays a b) (h' : MailStays b c) :
    MailStays a c := fun row hrow => (h row hrow).stays h'

theorem mailStays_map {db db' : Db} {g : OutboxRow → OutboxRow}
    (hdb : db'.outbox = db.outbox.map g)
    (hg : ∀ row, SameMail row (g row)) : MailStays db db' :=
  fun row hrow => ⟨g row, hdb ▸ List.mem_map_of_mem hrow, hg row⟩

/-- Rows that are not inserted keep their mail. -/
theorem sameMail_of_answer (o : Op) (c : Chance) (w : World)
    (ho : ∀ row, o ≠ .write (.insertOutbox row)) :
    ∃ g : OutboxRow → OutboxRow, (answer o c w).2.db.outbox = w.db.outbox.map g ∧ ∀ row,
    SameMail row (g row) := by
  have hsame : ∀ db : Db, db.outbox = w.db.outbox →
      ∃ g : OutboxRow → OutboxRow, db.outbox = w.db.outbox.map g ∧
      ∀ row, SameMail row (g row) :=
    fun db h => ⟨id, h.trans (List.map_id _).symm, .refl⟩
  rcases answer_db_cases o c w with he | ⟨u, rfl, hu⟩ | ⟨now, n, rfl, f, hf, he⟩
  · exact hsame _ (congrArg Db.outbox he)
  · generalize (answer (.write u) c w).2.db = db' at hu
    cases effect_of_write hu with
    | removes p mailboxes => exact ⟨_, rfl, fun row => ⟨rfl, rfl, rfl, rfl, rfl, rfl, rfl⟩⟩
    | updates _ _ f g _ hg =>
        refine ⟨g, rfl, fun row => ?_⟩
        obtain ⟨_, _, _, _, _, hrow⟩ := hg row
        rw [hrow]
        exact ⟨rfl, rfl, rfl, rfl, rfl, rfl, rfl⟩
    | addsAlias | addsContact => exact hsame _ rfl
    | addsRow row => exact absurd rfl (ho row)
  · refine ⟨f, congrArg Db.outbox he, fun row => ?_⟩
    obtain ⟨status, hrow⟩ := hf row
    rw [hrow]
    exact ⟨rfl, rfl, rfl, rfl, rfl, rfl, rfl⟩

/-- Nobody takes a row out of the outbox. -/
theorem mailStays_answer (o : Op) (c : Chance) (w : World) :
    MailStays w.db (answer o c w).2.db := by
  by_cases ho : ∃ row, o = .write (.insertOutbox row)
  · obtain ⟨row, rfl⟩ := ho
    rcases answer_write_cases (.insertOutbox row) c w with ⟨db, -, hdb, he⟩ | ⟨-, he⟩
    · obtain ⟨-, rfl⟩ := Db.insertOutbox_eq_some hdb
      rw [he]
      exact fun row hrow => ⟨row, List.mem_append_left _ hrow, .refl row⟩
    · rw [he]
      exact .refl _
  · obtain ⟨g, hrows, hg⟩ := sameMail_of_answer o c w fun row h => ho ⟨row, h⟩
    exact mailStays_map hrows hg

theorem mailStays_interfere :
    ∀ (others : List (Op × Chance)) (w : World), MailStays w.db (interfere others w).db
  | [], w => .refl w.db
  | e :: others, w => (mailStays_answer e.1 e.2 w).trans (mailStays_interfere others _)

/-! ## What a call meets -/

/-- Between its operations anything happens; the tables that its operations meet are noted. -/
def heardRules : Rules Op Res Chance (World × List Db) where
  answer o c s := ((answer o c s.1).1, (answer o c s.1).2, s.2 ++ [s.1.db])
  inv _ := True
  rely s t := s.2 <+: t.2 ∧ MailStays s.1.db t.1.db
  may _ _ := True
  fair _ _ _ := True
  refl _ := ⟨List.prefix_refl _, .refl _⟩
  trans h h' := ⟨h.1.trans h'.1, h.2.trans h'.2⟩
  step {o c s} _ _ _ := ⟨trivial, List.prefix_append _ _, mailStays_answer o c s.1⟩

/-- At some moment the tables were so. -/
def AtSome (moments : List Db) (P : Db → Prop) : Prop := ∃ db ∈ moments, P db

theorem AtSome.lasts {moments moments' : List Db} {P : Db → Prop} (h : AtSome moments P)
    (hp : moments <+: moments') : AtSome moments' P := by
  obtain ⟨db, hdb, hP⟩ := h
  exact ⟨db, hp.subset hdb, hP⟩

section
variable {s : World × List Db}

theorem give_eq_ok {α : Type} {c : Chance} {a b : α} (h : c.give a = .ok b) : a = b := by
  unfold Chance.give at h
  split at h <;> cases h
  rfl

/-! ### Lookups -/

theorem heard_findAliasByAddress (address : EmailAddress) : heardRules.Amids
    (fun found t => AtSome t.2 fun db => db.findAliasByAddress address.normalised = found)
    (findAliasByAddress address) s :=
  Rules.amid_op fun t _ _ => ⟨trivial, fun _ _ _ _ _ hr =>
    ⟨t.1.db, List.mem_append_right _ List.mem_cons_self, give_eq_ok hr⟩⟩

theorem heard_findContactByReverseAlias (address : EmailAddress) : heardRules.Amids
    (fun found t => AtSome t.2 fun db => db.findContactByReverseAlias address.normalised
      = found)
    (findContactByReverseAlias address) s :=
  Rules.amid_op fun t _ _ => ⟨trivial, fun _ _ _ _ _ hr =>
    ⟨t.1.db, List.mem_append_right _ List.mem_cons_self, give_eq_ok hr⟩⟩

theorem heard_findContact (aliasId email : Str) : heardRules.Amids
    (fun found t => AtSome t.2 fun db => db.findContact aliasId email = found)
    (findContact aliasId email) s :=
  Rules.amid_op fun t _ _ => ⟨trivial, fun _ _ _ _ _ hr =>
    ⟨t.1.db, List.mem_append_right _ List.mem_cons_self, give_eq_ok hr⟩⟩

/-- Nothing is known of what a program returns. -/
theorem heard_any {α : Type} (p : Prog Op Res α) : heardRules.Amid (fun _ _ => True) p s :=
  Rules.amid_of_uses (P := fun _ => True) (fun _ _ _ => trivial)
    (uses_all (fun _ => trivial) p) s

theorem heard_anys {ε α : Type} (x : Fallible ε Op Res α) :
    heardRules.Amids (fun _ _ => True) x s :=
  Rules.amids_any (heard_any x.run)

/-- The contact that is returned was found. -/
theorem heard_getOrCreateContact (aliasId : Str) (email : EmailAddress)
    (name : Option Str) (p d : Str) :
    heardRules.Amids (fun contact t => AtSome t.2 fun db => db.findContact aliasId
      email.normalised = some contact) (getOrCreateContact aliasId email name p d) s := by
  unfold getOrCreateContact
  refine Rules.amids_seq (heard_findContact aliasId email.normalised)
    fun found t _ hfound => ?_
  cases found with
  | some existing => exact Rules.amids_pure hfound
  | none =>
      dsimp only
      refine Rules.amids_seq (heard_anys _) fun contactId t _ _ =>
        Rules.amids_seq (heard_anys _) fun token t _ _ =>
          Rules.amids_seq (heard_anys _) fun createdAt t _ _ => Rules.amids_seq (heard_anys _)
            fun _ t _ _ => ?_
      refine Rules.amids_seq (heard_findContact aliasId email.normalised)
        fun found t _ hfound => ?_
      cases found with
      | some contact => exact Rules.amids_pure hfound
      | none => exact Rules.amids_throw _ _

/-! ### Queueing -/

/-- A row that is in the outbox, and that was new since `s`. -/
structure IsNew (s t : World × List Db) (row : OutboxRow) : Prop where
  fresh : ∀ old ∈ s.1.db.outbox, old.messageId ≠ row.messageId
  holds : t.1.db.Holds row

theorem IsNew.later {t u : World × List Db} {row : OutboxRow} (h : IsNew s t row)
    (hrely : heardRules.rely t u) :
    IsNew s u row :=
  ⟨h.fresh, h.holds.stays hrely.2⟩

theorem IsNew.earlier {t u : World × List Db} {row : OutboxRow} (hrely : heardRules.rely s t)
    (h : IsNew t u row) :
    IsNew s u row := by
  refine ⟨fun old hold hid => ?_, h.holds⟩
  obtain ⟨old', hold', hsame⟩ := hrely.2 old hold
  exact h.fresh old' hold' (hsame.messageId.trans hid)

theorem heard_enqueue (mailDir : Str) (message : NewOutboundMessage) : heardRules.Amids
    (fun messageId t => ∃ now, IsNew s t (message.row mailDir messageId now))
    (enqueue mailDir message) s := by
  unfold enqueue
  refine Rules.amids_seq (heard_anys _) fun _ t hst _ => Rules.amids_seq (heard_anys _)
    fun messageId u htu _ =>
    Rules.amids_seq (heard_anys _) fun _ v huv _ => Rules.amids_seq (heard_anys _)
      fun now w hvw _ => ?_
  refine Rules.amids_seq
    (m := fun _ x => IsNew w x (message.row mailDir messageId now.toRfc3339)) ?_
    fun _ x hwx hnew => Rules.amids_pure ⟨now.toRfc3339, ?_⟩
  · refine Rules.amids_mapErr
      (Rules.amid_op fun x hwx _ => ⟨trivial, fun c _ _ _ r hr => IsNew.earlier hwx ?_⟩)
    have hok :
        (answer (.write (.insertOutbox (message.row mailDir messageId now.toRfc3339))) c x.1).1
          = .ok r := hr
    rcases answer_write_cases (.insertOutbox (message.row mailDir messageId now.toRfc3339))
      c x.1 with
      ⟨db, -, hdb, he⟩ | ⟨-, he⟩
    · obtain ⟨hfresh, rfl⟩ := Db.insertOutbox_eq_some hdb
      refine ⟨hfresh, ?_⟩
      show (answer (.write (.insertOutbox (message.row mailDir messageId now.toRfc3339)))
        c x.1).2.db.Holds _
      rw [he]
      exact ⟨_, List.mem_append_right _ List.mem_cons_self, .refl _⟩
    · rw [he] at hok
      cases hok
  · exact IsNew.earlier
      (heardRules.trans hst (heardRules.trans htu (heardRules.trans huv hvw))) hnew

/-! ### The recipient -/

namespace AliasRouter

/-- Where a recipient leads, at moments of the call. -/
inductive Resolves (router : AliasRouter) (mailFrom recipient : Str) (moments : List Db) :
    Route → Prop
  | forward (address : EmailAddress) (found : AliasWithMailbox) :
      EmailAddress.parse recipient = .ok address →
      router.aliases.ownsDomain address.domain = true →
      AtSome moments (fun db => db.findContactByReverseAlias address.normalised = none) →
      AtSome moments (fun db => db.findAliasByAddress address.normalised = some found) →
      found.toAlias.enabled = true →
      Resolves router mailFrom recipient moments
        (.forward found.toAlias.aliasId found.toAlias.address)
  | reply (address : EmailAddress) (contact : ContactWithAlias) :
      EmailAddress.parse recipient = .ok address →
      router.aliases.ownsDomain address.domain = true →
      AtSome moments
        (fun db => db.findContactByReverseAlias address.normalised = some contact) →
      eqIgnoreAsciiCase contact.mailboxEmail (trim mailFrom) = true →
      contact.aliasEnabled = true →
      Resolves router mailFrom recipient moments
        (.reply contact.toContact.contactId contact.aliasAddress contact.toContact.email)

theorem heard_route (router : AliasRouter) (mailFrom recipient : Str) : heardRules.Amids
    (fun r t => router.Resolves mailFrom recipient t.2 r)
    (router.route mailFrom recipient) s := by
  unfold route
  refine Rules.amids_seq (m := fun address _ => EmailAddress.parse recipient = .ok address)
    (Rules.amids_computed fun address h => ?_) fun address t _ hparse => ?_
  · cases hp : EmailAddress.parse recipient with
    | error e => rw [hp] at h; cases h
    | ok a => rw [hp] at h; cases h; rfl
  · split
    · exact Rules.amids_throw _ _
    · next hown =>
        have howns : router.aliases.ownsDomain address.domain = true := by simpa using hown
        refine Rules.amids_seq (Rules.amids_mapErr (heard_findContactByReverseAlias address))
          fun contact u _ hcontact => ?_
        cases contact with
        | some contact =>
            dsimp only
            split
            · exact Rules.amids_throw _ _
            · next hmailbox =>
                split
                · exact Rules.amids_throw _ _
                · next henabled =>
                    exact Rules.amids_pure
                      (.reply address contact hparse howns hcontact (by simpa using hmailbox)
                      (by simpa using henabled))
        | none =>
            dsimp only
            refine Rules.amids_seq (Rules.amids_mapErr (heard_findAliasByAddress address))
              fun found v huv hfound => ?_
            cases found with
            | none => exact Rules.amids_throw _ _
            | some found =>
                dsimp only
                split
                · exact Rules.amids_seq (heard_anys _) fun _ _ _ _ => Rules.amids_throw _ _
                · next henabled =>
                    exact Rules.amids_pure
                      (.forward address found hparse howns (hcontact.lasts huv.1) hfound
                      (by simpa using henabled))

/-- The row takes the message there. -/
def Fits (envelope : Envelope) (moments : List Db) (row : OutboxRow) : Route → Prop
  | .forward aliasId aliasAddress =>
      row.direction = .forward ∧ row.aliasId = some aliasId ∧
      ∃ address found sender contact, EmailAddress.parse aliasAddress = .ok address ∧
        AtSome moments (fun db => db.findAliasByAddress address.normalised = some found) ∧
        envelopeSender envelope.mailFrom
          (headerValue (splitHeadersBody envelope.data).1 "from") = .ok sender ∧
        AtSome moments (fun db => db.findContact aliasId sender.normalised = some contact) ∧
        row.contactId = some contact.contactId ∧ row.envelopeFrom = contact.reverseAlias ∧
        row.envelopeTo = found.mailboxEmail
  | .reply contactId aliasAddress contactEmail =>
      row.direction = .reply ∧ row.contactId = some contactId ∧
        row.envelopeFrom = aliasAddress ∧
      row.envelopeTo = contactEmail

/-- The row is for this recipient of the envelope. -/
def Meant (router : AliasRouter) (envelope : Envelope) (moments : List Db) (recipient : Str)
    (row : OutboxRow) : Prop :=
  ∃ r, router.Resolves envelope.mailFrom recipient moments r ∧ Fits envelope moments row r

theorem Resolves.lasts {router : AliasRouter} {mailFrom recipient : Str}
    {moments moments' : List Db} {r : Route}
    (h : router.Resolves mailFrom recipient moments r) (hp : moments <+: moments') :
    router.Resolves mailFrom recipient moments' r := by
  cases h with
  | forward address found hparse hown hcontact hfound henabled =>
      exact .forward address found hparse hown (hcontact.lasts hp) (hfound.lasts hp) henabled
  | reply address contact hparse hown hcontact hmailbox henabled =>
      exact .reply address contact hparse hown (hcontact.lasts hp) hmailbox henabled

theorem Fits.lasts {envelope : Envelope} {moments moments' : List Db} {row : OutboxRow}
    {r : Route} (h : Fits envelope moments row r) (hp : moments <+: moments') :
    Fits envelope moments' row r := by
  cases r with
  | forward aliasId aliasAddress =>
      obtain ⟨hdirection, halias, address, found, sender, contact, hparse, hfound,
          hsender, hcontact, hrow⟩ := h
      exact ⟨hdirection, halias, address, found, sender, contact, hparse, hfound.lasts hp,
        hsender, hcontact.lasts hp, hrow⟩
  | reply contactId aliasAddress contactEmail => exact h

theorem Meant.lasts {router : AliasRouter} {envelope : Envelope} {moments moments' : List Db}
    {recipient : Str} {row : OutboxRow} (h : router.Meant envelope moments recipient row)
    (hp : moments <+: moments') :
    router.Meant envelope moments' recipient row := by
  obtain ⟨r, hr, hfits⟩ := h
  exact ⟨r, hr.lasts hp, hfits.lasts hp⟩

theorem heard_queueForward (router : AliasRouter) (aliasId aliasAddress : Str)
    (envelope : Envelope) :
    heardRules.Amids (fun _ t => ∃ row, Fits envelope t.2 row (.forward aliasId aliasAddress) ∧
      IsNew s t row) (router.queueForward aliasId aliasAddress envelope) s := by
  unfold queueForward
  refine Rules.amids_seq (m := fun address _ => EmailAddress.parse aliasAddress = .ok address)
    (Rules.amids_computed fun _ h => h) fun address t hst hparse => ?_
  refine Rules.amids_seq (heard_findAliasByAddress address) fun found u htu hfound => ?_
  cases found with
  | none => exact Rules.amids_throw _ _
  | some found =>
      dsimp only
      refine Rules.amids_seq (m := fun sender _ => envelopeSender envelope.mailFrom
        (headerValue (splitHeadersBody envelope.data).1 "from") = .ok sender)
        (Rules.amids_computed fun _ h => h) fun sender v huv hsender => ?_
      refine Rules.amids_seq (heard_getOrCreateContact _ _ _ _ _)
        fun contact w hvw hcontact => ?_
      refine Rules.amids_seq (heard_enqueue _ _)
        fun messageId x hwx hnew => Rules.amids_pure ?_
      obtain ⟨now, hnew⟩ := hnew
      have hsw := heardRules.trans hst (heardRules.trans htu (heardRules.trans huv hvw))
      refine ⟨_, ⟨rfl, rfl, address, found, sender, contact, hparse, ?_, hsender,
        hcontact.lasts hwx.1, rfl, rfl, rfl⟩, hnew.earlier hsw⟩
      exact hfound.lasts (heardRules.trans huv (heardRules.trans hvw hwx)).1

theorem heard_queueReply (router : AliasRouter) (contactId aliasAddress contactEmail : Str)
    (envelope : Envelope) :
    heardRules.Amids (fun _ t => ∃ row, Fits envelope t.2 row
      (.reply contactId aliasAddress contactEmail) ∧ IsNew s t row)
      (router.queueReply contactId aliasAddress contactEmail envelope) s := by
  unfold queueReply
  refine Rules.amids_seq (heard_anys _) fun address t hst _ => Rules.amids_seq (heard_anys _)
    fun found u htu _ => ?_
  refine Rules.amids_seq (heard_enqueue _ _) fun messageId v huv hnew => Rules.amids_pure ?_
  obtain ⟨now, hnew⟩ := hnew
  exact ⟨_, ⟨rfl, rfl, rfl, rfl⟩, hnew.earlier (heardRules.trans hst htu)⟩

/-- A recipient that went through has a new row, which is meant for it. -/
theorem heard_handleRecipient (router : AliasRouter) (envelope : Envelope) (recipient : Str) :
    heardRules.Amids (fun _ t => ∃ row, router.Meant envelope t.2 recipient row ∧
      IsNew s t row) (router.handleRecipient envelope recipient) s := by
  rw [handleRecipient_eq]
  refine Rules.amids_seq (m := fun _ t => ∃ row, router.Meant envelope t.2 recipient row ∧
    IsNew s t row) ?_ fun _ t _ hplaced => ?_
  · refine Rules.amids_seq
      (Rules.amids_mapErr (heard_route router envelope.mailFrom recipient))
      fun r t hst hr => ?_
    refine Rules.amids_mapErr ?_
    cases r with
    | forward aliasId aliasAddress =>
        refine Rules.amids_seq (heard_queueForward router aliasId aliasAddress envelope)
          fun _ u htu hrow => ?_
        obtain ⟨row, hfits, hnew⟩ := hrow
        exact Rules.amids_pure ⟨row, ⟨_, hr.lasts htu.1, hfits⟩, hnew.earlier hst⟩
    | reply contactId aliasAddress contactEmail =>
        refine Rules.amids_seq (heard_queueReply router contactId aliasAddress contactEmail
          envelope) fun _ u htu hrow => ?_
        obtain ⟨row, hfits, hnew⟩ := hrow
        exact Rules.amids_pure ⟨row, ⟨_, hr.lasts htu.1, hfits⟩, hnew.earlier hst⟩
  · obtain ⟨row, hmeant, hnew⟩ := hplaced
    exact Rules.amids_later (heard_anys _) fun _ u htu _ =>
      ⟨row, hmeant.lasts htu.1, hnew.later htu⟩

/-- Each recipient of an envelope that went through has a row of its own. -/
theorem heard_handleAll (router : AliasRouter) (envelope : Envelope) (recipients : List Str) :
    ∀ s : World × List Db,
    heardRules.Amids
      (fun _ t => ∃ rows, List.Forall₂ (router.Meant envelope t.2) recipients rows ∧
      (rows.map (·.messageId)).Nodup ∧ ∀ row ∈ rows, IsNew s t row)
        (router.handleAll envelope recipients) s := by
  induction recipients with
  | nil =>
      exact fun s => Rules.amids_pure ⟨[], .nil, List.nodup_nil, fun row hrow => by cases hrow⟩
  | cons recipient recipients ih =>
      intro s
      refine Rules.amids_seq (heard_handleRecipient router envelope recipient)
        fun _ t hst hfirst => ?_
      obtain ⟨row, hmeant, hnew⟩ := hfirst
      refine Rules.amids_later (ih t) fun _ u htu hrest => ?_
      obtain ⟨rows, hmeants, hnodup, hnews⟩ := hrest
      refine ⟨row :: rows, .cons (hmeant.lasts htu.1) hmeants, ?_, ?_⟩
      · refine List.nodup_cons.mpr ⟨fun hin => ?_, hnodup⟩
        -- the later rows are new after the first one was there
        obtain ⟨other, hother, hid⟩ := List.mem_map.mp hin
        obtain ⟨row', hrow', hsame⟩ := hnew.holds
        exact (hnews other hother).fresh row' hrow' (hsame.messageId.trans hid.symm)
      · intro other hother
        rcases List.mem_cons.mp hother with rfl | hother
        · exact hnew.later htu
        · exact (hnews other hother).earlier hst

end AliasRouter

end

/-! ## Sessions -/

/-- A call of `handle`, and the tables that its operations met. -/
structure Call where
  envelope : Envelope
  result : Except Str Unit
  moments : List Db

def Call.accepted (c : Call) : Bool := c.result.toBool

/-- A busy machine, and the calls so far. -/
structure Overheard where
  busy : Busy
  calls : List Call

/-- A busy machine that notes the tables it meets. -/
def observed : Prog.Handler Op Res (Busy × List Db) := fun o s =>
  ((between o s.1).1, (between o s.1).2, s.2 ++ [s.1.met.db])

/-- The router on a busy machine. -/
def AliasRouter.overheard (router : AliasRouter) : MailHandler Overheard where
  verifyRecipient mailFrom recipient s :=
    ((run between (router.verifyRecipient mailFrom recipient) s.busy).1,
      { s with busy := (run between (router.verifyRecipient mailFrom recipient) s.busy).2 })
  handle envelope s :=
    ((run observed (router.handle envelope).run (s.busy, [])).1,
      { busy := (run observed (router.handle envelope).run (s.busy, [])).2.1
        calls :=
          s.calls ++ [⟨envelope, (run observed (router.handle envelope).run (s.busy, [])).1,
          (run observed (router.handle envelope).run (s.busy, [])).2.2⟩] })

theorem mailStays_between (o : Op) (b : Busy) :
    MailStays b.host.world.db (between o b).2.host.world.db :=
  (mailStays_interfere (b.others b.host.tick) b.host.world).trans
    (mailStays_answer o b.host.chance b.met)

theorem mailStays_run {α : Type} (p : Prog Op Res α) (b : Busy) :
    MailStays b.host.world.db (run between p b).2.host.world.db :=
  run_rel between (R := fun b b' => MailStays b.host.world.db b'.host.world.db)
    (fun _ => .refl _) MailStays.trans
    (fun o _ => mailStays_between o) (uses_all (P := fun _ => True) (fun _ => trivial) p) b

/-- What the rules promise comes true on a busy machine. -/
theorem amid_observed {α : Type} {post : α → World × List Db → Prop} :
    ∀ {p : Prog Op Res α} {b : Busy}
    {moments : List Db}, heardRules.Amid post p (b.host.world, moments) →
    post (run observed p (b, moments)).1
      ((run observed p (b, moments)).2.1.host.world, (run observed p (b, moments)).2.2)
  | .ret _, _, _, h => h
  | .ask o k, b, moments, h => by
      have hmet : heardRules.rely (b.host.world, moments) (b.met, moments) :=
        ⟨List.prefix_refl _, mailStays_interfere (b.others b.host.tick) b.host.world⟩
      have hnext := (h (b.met, moments) hmet trivial).2 b.host.chance trivial
      exact amid_observed (p := k (between o b).1) (b := (between o b).2) hnext

/-- The same, of what stays in the outbox meanwhile. -/
theorem mailStays_observed {α : Type} (p : Prog Op Res α) (b : Busy) (moments : List Db) :
    MailStays b.host.world.db (run observed p (b, moments)).2.1.host.world.db :=
  run_rel observed (R := fun s s' => MailStays s.1.host.world.db s'.1.host.world.db)
    (fun _ => .refl _) MailStays.trans
    (fun o _ s => mailStays_between o s.1) (uses_all (P := fun _ => True) (fun _ => trivial) p)
    (b, moments)

section
variable {σ : Type} {handler : MailHandler σ} {config : SessionConfig} {broken : Bool}

/-- What holds of the calls of the handler and of its state, call after
call, holds of a session. -/
theorem session_calls {P : List (Envelope × Except Str Unit) → σ → Prop}
    (hverify : ∀ log mailFrom recipient h, P log h →
      P log (handler.verifyRecipient mailFrom recipient h).2)
    (hhandle : ∀ log envelope h, P log h →
      P (log ++ [(envelope, (handler.handle envelope h).1)]) (handler.handle envelope h).2)
      (fuel : Nat) :
    ∀ (room : Nat) (s : SessionState) (lines : List Bytes) (h : σ)
    (log : List (Envelope × Except Str Unit)), P log h →
      P (log ++ (sessionLoop handler config broken fuel room s lines h).trace.filterMap
        Exchange.handled) (sessionLoop handler config broken fuel room s lines h).handler := by
  induction fuel with
  | zero =>
      intro room s lines h log hP
      simpa [sessionLoop] using hP
  | succ fuel ih =>
      intro room s lines h log hP
      cases lines with
      | nil => simpa [sessionLoop] using hP
      | cons line rest =>
          rw [sessionLoop]
          cases readLine broken line with
          | error e => simpa using hP
          | ok text =>
              dsimp only
              generalize hdef : command handler config broken room s
                (trimLineEnd text) rest h = step
              have hstep : P (log ++ step.exchange.handled.toList) step.handler := by
                cases command_handled hdef.symm with
                | handed data lines' result h' _ _ hresult =>
                    have hnext := hhandle log { s.envelope with data := data } h hP
                    rw [hresult] at hnext
                    exact hnext
                | accept address h' _ _ hverdict =>
                    have hnext := hverify log s.envelope.mailFrom address h hP
                    rw [hverdict] at hnext
                    exact (List.append_nil log).symm ▸ hnext
                | reject address reason h' _ _ hverdict =>
                    have hnext := hverify log s.envelope.mailFrom address h hP
                    rw [hverdict] at hnext
                    exact (List.append_nil log).symm ▸ hnext
                | ehlo | helo | rset | mail | idle | full | lost | refused | quit =>
                    exact (List.append_nil log).symm ▸ hP
              by_cases hroom : room < step.exchange.replies.length
              · rw [if_pos hroom]
                have hcut : (step.exchange.cut room).handled = step.exchange.handled := rfl
                cases he : step.exchange.handled <;> simpa [he, hcut] using hstep
              · rw [if_neg hroom]
                cases step.next with
                | stop result => cases he : step.exchange.handled <;> simpa [he] using hstep
                | more s' lines' =>
                    have hrest :=
                      ih (room - step.exchange.replies.length) s' lines' step.handler _ hstep
                    cases he : step.exchange.handled <;> simpa [he] using hrest

end

/-! ## Acknowledged mail -/

/-- Every message that was accepted so far is in the outbox, with a row of its
own for each recipient. -/
def AllQueued (router : AliasRouter) (s : Overheard) (rows : List (List OutboxRow)) : Prop :=
  List.Forall₂
    (fun c rows => List.Forall₂ (router.Meant c.envelope c.moments) c.envelope.rcptTo rows)
    (s.calls.filter Call.accepted) rows ∧
  (rows.flatten.map (·.messageId)).Nodup ∧ ∀ row ∈ rows.flatten, s.busy.host.world.db.Holds row

theorem allQueued_verify {router : AliasRouter} {s : Overheard} {rows : List (List OutboxRow)}
    (h : AllQueued router s rows) (mailFrom recipient : Str) :
    AllQueued router (router.overheard.verifyRecipient mailFrom recipient s).2 rows :=
  ⟨h.1, h.2.1, fun row hrow => (h.2.2 row hrow).stays (mailStays_run _ s.busy)⟩

theorem allQueued_handle {router : AliasRouter} {s : Overheard} {rows : List (List OutboxRow)}
    (h : AllQueued router s rows) (envelope : Envelope) :
    ∃ rows', AllQueued router (router.overheard.handle envelope s).2 rows' := by
  obtain ⟨hmeant, hnodup, hholds⟩ := h
  have hstays := mailStays_observed (router.handle envelope).run s.busy []
  have hqueued : ∀ u, (run observed (router.handle envelope).run (s.busy, [])).1 = .ok u →
      ∃ new, List.Forall₂
        (router.Meant envelope (run observed (router.handle envelope).run (s.busy, [])).2.2)
          envelope.rcptTo new ∧ (new.map (·.messageId)).Nodup ∧ ∀ row ∈ new,
          IsNew (s.busy.host.world, [])
            ((run observed (router.handle envelope).run (s.busy, [])).2.1.host.world,
              (run observed (router.handle envelope).run (s.busy, [])).2.2) row :=
    amid_observed (router.heard_handleAll envelope envelope.rcptTo (s.busy.host.world, []))
  unfold AllQueued AliasRouter.overheard
  dsimp only
  generalize run observed (router.handle envelope).run (s.busy, [])
    = outcome at hstays hqueued ⊢
  obtain ⟨result, busy, moments⟩ := outcome
  dsimp only at hstays hqueued ⊢
  cases result with
  | error e =>
      refine ⟨rows, ?_, hnodup, fun row hrow => (hholds row hrow).stays hstays⟩
      rw [List.filter_append]
      simpa [Call.accepted, Except.toBool] using hmeant
  | ok u =>
      obtain ⟨new, hnewMeant, hnewNodup, hnew⟩ := hqueued u rfl
      refine ⟨rows ++ [new], ?_, ?_, ?_⟩
      · rw [List.filter_append]
        exact List.rel_append hmeant (.cons hnewMeant .nil)
      · rw [List.flatten_append, List.flatten_singleton, List.map_append]
        refine List.nodup_append.mpr ⟨hnodup, hnewNodup, ?_⟩
        -- the new rows are new after the others were there
        rintro id hid id' hid' rfl
        obtain ⟨row, hrow, rfl⟩ := List.mem_map.mp hid
        obtain ⟨row', hrow', hsame⟩ := List.mem_map.mp hid'
        obtain ⟨old, hold, hmail⟩ := hholds row hrow
        exact (hnew row' hrow').fresh old hold (hmail.messageId.trans hsame.symm)
      · intro row hrow
        rw [List.flatten_append, List.flatten_singleton] at hrow
        rcases List.mem_append.mp hrow with hrow | hrow
        · exact (hholds row hrow).stays hstays
        · exact (hnew row hrow).holds

def messageAccepted : Str := "250 2.0.0 Message accepted"

section
variable {σ : Type} {handler : MailHandler σ} {config : SessionConfig} {broken : Bool}

/-- After a `DATA` only an accepted message is told to be one. -/
theorem handled_of_accepted {room : Nat} {s : SessionState} {text : Str} {lines : List Bytes}
    {h : σ} {step : Step σ} (hstep : Handled handler config broken room s text lines h step)
    (hverb : (splitCommand text).1 = .data)
    (hreply : messageAccepted ∈ step.exchange.replies) :
    ∃ envelope, step.exchange.handled = some (envelope, .ok ()) := by
  cases hstep with
  | handed data rest result h' =>
      cases result with
      | ok u => exact ⟨_, rfl⟩
      | error reason =>
          exfalso
          rcases List.mem_cons.mp hreply with hstart | hrefused
          · exact absurd hstart (by decide)
          · have hhead := congrArg List.head? (List.mem_singleton.mp hrefused)
            exact absurd (show some '2' = some '4' from hhead) (by decide)
  | refused reply rest _ hread =>
      exfalso
      have hnone : ∀ reply ∈ [tooLargeReply, closedReply],
          messageAccepted ∉ [startData, reply] := by decide
      rcases readData_reply hread with rfl | rfl
      · exact hnone _ List.mem_cons_self hreply
      · exact hnone _ (List.mem_cons_of_mem _ List.mem_cons_self) hreply
  | full | lost =>
      have hnone : messageAccepted ∉ [startData] := by decide
      exact absurd hreply hnone
  | idle reply hidle =>
      rw [hverb] at hidle
      exfalso
      have hsame : messageAccepted = reply := List.mem_singleton.mp hreply
      exact absurd (hsame ▸ hidle) (by decide)
  | ehlo h | helo h | rset h | mail _ h | accept _ _ h | reject _ _ _ h | quit h =>
      rw [hverb] at h
      cases h

theorem accepted_handled (fuel room : Nat) (s : SessionState) (lines : List Bytes) (h : σ) :
    ∀ x ∈ (sessionLoop handler config broken fuel room s lines h).trace, x.verb = .data →
      messageAccepted ∈ x.replies → ∃ envelope, x.handled = some (envelope, .ok ()) := by
  refine sessionLoop_forall handler config broken ?_ fuel room s lines h List.suffix_rfl
  intro room s line rest text h _ _ x hx
  have hcommand := (command_exchange handler config broken room s (trimLineEnd text) rest h).1
  have key : x.verb = .data → messageAccepted ∈ x.replies → ∃ envelope,
      x.handled = some (envelope, .ok ()) := by
    intro hverb hreply
    rw [hx] at hverb hreply ⊢
    rw [Exchange.verb, hcommand] at hverb
    exact handled_of_accepted (command_handled rfl) hverb hreply
  exact ⟨fun _ => key, fun hverb hreply => key hverb (List.mem_of_mem_take hreply)⟩

end

/-- When a client read that its message was accepted, the handler accepted it.  The calls of
the handler are those of the trace, and each recipient of an accepted one has its own row,
which nobody takes away. -/
theorem acknowledged_queued (router : AliasRouter) (config : SessionConfig) (broken : Bool)
    (room : Nat) (input : Bytes) (b : Busy) :
    let outcome := handleSession router.overheard config broken room input ⟨b, []⟩
    (∀ x ∈ outcome.trace, x.verb = .data → messageAccepted ∈ x.replies →
      ∃ envelope, x.handled = some (envelope, .ok ())) ∧
    outcome.trace.filterMap Exchange.handled = outcome.handler.calls.map
      (fun c => (c.envelope, c.result)) ∧
    ∃ rows, AllQueued router outcome.handler rows ∧
      ∀ later, ∀ row ∈ rows.flatten,
      (interfere later outcome.handler.busy.host.world).db.Holds row := by
  intro outcome
  have hcalls : outcome.trace.filterMap Exchange.handled = outcome.handler.calls.map
      (fun c => (c.envelope, c.result)) ∧
      ∃ rows, AllQueued router outcome.handler rows := by
    have hempty : AllQueued router ⟨b, []⟩ [] :=
      ⟨.nil, List.nodup_nil, fun row hrow => by cases hrow⟩
    by_cases hroom : room = 0
    · have hdef : outcome = ⟨[], ⟨b, []⟩, .error .broken⟩ := if_pos hroom
      rw [hdef]
      exact ⟨rfl, [], hempty⟩
    · have hdef : outcome = sessionLoop router.overheard config broken
          ((splitInclusive 10 input).length + 1) (room - 1)
          .initial (splitInclusive 10 input) ⟨b, []⟩ := if_neg hroom
      rw [hdef]
      refine session_calls
        (P := fun log s => log = s.calls.map (fun c => (c.envelope, c.result)) ∧
        ∃ rows, AllQueued router s rows) ?_ ?_ _ _ _ _ _ [] ⟨rfl, [], hempty⟩
      · rintro log mailFrom recipient s ⟨hlog, rows, hrows⟩
        exact ⟨hlog, rows, allQueued_verify hrows mailFrom recipient⟩
      · rintro log envelope s ⟨hlog, rows, hrows⟩
        refine ⟨?_, allQueued_handle hrows envelope⟩
        unfold AliasRouter.overheard
        rw [hlog, List.map_append]
        rfl
  obtain ⟨hlog, rows, hrows⟩ := hcalls
  refine ⟨?_, hlog, rows, hrows, fun later row hrow => (hrows.2.2 row hrow).stays
    (mailStays_interfere later _)⟩
  by_cases hroom : room = 0
  · have hdef : outcome = ⟨[], ⟨b, []⟩, .error .broken⟩ := if_pos hroom
    rw [hdef]
    exact fun x hx => by cases hx
  · have hdef : outcome = sessionLoop router.overheard config broken
        ((splitInclusive 10 input).length + 1) (room - 1)
        .initial (splitInclusive 10 input) ⟨b, []⟩ := if_neg hroom
    rw [hdef]
    exact accepted_handled _ _ _ _ _

end Weiterleitung
