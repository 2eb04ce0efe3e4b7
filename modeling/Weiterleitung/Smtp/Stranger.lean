/-
# `Smtp.Stranger` — what a stranger learns of the mailboxes

Mailbox addresses are joined into both lookups of `route`, one of them decides who may reply,
and they end up in the outbox.  None of that comes back in a reply, as long as the client never
gives the address of a mailbox as its own: then a contact is refused without regard to the
address, and a forward goes on with nothing of it but the recipient of the row.

    a session runs alike if its handler answers alike        (`sessionLoop_alike`)
    the router does, for senders that are no mailbox         (`alikeFor_mailHandler`)
    two stores that differ in mailbox addresses get the
      same replies                                           (`replies_blind`)
-/
import Mathlib
import Weiterleitung.Smtp.Router
import Weiterleitung.Store.Blind

namespace Weiterleitung

open Text Prog Utf8 Lines

/-! ## Sessions that run alike -/

/-- In related states the handler answers alike, for senders that are `ok`. -/
structure MailHandler.AlikeFor {σ : Type} (handler : MailHandler σ)
    (R : σ → σ → Prop) (ok : Str → Prop) : Prop where
  verifyRecipient : ∀ {mailFrom : Str} (recipient : Str) {h h' : σ}, ok mailFrom → R h h' →
    (handler.verifyRecipient mailFrom recipient h).1 =
      (handler.verifyRecipient mailFrom recipient h').1 ∧
      R (handler.verifyRecipient mailFrom recipient h).2
        (handler.verifyRecipient mailFrom recipient h').2
  handle : ∀ (envelope : Envelope) {h h' : σ}, ok envelope.mailFrom → R h h' →
    (handler.handle envelope h).1 = (handler.handle envelope h').1 ∧
      R (handler.handle envelope h).2 (handler.handle envelope h').2

/-- The sender of an open transaction is `ok`. -/
def OpenedBy (ok : Str → Prop) (s : SessionState) : Prop :=
  s.haveSender = true ∨ s.envelope.rcptTo ≠ [] → ok s.envelope.mailFrom

section
variable {σ : Type} {handler : MailHandler σ} {R : σ → σ → Prop} {ok : Str → Prop}

theorem openedBy_of_closed {s : SessionState} (hsender : s.haveSender = false)
    (hrcpt : s.envelope.rcptTo = []) :
    OpenedBy ok s := by
  rintro (hopen | hopen)
  · rw [hsender] at hopen
    cases hopen
  · exact absurd hrcpt hopen

/-- A transaction is opened by a successful `MAIL`. -/
theorem OpenedBy.next {broken : Bool} {maxMessageSize : Nat} {s s' : SessionState}
    {x : Exchange} {lines : List Bytes}
    (h : OpenedBy ok s) (hdoes : Does broken maxMessageSize s x (.more s' lines))
    (hx : ∀ address, x.opened = some address → ok address) : OpenedBy ok s' := by
  cases hdoes with
  | close _ _ _ _ hsender hrcpt => exact openedBy_of_closed hsender hrcpt
  | handle => exact openedBy_of_closed rfl rfl
  | mail address _ _ hopened => exact fun _ => hx address hopened
  | rcpt _ _ hs => exact fun _ => h (Or.inl hs)
  | idle => exact h

/-- One command is answered alike. -/
theorem command_alike (hhandler : handler.AlikeFor R ok) (config : SessionConfig)
    (broken : Bool) (room : Nat) {s : SessionState} (hs : OpenedBy ok s) (text : Str)
    (lines : List Bytes) {h h' : σ} (hR : R h h') :
    (command handler config broken room s text lines h).exchange
        = (command handler config broken room s text lines h').exchange ∧
      (command handler config broken room s text lines h).next
        = (command handler config broken room s text lines h').next ∧
      R (command handler config broken room s text lines h).handler
        (command handler config broken room s text lines h').handler := by
  cases hverb : (splitCommand text).1 with
  | mail =>
      simp only [command, hverb]
      split
      · split <;> exact ⟨rfl, rfl, hR⟩
      · exact ⟨rfl, rfl, hR⟩
  | rcpt =>
      simp only [command, hverb]
      split
      · next hsender =>
          split
          · exact ⟨rfl, rfl, hR⟩
          · split
            · next address _ =>
                obtain ⟨hsame, hR'⟩ := hhandler.verifyRecipient address
                  (hs (Or.inl hsender)) hR
                rcases hv : handler.verifyRecipient s.envelope.mailFrom address h
                  with ⟨verdict, t⟩
                rcases hv' : handler.verifyRecipient s.envelope.mailFrom address h'
                  with ⟨verdict', t'⟩
                rw [hv, hv'] at hsame hR'
                obtain rfl : verdict = verdict' := hsame
                cases verdict <;> exact ⟨rfl, rfl, hR'⟩
            · exact ⟨rfl, rfl, hR⟩
      · exact ⟨rfl, rfl, hR⟩
  | data =>
      simp only [command, hverb]
      split
      · exact ⟨rfl, rfl, hR⟩
      · next hrcpt =>
          split
          · exact ⟨rfl, rfl, hR⟩
          · split
            · exact ⟨rfl, rfl, hR⟩
            · next data rest _ =>
                have hopen : ok s.envelope.mailFrom := hs (Or.inr (by simpa using hrcpt))
                obtain ⟨hsame, hR'⟩ :=
                  hhandler.handle { s.envelope with data := data } hopen hR
                rw [hsame]
                exact ⟨rfl, rfl, hR'⟩
            · exact ⟨rfl, rfl, hR⟩
  | quit =>
      simp only [command, hverb, true_and]
      exact hR
  | _ =>
      simp only [command, hverb]
      exact ⟨rfl, rfl, hR⟩

/-- The loop runs alike as long as its senders are `ok`. -/
theorem sessionLoop_alike (hhandler : handler.AlikeFor R ok) (config : SessionConfig)
    (broken : Bool) (fuel : Nat) :
    ∀ (room : Nat) (s : SessionState) (lines : List Bytes) (h h' : σ), OpenedBy ok s → R h h' →
      (∀ x ∈ (sessionLoop handler config broken fuel room s lines h).trace, ∀ address,
        x.opened = some address →
        ok address) →
      (sessionLoop handler config broken fuel room s lines h).trace
          = (sessionLoop handler config broken fuel room s lines h').trace ∧
        (sessionLoop handler config broken fuel room s lines h).result
          = (sessionLoop handler config broken fuel room s lines h').result := by
  induction fuel with
  | zero => exact fun _ _ _ _ _ _ _ _ => ⟨rfl, rfl⟩
  | succ fuel ih =>
      intro room s lines h h' hs hR hsenders
      cases lines with
      | nil => exact ⟨rfl, rfl⟩
      | cons line lines =>
          simp only [sessionLoop] at hsenders ⊢
          split
          · exact ⟨rfl, rfl⟩
          · next text htext =>
              simp only [htext] at hsenders
              obtain ⟨hexchange, hnext, hR'⟩ := command_alike hhandler config broken room hs
                (trimLineEnd text) lines hR
              rw [← hexchange, ← hnext]
              split
              · exact ⟨rfl, rfl⟩
              · next hroom =>
                  rw [if_neg hroom] at hsenders
                  split
                  · exact ⟨rfl, rfl⟩
                  · next s' lines' hmore =>
                      simp only [hmore] at hsenders
                      have hdoes := command_does handler config broken room s
                        (trimLineEnd text) lines h
                      rw [hmore] at hdoes
                      have hs' := hs.next hdoes fun address hopened =>
                        hsenders _ List.mem_cons_self address hopened
                      obtain ⟨htrace, hresult⟩ := ih _ s' lines' _ _ hs' hR'
                        fun x hx address hopened => hsenders x
                        (List.mem_cons_of_mem _ hx) address hopened
                      exact ⟨congrArg (_ :: ·) htrace, hresult⟩

theorem handleSession_alike (hhandler : handler.AlikeFor R ok) (config : SessionConfig)
    (broken : Bool) (room : Nat) (input : Bytes) {h h' : σ} (hR : R h h')
    (hsenders : ∀ x ∈ (handleSession handler config broken room input h).trace, ∀ address,
      x.opened = some address →
      ok address) :
    (handleSession handler config broken room input h).trace =
      (handleSession handler config broken room input h').trace ∧
      (handleSession handler config broken room input h).result
        = (handleSession handler config broken room input h').result := by
  unfold handleSession at hsenders ⊢
  split
  · exact ⟨rfl, rfl⟩
  · next hroom =>
      rw [if_neg hroom] at hsenders
      exact sessionLoop_alike hhandler config broken _ _ _ _ h h'
        (openedBy_of_closed rfl rfl) hR hsenders

end

/-! ## The router -/

/-- No mailbox of the two stores has the address, as `route` compares them. -/
def NoMailbox (boxes boxes' : List Mailbox) (mailFrom : Str) : Prop :=
  ∀ m, m ∈ boxes ∨ m ∈ boxes' → eqIgnoreAsciiCase m.email (trim mailFrom) = false

section
variable {boxes boxes' : List Mailbox}

/-- An operation that returns what it finds or draws, unchanged. -/
theorem alike_same {o : Op} (h : ∀ c w w', WorldTwins boxes boxes' w w' →
    (answer o c w).1 = (answer o c w').1 ∧ WorldTwins boxes boxes' (answer o c w).2
      (answer o c w').2) :
    Alike perform (HostTwins boxes boxes') Eq (op o) (op o) :=
  alike_of_answer h

theorem alikes_findAliasByAddress (address : EmailAddress) :
    Alikes perform (HostTwins boxes boxes')
      (fun o o' => o.map (·.toAlias) = o'.map (·.toAlias))
      (findAliasByAddress address) (findAliasByAddress address) :=
  alike_of_answer fun c _ _ h => ⟨give_twins c (findAliasByAddress_twins h.db _), h⟩

theorem alikes_findContact (aliasId email : Str) :
    Alikes perform (HostTwins boxes boxes') Eq (findContact aliasId email)
      (findContact aliasId email) := by
  refine alike_of_answer fun c w w' h => ⟨give_twins c ?_, h⟩
  unfold Db.findContact
  rw [h.db.contacts]

/-- The contact is the same, and its mailbox is one of the store. -/
theorem alikes_findContactByReverseAlias (address : EmailAddress) :
    Alikes perform (HostTwins boxes boxes')
      (fun o o' => o.map ContactWithAlias.blind = o'.map ContactWithAlias.blind ∧
        (∀ f, o = some f → ∃ m ∈ boxes, f.mailboxEmail = m.email) ∧
        ∀ f, o' = some f → ∃ m ∈ boxes', f.mailboxEmail = m.email)
      (findContactByReverseAlias address) (findContactByReverseAlias address) := by
  refine alike_of_answer fun c w w' h =>
    ⟨give_twins c ⟨findContactByReverseAlias_twins h.db _, ?_, ?_⟩, h⟩
  · intro f hf
    obtain ⟨-, -, a, -, -, -, m, hm, hemail⟩ := Db.findContactByReverseAlias_some hf
    exact ⟨m, h.db.mailboxes ▸ (Db.mailboxOf_some hm).1, hemail⟩
  · intro f hf
    obtain ⟨-, -, a, -, -, -, m, hm, hemail⟩ := Db.findContactByReverseAlias_some hf
    exact ⟨m, h.db.mailboxes' ▸ (Db.mailboxOf_some hm).1, hemail⟩

theorem alikes_write {u u' : Write} (hu : Write.Twin boxes boxes' u u') :
    Alikes perform (HostTwins boxes boxes') Eq (write u) (write u') :=
  alike_of_answer fun c _ _ h => write_twins c hu h

theorem alikes_utcNow : Alikes perform (HostTwins boxes boxes') Eq utcNow utcNow :=
  alikes_lift (alike_same fun _ _ _ h => ⟨rfl, h⟩)

theorem alikes_newUuid : Alikes perform (HostTwins boxes boxes') Eq newUuid newUuid :=
  alikes_lift (alike_same fun _ _ _ h => ⟨rfl, h⟩)

theorem alikes_recordAliasActivity (aliasId : Str) (counter : AliasCounter) :
    Alikes perform (HostTwins boxes boxes') Eq (recordAliasActivity aliasId counter)
      (recordAliasActivity aliasId counter) := by
  unfold recordAliasActivity
  refine alikes_seq alikes_utcNow ?_
  rintro now _ rfl
  exact alikes_write (twin_recordAliasActivity aliasId counter now.toRfc3339)

theorem alikes_getOrCreateContact (aliasId : Str) (email : EmailAddress)
    (name : Option Str) (p d : Str) :
    Alikes perform (HostTwins boxes boxes') Eq (getOrCreateContact aliasId email name p d)
      (getOrCreateContact aliasId email name p d) := by
  unfold getOrCreateContact
  refine alikes_seq (alikes_findContact aliasId email.normalised) ?_
  rintro found _ rfl
  cases found with
  | some existing => exact alikes_pure rfl
  | none =>
      refine alikes_seq alikes_newUuid ?_
      rintro contactId _ rfl
      refine alikes_seq (E := Eq) ?_ ?_
      · refine alikes_seq
          (alikes_lift (alike_same (o := .sample 12) fun _ _ _ h => ⟨rfl, h⟩)) ?_
        rintro symbols _ rfl
        exact alikes_pure rfl
      · rintro token _ rfl
        refine alikes_seq alikes_utcNow ?_
        rintro createdAt _ rfl
        refine alikes_seq (alikes_mapErr _ (alikes_write (twin_insertContact _))) ?_
        rintro _ _ -
        refine alikes_seq (alikes_findContact aliasId email.normalised) ?_
        rintro again _ rfl
        cases again with
        | some contact => exact alikes_pure rfl
        | none => exact alikes_throw _

theorem alikes_createDirAll (dir : Str) :
    Alikes perform (HostTwins boxes boxes') Eq (createDirAll dir) (createDirAll dir) :=
  alike_of_answer fun _ _ _ h => ⟨results_refl _, h⟩

/-- Messages that differ in the recipient only. -/
theorem alikes_enqueue (mailDir : Str) (message : NewOutboundMessage) (envelopeTo : Str) :
    Alikes perform (HostTwins boxes boxes') Eq (enqueue mailDir message)
      (enqueue mailDir { message with envelopeTo := envelopeTo }) := by
  unfold enqueue
  refine alikes_seq (alikes_mapErr _ (alikes_createDirAll mailDir)) ?_
  rintro _ _ -
  refine alikes_seq alikes_newUuid ?_
  rintro messageId _ rfl
  refine alikes_seq
    (alikes_mapErr _ (alike_of_answer fun c _ _ h => writeFile_twins c _ message.raw h)) ?_
  rintro _ _ -
  refine alikes_seq alikes_utcNow ?_
  rintro now _ rfl
  refine alikes_seq (alikes_mapErr _ (alikes_write (twin_insertOutbox rfl))) ?_
  rintro _ _ -
  exact alikes_pure rfl

namespace AliasRouter

variable (router : AliasRouter)

/-- A sender that is no mailbox is routed alike, and never to a contact. -/
theorem alikes_route {mailFrom : Str} (hsender : NoMailbox boxes boxes' mailFrom)
    (recipient : Str) :
    Alikes perform (HostTwins boxes boxes') (fun r r' => r = r' ∧ ∃ aliasId aliasAddress,
      r = .forward aliasId aliasAddress)
      (router.route mailFrom recipient) (router.route mailFrom recipient) := by
  unfold route
  refine alikes_seq (alikes_computed _) ?_
  rintro address _ rfl
  split
  · exact alikes_throw _
  refine alikes_seq (alikes_mapErr _ (alikes_findContactByReverseAlias address)) ?_
  rintro found found' ⟨hblind, hmem, hmem'⟩
  cases found with
  | some contact =>
      obtain ⟨contact', rfl, -⟩ := Option.map_eq_some_iff.mp hblind.symm
      obtain ⟨m, hm, hemail⟩ := hmem contact rfl
      obtain ⟨m', hm', hemail'⟩ := hmem' contact' rfl
      dsimp only
      rw [hemail, hemail', hsender m (Or.inl hm), hsender m' (Or.inr hm')]
      exact alikes_throw _
  | none =>
      obtain rfl : found' = none := Option.map_eq_none_iff.mp hblind.symm
      refine alikes_seq (alikes_mapErr _ (alikes_findAliasByAddress address)) ?_
      rintro found found' hsame
      cases found with
      | none =>
          obtain rfl : found' = none := Option.map_eq_none_iff.mp hsame.symm
          exact alikes_throw _
      | some found =>
          obtain ⟨found', rfl, hfound⟩ := Option.map_eq_some_iff.mp hsame.symm
          dsimp only
          rw [hfound]
          split
          · refine alikes_seq (alikes_lift (alikes_recordAliasActivity _ _)) ?_
            exact fun _ _ _ => alikes_throw _
          · exact alikes_pure ⟨rfl, _, _, rfl⟩

theorem alikes_queueForward (aliasId aliasAddress : Str) (envelope : Envelope) :
    Alikes perform (HostTwins boxes boxes') Eq
      (router.queueForward aliasId aliasAddress envelope)
      (router.queueForward aliasId aliasAddress envelope) := by
  unfold queueForward
  refine alikes_seq (alikes_computed _) ?_
  rintro address _ rfl
  refine alikes_seq (alikes_findAliasByAddress address) ?_
  rintro found found' hsame
  cases found with
  | none =>
      obtain rfl : found' = none := Option.map_eq_none_iff.mp hsame.symm
      exact alikes_throw _
  | some found =>
      obtain ⟨found', rfl, -⟩ := Option.map_eq_some_iff.mp hsame.symm
      dsimp only
      refine alikes_seq (alikes_computed _) ?_
      rintro senderEmail _ rfl
      refine alikes_seq (alikes_getOrCreateContact _ _ _ _ _) ?_
      rintro contact _ rfl
      -- only the recipient of the row comes from the mailbox
      refine alikes_seq (alikes_enqueue _ _ found'.mailboxEmail) ?_
      exact fun _ _ _ => alikes_pure rfl

theorem alikes_handleRecipient {envelope : Envelope}
    (hsender : NoMailbox boxes boxes' envelope.mailFrom) (recipient : Str) :
    Alikes perform (HostTwins boxes boxes') Eq (router.handleRecipient envelope recipient)
      (router.handleRecipient envelope recipient) := by
  unfold handleRecipient
  refine alikes_seq (alikes_mapErr _ (router.alikes_route hsender recipient)) ?_
  rintro _ _ ⟨rfl, aliasId, aliasAddress, rfl⟩
  refine alikes_mapErr _ ?_
  unfold forward
  refine alikes_seq (router.alikes_queueForward aliasId aliasAddress envelope) ?_
  exact fun _ _ _ => alikes_recordAliasActivity _ _

theorem alikes_handleAll {envelope : Envelope}
    (hsender : NoMailbox boxes boxes' envelope.mailFrom) (recipients : List Str) :
    Alikes perform (HostTwins boxes boxes') Eq (router.handleAll envelope recipients)
      (router.handleAll envelope recipients) := by
  induction recipients with
  | nil => exact alikes_pure rfl
  | cons recipient recipients ih =>
      exact alikes_seq (router.alikes_handleRecipient hsender recipient) fun _ _ _ => ih

theorem alike_verifyRecipient {mailFrom : Str} (hsender : NoMailbox boxes boxes' mailFrom)
    (recipient : Str) :
    Alike perform (HostTwins boxes boxes') Eq (router.verifyRecipient mailFrom recipient)
      (router.verifyRecipient mailFrom recipient) := by
  unfold verifyRecipient
  refine alike_bind (router.alikes_route hsender recipient) fun r r' hr => ?_
  cases r with
  | ok r =>
      cases r' with
      | ok r' => exact alike_ret rfl
      | error e => exact hr.elim
  | error e =>
      cases r' with
      | ok r' => exact hr.elim
      | error e' => exact alike_ret (congrArg RecipientDecision.reject hr)

theorem alikeFor_mailHandler :
    router.mailHandler.AlikeFor (HostTwins boxes boxes') (NoMailbox boxes boxes') where
  verifyRecipient recipient h h' hsender hR :=
    router.alike_verifyRecipient hsender recipient h h' hR
  handle envelope h h' hsender hR := by
    obtain ⟨hresults, hR'⟩ := router.alikes_handleAll hsender envelope.rcptTo h h' hR
    exact ⟨eq_of_results hresults, hR'⟩

end AliasRouter

end

/-- A stranger gets the same replies from two stores that are equal but for the addresses of
the mailboxes, with the same draws and failures, over a whole session. -/
theorem replies_blind (router : AliasRouter) (config : SessionConfig) (broken : Bool)
    (room : Nat) (input : Bytes) (h : Host) (boxes : List Mailbox)
    (hboxes : boxes.map Mailbox.blind = h.world.db.mailboxes.map Mailbox.blind)
    (hsenders : ∀ x ∈ (handleSession router.mailHandler config broken room input h).trace,
      ∀ address, x.opened = some address → ∀ m, m ∈ h.world.db.mailboxes ∨ m ∈ boxes →
        eqIgnoreAsciiCase m.email (trim address) = false) :
    (handleSession router.mailHandler config broken room input h).trace.map Exchange.replies
      = (handleSession router.mailHandler config broken room input
          { h with world :=
            { h.world with db := { h.world.db with mailboxes := boxes } } }).trace.map
            Exchange.replies := by
  have hhandler : router.mailHandler.AlikeFor (HostTwins h.world.db.mailboxes boxes)
      (NoMailbox h.world.db.mailboxes boxes) := router.alikeFor_mailHandler
  refine congrArg (List.map Exchange.replies)
    (handleSession_alike hhandler config broken room input ?_ hsenders).1
  exact ⟨rfl, rfl, ⟨hboxes.symm, rfl, rfl, rfl, rfl, rfl⟩, rfl, rfl⟩

/-! ### Two inboxes -/

/-- The client of a stranger, who writes to an alias and to a reverse
alias that there is not. -/
def strangerInput : Bytes :=
  encode ("EHLO c\r\nMAIL FROM:<a@shop.example>\r\n".toList ++
    "RCPT TO:<shop@example.com>\r\nRCPT TO:<ct.x@example.com>\r\n".toList ++
    "DATA\r\nHi\r\n.\r\nQUIT\r\n".toList)

def strangerSession (h : Host) : Outcome Host :=
  handleSession AliasRouter.sample.mailHandler ⟨"mx", 1000⟩ false 20 strangerInput h

/-- The mailboxes of `sampleHost`, with another address. -/
def otherInbox : List Mailbox :=
  AliasRouter.sampleHost.world.db.mailboxes.map
    fun m => { m with email := "you@personal.example" }

theorem replies_blind_sample :
    (strangerSession AliasRouter.sampleHost).trace.map Exchange.replies
      = (strangerSession { AliasRouter.sampleHost with
          world := { AliasRouter.sampleHost.world with
            db := { AliasRouter.sampleHost.world.db with mailboxes :=
              otherInbox } } }).trace.map Exchange.replies := by
  refine replies_blind AliasRouter.sample ⟨"mx", 1000⟩ false 20 strangerInput
    AliasRouter.sampleHost otherInbox ?_ ?_
  · rw [otherInbox, List.map_map]
    rfl
  · have hopened : (strangerSession AliasRouter.sampleHost).trace.filterMap Exchange.opened
        = ["a@shop.example".toList] := by decide +kernel
    have hboxes : ∀ m ∈ AliasRouter.sampleHost.world.db.mailboxes ++ otherInbox,
        eqIgnoreAsciiCase m.email (trim "a@shop.example".toList) = false := by decide +kernel
    intro x hx address haddress m hm
    have hmem : address ∈ (strangerSession AliasRouter.sampleHost).trace.filterMap
        Exchange.opened :=
      List.mem_filterMap.mpr ⟨x, hx, haddress⟩
    rw [hopened, List.mem_singleton] at hmem
    rw [hmem]
    exact hboxes m (List.mem_append.mpr hm)

end Weiterleitung
