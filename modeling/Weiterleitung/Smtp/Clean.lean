/-
# `Smtp.Clean` — addresses that end where they end

Addresses come from clients (`MAIL FROM`, the `From` header) and from the operator, and go into
SMTP commands, headers and the outbox.  Each has been parsed, normalised or composed on the
way, and none of that lets a character through that ends an address or
starts another one (`Clean`).

The calls of the rewriter are made visible (`Calling`), as their arguments
are part of the statement.

    the calls carried out, it is the router       (`carryOuts_handle`)
    rows and calls have clean addresses only,
      in every order of statements                (`addresses_clean`)
-/
import Mathlib
import Weiterleitung.Lib.Calls
import Weiterleitung.Routes.Admin
import Weiterleitung.Smtp.Coherent

namespace Weiterleitung

open Text Prog

/-! ## Clean addresses -/

/-- An address with nothing in it that ends it, quotes or separates: no white space, none of
`<`, `>`, `,`, `;`, `"` and `\`. -/
def Clean (s : Str) : Prop := s ≠ [] ∧ '@' ∈ s ∧ ∀ c ∈ s, EmailAddress.Plain c

theorem clean_normalised (e : EmailAddress) : Clean e.normalised :=
  ⟨List.ne_nil_of_mem e.at_mem_normalised, e.at_mem_normalised,
    fun _ hc => e.mem_normalised hc⟩

theorem clean_of_isNormalised {s : Str} (h : IsNormalised s) : Clean s := by
  obtain ⟨e, rfl⟩ := h
  exact clean_normalised e

theorem clean_toString (e : EmailAddress) : Clean e.toString := by
  have hat : '@' ∈ e.toString := List.mem_append_right _ List.mem_cons_self
  refine ⟨List.ne_nil_of_mem hat, hat, fun c hc => ?_⟩
  rcases List.mem_append.mp hc with hc | hc
  · exact e.plain_of_mem_localPart hc
  · rcases List.mem_cons.mp hc with rfl | hc
    · decide
    · exact (EmailAddress.plain_of_mem_validDomain e.valid.2 hc).1

/-- What is configured of an address has nothing in it that ends one. -/
structure PlainSettings (settings : AliasSettings) : Prop where
  reverseAliasPrefix : ∀ c ∈ settings.reverseAliasPrefix, EmailAddress.Plain c
  defaultDomain : ∀ c ∈ settings.defaultDomain, EmailAddress.Plain c

/-- With such settings a composed address is clean. -/
theorem clean_of_isReverseAlias {settings : AliasSettings} (hsettings : PlainSettings settings)
    {r : Str} (h : IsReverseAlias settings r) : Clean r := by
  obtain ⟨symbols, rfl⟩ := h
  have hat : '@' ∈ composeReverseAlias settings.reverseAliasPrefix (tokenOf symbols)
      settings.defaultDomain :=
    List.mem_append_right _ List.mem_cons_self
  refine ⟨List.ne_nil_of_mem hat, hat, fun c hc => ?_⟩
  rcases List.mem_append.mp hc with hc | hc
  · rcases List.mem_append.mp hc with hc | hc
    · exact hsettings.reverseAliasPrefix c hc
    · rcases List.mem_cons.mp hc with rfl | hc
      · decide
      · exact (mem_tokenOf hc).1
  · rcases List.mem_cons.mp hc with rfl | hc
    · decide
    · exact hsettings.defaultDomain c hc

/-! ## The router with its calls -/

/-- A call of the rewriter. -/
inductive Rewriting where
  | forForward (raw : Bytes) (params : ForwardRewrite)
  | forReply (raw : Bytes) (params : ReplyRewrite)

namespace Rewriting

def bytes : Rewriting → Bytes
  | forForward raw params => rewriteForForward raw params
  | forReply raw params => rewriteForReply raw params

/-- The addresses among the arguments. -/
def addresses : Rewriting → List Str
  | forForward _ params => [params.aliasAddress, params.reverseAlias, params.senderEmail]
  | forReply _ params => [params.aliasAddress, params.contactEmail]

end Rewriting

/-- Code of the router in which the calls of the rewriter can be seen. -/
abbrev Calling := Fallible Str (Op ⊕ Rewriting) (Answers Res fun _ => Bytes)

namespace Calling

variable (router : AliasRouter)

def queueForward (aliasId aliasAddress : Str) (envelope : Envelope) : Calling Unit := do
  let address ← computed (EmailAddress.parse aliasAddress)
  match ← lifts (findAliasByAddress address) with
  | none =>
      throw ("Alias `".toList ++ aliasAddress ++ "` vanished between RCPT and DATA".toList)
  | some aliasWithMailbox => do
      let headers := (splitHeadersBody envelope.data).1
      let fromHeader := headerValue headers "from"
      let senderEmail ← computed (envelopeSender envelope.mailFrom fromHeader)
      let senderName := fromHeader.bind displayName
      let contact ← lifts (getOrCreateContact aliasId senderEmail senderName
        router.aliases.reverseAliasPrefix router.aliases.defaultDomain)
      let rewritten ← invoke (.forForward envelope.data
        { aliasAddress := aliasAddress, reverseAlias := contact.reverseAlias,
          senderName := senderName, senderEmail := senderEmail.toString })
      let _ ← lifts (enqueue router.mailDir
        { direction := .forward, envelopeFrom := contact.reverseAlias,
          envelopeTo := aliasWithMailbox.mailboxEmail, raw :=
            rewritten, aliasId := some aliasId,
          contactId := some contact.contactId, subject := headerValue headers "subject" })
      return ()

def forward (aliasId aliasAddress : Str) (envelope : Envelope) : Calling Unit := do
  queueForward router aliasId aliasAddress envelope
  lifts (recordAliasActivity aliasId .forwarded)

def queueReply (contactId aliasAddress contactEmail : Str) (envelope : Envelope) :
    Calling (Option Str) := do
  let headers := (splitHeadersBody envelope.data).1
  let rewritten ← invoke
      (.forReply envelope.data { aliasAddress := aliasAddress, contactEmail := contactEmail })
  let address ← computed (EmailAddress.parse aliasAddress)
  let found ← lifts (findAliasByAddress address)
  let aliasId := found.map (·.toAlias.aliasId)
  let _ ← lifts (enqueue router.mailDir
    { direction := .reply, envelopeFrom := aliasAddress, envelopeTo := contactEmail,
      raw := rewritten, aliasId := aliasId, contactId := some contactId,
      subject := headerValue headers "subject" })
  return aliasId

def reply (contactId aliasAddress contactEmail : Str) (envelope : Envelope) :
    Calling Unit := do
  match ← queueReply router contactId aliasAddress contactEmail envelope with
  | some aliasId => lifts (recordAliasActivity aliasId .replied)
  | none => return ()

def handleRecipient (envelope : Envelope) (recipient : Str) : Calling Unit := do
  match ← mapErr (AliasRouter.notRoutable recipient)
    (lifts (router.route envelope.mailFrom recipient)) with
  | .forward aliasId aliasAddress =>
      mapErr (fun _ => AliasRouter.notQueued) (forward router aliasId aliasAddress envelope)
  | .reply contactId aliasAddress contactEmail =>
      mapErr (fun _ => AliasRouter.notQueued)
        (reply router contactId aliasAddress contactEmail envelope)

def handleAll (envelope : Envelope) : List Str → Calling Unit
  | [] => return ()
  | recipient :: recipients => do
      handleRecipient router envelope recipient
      handleAll envelope recipients

def handle (envelope : Envelope) : Calling Unit := handleAll router envelope envelope.rcptTo

theorem carryOuts_queueForward (aliasId aliasAddress : Str) (envelope : Envelope) :
    carryOuts Rewriting.bytes (queueForward router aliasId aliasAddress envelope)
      = router.queueForward aliasId aliasAddress envelope := by
  unfold queueForward AliasRouter.queueForward
  rw [carryOuts_bind, carryOuts_computed]
  congr 1
  funext address
  rw [carryOuts_bind, carryOuts_lifts]
  congr 1
  funext found
  cases found with
  | none => rfl
  | some aliasWithMailbox =>
      simp only [carryOuts_bind, carryOuts_computed, carryOuts_lifts, carryOuts_invoke,
        carryOuts_pure, pure_bind, Rewriting.bytes]

theorem carryOuts_queueReply (contactId aliasAddress contactEmail : Str)
    (envelope : Envelope) :
    carryOuts Rewriting.bytes (queueReply router contactId aliasAddress contactEmail envelope)
      = router.queueReply contactId aliasAddress contactEmail envelope := by
  unfold queueReply AliasRouter.queueReply
  simp only [carryOuts_bind, carryOuts_computed, carryOuts_lifts, carryOuts_invoke,
    carryOuts_pure, pure_bind, Rewriting.bytes]

theorem carryOuts_handleRecipient (envelope : Envelope) (recipient : Str) :
    carryOuts Rewriting.bytes (handleRecipient router envelope recipient)
      = router.handleRecipient envelope recipient := by
  unfold handleRecipient AliasRouter.handleRecipient
  rw [carryOuts_bind, carryOuts_mapErr, carryOuts_lifts]
  congr 1
  funext r
  cases r with
  | forward aliasId aliasAddress =>
      simp only [carryOuts_mapErr, forward, AliasRouter.forward, carryOuts_bind,
        carryOuts_queueForward, carryOuts_lifts]
  | reply contactId aliasAddress contactEmail =>
      simp only [carryOuts_mapErr, reply, AliasRouter.reply, carryOuts_bind,
        carryOuts_queueReply]
      congr 2
      funext aliasId
      cases aliasId <;> simp

/-- The calls carried out, it is the router. -/
theorem carryOuts_handle (envelope : Envelope) :
    carryOuts Rewriting.bytes (handle router envelope) = router.handle envelope := by
  unfold handle AliasRouter.handle
  induction envelope.rcptTo with
  | nil => rfl
  | cons recipient recipients ih =>
      rw [handleAll, AliasRouter.handleAll, carryOuts_bind, carryOuts_handleRecipient, ih]

end Calling

/-! ## Rules -/

/-- The row that is inserted, if the operation inserts one, has clean addresses. -/
def CleanRow (o : Op) : Prop :=
  match o with
  | .write (.insertOutbox row) => Clean row.envelopeFrom ∧ Clean row.envelopeTo
  | _ => True

theorem cleanRow_of_rowFree {o : Op} (h : RowFree o) : CleanRow o := by
  unfold CleanRow
  split
  · exact h.elim
  · trivial

/-- The addresses of every row are clean. -/
def CleanRows (db : Db) :
    Prop := ∀ row ∈ db.outbox, Clean row.envelopeFrom ∧ Clean row.envelopeTo

theorem cleanRows_of_answer {o : Op} (ho : CleanRow o) (c : Chance) {w : World}
    (h : CleanRows w.db) :
    CleanRows (answer o c w).2.db := by
  intro row' hrow
  rcases row_of_answer hrow with rfl | ⟨row, hrow, hstems⟩
  · exact ho
  · rw [hstems.envelopeFrom, hstems.envelopeTo]
    exact h row hrow

/-- Rows are inserted with clean addresses. -/
def cleanRules (settings : AliasSettings) : Rules Op Res Chance World where
  answer := answer
  inv w := Wf settings w.db ∧ CleanRows w.db
  rely _ _ := True
  may o _ := Legal settings o ∧ CleanRow o
  fair _ _ _ := True
  refl _ := trivial
  trans _ _ := trivial
  step h ho _ := ⟨⟨wf_of_legal ho.1 _ h.1, cleanRows_of_answer ho.2 _ h.2⟩, trivial⟩

theorem onStore_cleanRules (settings : AliasSettings) :
    OnStore settings (cleanRules settings) id where
  answer _ _ _ := rfl
  world _ _ _ := rfl
  may o _ ho hrow := ⟨legal_of_routing o ho, cleanRow_of_rowFree hrow⟩

/-- The same, and the rewriter is called with clean addresses. -/
def callingRules (settings : AliasSettings) :
    Rules (Op ⊕ Rewriting) (Answers Res fun _ => Bytes) Chance World :=
  (cleanRules settings).withCalls Rewriting.bytes fun c => ∀ address ∈ c.addresses,
    Clean address

namespace Calling

variable (router : AliasRouter)

/-- A message with clean addresses is queued. -/
theorem amids_enqueue (mailDir : Str) (message : NewOutboundMessage)
    (hfrom : Clean message.envelopeFrom) (hto : Clean message.envelopeTo) (w : World) :
    (callingRules router.aliases).Amids
      (fun _ _ => True) (lifts (enqueue mailDir message)) w :=
  Rules.amids_lifts ((onStore_cleanRules router.aliases).amids_enqueue mailDir message
    fun _ _ _ _ _ => ⟨⟨rfl, rfl⟩, hfrom, hto⟩)

theorem amids_recordAliasActivity (aliasId : Str) (counter : AliasCounter) (w : World) :
    (callingRules router.aliases).Amids
      (fun _ _ => True) (lifts (recordAliasActivity aliasId counter)) w :=
  Rules.amids_lifts
    ((onStore_cleanRules router.aliases).amids_recordAliasActivity aliasId counter w)

theorem amids_queueReply {contactId aliasAddress contactEmail : Str}
    (halias : Clean aliasAddress) (hcontact : Clean contactEmail)
    (envelope : Envelope) (w : World) :
    (callingRules router.aliases).Amids (fun _ _ => True)
      (queueReply router contactId aliasAddress contactEmail envelope) w := by
  unfold queueReply
  refine Rules.amids_seq (Rules.amids_invoke ?_ w) fun rewritten w _ _ => ?_
  · intro address haddress
    rcases List.mem_cons.mp haddress with rfl | haddress
    · exact halias
    · rw [List.mem_singleton.mp haddress]
      exact hcontact
  refine Rules.amids_seq (m := fun _ _ => True) (Rules.amids_computed fun _ _ => trivial)
    fun address w _ _ => ?_
  refine Rules.amids_seq
    (Rules.amids_lifts ((onStore_cleanRules router.aliases).amids_findAliasByAddress address
      w))
    fun found w _ _ => ?_
  exact Rules.amids_seq (amids_enqueue router _ _ halias hcontact w) fun _ _ _ _ =>
    Rules.amids_pure trivial

theorem amids_queueForward (hsettings : PlainSettings router.aliases)
    {aliasId aliasAddress : Str} (halias : Clean aliasAddress)
    (envelope : Envelope) (w : World) :
    (callingRules router.aliases).Amids
      (fun _ _ => True) (queueForward router aliasId aliasAddress envelope) w := by
  have hstore := onStore_cleanRules router.aliases
  unfold queueForward
  refine Rules.amids_seq (m := fun _ _ => True) (Rules.amids_computed fun _ _ => trivial)
    fun address w _ _ => ?_
  refine Rules.amids_seq (Rules.amids_lifts (hstore.amids_findAliasByAddress address w))
    fun found w _ hfound => ?_
  cases found with
  | none => exact Rules.amids_throw _ _
  | some aliasWithMailbox =>
      obtain ⟨hw, -, -, m, hm, hemail⟩ := hfound aliasWithMailbox rfl
      have hmailbox : Clean aliasWithMailbox.mailboxEmail := by
        rw [hemail]
        exact clean_of_isNormalised (hw.1.mailboxForms m hm)
      dsimp only
      refine Rules.amids_seq (m := fun _ _ => True) (Rules.amids_computed fun _ _ => trivial)
        fun senderEmail w _ _ => ?_
      refine Rules.amids_seq
        (Rules.amids_lifts (hstore.amids_getOrCreateContact aliasId senderEmail _ w)) ?_
      rintro contact w - ⟨⟨hc, -, -⟩, hw⟩
      have hreverse : Clean contact.reverseAlias :=
        clean_of_isReverseAlias hsettings (hw.1.contactForms contact hc).2
      refine Rules.amids_seq (Rules.amids_invoke ?_ w) fun rewritten w _ _ => ?_
      · intro address haddress
        simp only [Rewriting.addresses, List.mem_cons, List.not_mem_nil, or_false] at haddress
        rcases haddress with rfl | rfl | rfl
        · exact halias
        · exact hreverse
        · exact clean_toString senderEmail
      exact Rules.amids_seq (amids_enqueue router _ _ hreverse hmailbox w) fun _ _ _ _ =>
        Rules.amids_pure trivial

theorem amids_handleRecipient (hsettings : PlainSettings router.aliases) (envelope : Envelope)
    (recipient : Str) (w : World) :
    (callingRules router.aliases).Amids
      (fun _ _ => True) (handleRecipient router envelope recipient) w := by
  unfold handleRecipient
  refine Rules.amids_seq (Rules.amids_mapErr (Rules.amids_lifts
    ((onStore_cleanRules router.aliases).amids_route router _ _ w))) ?_
  rintro route w - ⟨hw, hroute⟩
  cases route with
  | forward aliasId aliasAddress =>
      obtain ⟨a, ha, -, rfl⟩ := hroute
      have halias := clean_of_isNormalised (hw.1.aliasForms a ha)
      refine Rules.amids_mapErr
        (Rules.amids_seq (amids_queueForward router hsettings halias envelope w) ?_)
      exact fun _ w _ _ => amids_recordAliasActivity router _ _ w
  | reply contactId aliasAddress contactEmail =>
      obtain ⟨c, hc, -, rfl, a, ha, -, rfl⟩ := hroute
      have halias := clean_of_isNormalised (hw.1.aliasForms a ha)
      have hcontact := clean_of_isNormalised (hw.1.contactForms c hc).1
      refine Rules.amids_mapErr
        (Rules.amids_seq (amids_queueReply router halias hcontact envelope w) ?_)
      intro aliasId w _ _
      cases aliasId with
      | none => exact Rules.amids_pure trivial
      | some aliasId => exact amids_recordAliasActivity router _ _ w

theorem amids_handleAll (hsettings : PlainSettings router.aliases) (envelope : Envelope)
    (recipients : List Str) :
    ∀ w : World,
    (callingRules router.aliases).Amids
      (fun _ _ => True) (handleAll router envelope recipients) w := by
  induction recipients with
  | nil => exact fun w => Rules.amids_pure trivial
  | cons recipient recipients ih =>
      exact fun w => Rules.amids_seq (amids_handleRecipient router hsettings envelope recipient
        w) fun _ w _ _ => ih w

end Calling

/-! ## Every order of statements -/

/-- What clients and the operator make the server do, its answer thrown away.  Whatever bytes a
client sends, a session makes calls of the first two kinds of them. -/
inductive ServerTask (router : AliasRouter) :
    Prog (Op ⊕ Rewriting) (Answers Res fun _ => Bytes) Unit → Prop
  | verifyRecipient (mailFrom recipient : Str) :
      ServerTask router (lift (router.verifyRecipient mailFrom recipient) >>= fun _ => .ret ())
  | handle (envelope : Envelope) :
      ServerTask router ((Calling.handle router envelope).run >>= fun _ => .ret ())
  | createAlias (form : CreateAliasForm) :
      ServerTask router (lift (createAlias router.aliases form) >>= fun _ => .ret ())
  | insertMailbox (email : EmailAddress) (isDefault : Bool) :
      ServerTask router (lift (insertMailbox email isDefault).run >>= fun _ => .ret ())

/-- Making an alias is a legal thing to do. -/
theorem legal_createAlias (settings : AliasSettings) (form : CreateAliasForm) :
    Uses (fun o => Legal settings o ∧ RowFree o) (createAlias settings form) := by
  unfold createAlias
  refine uses_bind ?_ fun localPart => ?_
  · unfold chooseLocalPart
    split
    · exact ⟨⟨trivial, trivial⟩,
        fun _ => ⟨⟨trivial, trivial⟩, fun _ => ⟨⟨trivial, trivial⟩, fun _ => trivial⟩⟩⟩
    · trivial
  · split
    · trivial
    · next address _ =>
        refine uses_bind ⟨⟨trivial, trivial⟩, fun _ => trivial⟩ fun found => ?_
        split
        · trivial
        · trivial
        · refine uses_bind ?_ fun inserted => ?_
          · refine ⟨⟨trivial, trivial⟩,
              fun _ => ⟨⟨trivial, trivial⟩, fun _ => ⟨⟨⟨address, rfl⟩, trivial⟩, fun r => ?_⟩⟩⟩
            cases r <;> trivial
          · cases inserted <;> trivial

theorem ServerTask.amid {router : AliasRouter} (hsettings : PlainSettings router.aliases)
    {p : Prog (Op ⊕ Rewriting) (Answers Res fun _ => Bytes) Unit}
    (hp : ServerTask router p) (w : World) :
    (callingRules router.aliases).Amid (fun _ _ => True) p w := by
  have hlift : ∀ {α : Type} {q : Prog Op Res α}, (cleanRules router.aliases).Amid
      (fun _ _ => True) q w →
      (callingRules router.aliases).Amid (fun _ _ => True) (lift q >>= fun _ => .ret ()) w :=
    fun hq => Rules.amid_bind (Rules.amid_lift hq) fun _ _ _ _ => trivial
  have hmay : ∀ o w, Legal router.aliases o ∧ RowFree o →
      (cleanRules router.aliases).may o w :=
    fun _ _ ho => ⟨ho.1, cleanRow_of_rowFree ho.2⟩
  cases hp with
  | verifyRecipient mailFrom recipient =>
      exact hlift
        ((onStore_cleanRules router.aliases).amid_verifyRecipient router mailFrom recipient w)
  | handle envelope =>
      exact Rules.amid_bind
        (Rules.amid_of_amids (Calling.amids_handleAll router hsettings envelope _ w))
        fun _ _ _ _ => trivial
  | createAlias form =>
      exact hlift (Rules.amid_of_uses hmay (legal_createAlias router.aliases form) w)
  | insertMailbox email isDefault =>
      refine hlift (Rules.amid_of_uses hmay ?_ w)
      refine ⟨⟨trivial, trivial⟩,
        fun _ => ⟨⟨trivial, trivial⟩, fun _ => ⟨⟨⟨email, rfl⟩, trivial⟩, fun r => ?_⟩⟩⟩
      cases r <;> trivial

/-- The store, and the calls that are at work on it. -/
abbrev Server := Crew (Op ⊕ Rewriting) (Answers Res fun _ => Bytes) World Unit

/-- Calls start and take turns, and the worker and the rest of the
administration act in between. -/
def Server.Run (router : AliasRouter) : Server → Server → Prop :=
  Crew.Run (callingRules router.aliases) (ServerTask router) fun w w' =>
    ∃ o c, Beside router.aliases o ∧ w' = (answer o c w).2

theorem Server.Run.sound {router : AliasRouter} (hsettings : PlainSettings router.aliases)
    {s s' : Server} (h : Server.Run router s s')
    (hs : Crew.Sound (callingRules router.aliases) (fun _ _ => True) s) :
    Crew.Sound (callingRules router.aliases) (fun _ _ => True) s' := by
  refine (Crew.sound_run (fun p hp w _ => hp.amid hsettings w) ?_ hs h).1
  rintro w _ hw ⟨o, c, ho, rfl⟩
  have hrow : CleanRow o := by
    unfold CleanRow
    split
    · exact ho.elim
    · trivial
  exact (cleanRules router.aliases).step hw ⟨ho.legal.1, hrow⟩ trivial

/-- In every order of statements: what is written to the outbox and what the rewriter is called
with are addresses, with nothing in them that ends an address. -/
theorem addresses_clean (router : AliasRouter) (hsettings : PlainSettings router.aliases)
    (spool : Spool) (relayed : List Str) (s : Server)
    (hrun : Server.Run router ⟨⟨Db.empty, spool, relayed⟩, []⟩ s) :
    (∀ row ∈ s.state.db.outbox, Clean row.envelopeFrom ∧ Clean row.envelopeTo) ∧
    (∀ raw params k, .ask (.inr (.forForward raw params)) k ∈ s.tasks →
      Clean params.aliasAddress ∧ Clean params.reverseAlias ∧ Clean params.senderEmail) ∧
    ∀ raw params k, .ask (.inr (.forReply raw params)) k ∈ s.tasks →
      Clean params.aliasAddress ∧ Clean params.contactEmail := by
  have hsound := hrun.sound hsettings (Crew.sound_start ⟨wf_empty, nofun⟩)
  have hcalls : ∀ (c : Rewriting) k, .ask (.inr c) k ∈ s.tasks → ∀ address ∈ c.addresses,
      Clean address := by
    intro c k htask
    rcases hsound.tasks _ htask with ⟨a, hret⟩ | hamid
    · cases hret
    · exact (hamid s.state trivial hsound.inv).1
  refine ⟨hsound.inv.2, fun raw params k htask => ?_, fun raw params k htask => ?_⟩
  · have hall := hcalls _ k htask
    exact ⟨hall _ (by simp [Rewriting.addresses]), hall _ (by simp [Rewriting.addresses]),
      hall _ (by simp [Rewriting.addresses])⟩
  · have hall := hcalls _ k htask
    exact ⟨hall _ (by simp [Rewriting.addresses]), hall _ (by simp [Rewriting.addresses])⟩

/-! ### A message of two recipients -/

/-- The server after a message to the alias, and to an address that is none. -/
def served : Server :=
  ((List.range 19).map fun n => (0, Chance.calm (10 + n))).foldl
    (Crew.turnOf (callingRules AliasRouter.sample.aliases))
    ⟨shopArchive.world, [(Calling.handle AliasRouter.sample
      ⟨"a@shop.example", ["Shop@example.com".toList, "no@example.com".toList], []⟩).run >>=
        fun _ => .ret ()]⟩

theorem run_served : Server.Run AliasRouter.sample ⟨⟨Db.empty, [], []⟩, []⟩ served := by
  refine Relation.ReflTransGen.trans ?_ (Crew.run_turns _ _ (Crew.fairTurns_of_fair ?_ _ _))
  · refine .tail
      (.tail (.tail .refl (.other _ _ ⟨_, _, ?_, rfl⟩)) (.other _ _ ⟨_, _, ?_, rfl⟩))
      (.join _ _ (.handle _))
    · exact ⟨EmailAddress.me, rfl⟩
    · exact ⟨EmailAddress.shop, rfl⟩
  · intro o c w
    cases o <;> trivial

theorem plain_sample : PlainSettings AliasRouter.sample.aliases where
  reverseAliasPrefix c hc := by
    have hlower : AliasRouter.sample.aliases.reverseAliasPrefix.all Char.isLower = true := by
      decide
    exact EmailAddress.plain_of_isLower (List.all_eq_true.mp hlower c hc)
  defaultDomain _ hc := (EmailAddress.plain_of_mem_validDomain EmailAddress.shop.valid.2 hc).1

theorem addresses_clean_sample :
    served.state.db.outbox.map (fun row => (row.envelopeFrom, row.envelopeTo))
      = [("ct.pqrstuvwxyza@example.com".toList, "me@personal.example".toList)] ∧
    ∀ row ∈ served.state.db.outbox, Clean row.envelopeFrom ∧ Clean row.envelopeTo :=
  ⟨by decide +kernel,
    (addresses_clean AliasRouter.sample plain_sample [] [] served run_served).1⟩

end Weiterleitung
