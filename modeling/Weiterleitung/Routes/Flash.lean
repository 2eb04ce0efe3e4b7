/-
# `Routes.Flash` — what the operator is told, happened

A handler pushes a message into the session, and a later page of that session shows it and
takes it out.  In between the session is written over by other requests, which read and write
the list as a whole.  Still a message that is shown was pushed by a request of the same
session: that request put it there as the last of the list (`Pushed`), and it tells what the
request had been answered until then (`Explained`):

    what a handler pushes is explained by its own entries  (`tells_adminRoutes`, `tells_login`)
    a push repeats what was read from the session          (`tells_pushFlash`)
    a page shows what it took out of the session           (`shows_getFlashMessages`)
    what is put into a session was pushed by someone       (`put_pushed`)
    every message that is shown was pushed                 (`shown_explained`)
-/
import Mathlib
import Weiterleitung.Routes.Gate

namespace Weiterleitung

open Text Prog TypedSession

/-! ## Explanations -/

/-- The request was given this answer. -/
def OnRecord (trail : SiteTrail) (request : Request) (o : WebOp) (r : WebRes o) : Prop :=
  ∃ past, GivenAfter trail request o r past

theorem OnRecord.lasts {before trail : SiteTrail} {request : Request} {o : WebOp}
    {r : WebRes o} (h : OnRecord before request o r) (hp : before <+: trail) :
    OnRecord trail request o r := by
  obtain ⟨past, hmem⟩ := h
  exact ⟨past, hp.subset hmem⟩

/-- A message, and the answers that make it true. -/
inductive Explained (site : Site) (trail : SiteTrail) (request : Request) : FlashMessage → Prop
  | notLoggedIn (found : Except Str (Option Str)) : request.IsAdmin →
      OnRecord trail request (.session .getUserId) found →
      (∀ userId, found ≠ .ok (some userId)) →
      Explained site trail request ⟨.error, "You must be logged in to access that page"⟩
  | invalidCredentials (form : LoginFormData) (found : Option User) :
      request.endpoint = .login form →
      OnRecord trail request (.account (.findUser form.username)) (.ok found) →
      (∀ row, found = some row → site.argon2.verifyPassword row.passwordHash
        form.password ≠ .ok ()) →
      Explained site trail request ⟨.error, "Invalid credentials"⟩
  | somethingWrong (form : LoginFormData) (e : Str) : request.endpoint = .login form →
      OnRecord trail request (.account (.findUser form.username)) (.error e) →
      Explained site trail request ⟨.error, "Something went wrong"⟩
  | noSession (userId e : Str) : LoggedIn site.argon2 trail request userId →
      OnRecord trail request (.session (.insertUserId userId)) (.error e) →
      Explained site trail request ⟨.error, "Could not start a session"⟩
  | invalidAlias (form : CreateAliasForm) (localPart e : Str) :
      request.endpoint = .admin (.createAlias form) →
      EmailAddress.parse (localPart ++ '@' :: site.aliases.defaultDomain) = .error e →
      (trim form.localPart ≠ [] → localPart = trim form.localPart) →
      Explained site trail request ⟨.error, e⟩
  | aliasExists (form : CreateAliasForm) (address : EmailAddress) (found : AliasWithMailbox) :
      request.endpoint = .admin (.createAlias form) →
      OnRecord trail request (.table (.inl (.findAliasByAddress address.normalised)))
        (.ok (some found)) →
      Explained site trail request ⟨.error, address.toString ++ " already exists".toList⟩
  | aliasCreated (form : CreateAliasForm) (a : Alias) :
      request.endpoint = .admin (.createAlias form) →
      OnRecord trail request (.table (.inl (.write (.insertAlias a)))) (.ok ()) →
      a.mailboxId = form.mailboxId →
      Explained site trail request ⟨.info, "Created ".toList ++ a.address⟩
  | aliasRefused (form : CreateAliasForm) (a : Alias) (e : Str) :
      request.endpoint = .admin (.createAlias form) →
      OnRecord trail request (.table (.inl (.write (.insertAlias a)))) (.error e) →
      Explained site trail request ⟨.error, "Failed to create the alias"⟩
  | noSuchAlias (aliasId : Str) (aliases : List AliasWithMailbox) :
      request.endpoint = .admin (.toggleAlias aliasId) ∨
      request.endpoint = .admin (.aliasDetail aliasId) →
      OnRecord trail request (.table (.inr .listAliases)) (.ok aliases) →
      (∀ listed ∈ aliases, listed.toAlias.aliasId ≠ aliasId) →
      Explained site trail request ⟨.error, "No such alias"⟩
  | toggled (aliasId : Str) (aliases : List AliasWithMailbox) (listed : AliasWithMailbox) :
      request.endpoint = .admin (.toggleAlias aliasId) →
      OnRecord trail request (.table (.inr .listAliases)) (.ok aliases) →
      listed ∈ aliases → listed.toAlias.aliasId = aliasId →
      OnRecord trail request
        (.table (.inl (.write (.setAliasEnabled aliasId (!listed.toAlias.enabled)))))
        (.ok ()) →
      Explained site trail request
        ⟨.info, toggledMessage listed.toAlias.address listed.toAlias.enabled⟩
  | aliasDeleted (aliasId : Str) : request.endpoint = .admin (.deleteAlias aliasId) →
      OnRecord trail request (.table (.inl (.write (.deleteAlias aliasId)))) (.ok ()) →
      Explained site trail request ⟨.info, "Alias deleted"⟩
  | invalidMailbox (form : CreateMailboxForm) (e : Str) :
      request.endpoint = .admin (.createMailbox form) →
      EmailAddress.parse form.email = .error e → Explained site trail request ⟨.error, e⟩
  | mailboxAdded (form : CreateMailboxForm) (m : Mailbox) :
      request.endpoint = .admin (.createMailbox form) →
      OnRecord trail request (.table (.inl (.write (.insertMailbox m)))) (.ok ()) →
      m.isDefault = form.isDefault.isSome →
      Explained site trail request ⟨.info, "Added ".toList ++ m.email⟩
  | mailboxRefused (form : CreateMailboxForm) (m : Mailbox) (e : Str) :
      request.endpoint = .admin (.createMailbox form) →
      OnRecord trail request (.table (.inl (.write (.insertMailbox m)))) (.error e) →
      Explained site trail request ⟨.error, "Failed to add the mailbox"⟩
  | mailboxDeleted (mailboxId : Str) : request.endpoint = .admin (.deleteMailbox mailboxId) →
      OnRecord trail request (.table (.inl (.write (.deleteMailbox mailboxId)))) (.ok ()) →
      Explained site trail request ⟨.info, "Mailbox deleted"⟩

theorem Explained.lasts {site : Site} {before trail : SiteTrail} {request : Request}
    {message : FlashMessage} (h : Explained site before request message)
    (hp : before <+: trail) : Explained site trail request message := by
  have hnoted : ∀ {o r}, OnRecord before request o r → OnRecord trail request o r :=
    fun h => h.lasts hp
  cases h with
  | notLoggedIn found hadmin hn hnone => exact .notLoggedIn found hadmin (hnoted hn) hnone
  | invalidCredentials form found he hn hbad =>
      exact .invalidCredentials form found he (hnoted hn) hbad
  | somethingWrong form e he hn => exact .somethingWrong form e he (hnoted hn)
  | noSession userId e hlogin hn => exact .noSession userId e (hlogin.lasts hp) (hnoted hn)
  | invalidAlias form localPart e he hparse hform =>
      exact .invalidAlias form localPart e he hparse hform
  | aliasExists form address found he hn =>
      exact .aliasExists form address found he (hnoted hn)
  | aliasCreated form a he hn hid => exact .aliasCreated form a he (hnoted hn) hid
  | aliasRefused form a e he hn => exact .aliasRefused form a e he (hnoted hn)
  | noSuchAlias aliasId aliases he hn hnone =>
      exact .noSuchAlias aliasId aliases he (hnoted hn) hnone
  | toggled aliasId aliases listed he hn hmem hid hw =>
      exact .toggled aliasId aliases listed he (hnoted hn) hmem hid (hnoted hw)
  | aliasDeleted aliasId he hn => exact .aliasDeleted aliasId he (hnoted hn)
  | invalidMailbox form e he hparse => exact .invalidMailbox form e he hparse
  | mailboxAdded form m he hn hdefault => exact .mailboxAdded form m he (hnoted hn) hdefault
  | mailboxRefused form m e he hn => exact .mailboxRefused form m e he (hnoted hn)
  | mailboxDeleted mailboxId he hn => exact .mailboxDeleted mailboxId he (hnoted hn)

/-! ## The discipline of the messages -/

/-- The message was in the session. -/
def InSession (trail : SiteTrail) (request : Request) (message : FlashMessage) : Prop :=
  ∃ messages, OnRecord trail request (.session .getFlash) (.ok (some messages)) ∧
    message ∈ messages

/-- The message was taken out of the session. -/
def TakenOut (trail : SiteTrail) (request : Request) (message : FlashMessage) : Prop :=
  ∃ messages, OnRecord trail request (.session .removeFlash) (.ok (some messages)) ∧
    message ∈ messages

/-- What is put into the session was there, but for the last message, which is explained; what
is shown was taken out. -/
def Tells (site : Site) (trail : SiteTrail) : SiteOp → Prop
  | (request, .session (.insertFlash messages)) => ∃ held pushed, messages = held ++ [pushed] ∧
      (∀ message ∈ held, InSession trail request message) ∧ Explained site trail request pushed
  | (request, .respond response) =>
      ∀ message ∈ response.flashMessages, TakenOut trail request message
  | _ => True

/-- The request has put the message into its session, as the last of the list, and it was
explained by then. -/
def Pushed (site : Site) (trail : SiteTrail) (request : Request) (message : FlashMessage) :
    Prop :=
  ∃ (front : SiteTrail) (held : List FlashMessage)
    (r : SiteRes (request, .session (.insertFlash (held ++ [message])))),
    front ++ [⟨(request, .session (.insertFlash (held ++ [message]))), r⟩] <+: trail ∧
    Explained site front request message

theorem Pushed.lasts {site : Site} {before trail : SiteTrail} {request : Request}
    {message : FlashMessage} (h : Pushed site before request message) (hp : before <+: trail) :
    Pushed site trail request message := by
  obtain ⟨front, held, r, hfront, hexplained⟩ := h
  exact ⟨front, held, r, hfront.trans hp, hexplained⟩

section
variable {site : Site} {boots : List (Str × Str)} {request : Request}
    {s : SiteState × SiteTrail}

/-- The rules that a request is under. -/
abbrev flashRules (site : Site) (boots : List (Str × Str)) (request : Request) :
    Rules WebOp WebRes WebChance (SiteState × SiteTrail) :=
  (tracked (siteAnswering site.argon2 boots) ⟨Tells site, Remembers⟩).pull
    (fun o => (request, o)) (fun _ r => r.1)

/-- An operation that is open to the request is noted with its answer. -/
theorem tells_op {o : WebOp} (hlooks : LooksUp o)
    (hopen : ∀ trail, Tells site trail (request, o)) :
    (flashRules site boots request).Amid (fun r t => OnRecord t.2 request o r) (op o) s := by
  refine Rules.amid_op fun t _ _ => ⟨⟨hlooks, hopen t.2⟩, fun c _ _ _ => ?_⟩
  exact ⟨t.1.boots, List.mem_append_right _ List.mem_cons_self⟩

/-- A handler whose response shows what it took out of the session. -/
abbrev TellsTruly (site : Site) (boots : List (Str × Str)) (request : Request)
    (p : Web Response) (s : SiteState × SiteTrail) : Prop :=
  (flashRules site boots request).Amid
    (fun response t => ∀ message ∈ response.flashMessages, TakenOut t.2 request message) p s

theorem tells_pushFlash {level : FlashLevel} {content : Str}
    (h : Explained site s.2 request ⟨level, content⟩) :
    (flashRules site boots request).Amid (fun _ _ => True) (pushFlash level content) s := by
  refine Rules.amid_bind (tells_op trivial fun _ => trivial) fun held t hst hheld => ?_
  refine Rules.amid_bind (m := fun _ _ => True) (Rules.amid_op fun u htu _ =>
    ⟨⟨trivial, ?_⟩, fun _ _ _ _ => trivial⟩)
      fun _ _ _ _ => trivial
  refine ⟨_, _, rfl, fun message hmessage => ?_, h.lasts (List.IsPrefix.trans hst htu)⟩
  match held, hheld, hmessage with
  | .ok (some messages), hheld, hmessage => exact ⟨messages, hheld.lasts htu, hmessage⟩
  | .ok none, _, hmessage => cases hmessage
  | .error _, _, hmessage => cases hmessage

/-- A message, and a response that shows none. -/
theorem tells_pushed {level : FlashLevel} {content : Str} {response : Response}
    (h : Explained site s.2 request ⟨level, content⟩) (hnone : response.flashMessages = []) :
    TellsTruly site boots request (pushFlash level content >>= fun _ => ret response) s := by
  refine Rules.amid_bind (tells_pushFlash h) fun _ _ _ _ message hmessage => ?_
  rw [hnone] at hmessage
  cases hmessage

theorem shows_getFlashMessages : (flashRules site boots request).Amid
    (fun messages t => ∀ message ∈ messages, TakenOut t.2 request message)
    getFlashMessages s := by
  refine Rules.amid_bind (tells_op trivial fun _ => trivial)
    fun taken t _ htaken message hmessage => ?_
  match taken, htaken, hmessage with
  | .ok (some messages), htaken, hmessage => exact ⟨messages, htaken, hmessage⟩
  | .ok none, _, hmessage => cases hmessage
  | .error _, _, hmessage => cases hmessage

/-- A page that shows what was taken out of the session. -/
theorem shows_page {template : List FlashMessage → Template} (htemplate : ∀ messages,
      (template messages).flashMessages = messages) :
    TellsTruly site boots request
      (getFlashMessages >>= fun messages => ret (site.render (template messages))) s := by
  refine Rules.amid_bind shows_getFlashMessages fun messages t _ htaken message hmessage => ?_
  unfold Site.render at hmessage
  split at hmessage
  · exact htaken message (htemplate messages ▸ hmessage)
  · cases hmessage

/-- A response by itself. -/
theorem tells_ret {response : Response} (hnone : response.flashMessages = []) :
    TellsTruly site boots request (ret response) s := by
  intro message hmessage
  rw [hnone] at hmessage
  cases hmessage

/-! ### The tables -/

/-- What is known of a statement of the tables. -/
theorem tells_table {o : Op ⊕ Query} {s : SiteState × SiteTrail} :
    ((flashRules site boots request).pull WebOp.table (fun _ r => r)).Amid
      (fun r t => OnRecord t.2 request (.table o) r) (op o) s :=
  @tells_op site boots request s (.table o) trivial fun _ => trivial

/-- What is known of a statement of the mail server. -/
theorem tells_store {o : Op} {s : SiteState × SiteTrail} :
    (((flashRules site boots request).pull WebOp.table (fun _ r => r)).pull Sum.inl
      (fun _ r => r)).Amid (fun r t => OnRecord t.2 request (.table (.inl o)) r) (op o) s :=
  @tells_op site boots request s (.table (.inl o)) trivial fun _ => trivial

/-- Statements are open to every request. -/
theorem tells_any {α : Type} (p : Prog Op Res α) :
    (((flashRules site boots request).pull WebOp.table (fun _ r => r)).pull Sum.inl
      (fun _ r => r)).Amid (fun _ _ => True) p s := by
  refine Rules.amid_of_uses (P := fun _ => True) (fun o t _ => ?_)
    (uses_all (fun _ => trivial) p) s
  exact ⟨trivial, trivial⟩

theorem tells_ofStore {α : Type} {p : Prog Op Res α} {post : α → SiteState × SiteTrail → Prop}
    (h : (((flashRules site boots request).pull WebOp.table (fun _ r => r)).pull Sum.inl
      (fun _ r => r)).Amid post p s) :
    (flashRules site boots request).Amid post (ofStore p) s := by
  refine Rules.amid_embed ?_
  rw [lift_eq_embed]
  exact Rules.amid_embed h

/-- The operator is told what the statements were answered. -/
def Told (site : Site) (request : Request) (next : Shown) (s : SiteState × SiteTrail) : Prop :=
  match next with
  | .flashError message => Explained site s.2 request ⟨.error, message⟩
  | .flashInfo message => Explained site s.2 request ⟨.info, message⟩
  | .internalError _ => True

theorem tells_shown {next : Shown} (home : Str) (h : Told site request next s) :
    TellsTruly site boots request (Site.shown home next) s := by
  cases next with
  | flashError message => exact tells_pushed h rfl
  | flashInfo message => exact tells_pushed h rfl
  | internalError context => exact tells_ret rfl

/-- A row with a new identifier and the time, that was inserted or not. -/
theorem tells_insert {α : Type} (u : Str → Instant → Write) (row : Str →
      Instant → α) (message : Str) :
    (((flashRules site boots request).pull WebOp.table (fun _ r => r)).pull Sum.inl
      (fun _ r => r)).Amid (fun r t => match r with
        | .ok inserted =>
            ∃ id now, inserted = row id now ∧ OnRecord t.2 request
              (.table (.inl (.write (u id now)))) (.ok ())
        | .error _ =>
            ∃ id now e, OnRecord t.2 request (.table (.inl (.write (u id now)))) (.error e))
      (do
        let id ← newUuid
        let now ← utcNow
        context message (write (u id now))
        return row id now : App α).run s := by
  have hrun : (do
        let id ← newUuid
        let now ← utcNow
        context message (write (u id now))
        return row id now : App α).run = op Op.uuid >>= fun id => op Op.now >>= fun now =>
          op (Op.write (u id now)) >>=
            fun r => ret ((r.mapError fun _ => message).map fun _ => row id now) := by
    refine congrArg (ask Op.uuid)
      (funext fun id => congrArg (ask Op.now) (funext fun now => ?_))
    refine congrArg (ask (Op.write (u id now))) (funext fun r => ?_)
    cases r <;> rfl
  rw [hrun]
  refine Rules.amid_bind tells_store fun id t _ _ => Rules.amid_bind tells_store
    fun now v _ _ => ?_
  refine Rules.amid_bind tells_store fun r w _ hr => ?_
  cases r with
  | ok _ => exact ⟨id, now, rfl, hr⟩
  | error e => exact ⟨id, now, e, hr⟩

theorem tells_createAlias {form : CreateAliasForm}
    (hform : request.endpoint = .admin (.createAlias form)) :
    TellsTruly site boots request (site.createAlias form) s := by
  refine Rules.amid_bind (m := Told site request) (tells_ofStore ?_)
    fun next t _ hnext => tells_shown _ hnext
  unfold createAlias
  refine Rules.amid_bind (m := fun localPart _ => trim form.localPart ≠ [] →
    localPart = trim form.localPart) ?_ fun localPart t _ hlocal => ?_
  · unfold chooseLocalPart
    split
    · next hempty =>
        exact Rules.amid_imp (fun _ _ _ hne => absurd (List.isEmpty_iff.mp hempty) hne)
          (tells_any randomLocalPart)
    · exact fun _ => rfl
  · cases hparse : EmailAddress.parse (localPart ++ '@' :: site.aliases.defaultDomain) with
    | error e => exact .invalidAlias form localPart e hform hparse hlocal
    | ok address =>
        refine Rules.amid_bind tells_store fun found u _ hfound => ?_
        match found, hfound with
        | .ok (some found), hfound => exact .aliasExists form address found hform hfound
        | .error e, _ => exact trivial
        | .ok none, _ =>
            dsimp only
            refine Rules.amid_bind (tells_insert _ _ _) fun r v _ hr => ?_
            cases r with
            | ok inserted =>
                obtain ⟨aliasId, createdAt, rfl, hr⟩ := hr
                exact .aliasCreated form _ hform hr rfl
            | error e =>
                obtain ⟨aliasId, createdAt, e, hr⟩ := hr
                exact .aliasRefused form _ e hform hr

theorem tells_toggleAlias {aliasId : Str}
    (hroute : request.endpoint = .admin (.toggleAlias aliasId)) :
    TellsTruly site boots request (Site.toggleAlias aliasId) s := by
  refine Rules.amid_bind (m := Told site request) (Rules.amid_embed ?_)
    fun next t _ hnext => tells_shown _ hnext
  refine Rules.amid_bind tells_table fun found t _ hfound => ?_
  match found, hfound with
  | .error e, _ => exact trivial
  | .ok aliases, hlisted =>
      unfold toggleListed
      dsimp only
      cases hfind : aliases.find? (·.toAlias.aliasId = aliasId) with
      | none =>
          refine .noSuchAlias aliasId aliases (Or.inl hroute) hlisted fun listed hmem hid => ?_
          exact List.find?_eq_none.mp hfind listed hmem (decide_eq_true hid)
      | some listed =>
          have hid : listed.toAlias.aliasId = aliasId := by simpa using List.find?_some hfind
          show ((flashRules site boots request).pull WebOp.table (fun _ r => r)).Amid
            (Told site request) (toggleFound listed.toAlias) t
          unfold toggleFound
          rw [lift_eq_embed, hid]
          refine Rules.amid_bind (Rules.amid_embed tells_store) fun r u htu hr => ?_
          match r, hr with
          | .error e, _ => exact trivial
          | .ok _, hr =>
              exact .toggled aliasId aliases listed hroute (hlisted.lasts htu)
                (List.mem_of_find?_eq_some hfind) hid hr

theorem tells_deletion {u : Write} {message home failure : Str}
    (h : ∀ trail, OnRecord trail request (.table (.inl (.write u))) (.ok ()) →
      Explained site trail request ⟨.info, message⟩) :
    TellsTruly site boots request (do
      match ← ofStore (write u).run with
      | .error _ => return Response.internalServerError failure
      | .ok _ =>
          flashInfo message
          return .redirect home) s := by
  refine Rules.amid_bind (tells_ofStore tells_store) fun r t _ hr => ?_
  match r, hr with
  | .error _, _ => exact tells_ret rfl
  | .ok _, hr => exact tells_pushed (h t.2 hr) rfl

theorem tells_createMailbox {form : CreateMailboxForm}
    (hform : request.endpoint = .admin (.createMailbox form)) :
    TellsTruly site boots request (Site.createMailbox form) s := by
  unfold Site.createMailbox
  cases hparse : EmailAddress.parse form.email with
  | error e => exact tells_pushed (.invalidMailbox form e hform hparse) rfl
  | ok email =>
      refine Rules.amid_bind (tells_ofStore (tells_insert _ _ _)) fun r t _ hr => ?_
      cases r with
      | ok inserted =>
          obtain ⟨mailboxId, createdAt, rfl, hr⟩ := hr
          exact tells_pushed (.mailboxAdded form _ hform hr rfl) rfl
      | error e =>
          obtain ⟨mailboxId, createdAt, e, hr⟩ := hr
          exact tells_pushed (.mailboxRefused form _ e hform hr) rfl

theorem tells_dashboard : TellsTruly site boots request site.dashboard s := by
  refine Rules.amid_bind (Rules.amid_embed tells_table) fun aliases t _ _ => ?_
  cases aliases with
  | error _ => exact tells_ret rfl
  | ok aliases =>
      refine Rules.amid_bind (tells_op trivial fun _ => trivial) fun mailboxes u _ _ => ?_
      cases mailboxes with
      | error _ => exact tells_ret rfl
      | ok mailboxes =>
          refine Rules.amid_bind (tells_op trivial fun _ => trivial) fun messages v _ _ => ?_
          cases messages with
          | error _ => exact tells_ret rfl
          | ok messages => exact shows_page fun _ => rfl

theorem tells_aliasDetail {aliasId : Str}
    (hroute : request.endpoint = .admin (.aliasDetail aliasId)) :
    TellsTruly site boots request (site.aliasDetail aliasId) s := by
  refine Rules.amid_bind (Rules.amid_embed tells_table) fun found t _ hfound => ?_
  match found, hfound with
  | .error _, _ => exact tells_ret rfl
  | .ok aliases, hlisted =>
      dsimp only
      cases hfind : aliases.find? (·.toAlias.aliasId = aliasId) with
      | none =>
          refine tells_pushed (.noSuchAlias aliasId aliases (Or.inr hroute) hlisted
            fun listed hmem hid => ?_) rfl
          exact List.find?_eq_none.mp hfind listed hmem (decide_eq_true hid)
      | some listed =>
          refine Rules.amid_bind (tells_op trivial fun _ => trivial) fun contacts u _ _ => ?_
          cases contacts with
          | error _ => exact tells_ret rfl
          | ok contacts => exact shows_page fun _ => rfl

theorem tells_mailboxes : TellsTruly site boots request site.mailboxes s := by
  refine Rules.amid_bind (tells_op trivial fun _ => trivial) fun mailboxes t _ _ => ?_
  cases mailboxes with
  | error _ => exact tells_ret rfl
  | ok mailboxes => exact shows_page fun _ => rfl

theorem tells_adminRoutes {route : AdminRoute} (hroute : request.endpoint = .admin route) :
    TellsTruly site boots request (site.adminRoutes route) s := by
  cases route with
  | dashboard => exact tells_dashboard
  | createAlias form => exact tells_createAlias hroute
  | aliasDetail aliasId => exact tells_aliasDetail hroute
  | toggleAlias aliasId => exact tells_toggleAlias hroute
  | deleteAlias aliasId => exact tells_deletion fun _ => .aliasDeleted aliasId hroute
  | mailboxes => exact tells_mailboxes
  | createMailbox form => exact tells_createMailbox hroute
  | deleteMailbox mailboxId => exact tells_deletion fun _ => .mailboxDeleted mailboxId hroute
  | styleguide => exact shows_page fun _ => rfl
  | logOut =>
      exact Rules.amid_bind (tells_op trivial fun _ => trivial) fun _ _ _ _ => tells_ret rfl

/-! ### The accounts -/

theorem judged_invalid {argon2 : Argon2} {password source : Str}
    {found : Except Str (Option User)}
    (h : judged argon2 password found = .error (.invalidCredentials source)) :
    ∃ row, found = .ok row ∧ ∀ u, row = some u →
      argon2.verifyPassword u.passwordHash password ≠ .ok () := by
  match found, h with
  | .error _, h => cases h
  | .ok none, _ => exact ⟨none, rfl, fun _ hnone => by cases hnone⟩
  | .ok (some row), h =>
      refine ⟨some row, rfl, fun u hu hverify => ?_⟩
      cases hu
      unfold judged at h
      dsimp only at h
      rw [hverify] at h
      cases h

theorem judged_unexpected {argon2 : Argon2} {password source : Str}
    {found : Except Str (Option User)}
    (h : judged argon2 password found = .error (.unexpectedError source)) :
    ∃ e, found = .error e := by
  match found, h with
  | .error e, _ => exact ⟨e, rfl⟩
  | .ok none, h | .ok (some row), h =>
      unfold judged at h
      dsimp only at h
      split at h <;> cases h

/-- What is known of the user that a login looks up. -/
theorem tells_findUser {username : Str} :
    ((flashRules site boots request).pull WebOp.account (fun _ r => r)).Amid
    (fun found t => OnRecord t.2 request (.account (.findUser username)) found)
    (op (UserOp.findUser username)) s :=
  @tells_op site boots request s (.account (.findUser username)) trivial fun _ => trivial

theorem tells_login {form : LoginFormData} (hform : request.endpoint = .login form) :
    TellsTruly site boots request (site.login form) s := by
  unfold Site.login ofAccount
  rw [validateCredentials_eq]
  refine Rules.amid_bind
    (m := fun r t => ∃ found, OnRecord t.2 request (.account (.findUser form.username)) found ∧
      r = judged site.argon2 form.password found)
    (Rules.amid_embed (Rules.amid_bind tells_findUser
      fun found t _ hfound => ⟨found, hfound, rfl⟩)) fun r t _ hr => ?_
  · obtain ⟨found, hfound, hr⟩ := hr
    match r, hr.symm with
    | .ok userId, hjudged =>
        obtain ⟨row, rfl, hid, hverify⟩ := judged_ok hjudged
        refine Rules.amid_bind (tells_op trivial fun _ => trivial)
          fun stored u htu hstored => ?_
        match stored, hstored with
        | .ok _, _ => exact tells_ret rfl
        | .error e, hstored =>
            obtain ⟨past, hfound⟩ := hfound
            have hlogin : LoggedIn site.argon2 t.2 request userId :=
              ⟨form, row, past, hform, hfound, hid, hverify⟩
            exact tells_pushed (.noSession userId e (hlogin.lasts htu) hstored) rfl
    | .error (.invalidCredentials _), hjudged =>
        obtain ⟨row, rfl, hbad⟩ := judged_invalid hjudged
        exact tells_pushed (.invalidCredentials form row hform hfound hbad) rfl
    | .error (.unexpectedError _), hjudged =>
        obtain ⟨e, rfl⟩ := judged_unexpected hjudged
        exact tells_pushed (.somethingWrong form e hform hfound) rfl

/-- What the extractor rejects shows nothing. -/
theorem tells_authenticatedUser (hadmin : request.IsAdmin) :
    (flashRules site boots request).Amid
    (fun (r : Except Response Str) _ => ∀ rejection, r = .error rejection →
      rejection.flashMessages = [])
    authenticatedUser s := by
  refine Rules.amid_bind (tells_op trivial fun _ => trivial) fun found t _ hfound => ?_
  have hreject : (∀ userId, found ≠ .ok (some userId)) → (flashRules site boots request).Amid
      (fun (r : Except Response Str) _ => ∀ rejection, r = .error rejection →
        rejection.flashMessages = [])
      (flashError "You must be logged in to access that page" >>=
        fun _ => ret (.error (.redirect "/login"))) t := by
    intro hnone
    refine Rules.amid_bind (tells_pushFlash (.notLoggedIn found hadmin hfound hnone))
      fun _ _ _ _ rejection h => ?_
    cases h
    rfl
  match found, hreject with
  | .ok (some userId), _ => exact fun _ h => by cases h
  | .ok none, hreject => exact hreject fun _ h => by cases h
  | .error _, hreject => exact hreject fun _ h => by cases h

/-! ## Every run -/

theorem tells_buildRouter :
    TellsTruly site boots request (site.buildRouter request.endpoint) s := by
  cases hendpoint : request.endpoint with
  | home | healthCheck => exact tells_ret rfl
  | loginForm => exact shows_page fun _ => rfl
  | login form => exact tells_login hendpoint
  | appCss ifNoneMatch | appJs ifNoneMatch =>
      refine tells_ret ?_
      unfold Site.asset
      split <;> rfl
  | admin route =>
      refine Rules.amid_bind (tells_authenticatedUser ⟨route, hendpoint⟩)
        fun passed t _ hpassed => ?_
      cases passed with
      | error rejection => exact tells_ret (hpassed rejection rfl)
      | ok userId => exact tells_adminRoutes hendpoint

/-- A request keeps to the discipline. -/
theorem tells_serve (s : SiteState × SiteTrail) :
    (flashRules site boots request).Amid
      (fun _ _ => True) (site.serve request.endpoint) s := by
  refine Rules.amid_bind tells_buildRouter fun response t _ htaken => ?_
  refine Rules.amid_op fun u htu _ => ⟨⟨trivial, fun message hmessage => ?_⟩,
    fun _ _ _ _ => trivial⟩
  obtain ⟨messages, hmem, hin⟩ := htaken message hmessage
  exact ⟨messages, hmem.lasts htu, hin⟩

end

/-- What is put into a session was pushed by a request of that session: it was read there, and
put there before, or it is new. -/
theorem put_pushed {site : Site} {given : Asked SiteOp SiteRes → Prop} :
    ∀ (n : Nat) (trail : SiteTrail),
    trail.length ≤ n →
    Orderly ⟨Tells site, fun before e => Remembers before e ∧ given e⟩ trail →
    ∀ (request : Request) messages r,
      (⟨(request, .session (.insertFlash messages)), r⟩ : Asked SiteOp SiteRes) ∈ trail →
      ∀ message ∈ messages, ∃ earlier : Request, earlier.session = request.session ∧
        Pushed site trail earlier message := by
  intro n
  induction n with
  | zero =>
      intro trail hlength _ request messages r hput
      rw [List.length_eq_zero_iff.mp (Nat.le_zero.mp hlength)] at hput
      cases hput
  | succ n ih =>
      intro trail hlength h request messages r hput message hmessage
      obtain ⟨before, after, rfl, ⟨held, pushed, rfl, hheld, hexplained⟩, -⟩ := h.of_mem hput
      have hbefore := h.start (List.prefix_append before _)
      rcases List.mem_append.mp hmessage with hmessage | hmessage
      · obtain ⟨messages, ⟨past, hmem⟩, hin⟩ := hheld message hmessage
        obtain ⟨front, back, rfl, -, ⟨earlier, r', hsession, hfront⟩, -⟩ := hbefore.of_mem hmem
        have hshorter : front.length ≤ n := by
          simp only [List.length_append, List.length_cons] at hlength
          omega
        obtain ⟨first, hfirst, hpushed⟩ :=
          ih front hshorter (hbefore.start (List.prefix_append front _)) earlier
          messages r' hfront message hin
        exact ⟨first, hfirst.trans hsession, hpushed.lasts (by simp)⟩
      · cases List.mem_singleton.mp hmessage
        exact ⟨request, rfl, before, held, r, by simp, hexplained⟩

/-- A message that is shown was pushed by a request of the same session, and tells what that
request had been answered. -/
theorem shown_explained {site : Site} {boots : List (Str × Str)} {s : SiteState} {t : SiteCrew}
    (h : SiteRun site boots s t) : ∀ before (request : Request) (response : Response) r after,
      t.state.2 = before ++ ⟨(request, .respond response), r⟩ :: after →
      ∀ message ∈ response.flashMessages,
        ∃ earlier : Request, earlier.session = request.session ∧
          Pushed site before earlier message := by
  intro before request response r after htrail message hmessage
  have horderly := orderly_site (fun request s => tells_serve s) h
  obtain ⟨hallowed, -⟩ := horderly before _ after htrail
  obtain ⟨messages, ⟨past, hmem⟩, hin⟩ := hallowed message hmessage
  have hbefore := @Orderly.start _ _ _ _ before horderly ⟨_, htrail.symm⟩
  obtain ⟨front, back, rfl, -, ⟨earlier, r', hsession, hput⟩, -⟩ := hbefore.of_mem hmem
  obtain ⟨first, hfirst, hpushed⟩ :=
    put_pushed _ front le_rfl (hbefore.start (List.prefix_append front _)) earlier
    messages r' hput message hin
  exact ⟨first, hfirst.trans hsession, hpushed.lasts (List.prefix_append _ _)⟩

/-! ### A page that is refused -/

/-- The session holds these messages, and no user. -/
def sessionWith (messages : Option (List FlashMessage)) : WebChance :=
  ⟨Chance.calm 3, fun
    | .getUserId | .removeUserId => .ok none
    | .getFlash | .removeFlash => .ok messages
    | .insertUserId _ | .insertFlash _ => .ok ()⟩

def loginFormRequest : Request := ⟨2, "session", .loginForm⟩

def mustLogIn : FlashMessage := ⟨.error, "You must be logged in to access that page"⟩

/-- The dashboard is refused, and the form for the login tells so. -/
def refusedThenTold : List (Nat × WebChance) :=
  List.replicate 4 (0, sessionWith none) ++ List.replicate 2
    (1, sessionWith (some [mustLogIn]))

theorem shown_explained_refused : ∃ before r,
    (serving [dashboardRequest, loginFormRequest] refusedThenTold).state.2
      = before ++ [⟨(loginFormRequest, .respond (.html (.login [mustLogIn]))), r⟩] ∧
    ∃ earlier : Request, earlier.session = "session".toList ∧
      Pushed Site.sample before earlier mustLogIn := by
  have hrun := run_serving [dashboardRequest, loginFormRequest] refusedThenTold ?_
  · refine ⟨_, _, rfl, ?_⟩
    exact shown_explained hrun _ _ _ _ _ rfl mustLogIn List.mem_cons_self
  · refine ⟨trivial, trivial, trivial, trivial,
      ⟨dashboardRequest, (.ok (), twoBoots), rfl, ?_⟩, trivial, trivial⟩
    exact .tail _ (.tail _ (.head _))

end Weiterleitung
