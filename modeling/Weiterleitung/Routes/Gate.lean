/-
# `Routes.Gate` — who gets behind the gate

Requests take turns with each other, while the mail server changes the tables and the process
is started again with other accounts.  The session layer answers at will, but for this: what is
read from a session was put into it before (`Remembers`).  An answer is noted with the starts
of the program until then, so that a run tells which accounts there were.  The tables of the
operator are then asked for, and pages of the operator shown, only after a login in that
session with a name and the password that the last of these starts with that name had:

    behind the gate the request has found a user in its session     (`amid_authenticatedUser`)
    a login puts a user into the session whose hash fits            (`amid_login`)
    every request keeps to `Admits`                                 (`amid_serve`)
    so does a run, whatever the order of turns                      (`behind_gate`)
-/
import Mathlib
import Weiterleitung.Routes.Site

namespace Weiterleitung

open Text Prog TypedSession

/-! ## Requests that take turns -/

/-- The tables, and the accounts of the boots so far. -/
structure SiteState where
  world : World
  users : Users
  boots : List (Str × Str)

/-- What one operation leaves to chance, and to the session layer. -/
structure WebChance where
  chance : Chance
  session : (o : SessionOp) → SessionRes o

def answerWeb : (o : WebOp) → WebChance → SiteState → WebRes o × SiteState
  | .table o, c, s =>
      ((answerPage o c.chance s.world).1,
        { s with world := (answerPage o c.chance s.world).2 })
  | .view v, c, s => (v.answer c.chance s.world, s)
  | .account o, c, s =>
      ((answerUser o ⟨s.users, fun _ => c.chance, 0⟩).1,
        { s with users := (answerUser o ⟨s.users, fun _ => c.chance, 0⟩).2.users })
  | .session o, c, s => (c.session o, s)
  | .respond _, _, s => ((), s)

/-- Operations, each with the request that asked for it. -/
abbrev SiteOp := Request × WebOp

/-- The answer, and the boots until then. -/
abbrev SiteRes (o : SiteOp) : Type := WebRes o.2 × List (Str × Str)

abbrev SiteTrail := Trail SiteOp SiteRes

/-- The program of a request, which is not told of the boots. -/
def asRequest {α : Type} (request : Request) (p : Web α) : Prog SiteOp SiteRes α :=
  @embed _ _ _ SiteRes _ (fun o => (request, o)) (fun _ r => r.1) p

/-- The process does no more with the accounts than to look them up, while it serves. -/
def LooksUp : WebOp → Prop
  | .account (.findUser _) => True
  | .account _ => False
  | _ => True

/-- A user that was found had an account of one of these boots. -/
def Found (argon2 : Argon2) (past : List (Str × Str)) : (o : WebOp) → WebRes o → Prop
  | .account (.findUser username), .ok found =>
      ∃ users, Booted argon2 past users ∧ found = findUser username users
  | _, _ => True

def siteAnswering (argon2 : Argon2) (boots : List (Str × Str)) :
    Answering SiteOp SiteRes WebChance SiteState where
  answer o c s := (((answerWeb o.2 c s).1, s.boots), (answerWeb o.2 c s).2)
  holds s := Booted argon2 s.boots s.users ∧ s.boots <+: boots
  may o := LooksUp o.2
  given e := e.2.2 <+: boots ∧ Found argon2 e.2.2 e.1.2 e.2.1
  keeps := by
    rintro ⟨request, o⟩ c s hs ho
    cases o with
    | account o =>
        cases o with
        | findUser username => exact hs
        | salt | uuid | now | upsertUser _ => exact ho.elim
    | table _ | view _ | session _ | respond _ => exact hs
  gives := by
    rintro ⟨request, o⟩ c s hs
    refine ⟨hs.2, ?_⟩
    cases o with
    | account o =>
        cases o with
        | findUser username =>
            show Found argon2 s.boots (.account (.findUser username))
              (c.chance.give (findUser username s.users))
            unfold Chance.give
            split
            · trivial
            · exact ⟨s.users, hs.1, rfl⟩
        | salt | uuid | now | upsertUser _ => trivial
    | table _ | view _ | session _ | respond _ => trivial

/-- What is read from a session was put into it. -/
def Remembered (before : SiteTrail) (session : Str) : (o : SessionOp) → SessionRes o → Prop
  | .getUserId, .ok (some userId) | .removeUserId, .ok (some userId) =>
      ∃ (earlier : Request) (r : SiteRes (earlier, .session (.insertUserId userId))),
        earlier.session = session ∧ ⟨(earlier, .session (.insertUserId userId)), r⟩ ∈ before
  | .getFlash, .ok (some messages) | .removeFlash, .ok (some messages) =>
      ∃ (earlier : Request) (r : SiteRes (earlier, .session (.insertFlash messages))),
        earlier.session = session ∧ ⟨(earlier, .session (.insertFlash messages)), r⟩ ∈ before
  | _, _ => True

def Remembers (before : SiteTrail) : Asked SiteOp SiteRes → Prop
  | ⟨(request, .session o), r⟩ => Remembered before request.session o r.1
  | _ => True

/-- The rest of the process, and its next start. -/
inductive Meanwhile (argon2 : Argon2) (boots : List (Str × Str)) : SiteState → SiteState → Prop
  | world (s : SiteState) (world : World) : Meanwhile argon2 boots s { s with world := world }
  | boot (s : SiteState) (m m' : Accounts) (username password : Str) : m.users = s.users →
      exec answerUser (seedAdminUser argon2 username password) m = (.ok (), m') →
      s.boots ++ [(username, password)] <+: boots →
      Meanwhile argon2 boots s
        { s with users := m'.users, boots := s.boots ++ [(username, password)] }

/-- Requests at work. -/
abbrev SiteCrew := Crew SiteOp SiteRes (SiteState × SiteTrail) Unit

/-- A run of requests, in which nothing is asked of what they do. -/
structure SiteRun (site : Site) (boots : List (Str × Str)) (s : SiteState) (t : SiteCrew) :
    Prop where
  booted : Booted site.argon2 s.boots s.users
  known : s.boots <+: boots
  run : Crew.Run (tracked (siteAnswering site.argon2 boots) ⟨fun _ _ => True, Remembers⟩)
    (fun p => ∃ request : Request, p = asRequest request (site.serve request.endpoint))
    (fun s t => Meanwhile site.argon2 boots s.1 t.1 ∧ t.2 = s.2) ⟨(s, []), []⟩ t

theorem holds_meanwhile {argon2 : Argon2} {boots : List (Str × Str)} {s t : SiteState}
    (hs : (siteAnswering argon2 boots).holds s) (h : Meanwhile argon2 boots s t) :
    (siteAnswering argon2 boots).holds t := by
  cases h with
  | world => exact hs
  | boot m m' username password hm hseed hnext => exact ⟨.boot (hm ▸ hs.1) hseed, hnext⟩

/-- Requests that keep to a discipline leave an orderly trail. -/
theorem orderly_site {site : Site} {boots : List (Str × Str)} {A : SiteTrail → SiteOp → Prop}
    (hserve : ∀ (request : Request) s,
      ((tracked (siteAnswering site.argon2 boots) ⟨A, Remembers⟩).pull
      (fun o => (request, o)) (fun _ r => r.1)).Amid (fun _ _ => True)
      (site.serve request.endpoint) s)
    {s : SiteState} {t : SiteCrew} (h : SiteRun site boots s t) :
    Orderly ⟨A, fun before e => Remembers before e ∧ e.2.2 <+: boots ∧
      Found site.argon2 e.2.2 e.1.2 e.2.1⟩ t.state.2 := by
  refine orderly_run (M := siteAnswering site.argon2 boots) ?_ ?_ ⟨h.booted, h.known⟩ h.run
  · rintro p ⟨request, rfl⟩ u
    exact Rules.amid_embed (hserve request u)
  · intro u v hu huv
    exact ⟨holds_meanwhile hu huv.1, huv.2⟩

/-! ## The discipline of the gate -/

def Request.IsAdmin (request : Request) : Prop := ∃ route, request.endpoint = .admin route

/-- The request was given this answer, after these boots. -/
def GivenAfter (trail : SiteTrail) (request : Request) (o : WebOp) (r : WebRes o)
    (past : List (Str × Str)) : Prop :=
  (⟨(request, o), (r, past)⟩ : Asked SiteOp SiteRes) ∈ trail

/-- The request has found a user in its session. -/
def LetIn (trail : SiteTrail) (request : Request) : Prop :=
  ∃ userId past, GivenAfter trail request (.session .getUserId) (.ok (some userId)) past

/-- The request is a login, and has found this user, whose hash fits. -/
def LoggedIn (argon2 : Argon2) (trail : SiteTrail) (request : Request) (userId : Str) : Prop :=
  ∃ form row past, request.endpoint = .login form ∧
    GivenAfter trail request (.account (.findUser form.username)) (.ok (some row)) past ∧
    row.userId = userId ∧ argon2.verifyPassword row.passwordHash form.password = .ok ()

def Admits (argon2 : Argon2) (trail : SiteTrail) : SiteOp → Prop
  | (request, .table _) | (request, .view _) => request.IsAdmin ∧ LetIn trail request
  | (request, .session (.insertUserId userId)) => LoggedIn argon2 trail request userId
  | (request, .respond response) =>
      request.IsAdmin → response = .redirect "/login" ∨ LetIn trail request
  | _ => True

theorem LetIn.lasts {request : Request} {before trail : SiteTrail} (hp : before <+: trail)
    (h : LetIn before request) : LetIn trail request := by
  obtain ⟨userId, past, hmem⟩ := h
  exact ⟨userId, past, hp.subset hmem⟩

theorem LoggedIn.lasts {argon2 : Argon2} {request : Request} {userId : Str}
    {before trail : SiteTrail} (h : LoggedIn argon2 before request userId)
    (hp : before <+: trail) : LoggedIn argon2 trail request userId := by
  obtain ⟨form, row, past, hform, hmem, hrest⟩ := h
  exact ⟨form, row, past, hform, hp.subset hmem, hrest⟩

/-- What a handler behind the gate may ask for. -/
def Behind : WebOp → Prop
  | .account _ | .session (.insertUserId _) => False
  | _ => True

section
variable {argon2 : Argon2} {boots : List (Str × Str)} {request : Request}

/-- The rules that a request is under. -/
abbrev gateRules (argon2 : Argon2) (boots : List (Str × Str)) (request : Request) :
    Rules WebOp WebRes WebChance (SiteState × SiteTrail) :=
  (tracked (siteAnswering argon2 boots) ⟨Admits argon2, Remembers⟩).pull
    (fun o => (request, o)) (fun _ r => r.1)

/-- Behind the gate everything is allowed. -/
theorem amid_letIn {α : Type} {p : Web α} (hp : Uses Behind p) (hadmin : request.IsAdmin)
    (s : SiteState × SiteTrail) (h : LetIn s.2 request) :
    (gateRules argon2 boots request).Amid (fun _ _ => True) p s := by
  refine amid_of_lasting (G := fun trail => LetIn trail request) LetIn.lasts
    (fun o trail ho hin => ?_) hp s h
  cases o with
  | table _ | view _ => exact ⟨trivial, hadmin, hin⟩
  | account _ => exact ho.elim
  | respond _ => exact ⟨trivial, fun _ => Or.inr hin⟩
  | session o =>
      cases o with
      | insertUserId _ => exact ho.elim
      | getUserId | removeUserId | getFlash | insertFlash _ | removeFlash =>
          exact ⟨trivial, trivial⟩

/-- The flash messages of a session are open to every request. -/
def Flash : WebOp → Prop
  | .session .getFlash | .session (.insertFlash _) | .session .removeFlash => True
  | _ => False

theorem amid_flash {α : Type} {p : Web α} (hp : Uses Flash p) (s : SiteState × SiteTrail) :
    (gateRules argon2 boots request).Amid (fun _ _ => True) p s := by
  refine amid_of_lasting (G := fun _ => True) (fun _ => id)
    (fun o trail ho _ => ?_) hp s trivial
  cases o with
  | table _ | view _ | account _ | respond _ => exact ho.elim
  | session o =>
      cases o with
      | getFlash | insertFlash _ | removeFlash => exact ⟨trivial, trivial⟩
      | insertUserId _ | getUserId | removeUserId => exact ho.elim

theorem flash_pushFlash (level : FlashLevel) (content : Str) :
    Uses Flash (pushFlash level content) :=
  ⟨trivial, fun _ => ⟨trivial, fun _ => trivial⟩⟩

theorem flash_getFlashMessages : Uses Flash getFlashMessages := ⟨trivial, fun _ => trivial⟩

/-- Who passes the extractor has found a user in the session. -/
theorem amid_authenticatedUser (s : SiteState × SiteTrail) :
    (gateRules argon2 boots request).Amid
    (fun (r : Except Response Str) t => r = .error (.redirect "/login") ∨ LetIn t.2 request)
    authenticatedUser s := by
  refine Rules.amid_bind (amid_noted trivial fun _ _ => trivial) fun found t _ hfound => ?_
  obtain ⟨⟨found, past⟩, rfl, hmem⟩ := hfound
  have hreject : (gateRules argon2 boots request).Amid
      (fun (r : Except Response Str) t => r = .error (.redirect "/login") ∨ LetIn t.2 request)
      (flashError "You must be logged in to access that page" >>=
        fun _ => ret (.error (.redirect "/login"))) t :=
    Rules.amid_bind (amid_flash (flash_pushFlash _ _) t) fun _ _ _ _ => Or.inl rfl
  match found with
  | .ok (some userId) => exact Or.inr ⟨userId, past, hmem⟩
  | .ok none => exact hreject
  | .error _ => exact hreject

/-! ### Behind the gate -/

theorem behind_of_flash : ∀ o, Flash o → Behind o
  | .session .getFlash, _ | .session (.insertFlash _), _ | .session .removeFlash, _ => trivial

theorem behind_pushFlash (level : FlashLevel) (content : Str) :
    Uses Behind (pushFlash level content) :=
  uses_mono behind_of_flash (flash_pushFlash level content)

theorem behind_getFlashMessages : Uses Behind getFlashMessages :=
  uses_mono behind_of_flash flash_getFlashMessages

theorem behind_ofTable {α : Type} (p : Prog (Op ⊕ Query) PageRes α) :
    Uses Behind (ofTable p) :=
  uses_embed (uses_all (fun _ => trivial) p)

theorem behind_look (v : View) : Uses Behind (look v) := ⟨trivial, fun _ => trivial⟩

theorem behind_shown (home : Str) (next : Shown) : Uses Behind (Site.shown home next) := by
  cases next with
  | flashError message | flashInfo message =>
      exact uses_bind (behind_pushFlash _ _) fun _ => trivial
  | internalError context => trivial

theorem behind_dashboard (site : Site) : Uses Behind site.dashboard := by
  refine uses_bind (behind_ofTable _) fun aliases => ?_
  cases aliases with
  | error _ => trivial
  | ok aliases =>
      refine uses_bind (behind_look _) fun mailboxes => ?_
      cases mailboxes with
      | error _ => trivial
      | ok mailboxes =>
          refine uses_bind (behind_look _) fun messages => ?_
          cases messages with
          | error _ => trivial
          | ok messages => exact uses_bind behind_getFlashMessages fun _ => trivial

theorem behind_aliasDetail (site : Site) (aliasId : Str) :
    Uses Behind (site.aliasDetail aliasId) := by
  refine uses_bind (behind_ofTable _) fun aliases => ?_
  cases aliases with
  | error _ => trivial
  | ok aliases =>
      dsimp only
      cases aliases.find? (·.toAlias.aliasId = aliasId) with
      | none => exact uses_bind (behind_pushFlash _ _) fun _ => trivial
      | some listed =>
          refine uses_bind (behind_look _) fun contacts => ?_
          cases contacts with
          | error _ => trivial
          | ok contacts => exact uses_bind behind_getFlashMessages fun _ => trivial

theorem behind_mailboxes (site : Site) : Uses Behind site.mailboxes := by
  refine uses_bind (behind_look _) fun mailboxes => ?_
  cases mailboxes with
  | error _ => trivial
  | ok mailboxes => exact uses_bind behind_getFlashMessages fun _ => trivial

theorem behind_createMailbox (form : CreateMailboxForm) :
    Uses Behind (Site.createMailbox form) := by
  unfold Site.createMailbox
  cases EmailAddress.parse form.email with
  | error e => exact uses_bind (behind_pushFlash _ _) fun _ => trivial
  | ok email =>
      refine uses_bind (behind_ofTable _) fun inserted => ?_
      cases inserted with
      | ok mailbox => exact uses_bind (behind_pushFlash _ _) fun _ => trivial
      | error _ => exact uses_bind (behind_pushFlash _ _) fun _ => trivial

theorem behind_deletion {context message home : Str} {deletion : App Unit} :
    Uses Behind (do
      match ← ofStore deletion.run with
      | .error _ => return Response.internalServerError context
      | .ok _ =>
          flashInfo message
          return .redirect home) := by
  refine uses_bind (behind_ofTable _) fun deleted => ?_
  cases deleted with
  | error _ => trivial
  | ok _ => exact uses_bind (behind_pushFlash _ _) fun _ => trivial

theorem behind_adminRoutes (site : Site) (route : AdminRoute) :
    Uses Behind (site.adminRoutes route) := by
  cases route with
  | dashboard => exact behind_dashboard site
  | createAlias form => exact uses_bind (behind_ofTable _) fun next => behind_shown _ next
  | aliasDetail aliasId => exact behind_aliasDetail site aliasId
  | toggleAlias aliasId => exact uses_bind (behind_ofTable _) fun next => behind_shown _ next
  | deleteAlias aliasId => exact behind_deletion
  | mailboxes => exact behind_mailboxes site
  | createMailbox form => exact behind_createMailbox form
  | deleteMailbox mailboxId => exact behind_deletion
  | styleguide => exact uses_bind behind_getFlashMessages fun _ => trivial
  | logOut => exact ⟨trivial, fun _ => trivial⟩

/-! ### In front of the gate -/

/-- What a login makes of the row that was found. -/
def judged (argon2 : Argon2) (password : Str) : Except Str (Option User) → Except AuthError Str
  | .error _ => .error (.unexpectedError "Failed to query the stored credentials")
  | .ok none =>
      match argon2.verifyPassword dummyHash password with
      | .error _ => .error (.invalidCredentials "Invalid password")
      | .ok _ => .error (.invalidCredentials "Unknown username")
  | .ok (some row) =>
      match argon2.verifyPassword row.passwordHash password with
      | .error _ => .error (.invalidCredentials "Invalid password")
      | .ok _ => .ok row.userId

theorem validateCredentials_eq (argon2 : Argon2) (username password : Str) :
    (validateCredentials argon2 username password).run
      = op (UserOp.findUser username) >>= fun found => ret (judged argon2 password found) := by
  refine congrArg (ask (UserOp.findUser username)) (funext fun found => ?_)
  match found with
  | .error _ => rfl
  | .ok none =>
      show (computed ((argon2.verifyPassword dummyHash password).mapError fun _ => _) >>=
        fun _ => throw _).run = ret (judged argon2 password (.ok none))
      unfold judged
      dsimp only
      cases argon2.verifyPassword dummyHash password <;> rfl
  | .ok (some row) =>
      show (computed ((argon2.verifyPassword row.passwordHash password).mapError
        fun _ => _) >>= fun _ => pure _).run = ret (judged argon2 password (.ok (some row)))
      unfold judged
      dsimp only
      cases argon2.verifyPassword row.passwordHash password <;> rfl

theorem judged_ok {password userId : Str} {found : Except Str (Option User)}
    (h : judged argon2 password found = .ok userId) :
    ∃ row, found = .ok (some row) ∧ row.userId = userId ∧
      argon2.verifyPassword row.passwordHash password = .ok () := by
  match found, h with
  | .error _, h => cases h
  | .ok none, h =>
      unfold judged at h
      dsimp only at h
      split at h <;> cases h
  | .ok (some row), h =>
      unfold judged at h
      dsimp only at h
      split at h
      · cases h
      · next hverify =>
          cases h
          exact ⟨row, rfl, rfl, hverify⟩

/-- The user that a login looks up is noted, with the boots until then. -/
theorem amid_findUser {username : Str} {s : SiteState × SiteTrail} :
    ((gateRules argon2 boots request).pull WebOp.account (fun _ r => r)).Amid
      (fun found t => ∃ past,
        GivenAfter t.2 request (.account (.findUser username)) found past)
      (op (UserOp.findUser username)) s := by
  refine Rules.amid_op fun t _ _ => ⟨⟨trivial, trivial⟩, fun c _ _ _ => ?_⟩
  exact ⟨t.1.boots, List.mem_append_right _ List.mem_cons_self⟩

/-- A login puts a user into the session that it has found, and whose hash fits. -/
theorem amid_login {site : Site} {form : LoginFormData}
    (hform : request.endpoint = .login form)
    (s : SiteState × SiteTrail) :
    (gateRules site.argon2 boots request).Amid (fun _ _ => True) (site.login form) s := by
  unfold Site.login ofAccount
  rw [validateCredentials_eq]
  refine Rules.amid_bind (m := fun r t => ∀ userId, r = .ok userId →
    LoggedIn site.argon2 t.2 request userId)
    (Rules.amid_embed (Rules.amid_bind amid_findUser fun found t _ hfound => ?_))
    fun r t _ hr => ?_
  · intro userId hjudged
    obtain ⟨past, hmem⟩ := hfound
    obtain ⟨row, rfl, hid, hverify⟩ := judged_ok hjudged
    exact ⟨form, row, past, hform, hmem, hid, hverify⟩
  · match r, hr with
    | .ok userId, hr =>
        have hlogin := hr userId rfl
        refine Rules.amid_bind (m := fun _ _ => True) ?_ fun stored u _ _ => ?_
        · exact Rules.amid_op fun u htu _ =>
            ⟨⟨trivial, hlogin.lasts htu⟩, fun _ _ _ _ => trivial⟩
        · match stored with
          | .error _ =>
              exact Rules.amid_bind (amid_flash (flash_pushFlash _ _) u) fun _ _ _ _ => trivial
          | .ok _ => exact trivial
    | .error (.invalidCredentials _), _ =>
        exact Rules.amid_bind (amid_flash (flash_pushFlash _ _) t) fun _ _ _ _ => trivial
    | .error (.unexpectedError _), _ =>
        exact Rules.amid_bind (amid_flash (flash_pushFlash _ _) t) fun _ _ _ _ => trivial

/-! ## Every request -/

theorem amid_respond {response : Response} (hpublic : ¬ request.IsAdmin)
    (s : SiteState × SiteTrail) :
    (gateRules argon2 boots request).Amid (fun _ _ => True) (op (WebOp.respond response)) s :=
  Rules.amid_op fun _ _ _ => ⟨⟨trivial, fun h => absurd h hpublic⟩, fun _ _ _ _ => trivial⟩

/-- A request keeps to the discipline. -/
theorem amid_serve {site : Site} (s : SiteState × SiteTrail) :
    (gateRules site.argon2 boots request).Amid
      (fun _ _ => True) (site.serve request.endpoint) s := by
  cases hendpoint : request.endpoint with
  | admin route =>
      have hadmin : request.IsAdmin := ⟨route, hendpoint⟩
      unfold Site.serve Site.buildRouter
      rw [bind_assoc]
      refine Rules.amid_bind (amid_authenticatedUser s) fun passed t _ hpassed => ?_
      rcases hpassed with rfl | hin
      · exact Rules.amid_op fun _ _ _ =>
          ⟨⟨trivial, fun _ => Or.inl rfl⟩, fun _ _ _ _ => trivial⟩
      · refine amid_letIn ?_ hadmin t hin
        cases passed with
        | error rejection => exact ⟨trivial, fun _ => trivial⟩
        | ok userId =>
            exact uses_bind (behind_adminRoutes site route)
              fun _ => ⟨trivial, fun _ => trivial⟩
  | home | healthCheck | appCss ifNoneMatch | appJs ifNoneMatch =>
      exact amid_respond (fun ⟨_, h⟩ => by rw [hendpoint] at h; cases h) s
  | loginForm =>
      refine Rules.amid_bind (amid_flash ?_ s) fun _ t _ _ => ?_
      · exact uses_bind flash_getFlashMessages fun _ => trivial
      · exact amid_respond (fun ⟨_, h⟩ => by rw [hendpoint] at h; cases h) t
  | login form =>
      refine Rules.amid_bind (amid_login hendpoint s) fun _ t _ _ => ?_
      exact amid_respond (fun ⟨_, h⟩ => by rw [hendpoint] at h; cases h) t

end

/-! ## Every run -/

/-- What only a page behind the gate asks for or shows. -/
def Guarded : SiteOp → Prop
  | (_, .table _) | (_, .view _) => True
  | (request, .respond response) => request.IsAdmin ∧ response ≠ .redirect "/login"
  | _ => False

/-- A login of the session put its user there.  It had looked the user up before, and its name
and password are those of an account of that time: the last boot with that name before the
lookup had that password. -/
def Opened (boots : List (Str × Str)) (trail : SiteTrail) (session : Str) : Prop :=
  ∃ (login : Request) (form : LoginFormData) (row : User) (past : List (Str × Str))
    (front : SiteTrail) (r : SiteRes (login, .session (.insertUserId row.userId))),
    login.session = session ∧ login.endpoint = .login form ∧
    front ++ [⟨(login, .session (.insertUserId row.userId)), r⟩] <+: trail ∧
    GivenAfter front login (.account (.findUser form.username)) (.ok (some row)) past ∧
    past <+: boots ∧ lastPassword form.username past = some form.password

/-- The tables of the operator are asked for, and what is behind the gate is shown, only to a
request whose session was opened by a login. -/
theorem behind_gate {site : Site} (hideal : site.argon2.Ideal) {boots : List (Str × Str)}
    {s : SiteState} {t : SiteCrew} (h : SiteRun site boots s t) :
    ∀ before (e : Asked SiteOp SiteRes) after, t.state.2 = before ++ e :: after → Guarded e.1 →
      e.1.1.IsAdmin ∧ Opened boots before e.1.1.session := by
  intro before e after htrail hguarded
  have horderly := orderly_site (fun request s => amid_serve s) h
  obtain ⟨hallowed, -⟩ := horderly before e after htrail
  have hin : e.1.1.IsAdmin ∧ LetIn before e.1.1 := by
    obtain ⟨⟨request, o⟩, r⟩ := e
    cases o with
    | table _ | view _ => exact hallowed
    | respond response => exact ⟨hguarded.1, (hallowed hguarded.1).resolve_left hguarded.2⟩
    | account _ | session _ => exact hguarded.elim
  obtain ⟨hadmin, userId, _, hmem⟩ := hin
  have hbefore := @Orderly.start _ _ _ _ before horderly ⟨_, htrail.symm⟩
  -- the user was put into the session by a login
  obtain ⟨until_, back, hsplit, -, ⟨login, r, hsession, hput⟩, -⟩ := hbefore.of_mem hmem
  obtain ⟨front, back', hsplit', hlogin, -⟩ := (hbefore.start ⟨_, hsplit.symm⟩).of_mem hput
  obtain ⟨form, row, past, hform, hfound, rfl, hverify⟩ := hlogin
  have hlast : front ++ [⟨(login, .session (.insertUserId row.userId)), r⟩] <+: before :=
    List.IsPrefix.trans ⟨back', by rw [hsplit', List.append_assoc]; rfl⟩ ⟨_, hsplit.symm⟩
  -- and found by it in the table of that time
  have hfront := hbefore.start ((List.prefix_append front _).trans hlast)
  obtain ⟨_, _, -, -, -, hpast, users, hbooted, hrow⟩ := hfront.of_mem hfound
  refine ⟨hadmin, login, form, row, past, front, r, hsession, hform, hlast, hfound, hpast, ?_⟩
  exact (hbooted.accepts_iff hideal form.username form.password).mp ⟨row, hrow.symm, hverify⟩

/-! ### A login, and the dashboard -/

def Site.sample : Site where
  aliases := AliasRouter.sample.aliases
  argon2 := Argon2.plain
  renders _ := true
  day createdAt := createdAt.take 10
  minute createdAt := createdAt.take 16
  etag body := body
  appCss := []
  appJs := []

def twoBoots : List (Str × Str) :=
  [("admin".toList, "old".toList), ("admin".toList, "new".toList)]

def bootedState : SiteState :=
  ⟨⟨Db.empty, [], []⟩,
    (bootTwice ("admin".toList, "old".toList) ("admin".toList, "new".toList)).users, twoBoots⟩

theorem booted_bootedState : Booted Site.sample.argon2 bootedState.boots bootedState.users :=
  booted_bootTwice (by decide +kernel) (by decide +kernel)

/-- The session holds this user. -/
def sessionOf (userId : Str) : WebChance :=
  ⟨Chance.calm 3, fun
    | .getUserId | .removeUserId => .ok (some userId)
    | .getFlash | .removeFlash => .ok none
    | .insertUserId _ | .insertFlash _ => .ok ()⟩

def loginRequest : Request := ⟨0, "session", .login ⟨"admin", "new"⟩⟩

def dashboardRequest : Request := ⟨1, "session", .admin .dashboard⟩

/-- The requests after the turns of a schedule. -/
def serving (requests : List Request) (schedule : List (Nat × WebChance)) : SiteCrew :=
  schedule.foldl
    (Crew.turnOf (tracked (siteAnswering Site.sample.argon2 twoBoots)
      ⟨fun _ _ => True, Remembers⟩))
    ⟨(bootedState, []),
      requests.map fun request => asRequest request (Site.sample.serve request.endpoint)⟩

theorem run_serving (requests : List Request) (schedule : List (Nat × WebChance))
    (hfair : Crew.FairTurns (tracked (siteAnswering Site.sample.argon2 twoBoots)
      ⟨fun _ _ => True, Remembers⟩) schedule
      ⟨(bootedState, []),
        requests.map fun request => asRequest request (Site.sample.serve request.endpoint)⟩) :
    SiteRun Site.sample twoBoots bootedState (serving requests schedule) := by
  refine ⟨booted_bootedState, List.prefix_refl _, Relation.ReflTransGen.trans ?_
    (Crew.run_turns schedule _ hfair)⟩
  clear hfair
  induction requests with
  | nil => exact Relation.ReflTransGen.refl
  | cons request requests ih => exact ih.tail (.join _ _ ⟨request, rfl⟩)

def loginThenDashboard : List (Nat × WebChance) :=
  [0, 0, 0, 1, 1].map fun turn => (turn, sessionOf ['1'])

/-- The login opens the session, and the dashboard lists the aliases. -/
theorem behind_gate_dashboard : ∃ before r,
    (serving [loginRequest, dashboardRequest] loginThenDashboard).state.2
      = before ++ [⟨(dashboardRequest, .table (.inr .listAliases)), r⟩] ∧
    Opened twoBoots before "session" := by
  have hrun := run_serving [loginRequest, dashboardRequest] loginThenDashboard ?_
  · exact ⟨_, _, rfl, (behind_gate Argon2.plain_ideal hrun _ _ _ rfl trivial).2⟩
  · refine ⟨trivial, trivial, trivial, ⟨loginRequest, (.ok (), twoBoots), rfl, ?_⟩,
      trivial, trivial⟩
    exact .tail _ (.head _)

end Weiterleitung
