/-
# `Routes.Site` — the site of the operator

Every request is a program.  It asks for what the pages need (the tables, the accounts, the
session) and last for its response, so that a run shows who was shown what.

    table      statements of the mail server, and the lists of the pages
    view       the other queries of the pages
    account    the table of users
    session    the session of the request
    respond    the response of the request

The routes under `/admin` stand behind `authenticatedUser` (`buildRouter`).  What the session
layer, the templates, the hash of an asset and the printing of a date are is left open
(`Site`, and the discipline of a run).
-/
import Mathlib
import Weiterleitung.Authentication.Password
import Weiterleitung.Lib.Trail
import Weiterleitung.Routes.Toggle
import Weiterleitung.Store.Overview

namespace Weiterleitung

open Text Prog

/-! ## What a page shows -/

inductive FlashLevel where
  | info
  | error
  deriving DecidableEq

structure FlashMessage where
  level : FlashLevel
  content : Str
  deriving DecidableEq

structure AliasView where
  aliasId : Str
  address : Str
  mailboxEmail : Str
  note : Str
  enabled : Bool
  forwardCount : Nat
  replyCount : Nat
  blockedCount : Nat
  createdAt : Str
  deriving DecidableEq

structure MailboxView where
  mailboxId : Str
  email : Str
  isDefault : Bool
  aliasCount : Nat
  deriving DecidableEq

structure MessageView where
  direction : Direction
  envelopeFrom : Str
  envelopeTo : Str
  subject : Str
  status : Status
  attempts : Int
  lastError : Str
  createdAt : Str
  deriving DecidableEq

structure ContactView where
  email : Str
  name : Str
  reverseAlias : Str
  createdAt : Str
  deriving DecidableEq

inductive Template where
  | login (flashMessages : List FlashMessage)
  | dashboard (flashMessages : List FlashMessage) (aliases : List AliasView)
      (mailboxes : List MailboxView) (messages : List MessageView) (defaultDomain : Str)
  | mailboxes (flashMessages : List FlashMessage) (mailboxes : List MailboxView)
  | styleguide (flashMessages : List FlashMessage)
  | aliasDetail (flashMessages : List FlashMessage) (detail : AliasView)
      (contacts : List ContactView)
  deriving DecidableEq

def Template.flashMessages : Template → List FlashMessage
  | login flashMessages | dashboard flashMessages _ _ _ _ | mailboxes flashMessages _ =>
      flashMessages
  | styleguide flashMessages | aliasDetail flashMessages _ _ => flashMessages

inductive Response where
  | ok
  | redirect (location : Str)
  | html (template : Template)
  | internalServerError (context : Str)
  | asset (contentType body etag : Str)
  | notModified (etag : Str)
  deriving DecidableEq

/-- The messages that are shown with the response. -/
def Response.flashMessages : Response → List FlashMessage
  | html template => template.flashMessages
  | _ => []

/-! ## Operations -/

/-- What is kept in a session under `USER_ID_KEY` and `FLASH_KEY`. -/
inductive SessionOp where
  | insertUserId (userId : Str)
  | getUserId
  | removeUserId
  | getFlash
  | insertFlash (messages : List FlashMessage)
  | removeFlash

abbrev SessionRes : SessionOp → Type
  | .insertUserId _ | .insertFlash _ => Except Str Unit
  | .getUserId | .removeUserId => Except Str (Option Str)
  | .getFlash | .removeFlash => Except Str (Option (List FlashMessage))

inductive WebOp where
  | table (o : Op ⊕ Query)
  | view (v : View)
  | account (o : UserOp)
  | session (o : SessionOp)
  | respond (response : Response)

abbrev WebRes : WebOp → Type
  | .table o => PageRes o
  | .view v => v.Res
  | .account o => UserRes o
  | .session o => SessionRes o
  | .respond _ => Unit

abbrev Web (α : Type) := Prog WebOp WebRes α

def ofTable {α : Type} (p : Prog (Op ⊕ Query) PageRes α) :
    Web α := @embed _ _ _ WebRes _ .table (fun _ r => r) p

def ofStore {α : Type} (p : Prog Op Res α) : Web α := ofTable (lift p)

def ofAccount {α : Type} (p : Prog UserOp UserRes α) :
    Web α := @embed _ _ _ WebRes _ .account (fun _ r => r) p

def look (v : View) : Web v.Res := op (WebOp.view v)

/-! ## The session -/

namespace TypedSession

def insertUserId (userId : Str) : Web (Except Str Unit) :=
  op (WebOp.session (.insertUserId userId))

def getUserId : Web (Except Str (Option Str)) := op (WebOp.session .getUserId)

def logOut : Web (Except Str (Option Str)) := op (WebOp.session .removeUserId)

/-- `.ok().flatten().unwrap_or_default()`. -/
def messagesOf : Except Str (Option (List FlashMessage)) → List FlashMessage
  | .ok (some messages) => messages
  | _ => []

def pushFlash (level : FlashLevel) (content : Str) : Web Unit := do
  let messages := messagesOf (← op (WebOp.session .getFlash))
  let _ ← op (WebOp.session (.insertFlash (messages ++ [⟨level, content⟩])))

def flashError (content : Str) : Web Unit := pushFlash .error content

def flashInfo (content : Str) : Web Unit := pushFlash .info content

def getFlashMessages : Web (List FlashMessage) := do
  return messagesOf (← op (WebOp.session .removeFlash))

end TypedSession

open TypedSession

/-- The extractor in front of the routes under `/admin`; what it
rejects is answered at once. -/
def authenticatedUser : Web (Except Response Str) := do
  match ← getUserId with
  | .ok (some userId) => return .ok userId
  | _ =>
      flashError "You must be logged in to access that page"
      return .error (.redirect "/login")

/-! ## Requests -/

structure LoginFormData where
  username : Str
  password : Str

structure CreateMailboxForm where
  email : Str
  isDefault : Option Str

/-- The routes under `/admin`. -/
inductive AdminRoute where
  | dashboard
  | createAlias (form : CreateAliasForm)
  | aliasDetail (aliasId : Str)
  | toggleAlias (aliasId : Str)
  | deleteAlias (aliasId : Str)
  | mailboxes
  | createMailbox (form : CreateMailboxForm)
  | deleteMailbox (mailboxId : Str)
  | styleguide
  | logOut

inductive Endpoint where
  | home
  | healthCheck
  | loginForm
  | login (form : LoginFormData)
  | appCss (ifNoneMatch : Option Str)
  | appJs (ifNoneMatch : Option Str)
  | admin (route : AdminRoute)

/-- A request of a session; `id` tells requests apart. -/
structure Request where
  id : Nat
  session : Str
  endpoint : Endpoint

/-- What the handlers are given, and what is not of this repository. -/
structure Site where
  aliases : AliasSettings
  argon2 : Argon2
  /-- Does a template render? -/
  renders : Template → Bool
  /-- `format("%Y-%m-%d")` of a stored timestamp. -/
  day : Str → Str
  /-- `format("%Y-%m-%d %H:%M")` of a stored timestamp. -/
  minute : Str → Str
  etag : Str → Str
  appCss : Str
  appJs : Str

/-- A value of `If-None-Match` that names the tag. -/
def isFresh (ifNoneMatch : Option Str) (tag : Str) : Bool :=
  ifNoneMatch.any fun value => (value.splitOn ',').any fun candidate => trim candidate = tag

/-! ## The handlers -/

def recentMessageLimit : Int := 50

namespace Site

variable (site : Site)

def render (template : Template) : Response :=
  if site.renders template then .html template else .internalServerError "Template error"

def asset (ifNoneMatch : Option Str) (body contentType : Str) : Response :=
  if isFresh ifNoneMatch (site.etag body) then .notModified (site.etag body)
  else .asset contentType body (site.etag body)

def aliasView (listed : AliasWithMailbox) : AliasView where
  aliasId := listed.toAlias.aliasId
  address := listed.toAlias.address
  mailboxEmail := listed.mailboxEmail
  note := listed.toAlias.note.getD []
  enabled := listed.toAlias.enabled
  forwardCount := listed.toAlias.forwardCount
  replyCount := listed.toAlias.replyCount
  blockedCount := listed.toAlias.blockedCount
  createdAt := site.day listed.toAlias.createdAt

def mailboxView (counted : Mailbox × Nat) : MailboxView where
  mailboxId := counted.1.mailboxId
  email := counted.1.email
  isDefault := counted.1.isDefault
  aliasCount := counted.2

def messageView (message : QueuedMessage) : MessageView where
  direction := message.direction
  envelopeFrom := message.envelopeFrom
  envelopeTo := message.envelopeTo
  subject := message.subject.getD []
  status := message.status
  attempts := message.attempts
  lastError := message.lastError.getD []
  createdAt := site.minute message.createdAt

def contactView (contact : Contact) : ContactView where
  email := contact.email
  name := contact.name.getD []
  reverseAlias := contact.reverseAlias
  createdAt := site.day contact.createdAt

/-- What the operator sees next, once it is known. -/
def shown (home : Str) : Shown → Web Response
  | .flashError message => do
      flashError message
      return .redirect home
  | .flashInfo message => do
      flashInfo message
      return .redirect home
  | .internalError context => return .internalServerError context

def loginForm : Web Response := do
  return site.render (.login (← getFlashMessages))

def login (form : LoginFormData) : Web Response := do
  match ← ofAccount (validateCredentials site.argon2 form.username form.password).run with
  | .ok userId =>
      match ← insertUserId userId with
      | .error _ =>
          flashError "Could not start a session"
          return .redirect "/login"
      | .ok _ => return .redirect "/admin/dashboard"
  | .error (.invalidCredentials _) =>
      flashError "Invalid credentials"
      return .redirect "/login"
  | .error (.unexpectedError _) =>
      flashError "Something went wrong"
      return .redirect "/login"

def dashboard : Web Response := do
  match ← ofTable listAliases.run with
  | .error _ => return .internalServerError "Failed to list the aliases"
  | .ok aliases =>
      match ← look .listMailboxesWithAliasCounts with
      | .error _ => return .internalServerError "Failed to list the mailboxes"
      | .ok mailboxes =>
          match ← look (.listRecent recentMessageLimit) with
          | .error _ => return .internalServerError "Failed to list the recent messages"
          | .ok messages =>
              return site.render (.dashboard (← getFlashMessages) (aliases.map site.aliasView)
                (mailboxes.map mailboxView) (messages.map site.messageView)
                site.aliases.defaultDomain)

def createAlias (form : CreateAliasForm) : Web Response := do
  shown "/admin/dashboard" (← ofStore (Weiterleitung.createAlias site.aliases form))

def toggleAlias (aliasId : Str) : Web Response := do
  shown "/admin/dashboard" (← ofTable (Weiterleitung.toggleAlias aliasId))

def deleteAlias (aliasId : Str) : Web Response := do
  match ← ofStore (Weiterleitung.deleteAlias aliasId).run with
  | .error _ => return .internalServerError "Failed to delete the alias"
  | .ok _ =>
      flashInfo "Alias deleted"
      return .redirect "/admin/dashboard"

def aliasDetail (aliasId : Str) : Web Response := do
  match ← ofTable listAliases.run with
  | .error _ => return .internalServerError "Failed to list the aliases"
  | .ok aliases =>
      match aliases.find? (·.toAlias.aliasId = aliasId) with
      | none =>
          flashError "No such alias"
          return .redirect "/admin/dashboard"
      | some listed =>
          match ← look (.listContactsForAlias aliasId) with
          | .error _ => return .internalServerError "Failed to list the contacts"
          | .ok contacts =>
              return site.render (.aliasDetail (← getFlashMessages) (site.aliasView listed)
                (contacts.map site.contactView))

def mailboxes : Web Response := do
  match ← look .listMailboxesWithAliasCounts with
  | .error _ => return .internalServerError "Failed to list the mailboxes"
  | .ok mailboxes =>
      return site.render (.mailboxes (← getFlashMessages) (mailboxes.map mailboxView))

def createMailbox (form : CreateMailboxForm) : Web Response := do
  match EmailAddress.parse form.email with
  | .error e =>
      flashError e
      return .redirect "/admin/mailboxes"
  | .ok email =>
      match ← ofStore (insertMailbox email form.isDefault.isSome).run with
      | .ok mailbox => flashInfo ("Added ".toList ++ mailbox.email)
      | .error _ => flashError "Failed to add the mailbox"
      return .redirect "/admin/mailboxes"

def deleteMailbox (mailboxId : Str) : Web Response := do
  match ← ofStore (Weiterleitung.deleteMailbox mailboxId).run with
  | .error _ => return .internalServerError "Failed to delete the mailbox"
  | .ok _ =>
      flashInfo "Mailbox deleted"
      return .redirect "/admin/mailboxes"

def styleguide : Web Response := do
  return site.render (.styleguide (← getFlashMessages))

/-- A session that cannot be cleared is only reported. -/
def logOut : Web Response := do
  let _ ← TypedSession.logOut
  return .redirect "/login"

def adminRoutes : AdminRoute → Web Response
  | .dashboard => site.dashboard
  | .createAlias form => site.createAlias form
  | .aliasDetail aliasId => site.aliasDetail aliasId
  | .toggleAlias aliasId => toggleAlias aliasId
  | .deleteAlias aliasId => deleteAlias aliasId
  | .mailboxes => site.mailboxes
  | .createMailbox form => createMailbox form
  | .deleteMailbox mailboxId => deleteMailbox mailboxId
  | .styleguide => site.styleguide
  | .logOut => logOut

def buildRouter : Endpoint → Web Response
  | .home => return .redirect "/admin/dashboard"
  | .healthCheck => return .ok
  | .loginForm => site.loginForm
  | .login form => site.login form
  | .appCss ifNoneMatch => return site.asset ifNoneMatch site.appCss "text/css; charset=utf-8"
  | .appJs ifNoneMatch =>
      return site.asset ifNoneMatch site.appJs "text/javascript; charset=utf-8"
  | .admin route => do
      match ← authenticatedUser with
      | .error rejection => return rejection
      | .ok _ => site.adminRoutes route

/-- A request and its response. -/
def serve (endpoint : Endpoint) : Web Unit := do
  op (WebOp.respond (← site.buildRouter endpoint))

end Site

end Weiterleitung
