/-
# `Store.Db` — the tables, and what each SQL statement does to them

A table is the list of its rows in the order of insertion.  Every statement the
program issues is one function here, under the name of the source function that
issues it.  A statement that would break a `PRIMARY KEY`, `UNIQUE` or `REFERENCES`
clause has no result (`none`); deletions cascade as the schema declares.

    mailboxes   insertMailbox, deleteMailbox
    aliases     insertAlias, findAliasByAddress, setAliasEnabled, deleteAlias,
                recordAliasActivity
    contacts    insertContact, findContact, findContactByReverseAlias
    outbox      insertOutbox, claimDue, requeueInterrupted, markDelivered,
                markFailed, markPending
-/
import Mathlib
import Weiterleitung.Domain.Settings
import Weiterleitung.Domain.Instant

namespace Weiterleitung

/-! ## Rows -/

/-- A real inbox that aliases forward to. -/
structure Mailbox where
  mailboxId : Str
  email : Str
  isDefault : Bool
  createdAt : Str
  deriving DecidableEq

structure Alias where
  aliasId : Str
  address : Str
  mailboxId : Str
  note : Option Str
  enabled : Bool
  forwardCount : Nat
  replyCount : Nat
  blockedCount : Nat
  createdAt : Str
  lastUsedAt : Option Str
  deriving DecidableEq

/-- A remote party that corresponds with one alias, plus the reverse alias the
mailbox replies to in order to reach them. -/
structure Contact where
  contactId : Str
  aliasId : Str
  email : Str
  name : Option Str
  reverseAlias : Str
  createdAt : Str
  deriving DecidableEq

inductive Status where
  | pending
  | sending
  | delivered
  | failed
  deriving DecidableEq

structure OutboxRow where
  messageId : Str
  direction : Direction
  envelopeFrom : Str
  envelopeTo : Str
  rawPath : Str
  aliasId : Option Str
  contactId : Option Str
  subject : Option Str
  status : Status
  attempts : Int
  nextAttemptAt : Str
  lastError : Option Str
  createdAt : Str
  deliveredAt : Option Str
  deriving DecidableEq

structure Db where
  mailboxes : List Mailbox
  aliases : List Alias
  contacts : List Contact
  outbox : List OutboxRow
  deriving DecidableEq

/-! ## Records read back -/

/-- An alias joined with the address of the mailbox it forwards to. -/
structure AliasWithMailbox where
  toAlias : Alias
  mailboxEmail : Str
  deriving DecidableEq

/-- A contact joined with the alias it belongs to. -/
structure ContactWithAlias where
  toContact : Contact
  aliasAddress : Str
  aliasEnabled : Bool
  mailboxEmail : Str
  deriving DecidableEq

/-- A message accepted by the SMTP server and waiting to go out. -/
structure QueuedMessage where
  messageId : Str
  direction : Direction
  envelopeFrom : Str
  envelopeTo : Str
  rawPath : Str
  aliasId : Option Str
  contactId : Option Str
  subject : Option Str
  status : Status
  attempts : Int
  lastError : Option Str
  createdAt : Str
  deriving DecidableEq

def OutboxRow.queued (row : OutboxRow) : QueuedMessage :=
  { messageId := row.messageId, direction := row.direction, envelopeFrom := row.envelopeFrom,
    envelopeTo := row.envelopeTo, rawPath := row.rawPath, aliasId := row.aliasId,
    contactId := row.contactId, subject := row.subject, status := row.status,
    attempts := row.attempts, lastError := row.lastError, createdAt := row.createdAt }

/-- Counter bumped after a message is accepted for an alias. -/
inductive AliasCounter where
  | forwarded
  | replied
  | blocked
  deriving DecidableEq

/-- One count more, and the time of it. -/
def Alias.record (a : Alias) (now : Str) : AliasCounter → Alias
  | .forwarded => { a with forwardCount := a.forwardCount + 1, lastUsedAt := some now }
  | .replied => { a with replyCount := a.replyCount + 1, lastUsedAt := some now }
  | .blocked => { a with blockedCount := a.blockedCount + 1, lastUsedAt := some now }

namespace Db

def empty : Db := ⟨[], [], [], []⟩

/-- `DELETE FROM aliases` of the rows that satisfy `p`: their contacts go with them,
outbox rows keep everything but the references. -/
def removeAliases (p : Alias → Bool) (db : Db) : Db :=
  let dead := (db.aliases.filter p).map (·.aliasId)
  let deadContacts := (db.contacts.filter (·.aliasId ∈ dead)).map (·.contactId)
  { db with
    aliases := db.aliases.filter (!p ·)
    contacts := db.contacts.filter (·.aliasId ∉ dead)
    outbox := db.outbox.map fun row =>
      { row with
        aliasId := row.aliasId.filter (· ∉ dead)
        contactId := row.contactId.filter (· ∉ deadContacts) } }

/-! ## Mailboxes -/

/-- The transaction of `insert_mailbox`. -/
def insertMailbox (m : Mailbox) (db : Db) : Option Db :=
  let others :=
    if m.isDefault then db.mailboxes.map fun o => { o with isDefault := false }
      else db.mailboxes
  if others.any (fun o => o.mailboxId = m.mailboxId || o.email = m.email) then none
  else some { db with mailboxes := others ++ [m] }

def deleteMailbox (mailboxId : Str) (db : Db) : Db :=
  { db.removeAliases (·.mailboxId = mailboxId) with
    mailboxes := db.mailboxes.filter (·.mailboxId ≠ mailboxId) }

/-! ## Aliases -/

def insertAlias (a : Alias) (db : Db) : Option Db :=
  if db.aliases.any (fun b => b.aliasId = a.aliasId || b.address = a.address) then none
  else if db.mailboxes.all (·.mailboxId ≠ a.mailboxId) then none
  else some { db with aliases := db.aliases ++ [a] }

/-- The mailbox an alias row refers to. -/
def mailboxOf (a : Alias) (db : Db) : Option Mailbox :=
  db.mailboxes.find? (·.mailboxId = a.mailboxId)

def findAliasByAddress (address : Str) (db : Db) : Option AliasWithMailbox :=
  db.aliases.findSome? fun a =>
    if a.address = address then (db.mailboxOf a).map fun m => ⟨a, m.email⟩ else none

def setAliasEnabled (aliasId : Str) (enabled : Bool) (db : Db) : Db :=
  { db with
    aliases := db.aliases.map fun a =>
      if a.aliasId = aliasId then { a with enabled := enabled } else a }

def deleteAlias (aliasId : Str) (db : Db) : Db := db.removeAliases (·.aliasId = aliasId)

def recordAliasActivity (aliasId : Str) (counter : AliasCounter) (now : Str) (db : Db) : Db :=
  { db with
    aliases := db.aliases.map fun a => if a.aliasId = aliasId
      then a.record now counter else a }

/-! ## Contacts -/

def findContact (aliasId email : Str) (db : Db) : Option Contact :=
  db.contacts.find? fun c => c.aliasId = aliasId && c.email = email

/-- `INSERT … ON CONFLICT (alias_id, email) DO NOTHING`: the named conflict is looked
for first, any other one is an error. -/
def insertContact (c : Contact) (db : Db) : Option Db :=
  if (db.findContact c.aliasId c.email).isSome then some db
  else if db.contacts.any
    (fun d => d.contactId = c.contactId || d.reverseAlias = c.reverseAlias) then none
  else if db.aliases.all (·.aliasId ≠ c.aliasId) then none
  else some { db with contacts := db.contacts ++ [c] }

def findContactByReverseAlias (reverseAlias : Str) (db : Db) : Option ContactWithAlias :=
  db.contacts.findSome? fun c =>
    if c.reverseAlias = reverseAlias then
      (db.aliases.find? (·.aliasId = c.aliasId)).bind fun a =>
        (db.mailboxOf a).map fun m => ⟨c, a.address, a.enabled, m.email⟩
    else none

/-! ## Outbox -/

def insertOutbox (row : OutboxRow) (db : Db) : Option Db :=
  if db.outbox.any (·.messageId = row.messageId) then none
  else if row.aliasId.any (fun i => db.aliases.all (·.aliasId ≠ i)) then none
  else if row.contactId.any (fun i => db.contacts.all (·.contactId ≠ i)) then none
  else some { db with outbox := db.outbox ++ [row] }

/-- `UPDATE outbox … WHERE message_id = ?`. -/
def updateRow (messageId : Str) (f : OutboxRow → OutboxRow) (db : Db) : Db :=
  { db with
    outbox := db.outbox.map fun row => if row.messageId = messageId then f row else row }

/-- The rows `claim_due` selects.  `rank` is how the database orders rows with the same
`next_attempt_at`; a negative limit is none. -/
def dueRows (now : Str) (limit : Int) (rank : Str → Nat) (db : Db) : List OutboxRow :=
  let due := db.outbox.filter fun row => row.status = .pending && row.nextAttemptAt ≤ now
  let sorted := due.insertionSort fun a b =>
    a.nextAttemptAt < b.nextAttemptAt ∨
      a.nextAttemptAt = b.nextAttemptAt ∧ rank a.messageId ≤ rank b.messageId
  if limit < 0 then sorted else sorted.take limit.toNat

/-- The transaction of `claim_due`. -/
def claimDue (now : Str) (limit : Int) (rank : Str → Nat) (db : Db) :
    List QueuedMessage × Db :=
  let messages := (db.dueRows now limit rank).map OutboxRow.queued
  (messages,
    messages.foldl
      (fun db m => db.updateRow m.messageId fun row => { row with status := .sending }) db)

def requeueInterrupted (now : Str) (db : Db) : Db :=
  { db with
    outbox := db.outbox.map fun row =>
      if row.status = .sending then { row with status := .pending, nextAttemptAt := now }
        else row }

def markDelivered (messageId now : Str) (db : Db) : Db :=
  db.updateRow messageId fun row =>
    { row with status := .delivered, deliveredAt := some now, lastError := none }

/-- The first statement of `mark_attempt_failed`. -/
def markFailed (messageId : Str) (attempts : Int) (error : Str) (db : Db) : Db :=
  db.updateRow messageId fun row =>
    { row with status := .failed, attempts := attempts, lastError := some error }

/-- The second statement of `mark_attempt_failed`. -/
def markPending (messageId : Str) (attempts : Int) (error nextAttemptAt : Str) (db : Db) :
    Db :=
  db.updateRow messageId fun row =>
    { row with
      status := .pending, attempts := attempts, lastError := some error,
      nextAttemptAt := nextAttemptAt }

/-- Rows set to `sending` one message after the other, are set all at once. -/
theorem foldl_sending (messages : List QueuedMessage) : ∀ db : Db,
    messages.foldl
      (fun db m => db.updateRow m.messageId fun row => { row with status := .sending }) db
      = { db with outbox := db.outbox.map fun row =>
          if row.messageId ∈ messages.map (·.messageId) then { row with status := .sending }
          else row } := by
  induction messages with
  | nil => intro db; simp
  | cons m messages ih =>
      intro db
      rw [List.foldl_cons, ih]
      unfold updateRow
      dsimp only
      rw [List.map_map]
      congr 1
      refine List.map_congr_left fun row _ => ?_
      simp only [Function.comp_apply, List.map_cons, List.mem_cons]
      by_cases hm : row.messageId = m.messageId
      · simp only [hm, if_true, true_or, ite_self]
      · simp only [hm, if_false, false_or]

/-! ## What an insertion does -/

section
variable {db db' : Db}

theorem insertMailbox_eq_some {m : Mailbox} (h : db.insertMailbox m = some db') :
    ∃ f : Mailbox → Mailbox, (∀ o, (f o).mailboxId = o.mailboxId ∧ (f o).email = o.email) ∧
      (∀ o ∈ db.mailboxes, o.mailboxId ≠ m.mailboxId ∧ o.email ≠ m.email) ∧
      db' = { db with mailboxes := db.mailboxes.map f ++ [m] } := by
  obtain ⟨f, hf, hothers⟩ : ∃ f : Mailbox → Mailbox,
      (∀ o, (f o).mailboxId = o.mailboxId ∧ (f o).email = o.email) ∧
        (if m.isDefault then db.mailboxes.map fun o => { o with isDefault := false }
          else db.mailboxes) = db.mailboxes.map f := by
    cases m.isDefault with
    | true => exact ⟨fun o => { o with isDefault := false }, fun _ => ⟨rfl, rfl⟩, rfl⟩
    | false => exact ⟨id, fun _ => ⟨rfl, rfl⟩, by rw [List.map_id]; rfl⟩
  unfold insertMailbox at h
  rw [hothers] at h
  dsimp only at h
  split at h
  · cases h
  · next hfresh =>
      cases h
      simp only [List.any_map, List.any_eq_true, Function.comp_apply, Bool.or_eq_true,
        decide_eq_true_eq, (hf _).1, (hf _).2, not_exists, not_and, not_or] at hfresh
      exact ⟨f, hf, hfresh, rfl⟩

theorem insertAlias_eq_some {a : Alias} (h : db.insertAlias a = some db') :
    (∀ b ∈ db.aliases, b.aliasId ≠ a.aliasId ∧ b.address ≠ a.address) ∧
      (∃ m ∈ db.mailboxes, m.mailboxId = a.mailboxId) ∧
      db' = { db with aliases := db.aliases ++ [a] } := by
  unfold insertAlias at h
  split at h
  · cases h
  · next hfresh =>
      split at h
      · cases h
      · next hmailbox =>
          cases h
          simp only [List.any_eq_true, Bool.or_eq_true, decide_eq_true_eq, not_exists, not_and,
            not_or] at hfresh
          simp only [List.all_eq_true, decide_eq_true_eq, not_forall, not_not] at hmailbox
          obtain ⟨m, hm, hid⟩ := hmailbox
          exact ⟨hfresh, ⟨m, hm, hid⟩, rfl⟩

/-- The pair was known, or the contact is new in every respect. -/
theorem insertContact_eq_some {c : Contact} (h : db.insertContact c = some db') :
    ((db.findContact c.aliasId c.email).isSome ∧ db' = db) ∨
    (db.findContact c.aliasId c.email = none ∧
      (∀ d ∈ db.contacts, d.contactId ≠ c.contactId ∧ d.reverseAlias ≠ c.reverseAlias) ∧
      (∃ a ∈ db.aliases, a.aliasId = c.aliasId) ∧
      db' = { db with contacts := db.contacts ++ [c] }) := by
  unfold insertContact at h
  split at h
  · next hknown =>
      cases h
      exact Or.inl ⟨hknown, rfl⟩
  · next hnew =>
      split at h
      · cases h
      · next hfresh =>
          split at h
          · cases h
          · next halias =>
              cases h
              simp only [List.any_eq_true, Bool.or_eq_true, decide_eq_true_eq, not_exists,
                not_and, not_or] at hfresh
              simp only [List.all_eq_true, decide_eq_true_eq, not_forall, not_not] at halias
              obtain ⟨a, ha, hid⟩ := halias
              exact Or.inr ⟨by simpa using hnew, hfresh, ⟨a, ha, hid⟩, rfl⟩

theorem insertOutbox_eq_some {row : OutboxRow} (h : db.insertOutbox row = some db') :
    (∀ other ∈ db.outbox, other.messageId ≠ row.messageId) ∧
      db' = { db with outbox := db.outbox ++ [row] } := by
  unfold insertOutbox at h
  split at h
  · cases h
  · next hfresh =>
      split at h
      · cases h
      · split at h
        · cases h
        · cases h
          simp only [List.any_eq_true, decide_eq_true_eq, not_exists, not_and] at hfresh
          exact ⟨hfresh, rfl⟩

end

end Db

end Weiterleitung
