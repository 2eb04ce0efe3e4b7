/-
# `Delivery.Queue` — the outbox: in, claimed, marked

The functions of `delivery::queue`.  `enqueue` writes the raw message first and the
row after it, so what it can do is one of two things (`enqueue_cases`): a row and its
file are new, or the store is as it was.

Attempts are `i64`; `attempts + 1` beyond the largest one is a panic, as in a build
with overflow checks.
-/
import Mathlib
import Weiterleitung.Store.Access

namespace Weiterleitung

open Text Prog

structure NewOutboundMessage where
  direction : Direction
  envelopeFrom : Str
  envelopeTo : Str
  raw : Bytes
  aliasId : Option Str
  contactId : Option Str
  subject : Option Str

/-- `Path::join` of a file name. -/
def pathJoin (dir name : Str) : Str :=
  if dir.isEmpty || dir.getLast? = some '/' then dir ++ name else dir ++ '/' :: name

/-- Where the raw message of `messageId` lies. -/
def rawPath (mailDir messageId : Str) : Str := pathJoin mailDir (messageId ++ ".eml")

/-- Different messages have different files. -/
theorem rawPath_inj {mailDir a b : Str} (h : rawPath mailDir a = rawPath mailDir b) :
    a = b := by
  unfold rawPath pathJoin at h
  split at h
  · exact List.append_cancel_right (List.append_cancel_left h)
  · exact List.append_cancel_right (List.cons_inj_right _ |>.mp (List.append_cancel_left h))

/-- The row `enqueue` inserts. -/
def NewOutboundMessage.row (message : NewOutboundMessage) (mailDir messageId now : Str) :
    OutboxRow :=
  { messageId := messageId, direction := message.direction,
    envelopeFrom := message.envelopeFrom,
    envelopeTo := message.envelopeTo, rawPath := rawPath mailDir messageId,
    aliasId := message.aliasId, contactId := message.contactId, subject := message.subject,
    status := .pending, attempts := 0, nextAttemptAt := now, lastError :=
      none, createdAt := now,
    deliveredAt := none }

/-- Persists the raw message under `mail_dir` and queues it for delivery. -/
def enqueue (mailDir : Str) (message : NewOutboundMessage) : App Str := do
  context ("Failed to create the mail directory " ++ mailDir) (createDirAll mailDir)
  let messageId ← newUuid
  let path := rawPath mailDir messageId
  context ("Failed to write the raw message to " ++ path) (writeFile path message.raw)
  let now ← utcNow
  context "Failed to enqueue the outbound message"
    (write (.insertOutbox (message.row mailDir messageId now.toRfc3339)))
  return messageId

/-- Atomically claims messages whose retry time has come. -/
def claimDue (limit : Int) : App (List QueuedMessage) := do
  let now ← utcNow
  ExceptT.mk (op (Op.claimDue now.toRfc3339 limit))

/-- Messages are marked `sending` while the worker holds them, so a crash or a restart
mid-delivery would strand them there forever. -/
def requeueInterrupted : App Unit := do
  let now ← utcNow
  write (.requeueInterrupted now.toRfc3339)

def markDelivered (messageId : Str) : App Unit := do
  let now ← utcNow
  write (.markDelivered messageId now.toRfc3339)

/-- An error of the worker: one it reports, or a panic that ends the pass. -/
inductive Failure where
  | error (message : Str)
  | overflow

/-- The largest `i64`. -/
def i64Max : Int := 2 ^ 63 - 1

/-- Doubling backoff starting at one minute, capped at six hours. -/
def backoff (attempts : Int) : Int := min (2 ^ (max 0 (min attempts 16)).toNat) 360

/-- Records a failed attempt, scheduling an exponential backoff retry until
`max_attempts` is reached, at which point the message is marked `failed`. -/
def markAttemptFailed (messageId : Str) (attempts maxAttempts : Int) (error : Str) :
    Fallible Failure Op Res Unit :=
  if attempts = i64Max then throw .overflow
  else
    let attempts := attempts + 1
    if attempts ≥ maxAttempts then
      mapErr .error (write (.markFailed messageId attempts error))
    else do
      let now ← mapErr .error utcNow
      let nextAttemptAt := (now.addMinutes (backoff attempts)).toRfc3339
      mapErr .error (write (.markPending messageId attempts error nextAttemptAt))

/-! ## What enqueueing can do -/

/-- A row and its file are new, or the store is as it was, and at
most a file is left behind. -/
theorem enqueue_cases (mailDir : Str) (message : NewOutboundMessage) (h : Host) :
    (∃ now db h', exec perform (enqueue mailDir message) h = (.ok h.skip.chance.uuid, h') ∧
      h.world.db.insertOutbox (message.row mailDir h.skip.chance.uuid now) = some db ∧
      h'.world = { h.world with
        db := db, spool :=
      h.world.spool.write (rawPath mailDir h.skip.chance.uuid) message.raw }) ∨
    (∃ e h', exec perform (enqueue mailDir message) h = (.error e, h') ∧
      h'.world.db = h.world.db ∧
      ∀ path, path ≠ rawPath mailDir h.skip.chance.uuid →
      h'.world.spool.read path = h.world.spool.read path) := by
  unfold enqueue
  rcases exec_createDirAll_cases h mailDir with ⟨-, hdir⟩ | ⟨-, hdir⟩
  · rw [exec_bind_of_ok perform (exec_context_ok hdir), exec_bind_of_ok perform
      (exec_newUuid h.skip)]
    rcases exec_writeFile_cases h.skip.skip (rawPath mailDir h.skip.chance.uuid)
      message.raw with
      ⟨-, hfile⟩ | ⟨-, spool, hother, hfile⟩
    · rw [exec_bind_of_ok perform (exec_context_ok hfile),
        exec_bind_of_ok perform (exec_utcNow _)]
      rcases exec_write_cases (Host.skip _)
        (.insertOutbox (message.row mailDir h.skip.chance.uuid _))
        with ⟨db, -, hdb, hrow⟩ | ⟨-, hrow⟩
      · rw [exec_bind_of_ok perform (exec_context_ok hrow)]
        exact Or.inl ⟨_, db, _, rfl, hdb, rfl⟩
      · rw [exec_bind_of_error perform (exec_context_error hrow)]
        exact Or.inr ⟨_, _, rfl, rfl, fun path hne => Spool.read_write_ne _ _ hne.symm⟩
    · rw [exec_bind_of_error perform (exec_context_error hfile)]
      exact Or.inr ⟨_, _, rfl, rfl, hother⟩
  · rw [exec_bind_of_error perform (exec_context_error hdir)]
    exact Or.inr ⟨_, _, rfl, rfl, fun _ _ => rfl⟩

end Weiterleitung
