/-
# `Store.Op` — the operations of the program, and the machine that answers them

The program touches the world in one place: it asks for an operation and gets an
answer.  A statement or transaction is one operation, so are a file access, a call
of the relay and a draw (an identifier, the time, random symbols).

What the code does not decide is in a `Chance`, one for each operation: whether it
fails and with which text, what is drawn, what a failing write leaves of its file,
how the database orders rows that compare equal.  A machine (`Host`) is a world with
a supply of chances; a theorem about every machine is one about every pattern of
failures and draws.

    answer   one operation, its chance given
    perform  one operation of a machine, the next chance taken
-/
import Mathlib
import Weiterleitung.Lib.Prog
import Weiterleitung.Lib.Utf8
import Weiterleitung.Store.Db

namespace Weiterleitung

/-! ## Operations and answers -/

/-- The statements that change the store and return nothing. -/
inductive Write where
  | insertMailbox (m : Mailbox)
  | deleteMailbox (mailboxId : Str)
  | insertAlias (a : Alias)
  | setAliasEnabled (aliasId : Str) (enabled : Bool)
  | deleteAlias (aliasId : Str)
  | recordAliasActivity (aliasId : Str) (counter : AliasCounter) (now : Str)
  | insertContact (c : Contact)
  | insertOutbox (row : OutboxRow)
  | requeueInterrupted (now : Str)
  | markDelivered (messageId now : Str)
  | markFailed (messageId : Str) (attempts : Int) (error : Str)
  | markPending (messageId : Str) (attempts : Int) (error nextAttemptAt : Str)

/-- The statement on the tables; `none` if a constraint refuses it. -/
def Write.apply : Write → Db → Option Db
  | insertMailbox m, db => db.insertMailbox m
  | deleteMailbox mailboxId, db => some (db.deleteMailbox mailboxId)
  | insertAlias a, db => db.insertAlias a
  | setAliasEnabled aliasId enabled, db => some (db.setAliasEnabled aliasId enabled)
  | deleteAlias aliasId, db => some (db.deleteAlias aliasId)
  | recordAliasActivity aliasId counter now, db =>
      some (db.recordAliasActivity aliasId counter now)
  | insertContact c, db => db.insertContact c
  | insertOutbox row, db => db.insertOutbox row
  | requeueInterrupted now, db => some (db.requeueInterrupted now)
  | markDelivered messageId now, db => some (db.markDelivered messageId now)
  | markFailed messageId attempts error, db => some (db.markFailed messageId attempts error)
  | markPending messageId attempts error nextAttemptAt, db =>
      some (db.markPending messageId attempts error nextAttemptAt)

inductive Op where
  | uuid
  | now
  | sample (n : Nat)
  | findAliasByAddress (address : Str)
  | findContact (aliasId email : Str)
  | findContactByReverseAlias (reverseAlias : Str)
  | write (u : Write)
  | claimDue (now : Str) (limit : Int)
  | createDirAll (dir : Str)
  | writeFile (path : Str) (raw : Bytes)
  | readFile (path : Str)
  /-- `Relay::send`; the message is named so that its sends can be counted. -/
  | send (messageId envelopeFrom envelopeTo : Str) (raw : Bytes)

abbrev Res : Op → Type
  | .uuid => Str
  | .now => Instant
  | .sample n => Fin n → Fin 62
  | .findAliasByAddress _ => Except Str (Option AliasWithMailbox)
  | .findContact _ _ => Except Str (Option Contact)
  | .findContactByReverseAlias _ => Except Str (Option ContactWithAlias)
  | .write _ => Except Str Unit
  | .claimDue _ _ => Except Str (List QueuedMessage)
  | .createDirAll _ => Except Str Unit
  | .writeFile _ _ => Except Str Unit
  | .readFile _ => Except Str Bytes
  | .send _ _ _ _ => Except Str Unit

/-- Code that returns a `Result`; an error is its outermost message. -/
abbrev App := Fallible Str Op Res

/-! ## The world -/

/-- The files under the mail directory, by path. -/
abbrev Spool := List (Str × Bytes)

def Spool.read (spool : Spool) (path : Str) : Option Bytes :=
  (spool.find? (·.1 = path)).map (·.2)

def Spool.write (spool : Spool) (path : Str) (raw : Bytes) : Spool :=
  (path, raw) :: spool.filter (·.1 ≠ path)

namespace Spool

theorem read_write (spool : Spool) (path : Str) (raw : Bytes) :
    (spool.write path raw).read path = some raw := by
  unfold Spool.read Spool.write
  rw [List.find?_cons_of_pos (by simp)]
  rfl

theorem read_write_ne (spool : Spool) {path other : Str} (raw : Bytes) (hne : path ≠ other) :
    (spool.write path raw).read other = spool.read other := by
  unfold Spool.read Spool.write
  rw [List.find?_cons_of_neg (by simpa using hne), List.find?_filter]
  congr 2
  funext e
  by_cases he : e.1 = other
  · simp [he, Ne.symm hne]
  · simp [he]

end Spool

/-- The store, the spool, and the messages the relay has been called for. -/
structure World where
  db : Db
  spool : Spool
  relayed : List Str

/-- What one operation leaves to chance. -/
structure Chance where
  fails : Bool
  text : Str
  uuid : Str
  now : Instant
  symbol : Nat → Fin 62
  rank : Str → Nat
  torn : Option Nat

/-- A result, unless the operation fails. -/
def Chance.give {α : Type} (c : Chance) (a : α) : Except Str α :=
  if c.fails then .error c.text else .ok a

def answer : (o : Op) → Chance → World → Res o × World
  | .uuid, c, w => (c.uuid, w)
  | .now, c, w => (c.now, w)
  | .sample _, c, w => (fun i => c.symbol i, w)
  | .findAliasByAddress address, c, w => (c.give (w.db.findAliasByAddress address), w)
  | .findContact aliasId email, c, w => (c.give (w.db.findContact aliasId email), w)
  | .findContactByReverseAlias r, c, w => (c.give (w.db.findContactByReverseAlias r), w)
  | .write u, c, w =>
      if c.fails then (.error c.text, w)
      else
        match u.apply w.db with
        | none => (.error c.text, w)
        | some db => (.ok (), { w with db := db })
  | .claimDue now limit, c, w =>
      if c.fails then (.error c.text, w)
      else (.ok (w.db.claimDue now limit c.rank).1,
        { w with db := (w.db.claimDue now limit c.rank).2 })
  | .createDirAll _, c, w => (c.give (), w)
  | .writeFile path raw, c, w =>
      if c.fails then
        -- the file may have been created, and part of it written
        match c.torn with
        | none => (.error c.text, w)
        | some n => (.error c.text, { w with spool := w.spool.write path (raw.take n) })
      else (.ok (), { w with spool := w.spool.write path raw })
  | .readFile path, c, w =>
      match w.spool.read path with
      | none => (.error c.text, w)
      | some raw => (c.give raw, w)
  | .send messageId _ _ _, c, w => (c.give (), { w with relayed := messageId :: w.relayed })

theorem answer_write_cases (u : Write) (c : Chance) (w : World) :
    (∃ db, c.fails = false ∧ u.apply w.db = some db ∧
      answer (.write u) c w = (.ok (), { w with db := db })) ∨
    ((c.fails = true ∨ u.apply w.db = none) ∧ answer (.write u) c w = (.error c.text, w)) := by
  cases hf : c.fails with
  | true => exact Or.inr ⟨Or.inl rfl, by simp [answer, hf]⟩
  | false =>
      cases hu : u.apply w.db with
      | none => exact Or.inr ⟨Or.inr rfl, by simp [answer, hf, hu]⟩
      | some db => exact Or.inl ⟨db, rfl, rfl, by simp [answer, hf, hu]⟩

/-- File operations leave the tables. -/
theorem answer_writeFile_db (path : Str) (raw : Bytes) (c : Chance) (w : World) :
    (answer (.writeFile path raw) c w).2.db = w.db := by
  cases hf : c.fails <;> cases ht : c.torn <;> simp [answer, hf, ht]

theorem answer_readFile_db (path : Str) (c : Chance) (w : World) :
    (answer (.readFile path) c w).2.db = w.db := by
  cases hr : w.spool.read path <;> simp [answer, hr]

/-! ## A machine -/

/-- A world and the chances of the operations to come. -/
structure Host where
  world : World
  oracle : Nat → Chance
  tick : Nat

namespace Host

variable (h : Host)

def chance : Chance := h.oracle h.tick

/-- The machine after one operation. -/
def after (w : World) : Host := { h with world := w, tick := h.tick + 1 }

/-- The machine after one operation that changed nothing. -/
def skip : Host := h.after h.world

@[simp] theorem after_world (w : World) : (h.after w).world = w := rfl
@[simp] theorem after_oracle (w : World) : (h.after w).oracle = h.oracle := rfl
@[simp] theorem after_tick (w : World) : (h.after w).tick = h.tick + 1 := rfl
@[simp] theorem skip_world : h.skip.world = h.world := rfl
@[simp] theorem skip_oracle : h.skip.oracle = h.oracle := rfl
@[simp] theorem skip_tick : h.skip.tick = h.tick + 1 := rfl

end Host

/-- Chances where nothing fails and the draws differ from operation to operation. -/
def Chance.calm (n : Nat) : Chance :=
  { fails := false, text := [], uuid := Nat.toDigits 10 n, now := ⟨1790121600 + n, 0⟩,
    symbol := fun i => Fin.ofNat 62 (n + i), rank := fun _ => 0, torn := none }

def Host.calm (w : World) : Host := ⟨w, Chance.calm, 0⟩

def perform : Prog.Handler Op Res Host := fun o h =>
  ((answer o h.chance h.world).1, h.after (answer o h.chance h.world).2)

/-! ## Single operations as code -/

open Prog

def newUuid : App Str := ExceptT.lift (op Op.uuid)
def utcNow : App Instant := ExceptT.lift (op Op.now)
def sampleAlphanumeric (n : Nat) : App (Fin n → Fin 62) := ExceptT.lift (op (Op.sample n))
def write (u : Write) : App Unit := ExceptT.mk (op (Op.write u))
def createDirAll (dir : Str) : App Unit := ExceptT.mk (op (Op.createDirAll dir))
def writeFile (path : Str) (raw : Bytes) : App Unit := ExceptT.mk (op (Op.writeFile path raw))
def readFile (path : Str) : App Bytes := ExceptT.mk (op (Op.readFile path))

variable (h : Host)

@[simp] theorem exec_newUuid : exec perform newUuid h = (.ok h.chance.uuid, h.skip) := rfl

@[simp] theorem exec_utcNow : exec perform utcNow h = (.ok h.chance.now, h.skip) := rfl

@[simp] theorem exec_sampleAlphanumeric (n : Nat) :
    exec perform (sampleAlphanumeric n) h = (.ok fun i => h.chance.symbol i, h.skip) := rfl

theorem exec_createDirAll_cases (dir : Str) :
    (h.chance.fails = false ∧ exec perform (createDirAll dir) h = (.ok (), h.skip)) ∨
    (h.chance.fails = true ∧ exec perform (createDirAll dir) h
      = (.error h.chance.text, h.skip)) := by
  have hexec : exec perform (createDirAll dir) h = (h.chance.give (), h.skip) := rfl
  rw [hexec, Chance.give]
  cases h.chance.fails with
  | false => exact Or.inl ⟨rfl, rfl⟩
  | true => exact Or.inr ⟨rfl, rfl⟩

theorem exec_write (u : Write) : exec perform (write u) h =
    ((answer (.write u) h.chance h.world).1, h.after (answer (.write u) h.chance h.world).2) :=
  rfl

/-- A statement takes effect and succeeds, or fails and changes nothing. -/
theorem exec_write_cases (u : Write) :
    (∃ db, h.chance.fails = false ∧ u.apply h.world.db = some db ∧
      exec perform (write u) h = (.ok (), h.after { h.world with db := db })) ∨
    ((h.chance.fails = true ∨ u.apply h.world.db = none) ∧
      exec perform (write u) h = (.error h.chance.text, h.skip)) := by
  rw [exec_write]
  rcases answer_write_cases u h.chance h.world with ⟨db, hf, hu, he⟩ | ⟨hbad, he⟩
  · exact Or.inl ⟨db, hf, hu, by rw [he]⟩
  · exact Or.inr ⟨hbad, by rw [he]; rfl⟩

/-- A file is written, or something is left at its path. -/
theorem exec_writeFile_cases (path : Str) (raw : Bytes) :
    (h.chance.fails = false ∧ exec perform (writeFile path raw) h
      = (.ok (), h.after { h.world with spool := h.world.spool.write path raw })) ∨
    (h.chance.fails = true ∧ ∃ spool,
      (∀ other, other ≠ path → spool.read other = h.world.spool.read other) ∧
      exec perform (writeFile path raw) h
        = (.error h.chance.text, h.after { h.world with spool := spool })) := by
  have hexec : exec perform (writeFile path raw) h =
      ((answer (.writeFile path raw) h.chance h.world).1,
        h.after (answer (.writeFile path raw) h.chance h.world).2) := rfl
  rw [hexec]
  cases hf : h.chance.fails with
  | false => exact Or.inl ⟨rfl, by simp [answer, hf]⟩
  | true =>
      refine Or.inr ⟨rfl, ?_⟩
      cases ht : h.chance.torn with
      | none => exact ⟨h.world.spool, fun _ _ => rfl, by simp [answer, hf, ht]⟩
      | some n =>
          exact ⟨h.world.spool.write path (raw.take n), fun _ hne => Spool.read_write_ne _ _
            hne.symm, by simp [answer, hf, ht]⟩

/-- A statement that no constraint refuses, on a machine that does not fail. -/
theorem exec_write_ok {u : Write} {db : Db} (hf : h.chance.fails = false)
    (hu : u.apply h.world.db = some db) :
    exec perform (write u) h = (.ok (), h.after { h.world with db := db }) := by
  rcases exec_write_cases h u with ⟨db', -, hu', he⟩ | ⟨hbad, -⟩
  · rw [hu] at hu'
    cases hu'
    exact he
  · rcases hbad with hbad | hbad
    · rw [hf] at hbad; cases hbad
    · rw [hu] at hbad; cases hbad

/-- A lookup fails, or returns what the tables hold. -/
theorem give_cases {α : Type} {x : App α} {a : α} {h : Host}
    (hx : exec perform x h = (h.chance.give a, h.skip)) :
    (h.chance.fails = true ∧ exec perform x h = (.error h.chance.text, h.skip)) ∨
    (h.chance.fails = false ∧ exec perform x h = (.ok a, h.skip)) := by
  rw [hx, Chance.give]
  cases h.chance.fails with
  | true => exact Or.inl ⟨rfl, rfl⟩
  | false => exact Or.inr ⟨rfl, rfl⟩

end Weiterleitung
