/-
# `Store.Listing` — the queries that read whole tables

The pages of the operator list mailboxes and aliases, in an order that the statement gives.
These queries are operations beside those of the mail server, with the same chances: one may
fail, and rows that compare equal come as the database likes.

    listMailboxes   ORDER BY is_default DESC, email ASC
    listAliases     joined with their mailboxes, ORDER BY created_at DESC
-/
import Mathlib
import Weiterleitung.Lib.Calls
import Weiterleitung.Lib.Keyed
import Weiterleitung.Store.Access

namespace Weiterleitung

open Prog

/-! ## The statements -/

/-- `is_default DESC, email ASC`. -/
def Mailbox.Before (a b : Mailbox) : Prop :=
  b.isDefault < a.isDefault ∨ a.isDefault = b.isDefault ∧ a.email ≤ b.email

instance : DecidableRel Mailbox.Before := fun _ _ => inferInstanceAs (Decidable (_ ∨ _))

namespace Db

def listMailboxes (db : Db) : List Mailbox := db.mailboxes.insertionSort fun a b => a.Before b

/-- `rank` is how the database orders rows with the same `created_at`. -/
def listAliases (rank : Str → Nat) (db : Db) : List AliasWithMailbox :=
  let sorted := db.aliases.insertionSort fun a b =>
    b.createdAt < a.createdAt ∨ a.createdAt = b.createdAt ∧ rank a.aliasId ≤ rank b.aliasId
  sorted.filterMap fun a => (db.mailboxOf a).map fun m => ⟨a, m.email⟩

end Db

inductive Query where
  | listMailboxes
  | listAliases

abbrev Query.Res : Query → Type
  | .listMailboxes => Except Str (List Mailbox)
  | .listAliases => Except Str (List AliasWithMailbox)

def Query.answer : (q : Query) → Chance → World → q.Res
  | .listMailboxes, c, w => c.give w.db.listMailboxes
  | .listAliases, c, w => c.give (w.db.listAliases c.rank)

/-- What an operation or a query is answered with. -/
abbrev PageRes : Op ⊕ Query → Type := Answers Res Query.Res

/-- Code of a page, which may list. -/
abbrev Page (α : Type) := Fallible Str (Op ⊕ Query) PageRes α

def answerPage : (o : Op ⊕ Query) → Chance → World → PageRes o × World
  | .inl o, c, w => answer o c w
  | .inr q, c, w => (q.answer c w, w)

def performPage : Handler (Op ⊕ Query) PageRes Host := fun o h =>
  ((answerPage o h.chance h.world).1, h.after (answerPage o h.chance h.world).2)

/-! ## The functions -/

def listMailboxes : Page (List Mailbox) := ExceptT.mk (op (Sum.inr Query.listMailboxes))

def listAliases : Page (List AliasWithMailbox) := ExceptT.mk (op (Sum.inr Query.listAliases))

def defaultMailbox : Page (Option Mailbox) := do
  return (← listMailboxes).head?

@[simp] theorem exec_listMailboxes (h : Host) :
    exec performPage listMailboxes h = (h.chance.give h.world.db.listMailboxes, h.skip) := rfl

/-! ## Their order -/

/-- Sorted for the query is sorted by the two columns. -/
theorem Mailbox.before_iff (a b : Mailbox) : a.Before b ↔
    toLex (OrderDual.toDual a.isDefault, a.email) ≤ toLex
      (OrderDual.toDual b.isDefault, b.email) :=
  (Prod.Lex.toLex_le_toLex (x := (OrderDual.toDual a.isDefault, a.email))
    (y := (OrderDual.toDual b.isDefault, b.email))).symm

theorem Db.perm_listMailboxes (db : Db) : db.listMailboxes.Perm db.mailboxes :=
  List.perm_insertionSort _ _

/-- The first mailbox that is listed comes before every other one. -/
theorem Db.head_listMailboxes {db : Db} {m : Mailbox} (h : db.listMailboxes.head? = some m) :
    m ∈ db.mailboxes ∧ ∀ other ∈ db.mailboxes, m.Before other := by
  unfold Db.listMailboxes at h
  simp only [Mailbox.before_iff] at h ⊢
  exact head_sorted h

end Weiterleitung
