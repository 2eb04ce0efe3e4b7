/-
# `Store.Overview` — the queries behind the pages of the operator

The dashboard lists the aliases with their mailboxes, the mailboxes with the number of their
aliases and the latest messages; the page of an alias lists its contacts.  The two lists of the
dashboard come from two statements, an inner join and a left join with a count.  In every state
the program can reach they agree (`overview_agrees`):

    no alias is missing from the first, and no mailbox from the second
    the count at a mailbox is the number of listed aliases that forward to it
    the counts add up to the aliases listed
-/
import Mathlib
import Weiterleitung.Lib.Join
import Weiterleitung.Store.Contacts
import Weiterleitung.Store.Listing

namespace Weiterleitung

open Prog Rows

/-! ## The statements -/

namespace Db

variable (db : Db)

/-- `LEFT JOIN aliases`, `GROUP BY m.mailbox_id` with `COUNT(a.alias_id)`,
`ORDER BY is_default DESC, email ASC`. -/
def listMailboxesWithAliasCounts : List (Mailbox × Nat) :=
  (countGroups Mailbox.mailboxId
    (leftJoin Mailbox.mailboxId Alias.mailboxId db.mailboxes db.aliases)).insertionSort
    fun a b => a.1.Before b.1

/-- `rank` is how the database orders rows with the same `created_at`. -/
def listContactsForAlias (aliasId : Str) (rank : Str → Nat) : List Contact :=
  (db.contacts.filter (·.aliasId = aliasId)).insertionSort fun a b =>
    b.createdAt < a.createdAt ∨ a.createdAt = b.createdAt ∧ rank a.contactId ≤ rank b.contactId

/-- `ORDER BY created_at DESC LIMIT ?`; a negative limit is none. -/
def listRecent (limit : Int) (rank : Str → Nat) : List QueuedMessage :=
  let sorted := db.outbox.insertionSort fun a b =>
    b.createdAt < a.createdAt ∨ a.createdAt = b.createdAt ∧ rank a.messageId ≤ rank b.messageId
  (if limit < 0 then sorted else sorted.take limit.toNat).map OutboxRow.queued

end Db

inductive View where
  | listMailboxesWithAliasCounts
  | listContactsForAlias (aliasId : Str)
  | listRecent (limit : Int)

abbrev View.Res : View → Type
  | .listMailboxesWithAliasCounts => Except Str (List (Mailbox × Nat))
  | .listContactsForAlias _ => Except Str (List Contact)
  | .listRecent _ => Except Str (List QueuedMessage)

def View.answer : (v : View) → Chance → World → v.Res
  | .listMailboxesWithAliasCounts, c, w => c.give w.db.listMailboxesWithAliasCounts
  | .listContactsForAlias aliasId, c, w => c.give (w.db.listContactsForAlias aliasId c.rank)
  | .listRecent limit, c, w => c.give (w.db.listRecent limit c.rank)

/-! ## The two lists of the dashboard -/

section
variable {settings : AliasSettings} {db : Db}

theorem mailboxOf_isSome (hreach : Reachable settings db) {a : Alias} (ha : a ∈ db.aliases) :
    ∃ m, db.mailboxOf a = some m := by
  obtain ⟨owner, howner, hid⟩ := hreach.wf.owners a ha
  refine Option.ne_none_iff_exists'.mp fun hnone => ?_
  exact List.find?_eq_none.mp hnone owner howner (decide_eq_true hid)

/-- Every alias is listed. -/
theorem listAliases_complete (hreach : Reachable settings db) (rank : Str → Nat) :
    ((db.listAliases rank).map (·.toAlias)).Perm db.aliases := by
  unfold Db.listAliases
  dsimp only
  generalize hsorted : (db.aliases.insertionSort fun a b =>
    b.createdAt < a.createdAt ∨ a.createdAt = b.createdAt ∧ rank a.aliasId ≤ rank b.aliasId)
      = sorted
  have hperm : sorted.Perm db.aliases := hsorted ▸ List.perm_insertionSort _ _
  refine List.Perm.trans (List.Perm.of_eq ?_) hperm
  rw [List.map_filterMap, ← List.filterMap_some (l := sorted), List.filterMap_filterMap]
  refine List.filterMap_congr fun a ha => ?_
  obtain ⟨m, hm⟩ := mailboxOf_isSome hreach (hperm.subset ha)
  simp [hm]

/-- An alias is listed with the address of its mailbox. -/
theorem mailboxEmail_listAliases {rank : Str → Nat} {listed : AliasWithMailbox}
    (h : listed ∈ db.listAliases rank) :
    ∃ m ∈ db.mailboxes, m.mailboxId = listed.toAlias.mailboxId ∧
      m.email = listed.mailboxEmail := by
  unfold Db.listAliases at h
  obtain ⟨a, -, ha⟩ := List.mem_filterMap.mp h
  obtain ⟨m, hm, rfl⟩ := Option.map_eq_some_iff.mp ha
  obtain ⟨hmem, hid⟩ := Db.mailboxOf_some hm
  exact ⟨m, hmem, hid, rfl⟩

/-- Each mailbox is listed once, with the number of its aliases. -/
theorem listMailboxesWithAliasCounts_eq (hreach : Reachable settings db) :
    db.listMailboxesWithAliasCounts =
      db.listMailboxes.map fun m => (m, db.aliases.countP (·.mailboxId = m.mailboxId)) := by
  unfold Db.listMailboxesWithAliasCounts Db.listMailboxes
  rw [countGroups_leftJoin hreach.wf.mailboxIds]
  refine (List.map_insertionSort (r := fun a b : Mailbox => a.Before b)
    (s := fun a b : Mailbox × Nat => a.1.Before b.1) _ _ ?_).symm
  exact fun a _ b _ => Iff.rfl

/-- The aliases and the mailboxes that the dashboard lists agree, in every state that the
program can reach. -/
theorem overview_agrees (hreach : Reachable settings db) (rank : Str → Nat) :
    ((db.listAliases rank).map (·.toAlias)).Perm db.aliases ∧
    db.listMailboxesWithAliasCounts.map (·.1) = db.listMailboxes ∧
    (∀ listed ∈ db.listAliases rank, ∃ m n, (m, n) ∈ db.listMailboxesWithAliasCounts ∧
      m.mailboxId = listed.toAlias.mailboxId ∧ m.email = listed.mailboxEmail) ∧
    (∀ m n, (m, n) ∈ db.listMailboxesWithAliasCounts →
      n = (db.listAliases rank).countP fun listed => listed.toAlias.mailboxId = m.mailboxId) ∧
    (db.listMailboxesWithAliasCounts.map (·.2)).sum = (db.listAliases rank).length := by
  have hperm := listAliases_complete hreach rank
  have hcount : ∀ m : Mailbox, db.aliases.countP (·.mailboxId = m.mailboxId)
      = (db.listAliases rank).countP fun listed => listed.toAlias.mailboxId = m.mailboxId := by
    intro m
    rw [← hperm.countP_eq, List.countP_map]
    rfl
  rw [listMailboxesWithAliasCounts_eq hreach]
  refine ⟨hperm, ?_, ?_, ?_, ?_⟩
  · rw [List.map_map]
    exact List.map_id _
  · intro listed hlisted
    obtain ⟨m, hm, hid, hemail⟩ := mailboxEmail_listAliases hlisted
    exact ⟨m, _, List.mem_map_of_mem (db.perm_listMailboxes.mem_iff.mpr hm), hid, hemail⟩
  · intro m n hmn
    obtain ⟨m', -, heq⟩ := List.mem_map.mp hmn
    cases heq
    exact hcount m
  · have hrefs : ∀ a ∈ db.aliases, a.mailboxId ∈ db.listMailboxes.map Mailbox.mailboxId := by
      intro a ha
      obtain ⟨m, hm, hid⟩ := hreach.wf.owners a ha
      exact hid ▸ List.mem_map_of_mem (db.perm_listMailboxes.mem_iff.mpr hm)
    have hkeys : (db.listMailboxes.map Mailbox.mailboxId).Nodup :=
      (db.perm_listMailboxes.map _).nodup_iff.mpr hreach.wf.mailboxIds
    rw [List.map_map, ← List.length_map (·.toAlias), hperm.length_eq]
    exact sum_countP hkeys hrefs

theorem overview_agrees_oneAlias :
    oneAlias.world.db.listMailboxesWithAliasCounts.map (fun mn => (mn.1.mailboxId, mn.2)) =
      [(['0'], 1)] ∧
    (oneAlias.world.db.listMailboxesWithAliasCounts.map (·.2)).sum
      = (oneAlias.world.db.listAliases fun _ => 0).length := by
  refine ⟨by decide +kernel, ?_⟩
  obtain ⟨-, -, -, -, hsum⟩ := overview_agrees (reachable_oneAlias exampleSettings) fun _ => 0
  exact hsum

end

end Weiterleitung
