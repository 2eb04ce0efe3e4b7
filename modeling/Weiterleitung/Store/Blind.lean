/-
# `Store.Blind` — stores that differ in the addresses of mailboxes

Two stores may differ in the `email` column of `mailboxes`, and in the recipients of queued
mail that come from it (`Twins`).  An operation cannot tell them apart, unless it returns such
an address: it succeeds on both or on neither, with the same answer but for that, and leaves
stores that differ in nothing else.

    one operation of the router on both       (`write_twins`, `writeFile_twins`)
    the same on two machines                  (`alike_of_answer`)
-/
import Mathlib
import Weiterleitung.Lib.Twin
import Weiterleitung.Store.Frame

namespace Weiterleitung

open Text Prog

/-- A mailbox without its address. -/
def Mailbox.blind (m : Mailbox) : Mailbox := { m with email := [] }

/-- A row without its recipient. -/
def OutboxRow.blind (row : OutboxRow) : OutboxRow := { row with envelopeTo := [] }

/-- A contact that was found, without the address of the mailbox. -/
def ContactWithAlias.blind (c : ContactWithAlias) : ContactWithAlias :=
  { c with mailboxEmail := [] }

/-- The tables, with these mailboxes in the one store and those in the other. -/
structure Twins (boxes boxes' : List Mailbox) (db db' : Db) : Prop where
  blind : boxes.map Mailbox.blind = boxes'.map Mailbox.blind
  mailboxes : db.mailboxes = boxes
  mailboxes' : db'.mailboxes = boxes'
  aliases : db.aliases = db'.aliases
  contacts : db.contacts = db'.contacts
  outbox : db.outbox.map OutboxRow.blind = db'.outbox.map OutboxRow.blind

/-- The worlds: files and sent messages are the same. -/
structure WorldTwins (boxes boxes' : List Mailbox) (w w' : World) : Prop where
  db : Twins boxes boxes' w.db w'.db
  spool : w.spool = w'.spool
  relayed : w.relayed = w'.relayed

/-- The machines: what is left to chance is the same. -/
structure HostTwins (boxes boxes' : List Mailbox) (h h' : Host) : Prop where
  oracle : h.oracle = h'.oracle
  tick : h.tick = h'.tick
  world : WorldTwins boxes boxes' h.world h'.world

section
variable {boxes boxes' : List Mailbox} {db db' : Db}

/-! ## Lookups -/

/-- A mailbox is there in both stores or in neither. -/
theorem mailboxOf_twins (h : Twins boxes boxes' db db') {α : Type} (a : Alias) (x : α) :
    (db.mailboxOf a).map (fun _ => x) = (db'.mailboxOf a).map fun _ => x := by
  have hblind : ∀ l : List Mailbox, (l.find? (·.mailboxId = a.mailboxId)).map (fun _ => x)
      = ((l.map Mailbox.blind).find? (·.mailboxId = a.mailboxId)).map fun _ => x := by
    intro l
    rw [List.find?_map, Option.map_map]
    rfl
  unfold Db.mailboxOf
  rw [h.mailboxes, h.mailboxes', hblind boxes, hblind boxes', h.blind]

theorem findAliasByAddress_twins (h : Twins boxes boxes' db db') (address : Str) :
    (db.findAliasByAddress address).map (·.toAlias) = (db'.findAliasByAddress address).map
      (·.toAlias) := by
  have hjoined : ∀ d : Db, (d.findAliasByAddress address).map (·.toAlias)
      = d.aliases.findSome? fun a => if a.address = address then (d.mailboxOf a).map
        (fun _ => a) else none := by
    intro d
    rw [Db.findAliasByAddress, List.map_findSome?]
    congr 1
    funext a
    show Option.map _ (if a.address = address then _ else none) = _
    split
    · rw [Option.map_map]
      rfl
    · rfl
  rw [hjoined, hjoined, h.aliases]
  congr 1
  funext a
  rw [mailboxOf_twins h a a]

theorem findContactByReverseAlias_twins (h : Twins boxes boxes' db db') (r : Str) :
    (db.findContactByReverseAlias r).map ContactWithAlias.blind
      = (db'.findContactByReverseAlias r).map ContactWithAlias.blind := by
  have hjoined : ∀ d : Db, (d.findContactByReverseAlias r).map ContactWithAlias.blind
      = d.contacts.findSome? fun c => if c.reverseAlias = r then
          (d.aliases.find? (·.aliasId = c.aliasId)).bind fun a =>
            (d.mailboxOf a).map fun _ => ⟨c, a.address, a.enabled, []⟩
        else none := by
    intro d
    rw [Db.findContactByReverseAlias, List.map_findSome?]
    congr 1
    funext c
    show Option.map _ (if c.reverseAlias = r then _ else none) = _
    split
    · rw [Option.map_bind]
      congr 1
      funext a
      show Option.map _ (Option.map _ _) = _
      rw [Option.map_map]
      rfl
    · rfl
  rw [hjoined, hjoined, h.contacts, h.aliases]
  congr 1
  funext c
  congr 2
  funext a
  rw [mailboxOf_twins h a]

/-! ## Statements -/

/-- Neither store takes the statement, or both do. -/
def Write.Twin (boxes boxes' : List Mailbox) (u u' : Write) : Prop :=
  ∀ db db', Twins boxes boxes' db db' → (u.apply db = none ∧ u'.apply db' = none) ∨
    ∃ d d', u.apply db = some d ∧ u'.apply db' = some d' ∧ Twins boxes boxes' d d'

theorem twin_recordAliasActivity (aliasId : Str) (counter : AliasCounter) (now : Str) :
    Write.Twin boxes boxes' (.recordAliasActivity aliasId counter now)
      (.recordAliasActivity aliasId counter now) := by
  intro db db' h
  refine Or.inr ⟨_, _, rfl, rfl, h.blind, h.mailboxes, h.mailboxes', ?_, h.contacts, h.outbox⟩
  show List.map _ db.aliases = List.map _ db'.aliases
  rw [h.aliases]

theorem twin_insertContact (c : Contact) :
    Write.Twin boxes boxes' (.insertContact c) (.insertContact c) := by
  intro db db' h
  have hfind : db.findContact c.aliasId c.email = db'.findContact c.aliasId c.email := by
    unfold Db.findContact
    rw [h.contacts]
  simp only [Write.apply, Db.insertContact, hfind, h.contacts, h.aliases]
  split
  · exact Or.inr ⟨_, _, rfl, rfl, h⟩
  · split
    · exact Or.inl ⟨rfl, rfl⟩
    · split
      · exact Or.inl ⟨rfl, rfl⟩
      · exact Or.inr ⟨_, _, rfl, rfl, h.blind, h.mailboxes, h.mailboxes', rfl, rfl, h.outbox⟩

/-- Rows that differ in the recipient only. -/
theorem twin_insertOutbox {row row' : OutboxRow} (hrow : row.blind = row'.blind) :
    Write.Twin boxes boxes' (.insertOutbox row) (.insertOutbox row') := by
  intro db db' h
  have hid : row.messageId = row'.messageId := (congrArg OutboxRow.messageId hrow :)
  have halias : row.aliasId = row'.aliasId := (congrArg OutboxRow.aliasId hrow :)
  have hcontact : row.contactId = row'.contactId := (congrArg OutboxRow.contactId hrow :)
  have hany : ∀ d : Db, d.outbox.any (·.messageId = row'.messageId)
      = (d.outbox.map OutboxRow.blind).any (·.messageId = row'.messageId) := by
    intro d
    rw [List.any_map]
    rfl
  simp only [Write.apply, Db.insertOutbox, hid, halias, hcontact, h.contacts,
    h.aliases, hany, h.outbox]
  split
  · exact Or.inl ⟨rfl, rfl⟩
  · split
    · exact Or.inl ⟨rfl, rfl⟩
    · split
      · exact Or.inl ⟨rfl, rfl⟩
      · refine Or.inr ⟨_, _, rfl, rfl, h.blind, h.mailboxes, h.mailboxes', rfl, rfl, ?_⟩
        rw [List.map_append, List.map_append, h.outbox, List.map_singleton,
          List.map_singleton, hrow]

/-! ## Operations on two machines -/

section
variable {w w' : World} (c : Chance)

/-- Answers that are given or fail alike. -/
theorem give_twins {α β : Type} {E : α → β → Prop} {a : α} {b : β} (h : E a b) :
    Results E (c.give a) (c.give b) := by
  unfold Chance.give
  split
  · rfl
  · exact h

theorem write_twins {u u' : Write} (hu : Write.Twin boxes boxes' u u')
    (h : WorldTwins boxes boxes' w w') :
    Results Eq (answer (.write u) c w).1 (answer (.write u') c w').1 ∧
      WorldTwins boxes boxes' (answer (.write u) c w).2 (answer (.write u') c w').2 := by
  cases hf : c.fails with
  | true => simp only [answer, hf, if_true]; exact ⟨rfl, h⟩
  | false =>
      rcases hu w.db w'.db h.db with ⟨hn, hn'⟩ | ⟨d, d', hd, hd', hdb⟩
      · simp only [answer, hf, hn, hn', Bool.false_eq_true, if_false]
        exact ⟨rfl, h⟩
      · simp only [answer, hf, hd, hd', Bool.false_eq_true, if_false]
        exact ⟨rfl, hdb, h.spool, h.relayed⟩

theorem writeFile_twins (path : Str) (raw : Bytes) (h : WorldTwins boxes boxes' w w') :
    Results Eq (answer (.writeFile path raw) c w).1 (answer (.writeFile path raw) c w').1 ∧
      WorldTwins boxes boxes' (answer (.writeFile path raw) c w).2
        (answer (.writeFile path raw) c w').2 := by
  cases hf : c.fails with
  | false =>
      simp only [answer, hf, Bool.false_eq_true, if_false]
      exact ⟨rfl, h.db, by rw [h.spool], h.relayed⟩
  | true =>
      cases ht : c.torn with
      | none => simp only [answer, hf, ht, if_true]; exact ⟨rfl, h⟩
      | some n =>
          simp only [answer, hf, ht, if_true]
          exact ⟨rfl, h.db, by rw [h.spool], h.relayed⟩

/-- An operation on two machines is one on their worlds. -/
theorem alike_of_answer {o o' : Op} {E : Res o → Res o' → Prop}
    (h : ∀ c w w', WorldTwins boxes boxes' w w' → E (answer o c w).1 (answer o' c w').1 ∧
      WorldTwins boxes boxes' (answer o c w).2 (answer o' c w').2) :
    Alike perform (HostTwins boxes boxes') E (op o) (op o') := by
  refine alike_op fun s t hst => ?_
  have hchance : s.chance = t.chance := by
    unfold Host.chance
    rw [hst.oracle, hst.tick]
  obtain ⟨hres, hworld⟩ := h s.chance s.world t.world hst.world
  show E (answer o s.chance s.world).1 (answer o' t.chance t.world).1 ∧ _
  rw [← hchance]
  refine ⟨hres, hst.oracle, congrArg (· + 1) hst.tick, ?_⟩
  show WorldTwins _ _ (answer o s.chance s.world).2 (answer o' t.chance t.world).2
  rw [← hchance]
  exact hworld

end

end

end Weiterleitung
