/-
# `Store.Reachable` — the tables the program can make

The program writes addresses in their normalised form, and reverse aliases as it composes
them (`Legal`).  Whatever it does in whatever order, and whatever fails, its tables stay
well formed (`Wf`): keys are keys, references lead somewhere, and addresses
are what the program writes.

    every operation keeps the tables well formed     (`wf_of_legal`)
    every reachable store is well formed             (`Reachable.wf`)
    a statement takes rows out, changes them in
      place or adds one                              (`effect_of_write`)
    code that asks for legal operations only leads
      from one store to a later one                  (`later_exec`)
-/
import Mathlib
import Weiterleitung.Lib.Keyed
import Weiterleitung.Store.Frame

namespace Weiterleitung

open Text Prog

/-! ## What the program writes -/

/-- The operations as the program asks for them. -/
def Legal (settings : AliasSettings) : Op → Prop
  | .write (.insertMailbox m) => IsNormalised m.email
  | .write (.insertAlias a) => IsNormalised a.address
  | .write (.insertContact c) => c.Made settings
  | .write (.insertOutbox row) => row.status = .pending ∧ row.attempts = 0
  | _ => True

/-- The tables after more operations, failed or not. -/
inductive Later (settings : AliasSettings) (db : Db) : Db → Prop
  | refl : Later settings db db
  | step (w : World) (o : Op) (c : Chance) : Later settings db w.db → Legal settings o →
      Later settings db (answer o c w).2.db

/-- The tables the program can make. -/
def Reachable (settings : AliasSettings) (db : Db) : Prop := Later settings Db.empty db

variable {settings : AliasSettings}

theorem Later.trans {db₁ db₂ db₃ : Db} (h : Later settings db₁ db₂)
    (h' : Later settings db₂ db₃) :
    Later settings db₁ db₃ := by
  induction h' with
  | refl => exact h
  | step w o c _ ho ih => exact ih.step w o c ho

/-- Code that asks for legal operations only. -/
theorem later_exec {ε α : Type} {x : Fallible ε Op Res α} (hx : Uses (Legal settings) x.run)
    (h : Host) :
    Later settings h.world.db (exec perform x h).2.world.db :=
  run_rel perform (R := fun h h' => Later settings h.world.db h'.world.db)
    (fun _ => .refl) Later.trans (fun o ho h => Later.step h.world o h.chance .refl ho) hx h

/-! ## Well-formed tables -/

structure Wf (settings : AliasSettings) (db : Db) : Prop where
  mailboxIds : Keyed Mailbox.mailboxId db.mailboxes
  emails : Keyed Mailbox.email db.mailboxes
  aliasIds : Keyed Alias.aliasId db.aliases
  addresses : Keyed Alias.address db.aliases
  reverseAliases : Keyed Contact.reverseAlias db.contacts
  owners : ∀ a ∈ db.aliases, ∃ m ∈ db.mailboxes, m.mailboxId = a.mailboxId
  correspondents : ∀ c ∈ db.contacts, ∃ a ∈ db.aliases, a.aliasId = c.aliasId
  mailboxForms : ∀ m ∈ db.mailboxes, IsNormalised m.email
  aliasForms : ∀ a ∈ db.aliases, IsNormalised a.address
  contactForms : ∀ c ∈ db.contacts, c.Made settings

theorem wf_empty : Wf settings Db.empty where
  mailboxIds := List.nodup_nil
  emails := List.nodup_nil
  aliasIds := List.nodup_nil
  addresses := List.nodup_nil
  reverseAliases := List.nodup_nil
  owners := fun _ h => nomatch h
  correspondents := fun _ h => nomatch h
  mailboxForms := fun _ h => nomatch h
  aliasForms := fun _ h => nomatch h
  contactForms := fun _ h => nomatch h

namespace Wf

variable {db : Db}

/-- The outbox is no matter. -/
theorem outbox (h : Wf settings db) (rows : List OutboxRow) :
    Wf settings { db with outbox := rows } :=
  ⟨h.mailboxIds, h.emails, h.aliasIds, h.addresses, h.reverseAliases, h.owners,
    h.correspondents, h.mailboxForms, h.aliasForms, h.contactForms⟩

/-- Aliases may change in what is no key, reference or address. -/
theorem mapAliases (h : Wf settings db) {f : Alias → Alias}
    (hf : ∀ a, (f a).aliasId = a.aliasId ∧ (f a).address = a.address ∧
      (f a).mailboxId = a.mailboxId) :
    Wf settings { db with aliases := db.aliases.map f } where
  mailboxIds := h.mailboxIds
  emails := h.emails
  aliasIds := h.aliasIds.map fun a => (hf a).1
  addresses := h.addresses.map fun a => (hf a).2.1
  reverseAliases := h.reverseAliases
  owners := by
    intro a ha
    obtain ⟨b, hb, rfl⟩ := List.mem_map.mp ha
    obtain ⟨m, hm, hid⟩ := h.owners b hb
    exact ⟨m, hm, hid.trans (hf b).2.2.symm⟩
  correspondents := by
    intro c hc
    obtain ⟨a, ha, hid⟩ := h.correspondents c hc
    exact ⟨f a, List.mem_map_of_mem ha, (hf a).1.trans hid⟩
  mailboxForms := h.mailboxForms
  aliasForms := by
    intro a ha
    obtain ⟨b, hb, rfl⟩ := List.mem_map.mp ha
    rw [(hf b).2.1]
    exact h.aliasForms b hb
  contactForms := h.contactForms

theorem insertMailbox (h : Wf settings db) {m : Mailbox} {db' : Db} (hm : IsNormalised m.email)
    (hdb : db.insertMailbox m = some db') : Wf settings db' := by
  obtain ⟨f, hf, hfresh, rfl⟩ := Db.insertMailbox_eq_some hdb
  have hold : ∀ o ∈ db.mailboxes.map f, o.mailboxId ≠ m.mailboxId ∧ o.email ≠ m.email := by
    intro o ho
    obtain ⟨o', ho', rfl⟩ := List.mem_map.mp ho
    rw [(hf o').1, (hf o').2]
    exact hfresh o' ho'
  refine ⟨(h.mailboxIds.map fun o => (hf o).1).concat fun o ho => (hold o ho).1,
    (h.emails.map fun o => (hf o).2).concat fun o ho => (hold o ho).2, h.aliasIds, h.addresses,
    h.reverseAliases, ?_, h.correspondents, ?_, h.aliasForms, h.contactForms⟩
  · intro a ha
    obtain ⟨o, ho, hid⟩ := h.owners a ha
    exact ⟨f o, List.mem_append_left _ (List.mem_map_of_mem ho), (hf o).1.trans hid⟩
  · intro o ho
    rcases List.mem_append.mp ho with ho | ho
    · obtain ⟨o', ho', rfl⟩ := List.mem_map.mp ho
      rw [(hf o').2]
      exact h.mailboxForms o' ho'
    · rw [List.mem_singleton.mp ho]
      exact hm

theorem insertAlias (h : Wf settings db) {a : Alias} {db' : Db} (ha : IsNormalised a.address)
    (hdb : db.insertAlias a = some db') : Wf settings db' := by
  obtain ⟨hfresh, howner, rfl⟩ := Db.insertAlias_eq_some hdb
  refine ⟨h.mailboxIds, h.emails, h.aliasIds.concat fun b hb => (hfresh b hb).1,
    h.addresses.concat fun b hb => (hfresh b hb).2, h.reverseAliases, ?_, ?_, h.mailboxForms,
    ?_, h.contactForms⟩
  · intro b hb
    rcases List.mem_append.mp hb with hb | hb
    · exact h.owners b hb
    · rw [List.mem_singleton.mp hb]
      exact howner
  · intro c hc
    obtain ⟨b, hb, hid⟩ := h.correspondents c hc
    exact ⟨b, List.mem_append_left _ hb, hid⟩
  · intro b hb
    rcases List.mem_append.mp hb with hb | hb
    · exact h.aliasForms b hb
    · rw [List.mem_singleton.mp hb]
      exact ha

theorem insertContact (h : Wf settings db) {c : Contact} {db' : Db}
    (hc : c.Made settings)
    (hdb : db.insertContact c = some db') : Wf settings db' := by
  rcases Db.insertContact_eq_some hdb with ⟨-, rfl⟩ | ⟨-, hfresh, halias, rfl⟩
  · exact h
  · refine ⟨h.mailboxIds, h.emails, h.aliasIds, h.addresses,
      h.reverseAliases.concat fun d hd => (hfresh d hd).2, h.owners, ?_,
      h.mailboxForms, h.aliasForms, ?_⟩
    · intro d hd
      rcases List.mem_append.mp hd with hd | hd
      · exact h.correspondents d hd
      · rw [List.mem_singleton.mp hd]
        exact halias
    · intro d hd
      rcases List.mem_append.mp hd with hd | hd
      · exact h.contactForms d hd
      · rw [List.mem_singleton.mp hd]
        exact hc

/-- A contact is found by its reverse alias, with the alias and the mailbox it belongs to. -/
theorem findContactByReverseAlias (h : Wf settings db) {c : Contact} (hc : c ∈ db.contacts) :
    ∃ found, db.findContactByReverseAlias c.reverseAlias = some found ∧
      found.toContact = c := by
  cases hfound : db.findContactByReverseAlias c.reverseAlias with
  | some found =>
      obtain ⟨hmem, hrev, -⟩ := Db.findContactByReverseAlias_some hfound
      exact ⟨found, rfl, List.inj_on_of_nodup_map h.reverseAliases hmem hc hrev⟩
  | none =>
      have hnone := List.findSome?_eq_none_iff.mp hfound c hc
      rw [if_pos rfl, Option.bind_eq_none_iff] at hnone
      obtain ⟨b, hb, hid⟩ := h.correspondents c hc
      obtain ⟨a, ha⟩ : ∃ a, db.aliases.find? (·.aliasId = c.aliasId) = some a :=
        Option.isSome_iff_exists.mp (List.find?_isSome.mpr ⟨b, hb, decide_eq_true hid⟩)
      obtain ⟨m, hm, hmid⟩ := h.owners a (List.mem_of_find?_eq_some ha)
      have hmailbox := Option.map_eq_none_iff.mp (hnone a ha)
      exact absurd hmid (by simpa using List.find?_eq_none.mp hmailbox m hm)

/-- Aliases go with their contacts. -/
theorem removeAliases (h : Wf settings db) (p : Alias → Bool) :
    Wf settings (db.removeAliases p) where
  mailboxIds := h.mailboxIds
  emails := h.emails
  aliasIds := h.aliasIds.sublist List.filter_sublist
  addresses := h.addresses.sublist List.filter_sublist
  reverseAliases := h.reverseAliases.sublist List.filter_sublist
  owners := fun a ha => h.owners a (List.mem_of_mem_filter ha)
  correspondents := by
    intro c hc
    obtain ⟨hc, halive⟩ := List.mem_filter.mp hc
    obtain ⟨a, ha, hid⟩ := h.correspondents c hc
    refine ⟨a, List.mem_filter.mpr ⟨ha, ?_⟩, hid⟩
    cases hp : p a with
    | false => rfl
    | true =>
        have hdead : c.aliasId ∈ (db.aliases.filter p).map (·.aliasId) :=
          List.mem_map.mpr ⟨a, List.mem_filter.mpr ⟨ha, hp⟩, hid⟩
        exact absurd hdead (of_decide_eq_true halive)
  mailboxForms := h.mailboxForms
  aliasForms := fun a ha => h.aliasForms a (List.mem_of_mem_filter ha)
  contactForms := fun c hc => h.contactForms c (List.mem_of_mem_filter hc)

theorem deleteMailbox (h : Wf settings db) (mailboxId : Str) :
    Wf settings (db.deleteMailbox mailboxId) := by
  have hrest := h.removeAliases (·.mailboxId = mailboxId)
  refine ⟨h.mailboxIds.sublist List.filter_sublist, h.emails.sublist List.filter_sublist,
    hrest.aliasIds, hrest.addresses, hrest.reverseAliases, ?_, hrest.correspondents,
    fun m hm => h.mailboxForms m (List.mem_of_mem_filter hm), hrest.aliasForms,
    hrest.contactForms⟩
  intro a ha
  obtain ⟨hmem, hother⟩ := List.mem_filter.mp ha
  obtain ⟨m, hm, hid⟩ := h.owners a hmem
  refine ⟨m, List.mem_filter.mpr ⟨hm, ?_⟩, hid⟩
  rw [hid]
  simpa using hother

end Wf

theorem wf_of_write {u : Write} {db db' : Db} (hu : Legal settings (.write u))
    (h : Wf settings db) (hdb : u.apply db = some db') : Wf settings db' := by
  cases u with
  | insertMailbox m => exact h.insertMailbox hu hdb
  | insertAlias a => exact h.insertAlias hu hdb
  | insertContact c => exact h.insertContact hu hdb
  | insertOutbox row =>
      obtain ⟨-, rfl⟩ := Db.insertOutbox_eq_some hdb
      exact h.outbox _
  | deleteMailbox mailboxId =>
      cases hdb
      exact h.deleteMailbox mailboxId
  | deleteAlias aliasId =>
      cases hdb
      exact h.removeAliases _
  | setAliasEnabled aliasId enabled =>
      cases hdb
      exact h.mapAliases fun a => by split <;> exact ⟨rfl, rfl, rfl⟩
  | recordAliasActivity aliasId counter now =>
      cases hdb
      exact h.mapAliases fun a => by split <;> [cases counter; skip] <;> exact ⟨rfl, rfl, rfl⟩
  | requeueInterrupted | markDelivered | markFailed | markPending =>
      cases hdb
      exact h.outbox _

/-! ## What a statement does -/

/-- The same row, with the state of its delivery changed. -/
def Marked (row row' : OutboxRow) : Prop :=
  ∃ status attempts nextAttemptAt lastError deliveredAt,
    row' = { row with
      status := status, attempts := attempts, nextAttemptAt :=
        nextAttemptAt, lastError := lastError
      deliveredAt := deliveredAt }

theorem Marked.refl (row : OutboxRow) : Marked row row := ⟨_, _, _, _, _, rfl⟩

/-- Rows leave with their aliases, change in place, or come one at a time. -/
inductive Effect (db : Db) : Write → Db → Prop
  | removes (u : Write) (p : Alias → Bool) (mailboxes : List Mailbox) :
      Effect db u { db.removeAliases p with mailboxes := mailboxes }
  | updates (u : Write) (mailboxes : List Mailbox) (f : Alias → Alias)
      (g : OutboxRow → OutboxRow) :
      (∀ a, (f a).aliasId = a.aliasId ∧ (f a).address = a.address) →
      (∀ row, Marked row (g row)) →
      Effect db u { db with
        mailboxes := mailboxes
        aliases := db.aliases.map f
        outbox := db.outbox.map g }
  | addsAlias (a : Alias) : (∀ b ∈ db.aliases, b.aliasId ≠ a.aliasId ∧ b.address ≠ a.address) →
      Effect db (.insertAlias a) { db with aliases := db.aliases ++ [a] }
  | addsContact (c : Contact) : db.findContact c.aliasId c.email = none →
      Effect db (.insertContact c) { db with contacts := db.contacts ++ [c] }
  | addsRow (row : OutboxRow) : Effect db (.insertOutbox row)
      { db with outbox := db.outbox ++ [row] }

section
variable {db : Db}

theorem effect_mailboxes (u : Write) (mailboxes : List Mailbox) :
    Effect db u { db with mailboxes := mailboxes } := by
  have h : Effect db u _ := .updates u mailboxes id id (fun _ => ⟨rfl, rfl⟩) Marked.refl
  rwa [List.map_id, List.map_id] at h

theorem effect_aliases (u : Write) {f : Alias → Alias}
    (hf : ∀ a, (f a).aliasId = a.aliasId ∧ (f a).address = a.address) :
    Effect db u { db with aliases := db.aliases.map f } := by
  have h : Effect db u _ := .updates u db.mailboxes f id hf Marked.refl
  rwa [List.map_id] at h

theorem effect_outbox (u : Write) {g : OutboxRow → OutboxRow}
    (hg : ∀ row, Marked row (g row)) :
    Effect db u { db with outbox := db.outbox.map g } := by
  have h : Effect db u _ := .updates u db.mailboxes id g (fun _ => ⟨rfl, rfl⟩) hg
  rwa [List.map_id] at h

theorem effect_updateRow (u : Write) (messageId : Str) {g : OutboxRow → OutboxRow}
    (hg : ∀ row, Marked row (g row)) :
    Effect db u (db.updateRow messageId g) := by
  refine effect_outbox u fun row => ?_
  split
  · exact hg row
  · exact Marked.refl row

/-- Every statement has one of these effects. -/
theorem effect_of_write {u : Write} {db' : Db} (h : u.apply db = some db') :
    Effect db u db' := by
  cases u with
  | insertMailbox m =>
      obtain ⟨_, -, -, rfl⟩ := Db.insertMailbox_eq_some h
      exact effect_mailboxes _ _
  | insertAlias a =>
      obtain ⟨hfresh, -, rfl⟩ := Db.insertAlias_eq_some h
      exact .addsAlias a hfresh
  | insertContact c =>
      rcases Db.insertContact_eq_some h with ⟨-, rfl⟩ | ⟨hnone, -, -, rfl⟩
      · exact effect_mailboxes _ _
      · exact .addsContact c hnone
  | insertOutbox row =>
      obtain ⟨-, rfl⟩ := Db.insertOutbox_eq_some h
      exact .addsRow row
  | deleteMailbox | deleteAlias =>
      cases h
      exact .removes _ _ _
  | setAliasEnabled aliasId enabled =>
      cases h
      exact effect_aliases _ fun a => by split <;> exact ⟨rfl, rfl⟩
  | recordAliasActivity aliasId counter now =>
      cases h
      exact effect_aliases _ fun a => by split <;> [cases counter; skip] <;> exact ⟨rfl, rfl⟩
  | requeueInterrupted now =>
      cases h
      exact effect_outbox _ fun row => by split <;> exact ⟨_, _, _, _, _, rfl⟩
  | markDelivered | markFailed | markPending =>
      cases h
      exact effect_updateRow _ _ fun row => ⟨_, _, _, _, _, rfl⟩

end

/-- A claim changes the status of rows of the outbox only. -/
theorem Db.claimDue_outbox (now : Str) (n : Int) (rank : Str → Nat) (db : Db) :
    ∃ f : OutboxRow → OutboxRow, (∀ row, ∃ status, f row = { row with status := status }) ∧
      (db.claimDue now n rank).2 = { db with outbox := db.outbox.map f } := by
  refine ⟨_, fun row => ?_, Db.foldl_sending _ db⟩
  split
  · exact ⟨.sending, rfl⟩
  · exact ⟨row.status, rfl⟩

/-- What an operation does to the tables: nothing, a statement, or a claim. -/
theorem answer_db_cases (o : Op) (c : Chance) (w : World) :
    (answer o c w).2.db = w.db ∨
    (∃ u, o = .write u ∧ u.apply w.db = some (answer o c w).2.db) ∨
    ∃ now n, o = .claimDue now n ∧ ∃ f : OutboxRow → OutboxRow,
      (∀ row, ∃ status, f row = { row with status := status }) ∧
      (answer o c w).2.db = { w.db with outbox := w.db.outbox.map f } := by
  cases o with
  | write u =>
      rcases answer_write_cases u c w with ⟨db, -, hdb, he⟩ | ⟨-, he⟩
      · rw [he]
        exact Or.inr (Or.inl ⟨u, rfl, hdb⟩)
      · rw [he]
        exact Or.inl rfl
  | claimDue now n =>
      refine Or.inr (Or.inr ⟨now, n, rfl, ?_⟩)
      cases hf : c.fails with
      | true => exact ⟨id, fun row => ⟨row.status, rfl⟩, by simp [answer, hf]⟩
      | false =>
          obtain ⟨f, hstatus, hrows⟩ := Db.claimDue_outbox now n c.rank w.db
          exact ⟨f, hstatus, by simp [answer, hf, hrows]⟩
  | writeFile path raw => exact Or.inl (answer_writeFile_db path raw c w)
  | readFile path => exact Or.inl (answer_readFile_db path c w)
  | _ => exact Or.inl rfl

theorem wf_of_legal {o : Op} (ho : Legal settings o) (c : Chance) {w : World}
    (h : Wf settings w.db) :
    Wf settings (answer o c w).2.db := by
  rcases answer_db_cases o c w with he | ⟨u, rfl, hu⟩ | ⟨now, n, rfl, f, -, he⟩
  · rw [he]
    exact h
  · exact wf_of_write ho h hu
  · rw [he]
    exact h.outbox _

/-- Well formed once, well formed later. -/
theorem Later.wf {db db' : Db} (h : Later settings db db') (hdb : Wf settings db) :
    Wf settings db' := by
  induction h with
  | refl => exact hdb
  | step w o c _ ho ih => exact wf_of_legal ho c ih

/-- Every reachable store is well formed. -/
theorem Reachable.wf {db : Db} (h : Reachable settings db) :
    Wf settings db := Later.wf h wf_empty

/-! ## The program is legal -/

theorem legal_of_routing : ∀ o, Routing settings o → Legal settings o
  | .write (.recordAliasActivity _ _ _), _ => trivial
  | .write (.insertContact _), hc => hc
  | .write (.insertOutbox _), hrow => hrow
  | .uuid, _ | .now, _ | .sample _, _ | .findAliasByAddress _, _ | .findContact _ _, _ =>
      trivial
  | .findContactByReverseAlias _, _ | .createDirAll _, _ | .writeFile _ _, _
  | .readFile _, _ => trivial

theorem legal_insertMailbox (email : EmailAddress) (isDefault : Bool) :
    Uses (Legal settings) (insertMailbox email isDefault).run := by
  refine ⟨trivial, fun mailboxId => ⟨trivial, fun createdAt => ⟨⟨email, rfl⟩, fun r => ?_⟩⟩⟩
  cases r <;> trivial

theorem legal_insertAlias (address : EmailAddress) (mailboxId : Str) (note : Option Str) :
    Uses (Legal settings) (insertAlias address mailboxId note).run := by
  refine ⟨trivial, fun aliasId => ⟨trivial, fun createdAt => ⟨⟨address, rfl⟩, fun r => ?_⟩⟩⟩
  cases r <;> trivial

end Weiterleitung
