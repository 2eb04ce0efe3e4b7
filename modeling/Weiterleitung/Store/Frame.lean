/-
# `Store.Frame` — what the operations of the router leave alone

Handling mail only adds: contacts and outbox rows come after the ones that were there,
mailboxes stay, and of the aliases only the counters and the time of last use change
(`Grows`).  Before a row is queued even less happens: the outbox, the spool and the counts
of forwards and replies stay (`Quiet`).

    an operation of the router grows the tables     (`grows_of_routing`)
    an operation aside from the queue is quiet      (`quiet_of_aside`)
    a lookup finds what it found before             (`Grows.findAliasByAddress`, …)
-/
import Mathlib
import Weiterleitung.Delivery.Queue

namespace Weiterleitung

open Prog

/-! ## What the program writes -/

/-- A reverse alias as `get_or_create_contact` composes it. -/
def IsReverseAlias (settings : AliasSettings) (r : Str) : Prop :=
  ∃ symbols : Fin 12 → Fin 62,
    r = composeReverseAlias settings.reverseAliasPrefix
      (tokenOf symbols) settings.defaultDomain

/-- The normalised form of an address. -/
def IsNormalised (s : Str) : Prop := ∃ e : EmailAddress, s = e.normalised

/-- A contact as `get_or_create_contact` makes it. -/
def Contact.Made (settings : AliasSettings) (c : Contact) : Prop :=
  IsNormalised c.email ∧ IsReverseAlias settings c.reverseAlias

variable {settings : AliasSettings}

/-! ## Growing -/

/-- An alias without its counters and the time of last use. -/
def Alias.core (a : Alias) : Alias :=
  { a with forwardCount := 0, replyCount := 0, blockedCount := 0, lastUsedAt := none }

theorem Alias.core_record (a : Alias) (now : Str) (counter : AliasCounter) :
    (a.record now counter).core = a.core := by
  cases counter <;> rfl

/-- Nothing but new contacts, new rows and other counts. -/
structure Grows (db db' : Db) : Prop where
  mailboxes : db'.mailboxes = db.mailboxes
  aliases : db'.aliases.map Alias.core = db.aliases.map Alias.core
  contacts : db.contacts <+: db'.contacts
  outbox : db.outbox <+: db'.outbox

theorem Grows.refl (db : Db) : Grows db db :=
  ⟨rfl, rfl, List.prefix_refl _, List.prefix_refl _⟩

theorem Grows.trans {db₁ db₂ db₃ : Db} (h : Grows db₁ db₂) (h' : Grows db₂ db₃) :
    Grows db₁ db₃ :=
  ⟨h'.mailboxes.trans h.mailboxes, h'.aliases.trans h.aliases, h.contacts.trans h'.contacts,
    h.outbox.trans h'.outbox⟩

/-- The operations of the router. -/
def Routing (settings : AliasSettings) : Op → Prop
  | .write (.recordAliasActivity _ _ _) => True
  | .write (.insertContact c) => c.Made settings
  | .write (.insertOutbox row) => row.status = .pending ∧ row.attempts = 0
  | .write _ => False
  | .claimDue _ _ => False
  | .send _ _ _ _ => False
  | _ => True

theorem Db.core_recordAliasActivity (aliasId : Str) (counter : AliasCounter)
    (now : Str) (db : Db) :
    (db.recordAliasActivity aliasId counter now).aliases.map Alias.core
      = db.aliases.map Alias.core := by
  unfold Db.recordAliasActivity
  rw [List.map_map]
  refine List.map_congr_left fun a _ => ?_
  show Alias.core (if a.aliasId = aliasId then a.record now counter else a) = a.core
  split
  · exact a.core_record now counter
  · rfl

theorem grows_of_write {u : Write} {db db' : Db} (hu : Routing settings (.write u))
    (h : u.apply db = some db') :
    Grows db db' := by
  cases u with
  | recordAliasActivity aliasId counter now =>
      cases h
      exact ⟨rfl, Db.core_recordAliasActivity aliasId counter now db, List.prefix_refl _,
        List.prefix_refl _⟩
  | insertContact c =>
      rcases Db.insertContact_eq_some h with ⟨-, rfl⟩ | ⟨-, -, -, rfl⟩
      · exact Grows.refl _
      · exact ⟨rfl, rfl, List.prefix_append _ _, List.prefix_refl _⟩
  | insertOutbox row =>
      obtain ⟨-, rfl⟩ := Db.insertOutbox_eq_some h
      exact ⟨rfl, rfl, List.prefix_refl _, List.prefix_append _ _⟩
  | _ => exact hu.elim

theorem grows_of_routing {o : Op} (ho : Routing settings o) (c : Chance) (w : World) :
    Grows w.db (answer o c w).2.db := by
  cases o with
  | claimDue | send => exact ho.elim
  | write u =>
      rcases answer_write_cases u c w with ⟨db, -, hdb, he⟩ | ⟨-, he⟩
      · rw [he]
        exact grows_of_write ho hdb
      · rw [he]
        exact Grows.refl _
  | writeFile path raw =>
      rw [answer_writeFile_db]
      exact Grows.refl _
  | readFile path =>
      rw [answer_readFile_db]
      exact Grows.refl _
  | _ => exact Grows.refl _

/-- A run of the router, failed or not. -/
theorem grows_exec {ε α : Type} {x : Fallible ε Op Res α} (hx : Uses (Routing settings) x.run)
    (h : Host) :
    Grows h.world.db (exec perform x h).2.world.db :=
  run_rel perform (R := fun h h' => Grows h.world.db h'.world.db) (fun _ => Grows.refl _)
    Grows.trans (fun _ ho h => grows_of_routing ho h.chance h.world) hx h

/-! ## What stays the same -/

theorem Grows.alias_of {db db' : Db} (h : Grows db db') {a' : Alias} (ha : a' ∈ db'.aliases) :
    ∃ a ∈ db.aliases, a.core = a'.core := by
  have hmem : a'.core ∈ db.aliases.map Alias.core := by
    rw [← h.aliases]
    exact List.mem_map_of_mem ha
  obtain ⟨a, ha, hcore⟩ := List.mem_map.mp hmem
  exact ⟨a, ha, hcore⟩

theorem Grows.alias_still {db db' : Db} (h : Grows db db') {a : Alias} (ha : a ∈ db.aliases) :
    ∃ a' ∈ db'.aliases, a'.core = a.core := by
  have hmem : a.core ∈ db'.aliases.map Alias.core := by
    rw [h.aliases]
    exact List.mem_map_of_mem ha
  obtain ⟨a', ha', hcore⟩ := List.mem_map.mp hmem
  exact ⟨a', ha', hcore⟩

theorem Alias.of_core {a b : Alias} (h : a.core = b.core) :
    a.aliasId = b.aliasId ∧ a.address = b.address ∧ a.mailboxId = b.mailboxId ∧
    a.enabled = b.enabled := by
  injection h with hid haddress hmailbox _ henabled
  exact ⟨hid, haddress, hmailbox, henabled⟩

theorem Grows.mailboxOf {db db' : Db} (h : Grows db db') {a a' : Alias}
    (hcore : a.core = a'.core) :
    db'.mailboxOf a' = db.mailboxOf a := by
  unfold Db.mailboxOf
  rw [h.mailboxes, (Alias.of_core hcore).2.2.1]

/-- The alias of an identifier is the same one. -/
theorem Grows.find_alias {db db' : Db} (h : Grows db db') (aliasId : Str) :
    (db'.aliases.find? (·.aliasId = aliasId)).map Alias.core
      = (db.aliases.find? (·.aliasId = aliasId)).map Alias.core := by
  have hcore : ∀ l : List Alias, (l.find? (·.aliasId = aliasId)).map Alias.core
      = (l.map Alias.core).find? (·.aliasId = aliasId) := by
    intro l
    rw [List.find?_map]
    rfl
  rw [hcore, hcore, h.aliases]

/-- The alias of an address is the same one. -/
theorem Grows.find_address {db db' : Db} (h : Grows db db') (address : Str) :
    (db'.findAliasByAddress address).map (fun f => (f.toAlias.core, f.mailboxEmail))
      = (db.findAliasByAddress address).map fun f => (f.toAlias.core, f.mailboxEmail) := by
  have hcore : ∀ d : Db, (d.findAliasByAddress address).map
      (fun f => (f.toAlias.core, f.mailboxEmail))
      = (d.aliases.map Alias.core).findSome? fun a =>
          if a.address = address then (d.mailboxOf a).map fun m => (a, m.email) else none := by
    intro d
    rw [Db.findAliasByAddress, List.map_findSome?, List.findSome?_map]
    congr 1
    funext a
    show Option.map _ (if a.address = address then _ else none) = if a.address = address
      then _ else none
    split
    · rw [Option.map_map]
      rfl
    · rfl
  have hfun :
      (fun a : Alias => if a.address = address then (db'.mailboxOf a).map fun m => (a, m.email)
      else none) = fun a => if a.address = address then (db.mailboxOf a).map
        fun m => (a, m.email)
      else none := by
    funext a
    rw [h.mailboxOf (rfl : a.core = a.core)]
  rw [hcore, h.aliases, hfun, ← hcore]

/-- An alias that is found by its address is found again. -/
theorem Grows.findAliasByAddress {db db' : Db} (h : Grows db db') {address : Str}
    {found : AliasWithMailbox} (hfound : db.findAliasByAddress address = some found) :
    ∃ found', db'.findAliasByAddress address = some found' ∧
      found'.toAlias.core = found.toAlias.core ∧ found'.mailboxEmail = found.mailboxEmail := by
  have hsame := h.find_address address
  rw [hfound, Option.map_some] at hsame
  obtain ⟨found', hfound', heq⟩ := Option.map_eq_some_iff.mp hsame
  injection heq with hc hm
  exact ⟨found', hfound', hc, hm⟩

/-- An address without an alias stays without one. -/
theorem Grows.findAliasByAddress_none {db db' : Db} (h : Grows db db') {address : Str}
    (hnone : db.findAliasByAddress address = none) :
    db'.findAliasByAddress address = none := by
  have hsame := h.find_address address
  rw [hnone, Option.map_none, Option.map_eq_none_iff] at hsame
  exact hsame

/-- The contact joined with its alias and mailbox. -/
def Db.withAlias (c : Contact) (db : Db) : Option ContactWithAlias :=
  (db.aliases.find? (·.aliasId = c.aliasId)).bind fun a =>
    (db.mailboxOf a).map fun m => ⟨c, a.address, a.enabled, m.email⟩

theorem Grows.withAlias {db db' : Db} (h : Grows db db') (c : Contact) :
    db'.withAlias c = db.withAlias c := by
  have hfind := h.find_alias c.aliasId
  unfold Db.withAlias
  cases ha : db.aliases.find? (·.aliasId = c.aliasId) with
  | none =>
      rw [ha, Option.map_none, Option.map_eq_none_iff] at hfind
      rw [hfind]
      rfl
  | some a =>
      rw [ha, Option.map_some] at hfind
      obtain ⟨a', ha', hcore⟩ := Option.map_eq_some_iff.mp hfind
      obtain ⟨-, haddress, -, henabled⟩ := Alias.of_core hcore
      rw [ha', Option.bind_some, Option.bind_some, h.mailboxOf hcore.symm, haddress, henabled]

theorem Grows.findContact_joined {db db' : Db} (h : Grows db db') (r : Str) :
    db'.findContactByReverseAlias r
      = db'.contacts.findSome? fun c => if c.reverseAlias = r
        then db.withAlias c else none := by
  have hfun : (fun c : Contact => if c.reverseAlias = r then db'.withAlias c else none)
      = fun c => if c.reverseAlias = r then db.withAlias c else none := by
    funext c
    rw [h.withAlias]
  rw [← hfun]
  rfl

/-- A contact that is found by its reverse alias is found again. -/
theorem Grows.findContactByReverseAlias {db db' : Db} (h : Grows db db') {r : Str}
    {found : ContactWithAlias} (hfound : db.findContactByReverseAlias r = some found) :
    db'.findContactByReverseAlias r = some found := by
  obtain ⟨added, hcontacts⟩ := h.contacts
  rw [h.findContact_joined, ← hcontacts, List.findSome?_append]
  rw [(Grows.refl db).findContact_joined] at hfound
  rw [hfound, Option.some_or]

/-- An address that is no reverse alias becomes one only with a new contact. -/
theorem Grows.findContactByReverseAlias_none {db db' : Db} (h : Grows db db') {r : Str}
    (hnone : db.findContactByReverseAlias r = none)
    (hnew : ∀ c ∈ db'.contacts, c ∈ db.contacts ∨ c.reverseAlias ≠ r) :
    db'.findContactByReverseAlias r = none := by
  rw [(Grows.refl db).findContact_joined, List.findSome?_eq_none_iff] at hnone
  rw [h.findContact_joined, List.findSome?_eq_none_iff]
  intro c hc
  rcases hnew c hc with hold | hne
  · exact hnone c hold
  · exact if_neg hne

/-! ## Staying quiet -/

/-- The counts of an alias that mail moves. -/
def Alias.moved (a : Alias) : Str × Nat × Nat := (a.aliasId, a.forwardCount, a.replyCount)

/-- Neither a row nor a file nor a count is new. -/
def Quiet (w w' : World) : Prop :=
  w'.db.outbox = w.db.outbox ∧ w'.spool = w.spool ∧
    w'.db.aliases.map Alias.moved = w.db.aliases.map Alias.moved

theorem Quiet.refl (w : World) : Quiet w w := ⟨rfl, rfl, rfl⟩

theorem Quiet.trans {w₁ w₂ w₃ : World} (h : Quiet w₁ w₂) (h' : Quiet w₂ w₃) : Quiet w₁ w₃ :=
  ⟨h'.1.trans h.1, h'.2.1.trans h.2.1, h'.2.2.trans h.2.2⟩

/-- The operations of the router aside from the queue and the counting. -/
def Aside (settings : AliasSettings) : Op → Prop
  | .write (.recordAliasActivity _ counter _) => counter = .blocked
  | .write (.insertContact c) => c.Made settings
  | .write _ => False
  | .claimDue _ _ | .send _ _ _ _ | .createDirAll _ | .writeFile _ _ | .readFile _ => False
  | _ => True

theorem quiet_of_write {u : Write} {w : World} {db' : Db} (hu : Aside settings (.write u))
    (h : u.apply w.db = some db') : Quiet w { w with db := db' } := by
  cases u with
  | recordAliasActivity aliasId counter now =>
      obtain rfl : counter = .blocked := hu
      cases h
      refine ⟨rfl, rfl, ?_⟩
      show ((w.db.recordAliasActivity aliasId .blocked now).aliases).map Alias.moved = _
      unfold Db.recordAliasActivity
      rw [List.map_map]
      refine List.map_congr_left fun a _ => ?_
      show Alias.moved (if a.aliasId = aliasId then a.record now .blocked else a) = a.moved
      split <;> rfl
  | insertContact c =>
      rcases Db.insertContact_eq_some h with ⟨-, rfl⟩ | ⟨-, -, -, rfl⟩
      · exact Quiet.refl _
      · exact ⟨rfl, rfl, rfl⟩
  | _ => exact hu.elim

theorem quiet_of_aside {o : Op} (ho : Aside settings o) (c : Chance) (w : World) :
    Quiet w (answer o c w).2 := by
  cases o with
  | claimDue | send | createDirAll | writeFile | readFile => exact ho.elim
  | write u =>
      rcases answer_write_cases u c w with ⟨db, -, hdb, he⟩ | ⟨-, he⟩
      · rw [he]
        exact quiet_of_write ho hdb
      · rw [he]
        exact Quiet.refl _
  | _ => exact Quiet.refl _

theorem quiet_exec {ε α : Type} {x : Fallible ε Op Res α} (hx : Uses (Aside settings) x.run)
    (h : Host) :
    Quiet h.world (exec perform x h).2.world :=
  run_rel perform (R := fun h h' => Quiet h.world h'.world) (fun _ => Quiet.refl _) Quiet.trans
    (fun _ ho h => quiet_of_aside ho h.chance h.world) hx h

theorem routing_of_aside : ∀ o, Aside settings o → Routing settings o
  | .uuid, _ | .now, _ | .sample _, _ | .findAliasByAddress _, _ | .findContact _ _, _ =>
      trivial
  | .findContactByReverseAlias _, _ => trivial
  | .write (.recordAliasActivity _ _ _), _ => trivial
  | .write (.insertContact _), hc => hc

/-! ## The functions of the store -/

theorem uses_findAliasByAddress (address : EmailAddress) :
    Uses (Aside settings) (findAliasByAddress address).run :=
  ⟨trivial, fun _ => trivial⟩

theorem uses_getOrCreateContact (settings : AliasSettings) (aliasId : Str)
    (email : EmailAddress) (name : Option Str) :
    Uses (Aside settings) (getOrCreateContact aliasId email name settings.reverseAliasPrefix
      settings.defaultDomain).run := by
  unfold getOrCreateContact
  refine uses_seq ⟨trivial, fun _ => trivial⟩ fun found => ?_
  cases found with
  | some existing => trivial
  | none =>
      refine uses_seq ⟨trivial, fun _ => trivial⟩ fun contactId => ?_
      refine ⟨trivial, fun symbols => ⟨trivial, fun createdAt => ?_⟩⟩
      -- the reverse alias is made of the symbols that were drawn
      refine ⟨⟨⟨email, rfl⟩, symbols, rfl⟩, fun inserted => ?_⟩
      cases inserted with
      | error e => trivial
      | ok u =>
          refine ⟨trivial, fun again => ?_⟩
          cases again with
          | error e => trivial
          | ok found => cases found <;> trivial

theorem uses_recordAliasActivity (aliasId : Str) (counter : AliasCounter) :
    Uses (Routing settings) (recordAliasActivity aliasId counter).run :=
  ⟨trivial, fun _ => ⟨trivial, fun _ => trivial⟩⟩

theorem routing_enqueue (mailDir : Str) (message : NewOutboundMessage) :
    Uses (Routing settings) (enqueue mailDir message).run := by
  unfold enqueue
  refine uses_seq (uses_mapErr ⟨trivial, fun _ => trivial⟩) fun _ => ?_
  refine uses_seq ⟨trivial, fun _ => trivial⟩ fun messageId => ?_
  refine uses_seq (uses_mapErr ⟨trivial, fun _ => trivial⟩) fun _ => ?_
  refine uses_seq ⟨trivial, fun _ => trivial⟩ fun now => ?_
  exact uses_seq (uses_mapErr ⟨⟨rfl, rfl⟩, fun _ => trivial⟩) fun _ => trivial

end Weiterleitung
