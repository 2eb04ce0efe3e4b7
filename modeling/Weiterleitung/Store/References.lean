/-
# `Store.References` — what the rows of the outbox refer to

A row of the outbox may name an alias and a contact.  The code that queues it has read both
some statements before; by then the alias may be gone, and even be there again under another
identifier.  What a reader of a contact may keep is this: the contact is in the table with its
alias under the address it had, or its identifier is no contact's any more (`Known`).  That
holds from any statement to any other as long as identifiers are not given twice
(`known_of_answer`).  Hence

    a row that suited its contact when it was read suits it as
      long as it refers to it                                    (`coherent_of_fits`)
    a deletion takes nothing from a row but references           (`nulled_removeAliases`)
-/
import Mathlib
import Weiterleitung.Store.Contacts

namespace Weiterleitung

open Text Prog

/-! ## Rows -/

/-- The same row, a reference or two taken out. -/
def Nulled (row row' : OutboxRow) : Prop :=
  ∃ aliasId contactId, (aliasId = row.aliasId ∨ aliasId = none) ∧
    (contactId = row.contactId ∨ contactId = none) ∧
    row' = { row with aliasId := aliasId, contactId := contactId }

theorem filter_or_none {α : Type} (p : α → Bool) (o : Option α) :
    o.filter p = o ∨ o.filter p = none := by
  cases o with
  | none => exact Or.inl rfl
  | some a =>
      rw [Option.filter_some]
      split
      · exact Or.inl rfl
      · exact Or.inr rfl

/-- The rows stay, in their order, when aliases go. -/
theorem nulled_removeAliases (p : Alias → Bool) (db : Db) :
    List.Forall₂ Nulled db.outbox (db.removeAliases p).outbox := by
  unfold Db.removeAliases
  rw [List.forall₂_map_right_iff, List.forall₂_same]
  intro row _
  exact ⟨_, _, filter_or_none _ _, filter_or_none _ _, rfl⟩

/-- What a row says of the mail, and what is left of its references. -/
structure Stems (row row' : OutboxRow) : Prop where
  direction : row'.direction = row.direction
  envelopeFrom : row'.envelopeFrom = row.envelopeFrom
  envelopeTo : row'.envelopeTo = row.envelopeTo
  aliasId : row'.aliasId = row.aliasId ∨ row'.aliasId = none
  contactId : row'.contactId = row.contactId ∨ row'.contactId = none

theorem Stems.refl (row : OutboxRow) : Stems row row := ⟨rfl, rfl, rfl, Or.inl rfl, Or.inl rfl⟩

theorem stems_of_nulled {row row' : OutboxRow} (h : Nulled row row') : Stems row row' := by
  obtain ⟨aliasId, contactId, haliasId, hcontactId, rfl⟩ := h
  exact ⟨rfl, rfl, rfl, haliasId, hcontactId⟩

theorem stems_of_marked {row row' : OutboxRow} (h : Marked row row') : Stems row row' := by
  obtain ⟨_, _, _, _, _, rfl⟩ := h
  exact ⟨rfl, rfl, rfl, Or.inl rfl, Or.inl rfl⟩

section
variable {db db' : Db}

theorem stems_of_map {f : OutboxRow → OutboxRow} (hf : ∀ row, Stems row (f row))
    {row' : OutboxRow} (h : row' ∈ db.outbox.map f) : ∃ row ∈ db.outbox, Stems row row' := by
  obtain ⟨row, hrow, rfl⟩ := List.mem_map.mp h
  exact ⟨row, hrow, hf row⟩

theorem stems_removeAliases {p : Alias → Bool} {row' : OutboxRow}
    (h : row' ∈ (db.removeAliases p).outbox) :
    ∃ row ∈ db.outbox, Stems row row' :=
  stems_of_map (fun _ => stems_of_nulled ⟨_, _, filter_or_none _ _, filter_or_none _ _, rfl⟩) h

/-- A row is a new one or stems from one that was there. -/
theorem row_of_write {u : Write} (hu : u.apply db = some db') {row' : OutboxRow}
    (hrow : row' ∈ db'.outbox) :
    u = .insertOutbox row' ∨ ∃ row ∈ db.outbox, Stems row row' := by
  cases effect_of_write hu with
  | removes => exact Or.inr (stems_removeAliases hrow)
  | updates _ mailboxes f g hf hg =>
      exact Or.inr (stems_of_map (fun row => stems_of_marked (hg row)) hrow)
  | addsAlias | addsContact => exact Or.inr ⟨row', hrow, Stems.refl row'⟩
  | addsRow row =>
      rcases List.mem_append.mp hrow with hrow | hrow
      · exact Or.inr ⟨row', hrow, Stems.refl row'⟩
      · rw [List.mem_singleton.mp hrow]
        exact Or.inl rfl

theorem row_of_answer {o : Op} {c : Chance} {w : World} {row' : OutboxRow}
    (hrow : row' ∈ (answer o c w).2.db.outbox) :
    o = .write (.insertOutbox row') ∨ ∃ row ∈ w.db.outbox, Stems row row' := by
  rcases answer_db_cases o c w with he | ⟨u, rfl, hu⟩ | ⟨now, n, rfl, f, hf, he⟩
  · rw [he] at hrow
    exact Or.inr ⟨row', hrow, Stems.refl row'⟩
  · rcases row_of_write hu hrow with rfl | hold
    · exact Or.inl rfl
    · exact Or.inr hold
  · rw [he] at hrow
    refine Or.inr (stems_of_map (fun row => ?_) hrow)
    obtain ⟨status, hstatus⟩ := hf row
    rw [hstatus]
    exact ⟨rfl, rfl, rfl, Or.inl rfl, Or.inl rfl⟩

/-! ## References -/

/-- Every contact that a row names is in the table. -/
def Refers (db : Db) : Prop :=
  ∀ row ∈ db.outbox, ∀ contactId, row.contactId = some contactId → ∃ c ∈ db.contacts,
    c.contactId = contactId

/-- What the row that is inserted refers to is there. -/
theorem contact_of_insertOutbox {row : OutboxRow} (h : db.insertOutbox row = some db')
    {contactId : Str} (hid : row.contactId = some contactId) :
    ∃ c ∈ db.contacts, c.contactId = contactId := by
  unfold Db.insertOutbox at h
  split at h
  · cases h
  · split at h
    · cases h
    · split at h
      · cases h
      · next hcontact =>
          rw [hid] at hcontact
          simpa using hcontact

/-- References lead somewhere when aliases go, too: those to their contacts are taken out. -/
theorem refers_removeAliases (h : Refers db) (p : Alias → Bool) :
    Refers (db.removeAliases p) := by
  intro row' hrow' contactId hid
  obtain ⟨row, hrow, rfl⟩ := List.mem_map.mp hrow'
  obtain ⟨hid, hkept⟩ := Option.filter_eq_some_iff.mp hid
  obtain ⟨c, hc, rfl⟩ := h row hrow contactId hid
  refine ⟨c, List.mem_filter.mpr ⟨hc, decide_eq_true fun hdead => ?_⟩, rfl⟩
  refine of_decide_eq_true hkept ?_
  exact List.mem_map.mpr ⟨c, List.mem_filter.mpr ⟨hc, decide_eq_true hdead⟩, rfl⟩

/-- The foreign key from rows to contacts. -/
theorem refers_of_write {u : Write} (h : Refers db) (hu : u.apply db = some db') :
    Refers db' := by
  have hthere : ∀ row ∈ db'.outbox, ∀ contactId, row.contactId = some contactId →
      ∃ c ∈ db.contacts, c.contactId = contactId := by
    intro row hrow contactId hid
    rcases row_of_write hu hrow with rfl | ⟨old, hold, hstems⟩
    · exact contact_of_insertOutbox hu hid
    · rcases hstems.contactId with hsame | hnone
      · exact h old hold contactId (hsame.symm.trans hid)
      · rw [hid] at hnone
        cases hnone
  cases effect_of_write hu with
  | removes _ p => exact refers_removeAliases h p
  | addsContact d hnone =>
      intro row hrow contactId hid
      obtain ⟨c, hc, hcid⟩ := hthere row hrow contactId hid
      exact ⟨c, List.mem_append_left _ hc, hcid⟩
  | updates | addsAlias | addsRow => exact hthere

theorem refers_of_answer {o : Op} {c : Chance} {w : World} (h : Refers w.db) :
    Refers (answer o c w).2.db := by
  rcases answer_db_cases o c w with he | ⟨u, rfl, hu⟩ | ⟨now, n, rfl, f, hf, he⟩
  · rw [he]
    exact h
  · exact refers_of_write h hu
  · rw [he]
    intro row' hrow contactId hid
    obtain ⟨row, hold, rfl⟩ := List.mem_map.mp hrow
    obtain ⟨status, hstatus⟩ := hf row
    rw [hstatus] at hid
    exact h row hold contactId hid

/-- An alias is a new one, or has the identifier and the address of one that was there. -/
theorem alias_of_write {u : Write} (hu : u.apply db = some db') {a' : Alias}
    (ha : a' ∈ db'.aliases) :
    (∃ a ∈ db.aliases, a.aliasId = a'.aliasId ∧ a.address = a'.address) ∨
      ∀ a ∈ db.aliases, a.aliasId ≠ a'.aliasId := by
  cases effect_of_write hu with
  | removes => exact Or.inl ⟨a', List.mem_of_mem_filter ha, rfl, rfl⟩
  | updates _ mailboxes f g hf hg =>
      obtain ⟨a, hold, rfl⟩ := List.mem_map.mp ha
      exact Or.inl ⟨a, hold, (hf a).1.symm, (hf a).2.symm⟩
  | addsAlias a hfresh =>
      rcases List.mem_append.mp ha with ha | ha
      · exact Or.inl ⟨a', ha, rfl, rfl⟩
      · rw [List.mem_singleton.mp ha]
        exact Or.inr fun b hb => (hfresh b hb).1
  | addsContact | addsRow => exact Or.inl ⟨a', ha, rfl, rfl⟩

end

/-! ## Contacts that were read before -/

/-- A world, and the identifiers that contacts have been given. -/
structure Archive where
  world : World
  given : List Str

/-- An operation on the world; the identifier of a contact that is to be inserted is noted. -/
def Archive.answer (o : Op) (c : Chance) (s : Archive) : Res o × Archive :=
  ((Weiterleitung.answer o c s.world).1,
    { world := (Weiterleitung.answer o c s.world).2
      given :=
        match o with
        | .write (.insertContact d) => d.contactId :: s.given
        | _ => s.given })

/-- `Uuid::new_v4`: a contact gets an identifier that no contact has been given before. -/
def NewIdentifier (o : Op) (s : Archive) : Prop :=
  match o with
  | .write (.insertContact d) => d.contactId ∉ s.given
  | _ => True

/-- The identifier was a contact's and is none any more. -/
def Gone (contactId : Str) (s : Archive) : Prop :=
  contactId ∈ s.given ∧ ∀ c ∈ s.world.db.contacts, c.contactId ≠ contactId

/-- The contact is in the table and its alias has the address; or it is gone. -/
def Known (c : Contact) (address : Str) (s : Archive) : Prop :=
  (c ∈ s.world.db.contacts ∧ ∃ a ∈ s.world.db.aliases, a.aliasId = c.aliasId ∧
    a.address = address) ∨
    Gone c.contactId s

/-- What the mail of a row has to do with a contact of an alias with this address. -/
def Suits (direction : Direction) (envelopeFrom envelopeTo : Str) (aliasId : Option Str)
    (c : Contact) (address : Str) : Prop :=
  (∀ i, aliasId = some i → c.aliasId = i) ∧
    match direction with
    | .forward => envelopeFrom = c.reverseAlias
    | .reply => envelopeTo = c.email ∧ envelopeFrom = address

/-- A row that may be inserted: it suits the contact that was read. -/
def Fits (row : OutboxRow) (s : Archive) : Prop :=
  ∀ contactId, row.contactId = some contactId → ∃ c address, c.contactId = contactId ∧
    Known c address s ∧
    Suits row.direction row.envelopeFrom row.envelopeTo row.aliasId c address

/-- The row that is inserted, if the operation inserts one, fits. -/
def RowFits (o : Op) (s : Archive) : Prop :=
  match o with
  | .write (.insertOutbox row) => Fits row s
  | _ => True

/-- Every row suits the contact that it names. -/
def Coherent (db : Db) : Prop :=
  ∀ row ∈ db.outbox, ∀ contactId, row.contactId = some contactId → ∃ c ∈ db.contacts,
    c.contactId = contactId ∧
    ∃ a ∈ db.aliases, a.aliasId = c.aliasId ∧
      Suits row.direction row.envelopeFrom row.envelopeTo row.aliasId c a.address

structure Archive.Inv (settings : AliasSettings) (s : Archive) : Prop where
  wf : Wf settings s.world.db
  contactIds : Keyed Contact.contactId s.world.db.contacts
  given : ∀ c ∈ s.world.db.contacts, c.contactId ∈ s.given
  refers : Refers s.world.db
  coherent : Coherent s.world.db

section
variable {settings : AliasSettings} {o : Op} {s : Archive} (chance : Chance)

theorem given_of_answer {contactId : Str} (h : contactId ∈ s.given) :
    contactId ∈ (s.answer o chance).2.given := by
  unfold Archive.answer
  dsimp only
  split
  · exact List.mem_cons_of_mem _ h
  · exact h

/-- Contacts are left out, or one is added whose identifier is noted. -/
theorem contacts_of_answer (o : Op) (s : Archive) :
    (s.answer o chance).2.world.db.contacts.Sublist s.world.db.contacts ∨
      ∃ d, o = .write (.insertContact d) ∧ (s.answer o chance).2.world.db.contacts
        = s.world.db.contacts ++ [d] := by
  change (answer o chance s.world).2.db.contacts.Sublist _ ∨ ∃ d, _ ∧
    (answer o chance s.world).2.db.contacts = _
  rcases answer_db_cases o chance s.world with he | ⟨u, rfl, hu⟩ | ⟨now, n, rfl, f, -, he⟩
  · rw [he]
    exact Or.inl (List.Sublist.refl _)
  · rcases contacts_of_write hu with hsub | ⟨d, rfl, -, happend⟩
    · exact Or.inl hsub
    · exact Or.inr ⟨d, rfl, happend⟩
  · rw [he]
    exact Or.inl (List.Sublist.refl _)

theorem contactIds_of_answer (hnew : NewIdentifier o s) (h : s.Inv settings) :
    Keyed Contact.contactId (s.answer o chance).2.world.db.contacts := by
  rcases contacts_of_answer chance o s with hsub | ⟨d, rfl, happend⟩
  · exact h.contactIds.sublist hsub
  · rw [happend]
    refine h.contactIds.concat fun c hc heq => ?_
    exact hnew (heq ▸ h.given c hc)

theorem given_contacts (h : s.Inv settings) :
    ∀ c ∈ (s.answer o chance).2.world.db.contacts,
    c.contactId ∈ (s.answer o chance).2.given := by
  intro c hc
  rcases contacts_of_answer chance o s with hsub | ⟨d, rfl, happend⟩
  · exact given_of_answer chance (h.given c (hsub.subset hc))
  · rw [happend] at hc
    rcases List.mem_append.mp hc with hc | hc
    · exact given_of_answer chance (h.given c hc)
    · rw [List.mem_singleton.mp hc]
      exact List.mem_cons_self

/-- A contact that is gone does not come back. -/
theorem gone_of_answer (hnew : NewIdentifier o s) {contactId : Str} (h : Gone contactId s) :
    Gone contactId (s.answer o chance).2 := by
  refine ⟨given_of_answer chance h.1, fun c hc => ?_⟩
  rcases contacts_of_answer chance o s with hsub | ⟨d, rfl, happend⟩
  · exact h.2 c (hsub.subset hc)
  · rw [happend] at hc
    rcases List.mem_append.mp hc with hc | hc
    · exact h.2 c hc
    · rw [List.mem_singleton.mp hc]
      rintro rfl
      exact hnew h.1

/-- An alias keeps its address. -/
theorem address_of_answer {w : World} (hwf : Wf settings w.db) {a a' : Alias}
    (ha : a ∈ w.db.aliases) (ha' : a' ∈ (answer o chance w).2.db.aliases)
    (hid : a'.aliasId = a.aliasId) : a'.address = a.address := by
  rcases answer_db_cases o chance w with he | ⟨u, rfl, hu⟩ | ⟨now, n, rfl, f, -, he⟩
  · rw [he] at ha'
    rw [List.inj_on_of_nodup_map hwf.aliasIds ha' ha hid]
  · rcases alias_of_write hu ha' with ⟨b, hb, hbid, hbaddress⟩ | hne
    · rw [← hbaddress, List.inj_on_of_nodup_map hwf.aliasIds hb ha (hbid.trans hid)]
    · exact absurd hid.symm (hne a ha)
  · rw [he] at ha'
    rw [List.inj_on_of_nodup_map hwf.aliasIds ha' ha hid]

/-- What is known of a contact stays. -/
theorem known_of_answer (ho : Legal settings o) (hnew : NewIdentifier o s) (h : s.Inv settings)
    {c : Contact} {address : Str} (hknown : Known c address s) :
    Known c address (s.answer o chance).2 := by
  have hwf : Wf settings (s.answer o chance).2.world.db := wf_of_legal ho chance h.wf
  rcases hknown with ⟨hc, a, ha, hid, haddress⟩ | hgone
  · by_cases hstill : c ∈ (s.answer o chance).2.world.db.contacts
    · obtain ⟨a', ha', hid'⟩ := hwf.correspondents c hstill
      refine Or.inl ⟨hstill, a', ha', hid', ?_⟩
      rw [address_of_answer chance h.wf ha ha' (hid'.trans hid.symm), haddress]
    · -- the contact has been deleted, and nothing else has its identifier
      refine Or.inr ⟨given_of_answer chance (h.given c hc), fun d hd heq => hstill ?_⟩
      rcases contacts_of_answer chance o s with hsub | ⟨e, rfl, happend⟩
      · rw [← List.inj_on_of_nodup_map h.contactIds (hsub.subset hd) hc heq]
        exact hd
      · rw [happend]
        exact List.mem_append_left _ hc
  · exact Or.inr (gone_of_answer chance hnew hgone)

/-! ## Rows and contacts, step by step -/

theorem suits_of_stems {row row' : OutboxRow} (hstems : Stems row row') {c : Contact}
    {address : Str}
    (h : Suits row.direction row.envelopeFrom row.envelopeTo row.aliasId c address) :
    Suits row'.direction row'.envelopeFrom row'.envelopeTo row'.aliasId c address := by
  rw [hstems.direction, hstems.envelopeFrom, hstems.envelopeTo]
  refine ⟨fun i hi => ?_, h.2⟩
  rcases hstems.aliasId with hsame | hnone
  · exact h.1 i (hsame.symm.trans hi)
  · rw [hi] at hnone
    cases hnone

/-- A row that stems from a coherent one fits. -/
theorem fits_of_stems (hcoherent : Coherent s.world.db) {row row' : OutboxRow}
    (hrow : row ∈ s.world.db.outbox) (hstems : Stems row row') : Fits row' s := by
  intro contactId hid
  rcases hstems.contactId with hsame | hnone
  · obtain ⟨c, hc, hcid, a, ha, haid, hsuits⟩ :=
      hcoherent row hrow contactId (hsame.symm.trans hid)
    exact ⟨c, a.address, hcid, Or.inl ⟨hc, a, ha, haid, rfl⟩, suits_of_stems hstems hsuits⟩
  · rw [hid] at hnone
    cases hnone

/-- Rows that fitted before are coherent, if what they refer to is there. -/
theorem coherent_of_fits {s' : Archive}
    (hknown : ∀ c address, Known c address s → Known c address s')
    (hrefers : Refers s'.world.db) (hrows : ∀ row ∈ s'.world.db.outbox, Fits row s) :
    Coherent s'.world.db := by
  intro row hrow contactId hid
  obtain ⟨c, address, rfl, hk, hsuits⟩ := hrows row hrow contactId hid
  rcases hknown c address hk with ⟨hc, a, ha, haid, rfl⟩ | hgone
  · exact ⟨c, hc, rfl, a, ha, haid, hsuits⟩
  · obtain ⟨d, hd, hdid⟩ := hrefers row hrow c.contactId hid
    exact absurd hdid (hgone.2 d hd)

theorem Archive.inv_answer (ho : Legal settings o) (hnew : NewIdentifier o s)
    (hfits : RowFits o s) (h : s.Inv settings) :
    (s.answer o chance).2.Inv settings := by
  have hrefers : Refers (s.answer o chance).2.world.db := refers_of_answer h.refers
  have hrows : ∀ row ∈ (s.answer o chance).2.world.db.outbox, Fits row s := by
    intro row hrow
    rcases row_of_answer hrow with rfl | ⟨old, hold, hstems⟩
    · exact hfits
    · exact fits_of_stems h.coherent hold hstems
  exact ⟨wf_of_legal ho chance h.wf, contactIds_of_answer chance hnew h,
    given_contacts chance h, hrefers,
    coherent_of_fits (fun c address hk => known_of_answer chance ho hnew h hk) hrefers hrows⟩

end

end Weiterleitung
