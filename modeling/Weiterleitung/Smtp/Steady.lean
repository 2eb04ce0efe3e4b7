/-
# `Smtp.Steady` — a reverse alias keeps its meaning

A reverse alias is handed out in the messages that are forwarded, and the mailbox may write to
it at any later time.  The token in it is drawn once, and a contact and what stands behind it
do not change.  So whatever the program does after that, a reverse alias stands for the contact
it was made for, or for nobody:

    a task makes a contact under what it has just drawn, once      (`heeds_handleAll`)
    no two tasks are about to use the same token                   (`separate_turn`)
    the contact of a reverse alias is the same, or gone            (`means_turn`)
    and so is where mail to it goes                                (`reverseAlias_keeps`)
-/
import Mathlib
import Weiterleitung.Lib.Memory
import Weiterleitung.Smtp.Counted
import Weiterleitung.Store.Contacts

namespace Weiterleitung

open Text Prog

/-! ## Tokens -/

/-- The reverse alias that a token of twelve symbols makes. -/
def drawnAlias (settings : AliasSettings) : (o : Op) → Res o → Option Str
  | .sample n, symbols =>
      if n = 12 then
        some (composeReverseAlias settings.reverseAliasPrefix
          (tokenOf symbols) settings.defaultDomain)
      else none
  | _, _ => none

/-- What a task has drawn and not used. -/
def nextAlias (settings : AliasSettings) (m : Option Str) : (o : Op) → Res o → Option Str
  | .write (.insertContact _), _ => none
  | o, r => (drawnAlias settings o r).or m

/-- A contact is made under this reverse alias; other operations are no matter. -/
def Names (m : Option Str) : Op → Prop
  | .write (.insertContact c) => m = some c.reverseAlias
  | _ => True

/-- Contacts are made under the reverse alias that was drawn last. -/
def drawing (settings : AliasSettings) : Memory Op Res (Option Str) where
  next := nextAlias settings
  ok m o := Legal settings o ∧ Names m o

/-- No contact is made. -/
def ContactFree : Op → Prop
  | .write (.insertContact _) => False
  | _ => True

/-- What the program does besides making contacts. -/
def Besides (settings : AliasSettings) (o : Op) : Prop := Legal settings o ∧ ContactFree o

section
variable {settings : AliasSettings} {α : Type}

theorem names_of_contactFree {m : Option Str} : ∀ {o : Op}, ContactFree o → Names m o
  | .write (.insertContact _), h => h.elim
  | .write (.insertMailbox _), _ | .write (.deleteMailbox _), _ | .write (.insertAlias _), _ =>
      trivial
  | .write (.setAliasEnabled _ _), _ | .write (.deleteAlias _), _
  | .write (.recordAliasActivity _ _ _), _ => trivial
  | .write (.insertOutbox _), _ | .write (.requeueInterrupted _), _
  | .write (.markDelivered _ _), _ => trivial
  | .write (.markFailed _ _ _), _ | .write (.markPending _ _ _ _), _ => trivial
  | .uuid, _ | .now, _ | .sample _, _ | .findAliasByAddress _, _ | .findContact _ _, _ =>
      trivial
  | .findContactByReverseAlias _, _ | .claimDue _ _, _ | .createDirAll _, _
  | .writeFile _ _, _ => trivial
  | .readFile _, _ | .send _ _ _ _, _ => trivial

theorem heeds_besides {p : Prog Op Res α} (hp : Uses (Besides settings) p) :
    Heeds (drawing settings) p :=
  heeds_of_uses (M := drawing settings) (fun _ _ ho => ⟨ho.1, names_of_contactFree ho.2⟩) hp

theorem besides_recordAliasActivity (aliasId : Str) (counter : AliasCounter) :
    Uses (Besides settings) (recordAliasActivity aliasId counter).run :=
  ⟨⟨trivial, trivial⟩, fun _ => ⟨⟨trivial, trivial⟩, fun _ => trivial⟩⟩

theorem besides_findAliasByAddress (address : EmailAddress) :
    Uses (Besides settings) (findAliasByAddress address).run :=
  ⟨⟨trivial, trivial⟩, fun _ => trivial⟩

theorem besides_enqueue (mailDir : Str) (message : NewOutboundMessage) :
    Uses (Besides settings) (enqueue mailDir message).run := by
  unfold enqueue
  refine uses_seq (uses_mapErr ⟨⟨trivial, trivial⟩, fun _ => trivial⟩) fun _ => ?_
  refine uses_seq ⟨⟨trivial, trivial⟩, fun _ => trivial⟩ fun messageId => ?_
  refine uses_seq (uses_mapErr ⟨⟨trivial, trivial⟩, fun _ => trivial⟩) fun _ => ?_
  refine uses_seq ⟨⟨trivial, trivial⟩, fun _ => trivial⟩ fun now => ?_
  exact uses_seq (uses_mapErr ⟨⟨⟨rfl, rfl⟩, trivial⟩, fun _ => trivial⟩) fun _ => trivial

/-- The contact is made with the token that was drawn two operations before. -/
theorem heeds_getOrCreateContact (aliasId : Str) (email : EmailAddress) (name : Option Str) :
    Heeds (drawing settings) (getOrCreateContact aliasId email name settings.reverseAliasPrefix
      settings.defaultDomain).run := by
  have hfind : Heeds (drawing settings) (findContact aliasId email.normalised).run :=
    heeds_besides ⟨⟨trivial, trivial⟩, fun _ => trivial⟩
  unfold getOrCreateContact
  refine heeds_seq hfind fun found => ?_
  cases found with
  | some contact => exact fun _ => trivial
  | none =>
      refine heeds_seq (heeds_besides ⟨⟨trivial, trivial⟩, fun _ => trivial⟩)
        fun contactId m => ?_
      refine ⟨⟨trivial, trivial⟩, fun symbols => ⟨⟨trivial, trivial⟩, fun createdAt => ?_⟩⟩
      refine ⟨⟨⟨⟨email, rfl⟩, symbols, rfl⟩, rfl⟩, fun inserted => ?_⟩
      cases inserted with
      | error e => trivial
      | ok u =>
          refine heeds_seq hfind (fun again => ?_) _
          cases again <;> exact fun _ => trivial

end

namespace AliasRouter

variable (router : AliasRouter)

theorem besides_route (mailFrom recipient : Str) :
    Uses (Besides router.aliases) (router.route mailFrom recipient).run := by
  unfold route
  refine uses_seq trivial fun address => ?_
  split
  · trivial
  · refine uses_seq (uses_mapErr ⟨⟨trivial, trivial⟩, fun _ => trivial⟩) fun contact => ?_
    cases contact with
    | some contact =>
        dsimp only
        split
        · trivial
        · split <;> trivial
    | none =>
        refine uses_seq (uses_mapErr (besides_findAliasByAddress _)) fun found => ?_
        cases found with
        | none => trivial
        | some found =>
            dsimp only
            split
            · exact uses_seq (uses_bind (besides_recordAliasActivity _ _) fun _ => trivial)
                fun _ => trivial
            · trivial

theorem heeds_queueForward (aliasId aliasAddress : Str) (envelope : Envelope) :
    Heeds (drawing router.aliases)
      (router.queueForward aliasId aliasAddress envelope).run := by
  unfold queueForward
  refine heeds_computed fun address _ =>
    heeds_seq (heeds_besides (besides_findAliasByAddress _)) fun found => ?_
  cases found with
  | none => exact fun _ => trivial
  | some found =>
      refine heeds_computed fun sender _ => heeds_seq (heeds_getOrCreateContact _ _ _)
        fun contact => ?_
      exact heeds_seq (heeds_besides (besides_enqueue _ _)) fun _ _ => trivial

theorem heeds_queueReply (contactId aliasAddress contactEmail : Str) (envelope : Envelope) :
    Heeds (drawing router.aliases)
      (router.queueReply contactId aliasAddress contactEmail envelope).run := by
  unfold queueReply
  refine heeds_computed fun address _ =>
    heeds_seq (heeds_besides (besides_findAliasByAddress _)) fun found => ?_
  exact heeds_seq (heeds_besides (besides_enqueue _ _)) fun _ _ => trivial

theorem heeds_handleRecipient (envelope : Envelope) (recipient : Str) :
    Heeds (drawing router.aliases) (router.handleRecipient envelope recipient).run := by
  unfold handleRecipient
  refine heeds_seq (heeds_mapErr (heeds_besides (router.besides_route _ _))) fun route => ?_
  cases route with
  | forward aliasId aliasAddress =>
      refine heeds_mapErr (heeds_seq (router.heeds_queueForward _ _ _) fun _ => ?_)
      exact heeds_besides (besides_recordAliasActivity _ _)
  | reply contactId aliasAddress contactEmail =>
      refine heeds_mapErr (heeds_seq (router.heeds_queueReply _ _ _ _) fun found => ?_)
      cases found with
      | none => exact fun _ => trivial
      | some aliasId => exact heeds_besides (besides_recordAliasActivity _ _)

theorem heeds_handleAll (envelope : Envelope) (recipients : List Str) :
    Heeds (drawing router.aliases) (router.handleAll envelope recipients).run := by
  induction recipients with
  | nil => exact fun _ => trivial
  | cons recipient recipients ih =>
      exact heeds_seq (router.heeds_handleRecipient envelope recipient) fun _ => ih

end AliasRouter

/-! ## Tasks apart -/

/-- Operations are answered, and the reverse aliases that were drawn are
noted. None is drawn twice. -/
def drawingRules (settings : AliasSettings) : Rules Op Res Chance (World × List Str) where
  answer o c s :=
    ((answer o c s.1).1, (answer o c s.1).2,
      (drawnAlias settings o (answer o c s.1).1).toList ++ s.2)
  inv _ := True
  rely _ _ := True
  may _ _ := True
  fair o c s := ∀ r ∈ drawnAlias settings o (answer o c s.1).1, r ∉ s.2
  refl _ := trivial
  trans _ _ := trivial
  step _ _ _ := ⟨trivial, trivial⟩

/-- What tasks have drawn and not used belongs to one of them, and to no contact. -/
structure Separate (settings : AliasSettings) (s : World × List Str)
    (unused : List (Option Str)) : Prop where
  wf : Wf settings s.1.db
  contacts : ∀ c ∈ s.1.db.contacts, c.reverseAlias ∈ s.2
  drawn : ∀ r, some r ∈ unused → r ∈ s.2
  free : ∀ r, some r ∈ unused → ∀ c ∈ s.1.db.contacts, c.reverseAlias ≠ r
  once : ∀ r, unused.count (some r) ≤ 1

section
variable {settings : AliasSettings} {s : World × List Str} {before after : List (Option Str)}
    {m : Option Str} {o : Op}

theorem Separate.start {unused : List (Option Str)} (h : Separate settings s unused) :
    Separate settings s (none :: unused) := by
  have hold : ∀ r, some r ∈ none :: unused → some r ∈ unused := fun r hr =>
    (List.mem_cons.mp hr).resolve_left fun h0 => by cases h0
  refine ⟨h.wf, h.contacts, fun r hr => h.drawn r (hold r hr), fun r hr => h.free r
    (hold r hr), fun r => ?_⟩
  rw [List.count_cons_of_ne (by simp)]
  exact h.once r

/-- An operation leaves contacts out, or makes one. -/
theorem contacts_answer (o : Op) (c : Chance) (w : World) :
    (answer o c w).2.db.contacts ⊆ w.db.contacts ∨
    ∃ d, o = .write (.insertContact d) ∧ (answer o c w).2.db.contacts
      = w.db.contacts ++ [d] := by
  rcases answer_db_cases o c w with he | ⟨u, rfl, hu⟩ | ⟨now, n, rfl, f, -, he⟩
  · rw [he]
    exact .inl (List.Subset.refl _)
  · rcases contacts_of_write hu with hsub | ⟨d, rfl, -, hadded⟩
    · exact .inl hsub.subset
    · exact .inr ⟨d, rfl, hadded⟩
  · rw [he]
    exact .inl (List.Subset.refl _)

/-- The token that was drawn is used. -/
theorem Separate.made {d : Contact} {w : World} (hwf : Wf settings w.db)
    (hcontacts : w.db.contacts ⊆ s.1.db.contacts ++ [d])
    (h : Separate settings s (before ++ some d.reverseAlias :: after)) :
    Separate settings (w, s.2) (before ++ none :: after) := by
  have hcount : ∀ r, (before ++ none :: after).count (some r) +
      (if some d.reverseAlias = some r then 1 else 0)
      = (before ++ some d.reverseAlias :: after).count (some r) := by
    intro r
    simp only [List.count_append, List.count_cons, beq_iff_eq, reduceCtorEq, if_false]
    omega
  have hold : ∀ r, some r ∈ before ++ none :: after → some r ∈ before ++
      some d.reverseAlias :: after := by
    intro r hr
    have hpos := List.count_pos_iff.mpr hr
    have hsum := hcount r
    exact List.count_pos_iff.mp (by omega)
  have hmine : d.reverseAlias ∈ s.2 := h.drawn _ (by simp)
  refine ⟨hwf, fun c hc => ?_, fun r hr => h.drawn r (hold r hr),
    fun r hr c hc => ?_, fun r => ?_⟩
  · rcases List.mem_append.mp (hcontacts hc) with hc | hc
    · exact h.contacts c hc
    · rw [List.mem_singleton.mp hc]
      exact hmine
  · rcases List.mem_append.mp (hcontacts hc) with hc | hc
    · exact h.free r (hold r hr) c hc
    · -- the token is in one place only
      rw [List.mem_singleton.mp hc]
      rintro rfl
      have hpos := List.count_pos_iff.mpr hr
      have hsum := hcount d.reverseAlias
      have honce := h.once d.reverseAlias
      rw [if_pos rfl] at hsum
      omega
  · have hsum := hcount r
    have honce := h.once r
    omega

/-- A token is drawn. -/
theorem Separate.draws {r : Str} (h : Separate settings s (before ++ m :: after))
    (hnew : r ∉ s.2) :
    Separate settings (s.1, r :: s.2) (before ++ some r :: after) := by
  have hold : ∀ r', some r' ∈ before ++ some r :: after → r' = r ∨
      some r' ∈ before ++ m :: after := by
    intro r' hr'
    simp only [List.mem_append, List.mem_cons] at hr' ⊢
    rcases hr' with hr' | hr' | hr'
    · exact .inr (.inl hr')
    · exact .inl (Option.some.inj hr')
    · exact .inr (.inr (.inr hr'))
  refine ⟨h.wf, fun c hc => List.mem_cons_of_mem _ (h.contacts c hc), fun r' hr' => ?_,
    fun r' hr' c hc => ?_, fun r' => ?_⟩
  · rcases hold r' hr' with rfl | hr'
    · exact List.mem_cons_self
    · exact List.mem_cons_of_mem _ (h.drawn r' hr')
  · rcases hold r' hr' with rfl | hr'
    · exact fun heq => hnew (heq ▸ h.contacts c hc)
    · exact h.free r' hr' c hc
  · have honce := h.once r'
    by_cases hr : r' = r
    · subst hr
      have hnone : (before ++ m :: after).count (some r') = 0 :=
        List.count_eq_zero.mpr fun hmem => hnew (h.drawn r' hmem)
      simp only [List.count_append, List.count_cons] at hnone ⊢
      simp only [beq_self_eq_true, if_true]
      omega
    · simp only [List.count_append, List.count_cons] at honce ⊢
      simp only [beq_iff_eq, Option.some.injEq, Ne.symm hr, if_false]
      omega

/-- Contacts may go. -/
theorem Separate.later {unused : List (Option Str)} {w : World} (hwf : Wf settings w.db)
    (hcontacts : w.db.contacts ⊆ s.1.db.contacts) (h : Separate settings s unused) :
    Separate settings (w, s.2) unused :=
  ⟨hwf, fun c hc => h.contacts c (hcontacts hc), h.drawn, fun r hr c hc => h.free r hr c
    (hcontacts hc), h.once⟩

theorem separate_turn (c : Chance) (hok : (drawing settings).ok m o)
    (hfair : (drawingRules settings).fair o c s)
    (h : Separate settings s (before ++ m :: after)) :
    Separate settings ((drawingRules settings).answer o c s).2
      (before ++ (drawing settings).next m o ((drawingRules settings).answer o c s).1 ::
        after) := by
  have hwf : Wf settings (answer o c s.1).2.db := wf_of_legal hok.1 c h.wf
  have hcontacts := contacts_answer o c s.1
  by_cases hfree : ContactFree o
  · have hkept : (answer o c s.1).2.db.contacts ⊆ s.1.db.contacts := by
      rcases hcontacts with hsub | ⟨d, rfl, -⟩
      · exact hsub
      · exact hfree.elim
    cases o with
    | sample n =>
        by_cases hn : n = 12
        · subst hn
          exact h.draws (hfair _ rfl)
        · have hnone : ∀ r, drawnAlias settings (.sample n) r = none := fun r => if_neg hn
          show Separate settings (_, (drawnAlias settings (.sample n) _).toList ++ s.2)
            (before ++ (drawnAlias settings (.sample n) _).or m :: after)
          rw [hnone, hnone]
          exact h.later hwf hkept
    | write u =>
        cases u with
        | insertContact d => exact hfree.elim
        | _ => exact h.later hwf hkept
    | _ => exact h.later hwf hkept
  · cases o with
    | write u =>
        cases u with
        | insertContact d =>
            obtain rfl : m = some d.reverseAlias := hok.2
            refine h.made hwf ?_
            rcases hcontacts with hsub | ⟨d', hd', hadded⟩
            · exact fun x hx => List.mem_append_left _ (hsub hx)
            · cases hd'
              exact hadded ▸ List.Subset.refl _
        | _ => exact absurd trivial hfree
    | _ => exact absurd trivial hfree

end

/-! ## What stands behind a contact -/

/-- The alias and the mailbox of a contact have these addresses. -/
def Db.Backing (db : Db) (c : Contact) (aliasAddress mailboxEmail : Str) : Prop :=
  ∃ a ∈ db.aliases, a.aliasId = c.aliasId ∧ a.address = aliasAddress ∧
    ∃ m ∈ db.mailboxes, m.mailboxId = a.mailboxId ∧ m.email = mailboxEmail

section
variable {settings : AliasSettings} {db db' : Db} {c : Contact}
    {aliasAddress mailboxEmail : Str}

/-- Where the contact is left, so are its alias and its mailbox. -/
theorem Db.Backing.left (h : db.Backing c aliasAddress mailboxEmail) (hwf : Wf settings db)
    (hwf' : Wf settings db') (haliases : db'.aliases ⊆ db.aliases)
    (hmailboxes : db'.mailboxes ⊆ db.mailboxes) (hc : c ∈ db'.contacts) :
    db'.Backing c aliasAddress mailboxEmail := by
  obtain ⟨a, ha, hid, haddress, m, hm, hmid, hemail⟩ := h
  obtain ⟨a', ha', hid'⟩ := hwf'.correspondents c hc
  obtain rfl : a' = a := List.inj_on_of_nodup_map hwf.aliasIds (haliases ha') ha
    (hid'.trans hid.symm)
  obtain ⟨m', hm', hmid'⟩ := hwf'.owners a' ha'
  obtain rfl : m' = m := List.inj_on_of_nodup_map hwf.mailboxIds (hmailboxes hm') hm
    (hmid'.trans hmid.symm)
  exact ⟨a', ha', hid, haddress, m', hm', hmid, hemail⟩

theorem Db.Backing.mapAliases (h : db.Backing c aliasAddress mailboxEmail) {f : Alias → Alias}
    (hf : ∀ a, (f a).aliasId = a.aliasId ∧ (f a).address = a.address ∧
      (f a).mailboxId = a.mailboxId) :
    Db.Backing { db with aliases := db.aliases.map f } c aliasAddress mailboxEmail := by
  obtain ⟨a, ha, hid, haddress, m, hm, hmid, hemail⟩ := h
  obtain ⟨hfid, hfaddress, hfmid⟩ := hf a
  exact ⟨f a, List.mem_map_of_mem ha, hfid.trans hid, hfaddress.trans haddress, m, hm,
    hmid.trans hfmid.symm, hemail⟩

theorem backing_of_write {u : Write} (hdb : u.apply db = some db') (hwf : Wf settings db)
    (hwf' : Wf settings db')
    (hc : c ∈ db'.contacts) (h : db.Backing c aliasAddress mailboxEmail) :
    db'.Backing c aliasAddress mailboxEmail := by
  cases u with
  | insertMailbox m =>
      obtain ⟨f, hf, -, rfl⟩ := Db.insertMailbox_eq_some hdb
      obtain ⟨a, ha, hid, haddress, o, ho, hmid, hemail⟩ := h
      refine ⟨a, ha, hid, haddress, f o, ?_, (hf o).1.trans hmid, (hf o).2.trans hemail⟩
      exact List.mem_append_left _ (List.mem_map_of_mem ho)
  | insertAlias a =>
      obtain ⟨-, -, rfl⟩ := Db.insertAlias_eq_some hdb
      obtain ⟨b, hb, hrest⟩ := h
      exact ⟨b, List.mem_append_left _ hb, hrest⟩
  | insertContact d =>
      rcases Db.insertContact_eq_some hdb with ⟨-, rfl⟩ | ⟨-, -, -, rfl⟩
      · exact h
      · exact h
  | insertOutbox row =>
      obtain ⟨-, rfl⟩ := Db.insertOutbox_eq_some hdb
      exact h
  | deleteMailbox | deleteAlias =>
      cases hdb
      refine h.left hwf hwf' (fun a ha => List.mem_of_mem_filter ha) (fun m hm => ?_) hc
      first | exact hm | exact List.mem_of_mem_filter hm
  | setAliasEnabled aliasId enabled =>
      cases hdb
      exact h.mapAliases fun a => by split <;> exact ⟨rfl, rfl, rfl⟩
  | recordAliasActivity aliasId counter now =>
      cases hdb
      exact h.mapAliases fun a => by split <;> [cases counter; skip] <;> exact ⟨rfl, rfl, rfl⟩
  | requeueInterrupted | markDelivered | markFailed | markPending =>
      cases hdb
      exact h

theorem backing_of_answer {o : Op} {chance : Chance} {w : World} (hwf : Wf settings w.db)
    (hwf' : Wf settings (answer o chance w).2.db) (hc : c ∈ (answer o chance w).2.db.contacts)
    (h : w.db.Backing c aliasAddress mailboxEmail) :
    (answer o chance w).2.db.Backing c aliasAddress mailboxEmail := by
  rcases answer_db_cases o chance w with he | ⟨u, rfl, hu⟩ | ⟨now, n, rfl, f, -, he⟩
  · rw [he]
    exact h
  · exact backing_of_write hu hwf hwf' hc h
  · rw [he]
    exact h

/-- A lookup of the reverse alias finds the contact and what stands behind it. -/
theorem found_of_backing (hwf : Wf settings db) {r : Str}
    (hsame : ∀ d ∈ db.contacts, d.reverseAlias = r →
      d = c ∧ db.Backing c aliasAddress mailboxEmail) {found : ContactWithAlias}
    (hfound : db.findContactByReverseAlias r = some found) :
    found.toContact = c ∧ found.aliasAddress = aliasAddress ∧
    found.mailboxEmail = mailboxEmail := by
  obtain ⟨hmem, hreverse, b, hb, haddress, -, o, ho, hemail⟩ :=
    Db.findContactByReverseAlias_some hfound
  obtain ⟨rfl, a, ha, hid, rfl, m, hm, hmid, rfl⟩ := hsame _ hmem hreverse
  have hbid : b.aliasId = found.toContact.aliasId := by simpa using List.find?_some hb
  obtain rfl : b = a :=
    List.inj_on_of_nodup_map hwf.aliasIds (List.mem_of_find?_eq_some hb) ha
      (hbid.trans hid.symm)
  obtain ⟨ho, hoid⟩ := Db.mailboxOf_some ho
  obtain rfl : o = m := List.inj_on_of_nodup_map hwf.mailboxIds ho hm (hoid.trans hmid.symm)
  exact ⟨rfl, haddress, hemail⟩

end

/-! ## Runs -/

/-- The reverse alias of the contact is used up, and stands for the contact or for nobody. -/
structure Means (settings : AliasSettings) (c : Contact) (aliasAddress mailboxEmail : Str)
    (s : World × List Str) (unused : List (Option Str)) : Prop where
  wf : Wf settings s.1.db
  drawn : c.reverseAlias ∈ s.2
  used : some c.reverseAlias ∉ unused
  same : ∀ d ∈ s.1.db.contacts, d.reverseAlias = c.reverseAlias → d = c ∧
    s.1.db.Backing c aliasAddress mailboxEmail

section
variable {settings : AliasSettings} {s : World × List Str} {before after : List (Option Str)}
    {m : Option Str} {o : Op}
variable {c : Contact} {aliasAddress mailboxEmail : Str}

/-- What a task can use is what it could use before, or what it has drawn. -/
theorem nextAlias_eq_some {x : Res o} {r : Str} (h : nextAlias settings m o x = some r) :
    m = some r ∨ drawnAlias settings o x = some r := by
  unfold nextAlias at h
  split at h
  · cases h
  · exact (Option.or_eq_some_iff.mp h).elim .inr fun h' => .inl h'.2

theorem means_turn (chance : Chance) (hok : (drawing settings).ok m o)
    (hfair : (drawingRules settings).fair o chance s)
    (h : Means settings c aliasAddress mailboxEmail s (before ++ m :: after)) :
    Means settings c aliasAddress mailboxEmail ((drawingRules settings).answer o chance s).2
      (before ++ (drawing settings).next m o ((drawingRules settings).answer o chance s).1 ::
        after) := by
  have hwf : Wf settings (answer o chance s.1).2.db := wf_of_legal hok.1 chance h.wf
  have hmine : m ≠ some c.reverseAlias := by
    rintro rfl
    exact h.used (by simp)
  refine ⟨hwf, List.mem_append_right _ h.drawn, fun hmem => ?_, fun d hd hreverse => ?_⟩
  · rcases List.mem_append.mp hmem with hmem | hmem
    · exact h.used (List.mem_append_left _ hmem)
    · rcases List.mem_cons.mp hmem with hmem | hmem
      · rcases nextAlias_eq_some hmem.symm with hm | hdrawn
        · exact hmine hm
        · exact hfair _ hdrawn h.drawn
      · exact h.used (List.mem_append_right _ (List.mem_cons_of_mem _ hmem))
  · -- nobody makes another contact of it
    have hold : d ∈ s.1.db.contacts := by
      rcases contacts_answer o chance s.1 with hsub | ⟨d', rfl, hadded⟩
      · exact hsub hd
      · change d ∈ (answer (.write (.insertContact d')) chance s.1).2.db.contacts at hd
        rw [hadded] at hd
        refine (List.mem_append.mp hd).resolve_right fun hd => hmine ?_
        rw [← hreverse, List.mem_singleton.mp hd]
        exact hok.2
    obtain ⟨rfl, hbacking⟩ := h.same d hold hreverse
    exact ⟨rfl, backing_of_answer h.wf hwf hd hbacking⟩

end

/-- What runs: the calls of the router, and whatever else makes no contact. -/
inductive OfficeTask (router : AliasRouter) : Prog Op Res (Except Str Unit) → Prop
  | handle (envelope : Envelope) : OfficeTask router (router.handle envelope).run
  | verifyRecipient (mailFrom recipient : Str) :
      OfficeTask router (router.verifyRecipient mailFrom recipient >>= fun _ => .ret (.ok ()))
  | besides (p : Prog Op Res (Except Str Unit)) : Uses (Besides router.aliases) p →
      OfficeTask router p

theorem OfficeTask.heeds {router : AliasRouter} {p : Prog Op Res (Except Str Unit)}
    (hp : OfficeTask router p) :
    Heeds (drawing router.aliases) p := by
  cases hp with
  | handle envelope => exact router.heeds_handleAll envelope envelope.rcptTo
  | verifyRecipient mailFrom recipient =>
      refine heeds_bind (heeds_bind (heeds_besides (router.besides_route _ _)) fun r => ?_)
        fun _ _ => trivial
      cases r <;> exact fun _ => trivial
  | besides p hp => exact heeds_besides hp

/-- The tables, the reverse aliases that were drawn, and what runs on them. -/
abbrev Office := Crew Op Res (World × List Str) (Except Str Unit)

def Office.Run (router : AliasRouter) : Office → Office → Prop :=
  Crew.Run (drawingRules router.aliases) (OfficeTask router) fun _ _ => False

section
variable {router : AliasRouter} {s s' : Office}

theorem separate_run (spool : Spool) (relayed : List Str)
    (hrun : Office.Run router ⟨(⟨Db.empty, spool, relayed⟩, []), []⟩ s) :
    Crew.Minded (drawing router.aliases) (fun _ _ => True) (Separate router.aliases) s := by
  refine Crew.minded_run (fun p hp => hp.heeds none) (fun _ _ h => h.start) ?_
    (fun _ _ _ h => h.elim) ?_ hrun
  · exact fun s before m after o c hok hfair h => separate_turn c hok hfair h
  · refine ⟨[], .nil, wf_empty, fun c hc => ?_, fun r hr => ?_, fun r hr => ?_,
      fun r => Nat.zero_le _⟩
    · cases hc
    · cases hr
    · cases hr

theorem means_run {c : Contact} {aliasAddress mailboxEmail : Str}
    (h : Crew.Minded (drawing router.aliases)
      (fun _ _ => True) (Means router.aliases c aliasAddress mailboxEmail) s)
    (hrun : Office.Run router s s') :
    Crew.Minded (drawing router.aliases)
      (fun _ _ => True) (Means router.aliases c aliasAddress mailboxEmail) s' := by
  refine Crew.minded_run (fun p hp => hp.heeds none) ?_ ?_ (fun _ _ _ h => h.elim) h hrun
  · refine fun _ _ h => ⟨h.wf, h.drawn, fun hmem => ?_, h.same⟩
    exact h.used ((List.mem_cons.mp hmem).resolve_left fun h0 => by cases h0)
  · exact fun s before m after o c hok hfair h => means_turn c hok hfair h

/-- A contact that is there means what it means from then on. -/
theorem means_of_separate
    (h : Crew.Minded (drawing router.aliases) (fun _ _ => True) (Separate router.aliases) s)
    {c : Contact} {a : Alias} {m : Mailbox} (hc : c ∈ s.state.1.db.contacts)
    (ha : a ∈ s.state.1.db.aliases) (hid : a.aliasId = c.aliasId)
    (hm : s.state.1.db.mailboxOf a = some m) :
    Crew.Minded (drawing router.aliases)
      (fun _ _ => True) (Means router.aliases c a.address m.email) s := by
  obtain ⟨unused, htasks, hseparate⟩ := h
  obtain ⟨hmem, hmid⟩ := Db.mailboxOf_some hm
  refine ⟨unused, htasks, hseparate.wf, hseparate.contacts c hc,
    fun hmem => hseparate.free _ hmem c hc rfl, fun d hd hreverse => ?_⟩
  refine ⟨List.inj_on_of_nodup_map hseparate.wf.reverseAliases hd hc hreverse, a, ha, hid,
    rfl, m, hmem, hmid, rfl⟩

/-- A reverse alias never comes to stand for somebody else.  Whatever runs, in every order of
operations, whichever of them fail, and as long as no token is drawn twice: once there is a
contact, every later lookup of its reverse alias finds this contact, with the alias and the
mailbox it had, or nothing.  Mail to it goes to the contact, from the alias, if the mailbox has
sent it and the alias is enabled; or it is refused, unless the contact is gone and somebody has
made an alias of this very address. -/
theorem reverseAlias_keeps (router : AliasRouter) (spool : Spool) (relayed : List Str)
    (hrun : Office.Run router ⟨(⟨Db.empty, spool, relayed⟩, []), []⟩ s)
    (hlater : Office.Run router s s')
    {c : Contact} {a : Alias} {m : Mailbox} (hc : c ∈ s.state.1.db.contacts)
    (ha : a ∈ s.state.1.db.aliases) (hid : a.aliasId = c.aliasId)
    (hm : s.state.1.db.mailboxOf a = some m) :
    (∀ found, s'.state.1.db.findContactByReverseAlias c.reverseAlias = some found →
      found.toContact = c ∧ found.aliasAddress = a.address ∧ found.mailboxEmail = m.email) ∧
    ∀ mailFrom recipient address route, EmailAddress.parse recipient = .ok address →
      address.normalised = c.reverseAlias →
      ∀ h h' : Host, h.world = s'.state.1 →
        exec perform (router.route mailFrom recipient) h = (.ok route, h') →
        (route = .reply c.contactId a.address c.email ∧ eqIgnoreAsciiCase m.email
          (trim mailFrom) = true ∧
          ∃ b ∈ s'.state.1.db.aliases, b.aliasId = a.aliasId ∧ b.enabled = true) ∨
        (c ∉ s'.state.1.db.contacts ∧ ∃ b ∈ s'.state.1.db.aliases, b.address = c.reverseAlias ∧
          route = .forward b.aliasId b.address) := by
  obtain ⟨_, -, hmeans⟩ :=
    means_run (means_of_separate (separate_run spool relayed hrun) hc ha hid hm) hlater
  have hfound : ∀ found, s'.state.1.db.findContactByReverseAlias c.reverseAlias = some found →
      found.toContact = c ∧ found.aliasAddress = a.address ∧ found.mailboxEmail = m.email :=
    fun _ => found_of_backing hmeans.wf hmeans.same
  refine ⟨hfound,
    fun mailFrom recipient address route hparse haddress h h' hworld hroute => ?_⟩
  have hresolve : router.resolve mailFrom recipient s'.state.1.db = .ok route := by
    rw [← hworld]
    rcases router.route_cases mailFrom recipient h
      with ⟨-, t, he⟩ | ⟨-, ⟨e, t, -, he⟩ | ⟨r, t, hr, he, -⟩⟩
    · cases hroute.symm.trans he
    · cases hroute.symm.trans he
    · cases hroute.symm.trans he
      exact hr
  cases route with
  | reply contactId aliasAddress contactEmail =>
      obtain ⟨address', found, hparse', -, hcontact, hauth, henabled, rfl, rfl, rfl⟩ :=
        AliasRouter.resolve_reply hresolve
      cases hparse.symm.trans hparse'
      rw [haddress] at hcontact
      obtain ⟨rfl, halias, hmailbox⟩ := hfound found hcontact
      obtain ⟨-, -, b, hb, -, hbenabled, -⟩ := Db.findContactByReverseAlias_some hcontact
      have hbid : b.aliasId = found.toContact.aliasId := by simpa using List.find?_some hb
      refine .inl ⟨by rw [halias], hmailbox ▸ hauth, b, List.mem_of_find?_eq_some hb,
        hbid.trans hid.symm, ?_⟩
      exact hbenabled.symm.trans henabled
  | forward aliasId aliasAddress =>
      obtain ⟨address', found, hparse', -, hnone, halias, -, rfl, rfl⟩ :=
        AliasRouter.resolve_forward hresolve
      cases hparse.symm.trans hparse'
      rw [haddress] at hnone halias
      obtain ⟨hmem, hsame, -⟩ := Db.findAliasByAddress_some halias
      refine .inr ⟨fun hcontact => ?_, found.toAlias, hmem, hsame, rfl⟩
      obtain ⟨found', hfound', -⟩ := hmeans.wf.findContactByReverseAlias hcontact
      cases hnone.symm.trans hfound'

end

/-! ### A message, and who is answered -/

instance (settings : AliasSettings) (o : Op) (c : Chance) (s : World × List Str) :
    Decidable ((drawingRules settings).fair o c s) :=
  inferInstanceAs (Decidable (∀ r ∈ drawnAlias settings o (answer o c s.1).1, r ∉ s.2))

/-- The turns of `fourTurns` up to the message. -/
def handedOut : Office :=
  (fourTurns.take 18).foldl (Crew.turnOf (drawingRules AliasRouter.sample.aliases)) fourTasks

/-- The turns after that. -/
def wroteBack : Office :=
  (fourTurns.drop 18).foldl (Crew.turnOf (drawingRules AliasRouter.sample.aliases)) handedOut

theorem run_handedOut :
    Office.Run AliasRouter.sample ⟨(⟨Db.empty, [], []⟩, []), []⟩ handedOut := by
  refine Relation.ReflTransGen.trans ?_
    (Crew.run_turns (fourTurns.take 18) fourTasks (by decide +kernel))
  refine .tail
    (.tail (.tail (.tail .refl (.join _ _ (.besides _ ?_))) (.join _ _ (.besides _ ?_)))
    (.join _ _ (.handle _))) (.join _ _ (.handle _))
  · exact ⟨⟨⟨EmailAddress.me, rfl⟩, trivial⟩, fun _ => trivial⟩
  · exact ⟨⟨⟨EmailAddress.shop, rfl⟩, trivial⟩, fun _ => trivial⟩

theorem run_wroteBack : Office.Run AliasRouter.sample handedOut wroteBack :=
  Crew.run_turns (fourTurns.drop 18) handedOut (by decide +kernel)

/-- Whoever writes to the reverse alias later writes to the sender of the message. -/
theorem reverseAlias_keeps_sample :
    (wroteBack.state.1.db.findContactByReverseAlias
      "ct.pqrstuvwxyza@example.com".toList).isSome ∧
    ∀ found, wroteBack.state.1.db.findContactByReverseAlias
      "ct.pqrstuvwxyza@example.com".toList = some found →
      found.toContact.email = "a@shop.example".toList ∧
      found.aliasAddress = "shop@example.com".toList ∧
        found.mailboxEmail = "me@personal.example".toList := by
  have hthere : ∃ c ∈ handedOut.state.1.db.contacts, ∃ a ∈ handedOut.state.1.db.aliases,
      a.aliasId = c.aliasId ∧
      c.reverseAlias = "ct.pqrstuvwxyza@example.com".toList ∧
      c.email = "a@shop.example".toList ∧
      a.address = "shop@example.com".toList ∧
      (handedOut.state.1.db.mailboxOf a).map (·.email)
        = some "me@personal.example".toList := by decide +kernel
  obtain ⟨c, hc, a, ha, hid, hreverse, hemail, haddress, hmailbox⟩ := hthere
  obtain ⟨m, hm, hmail⟩ := Option.map_eq_some_iff.mp hmailbox
  refine ⟨by decide +kernel, fun found hfound => ?_⟩
  rw [← hreverse] at hfound
  obtain ⟨hsame, halias, hbox⟩ :=
    (reverseAlias_keeps AliasRouter.sample [] [] run_handedOut run_wroteBack hc ha hid hm).1
      found hfound
  exact ⟨hsame ▸ hemail, halias.trans haddress, hbox.trans hmail⟩

end Weiterleitung
