/-
# `Store.Luck` — runs on which nothing fails

The functions of the store end with the first operation that is answered with an error
(`Op.failed`), and without one they end with a result:

    a function fails with any of its operations      (`strict_enqueue`, …)
    and with nothing else                            (`sure_enqueue`, …)
    a contact is made as it was drawn                (`getOrCreateContact_drawn`)

On a machine whose operations succeed (`Calm`), and where every identifier and every
reverse alias that is drawn is new to the tables (`Fresh`), the constraints refuse nothing
that the functions ask for:

    a contact is returned for every alias there is      (`getOrCreateContact_total`)
    a message of a known alias and contact is queued    (`enqueue_total`)
    an alias is counted                                 (`recordAliasActivity_total`)
-/
import Mathlib
import Weiterleitung.Store.Frame

namespace Weiterleitung

open Text Prog

/-! ## Failures -/

/-- Was the operation answered with an error? -/
def Op.failed : (o : Op) → Res o → Bool
  | .uuid, _ | .now, _ | .sample _, _ => false
  | .findAliasByAddress _, r => !r.toBool
  | .findContact _ _, r => !r.toBool
  | .findContactByReverseAlias _, r => !r.toBool
  | .write _, r => !r.toBool
  | .claimDue _ _, r => !r.toBool
  | .createDirAll _, r => !r.toBool
  | .writeFile _ _, r => !r.toBool
  | .readFile _, r => !r.toBool
  | .send _ _ _ _, r => !r.toBool

/-- No operation of the run fails. -/
abbrev Unfailing {α : Type} (x : App α) (h : Host) : Prop :=
  Along perform (Succeeds Op.failed perform) x.run h

section
variable {α : Type}

/-- A program of one operation that returns its answer. -/
theorem strict_answer {r : Except Str α} :
    ((!r.toBool) = true → GivesUp (.ret r : Prog Op Res (Except Str α))) ∧
      Strict Op.failed (.ret r : Prog Op Res (Except Str α)) := by
  refine ⟨fun h => ?_, trivial⟩
  cases r with
  | error e => exact ⟨e, rfl⟩
  | ok a => cases h

theorem sure_answer {r : Except Str α} (h : (!r.toBool) = false) :
    Sure Op.failed (.ret r : Prog Op Res (Except Str α)) := by
  cases r with
  | error e => cases h
  | ok a => exact ⟨a, rfl⟩

theorem strict_write (u : Write) : Strict Op.failed (write u).run := fun _ => strict_answer

theorem sure_write (u : Write) : Sure Op.failed (write u).run := fun _ => sure_answer

theorem strict_findAliasByAddress (address : EmailAddress) :
    Strict Op.failed (findAliasByAddress address).run := fun _ => strict_answer

theorem strict_findContact (aliasId email : Str) :
    Strict Op.failed (findContact aliasId email).run := fun _ => strict_answer

theorem strict_findContactByReverseAlias (address : EmailAddress) :
    Strict Op.failed (findContactByReverseAlias address).run := fun _ => strict_answer

theorem strict_lift_bind {o : Op} {f : Res o → App α} (hnever : ∀ r, o.failed r = false)
    (hf : ∀ r, Strict Op.failed (f r).run) :
    Strict Op.failed (ExceptT.lift (op o) >>= f : App α).run := by
  intro r
  refine ⟨fun h => ?_, hf r⟩
  rw [hnever] at h
  cases h

theorem strict_enqueue (mailDir : Str) (message : NewOutboundMessage) :
    Strict Op.failed (enqueue mailDir message).run := by
  unfold enqueue
  refine strict_seq (strict_mapErr fun _ => strict_answer) fun _ => ?_
  refine strict_lift_bind (fun _ => rfl) fun messageId => ?_
  refine strict_seq (strict_mapErr fun _ => strict_answer) fun _ => ?_
  refine strict_lift_bind (fun _ => rfl) fun now => ?_
  exact strict_seq (strict_mapErr (strict_write _)) fun _ => trivial

theorem sure_enqueue (mailDir : Str) (message : NewOutboundMessage) :
    Sure Op.failed (enqueue mailDir message).run := by
  unfold enqueue
  refine sure_seq (sure_mapErr fun _ => sure_answer) fun _ => ?_
  intro messageId _
  refine sure_seq (sure_mapErr fun _ => sure_answer) fun _ => ?_
  intro now _
  exact sure_seq (sure_mapErr (sure_write _)) fun _ => ⟨_, rfl⟩

theorem strict_recordAliasActivity (aliasId : Str) (counter : AliasCounter) :
    Strict Op.failed (recordAliasActivity aliasId counter).run :=
  strict_lift_bind (fun _ => rfl) fun _ => strict_write _

theorem sure_recordAliasActivity (aliasId : Str) (counter : AliasCounter) :
    Sure Op.failed (recordAliasActivity aliasId counter).run := fun _ _ => sure_write _

theorem strict_getOrCreateContact (aliasId : Str) (email : EmailAddress) (name : Option Str)
    (reverseAliasPrefix reverseAliasDomain : Str) :
    Strict Op.failed
      (getOrCreateContact aliasId email name reverseAliasPrefix reverseAliasDomain).run := by
  unfold getOrCreateContact
  refine strict_seq (strict_findContact _ _) fun found => ?_
  cases found with
  | some existing => trivial
  | none =>
      refine strict_lift_bind (fun _ => rfl) fun contactId => ?_
      refine strict_seq (strict_lift_bind (fun _ => rfl) fun symbols => trivial)
        fun token => ?_
      refine strict_lift_bind (fun _ => rfl) fun createdAt => ?_
      refine strict_seq (strict_mapErr (strict_write _)) fun _ => ?_
      refine strict_seq (strict_findContact _ _) fun again => ?_
      cases again <;> trivial

/-- A sure function of which no operation fails returns a result. -/
theorem exec_of_sure {x : App α} {h : Host} (hsure : Sure Op.failed x.run)
    (hu : Unfailing x h) :
    ∃ a t, exec perform x h = (.ok a, t) := by
  obtain ⟨a, ha⟩ := ok_of_sure hsure hu
  exact ⟨a, (exec perform x h).2, Prod.ext ha rfl⟩

/-- A lookup that does not fail returns what the tables hold. -/
theorem exec_of_unfailing {x : App α} {a : α} {h : Host}
    (hx : exec perform x h = (h.chance.give a, h.skip)) (hsure : Sure Op.failed x.run)
    (hu : Unfailing x h) : h.chance.fails = false ∧ exec perform x h = (.ok a, h.skip) := by
  obtain ⟨b, t, hb⟩ := exec_of_sure hsure hu
  rcases give_cases hx with ⟨-, he⟩ | hok
  · cases hb.symm.trans he
  · exact hok

/-- A contact that was inserted, or was there, is found. -/
theorem Db.findContact_of_insert {db db' : Db} {c : Contact}
    (h : db.insertContact c = some db') :
    ∃ d, db'.findContact c.aliasId c.email = some d := by
  rcases Db.insertContact_eq_some h with ⟨hold, rfl⟩ | ⟨hnone, -, -, rfl⟩
  · exact Option.isSome_iff_exists.mp hold
  · exact ⟨c, Db.findContact_added hnone⟩

/-- If none of its operations fails, a contact is returned. -/
theorem getOrCreateContact_of_unfailing {aliasId : Str} {email : EmailAddress}
    {name : Option Str} {reverseAliasPrefix reverseAliasDomain : Str} {h : Host}
    (hu : Unfailing
      (getOrCreateContact aliasId email name reverseAliasPrefix reverseAliasDomain) h) :
    ∃ c t, exec perform (getOrCreateContact aliasId email name reverseAliasPrefix
      reverseAliasDomain) h = (.ok c, t) := by
  unfold Unfailing getOrCreateContact at hu
  unfold getOrCreateContact
  obtain ⟨hfind, hu⟩ := along_seq hu
  have hfound := (exec_of_unfailing (exec_findContact aliasId email.normalised h)
    (fun _ => sure_answer) hfind).2
  have hu := hu hfound
  dsimp only at hu ⊢
  rw [exec_bind_of_ok perform hfound]
  cases hlookup : h.world.db.findContact aliasId email.normalised with
  | some c => exact ⟨c, _, rfl⟩
  | none =>
      rw [hlookup] at hu
      dsimp only at hu ⊢
      rw [exec_bind_of_ok perform (exec_newUuid h.skip),
        exec_bind_of_ok perform (exec_randomToken 12 _),
        exec_bind_of_ok perform (exec_utcNow _)]
      have hu := (along_seq hu).2 (exec_newUuid h.skip)
      have hu := (along_seq hu).2 (exec_randomToken 12 _)
      have hu := (along_seq hu).2 (exec_utcNow _)
      obtain ⟨hinsert, hu⟩ := along_seq hu
      generalize hnew : (Contact.mk _ _ _ _ _ _) = c at hinsert hu ⊢
      have hid : c.aliasId = aliasId ∧ c.email = email.normalised := by
        rw [← hnew]
        exact ⟨rfl, rfl⟩
      rcases exec_write_cases (Host.skip _) (.insertContact c)
        with ⟨db, -, hdb, hwrite⟩ | ⟨-, hwrite⟩
      · have hu := hu (exec_context_ok hwrite)
        rw [exec_bind_of_ok perform (exec_context_ok hwrite)]
        generalize ht : Host.after _ _ = t at hu ⊢
        have htdb : t.world.db = db := by
          rw [← ht]
          rfl
        have hagain := (exec_of_unfailing (exec_findContact aliasId email.normalised t)
          (fun _ => sure_answer) (along_seq hu).1).2
        obtain ⟨d, hd⟩ := Db.findContact_of_insert hdb
        rw [exec_bind_of_ok perform hagain, htdb, ← hid.1, ← hid.2, hd]
        exact ⟨d, _, rfl⟩
      · obtain ⟨u, t, he⟩ := exec_of_sure (sure_mapErr (sure_write _)) hinsert
        cases he.symm.trans (exec_context_error hwrite)

end

/-! ## Draws -/

/-- A reverse alias that is drawn satisfies `P`. -/
def Draws (settings : AliasSettings) (P : Str → Prop) : Op → Host → Prop
  | .sample n, h => P (composeReverseAlias settings.reverseAliasPrefix
      (tokenOf fun i : Fin n => h.chance.symbol i) settings.defaultDomain)
  | _, _ => True

instance (settings : AliasSettings) (P : Str → Prop) [DecidablePred P] :
    ∀ (o : Op) (h : Host), Decidable (Draws settings P o h)
  | .sample n, h =>
      inferInstanceAs (Decidable (P (composeReverseAlias settings.reverseAliasPrefix
          (tokenOf fun i : Fin n => h.chance.symbol i) settings.defaultDomain)))
  | .uuid, _ | .now, _ | .findAliasByAddress _, _ | .findContact _ _, _ => isTrue trivial
  | .findContactByReverseAlias _, _ | .write _, _ | .claimDue _ _, _ => isTrue trivial
  | .createDirAll _, _ | .writeFile _ _, _ | .readFile _, _ | .send _ _ _ _, _ =>
      isTrue trivial

/-- The contacts are those of before, and others with reverse aliases that satisfy `P`. -/
def Drawn (P : Str → Prop) (db db' : Db) : Prop :=
  ∀ c ∈ db'.contacts, c ∈ db.contacts ∨ P c.reverseAlias

theorem Drawn.of_eq {P : Str → Prop} {db db' : Db} (h : db'.contacts = db.contacts) :
    Drawn P db db' := fun _ hc => Or.inl (h ▸ hc)

theorem Drawn.trans {P : Str → Prop} {db₁ db₂ db₃ : Db} (h : Drawn P db₁ db₂)
    (h' : Drawn P db₂ db₃) : Drawn P db₁ db₃ := fun c hc => (h' c hc).elim (h c) Or.inr

/-- A contact that is made has the reverse alias that was drawn. -/
theorem getOrCreateContact_drawn {settings : AliasSettings} {P : Str → Prop} {aliasId : Str}
    {email : EmailAddress} {name : Option Str} {h t : Host} {c : Contact}
    (ha : Along perform (Draws settings P) (getOrCreateContact aliasId email name
      settings.reverseAliasPrefix settings.defaultDomain).run h)
    (he : exec perform (getOrCreateContact aliasId email name settings.reverseAliasPrefix
      settings.defaultDomain) h = (.ok c, t)) : Drawn P h.world.db t.world.db := by
  unfold getOrCreateContact at ha he
  obtain ⟨found, u, hfind, he⟩ := (exec_bind_ok perform).mp he
  have ha := (along_seq ha).2 hfind
  obtain rfl : u = h.skip := congrArg Prod.snd (hfind.symm.trans (exec_findContact _ _ h))
  cases found with
  | some existing =>
      cases he
      exact Drawn.of_eq rfl
  | none =>
      dsimp only at ha he
      rw [exec_bind_of_ok perform (exec_newUuid h.skip),
        exec_bind_of_ok perform (exec_randomToken 12 _), exec_bind_of_ok perform
          (exec_utcNow _)] at he
      obtain ⟨hdraws, -⟩ := along_seq ((along_seq ha).2 (exec_newUuid h.skip))
      obtain ⟨_, u, hwrite, he⟩ := (exec_bind_ok perform).mp he
      obtain ⟨again, v, hagain, he⟩ := (exec_bind_ok perform).mp he
      obtain rfl : v = u.skip := congrArg Prod.snd (hagain.symm.trans (exec_findContact _ _ u))
      have hend : t.world.db = u.world.db := by
        cases again <;> cases he
        rfl
      rw [hend]
      rcases exec_write_cases h.skip.skip.skip.skip (.insertContact _)
        with ⟨db, -, hdb, hx⟩ | ⟨-, hx⟩
      · obtain rfl : u = _ := congrArg Prod.snd (hwrite.symm.trans (exec_context_ok hx))
        rcases Db.insertContact_eq_some hdb with ⟨-, rfl⟩ | ⟨-, -, -, rfl⟩
        · exact Drawn.of_eq rfl
        · intro d hd
          rcases List.mem_append.mp hd with hd | hd
          · exact Or.inl hd
          · rw [List.mem_singleton.mp hd]
            exact Or.inr hdraws.1
      · cases hwrite.symm.trans (exec_context_error hx)

/-! ## Luck -/

/-- No operation to come fails. -/
def Calm (h : Host) : Prop := ∀ i, (h.oracle i).fails = false

/-- What is drawn is not in the tables yet: an identifier, or the
reverse alias made of a token. -/
def Fresh (settings : AliasSettings) : Op → Host → Prop
  | .uuid, h =>
      (∀ c ∈ h.world.db.contacts, c.contactId ≠ h.chance.uuid) ∧
        ∀ row ∈ h.world.db.outbox, row.messageId ≠ h.chance.uuid
  | .sample n, h =>
      (∀ c ∈ h.world.db.contacts, c.reverseAlias ≠ composeReverseAlias
        settings.reverseAliasPrefix (tokenOf fun i : Fin n => h.chance.symbol i)
          settings.defaultDomain) ∧
      ∀ a ∈ h.world.db.aliases, a.address ≠ composeReverseAlias settings.reverseAliasPrefix
        (tokenOf fun i : Fin n => h.chance.symbol i) settings.defaultDomain
  | _, _ => True

instance (settings : AliasSettings) : ∀ (o : Op) (h : Host), Decidable (Fresh settings o h)
  | .uuid, _ => inferInstanceAs (Decidable (_ ∧ _))
  | .sample _, _ => inferInstanceAs (Decidable (_ ∧ _))
  | .now, _ | .findAliasByAddress _, _ | .findContact _ _, _
  | .findContactByReverseAlias _, _ => isTrue trivial
  | .write _, _ | .claimDue _ _, _ | .createDirAll _, _ | .writeFile _ _, _ | .readFile _, _ =>
      isTrue trivial
  | .send _ _ _ _, _ => isTrue trivial

variable {settings : AliasSettings} {h : Host}

theorem Calm.chance (hc : Calm h) : h.chance.fails = false := hc h.tick

theorem Calm.after (hc : Calm h) (w : World) : Calm (h.after w) := hc

theorem Calm.skip (hc : Calm h) : Calm h.skip := hc

/-- A machine stays calm. -/
theorem Calm.exec {ε α : Type} {x : Fallible ε Op Res α} {t : Host} {r : Except ε α}
    (hc : Calm h) (he : exec perform x h = (r, t)) : Calm t := by
  have horacle : (Prog.exec perform x h).2.oracle = h.oracle :=
    run_rel perform (P := fun _ => True) (R := fun h h' => h'.oracle = h.oracle) (fun _ => rfl)
      (fun h₁ h₂ => h₂.trans h₁) (fun _ _ _ => rfl) (uses_all (fun _ => trivial) x.run) h
  intro i
  rw [he] at horacle
  rw [horacle]
  exact hc i

/-! ## Functions that succeed -/

theorem recordAliasActivity_total (hc : Calm h) (aliasId : Str) (counter : AliasCounter) :
    ∃ t, exec perform (recordAliasActivity aliasId counter) h = (.ok (), t) := by
  unfold recordAliasActivity
  rw [exec_bind_of_ok perform (exec_utcNow h)]
  exact ⟨_, exec_write_ok h.skip hc.skip.chance rfl⟩

/-- A new row of known references is accepted. -/
theorem Db.insertOutbox_total {db : Db} {row : OutboxRow}
    (hfresh : ∀ other ∈ db.outbox, other.messageId ≠ row.messageId)
    (halias : ∀ i, row.aliasId = some i → ∃ a ∈ db.aliases, a.aliasId = i)
    (hcontact : ∀ i, row.contactId = some i → ∃ c ∈ db.contacts, c.contactId = i) :
    db.insertOutbox row = some { db with outbox := db.outbox ++ [row] } := by
  unfold Db.insertOutbox
  rw [if_neg (by simpa using hfresh), if_neg, if_neg]
  · cases hi : row.contactId with
    | none => simp
    | some i =>
        obtain ⟨c, hc, hid⟩ := hcontact i hi
        simpa using ⟨c, hc, hid⟩
  · cases hi : row.aliasId with
    | none => simp
    | some i =>
        obtain ⟨a, ha, hid⟩ := halias i hi
        simpa using ⟨a, ha, hid⟩

theorem enqueue_total {mailDir : Str} {message : NewOutboundMessage} (hc : Calm h)
    (hf : Along perform (Fresh settings) (enqueue mailDir message).run h)
    (halias : ∀ i, message.aliasId = some i → ∃ a ∈ h.world.db.aliases, a.aliasId = i)
    (hcontact : ∀ i, message.contactId = some i → ∃ c ∈ h.world.db.contacts, c.contactId = i) :
    ∃ messageId t, exec perform (enqueue mailDir message) h = (.ok messageId, t) := by
  unfold enqueue at hf ⊢
  rcases exec_createDirAll_cases h mailDir with ⟨-, hdir⟩ | ⟨hbad, -⟩
  · rw [exec_bind_of_ok perform (exec_context_ok hdir), exec_bind_of_ok perform
      (exec_newUuid h.skip)]
    have hid := (along_seq ((along_seq hf).2 (exec_context_ok hdir))).1
    have haccepted : ∀ now,
        h.world.db.insertOutbox (message.row mailDir h.skip.chance.uuid now) ≠ none := by
      intro now h0
      rw [Db.insertOutbox_total hid.1.2 halias hcontact] at h0
      cases h0
    rcases exec_writeFile_cases h.skip.skip (rawPath mailDir h.skip.chance.uuid)
      message.raw with
      ⟨-, hfile⟩ | ⟨hbad, -⟩
    · rw [exec_bind_of_ok perform (exec_context_ok hfile),
        exec_bind_of_ok perform (exec_utcNow _)]
      rcases exec_write_cases (Host.skip _)
        (.insertOutbox (message.row mailDir h.skip.chance.uuid _)) with
        ⟨db, -, -, hrow⟩ | ⟨hbad | hbad, -⟩
      · rw [exec_bind_of_ok perform (exec_context_ok hrow)]
        exact ⟨_, _, rfl⟩
      · cases hbad.symm.trans (hc _)
      · exact absurd hbad (haccepted _)
    · cases hbad.symm.trans (hc _)
  · cases hbad.symm.trans (hc _)

theorem Db.insertContact_total {db : Db} {c : Contact}
    (hnone : db.findContact c.aliasId c.email = none)
    (hid : ∀ d ∈ db.contacts, d.contactId ≠ c.contactId)
    (hreverse : ∀ d ∈ db.contacts, d.reverseAlias ≠ c.reverseAlias)
    (halias : ∃ a ∈ db.aliases, a.aliasId = c.aliasId) :
    db.insertContact c = some { db with contacts := db.contacts ++ [c] } := by
  unfold Db.insertContact
  rw [if_neg (by simp [hnone]), if_neg, if_neg]
  · obtain ⟨a, ha, hid⟩ := halias
    simpa using ⟨a, ha, hid⟩
  · simpa using fun d hd => ⟨hid d hd, hreverse d hd⟩

/-- A contact of an alias that exists is found or made, and a reverse alias
that is made is no alias. -/
theorem getOrCreateContact_total {aliasId : Str} {email : EmailAddress} {name : Option Str}
    (hc : Calm h) (hf : Along perform (Fresh settings) (getOrCreateContact aliasId email name
      settings.reverseAliasPrefix settings.defaultDomain).run h)
    (halias : ∃ a ∈ h.world.db.aliases, a.aliasId = aliasId) :
    ∃ c t, exec perform (getOrCreateContact aliasId email name settings.reverseAliasPrefix
        settings.defaultDomain) h = (.ok c, t) ∧
      ∀ d ∈ t.world.db.contacts, d ∈ h.world.db.contacts ∨
        ∀ a ∈ h.world.db.aliases, a.address ≠ d.reverseAlias := by
  unfold getOrCreateContact at hf ⊢
  rcases give_cases (exec_findContact aliasId email.normalised h) with ⟨hbad, -⟩ | ⟨-, hx⟩
  · cases hbad.symm.trans (hc _)
  · dsimp only at hf ⊢
    rw [exec_bind_of_ok perform hx]
    have hrest := (along_seq hf).2 hx
    cases hfound : h.world.db.findContact aliasId email.normalised with
    | some c => exact ⟨c, h.skip, rfl, fun d hd => Or.inl hd⟩
    | none =>
        rw [hfound] at hrest
        dsimp only at hrest ⊢
        obtain ⟨hid, hrest⟩ := along_seq hrest
        have hrest := hrest (exec_newUuid h.skip)
        obtain ⟨htoken, -⟩ := along_seq hrest
        rw [exec_bind_of_ok perform (exec_newUuid h.skip), exec_bind_of_ok perform
          (exec_randomToken 12 _), exec_bind_of_ok perform (exec_utcNow _)]
        generalize hnew : (Contact.mk h.skip.chance.uuid aliasId email.normalised name
          (composeReverseAlias settings.reverseAliasPrefix
            (tokenOf fun i : Fin 12 => h.skip.skip.chance.symbol i) settings.defaultDomain)
          h.skip.skip.skip.chance.now.toRfc3339) = c
        have hcid : c.contactId = h.skip.chance.uuid := by rw [← hnew]
        have hcalias : c.aliasId = aliasId := by rw [← hnew]
        have hcemail : c.email = email.normalised := by rw [← hnew]
        have hcreverse : c.reverseAlias = composeReverseAlias settings.reverseAliasPrefix
          (tokenOf fun i : Fin 12 => h.skip.skip.chance.symbol i) settings.defaultDomain := by
          rw [← hnew]
        rw [← hcalias, ← hcemail] at hfound ⊢
        have hdb := Db.insertContact_total hfound (by rw [hcid]; exact hid.1.1)
          (by rw [hcreverse]; exact htoken.1.1) (by rw [hcalias]; exact halias)
        have hwrite := exec_write_ok h.skip.skip.skip.skip (u := .insertContact c) (hc _) hdb
        rw [exec_bind_of_ok perform (exec_context_ok hwrite)]
        generalize ht : Host.after h.skip.skip.skip.skip _ = t
        have hct : Calm t := by rw [← ht]; exact hc
        have hdbt :
            t.world.db = { h.world.db with contacts := h.world.db.contacts ++ [c] } := by
          rw [← ht]
          rfl
        rcases give_cases (exec_findContact c.aliasId c.email t) with ⟨hbad, -⟩ | ⟨-, hx'⟩
        · cases hbad.symm.trans (hct _)
        · rw [exec_bind_of_ok perform hx', hdbt, Db.findContact_added hfound]
          refine ⟨c, t.skip, rfl, fun d hd => ?_⟩
          rw [Host.skip_world, hdbt] at hd
          rcases List.mem_append.mp hd with hd | hd
          · exact Or.inl hd
          · rw [List.mem_singleton.mp hd, hcreverse]
            exact Or.inr htoken.1.2

end Weiterleitung
