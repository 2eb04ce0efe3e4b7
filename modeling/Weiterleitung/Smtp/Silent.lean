/-
# `Smtp.Silent` — an alias that is switched off

`route` looks at the switch of an alias, `forward` and `reply` queue the message some
operations later, and others act in between.  Still no call that begins while the alias is off
queues a message for it, until somebody switches it on:

    a recipient that is accepted leads to another alias       (`amids_routeOff`)
    and so does its message                                   (`amids_handleAllOff`)
    so the alias gets no more messages                        (`off_is_silent`)
-/
import Mathlib
import Weiterleitung.Smtp.Agree
import Weiterleitung.Smtp.Coherent
import Weiterleitung.Smtp.Handle

namespace Weiterleitung

open Text Prog

/-! ## What leaves an alias off -/

/-- The alias is not switched on, none gets its identifier, and no message is queued for it. -/
def LeavesOff (aliasId : Str) : Op → Prop
  | .write (.insertAlias a) => a.aliasId ≠ aliasId
  | .write (.setAliasEnabled i enabled) => i = aliasId → enabled = false
  | .write (.insertOutbox row) => row.aliasId ≠ some aliasId
  | _ => True

/-- The messages of an alias. -/
def Db.mailOf (aliasId : Str) (db : Db) : List Str :=
  (db.outbox.filter fun row => row.aliasId = some aliasId).map (·.messageId)

section
variable {settings : AliasSettings} {aliasId : Str} {db db' : Db}

/-- Aliases keep what they are, and their switches where they are off. -/
def Kin (a b : Alias) : Prop := b.aliasId = a.aliasId ∧ b.address = a.address ∧
  (b.enabled = false → a.enabled = false)

theorem Kin.refl (a : Alias) : Kin a a := ⟨rfl, rfl, id⟩

theorem kin_of_write {u : Write} (hu : u.apply db = some db')
    (ho : LeavesOff aliasId (.write u)) :
    ∀ a ∈ db'.aliases, a.aliasId = aliasId → ∃ b ∈ db.aliases, Kin a b := by
  intro a ha hid
  have hmapped : ∀ f : Alias → Alias, a ∈ db.aliases.map f →
      (∀ b, (f b).aliasId = aliasId → Kin (f b) b) →
      ∃ b ∈ db.aliases, Kin a b := by
    intro f hmem hf
    obtain ⟨b, hb, rfl⟩ := List.mem_map.mp hmem
    exact ⟨b, hb, hf b hid⟩
  cases u with
  | insertAlias new =>
      obtain ⟨-, -, rfl⟩ := Db.insertAlias_eq_some hu
      rcases List.mem_append.mp ha with ha | ha
      · exact ⟨a, ha, .refl a⟩
      · exact absurd (List.mem_singleton.mp ha ▸ hid) ho
  | setAliasEnabled i enabled =>
      cases hu
      refine hmapped _ ha fun b hb => ?_
      split
      · next hi => exact ⟨rfl, rfl, fun _ => ho (hi ▸ by simpa [hi] using hb)⟩
      · exact .refl b
  | recordAliasActivity i counter now =>
      cases hu
      refine hmapped _ ha fun b _ => ?_
      split <;> [cases counter; skip] <;> exact .refl b
  | insertMailbox m =>
      obtain ⟨_, -, -, rfl⟩ := Db.insertMailbox_eq_some hu
      exact ⟨a, ha, .refl a⟩
  | insertContact c =>
      rcases Db.insertContact_eq_some hu with ⟨-, rfl⟩ | ⟨-, -, -, rfl⟩
      · exact ⟨a, ha, .refl a⟩
      · exact ⟨a, ha, .refl a⟩
  | insertOutbox row =>
      obtain ⟨-, rfl⟩ := Db.insertOutbox_eq_some hu
      exact ⟨a, ha, .refl a⟩
  | deleteMailbox | deleteAlias =>
      cases hu
      exact ⟨a, List.mem_of_mem_filter ha, .refl a⟩
  | requeueInterrupted | markDelivered | markFailed | markPending =>
      cases hu
      exact ⟨a, ha, .refl a⟩

theorem kin_of_answer {o : Op} (ho : LeavesOff aliasId o) (c : Chance) (w : World) :
    ∀ a ∈ (answer o c w).2.db.aliases, a.aliasId = aliasId → ∃ b ∈ w.db.aliases, Kin a b := by
  rcases answer_db_cases o c w with he | ⟨u, rfl, hu⟩ | ⟨now, n, rfl, f, -, he⟩
  · rw [he]
    exact fun a ha _ => ⟨a, ha, .refl a⟩
  · exact kin_of_write hu ho
  · rw [he]
    exact fun a ha _ => ⟨a, ha, .refl a⟩

/-- Rows that change, or lose their alias, are no new messages. -/
theorem mailOf_map {g : OutboxRow → OutboxRow} (hrows : db'.outbox = db.outbox.map g)
    (hg : ∀ row, (g row).messageId = row.messageId ∧
      ((g row).aliasId = some aliasId → row.aliasId = some aliasId)) :
    (db'.mailOf aliasId).Sublist (db.mailOf aliasId) := by
  have hids : (OutboxRow.messageId ∘ g) = OutboxRow.messageId := funext fun row => (hg row).1
  unfold Db.mailOf
  rw [hrows, List.filter_map, List.map_map]
  change (List.map (OutboxRow.messageId ∘ g) _).Sublist _
  rw [hids]
  refine List.Sublist.map _ (List.monotone_filter_right _ fun row hrow => ?_)
  exact decide_eq_true ((hg row).2 (of_decide_eq_true hrow))

theorem mailOf_answer {o : Op} (ho : LeavesOff aliasId o) (c : Chance) (w : World) :
    ((answer o c w).2.db.mailOf aliasId).Sublist (w.db.mailOf aliasId) := by
  rcases answer_db_cases o c w with he | ⟨u, rfl, hu⟩ | ⟨now, n, rfl, f, hf, he⟩
  · rw [he]
  · generalize (answer (.write u) c w).2.db = db' at hu ⊢
    cases effect_of_write hu with
    | removes p mailboxes =>
        refine mailOf_map rfl fun row => ⟨rfl, fun hid => ?_⟩
        exact (Option.filter_eq_some_iff.mp hid).1
    | updates _ _ f g _ hg =>
        refine mailOf_map rfl fun row => ?_
        obtain ⟨_, _, _, _, _, hrow⟩ := hg row
        rw [hrow]
        exact ⟨rfl, id⟩
    | addsAlias | addsContact => exact List.Sublist.refl _
    | addsRow row =>
        unfold Db.mailOf
        rw [List.filter_append, List.filter_singleton, decide_eq_false ho]
        simp
  · rw [he]
    refine mailOf_map rfl fun row => ?_
    obtain ⟨status, hrow⟩ := hf row
    rw [hrow]
    exact ⟨rfl, id⟩

end

/-- The alias is off, if it is there at all; once gone it stays gone,
and it gets no messages. -/
def offRules (settings : AliasSettings) (aliasId address : Str) :
    Rules Op Res Chance World where
  answer := answer
  inv w := Wf settings w.db ∧ ∀ a ∈ w.db.aliases, a.aliasId = aliasId →
    a.address = address ∧ a.enabled = false
  rely w w' :=
    (∀ a ∈ w'.db.aliases, a.aliasId = aliasId → ∃ b ∈ w.db.aliases, b.aliasId = aliasId) ∧
    (w'.db.mailOf aliasId).Sublist (w.db.mailOf aliasId)
  may o _ := Legal settings o ∧ LeavesOff aliasId o
  fair _ _ _ := True
  refl w := ⟨fun a ha hid => ⟨a, ha, hid⟩, .refl _⟩
  trans h h' := by
    refine ⟨fun a ha hid => ?_, h'.2.trans h.2⟩
    obtain ⟨b, hb, hbid⟩ := h'.1 a ha hid
    exact h.1 b hb hbid
  step {o c w} h ho _ := by
    have hkin := kin_of_answer ho.2 c w
    refine ⟨⟨wf_of_legal ho.1 c h.1, fun a ha hid => ?_⟩, fun a ha hid => ?_,
      mailOf_answer ho.2 c w⟩
    · obtain ⟨b, hb, hbid, haddress, henabled⟩ := hkin a ha hid
      obtain ⟨hsame, hoff⟩ := h.2 b hb (hbid.trans hid)
      exact ⟨haddress.symm.trans hsame, henabled hoff⟩
    · obtain ⟨b, hb, hbid, -⟩ := hkin a ha hid
      exact ⟨b, hb, hbid.trans hid⟩

theorem onStore_offRules (settings : AliasSettings) (aliasId address : Str) :
    OnStore settings (offRules settings aliasId address) id where
  answer _ _ _ := rfl
  world _ _ _ := rfl
  may o _ ho hrow := by
    refine ⟨legal_of_routing o ho, ?_⟩
    unfold LeavesOff
    split
    · exact ho.elim
    · exact ho.elim
    · exact hrow.elim
    · trivial

/-! ## What a call queues -/

/-- The route leads to another alias, and will go on to do so. -/
def Spares (aliasId address : Str) (w : World) : Route → Prop
  | .forward i _ => i ≠ aliasId
  | .reply _ aliasAddress _ =>
      IsNormalised aliasAddress ∧
        (aliasAddress = address → ∀ a ∈ w.db.aliases, a.aliasId ≠ aliasId)

namespace AliasRouter

variable (router : AliasRouter) {aliasId address : Str} {w : World}

theorem amids_lookUpContact (reverse : EmailAddress) (w : World) :
    (offRules router.aliases aliasId address).Amids
      (fun found t => ∀ contact, found = some contact →
        contact.aliasEnabled = true → Spares aliasId address t
          (.reply contact.toContact.contactId contact.aliasAddress contact.toContact.email))
      (findContactByReverseAlias reverse) w := by
  refine Rules.amid_op fun t _ ht =>
    ⟨⟨trivial, trivial⟩, fun chance _ _ _ found hfound contact hcontact henabled => ?_⟩
  subst hcontact
  obtain ⟨-, -, a, ha, haddress, hswitch, -⟩ :=
    Db.findContactByReverseAlias_some (give_ok hfound)
  have hmem : a ∈ t.db.aliases := List.mem_of_find?_eq_some ha
  refine ⟨haddress ▸ ht.1.aliasForms a hmem, fun hsame b hb hid => ?_⟩
  -- the alias of the contact is on
  obtain ⟨hbaddress, hboff⟩ := ht.2 b hb hid
  have haddresses : a.address = b.address := haddress.symm.trans (hsame.trans hbaddress.symm)
  obtain rfl : a = b := List.inj_on_of_nodup_map ht.1.addresses hmem hb haddresses
  cases hboff.symm.trans (hswitch.symm.trans henabled)

theorem amids_lookUpAlias (to_ : EmailAddress) (w : World) :
    (offRules router.aliases aliasId address).Amids (fun found t => ∀ f, found = some f →
        f.toAlias.enabled = true →
        Spares aliasId address t (.forward f.toAlias.aliasId f.toAlias.address))
      (findAliasByAddress to_) w := by
  refine Rules.amids_later
    ((onStore_offRules router.aliases aliasId address).amids_findAliasByAddress to_ w)
    fun found t _ hfound f hf henabled hid => ?_
  obtain ⟨ht, hmem, -⟩ := hfound f hf
  cases henabled.symm.trans (ht.2 f.toAlias hmem hid).2

/-- A recipient that is accepted leads to another alias. -/
theorem amids_routeOff (mailFrom recipient : Str) (w : World) :
    (offRules router.aliases aliasId address).Amids (fun r t => Spares aliasId address t r)
      (router.route mailFrom recipient) w := by
  unfold route
  refine Rules.amids_seq (m := fun _ _ => True) (Rules.amids_computed fun _ _ => trivial)
    fun to_ w _ _ => ?_
  split
  · exact Rules.amids_throw _ _
  refine Rules.amids_seq (Rules.amids_mapErr (router.amids_lookUpContact to_ w))
    fun found w _ hfound => ?_
  cases found with
  | some contact =>
      dsimp only
      split
      · exact Rules.amids_throw _ _
      · split
        · exact Rules.amids_throw _ _
        · next hon => exact Rules.amids_pure (hfound contact rfl (by simpa using hon))
  | none =>
      refine Rules.amids_seq (Rules.amids_mapErr (router.amids_lookUpAlias to_ w))
        fun found w _ hfound => ?_
      cases found with
      | none => exact Rules.amids_throw _ _
      | some found =>
          dsimp only
          split
          · exact Rules.amids_seq (Rules.amids_lift (Rules.amid_of_amids
              ((onStore_offRules router.aliases aliasId address).amids_recordAliasActivity _ _
                _)))
              fun _ _ _ _ => Rules.amids_throw _ _
          · next hon => exact Rules.amids_pure (hfound found rfl (by simpa using hon))

theorem amids_enqueueOff (mailDir : Str) (message : NewOutboundMessage)
    (hother : message.aliasId ≠ some aliasId)
    (w : World) :
    (offRules router.aliases aliasId address).Amids
      (fun _ _ => True) (enqueue mailDir message) w :=
  (onStore_offRules router.aliases aliasId address).amids_enqueue mailDir message
    fun _ _ _ _ _ => ⟨⟨rfl, rfl⟩, hother⟩

theorem amids_queueForwardOff {i : Str} (aliasAddress : Str) (envelope : Envelope)
    (hother : i ≠ aliasId) (w : World) :
    (offRules router.aliases aliasId address).Amids (fun _ _ => True)
      (router.queueForward i aliasAddress envelope) w := by
  have hstore := onStore_offRules router.aliases aliasId address
  unfold queueForward
  refine Rules.amids_seq (m := fun _ _ => True) (Rules.amids_computed fun _ _ => trivial)
    fun to_ w _ _ => ?_
  refine Rules.amids_seq (hstore.amids_findAliasByAddress to_ w) fun found w _ _ => ?_
  cases found with
  | none => exact Rules.amids_throw _ _
  | some found =>
      refine Rules.amids_seq (m := fun _ _ => True) (Rules.amids_computed fun _ _ => trivial)
        fun sender w _ _ => ?_
      refine Rules.amids_seq (hstore.amids_getOrCreateContact _ _ _ _) fun contact w _ _ => ?_
      refine Rules.amids_seq
        (router.amids_enqueueOff _ _ (fun h => hother (Option.some.inj h)) w) fun _ _ _ _ => ?_
      exact Rules.amids_pure trivial

/-- Whatever alias has the address by then, it is not the one that is off. -/
theorem amids_queueReplyOff {contactId aliasAddress contactEmail : Str} (envelope : Envelope)
    (hspares : Spares aliasId address w (.reply contactId aliasAddress contactEmail)) :
    (offRules router.aliases aliasId address).Amids (fun _ _ => True)
      (router.queueReply contactId aliasAddress contactEmail envelope) w := by
  obtain ⟨⟨e, rfl⟩, hgone⟩ := hspares
  unfold queueReply
  refine Rules.amids_seq (m := fun to_ t => EmailAddress.parse e.normalised = .ok to_ ∧ t = w)
    (Rules.amids_computed fun to_ hparse => ⟨hparse, rfl⟩) ?_
  rintro to_ w₁ - ⟨hparse, rfl⟩
  refine Rules.amids_seq (m := fun found _ => ∀ f, found = some f →
    f.toAlias.aliasId ≠ aliasId) ?_ ?_
  · refine Rules.amids_later
      ((onStore_offRules router.aliases aliasId address).amids_findAliasByAddress to_ w₁)
      fun found t hrely hfound f hf hid => ?_
    obtain ⟨ht, hmem, hsame, -⟩ := hfound f hf
    rw [EmailAddress.normalised_of_parse_normalised hparse] at hsame
    obtain ⟨b, hb, hbid⟩ := hrely.1 f.toAlias hmem hid
    exact hgone (hsame.symm.trans (ht.2 f.toAlias hmem hid).1) b hb hbid
  · intro found w _ hother
    refine Rules.amids_seq (router.amids_enqueueOff _ _ (fun h => ?_) w) fun _ _ _ _ =>
      Rules.amids_pure trivial
    obtain ⟨f, hf, hid⟩ := Option.map_eq_some_iff.mp h
    exact hother f hf hid

theorem amids_handleRecipientOff (envelope : Envelope) (recipient : Str) (w : World) :
    (offRules router.aliases aliasId address).Amids (fun _ _ => True)
      (router.handleRecipient envelope recipient) w := by
  have hstore := onStore_offRules router.aliases aliasId address
  unfold handleRecipient
  refine Rules.amids_seq (Rules.amids_mapErr (router.amids_routeOff _ _ w))
    fun route w _ hspares => ?_
  cases route with
  | forward i aliasAddress =>
      refine Rules.amids_mapErr (Rules.amids_seq (router.amids_queueForwardOff _ _ hspares w)
        fun _ w _ _ => ?_)
      exact hstore.amids_recordAliasActivity _ _ w
  | reply contactId aliasAddress contactEmail =>
      refine Rules.amids_mapErr (Rules.amids_seq (router.amids_queueReplyOff _ hspares)
        fun found w _ _ => ?_)
      cases found with
      | none => exact Rules.amids_pure trivial
      | some i => exact hstore.amids_recordAliasActivity _ _ w

theorem amids_handleAllOff (envelope : Envelope) (recipients : List Str) : ∀ w : World,
    (offRules router.aliases aliasId address).Amids
      (fun _ _ => True) (router.handleAll envelope recipients) w := by
  induction recipients with
  | nil => exact fun w => Rules.amids_pure trivial
  | cons recipient recipients ih =>
      exact fun w => Rules.amids_seq (router.amids_handleRecipientOff _ _ w)
        fun _ w _ _ => ih w

end AliasRouter

/-! ## Every order of operations -/

/-- What begins while the alias is off: calls of the router, and whatever leaves it off. -/
def Begins (router : AliasRouter) (aliasId : Str) (p : Prog Op Res Unit) : Prop :=
  MailTask router p ∨ Uses (fun o => Legal router.aliases o ∧ LeavesOff aliasId o) p

theorem amid_begins {router : AliasRouter} {aliasId address : Str} {p : Prog Op Res Unit}
    (hp : Begins router aliasId p) (w : World) :
    (offRules router.aliases aliasId address).Amid (fun _ _ => True) p w := by
  rcases hp with hp | hp
  · cases hp with
    | handle envelope =>
        exact Rules.amid_bind (Rules.amid_of_amids (router.amids_handleAllOff envelope _ w))
          fun _ _ _ _ => trivial
    | verifyRecipient mailFrom recipient =>
        exact Rules.amid_bind
          ((onStore_offRules router.aliases aliasId address).amid_verifyRecipient router
            mailFrom
          recipient w) fun _ _ _ _ => trivial
  · exact Rules.amid_of_uses (fun _ _ ho => ho) hp w

/-- No call that begins while an alias is off queues a message for it.  Whatever begins from
then on, in every order of operations and whichever of them fail, as long as nobody switches it
on: the messages of the alias are those it had, and it is off if it is still there. -/
theorem off_is_silent (router : AliasRouter) {w : World}
    (hreach : Reachable router.aliases w.db) {a : Alias}
    (ha : a ∈ w.db.aliases) (hoff : a.enabled = false) {s : Crew Op Res World Unit}
    (hrun : Crew.Run (offRules router.aliases a.aliasId a.address) (Begins router a.aliasId)
      (fun _ _ => False) ⟨w, []⟩ s) :
    (s.state.db.mailOf a.aliasId).Sublist (w.db.mailOf a.aliasId) ∧
      ∀ b ∈ s.state.db.aliases, b.aliasId = a.aliasId → b.address = a.address ∧
        b.enabled = false := by
  have hinv : (offRules router.aliases a.aliasId a.address).inv w := by
    refine ⟨hreach.wf, fun b hb hid => ?_⟩
    obtain rfl : b = a := List.inj_on_of_nodup_map hreach.wf.aliasIds hb ha hid
    exact ⟨rfl, hoff⟩
  obtain ⟨hsound, hrely⟩ := Crew.sound_run (fun p hp t _ => amid_begins hp t)
    (fun _ _ _ h => h.elim) (Crew.sound_start hinv) hrun
  exact ⟨hrely.2, hsound.inv.2⟩

/-! ### One message before, and one after -/

/-- A message to `shop@example.com`. -/
def toShop (mailFrom : Str) : Envelope := ⟨mailFrom, ["shop@example.com".toList], []⟩

/-- The machine of `sampleHost` forwards a message, and the alias is switched off. -/
def muted : World :=
  (answer (.write (.setAliasEnabled ['3'] false)) (Chance.calm 9)
    (exec perform (AliasRouter.sample.handle (toShop "a@shop.example"))
      AliasRouter.sampleHost).2.world).2

theorem reachable_muted : Reachable AliasRouter.sample.aliases muted.db := by
  have hhandle : Uses (Legal AliasRouter.sample.aliases)
      (AliasRouter.sample.handle (toShop "a@shop.example")).run :=
    uses_mono legal_of_routing (AliasRouter.uses_handleAll _ _ _)
  exact ((AliasRouter.reachable_sampleHost _).trans (later_exec hhandle _)).step _
    (.write (.setAliasEnabled ['3'] false)) (Chance.calm 9) trivial

/-- Another message comes in. -/
def mutedCall : Crew Op Res World Unit :=
  ⟨muted, [(AliasRouter.sample.handle (toShop "b@shop.example")).run >>= fun _ => .ret ()]⟩

def afterCall : Crew Op Res World Unit :=
  ((List.range 6).map fun n => (0, Chance.calm (20 + n))).foldl
    (Crew.turnOf (offRules AliasRouter.sample.aliases ['3'] "shop@example.com")) mutedCall

theorem run_afterCall : Crew.Run (offRules AliasRouter.sample.aliases ['3'] "shop@example.com")
    (Begins AliasRouter.sample ['3']) (fun _ _ => False) ⟨muted, []⟩ afterCall :=
  .trans (.single (.join _ _ (.inl (.handle _))))
    (Crew.run_turns _ _ (Crew.fairTurns_of_fair (fun _ _ _ => trivial) _ _))

/-- The other message is blocked, and the alias has the one it had. -/
theorem off_is_silent_muted : muted.db.mailOf ['3'] = [['1', '6']] ∧
    afterCall.state.db.aliases.map (fun a => (a.forwardCount, a.blockedCount)) = [(1, 1)] ∧
    (afterCall.state.db.mailOf ['3']).Sublist [['1', '6']] := by
  have hmail : muted.db.mailOf ['3'] = [['1', '6']] := by decide +kernel
  have hthere : ∃ a ∈ muted.db.aliases, a.enabled = false ∧ a.aliasId = ['3'] ∧
      a.address = "shop@example.com" := by
    decide +kernel
  obtain ⟨a, ha, hoff, hid, haddress⟩ := hthere
  obtain ⟨hsilent, -⟩ := off_is_silent AliasRouter.sample reachable_muted ha hoff
    (s := afterCall) (by
    rw [hid, haddress]
    exact run_afterCall)
  rw [hid, hmail] at hsilent
  exact ⟨hmail, by decide +kernel, hsilent⟩

end Weiterleitung
