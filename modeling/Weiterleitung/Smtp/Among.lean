/-
# `Smtp.Among` — the steps of the router, whatever happens between them

Under any rules for programs on a store (`OnStore`) the code of the router finds what the
tables hold at that moment, and no more can be said of it afterwards than the rules let one
rely on. So each lemma here says what is found where it is found:

    a route is that of an alias or a contact in the tables  (`OnStore.amids_route`)
    the alias of an address has that address                (`OnStore.amids_findAliasByAddress`)
    a message is queued by its row                          (`OnStore.amids_enqueue`)
-/
import Mathlib
import Weiterleitung.Smtp.Router
import Weiterleitung.Store.Contacts

namespace Weiterleitung

open Text Prog

variable {σ : Type} {settings : AliasSettings} {R : Rules Op Res Chance σ} {world : σ → World}

namespace OnStore

theorem amids_recordAliasActivity (h : OnStore settings R world) (aliasId : Str)
    (counter : AliasCounter) (s : σ) :
    R.Amids (fun _ _ => True) (recordAliasActivity aliasId counter) s := by
  unfold recordAliasActivity
  refine Rules.amids_seq (Rules.amids_lift (h.amid_routing (o := .now) trivial trivial s))
    fun now s _ _ => ?_
  exact Rules.amids_any
    (h.amid_routing (o := .write (.recordAliasActivity aliasId counter now.toRfc3339))
      trivial trivial s)

/-- The row is inserted last; until then only what can be relied on is left. -/
theorem amids_enqueue (h : OnStore settings R world) (mailDir : Str)
    (message : NewOutboundMessage) {s : σ} (hrow : ∀ messageId now t, R.rely s t → R.inv t →
      R.may (.write (.insertOutbox (message.row mailDir messageId now))) t) :
    R.Amids (fun _ _ => True) (enqueue mailDir message) s := by
  unfold enqueue
  refine Rules.amids_seq (Rules.amids_mapErr (Rules.amids_any
    (h.amid_routing (o := .createDirAll mailDir) trivial trivial _))) fun _ s₁ h₁ _ => ?_
  refine Rules.amids_seq (Rules.amids_lift (h.amid_routing (o := .uuid) trivial trivial _))
    fun messageId s₂ h₂ _ => ?_
  refine Rules.amids_seq (Rules.amids_mapErr (Rules.amids_any
    (h.amid_routing (o := .writeFile _ message.raw) trivial trivial _))) fun _ s₃ h₃ _ => ?_
  refine Rules.amids_seq (Rules.amids_lift (h.amid_routing (o := .now) trivial trivial _))
    fun now s₄ h₄ _ => ?_
  refine Rules.amids_seq (Rules.amids_mapErr (Rules.amids_any ?_)) fun _ _ _ _ =>
    Rules.amids_pure trivial
  refine Rules.amid_op fun s₅ h₅ hs => ⟨hrow messageId _ s₅ ?_ hs, fun _ _ _ _ => trivial⟩
  exact R.trans h₁ (R.trans h₂ (R.trans h₃ (R.trans h₄ h₅)))

theorem amids_findAliasByAddress (h : OnStore settings R world)
    (address : EmailAddress) (s : σ) :
    R.Amids (fun found t => ∀ f, found = some f → R.inv t ∧ f.toAlias ∈ (world t).db.aliases ∧
        f.toAlias.address = address.normalised ∧ ∃ m ∈ (world t).db.mailboxes,
        f.mailboxEmail = m.email)
      (findAliasByAddress address) s := by
  refine Rules.amid_op fun t _ _ =>
    ⟨h.may _ t trivial trivial, fun chance _ hinv _ found hfound f hf => ⟨hinv, ?_⟩⟩
  subst hf
  rw [h.answer] at hfound
  rw [h.world]
  obtain ⟨hmem, haddress, m, hm, hemail⟩ := Db.findAliasByAddress_some (give_ok hfound)
  exact ⟨hmem, haddress, m, (Db.mailboxOf_some hm).1, hemail⟩

end OnStore

/-- What a route was read from. -/
def Route.Found : Route → Db → Prop
  | .forward aliasId aliasAddress, db =>
      ∃ a ∈ db.aliases, a.aliasId = aliasId ∧ a.address = aliasAddress
  | .reply contactId aliasAddress contactEmail, db =>
      ∃ c ∈ db.contacts, c.contactId = contactId ∧
          c.email = contactEmail ∧ ∃ a ∈ db.aliases, a.aliasId = c.aliasId ∧
          a.address = aliasAddress

namespace OnStore

theorem amids_findContactByReverseAlias (h : OnStore settings R world)
    (address : EmailAddress) (s : σ) :
    R.Amids (fun found t => ∀ contact, found = some contact → R.inv t ∧
        (Route.reply contact.toContact.contactId contact.aliasAddress
          contact.toContact.email).Found (world t).db)
      (findContactByReverseAlias address) s := by
  refine Rules.amid_op fun t _ _ =>
    ⟨h.may _ t trivial trivial,
      fun chance _ hinv _ found hfound contact hcontact => ⟨hinv, ?_⟩⟩
  subst hcontact
  rw [h.answer] at hfound
  rw [h.world]
  obtain ⟨hc, -, a, ha, haddress, -, -⟩ := Db.findContactByReverseAlias_some (give_ok hfound)
  have hid : a.aliasId = contact.toContact.aliasId := by simpa using List.find?_some ha
  exact ⟨_, hc, rfl, rfl, a, List.mem_of_find?_eq_some ha, hid, haddress.symm⟩

/-- A recipient that is routed has just been found. -/
theorem amids_route (router : AliasRouter) (h : OnStore router.aliases R world)
    (mailFrom recipient : Str) (s : σ) :
    R.Amids (fun r t => R.inv t ∧ r.Found (world t).db)
      (router.route mailFrom recipient) s := by
  unfold AliasRouter.route
  refine Rules.amids_seq (m := fun _ _ => True) (Rules.amids_computed fun _ _ => trivial)
    fun address s _ _ => ?_
  split
  · exact Rules.amids_throw _ _
  refine Rules.amids_seq (Rules.amids_mapErr (h.amids_findContactByReverseAlias address s))
    fun found s _ hfound => ?_
  cases found with
  | some contact =>
      dsimp only
      split
      · exact Rules.amids_throw _ _
      · split
        · exact Rules.amids_throw _ _
        · exact Rules.amids_pure (hfound contact rfl)
  | none =>
      refine Rules.amids_seq (Rules.amids_mapErr (h.amids_findAliasByAddress address s))
        fun found s _ hfound => ?_
      cases found with
      | none => exact Rules.amids_throw _ _
      | some found =>
          dsimp only
          split
          · exact Rules.amids_seq
              (Rules.amids_lift (Rules.amid_of_amids (h.amids_recordAliasActivity _ _ _)))
              fun _ _ _ _ => Rules.amids_throw _ _
          · obtain ⟨hinv, hmem, -, -⟩ := hfound found rfl
            exact Rules.amids_pure ⟨hinv, found.toAlias, hmem, rfl, rfl⟩

theorem amid_verifyRecipient (router : AliasRouter) (h : OnStore router.aliases R world)
    (mailFrom recipient : Str) (s : σ) :
    R.Amid (fun _ _ => True) (router.verifyRecipient mailFrom recipient) s := by
  unfold AliasRouter.verifyRecipient
  refine Rules.amid_bind (Rules.amid_of_amids (h.amids_route router mailFrom recipient s))
    fun r s _ _ => ?_
  cases r <;> trivial

end OnStore

end Weiterleitung
