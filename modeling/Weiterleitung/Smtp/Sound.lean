/-
# `Smtp.Sound` — what the turn of a recipient needs

The turn of a recipient ends in an error for two reasons only.  The tables do not give what it
needs: a route, an address of the alias that parses, for a forward the address of a sender
(`Sound`).  Or one of its operations fails.

    a message is placed
      ⟺  its recipient is sound and no operation fails        (`place_ok_iff`)
    its turn makes contacts under drawn reverse aliases only   (`handleRecipient_drawn`)
    a recipient none of them names is as sound as before       (`sound_iff_of_drawn`)
-/
import Mathlib
import Weiterleitung.Smtp.Turn
import Weiterleitung.Store.Luck

namespace Weiterleitung

open Text Prog

namespace AliasRouter

variable {router : AliasRouter}

/-- Is there an address for the sender?  Only a forward asks. -/
def NamesSender (envelope : Envelope) : Route → Prop
  | .forward _ _ => ∃ sender, envelopeSender envelope.mailFrom
      (headerValue (splitHeadersBody envelope.data).1 "from") = .ok sender
  | .reply _ _ _ => True

/-- Does the stored address of the alias parse? -/
def AliasParses (r : Route) :
    Prop := ∃ address, EmailAddress.parse r.aliasAddress = .ok address

/-- From these tables the message can be queued for the recipient. -/
def Sound (router : AliasRouter) (envelope : Envelope) (db : Db) (recipient : Str) : Prop :=
  ∃ r, router.resolve envelope.mailFrom recipient db = .ok r ∧ AliasParses r ∧
    NamesSender envelope r

/-! ## Operations that fail -/

theorem strict_route (router : AliasRouter) (mailFrom recipient : Str) :
    Strict Op.failed (router.route mailFrom recipient).run := by
  unfold route
  refine strict_seq trivial fun address => ?_
  split
  · trivial
  · refine strict_seq (strict_mapErr (strict_findContactByReverseAlias _)) fun contact => ?_
    cases contact with
    | some contact =>
        dsimp only
        split
        · trivial
        · split <;> trivial
    | none =>
        refine strict_seq (strict_mapErr (strict_findAliasByAddress _)) fun found => ?_
        cases found with
        | none => trivial
        | some found =>
            dsimp only
            split
            · -- whether the block is counted or not, the mail is refused
              exact fun _ => ⟨fun _ _ => ⟨_, rfl⟩, fun _ => ⟨fun _ => ⟨_, rfl⟩, trivial⟩⟩
            · trivial

theorem strict_queueRoute (router : AliasRouter) (envelope : Envelope) (r : Route) :
    Strict Op.failed (router.queueRoute envelope r).run := by
  cases r with
  | forward aliasId aliasAddress =>
      unfold queueRoute queueForward
      refine strict_seq ?_ fun _ => trivial
      refine strict_seq trivial fun address => ?_
      refine strict_seq (strict_findAliasByAddress _) fun found => ?_
      cases found with
      | none => trivial
      | some found =>
          refine strict_seq trivial fun sender => ?_
          refine strict_seq (strict_getOrCreateContact _ _ _ _ _) fun c => ?_
          exact strict_seq (strict_enqueue _ _) fun _ => trivial
  | reply contactId aliasAddress contactEmail =>
      unfold queueRoute queueReply
      refine strict_seq ?_ fun _ => trivial
      refine strict_seq trivial fun address => ?_
      refine strict_seq (strict_findAliasByAddress _) fun found => ?_
      exact strict_seq (strict_enqueue _ _) fun _ => trivial

theorem strict_place (router : AliasRouter) (envelope : Envelope) (recipient : Str) :
    Strict Op.failed (router.place envelope recipient).run :=
  strict_seq (strict_mapErr (strict_route _ _ _))
    fun _ => strict_mapErr (strict_queueRoute _ _ _)

theorem strict_count (q : Option (Str × AliasCounter)) : Strict Op.failed (count q).run := by
  cases q with
  | none => trivial
  | some q => exact strict_mapErr (strict_recordAliasActivity _ _)

theorem sure_count (q : Option (Str × AliasCounter)) : Sure Op.failed (count q).run := by
  cases q with
  | none => exact ⟨(), rfl⟩
  | some q => exact sure_mapErr (sure_recordAliasActivity _ _)

theorem strict_handleRecipient (router : AliasRouter) (envelope : Envelope) (recipient : Str) :
    Strict Op.failed (router.handleRecipient envelope recipient).run := by
  rw [handleRecipient_eq]
  exact strict_seq (strict_place _ _ _) strict_count

theorem strict_handleAll (router : AliasRouter) (envelope : Envelope) :
    ∀ recipients : List Str, Strict Op.failed (router.handleAll envelope recipients).run
  | [] => trivial
  | _ :: recipients =>
      strict_seq (strict_handleRecipient _ _ _)
        fun _ => strict_handleAll router envelope recipients

/-! ## Turns that succeed -/

/-- Where no operation of `route` fails, no lookup does. -/
theorem not_lookupFails_of_unfailing {mailFrom recipient : Str} {h : Host}
    (hu : Unfailing (router.route mailFrom recipient) h) :
    ¬ router.LookupFails recipient h := by
  rintro ⟨address, hparse, hown, hfails⟩
  unfold Unfailing route at hu
  rw [hparse] at hu
  have hu := (along_seq hu).2 (exec_computed perform _ h)
  rw [hown] at hu
  obtain ⟨hfirst, hu⟩ := along_seq hu
  obtain ⟨hcalm, hlookup⟩ := exec_of_unfailing (exec_findContactByReverseAlias address h)
    (fun _ => sure_answer) (along_mapErr hfirst)
  rcases hfails with hfails | ⟨hnone, hfails⟩
  · cases hcalm.symm.trans hfails
  · have hu := hu (exec_mapErr_ok perform hlookup)
    rw [hnone] at hu
    obtain ⟨hcalm', -⟩ := exec_of_unfailing (exec_findAliasByAddress address h.skip)
      (fun _ => sure_answer) (along_mapErr (along_seq hu).1)
    cases hcalm'.symm.trans hfails

theorem route_of_unfailing {mailFrom recipient : Str} {r : Route} {h : Host}
    (hr : router.resolve mailFrom recipient h.world.db = .ok r)
    (hu : Unfailing (router.route mailFrom recipient) h) :
    ∃ t, exec perform (router.route mailFrom recipient) h = (.ok r, t) ∧
      t.world = h.world := by
  rcases route_cases router mailFrom recipient h with
    ⟨hfails, -⟩ | ⟨-, ⟨e, t, hr', -⟩ | ⟨r', t, hr', he, hworld⟩⟩
  · exact absurd hfails (not_lookupFails_of_unfailing hu)
  · cases hr.symm.trans hr'
  · cases hr.symm.trans hr'
    exact ⟨t, he, hworld⟩

/-- A message is queued for a route of the tables that has what it
needs, if no operation fails. -/
theorem queueRoute_of_unfailing {envelope : Envelope} {recipient : Str} {r : Route} {h : Host}
    (hr : router.resolve envelope.mailFrom recipient h.world.db = .ok r)
    (hparses : AliasParses r) (hnames : NamesSender envelope r)
    (hu : Unfailing (router.queueRoute envelope r) h) :
    ∃ q t, exec perform (router.queueRoute envelope r) h = (.ok q, t) := by
  obtain ⟨address', hparse⟩ := hparses
  cases r with
  | forward aliasId aliasAddress =>
      obtain ⟨address, found, -, -, -, hfound, -, rfl, rfl⟩ := resolve_forward hr
      change EmailAddress.parse found.toAlias.address = .ok address' at hparse
      obtain ⟨sender, hsender⟩ := hnames
      -- the alias is looked up again under its own address
      have hsame : address'.normalised = address.normalised :=
        EmailAddress.normalised_of_parse_normalised
          ((Db.findAliasByAddress_some hfound).2.1 ▸ hparse)
      have hu := (along_seq hu).1
      unfold queueForward at hu
      have hu := (along_seq hu).2 (exec_computed_ok perform hparse h)
      obtain ⟨hlookup, hu⟩ := along_seq hu
      obtain ⟨-, hx⟩ := exec_of_unfailing (exec_findAliasByAddress address' h)
        (fun _ => sure_answer) hlookup
      rw [hsame, hfound] at hx
      have hu := (along_seq (hu hx)).2 (exec_computed_ok perform hsender h.skip)
      obtain ⟨hcontact, hu⟩ := along_seq hu
      obtain ⟨c, t, hget⟩ := getOrCreateContact_of_unfailing hcontact
      obtain ⟨messageId, t', he⟩ := exec_of_sure (sure_enqueue _ _) (along_seq (hu hget)).1
      have hqueue :
          exec perform (router.queueForward found.toAlias.aliasId found.toAlias.address
          envelope) h = (.ok (), t') := by
        unfold queueForward
        rw [exec_bind_of_ok perform (exec_computed_ok perform hparse h),
          exec_bind_of_ok perform hx]
        dsimp only
        rw [exec_bind_of_ok perform (exec_computed_ok perform hsender h.skip),
          exec_bind_of_ok perform hget, exec_bind_of_ok perform he]
        rfl
      exact ⟨_, t', exec_bind_of_ok perform hqueue⟩
  | reply contactId aliasAddress contactEmail =>
      change EmailAddress.parse aliasAddress = .ok address' at hparse
      have hu := (along_seq hu).1
      unfold queueReply at hu
      have hu := (along_seq hu).2 (exec_computed_ok perform hparse h)
      obtain ⟨hlookup, hu⟩ := along_seq hu
      obtain ⟨-, hx⟩ := exec_of_unfailing (exec_findAliasByAddress address' h)
        (fun _ => sure_answer) hlookup
      obtain ⟨messageId, t, he⟩ := exec_of_sure (sure_enqueue _ _) (along_seq (hu hx)).1
      have hqueue :
          exec perform (router.queueReply contactId aliasAddress contactEmail envelope) h
          = (.ok ((h.world.db.findAliasByAddress address'.normalised).map (·.toAlias.aliasId)),
            t) := by
        unfold queueReply
        rw [exec_bind_of_ok perform (exec_computed_ok perform hparse h),
          exec_bind_of_ok perform hx, exec_bind_of_ok perform he]
        rfl
      exact ⟨_, t, exec_bind_of_ok perform hqueue⟩

/-- A message that was queued had what its route needs. -/
theorem needs_of_queueRoute {envelope : Envelope} {r : Route} {q : Option (Str × AliasCounter)}
    {h t : Host} (he : exec perform (router.queueRoute envelope r) h = (.ok q, t)) :
    AliasParses r ∧ NamesSender envelope r := by
  cases r with
  | forward aliasId aliasAddress =>
      unfold queueRoute at he
      rcases queueForward_cases router aliasId aliasAddress envelope h with
        ⟨e, w, he', -⟩ | ⟨address, _, sender, _, _, _, -, hparse, -, hsender, -⟩
      · cases (exec_bind_of_error perform he').symm.trans he
      · exact ⟨⟨address, hparse⟩, ⟨sender, hsender⟩⟩
  | reply contactId aliasAddress contactEmail =>
      unfold queueRoute at he
      rcases queueReply_cases router contactId aliasAddress contactEmail envelope h with
        ⟨e, w, he', -⟩ | ⟨address, _, _, -, hparse, -⟩
      · cases (exec_bind_of_error perform he').symm.trans he
      · exact ⟨⟨address, hparse⟩, trivial⟩

/-- A message is placed exactly if the tables give what its recipient needs
and no operation fails. -/
theorem place_ok_iff {envelope : Envelope} {recipient : Str} {h : Host} :
    (∃ q t, exec perform (router.place envelope recipient) h = (.ok q, t)) ↔
      router.Sound envelope h.world.db recipient ∧
        Unfailing (router.place envelope recipient) h := by
  constructor
  · rintro ⟨q, t, he⟩
    refine ⟨?_, along_of_strict (strict_place router envelope recipient) he⟩
    rcases place_route router envelope recipient h
      with ⟨e, t', he', -⟩ | ⟨r, t', hr, -, hplace⟩
    · cases he.symm.trans he'
    · rw [hplace] at he
      rcases hqueue : exec perform (router.queueRoute envelope r) t' with ⟨e | q', u⟩
      · cases (exec_mapErr_error perform hqueue).symm.trans he
      · exact ⟨r, hr, needs_of_queueRoute hqueue⟩
  · rintro ⟨⟨r, hr, hparses, hnames⟩, hu⟩
    obtain ⟨hroute, hu⟩ := along_seq hu
    obtain ⟨t, he, hworld⟩ := route_of_unfailing hr (along_mapErr hroute)
    have hu := along_mapErr (hu (exec_mapErr_ok perform he))
    obtain ⟨q, t', hq⟩ := queueRoute_of_unfailing (by rw [hworld]; exact hr) hparses hnames hu
    exact ⟨q, t', (exec_bind_of_ok perform (exec_mapErr_ok perform he)).trans
      (exec_mapErr_ok perform hq)⟩

/-- The turn of a recipient succeeds exactly if the tables give what it needs
and no operation fails. -/
theorem handleRecipient_ok_iff {envelope : Envelope} {recipient : Str} {h : Host} :
    (∃ t, exec perform (router.handleRecipient envelope recipient) h = (.ok (), t)) ↔
      router.Sound envelope h.world.db recipient ∧
        Unfailing (router.handleRecipient envelope recipient) h := by
  constructor
  · rintro ⟨t, he⟩
    have hu := along_of_strict (strict_handleRecipient router envelope recipient) he
    rw [handleRecipient_eq] at he
    obtain ⟨q, u, hplace, -⟩ := (exec_bind_ok perform).mp he
    exact ⟨(place_ok_iff.mp ⟨q, u, hplace⟩).1, hu⟩
  · rintro ⟨hsound, hu⟩
    rw [handleRecipient_eq] at hu ⊢
    obtain ⟨hplace, hu⟩ := along_seq hu
    obtain ⟨q, t, he⟩ := place_ok_iff.mpr ⟨hsound, hplace⟩
    obtain ⟨u, t', hcount⟩ := exec_of_sure (sure_count q) (hu he)
    rw [exec_bind_of_ok perform he]
    exact ⟨t', hcount⟩

/-! ## What a turn leaves for the next -/

theorem queueRoute_drawn {envelope : Envelope} {r : Route} {P : Str → Prop}
    {q : Option (Str × AliasCounter)} {h t : Host}
    (ha : Along perform (Draws router.aliases P) (router.queueRoute envelope r).run h)
    (he : exec perform (router.queueRoute envelope r) h = (.ok q, t)) :
    Drawn P h.world.db t.world.db := by
  cases r with
  | forward aliasId aliasAddress =>
      unfold queueRoute at ha he
      obtain ⟨_, u, hq, he⟩ := (exec_bind_ok perform).mp he
      cases he
      have ha := (along_seq ha).1
      unfold queueForward at ha hq
      obtain ⟨address, u, hcomputed, hq⟩ := (exec_bind_ok perform).mp hq
      have ha := (along_seq ha).2 hcomputed
      obtain rfl : h = u := congrArg Prod.snd hcomputed
      obtain ⟨found, u, hlookup, hq⟩ := (exec_bind_ok perform).mp hq
      have ha := (along_seq ha).2 hlookup
      obtain rfl : u = h.skip :=
        congrArg Prod.snd (hlookup.symm.trans (exec_findAliasByAddress _ h))
      cases found with
      | none => cases hq
      | some found =>
          dsimp only at ha hq
          obtain ⟨sender, u, hcomputed, hq⟩ := (exec_bind_ok perform).mp hq
          have ha := (along_seq ha).2 hcomputed
          obtain rfl : h.skip = u := congrArg Prod.snd hcomputed
          obtain ⟨c, u, hget, hq⟩ := (exec_bind_ok perform).mp hq
          have hdrawn := getOrCreateContact_drawn (along_seq ha).1 hget
          obtain ⟨messageId, u', hqueued, hq⟩ := (exec_bind_ok perform).mp hq
          cases hq
          exact hdrawn.trans (Drawn.of_eq (enqueue_contacts hqueued))
  | reply contactId aliasAddress contactEmail =>
      unfold queueRoute at he
      rcases queueReply_cases router contactId aliasAddress contactEmail envelope h with
        ⟨e, w, he', -⟩ | ⟨_, t', _, he', -, hcontacts, -⟩
      · cases (exec_bind_of_error perform he').symm.trans he
      · cases (exec_bind_of_ok perform he').symm.trans he
        exact Drawn.of_eq hcontacts

/-- A turn that succeeds makes contacts under reverse aliases that it has drawn. -/
theorem handleRecipient_drawn {envelope : Envelope} {recipient : Str}
    {P : Str → Prop} {h t : Host} (ha : Along perform (Draws router.aliases P)
      (router.handleRecipient envelope recipient).run h)
    (he : exec perform (router.handleRecipient envelope recipient) h = (.ok (), t)) :
    Drawn P h.world.db t.world.db := by
  rw [handleRecipient_eq] at ha he
  obtain ⟨q, u, hplace, hcount⟩ := (exec_bind_ok perform).mp he
  have ha := (along_seq ha).1
  have hcounted : Drawn P u.world.db t.world.db := by
    have hquiet := count_quiet q u
    rw [hcount] at hquiet
    exact Drawn.of_eq hquiet.2.2
  refine Drawn.trans ?_ hcounted
  obtain ⟨r, v, hroute, hqueue⟩ := (exec_bind_ok perform).mp hplace
  have ha := (along_seq ha).2 hroute
  rcases route_cases router envelope.mailFrom recipient h with
    ⟨-, w, he'⟩ | ⟨-, ⟨e, w, -, he'⟩ | ⟨r', w, -, he', hworld⟩⟩
  · cases (exec_mapErr_error perform he').symm.trans hroute
  · cases (exec_mapErr_error perform he').symm.trans hroute
  · cases (exec_mapErr_ok perform he').symm.trans hroute
    rcases hq : exec perform (router.queueRoute envelope r) v with ⟨e | q', u'⟩
    · cases (exec_mapErr_error perform hq).symm.trans hqueue
    · cases (exec_mapErr_ok perform hq).symm.trans hqueue
      rw [← hworld]
      exact queueRoute_drawn (along_mapErr ha) hq

/-- Contacts under other addresses do not change where a recipient leads. -/
theorem resolve_of_drawn {mailFrom recipient : Str} {P : Str → Prop} {db db' : Db}
    (hg : Grows db db') (hd : Drawn P db db')
    (hP : ∀ address, EmailAddress.parse recipient = .ok address → ¬ P address.normalised) :
    router.resolve mailFrom recipient db' = router.resolve mailFrom recipient db := by
  unfold resolve
  cases hparse : EmailAddress.parse recipient with
  | error e => rfl
  | ok address =>
      dsimp only
      split
      · rfl
      · cases hcontact : db.findContactByReverseAlias address.normalised with
        | some contact => rw [hg.findContactByReverseAlias hcontact]
        | none =>
            rw [hg.findContactByReverseAlias_none hcontact fun c hc =>
              (hd c hc).imp_right fun hc h0 => hP address hparse (h0 ▸ hc)]
            dsimp only
            cases halias : db.findAliasByAddress address.normalised with
            | none => rw [hg.findAliasByAddress_none halias]
            | some found =>
                obtain ⟨found', hfound', hcore, -⟩ := hg.findAliasByAddress halias
                obtain ⟨hid, haddress, -, henabled⟩ := Alias.of_core hcore
                rw [hfound']
                dsimp only
                rw [hid, haddress, henabled]

/-- A recipient that no contact was made for is as sound as it was. -/
theorem sound_iff_of_drawn {envelope : Envelope} {recipient : Str}
    {P : Str → Prop} {db db' : Db} (hg : Grows db db') (hd : Drawn P db db')
    (hP : ∀ address, EmailAddress.parse recipient = .ok address → ¬ P address.normalised) :
    router.Sound envelope db' recipient ↔ router.Sound envelope db recipient := by
  unfold Sound
  rw [resolve_of_drawn hg hd hP]

end AliasRouter

end Weiterleitung
