/-
# `Smtp.Agree` — what was accepted at `RCPT` is accepted at `DATA`

`verify_recipient` only routes; `handle` routes again and then needs more: the stored
address of the alias must parse, and a forward needs an address for its sender.  On a
machine on which nothing fails these are all that can still go wrong:

    a route outlives what `handle` does before it           (`resolve_of_extends`)
    a recipient whose route names what it needs is queued
      and counted                                           (`turn_total`)
    recipients accepted at `RCPT` are all queued, if and
      only if each forward names its sender                 (`handle_agrees`)
-/
import Mathlib
import Weiterleitung.Smtp.Handle
import Weiterleitung.Store.Reachable

namespace Weiterleitung

open Text Utf8 Prog

namespace AliasRouter

variable {router : AliasRouter}

/-! ## Routes that last -/

/-- Tables that grew by contacts whose reverse aliases are no aliases. -/
def Extends (db db' : Db) : Prop :=
  Grows db db' ∧ ∀ c ∈ db'.contacts, c ∈ db.contacts ∨ ∀ a ∈ db.aliases,
    a.address ≠ c.reverseAlias

theorem Extends.refl (db : Db) : Extends db db := ⟨Grows.refl db, fun _ hc => Or.inl hc⟩

theorem Extends.trans {db₁ db₂ db₃ : Db} (h : Extends db₁ db₂) (h' : Extends db₂ db₃) :
    Extends db₁ db₃ := by
  refine ⟨h.1.trans h'.1, fun c hc => ?_⟩
  rcases h'.2 c hc with hc | hne
  · exact h.2 c hc
  · refine Or.inr fun a ha h0 => ?_
    -- the alias is still there, under its address
    obtain ⟨a', ha', hcore⟩ := h.1.alias_still ha
    exact hne a' ha' ((Alias.of_core hcore).2.1.trans h0)

/-- A route that the tables give is given by larger ones. -/
theorem resolve_of_extends {mailFrom recipient : Str} {db db' : Db} {r : Route}
    (h : Extends db db') (hr : router.resolve mailFrom recipient db = .ok r) :
    router.resolve mailFrom recipient db' = .ok r := by
  cases r with
  | forward aliasId aliasAddress =>
      obtain ⟨address, found, hparse, hown, hnone, hfound, henabled, rfl, rfl⟩ :=
        resolve_forward hr
      obtain ⟨hmem, haddress, -⟩ := Db.findAliasByAddress_some hfound
      have hnone' := h.1.findContactByReverseAlias_none hnone fun c hc => (h.2 c hc).imp_right
        fun hne h0 => hne _ hmem (haddress.trans h0.symm)
      obtain ⟨found', hfound', hcore, -⟩ := h.1.findAliasByAddress hfound
      obtain ⟨hid, haddr, -, hen⟩ := Alias.of_core hcore
      rw [← hid, ← haddr]
      exact resolve_of_alias hparse hown hnone' hfound' (hen.trans henabled)
  | reply contactId aliasAddress contactEmail =>
      obtain ⟨address, found, hparse, hown, hfound, hauth, henabled, rfl, rfl, rfl⟩ :=
        resolve_reply hr
      exact resolve_of_contact hparse hown
        (h.1.findContactByReverseAlias hfound) hauth henabled

/-! ## Turns that succeed -/

theorem queueForward_total {aliasId aliasAddress : Str} {envelope : Envelope} {h : Host}
    {address sender : EmailAddress} {found : AliasWithMailbox} (hc : Calm h)
    (hf : Along perform (Fresh router.aliases)
      (router.queueForward aliasId aliasAddress envelope).run h)
    (hparse : EmailAddress.parse aliasAddress = .ok address)
    (hfound : h.world.db.findAliasByAddress address.normalised = some found)
    (hid : found.toAlias.aliasId = aliasId)
    (hsender : envelopeSender envelope.mailFrom
      (headerValue (splitHeadersBody envelope.data).1 "from") = .ok sender) :
    ∃ t, exec perform (router.queueForward aliasId aliasAddress envelope) h = (.ok (), t) ∧
      ∀ d ∈ t.world.db.contacts, d ∈ h.world.db.contacts ∨
        ∀ a ∈ h.world.db.aliases, a.address ≠ d.reverseAlias := by
  unfold queueForward at hf ⊢
  rw [exec_bind_of_ok perform (exec_computed_ok perform hparse h)]
  have hf := (along_seq hf).2 (exec_computed_ok perform hparse h)
  rcases give_cases (exec_findAliasByAddress address h) with ⟨hbad, -⟩ | ⟨-, hx⟩
  · cases hbad.symm.trans (hc _)
  · rw [exec_bind_of_ok perform hx]
    have hf := (along_seq hf).2 hx
    rw [hfound] at hf ⊢
    dsimp only at hf ⊢
    rw [exec_bind_of_ok perform (exec_computed_ok perform hsender h.skip)]
    have hf := (along_seq hf).2 (exec_computed_ok perform hsender h.skip)
    have halias : ∃ a ∈ h.skip.world.db.aliases, a.aliasId = aliasId :=
      ⟨found.toAlias, (Db.findAliasByAddress_some hfound).1, hid⟩
    obtain ⟨c, t, hget, hnew⟩ := getOrCreateContact_total hc.skip (along_seq hf).1 halias
    rw [exec_bind_of_ok perform hget]
    have hf := (along_seq hf).2 hget
    have hct : Calm t := hc.skip.exec hget
    have hgrows :=
      grows_exec (uses_mono routing_of_aside (uses_getOrCreateContact router.aliases
      aliasId sender
        ((headerValue (splitHeadersBody envelope.data).1 "from").bind displayName))) h.skip
    rw [hget] at hgrows
    obtain ⟨hmem, hcid, -⟩ := getOrCreateContact_ok hget
    obtain ⟨a, ha, haid⟩ := halias
    obtain ⟨a', ha', hcore⟩ := hgrows.alias_still ha
    obtain ⟨messageId, t', he⟩ := enqueue_total hct (along_seq hf).1
      (fun i hi => ⟨a', ha', by rw [(Alias.of_core hcore).1, haid]; exact Option.some.inj hi⟩)
      (fun i hi => ⟨c, hmem, Option.some.inj hi⟩)
    rw [exec_bind_of_ok perform he]
    refine ⟨t', rfl, ?_⟩
    rw [enqueue_contacts he]
    exact hnew

theorem queueReply_total {contactId aliasAddress contactEmail : Str} {envelope : Envelope}
    {h : Host} {address : EmailAddress} (hc : Calm h)
    (hf : Along perform (Fresh router.aliases)
      (router.queueReply contactId aliasAddress contactEmail envelope).run h)
    (hparse : EmailAddress.parse aliasAddress = .ok address)
    (hcontact : ∃ c ∈ h.world.db.contacts, c.contactId = contactId) :
    ∃ q t, exec perform (router.queueReply contactId aliasAddress contactEmail envelope)
      h = (.ok q, t) ∧
      t.world.db.contacts = h.world.db.contacts := by
  unfold queueReply at hf ⊢
  rw [exec_bind_of_ok perform (exec_computed_ok perform hparse h)]
  have hf := (along_seq hf).2 (exec_computed_ok perform hparse h)
  rcases give_cases (exec_findAliasByAddress address h) with ⟨hbad, -⟩ | ⟨-, hx⟩
  · cases hbad.symm.trans (hc _)
  · rw [exec_bind_of_ok perform hx]
    have hf := (along_seq hf).2 hx
    obtain ⟨c, hmem, hcid⟩ := hcontact
    obtain ⟨messageId, t, he⟩ := enqueue_total hc.skip (along_seq hf).1
      (fun i hi => by
        obtain ⟨found, hfound, hid⟩ := Option.map_eq_some_iff.mp hi
        exact ⟨found.toAlias, (Db.findAliasByAddress_some hfound).1, hid⟩)
      (fun i hi => ⟨c, hmem, hcid.trans (Option.some.inj hi)⟩)
    rw [exec_bind_of_ok perform he]
    have hcontacts := enqueue_contacts he
    exact ⟨_, t, rfl, hcontacts⟩

theorem queueRoute_total {envelope : Envelope} {recipient : Str} {r : Route} {h : Host}
    (hc : Calm h)
    (hf : Along perform (Fresh router.aliases) (router.queueRoute envelope r).run h)
    (hr : router.resolve envelope.mailFrom recipient h.world.db = .ok r)
    (hparses : AliasParses r) (hnames : NamesSender envelope r) :
    ∃ q t, exec perform (router.queueRoute envelope r) h = (.ok q, t) ∧
      ∀ d ∈ t.world.db.contacts, d ∈ h.world.db.contacts ∨
        ∀ a ∈ h.world.db.aliases, a.address ≠ d.reverseAlias := by
  cases r with
  | forward aliasId aliasAddress =>
      obtain ⟨address, found, -, -, -, hfound, -, rfl, rfl⟩ := resolve_forward hr
      obtain ⟨address', hparse⟩ := hparses
      obtain ⟨sender, hsender⟩ := hnames
      -- the alias is looked up again under its own address
      have haddress := (Db.findAliasByAddress_some hfound).2.1
      have hsame : address'.normalised = address.normalised :=
        EmailAddress.normalised_of_parse_normalised (haddress ▸ hparse)
      unfold queueRoute at hf ⊢
      obtain ⟨t, he, hnew⟩ := queueForward_total hc (along_seq hf).1 hparse
        (by rw [hsame]; exact hfound)
        rfl hsender
      rw [exec_bind_of_ok perform he]
      exact ⟨_, t, rfl, hnew⟩
  | reply contactId aliasAddress contactEmail =>
      obtain ⟨address, found, -, -, hfound, -, -, rfl, rfl, rfl⟩ := resolve_reply hr
      obtain ⟨address', hparse⟩ := hparses
      unfold queueRoute at hf ⊢
      obtain ⟨q, t, he, hcontacts⟩ := queueReply_total hc (along_seq hf).1 hparse
        ⟨found.toContact, (Db.findContactByReverseAlias_some hfound).1, rfl⟩
      rw [exec_bind_of_ok perform he]
      exact ⟨_, t, rfl, fun d hd => Or.inl (by rw [← hcontacts]; exact hd)⟩

/-- Counting what there is to count. -/
theorem count_total {h : Host} (hc : Calm h) (q : Option (Str × AliasCounter)) :
    ∃ t, exec perform (count q) h = (.ok (), t) := by
  cases q with
  | none => exact ⟨h, rfl⟩
  | some q =>
      obtain ⟨t, he⟩ := recordAliasActivity_total hc q.1 q.2
      exact ⟨t, exec_mapErr_ok perform he⟩

/-- The turn of a recipient succeeds if its route names what it needs. -/
theorem turn_total {envelope : Envelope} {recipient : Str} {r : Route} {h : Host} (hc : Calm h)
    (hf : Along perform (Fresh router.aliases) (router.handleRecipient envelope recipient).run
      h)
    (hr : router.resolve envelope.mailFrom recipient h.world.db = .ok r)
    (hparses : AliasParses r) (hnames : NamesSender envelope r) :
    ∃ t, exec perform (router.handleRecipient envelope recipient) h = (.ok (), t) ∧
      Extends h.world.db t.world.db := by
  have hgrows := grows_exec (uses_handleRecipient router envelope recipient) h
  rw [handleRecipient_eq] at hf hgrows ⊢
  rcases route_cases router envelope.mailFrom recipient h with
    ⟨⟨_, -, -, hbad | ⟨-, hbad⟩⟩, -⟩ | ⟨-, ⟨e, t, hr', -⟩ | ⟨r', t, hr', he, hworld⟩⟩
  · cases hbad.symm.trans (hc _)
  · cases hbad.symm.trans (hc _)
  · rw [hr] at hr'
    cases hr'
  · rw [hr] at hr'
    cases hr'
    have hplace := (along_seq hf).1
    have hct : Calm t := hc.exec he
    have hqueue := along_mapErr ((along_seq hplace).2 (exec_mapErr_ok perform he))
    obtain ⟨q, t', hq, hnew⟩ := queueRoute_total hct hqueue (by rw [hworld]; exact hr)
      hparses hnames
    have hplaced : exec perform (router.place envelope recipient) h = (.ok q, t') :=
      (exec_bind_of_ok perform (exec_mapErr_ok perform he)).trans (exec_mapErr_ok perform hq)
    obtain ⟨t'', hcount⟩ := count_total (hct.exec hq) q
    rw [exec_bind_of_ok perform hplaced, hcount] at hgrows ⊢
    refine ⟨t'', rfl, hgrows, fun d hd => ?_⟩
    have hquiet := count_quiet q t'
    rw [hcount] at hquiet
    rw [hquiet.2.2] at hd
    have hdnew := hnew d hd
    rw [hworld] at hdnew
    exact hdnew

/-! ## `RCPT` and `DATA` -/

/-- `verify_recipient` accepts the recipient in this state of the store. -/
def Accepts (router : AliasRouter) (mailFrom recipient : Str) (w : World) : Prop :=
  ∃ h₀ : Host, h₀.world = w ∧
    (run perform (router.verifyRecipient mailFrom recipient) h₀).1 = .accept

theorem resolve_of_accepts {mailFrom recipient : Str} {w : World}
    (h : router.Accepts mailFrom recipient w) :
    ∃ r, router.resolve mailFrom recipient w.db = .ok r := by
  obtain ⟨h₀, rfl, haccept⟩ := h
  rw [run_verifyRecipient] at haccept
  rcases route_cases router mailFrom recipient h₀ with
    ⟨-, t, he⟩ | ⟨-, ⟨e, t, -, he⟩ | ⟨r, t, hr, -⟩⟩
  · rw [he] at haccept
    cases haccept
  · rw [he] at haccept
    cases haccept
  · exact ⟨r, hr⟩

/-- A turn that succeeds had an address for its sender. -/
theorem namesSender_of_turn {envelope : Envelope} {recipient : Str} {r : Route} {h t : Host}
    (he : exec perform (router.handleRecipient envelope recipient) h = (.ok (), t))
    (hr : router.resolve envelope.mailFrom recipient h.world.db = .ok r) :
    NamesSender envelope r := by
  obtain ⟨⟨r', hr', -, hnames⟩, -⟩ := handleRecipient_ok_iff.mp ⟨t, he⟩
  cases hr.symm.trans hr'
  exact hnames

/-- All turns succeed, whatever was handled before, if and only if there is an address for
each sender that is asked for. -/
theorem reaches_iff {envelope : Envelope} {db : Db} {recipients : List Str} {h : Host}
    (hc : Calm h)
    (hf : Along perform (Fresh router.aliases) (router.handleAll envelope recipients).run h)
    (hall : ∀ recipient ∈ recipients, ∃ r,
      router.resolve envelope.mailFrom recipient db = .ok r ∧
      AliasParses r) (hext : Extends db h.world.db) :
    (∃ t, Reaches router envelope recipients h t) ↔ ∀ recipient ∈ recipients, ∀ r,
      router.resolve envelope.mailFrom recipient db = .ok r → NamesSender envelope r := by
  induction recipients generalizing h with
  | nil => exact ⟨fun _ _ hmem => (nomatch hmem), fun _ => ⟨h, rfl⟩⟩
  | cons recipient recipients ih =>
      obtain ⟨r, hr, hparses⟩ := hall recipient List.mem_cons_self
      have hr' := resolve_of_extends hext hr
      have hturn := turn_total hc (along_seq hf).1 hr' hparses
      have hrest : ∀ {u}, exec perform (router.handleRecipient envelope recipient)
          h = (.ok (), u) →
          Extends h.world.db u.world.db →
          ((∃ t, Reaches router envelope recipients u t) ↔ ∀ recipient ∈ recipients, ∀ r,
            router.resolve envelope.mailFrom recipient db = .ok r → NamesSender envelope r) :=
        fun he hext' => ih (hc.exec he) ((along_seq hf).2 he)
          (fun r' hmem => hall r' (List.mem_cons_of_mem _ hmem)) (hext.trans hext')
      constructor
      · rintro ⟨t, u, he, hreach⟩ recipient' hmem r' hres
        have hnames := namesSender_of_turn he hr'
        rcases List.mem_cons.mp hmem with rfl | hmem
        · cases hr.symm.trans hres
          exact hnames
        · obtain ⟨u', he', hext'⟩ := hturn hnames
          cases he.symm.trans he'
          exact (hrest he hext').mp ⟨t, hreach⟩ recipient' hmem r' hres
      · intro hnames
        obtain ⟨u, he, hext'⟩ := hturn (hnames recipient List.mem_cons_self r hr)
        obtain ⟨t, hreach⟩ := (hrest he hext').mpr fun r' hmem =>
          hnames r' (List.mem_cons_of_mem _ hmem)
        exact ⟨t, u, he, hreach⟩

/-- What was accepted at `RCPT` is accepted at `DATA`, if nothing fails, nothing that is drawn
is in use and the stored addresses of the aliases parse: all of it, if and only if there is an
address for the sender of what is to be forwarded. -/
theorem handle_agrees (router : AliasRouter) (envelope : Envelope) (h : Host) (hc : Calm h)
    (hf : Along perform (Fresh router.aliases) (router.handle envelope).run h)
    (haccepts : ∀ recipient ∈ envelope.rcptTo, router.Accepts envelope.mailFrom recipient
      h.world)
    (hparses : ∀ recipient ∈ envelope.rcptTo, ∀ r,
      router.resolve envelope.mailFrom recipient h.world.db = .ok r → AliasParses r) :
    (∃ t, exec perform (router.handle envelope) h = (.ok (), t) ∧
      ∃ added, t.world.db.outbox = h.world.db.outbox ++ added ∧
        added.length = envelope.rcptTo.length) ↔
    ∀ recipient ∈ envelope.rcptTo, ∀ r,
      router.resolve envelope.mailFrom recipient h.world.db = .ok r →
      NamesSender envelope r := by
  have hroutes : ∀ recipient ∈ envelope.rcptTo, ∃ r,
      router.resolve envelope.mailFrom recipient h.world.db = .ok r ∧ AliasParses r := by
    intro recipient hmem
    obtain ⟨r, hr⟩ := resolve_of_accepts (haccepts recipient hmem)
    exact ⟨r, hr, hparses recipient hmem r hr⟩
  rw [← reaches_iff hc hf hroutes (Extends.refl _)]
  constructor
  · rintro ⟨t, he, -⟩
    exact ⟨t, reaches_iff_ok.mpr he⟩
  · rintro ⟨t, hreach⟩
    obtain ⟨added, houtbox, hlength, -⟩ := hreach.rows
    exact ⟨t, reaches_iff_ok.mp hreach, added.map (·.1),
      houtbox, by rw [List.length_map, hlength]⟩

/-! ### The store with one alias -/

theorem legal_setUp (settings : AliasSettings) (mailbox aliasAddress : Str) :
    Uses (Legal settings) (setUp mailbox aliasAddress).run := by
  unfold setUp
  refine uses_seq trivial fun email => uses_seq (legal_insertMailbox email true) fun m => ?_
  exact uses_seq trivial fun address => legal_insertAlias address m.mailboxId none

theorem reachable_sampleHost (settings : AliasSettings) :
    Reachable settings sampleHost.world.db :=
  later_exec (legal_setUp settings _ _) (Host.calm ⟨Db.empty, [], []⟩)

theorem calm_sampleHost : Calm sampleHost := fun _ => rfl

/-- A payload that `read_data` can return. -/
def Deliverable (data : Bytes) : Prop :=
  ∃ broken maxMessageSize lines rest, readData broken maxMessageSize lines
    = .ok (.ok data, rest)

/-- The sender of a notice without a `From` header is accepted at `RCPT`,
and refused after `DATA`. -/
theorem handle_refuses_null_sender :
    ¬ ∀ (router : AliasRouter) (envelope : Envelope) (h : Host),
      Reachable router.aliases h.world.db → envelope.rcptTo ≠ [] →
      Deliverable envelope.data → Calm h →
      Along perform (Fresh router.aliases) (router.handle envelope).run h →
      (∀ recipient ∈ envelope.rcptTo, router.Accepts envelope.mailFrom recipient h.world) →
      ∃ t, exec perform (router.handle envelope) h = (.ok (), t) ∧
        ∃ added, t.world.db.outbox = h.world.db.outbox ++ added ∧
          added.length = envelope.rcptTo.length := by
  intro hall
  let envelope : Envelope := ⟨[], ["shop@example.com".toList], encode "Subject: hi\r\n".toList⟩
  have hdata : Deliverable envelope.data :=
    ⟨false, 1000, ["Subject: hi\r\n".toList, ".\r\n".toList].map encode, [], by decide +kernel⟩
  have haccepts : ∀ recipient ∈ envelope.rcptTo,
      sample.Accepts envelope.mailFrom recipient sampleHost.world := by
    intro recipient hmem
    rw [List.mem_singleton.mp hmem]
    exact ⟨sampleHost, rfl, by decide +kernel⟩
  obtain ⟨t, hok, -⟩ := hall sample envelope sampleHost (reachable_sampleHost _)
    (List.cons_ne_nil _ _) hdata calm_sampleHost (by decide +kernel) haccepts
  have hrefused : (exec perform (sample.handle envelope) sampleHost).1 = .error notQueued := by
    decide +kernel
  rw [hok] at hrefused
  cases hrefused

theorem handle_agrees_sample :
    (∃ t, exec perform (sample.handle ⟨"a@shop.example", ["shop@example.com".toList], []⟩)
      sampleHost = (.ok (), t) ∧
      ∃ added, t.world.db.outbox = sampleHost.world.db.outbox ++ added ∧ added.length = 1) ↔
    ∀ recipient ∈ ["shop@example.com".toList], ∀ r,
      sample.resolve "a@shop.example" recipient sampleHost.world.db = .ok r →
        NamesSender ⟨"a@shop.example", ["shop@example.com".toList], []⟩ r := by
  have hresolve : sample.resolve "a@shop.example" "shop@example.com" sampleHost.world.db
      = .ok (.forward ['3'] "shop@example.com") := by decide +kernel
  refine handle_agrees sample ⟨"a@shop.example", ["shop@example.com".toList], []⟩ sampleHost
    calm_sampleHost (by decide +kernel) ?_ ?_
  · intro recipient hmem
    rw [List.mem_singleton.mp hmem]
    exact ⟨sampleHost, rfl, by decide +kernel⟩
  · intro recipient hmem r hr
    rw [List.mem_singleton.mp hmem] at hr
    cases hresolve.symm.trans hr
    exact ⟨.shop, by decide +kernel⟩

end AliasRouter

end Weiterleitung
