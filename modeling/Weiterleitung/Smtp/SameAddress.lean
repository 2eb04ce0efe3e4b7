/-
# `Smtp.SameAddress` — when are two spellings the same address?

The store compares normalised forms.  Two places compare something else.

An address that is stored in its normalised form is parsed again when mail goes through it;
lower-casing can lengthen the local part, and the parser counts bytes again:

    the normalised form parses
      ⟺  it has a local part of at most 64 bytes              (`normalised_parses_iff`)

The check on replies folds the ASCII letters of the raw sender and nothing else, so it
never lets a stranger in, but it does not know the owner in every spelling:

    the check agrees with the store
      ⟺  the owner writes his address plainly                 (`reply_owner_iff`)
-/
import Mathlib
import Weiterleitung.Smtp.Agree

namespace Weiterleitung

open Text Unicode Prog

/-! ## Printing and normalising -/

namespace EmailAddress

/-- Printed it parses to itself, normalised to an address of the same normalised form. -/
def Stable (a : EmailAddress) : Prop :=
  parse a.toString = .ok a ∧ ∃ b, parse a.normalised = .ok b ∧ b.normalised = a.normalised

/-- The local part of the normalised form is within the limit of the parser. -/
def StaysShort (a : EmailAddress) : Prop := len (toLowercase a.localPart) ≤ 64

theorem validLocal_toLowercase (a : EmailAddress) :
    validLocal (toLowercase a.localPart) = true ↔ a.StaysShort := by
  have hne : toLowercase a.localPart ≠ [] := by
    intro h
    have hlen := length_le_toLowercaseFrom a.localPart []
    rw [show toLowercaseFrom [] a.localPart = [] from h] at hlen
    exact (validLocal_iff.mp a.valid.1).1 (List.eq_nil_of_length_eq_zero (Nat.le_zero.mp hlen))
  rw [validLocal_iff]
  constructor
  · exact fun h => h.2.1
  · exact fun h =>
      ⟨hne, h,
        fun c hc => plain_of_mem_toLowercase (fun d hd => a.plain_of_mem_localPart hd) hc⟩

theorem normalised_parses_iff (a : EmailAddress) :
    (∃ b, parse a.normalised = .ok b ∧ b.normalised = a.normalised) ↔ a.StaysShort := by
  rw [← validLocal_toLowercase, parse_normalised]
  constructor
  · rintro ⟨b, hb, -⟩
    split at hb
    · next hvalid => exact hvalid.1
    · cases hb
  · intro hvalid
    rw [dif_pos ⟨hvalid, a.valid.2⟩]
    refine ⟨_, rfl, ?_⟩
    simp [normalised, toLowercase_idem]

end EmailAddress

/-- The addresses that the store keeps in their normalised form. -/
def Db.addresses (db : Db) : List Str :=
  db.mailboxes.map (·.email) ++ db.aliases.map (·.address) ++ db.contacts.map (·.email)

theorem isNormalised_of_mem_addresses {settings : AliasSettings} {db : Db}
    (hreach : Reachable settings db) {x : Str} (hx : x ∈ db.addresses) : IsNormalised x := by
  rcases List.mem_append.mp hx with hx | hx
  · rcases List.mem_append.mp hx with hx | hx
    · obtain ⟨m, hm, rfl⟩ := List.mem_map.mp hx
      exact hreach.wf.mailboxForms m hm
    · obtain ⟨a, ha, rfl⟩ := List.mem_map.mp hx
      exact hreach.wf.aliasForms a ha
  · obtain ⟨c, hc, rfl⟩ := List.mem_map.mp hx
    exact (hreach.wf.contactForms c hc).1

/-- An accepted address is stable exactly if its normalised form stays within the limit; and
so is every address that a reachable store keeps. -/
theorem parse_stable_iff {settings : AliasSettings} {db : Db}
    (hreach : Reachable settings db) :
    (∀ s e, EmailAddress.parse s = .ok e → (e.Stable ↔ e.StaysShort)) ∧
      ∀ x ∈ db.addresses, ∃ a : EmailAddress, x = a.normalised ∧
        ((∃ b, EmailAddress.parse x = .ok b ∧ b.normalised = x) ↔ a.StaysShort) := by
  constructor
  · intro s e _
    rw [← e.normalised_parses_iff]
    exact and_iff_right e.parse_toString
  · intro x hx
    obtain ⟨a, rfl⟩ := isNormalised_of_mem_addresses hreach hx
    exact ⟨a, rfl, a.normalised_parses_iff⟩

theorem parse_stable_iff_sample :
    (∀ s e, EmailAddress.parse s = .ok e → (e.Stable ↔ e.StaysShort)) ∧
      ∀ x ∈ AliasRouter.sampleHost.world.db.addresses, ∃ a : EmailAddress, x = a.normalised ∧
        ((∃ b, EmailAddress.parse x = .ok b ∧ b.normalised = x) ↔ a.StaysShort) :=
  parse_stable_iff (AliasRouter.reachable_sampleHost AliasRouter.sample.aliases)

/-- Thirty-two letters of two bytes, each with a lower case of three. -/
theorem parse_unstable_when_longer :
    ¬ ∀ (s : Str) (e : EmailAddress), EmailAddress.parse s = .ok e → e.Stable := by
  intro hall
  have hlocal : validLocal (List.replicate 32 'Ⱥ') = true := by decide
  let e : EmailAddress :=
    ⟨List.replicate 32 'Ⱥ', "example.com", ⟨hlocal, EmailAddress.shop.valid.2⟩,
    EmailAddress.shop.settled⟩
  obtain ⟨-, hstable⟩ := hall e.toString e e.parse_toString
  have hlong : ¬ len (toLowercase (List.replicate 32 'Ⱥ')) ≤ 64 := by decide
  exact hlong (e.normalised_parses_iff.mp hstable)

/-! ## ASCII letters and all letters -/

section
variable {s l d : Str} {m e : EmailAddress}

theorem plain_of_toLower {c : Char} (h : EmailAddress.Plain c.toLower) :
    EmailAddress.Plain c :=
  toLower_cases (P := fun c d => EmailAddress.Plain d → EmailAddress.Plain c) (by decide)
    (fun _ _ h => h) c h

theorem toLower_eq_at {c : Char} (h : c.toLower = '@') : c = '@' :=
  toLower_cases (P := fun c d => d = '@' → c = '@') (by decide) (fun _ _ h => h) c h

theorem fixed_of_mem_normalised (a : EmailAddress) {c : Char} (h : c ∈ a.normalised) :
    Fixed c := by
  rcases List.mem_append.mp h with h | h
  · exact fixed_of_mem_toLowercaseFrom _ _ h
  · rcases List.mem_cons.mp h with rfl | h
    · decide
    · exact toLowercase_eq_self.mp a.settled.1 c h

/-- An address as its owner may write it: no brackets and no dot behind it, the letters of
the domain and the ASCII letters of the local part in either case, no other capitals. -/
def PlainlyWritten (mailFrom : Str) (m : EmailAddress) : Prop :=
  ∃ d, trim mailFrom = m.localPart ++ '@' :: d ∧ d.map Char.toLower = m.domain ∧
    m.localPart.map Char.toLower = toLowercase m.localPart

theorem PlainlyWritten.folded (h : PlainlyWritten s m) :
    (trim s).map Char.toLower = m.normalised := by
  obtain ⟨d, htrim, hdomain, hlocal⟩ := h
  rw [htrim, List.map_append, List.map_cons, hlocal, hdomain]
  rfl

/-- A sender that folds to a normalised form is plainly written, and
has that normalised form. -/
theorem plainlyWritten_of_folded (hparse : EmailAddress.parse s = .ok m)
    (hfold : (trim s).map Char.toLower = e.normalised) :
    PlainlyWritten s m ∧ m.normalised = e.normalised := by
  have hmem : ∀ c ∈ trim s, c.toLower ∈ e.normalised := by
    intro c hc
    rw [← hfold]
    exact List.mem_map_of_mem hc
  have hplain : ∀ c ∈ trim s, EmailAddress.Plain c := fun c hc =>
    plain_of_toLower (e.mem_normalised (hmem c hc))
  have hfixed : ∀ c ∈ trim s, Fixed c.toLower :=
    fun c hc => fixed_of_mem_normalised e (hmem c hc)
  unfold EmailAddress.parse at hparse
  dsimp only at hparse
  rw [EmailAddress.brackets_plain hplain] at hparse
  cases hsplit : rsplitOnce '@' (trim s) with
  | none => rw [hsplit] at hparse; cases hparse
  | some parts =>
      obtain ⟨l, d⟩ := parts
      obtain ⟨htrim, hat⟩ := rsplitOnce_eq_some.mp hsplit
      rw [htrim] at hfixed hfold
      have hat' : '@' ∉ d.map Char.toLower := by
        intro h
        obtain ⟨c, hc, he⟩ := List.mem_map.mp h
        exact hat (toLower_eq_at he ▸ hc)
      rw [List.map_append, List.map_cons] at hfold
      obtain ⟨hlocal, hdomain⟩ := append_cons_inj_last hat' e.at_not_mem_domain hfold
      have hlower : toLowercase l = l.map Char.toLower :=
        toLowercaseFrom_eq_map l [] fun c hc => hfixed c (List.mem_append_left _ hc)
      have hdot : trimEndMatches '.' d = d := by
        rw [trimEndMatches_eq_self]
        intro hlast
        refine trimEndMatches_eq_self.mp e.settled.2 ?_
        rw [← hdomain, List.getLast?_map, hlast]
        rfl
      have hsettled : toLowercase (trimEndMatches '.' d) = d.map Char.toLower := by
        rw [hdot]
        exact toLowercaseFrom_eq_map d [] fun c hc => hfixed c
          (List.mem_append_right _ (List.mem_cons_of_mem _ hc))
      rw [hsplit] at hparse
      dsimp only at hparse
      split at hparse
      · cases hparse
        refine ⟨⟨d, htrim, hsettled.symm, hlower.symm⟩, ?_⟩
        show toLowercase l ++ '@' :: toLowercase (trimEndMatches '.' d) = _
        rw [hlower, hsettled, hlocal, hdomain]
        rfl
      · cases hparse

end

/-! ## The check on replies -/

namespace AliasRouter

/-- Mail from this sender to this recipient is a reply. -/
def TakesReply (router : AliasRouter) (mailFrom recipient : Str) (h : Host) : Prop :=
  ∃ contactId aliasAddress contactEmail, (exec perform (router.route mailFrom recipient) h).1
    = .ok (.reply contactId aliasAddress contactEmail)

section
variable {router : AliasRouter} {mailFrom recipient : Str} {address m e : EmailAddress}
    {found : ContactWithAlias}
variable {h : Host}

/-- Mail to a reverse alias is a reply if the sender folds to the address of the mailbox. -/
theorem takesReply_iff (hrecipient : EmailAddress.parse recipient = .ok address)
    (hown : router.aliases.ownsDomain address.domain = true)
    (hfound : h.world.db.findContactByReverseAlias address.normalised = some found)
    (hmailbox : found.mailboxEmail = e.normalised) (henabled : found.aliasEnabled = true)
    (hlookup : ¬ router.LookupFails recipient h) :
    router.TakesReply mailFrom recipient h ↔
    (trim mailFrom).map Char.toLower = e.normalised := by
  have hself : e.normalised.map Char.toLower = e.normalised := by
    conv_rhs => rw [← List.map_id e.normalised]
    exact List.map_congr_left fun c hc => toLower_of_fixed (fixed_of_mem_normalised e hc)
  have hauth : eqIgnoreAsciiCase found.mailboxEmail (trim mailFrom) = true ↔
      (trim mailFrom).map Char.toLower = e.normalised := by
    unfold eqIgnoreAsciiCase
    rw [hmailbox, hself, decide_eq_true_eq]
    exact eq_comm
  rw [← hauth]
  constructor
  · rintro ⟨contactId, aliasAddress, contactEmail, hroute⟩
    rcases route_cases router mailFrom recipient h with
      ⟨hfails, -⟩ | ⟨-, ⟨_, _, -, he⟩ | ⟨r, _, hr, he, -⟩⟩
    · exact absurd hfails hlookup
    · rw [he] at hroute
      cases hroute
    · rw [he] at hroute
      cases hroute
      obtain ⟨address', found', hparse', -, hfound', hauth', -⟩ := resolve_reply hr
      cases hrecipient.symm.trans hparse'
      cases hfound.symm.trans hfound'
      exact hauth'
  · intro hauth
    have hresolve := resolve_of_contact hrecipient hown hfound hauth henabled
    rcases route_cases router mailFrom recipient h with
      ⟨hfails, -⟩ | ⟨-, ⟨_, _, hr, -⟩ | ⟨r, _, hr, he, -⟩⟩
    · exact absurd hfails hlookup
    · cases hresolve.symm.trans hr
    · cases hresolve.symm.trans hr
      exact ⟨_, _, _, by rw [he]⟩

/-- The check agrees with the store about a sender exactly if he is a stranger, or the owner
writing his address plainly. -/
theorem reply_owner_iff (hfrom : EmailAddress.parse mailFrom = .ok m)
    (hrecipient : EmailAddress.parse recipient = .ok address)
    (hown : router.aliases.ownsDomain address.domain = true)
    (hfound : h.world.db.findContactByReverseAlias address.normalised = some found)
    (hmailbox : found.mailboxEmail = e.normalised) (henabled : found.aliasEnabled = true)
    (hlookup : ¬ router.LookupFails recipient h) :
    (router.TakesReply mailFrom recipient h ↔ m.normalised = e.normalised) ↔
      (m.normalised = e.normalised → PlainlyWritten mailFrom m) := by
  rw [takesReply_iff hrecipient hown hfound hmailbox henabled hlookup]
  constructor
  · intro hsame hself
    exact (plainlyWritten_of_folded hfrom (hsame.mpr hself)).1
  · intro hplainly
    constructor
    · exact fun hfold => (plainlyWritten_of_folded hfrom hfold).2
    · intro hself
      rw [← hself]
      exact (hplainly hself).folded

/-- The machine after somebody wrote to the alias of `sampleHost`, so that there is a
reverse alias to answer. -/
def contactedHost : Host :=
  (exec perform (getOrCreateContact ['3'] .shop none "ct" "example.com") sampleHost).2

theorem validLocal_contacted : validLocal "ct.ijklmnopqrst" = true := by decide

/-- The reverse alias of `contactedHost`. -/
def contacted : EmailAddress :=
  ⟨"ct.ijklmnopqrst", "example.com", ⟨validLocal_contacted, EmailAddress.shop.valid.2⟩,
    EmailAddress.shop.settled⟩

theorem owns_contacted : sample.aliases.ownsDomain contacted.domain = true := by decide

theorem contacted_found :
    ∃ found, contactedHost.world.db.findContactByReverseAlias contacted.normalised =
      some found ∧
    found.mailboxEmail = EmailAddress.me.normalised ∧ found.aliasEnabled = true := by
  have hmap : (contactedHost.world.db.findContactByReverseAlias contacted.normalised).map
      (fun found => (found.mailboxEmail, found.aliasEnabled))
      = some (EmailAddress.me.normalised, true) := by
    decide +kernel
  obtain ⟨found, hfound, heq⟩ := Option.map_eq_some_iff.mp hmap
  rw [Prod.mk.injEq] at heq
  exact ⟨found, hfound, heq⟩

theorem lookup_contactedHost : ¬ sample.LookupFails contacted.toString contactedHost := by
  have hcalm : contactedHost.chance.fails = false ∧
      contactedHost.skip.chance.fails = false := by
    decide +kernel
  rintro ⟨_, -, -, hfails | ⟨-, hfails⟩⟩
  · rw [hcalm.1] at hfails
    cases hfails
  · rw [hcalm.2] at hfails
    cases hfails

theorem reply_owner_iff_sample :
    (sample.TakesReply "me@Personal.Example" contacted.toString contactedHost ↔
        EmailAddress.me.normalised = EmailAddress.me.normalised) ↔
      (EmailAddress.me.normalised = EmailAddress.me.normalised →
        PlainlyWritten "me@Personal.Example" EmailAddress.me) := by
  obtain ⟨found, hfound, hmailbox, henabled⟩ := contacted_found
  have hfrom : EmailAddress.parse "me@Personal.Example" = .ok EmailAddress.me := by
    decide +kernel
  exact reply_owner_iff hfrom contacted.parse_toString owns_contacted hfound hmailbox
    henabled lookup_contactedHost

/-- The owner writes the dot that ends a full domain name, and is locked out. -/
theorem reply_owner_locked_out :
    ¬ ∀ (router : AliasRouter) (mailFrom recipient : Str) (address m e : EmailAddress)
      (found : ContactWithAlias) (h : Host), EmailAddress.parse mailFrom = .ok m →
      EmailAddress.parse recipient = .ok address →
      router.aliases.ownsDomain address.domain = true →
      h.world.db.findContactByReverseAlias address.normalised = some found →
      found.mailboxEmail = e.normalised → found.aliasEnabled = true →
      ¬ router.LookupFails recipient h →
      (router.TakesReply mailFrom recipient h ↔ m.normalised = e.normalised) := by
  intro hall
  obtain ⟨found, hfound, hmailbox, henabled⟩ := contacted_found
  have hfrom : EmailAddress.parse "me@personal.example." = .ok EmailAddress.me := by
    decide +kernel
  have hsame := hall sample "me@personal.example." contacted.toString contacted .me .me found
    contactedHost hfrom contacted.parse_toString owns_contacted hfound hmailbox henabled
    lookup_contactedHost
  have hfold := (takesReply_iff contacted.parse_toString owns_contacted hfound hmailbox
    henabled lookup_contactedHost).mp (hsame.mpr rfl)
  exact absurd hfold (by decide +kernel)

end

end AliasRouter

end Weiterleitung
