/-
# `Smtp.ReverseAlias` — is a reverse alias that is handed out found again?

A contact keeps its reverse alias as it was composed of the settings and a token; mail to it
is looked up under the normalised form.  The two are the same if the settings are written
the way the lookup writes them (`AliasSettings.Canonical`):

    a composed address is its own normalised form
      ⟺  nothing in the settings is trimmed or lower-cased     (`normalised_eq_iff`)
    the reverse alias of a contact leads back to it
      ⟺  the settings are canonical                            (`reverseAlias_leads_iff`)
-/
import Mathlib
import Weiterleitung.Smtp.Agree

namespace Weiterleitung

open Text Unicode Prog

/-- The prefix and the default domain are plain lower-case text without a trailing dot, and
what follows the last `@` before the default domain is an owned domain. -/
structure AliasSettings.Canonical (settings : AliasSettings) : Prop where
  plain : ∀ c ∈ settings.reverseAliasPrefix ++ settings.defaultDomain, EmailAddress.Plain c
  lower : toLowercase (settings.reverseAliasPrefix ++ settings.defaultDomain)
    = settings.reverseAliasPrefix ++ settings.defaultDomain
  noDot : settings.defaultDomain.getLast? ≠ some '.'
  owned : ∀ u d, '@' :: settings.defaultDomain = u ++ '@' :: d → '@' ∉ d →
    settings.ownsDomain d = true

section
variable {p d : Str} {n : Nat} {symbols : Fin n → Fin 62} {a : EmailAddress}

/-- The last `@` of a composed address stands before the domain or in it. -/
theorem exists_split (d : Str) : ∃ u e, '@' :: d = u ++ '@' :: e ∧ '@' ∉ e := by
  cases hsplit : rsplitOnce '@' ('@' :: d) with
  | none => exact absurd List.mem_cons_self (rsplitOnce_eq_none.mp hsplit)
  | some parts => exact ⟨parts.1, parts.2, rsplitOnce_eq_some.mp hsplit⟩

theorem composeReverseAlias_eq {u e : Str} (p token : Str)
    (hsplit : '@' :: d = u ++ '@' :: e) :
    composeReverseAlias p token d = (p ++ '.' :: token ++ u) ++ '@' :: e := by
  unfold composeReverseAlias
  rw [hsplit, List.append_assoc _ u]

/-- What follows the last `@` ends as the domain does. -/
theorem getLast_split {u e : Str} (hsplit : '@' :: d = u ++ '@' :: e) :
    d.getLast? = some '.' ↔ e.getLast? = some '.' := by
  have hlast := congrArg List.getLast? hsplit
  rw [List.getLast?_append, List.getLast?_cons, List.getLast?_cons, Option.some_or,
    Option.some.injEq] at hlast
  constructor
  · intro h
    rw [h, Option.getD_some] at hlast
    cases he : e.getLast? with
    | none => rw [he] at hlast; exact absurd hlast (by decide)
    | some c => rw [he] at hlast; rw [hlast]; rfl
  · intro h
    rw [h, Option.getD_some] at hlast
    cases hd : d.getLast? with
    | none => rw [hd] at hlast; exact absurd hlast (by decide)
    | some c => rw [hd] at hlast; rw [← hlast]; rfl

/-- A composed address that parses is its own normalised form exactly if its parts are plain
and in lower case, and the domain has no trailing dot. -/
theorem normalised_eq_iff
    (hparse : EmailAddress.parse (composeReverseAlias p (tokenOf symbols) d) = .ok a) :
    a.normalised = composeReverseAlias p (tokenOf symbols) d ↔
      (∀ c ∈ p ++ d, EmailAddress.Plain c) ∧ toLowercase (p ++ d) = p ++ d ∧
      d.getLast? ≠ some '.' := by
  obtain ⟨u, e, hsplit, hat⟩ := exists_split d
  have hcompose := composeReverseAlias_eq p (tokenOf symbols) hsplit
  -- the parts are in the address, and besides them it has a token, a dot and an `@`
  have hmem : ∀ c ∈ p ++ d, c ∈ composeReverseAlias p (tokenOf symbols) d := by
    intro c hc
    unfold composeReverseAlias
    rcases List.mem_append.mp hc with hc | hc <;> simp [hc]
  have hmem' : ∀ c ∈ composeReverseAlias p (tokenOf symbols) d,
      c ∈ p ++ d ∨ EmailAddress.Plain c ∧ Fixed c := by
    intro c hc
    unfold composeReverseAlias at hc
    simp only [List.mem_append, List.mem_cons] at hc
    rcases hc with (hc | rfl | hc) | rfl | hc
    · exact Or.inl (List.mem_append_left _ hc)
    · exact Or.inr (by decide)
    · exact Or.inr (mem_tokenOf hc)
    · exact Or.inr (by decide)
    · exact Or.inl (List.mem_append_right _ hc)
  constructor
  · intro hself
    have hplain : ∀ c ∈ composeReverseAlias p (tokenOf symbols) d, EmailAddress.Plain c := by
      intro c hc
      rw [← hself] at hc
      exact a.mem_normalised hc
    rw [hcompose] at hself
    obtain ⟨hlocal, hdomain⟩ := append_cons_inj_last a.at_not_mem_domain hat hself
    have hfixed : ∀ c ∈ composeReverseAlias p (tokenOf symbols) d, Fixed c := by
      intro c hc
      rw [hcompose, ← hlocal, ← hdomain] at hc
      rcases List.mem_append.mp hc with hc | hc
      · exact toLowercase_eq_self.mp (toLowercase_idem a.localPart) c hc
      · rcases List.mem_cons.mp hc with rfl | hc
        · decide
        · exact toLowercase_eq_self.mp a.settled.1 c hc
    refine ⟨fun c hc => hplain c (hmem c hc), toLowercase_eq_self.mpr
      fun c hc => hfixed c (hmem c hc), ?_⟩
    rw [Ne, getLast_split hsplit, ← hdomain]
    exact trimEndMatches_eq_self.mp a.settled.2
  · rintro ⟨hplain, hlower, hdot⟩
    have hall : ∀ c ∈ composeReverseAlias p (tokenOf symbols) d, EmailAddress.Plain c ∧
        Fixed c := by
      intro c hc
      rcases hmem' c hc with hc | hc
      · exact ⟨hplain c hc, toLowercase_eq_self.mp hlower c hc⟩
      · exact hc
    rw [Ne, getLast_split hsplit] at hdot
    rw [hcompose] at hall hparse ⊢
    rw [EmailAddress.parse_plain (fun c hc => (hall c hc).1) hat] at hparse
    split at hparse
    · cases hparse
      show toLowercase (p ++ '.' :: tokenOf symbols ++ u) ++ '@' :: toLowercase
        (trimEndMatches '.' e) = _
      rw [trimEndMatches_eq_self.mpr hdot,
        toLowercase_eq_self.mpr fun c hc => (hall c (List.mem_append_left _ hc)).2,
        toLowercase_eq_self.mpr fun c hc => (hall c (by simp [hc])).2]
    · cases hparse

/-- A short prefix and a domain of plain characters make addresses with every token. -/
theorem parse_composeReverseAlias (hplain : (p ++ d).all (EmailAddress.Plain ·) = true)
    (hat : '@' ∉ d) (hlen : len p + 1 + n ≤ 64)
    (hd : validDomain (toLowercase (trimEndMatches '.' d)) = true)
    (symbols : Fin n → Fin 62) :
    ∃ a, EmailAddress.parse (composeReverseAlias p (tokenOf symbols) d) = .ok a := by
  have hall : ∀ c ∈ p ++ '.' :: tokenOf symbols ++ '@' :: d, EmailAddress.Plain c := by
    intro c hc
    simp only [List.all_eq_true, decide_eq_true_eq, List.mem_append] at hplain
    simp only [List.mem_append, List.mem_cons] at hc
    rcases hc with (hc | rfl | hc) | rfl | hc
    · exact hplain c (Or.inl hc)
    · decide
    · exact (mem_tokenOf hc).1
    · decide
    · exact hplain c (Or.inr hc)
  have hlocal : validLocal (p ++ '.' :: tokenOf symbols) = true := by
    rw [EmailAddress.validLocal_iff]
    refine ⟨by simp, ?_, fun c hc => hall c (List.mem_append_left _ hc)⟩
    rw [len_append, len_cons, len_tokenOf]
    have hdot : '.'.utf8Size = 1 := rfl
    omega
  unfold composeReverseAlias
  rw [EmailAddress.parse_plain hall hat, dif_pos ⟨hlocal, hd⟩]
  exact ⟨_, rfl⟩

end

namespace AliasRouter

/-- The reverse alias of the contact is an address of an owned domain, its lookup returns the
contact, and mail that the mailbox of an enabled alias sends to it is
a reply to the contact. -/
def LeadsBack (router : AliasRouter) (c : Contact) (db : Db) : Prop :=
  ∃ address found, EmailAddress.parse c.reverseAlias = .ok address ∧
    router.aliases.ownsDomain address.domain = true ∧
    db.findContactByReverseAlias address.normalised = some found ∧ found.toContact = c ∧
    ∀ (mailFrom : Str) (h : Host), h.world.db = db →
      eqIgnoreAsciiCase found.mailboxEmail (trim mailFrom) = true → found.aliasEnabled = true →
      ¬ router.LookupFails c.reverseAlias h →
      (exec perform (router.route mailFrom c.reverseAlias) h).1
        = .ok (.reply c.contactId found.aliasAddress c.email)

variable {router : AliasRouter}

/-- A contact of a reachable store leads back to itself exactly under canonical settings. -/
theorem leadsBack_iff {c : Contact} {db : Db} (hreach : Reachable router.aliases db)
    (hc : c ∈ db.contacts) (hparse : ∀ symbols : Fin 12 → Fin 62, ∃ a,
      EmailAddress.parse (composeReverseAlias
      router.aliases.reverseAliasPrefix (tokenOf symbols) router.aliases.defaultDomain)
        = .ok a) :
    router.LeadsBack c db ↔ router.aliases.Canonical := by
  obtain ⟨symbols, hsymbols⟩ := (hreach.wf.contactForms c hc).2
  obtain ⟨a, ha⟩ := hparse symbols
  have hself := normalised_eq_iff ha
  rw [← hsymbols] at ha hself
  obtain ⟨u, e, hsplit, hat⟩ := exists_split router.aliases.defaultDomain
  have hdomain : a.normalised = c.reverseAlias → a.domain = e := by
    intro h
    rw [hsymbols, composeReverseAlias_eq _ _ hsplit] at h
    exact (append_cons_inj_last a.at_not_mem_domain hat h).2
  constructor
  · rintro ⟨address, found, hparsed, hown, hfound, rfl, -⟩
    cases ha.symm.trans hparsed
    obtain ⟨-, hrev, -⟩ := Db.findContactByReverseAlias_some hfound
    obtain ⟨hplain, hlower, hdot⟩ := hself.mp hrev.symm
    refine ⟨hplain, hlower, hdot, fun u' e' hsplit' hat' => ?_⟩
    obtain ⟨-, rfl⟩ := append_cons_inj_last hat hat' (hsplit.symm.trans hsplit')
    rw [← hdomain hrev.symm]
    exact hown
  · intro hcanonical
    have hnormal := hself.mpr ⟨hcanonical.plain, hcanonical.lower, hcanonical.noDot⟩
    have hown : router.aliases.ownsDomain a.domain = true := by
      rw [hdomain hnormal]
      exact hcanonical.owned u e hsplit hat
    obtain ⟨found, hfound, hcontact⟩ := hreach.wf.findContactByReverseAlias hc
    rw [← hnormal] at hfound
    refine ⟨a, found, ha, hown, hfound, hcontact, ?_⟩
    rintro mailFrom h rfl hauth henabled hlookup
    have hresolve : router.resolve mailFrom c.reverseAlias h.world.db = _ :=
      resolve_of_contact ha hown hfound hauth henabled
    rcases route_cases router mailFrom c.reverseAlias h with
      ⟨hfails, -⟩ | ⟨-, ⟨e, t, hr, -⟩ | ⟨r, t, hr, he, -⟩⟩
    · exact absurd hfails hlookup
    · cases hresolve.symm.trans hr
    · cases hresolve.symm.trans hr
      rw [he, hcontact]

/-- The reverse alias of the contact that `get_or_create_contact` returns leads back to it, for
whatever alias and sender, if and only if the settings are canonical. -/
theorem reverseAlias_leads_iff (router : AliasRouter) (aliasId : Str) (email : EmailAddress)
    (name : Option Str) (h t : Host) (c : Contact)
    (hparse : ∀ symbols : Fin 12 → Fin 62, ∃ a, EmailAddress.parse (composeReverseAlias
      router.aliases.reverseAliasPrefix (tokenOf symbols) router.aliases.defaultDomain)
        = .ok a)
    (hreach : Reachable router.aliases h.world.db)
    (hget : exec perform
      (getOrCreateContact aliasId email name router.aliases.reverseAliasPrefix
      router.aliases.defaultDomain) h = (.ok c, t)) :
    router.LeadsBack c t.world.db ↔ router.aliases.Canonical := by
  have hlater := later_exec (uses_mono (fun o ho => legal_of_routing o (routing_of_aside o ho))
    (uses_getOrCreateContact router.aliases aliasId email name)) h
  rw [hget] at hlater
  exact leadsBack_iff (hreach.trans hlater) (getOrCreateContact_ok hget).1 hparse

/-- Under the prefix `ct` of the store with one alias. -/
theorem reverseAlias_leads_iff_sample :
    ∃ c t, exec perform (getOrCreateContact ['3'] EmailAddress.me none "ct" "example.com")
      sampleHost = (.ok c, t) ∧
      (sample.LeadsBack c t.world.db ↔ sample.aliases.Canonical) := by
  have hget : (exec perform (getOrCreateContact ['3'] EmailAddress.me none "ct" "example.com")
      sampleHost).1.toOption.isSome = true := by decide +kernel
  rcases hrun : exec perform (getOrCreateContact ['3'] EmailAddress.me none "ct" "example.com")
    sampleHost with ⟨e | c, t⟩
  · rw [hrun] at hget
    cases hget
  · exact ⟨c, t, rfl, reverseAlias_leads_iff sample ['3'] EmailAddress.me none sampleHost t c
      (parse_composeReverseAlias (by decide +kernel) (by decide) (by decide)
        (by decide +kernel))
      (reachable_sampleHost _) hrun⟩

/-- The contact was made, and its reverse alias is not the way to it. -/
def isLost : Except Str Contact × Host → Bool
  | (.ok c, t) =>
      match EmailAddress.parse c.reverseAlias with
      | .ok a => (t.world.db.findContactByReverseAlias a.normalised).isNone
      | .error _ => true
  | (.error _, _) => false

/-- Under the prefix `CT` the lookup of a new reverse alias finds nothing. -/
theorem reverseAlias_leads_nowhere :
    ¬ ∀ (router : AliasRouter) (aliasId : Str) (email : EmailAddress) (name : Option Str)
    (h t : Host) (c : Contact),
    (∀ symbols : Fin 12 → Fin 62, ∃ a, EmailAddress.parse (composeReverseAlias
        router.aliases.reverseAliasPrefix (tokenOf symbols) router.aliases.defaultDomain) =
          .ok a) →
      Reachable router.aliases h.world.db →
      exec perform (getOrCreateContact aliasId email name router.aliases.reverseAliasPrefix
        router.aliases.defaultDomain) h = (.ok c, t) →
      router.LeadsBack c t.world.db := by
  intro hall
  let router : AliasRouter := ⟨⟨["example.com".toList], "CT"⟩, "mail"⟩
  have hlost :
      isLost (exec perform (getOrCreateContact ['3'] EmailAddress.me none "CT" "example.com")
      sampleHost) = true := by decide +kernel
  rcases hrun : exec perform (getOrCreateContact ['3'] EmailAddress.me none "CT" "example.com")
    sampleHost with ⟨e | c, t⟩
  · rw [hrun] at hlost
    cases hlost
  · rw [hrun] at hlost
    obtain ⟨address, found, hparse, -, hfound, -⟩ :=
      hall router ['3'] EmailAddress.me none sampleHost t c
      (parse_composeReverseAlias (by decide +kernel) (by decide) (by decide)
        (by decide +kernel))
      (reachable_sampleHost _) hrun
    dsimp only [isLost] at hlost
    rw [hparse] at hlost
    dsimp only at hlost
    rw [hfound] at hlost
    cases hlost

end AliasRouter

end Weiterleitung
