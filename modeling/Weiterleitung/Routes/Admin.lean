/-
# `Routes.Admin` — making aliases, and the addresses they take

An alias gets the address that the operator asks for, or a random one.  Before it is made the
aliases are searched for that address; the reverse aliases, which the server takes mail for
under the same domain, are not.  So two tables share the addresses and each guards its own:

    a call adds at most one alias, with the address of the form     (`createAlias_db`)
    or one contact, with the reverse alias that was drawn           (`getOrCreateContact_db`)
    the addresses are apart in every state, if no call is given or
      draws one that the other table has                            (`addresses_apart`)
-/
import Mathlib
import Weiterleitung.Smtp.Router
import Weiterleitung.Store.Reachable

namespace Weiterleitung

open Text Prog

/-! ## The source -/

def words : List Str :=
  ["amber", "basalt", "cedar", "delta", "ember", "fjord", "gable", "harbor", "indigo",
    "juniper", "kelp", "lumen", "marble", "nimbus", "onyx", "pebble", "quartz",
    "ripple", "slate", "tundra",
    "umber", "vellum", "willow", "xenon", "yarrow", "zephyr"]

/-- `rng.gen_range(0..n)`.  The draw is one of 62 symbols, so any index
below `n ≤ 62` comes up. -/
def genRange (n : Nat) : Prog Op Res Nat := do
  let symbols ← op (Op.sample 1)
  return (symbols 0).val % n

/-- Local part for a generated alias, e.g. `cedar-ripple.4f8a`. -/
def randomLocalPart : Prog Op Res Str := do
  let first ← genRange words.length
  let second ← genRange words.length
  let symbols ← op (Op.sample 4)
  return words.getD first [] ++ '-' :: words.getD second [] ++ '.' :: tokenOf symbols

structure CreateAliasForm where
  localPart : Str
  mailboxId : Str
  note : Str

/-- What the operator sees next: the dashboard with a message, or an error page. -/
inductive Shown where
  | flashError (message : Str)
  | flashInfo (message : Str)
  | internalError (context : Str)
  deriving DecidableEq

/-- The local part that is asked for, or a random one. -/
def chooseLocalPart (form : CreateAliasForm) : Prog Op Res Str :=
  if (trim form.localPart).isEmpty then randomLocalPart else return trim form.localPart

def createAlias (aliases : AliasSettings) (form : CreateAliasForm) : Prog Op Res Shown := do
  let localPart ← chooseLocalPart form
  match EmailAddress.parse (localPart ++ '@' :: aliases.defaultDomain) with
  | .error e => return .flashError e
  | .ok address =>
      match ← (findAliasByAddress address).run with
      | .ok (some _) => return .flashError (address.toString ++ " already exists".toList)
      | .error _ => return .internalError "Failed to check for an existing alias"
      | .ok none => do
          let note := if (trim form.note).isEmpty then none else some (trim form.note)
          match ← (insertAlias address form.mailboxId note).run with
          | .ok inserted => return .flashInfo ("Created ".toList ++ inserted.address)
          | .error _ => return .flashError "Failed to create the alias"

/-! ## What a call adds -/

section
variable (h : Host)

/-- Choosing a local part changes nothing. -/
theorem chooseLocalPart_world (form : CreateAliasForm) :
    (run perform (chooseLocalPart form) h).2.world = h.world := by
  unfold chooseLocalPart
  split <;> rfl

theorem insertAlias_db (address : EmailAddress) (mailboxId : Str) (note : Option Str) :
    (exec perform (insertAlias address mailboxId note) h).2.world.db = h.world.db ∨
      ∃ a : Alias, a.address = address.normalised ∧
        h.world.db.insertAlias a
          = some (exec perform (insertAlias address mailboxId note) h).2.world.db := by
  unfold insertAlias
  rw [exec_bind_of_ok perform (exec_newUuid h), exec_bind_of_ok perform (exec_utcNow h.skip)]
  dsimp only
  generalize ha : Alias.mk h.chance.uuid address.normalised mailboxId note true 0 0 0
    h.skip.chance.now.toRfc3339 none = a
  have haddress : a.address = address.normalised := by rw [← ha]
  rcases exec_write_cases h.skip.skip (.insertAlias a) with ⟨db, -, hdb, he⟩ | ⟨-, he⟩
  · rw [exec_bind_of_ok perform (exec_context_ok he)]
    exact Or.inr ⟨a, haddress, hdb⟩
  · rw [exec_bind_of_error perform (exec_context_error he)]
    exact Or.inl rfl

/-- An alias that is made has the address of the form. -/
theorem createAlias_db (aliases : AliasSettings) (form : CreateAliasForm) :
    (run perform (createAlias aliases form) h).2.world.db = h.world.db ∨
      ∃ (address : EmailAddress) (a : Alias),
        EmailAddress.parse ((run perform (chooseLocalPart form) h).1 ++ '@' ::
          aliases.defaultDomain) = .ok address ∧
        a.address = address.normalised ∧
        h.world.db.insertAlias a
          = some (run perform (createAlias aliases form) h).2.world.db := by
  unfold createAlias
  rw [run_bind, ← chooseLocalPart_world h form]
  generalize run perform (chooseLocalPart form) h = chosen
  obtain ⟨localPart, t⟩ := chosen
  dsimp only
  cases hparse : EmailAddress.parse (localPart ++ '@' :: aliases.defaultDomain) with
  | error e => exact Or.inl rfl
  | ok address =>
      dsimp only
      have hfind : run perform (findAliasByAddress address).run t
          = (t.chance.give (t.world.db.findAliasByAddress address.normalised), t.skip) := rfl
      rw [run_bind, hfind]
      dsimp only
      rcases t.chance.give (t.world.db.findAliasByAddress address.normalised) with e | found
      · exact Or.inl rfl
      · cases found with
        | some found => exact Or.inl rfl
        | none =>
            dsimp only
            rw [run_bind]
            have hinsert := insertAlias_db t.skip address form.mailboxId
              (if (trim form.note).isEmpty then none else some (trim form.note))
            have hrest : ∀ (r : Except Str Alias) (u : Host), (run perform (match r with
                | .ok inserted =>
                    return Shown.flashInfo ("Created ".toList ++ inserted.address)
                | .error _ => return Shown.flashError "Failed to create the alias" :
                    Prog Op Res Shown) u).2 = u := by
              intro r u
              cases r <;> rfl
            rw [hrest]
            rcases hinsert with he | ⟨a, haddress, ha⟩
            · exact Or.inl he
            · exact Or.inr ⟨address, a, rfl, haddress, ha⟩

/-- The reverse alias that a call draws. -/
def drawnReverseAlias (settings : AliasSettings) : Str :=
  composeReverseAlias settings.reverseAliasPrefix
    (tokenOf fun i : Fin 12 => h.skip.skip.chance.symbol i) settings.defaultDomain

/-- A contact is made for a new pair, with the reverse alias that was drawn. -/
theorem getOrCreateContact_db (settings : AliasSettings) (aliasId : Str) (email : EmailAddress)
    (name : Option Str) :
    (exec perform (getOrCreateContact aliasId email name settings.reverseAliasPrefix
      settings.defaultDomain) h ).2.world.db = h.world.db ∨
    h.world.db.findContact aliasId email.normalised = none ∧
    ∃ c : Contact, c.reverseAlias = drawnReverseAlias h settings ∧ h.world.db.insertContact c =
      some (exec perform (getOrCreateContact aliasId email name settings.reverseAliasPrefix
        settings.defaultDomain) h ).2.world.db := by
  unfold getOrCreateContact
  rcases give_cases (exec_findContact aliasId email.normalised h) with ⟨-, he⟩ | ⟨-, he⟩
  · dsimp only
    rw [exec_bind_of_error perform he]
    exact Or.inl rfl
  · dsimp only
    rw [exec_bind_of_ok perform he]
    cases hnone : h.world.db.findContact aliasId email.normalised with
    | some existing => exact Or.inl rfl
    | none =>
        dsimp only
        rw [exec_bind_of_ok perform (exec_newUuid h.skip), exec_bind_of_ok perform
          (exec_randomToken 12 _), exec_bind_of_ok perform (exec_utcNow _)]
        generalize hc : Contact.mk h.skip.chance.uuid aliasId email.normalised name
          (composeReverseAlias settings.reverseAliasPrefix
            (tokenOf fun i : Fin 12 => h.skip.skip.chance.symbol i)
            settings.defaultDomain) h.skip.skip.skip.chance.now.toRfc3339 = c
        have hreverse : c.reverseAlias = drawnReverseAlias h settings := by rw [← hc]; rfl
        rcases exec_write_cases h.skip.skip.skip.skip (.insertContact c)
          with ⟨db, -, hdb, he⟩ | ⟨-, he⟩
        · obtain ⟨t, hworld, he⟩ : ∃ t, t.world.db = db ∧
              exec perform (write (.insertContact c)) h.skip.skip.skip.skip = (.ok (), t) :=
                ⟨_, rfl, he⟩
          rw [exec_bind_of_ok perform (exec_context_ok he)]
          refine Or.inr ⟨rfl, c, hreverse, ?_⟩
          rcases give_cases (exec_findContact aliasId email.normalised t)
            with ⟨-, he⟩ | ⟨-, he⟩
          · rw [exec_bind_of_error perform he]
            exact hdb.trans (congrArg some hworld.symm)
          · rw [exec_bind_of_ok perform he]
            cases t.world.db.findContact aliasId email.normalised <;> exact hdb.trans
              (congrArg some hworld.symm)
        · rw [exec_bind_of_error perform (exec_context_error he)]
          exact Or.inl rfl

end

/-! ## Calls one after the other -/

/-- The calls that make, change and remove aliases and contacts. -/
inductive StoreCall where
  | insertMailbox (email : EmailAddress) (isDefault : Bool)
  | createAlias (form : CreateAliasForm)
  | getOrCreateContact (aliasId : Str) (email : EmailAddress) (name : Option Str)
  | setAliasEnabled (aliasId : Str) (enabled : Bool)
  | deleteAlias (aliasId : Str)
  | deleteMailbox (mailboxId : Str)

namespace StoreCall

variable (settings : AliasSettings) (h : Host)

/-- The machine after the call. -/
def after : StoreCall → Host
  | insertMailbox email isDefault =>
      (exec perform (Weiterleitung.insertMailbox email isDefault) h).2
  | createAlias form => (run perform (Weiterleitung.createAlias settings form) h).2
  | getOrCreateContact aliasId email name =>
      (exec perform
        (Weiterleitung.getOrCreateContact aliasId email name settings.reverseAliasPrefix
        settings.defaultDomain) h).2
  | setAliasEnabled aliasId enabled =>
      (exec perform (Weiterleitung.setAliasEnabled aliasId enabled) h).2
  | deleteAlias aliasId => (exec perform (Weiterleitung.deleteAlias aliasId) h).2
  | deleteMailbox mailboxId => (exec perform (Weiterleitung.deleteMailbox mailboxId) h).2

/-- No address is asked for or drawn that the other table has. -/
def Clear : StoreCall → Prop
  | createAlias form => ∀ address : EmailAddress,
      EmailAddress.parse ((run perform (chooseLocalPart form) h).1 ++ '@' ::
        settings.defaultDomain) = .ok address →
      ∀ c ∈ h.world.db.contacts, c.reverseAlias ≠ address.normalised
  | getOrCreateContact aliasId email _ =>
      h.world.db.findContact aliasId email.normalised = none →
          ∀ a ∈ h.world.db.aliases, a.address ≠ drawnReverseAlias h settings
  | _ => True

end StoreCall

/-- The tables after calls that are allowed, from the empty ones. -/
inductive Managed (settings : AliasSettings) (allowed : Host → StoreCall → Prop) : Db → Prop
  | empty : Managed settings allowed Db.empty
  | call (h : Host) (c : StoreCall) : Managed settings allowed h.world.db → allowed h c →
      Managed settings allowed (c.after settings h).world.db

/-- No address is both an alias and a reverse alias. -/
def Apart (db : Db) : Prop := ∀ a ∈ db.aliases, ∀ c ∈ db.contacts, a.address ≠ c.reverseAlias

section
variable {db db' : Db}

/-- Fewer aliases and contacts are still apart. -/
theorem Apart.mono (h : Apart db) (haliases : ∀ a ∈ db'.aliases, ∃ b ∈ db.aliases,
      b.address = a.address)
    (hcontacts : ∀ c ∈ db'.contacts, c ∈ db.contacts) : Apart db' := by
  intro a ha c hc
  obtain ⟨b, hb, haddress⟩ := haliases a ha
  rw [← haddress]
  exact h b hb c (hcontacts c hc)

theorem Apart.insertAlias (h : Apart db) {a : Alias} (hdb : db.insertAlias a = some db')
    (hnew : ∀ c ∈ db.contacts, c.reverseAlias ≠ a.address) : Apart db' := by
  obtain ⟨-, -, rfl⟩ := Db.insertAlias_eq_some hdb
  intro b hb c hc
  rcases List.mem_append.mp hb with hb | hb
  · exact h b hb c hc
  · rw [List.mem_singleton.mp hb]
    exact (hnew c hc).symm

theorem Apart.insertContact (h : Apart db) {c : Contact} (hdb : db.insertContact c = some db')
    (hnew : ∀ a ∈ db.aliases, a.address ≠ c.reverseAlias) : Apart db' := by
  rcases Db.insertContact_eq_some hdb with ⟨-, rfl⟩ | ⟨-, -, -, rfl⟩
  · exact h
  · intro a ha d hd
    rcases List.mem_append.mp hd with hd | hd
    · exact h a ha d hd
    · rw [List.mem_singleton.mp hd]
      exact hnew a ha

/-- At most one of the two lookups finds an address. -/
theorem Apart.lookups (h : Apart db) (address : Str) :
    db.findContactByReverseAlias address = none ∨ db.findAliasByAddress address = none := by
  cases hcontact : db.findContactByReverseAlias address with
  | none => exact Or.inl rfl
  | some contact =>
      refine Or.inr ?_
      cases halias : db.findAliasByAddress address with
      | none => rfl
      | some found =>
          obtain ⟨hc, hreverse, -⟩ := Db.findContactByReverseAlias_some hcontact
          obtain ⟨ha, haddress, -⟩ := Db.findAliasByAddress_some halias
          exact absurd (haddress.trans hreverse.symm) (h _ ha _ hc)

end

/-- Operations that make neither an alias nor a contact. -/
def Making : Op → Prop
  | .write (.insertAlias _) | .write (.insertContact _) => True
  | _ => False

theorem apart_of_write {u : Write} {db db' : Db} (hu : ¬ Making (.write u))
    (hdb : u.apply db = some db') (h : Apart db) : Apart db' := by
  cases effect_of_write hdb with
  | removes => exact h.mono (fun a ha => ⟨a, List.mem_of_mem_filter ha, rfl⟩) fun c hc =>
      List.mem_of_mem_filter hc
  | updates _ mailboxes f g hf hg =>
      refine h.mono (fun a ha => ?_) fun c hc => hc
      obtain ⟨b, hb, rfl⟩ := List.mem_map.mp ha
      exact ⟨b, hb, (hf b).2.symm⟩
  | addsAlias | addsContact => exact absurd trivial hu
  | addsRow => exact h

theorem apart_of_answer {o : Op} (ho : ¬ Making o) (c : Chance) (w : World) (h : Apart w.db) :
    Apart (answer o c w).2.db := by
  rcases answer_db_cases o c w with he | ⟨u, rfl, hu⟩ | ⟨now, n, rfl, f, -, he⟩
  · rw [he]
    exact h
  · exact apart_of_write ho hu h
  · rw [he]
    exact h

/-- Code that makes no alias and no contact keeps them apart. -/
theorem apart_exec {α : Type} {x : App α} (hx : Uses (fun o => ¬ Making o) x.run) (h : Host)
    (hapart : Apart h.world.db) : Apart (exec perform x h).2.world.db :=
  run_rel perform (R := fun h h' => Apart h.world.db → Apart h'.world.db) (fun _ => id)
    (fun hst htu hs => htu (hst hs)) (fun _ ho h => apart_of_answer ho h.chance h.world)
    hx h hapart

theorem making_insertMailbox (email : EmailAddress) (isDefault : Bool) :
    Uses (fun o => ¬ Making o) (insertMailbox email isDefault).run := by
  refine ⟨id, fun mailboxId => ⟨id, fun createdAt => ⟨id, fun r => ?_⟩⟩⟩
  cases r <;> trivial

theorem making_write {u : Write} (hu : ¬ Making (.write u)) :
    Uses (fun o => ¬ Making o) (write u).run :=
  ⟨hu, fun _ => trivial⟩

/-- A call that is clear keeps aliases and reverse aliases apart. -/
theorem apart_after (settings : AliasSettings) (h : Host) (call : StoreCall)
    (hclear : call.Clear settings h)
    (hapart : Apart h.world.db) : Apart (call.after settings h).world.db := by
  cases call with
  | insertMailbox email isDefault =>
      exact apart_exec (making_insertMailbox email isDefault) h hapart
  | setAliasEnabled aliasId enabled => exact apart_exec (making_write id) h hapart
  | deleteAlias aliasId => exact apart_exec (making_write id) h hapart
  | deleteMailbox mailboxId => exact apart_exec (making_write id) h hapart
  | createAlias form =>
      rcases createAlias_db h settings form with he | ⟨address, a, hparse, haddress, hdb⟩
      · rw [← he] at hapart
        exact hapart
      · refine hapart.insertAlias hdb ?_
        rw [haddress]
        exact hclear address hparse
  | getOrCreateContact aliasId email name =>
      rcases getOrCreateContact_db h settings aliasId email name
        with he | ⟨hnone, c, hreverse, hdb⟩
      · rw [← he] at hapart
        exact hapart
      · refine hapart.insertContact hdb ?_
        rw [hreverse]
        exact hclear hnone

theorem Managed.apart {settings : AliasSettings} {db : Db}
    (h : Managed settings (fun h c => c.Clear settings h) db) :
    Apart db := by
  induction h with
  | empty => exact fun a ha => nomatch ha
  | call h c _ hclear ih => exact apart_after settings h c hclear ih

/-- After calls that are clear no address is both an alias and a reverse alias: at most one of
the two lookups of `route` finds an address, and mail to an enabled alias is forwarded. -/
theorem addresses_apart (router : AliasRouter) (h : Host)
    (hcalls : Managed router.aliases (fun h c => c.Clear router.aliases h) h.world.db) :
    (∀ a ∈ h.world.db.aliases, ∀ c ∈ h.world.db.contacts, a.address ≠ c.reverseAlias) ∧
    (∀ address : EmailAddress, h.world.db.findContactByReverseAlias address.normalised = none ∨
      h.world.db.findAliasByAddress address.normalised = none) ∧
    ∀ (mailFrom recipient : Str) (address : EmailAddress) (found : AliasWithMailbox),
      EmailAddress.parse recipient = .ok address →
      router.aliases.ownsDomain address.domain = true →
      h.world.db.findAliasByAddress address.normalised = some found →
      found.toAlias.enabled = true →
      ¬ router.LookupFails recipient h →
      (exec perform (router.route mailFrom recipient) h).1
        = .ok (.forward found.toAlias.aliasId found.toAlias.address) := by
  have hapart := hcalls.apart
  refine ⟨hapart, fun address => hapart.lookups address.normalised, ?_⟩
  intro mailFrom recipient address found hparse hown hfound henabled hlookups
  have hcontact : h.world.db.findContactByReverseAlias address.normalised = none := by
    rcases hapart.lookups address.normalised with hnone | hnone
    · exact hnone
    · rw [hfound] at hnone
      cases hnone
  have hresolve : router.resolve mailFrom recipient h.world.db = _ :=
    AliasRouter.resolve_of_alias hparse hown hcontact hfound henabled
  rcases router.route_cases mailFrom recipient h
    with ⟨hf, -⟩ | ⟨-, ⟨e, h', hr, -⟩ | ⟨r, h', hr, he, -⟩⟩
  · exact absurd hf hlookups
  · rw [hresolve] at hr
    cases hr
  · rw [hresolve] at hr
    cases hr
    rw [he]

/-! ### A custom local part -/

/-- The machine after the calls, one after the other. -/
def afterCalls (calls : List StoreCall) : Host :=
  calls.foldl (StoreCall.after AliasRouter.sample.aliases) (Host.calm ⟨Db.empty, [], []⟩)

theorem managed_afterCalls {allowed : Host → StoreCall → Prop} (calls : List StoreCall)
    (hall : ∀ n c, c ∈ calls[n]? → allowed (afterCalls (calls.take n)) c) :
    Managed AliasRouter.sample.aliases allowed (afterCalls calls).world.db := by
  induction calls using List.reverseRecOn with
  | nil => exact .empty
  | append_singleton calls call ih =>
      have hlast := hall calls.length call (by simp)
      rw [List.take_left] at hlast
      have hstep := Managed.call (afterCalls calls) call (ih fun n c hc => ?_) hlast
      · unfold afterCalls
        rw [List.foldl_append]
        exact hstep
      · have hlt : n < calls.length := (List.getElem?_eq_some_iff.mp hc).1
        have hn := hall n c (by rw [List.getElem?_append_left hlt]; exact hc)
        rwa [List.take_append_of_le_length (Nat.le_of_lt hlt)] at hn

/-- A mailbox and the alias `shop@example.com`, which gets a correspondent. -/
def correspondence : List StoreCall :=
  [.insertMailbox EmailAddress.me true, .createAlias ⟨"shop", ['0'], []⟩,
    .getOrCreateContact ['4'] EmailAddress.me none]

/-- The operator asks for the local part of the reverse alias. -/
def reverseAliasForm : CreateAliasForm := ⟨"ct.jklmnopqrstu", ['0'], []⟩

/-- The alias is made, and mail to it is taken for a reply. -/
theorem alias_of_reverse_alias :
    ¬ ∀ (router : AliasRouter) (h : Host), Managed router.aliases
      (fun _ _ => True) h.world.db →
      (∀ a ∈ h.world.db.aliases, ∀ c ∈ h.world.db.contacts, a.address ≠ c.reverseAlias) := by
  intro hall
  have hboth :
      ∃ a ∈ (afterCalls (correspondence ++ [.createAlias reverseAliasForm])).world.db.aliases,
      ∃ c ∈ (afterCalls (correspondence ++ [.createAlias reverseAliasForm])).world.db.contacts,
        a.address = c.reverseAlias := by decide +kernel
  obtain ⟨a, ha, c, hc, heq⟩ := hboth
  exact hall AliasRouter.sample _ (managed_afterCalls _ fun _ _ _ => trivial) a ha c hc heq

theorem addresses_apart_sample :
    (∀ a ∈ (afterCalls correspondence).world.db.aliases,
      ∀ c ∈ (afterCalls correspondence).world.db.contacts, a.address ≠ c.reverseAlias) ∧
    (afterCalls correspondence).world.db.contacts.map (·.reverseAlias)
      = ["ct.jklmnopqrstu@example.com".toList] := by
  refine ⟨(addresses_apart AliasRouter.sample (afterCalls correspondence) ?_).1, by
    decide +kernel⟩
  have hnone : (afterCalls (correspondence.take 1)).world.db.contacts = [] := by decide +kernel
  have hdrawn : ∀ a ∈ (afterCalls (correspondence.take 2)).world.db.aliases,
      a.address ≠ drawnReverseAlias (afterCalls (correspondence.take 2))
        AliasRouter.sample.aliases := by
    decide +kernel
  refine managed_afterCalls correspondence fun n call hcall => ?_
  match n, hcall with
  | 0, rfl => exact trivial
  | 1, rfl =>
      intro address _ c hc
      rw [hnone] at hc
      cases hc
  | 2, rfl => exact fun _ => hdrawn
  | n + 3, hcall => cases hcall

end Weiterleitung
