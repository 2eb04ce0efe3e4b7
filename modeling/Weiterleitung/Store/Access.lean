/-
# `Store.Access` — mailboxes, aliases and contacts, as the rest of the program uses them

The functions of `mailbox`, `alias` and `contact` that issue statements.  Each is the
source function step by step; the lemmas say what one call can do:

    a lookup changes nothing and returns what the tables hold   (`exec_findAliasByAddress`, …)
    a returned contact is in the table, for that alias and
      that sender                                               (`getOrCreateContact_ok`)
    a reverse alias that parses is looked up as it was
      composed                                                  (`normalised_of_parse_compose`)
-/
import Mathlib
import Weiterleitung.Store.Op

namespace Weiterleitung

open Text Prog

/-- `anyhow::Context::context`: the error gets a new outermost message. -/
def context {α : Type} (message : Str) (x : App α) : App α := mapErr (fun _ => message) x

section
variable {α : Type} {message e : Str} {x : App α} {a : α} {h h' : Host}

theorem exec_context_ok (hx : exec perform x h = (.ok a, h')) :
    exec perform (context message x) h = (.ok a, h') :=
  exec_mapErr_ok perform hx

theorem exec_context_error (hx : exec perform x h = (.error e, h')) :
    exec perform (context message x) h = (.error message, h') :=
  exec_mapErr_error perform hx

end

/-! ## Random tokens -/

/-- The symbols of `rand::distributions::Alphanumeric`. -/
def alphanumeric (i : Fin 62) : Char :=
  if i.val < 26 then Char.ofNat (65 + i.val)
  else if i.val < 52 then Char.ofNat (97 + (i.val - 26))
  else Char.ofNat (48 + (i.val - 52))

/-- The token made of drawn symbols. -/
def tokenOf {n : Nat} (symbols : Fin n → Fin 62) : Str :=
  (List.ofFn symbols).map fun i => (alphanumeric i).toLower

/-- Lowercase alphanumeric token, e.g. `9f2a1b`. -/
def randomToken (length : Nat) : App Str := do
  let symbols ← sampleAlphanumeric length
  return tokenOf symbols

@[simp] theorem exec_randomToken (n : Nat) (h : Host) :
    exec perform (randomToken n) h = (.ok (tokenOf fun i : Fin n => h.chance.symbol i),
      h.skip) := rfl

/-- A token has nothing that the parser refuses or that lower-casing changes. -/
theorem mem_tokenOf {n : Nat} {symbols : Fin n → Fin 62} {c : Char}
    (hc : c ∈ tokenOf symbols) :
    EmailAddress.Plain c ∧ Unicode.Fixed c := by
  obtain ⟨i, -, rfl⟩ := List.mem_map.mp hc
  have key : ∀ i : Fin 62, EmailAddress.Plain (alphanumeric i).toLower ∧
      Unicode.Fixed (alphanumeric i).toLower := by decide +kernel
  exact key i

/-- A token of `n` symbols is `n` bytes long. -/
theorem len_tokenOf {n : Nat} (symbols : Fin n → Fin 62) : len (tokenOf symbols) = n := by
  have key : ∀ i : Fin 62, (alphanumeric i).toLower.utf8Size = 1 := by decide +kernel
  have hone : ∀ c ∈ tokenOf symbols, c.utf8Size = 1 := by
    intro c hc
    obtain ⟨i, -, rfl⟩ := List.mem_map.mp hc
    exact key i
  unfold len
  rw [List.map_congr_left hone, List.map_const', List.sum_replicate]
  simp [tokenOf]

/-! ## Mailboxes -/

def insertMailbox (email : EmailAddress) (isDefault : Bool) : App Mailbox := do
  let mailboxId ← newUuid
  let createdAt ← utcNow
  let mailbox : Mailbox :=
    { mailboxId := mailboxId, email := email.normalised, isDefault := isDefault,
      createdAt := createdAt.toRfc3339 }
  context "Failed to insert the mailbox" (write (.insertMailbox mailbox))
  return mailbox

def deleteMailbox (mailboxId : Str) : App Unit := write (.deleteMailbox mailboxId)

/-! ## Aliases -/

def insertAlias (address : EmailAddress) (mailboxId : Str) (note : Option Str) :
    App Alias := do
  let aliasId ← newUuid
  let createdAt ← utcNow
  let inserted : Alias :=
    { aliasId := aliasId, address := address.normalised, mailboxId := mailboxId, note := note,
      enabled := true, forwardCount := 0, replyCount := 0, blockedCount := 0,
      createdAt := createdAt.toRfc3339, lastUsedAt := none }
  context "Failed to insert the alias" (write (.insertAlias inserted))
  return inserted

def findAliasByAddress (address : EmailAddress) : App (Option AliasWithMailbox) :=
  ExceptT.mk (op (Op.findAliasByAddress address.normalised))

def setAliasEnabled (aliasId : Str) (enabled : Bool) : App Unit :=
  write (.setAliasEnabled aliasId enabled)

def deleteAlias (aliasId : Str) : App Unit := write (.deleteAlias aliasId)

def recordAliasActivity (aliasId : Str) (counter : AliasCounter) : App Unit := do
  let now ← utcNow
  write (.recordAliasActivity aliasId counter now.toRfc3339)

@[simp] theorem exec_findAliasByAddress (address : EmailAddress) (h : Host) :
    exec perform (findAliasByAddress address) h
      = (h.chance.give (h.world.db.findAliasByAddress address.normalised), h.skip) := rfl

/-! ## Contacts -/

/-- `{reverse_alias_prefix}.{token}@{reverse_alias_domain}`. -/
def composeReverseAlias (reverseAliasPrefix token reverseAliasDomain : Str) : Str :=
  reverseAliasPrefix ++ '.' :: token ++ '@' :: reverseAliasDomain

/-- If one composed address is a normalised form, then each composed address that parses is
its own normalised form. -/
theorem normalised_of_parse_compose {p d : Str} {n : Nat} {symbols symbols' : Fin n → Fin 62}
    {a b : EmailAddress}
    (hparse : EmailAddress.parse (composeReverseAlias p (tokenOf symbols) d) = .ok a)
    (hb : b.normalised = composeReverseAlias p (tokenOf symbols') d) :
    a.normalised = composeReverseAlias p (tokenOf symbols) d := by
  -- the domain is what follows the last `@`, wherever it is
  obtain ⟨⟨u, dom⟩, hsplit⟩ := Option.ne_none_iff_exists'.mp
    fun h0 : rsplitOnce '@' ('@' :: d) = none =>
    rsplitOnce_eq_none.mp h0 List.mem_cons_self
  obtain ⟨hd, hat⟩ := rsplitOnce_eq_some.mp hsplit
  have hcompose : ∀ t, composeReverseAlias p t d = (p ++ '.' :: t ++ u) ++ '@' :: dom := by
    intro t
    unfold composeReverseAlias
    rw [hd, List.append_assoc _ u]
  rw [hcompose] at hb hparse ⊢
  have hplain := fun c (hc : c ∈ Unicode.toLowercase b.localPart) =>
    EmailAddress.plain_of_mem_toLowercase
      (fun _ hd => EmailAddress.plain_of_mem_localPart b hd) hc
  have hfixed := fun c (hc : c ∈ Unicode.toLowercase b.localPart) =>
    Unicode.toLowercase_eq_self.mp (Unicode.toLowercase_idem b.localPart) c hc
  obtain ⟨hlocal, rfl⟩ := append_cons_inj_last b.at_not_mem_domain hat hb
  rw [hlocal] at hplain hfixed
  -- what stands around the token is the same in both
  have hall : ∀ c ∈ p ++ '.' :: tokenOf symbols ++ u, EmailAddress.Plain c ∧
      Unicode.Fixed c := by
    intro c hc
    have hsame : c ∈ p ++ '.' :: tokenOf symbols' ++ u → EmailAddress.Plain c ∧
        Unicode.Fixed c :=
      fun h => ⟨hplain c h, hfixed c h⟩
    simp only [List.mem_append, List.mem_cons] at hc hsame
    rcases hc with (hc | rfl | hc) | hc
    · exact hsame (Or.inl (Or.inl hc))
    · exact hsame (Or.inl (Or.inr (Or.inl rfl)))
    · exact mem_tokenOf hc
    · exact hsame (Or.inr hc)
  rw [EmailAddress.parse_join (fun c hc => (hall c hc).1) b.valid.2 b.settled] at hparse
  split at hparse
  · cases hparse
    show Unicode.toLowercase _ ++ '@' :: b.domain = _
    rw [Unicode.toLowercase_eq_self.mpr fun c hc => (hall c hc).2]
  · cases hparse

def findContact (aliasId email : Str) : App (Option Contact) :=
  ExceptT.mk (op (Op.findContact aliasId email))

def findContactByReverseAlias (reverseAlias : EmailAddress) : App (Option ContactWithAlias) :=
  ExceptT.mk (op (Op.findContactByReverseAlias reverseAlias.normalised))

/-- Looks up the contact for `(alias, sender)`, creating it — together with a fresh
reverse alias — the first time that pair is seen. -/
def getOrCreateContact (aliasId : Str) (email : EmailAddress) (name : Option Str)
    (reverseAliasPrefix reverseAliasDomain : Str) : App Contact := do
  let email := email.normalised
  match ← findContact aliasId email with
  | some existing => return existing
  | none => do
      let contactId ← newUuid
      let token ← randomToken 12
      let reverseAlias := composeReverseAlias reverseAliasPrefix token reverseAliasDomain
      let createdAt ← utcNow
      context "Failed to insert the contact"
        (write (.insertContact
          { contactId := contactId, aliasId := aliasId, email := email, name := name,
            reverseAlias := reverseAlias, createdAt := createdAt.toRfc3339 }))
      -- Another inbound connection may have won the race; re-read either way.
      match ← findContact aliasId email with
      | some contact => return contact
      | none => throw "Contact disappeared right after being inserted".toList

@[simp] theorem exec_findContact (aliasId email : Str) (h : Host) :
    exec perform (findContact aliasId email) h
      = (h.chance.give (h.world.db.findContact aliasId email), h.skip) := rfl

@[simp] theorem exec_findContactByReverseAlias (reverseAlias : EmailAddress) (h : Host) :
    exec perform (findContactByReverseAlias reverseAlias) h
      = (h.chance.give (h.world.db.findContactByReverseAlias reverseAlias.normalised),
        h.skip) := rfl

/-! ## What the lookups return -/

namespace Db

variable {db : Db}

theorem findContact_some {aliasId email : Str} {c : Contact}
    (h : db.findContact aliasId email = some c) :
    c ∈ db.contacts ∧ c.aliasId = aliasId ∧ c.email = email := by
  have hp := List.find?_some h
  simp only [Bool.and_eq_true, decide_eq_true_eq] at hp
  exact ⟨List.mem_of_find?_eq_some h, hp⟩

/-- A contact that has been added is found. -/
theorem findContact_added {c : Contact} (hnone : db.findContact c.aliasId c.email = none) :
    findContact c.aliasId c.email { db with contacts := db.contacts ++ [c] } = some c := by
  unfold findContact at hnone ⊢
  rw [List.find?_append, hnone]
  simp

theorem mailboxOf_some {a : Alias} {m : Mailbox} (h : db.mailboxOf a = some m) :
    m ∈ db.mailboxes ∧ m.mailboxId = a.mailboxId := by
  have hp := List.find?_some h
  exact ⟨List.mem_of_find?_eq_some h, of_decide_eq_true hp⟩

theorem findAliasByAddress_some {address : Str} {found : AliasWithMailbox}
    (h : db.findAliasByAddress address = some found) :
    found.toAlias ∈ db.aliases ∧ found.toAlias.address = address ∧
      ∃ m, db.mailboxOf found.toAlias = some m ∧ found.mailboxEmail = m.email := by
  obtain ⟨a, ha, hf⟩ := List.exists_of_findSome?_eq_some h
  split at hf
  · next haddr =>
      obtain ⟨m, hm, rfl⟩ := Option.map_eq_some_iff.mp hf
      exact ⟨ha, haddr, m, hm, rfl⟩
  · cases hf

theorem findContactByReverseAlias_some {r : Str} {found : ContactWithAlias}
    (h : db.findContactByReverseAlias r = some found) :
    found.toContact ∈ db.contacts ∧ found.toContact.reverseAlias = r ∧
      ∃ a, db.aliases.find? (·.aliasId = found.toContact.aliasId) = some a ∧
        found.aliasAddress = a.address ∧ found.aliasEnabled = a.enabled ∧
        ∃ m, db.mailboxOf a = some m ∧ found.mailboxEmail = m.email := by
  obtain ⟨c, hc, hf⟩ := List.exists_of_findSome?_eq_some h
  split at hf
  · next hr =>
      obtain ⟨a, ha, hf⟩ := Option.bind_eq_some_iff.mp hf
      obtain ⟨m, hm, rfl⟩ := Option.map_eq_some_iff.mp hf
      exact ⟨hc, hr, a, ha, rfl, rfl, m, hm, rfl⟩
  · cases hf

end Db

/-! ## Getting a contact -/

theorem findContact_exec_ok {aliasId email : Str} {h h' : Host} {found : Option Contact}
    (hrun : exec perform (findContact aliasId email) h = (.ok found, h')) :
    h' = h.skip ∧ h.world.db.findContact aliasId email = found := by
  rw [exec_findContact, Chance.give] at hrun
  split at hrun
  · cases hrun
  · cases hrun
    exact ⟨rfl, rfl⟩

/-- The contact that is returned is in the table, for that alias and that sender. -/
theorem getOrCreateContact_ok {aliasId p d : Str} {email : EmailAddress} {name : Option Str}
    {h h' : Host} {c : Contact}
    (hrun : exec perform (getOrCreateContact aliasId email name p d) h = (.ok c, h')) :
    c ∈ h'.world.db.contacts ∧ c.aliasId = aliasId ∧ c.email = email.normalised := by
  unfold getOrCreateContact at hrun
  obtain ⟨found, t, hfind, hrest⟩ := (exec_bind_ok perform).mp hrun
  obtain ⟨rfl, hfound⟩ := findContact_exec_ok hfind
  cases found with
  | some existing =>
      cases hrest
      exact Db.findContact_some hfound
  | none =>
      -- whoever inserted it, the contact is what the second lookup found
      obtain ⟨_, _, -, hrest⟩ := (exec_bind_ok perform).mp hrest
      obtain ⟨_, _, -, hrest⟩ := (exec_bind_ok perform).mp hrest
      obtain ⟨_, _, -, hrest⟩ := (exec_bind_ok perform).mp hrest
      obtain ⟨_, _, -, hrest⟩ := (exec_bind_ok perform).mp hrest
      obtain ⟨again, t', hagain, hrest⟩ := (exec_bind_ok perform).mp hrest
      obtain ⟨rfl, hfound'⟩ := findContact_exec_ok hagain
      cases again with
      | some contact =>
          cases hrest
          exact Db.findContact_some hfound'
      | none => cases hrest

end Weiterleitung
