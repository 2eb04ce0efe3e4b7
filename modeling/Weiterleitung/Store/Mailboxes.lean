/-
# `Store.Mailboxes` — which mailbox is the default?

An insertion that makes a mailbox the default first clears the flag of every other one, and
only then may be refused.  It is a transaction, so what was cleared comes back with the refusal
(`insertMailbox_transact`).  Over whole histories of insertions and deletions, whatever fails:

    the mailboxes are those inserted and not deleted since, and the
      flag is only on the last one inserted as the default           (`Flagged`)
    so there is at most one, and a query that lists it first, and
      else the smallest email, finds the default                     (`default_mailbox`)
-/
import Mathlib
import Weiterleitung.Lib.Transaction
import Weiterleitung.Store.Listing

namespace Weiterleitung

open Prog Statements

/-! ## The transaction, statement by statement -/

namespace Db

/-- `UPDATE mailboxes SET is_default = 0`. -/
def clearDefaults (db : Db) : Option Db :=
  some { db with mailboxes := db.mailboxes.map fun o => { o with isDefault := false } }

/-- `INSERT INTO mailboxes`. -/
def addMailbox (m : Mailbox) (db : Db) : Option Db :=
  if db.mailboxes.any (fun o => o.mailboxId = m.mailboxId || o.email = m.email) then none
  else some { db with mailboxes := db.mailboxes ++ [m] }

end Db

def insertMailboxStatements (m : Mailbox) : List (Db → Option Db) :=
  if m.isDefault then [Db.clearDefaults, Db.addMailbox m] else [Db.addMailbox m]

theorem insertMailbox_statements (m : Mailbox) (db : Db) :
    (insertMailboxStatements m).foldlM (fun db statement => statement db) db
      = db.insertMailbox m := by
  unfold insertMailboxStatements Db.insertMailbox
  cases m.isDefault with
  | true => simp [Db.clearDefaults, Db.addMailbox]
  | false => simp [Db.addMailbox]

/-- However the calls of the database fail, the transaction is one operation of the machine. -/
theorem insertMailbox_transact (fails : Nat → Option Str) (refused : Nat → Str) (m : Mailbox)
    (w : World) :
    ∃ c : Chance, answer (.write (.insertMailbox m)) c w =
      ((transact fails refused (insertMailboxStatements m) w.db).1,
        { w with db := (transact fails refused (insertMailboxStatements m) w.db).2 }) := by
  rcases transact_cases fails refused (insertMailboxStatements m) w.db
    with ⟨db, hdb, he⟩ | ⟨e, he⟩
  · rw [insertMailbox_statements] at hdb
    refine ⟨Chance.calm 0, ?_⟩
    have hcalm : (Chance.calm 0).fails = false := rfl
    have happly : (Write.insertMailbox m).apply w.db = some db := hdb
    simp only [he, answer, hcalm, happly, Bool.false_eq_true, if_false]
  · refine ⟨{ Chance.calm 0 with fails := true, text := e }, ?_⟩
    rw [he]
    rfl

/-! ## Histories -/

/-- The calls that make and remove mailboxes. -/
inductive MailboxCall where
  | insert (email : EmailAddress) (isDefault : Bool)
  | delete (mailboxId : Str)

/-- What a call that succeeded has done. -/
inductive MailboxEvent where
  | inserted (m : Mailbox)
  | deleted (mailboxId : Str)
  deriving DecidableEq

/-- The mailbox was inserted and has not been deleted since; the latest event is the first. -/
def Stands : List MailboxEvent → Mailbox → Prop
  | [], _ => False
  | .inserted o :: events, m => o = m ∨ Stands events m
  | .deleted mailboxId :: events, m => m.mailboxId ≠ mailboxId ∧ Stands events m

instance Stands.decidable :
    ∀ (events : List MailboxEvent) (m : Mailbox), Decidable (Stands events m)
  | [], _ => isFalse id
  | .inserted o :: events, m =>
      match decidable events m with
      | isTrue h => isTrue (Or.inr h)
      | isFalse h => decidable_of_iff (o = m) ⟨Or.inl, fun h' => h'.resolve_right h⟩
  | .deleted mailboxId :: events, m =>
      match decidable events m with
      | isTrue h => decidable_of_iff (m.mailboxId ≠ mailboxId) ⟨fun hne => ⟨hne, h⟩, And.left⟩
      | isFalse h => isFalse fun h' => h h'.2

/-- The last mailbox that was inserted as the default. -/
def lastDefault : List MailboxEvent → Option Mailbox
  | [] => none
  | .inserted m :: events => if m.isDefault then some m else lastDefault events
  | .deleted _ :: events => lastDefault events

/-- The machine, and what the calls that succeeded have done, the latest first. -/
structure History where
  host : Host
  events : List MailboxEvent

namespace History

def mailboxes (s : History) : List Mailbox := s.host.world.db.mailboxes

def call (s : History) : MailboxCall → History
  | .insert email isDefault =>
      match exec perform (insertMailbox email isDefault) s.host with
      | (.ok m, t) => ⟨t, .inserted m :: s.events⟩
      | (.error _, t) => ⟨t, s.events⟩
  | .delete mailboxId =>
      match exec perform (deleteMailbox mailboxId) s.host with
      | (.ok _, t) => ⟨t, .deleted mailboxId :: s.events⟩
      | (.error _, t) => ⟨t, s.events⟩

/-- One call after the other. -/
def after (h : Host) (calls : List MailboxCall) : History := calls.foldl call ⟨h, []⟩

end History

theorem lastDefault_isDefault {m : Mailbox} {events : List MailboxEvent}
    (h : lastDefault events = some m) : m.isDefault = true := by
  induction events with
  | nil => cases h
  | cons event events ih =>
      cases event with
      | deleted mailboxId => exact ih h
      | inserted o =>
          unfold lastDefault at h
          split at h
          · next ho =>
              cases h
              exact ho
          · exact ih h

/-! ## One call -/

/-- A new mailbox is in the table, behind the others; or nothing has changed. -/
theorem exec_insertMailbox_cases (email : EmailAddress) (isDefault : Bool) (h : Host) :
    (∃ m t, exec perform (insertMailbox email isDefault) h = (.ok m, t) ∧
      m.email = email.normalised ∧ m.isDefault = isDefault ∧
      h.world.db.insertMailbox m = some t.world.db) ∨
    ∃ e t, exec perform (insertMailbox email isDefault) h = (.error e, t) ∧
      t.world = h.world := by
  unfold insertMailbox
  rw [exec_bind_of_ok perform (exec_newUuid h), exec_bind_of_ok perform (exec_utcNow h.skip)]
  dsimp only
  rcases exec_write_cases h.skip.skip
    (.insertMailbox ⟨h.chance.uuid, email.normalised, isDefault,
    h.skip.chance.now.toRfc3339⟩) with ⟨db, -, hdb, he⟩ | ⟨-, he⟩
  · rw [exec_bind_of_ok perform (exec_context_ok he)]
    exact Or.inl ⟨_, _, rfl, rfl, rfl, hdb⟩
  · rw [exec_bind_of_error perform (exec_context_error he)]
    exact Or.inr ⟨_, _, rfl, rfl⟩

theorem Db.insertMailbox_mailboxes {db db' : Db} {m : Mailbox}
    (h : db.insertMailbox m = some db') :
    (∀ o ∈ db.mailboxes, o.email ≠ m.email) ∧ db'.mailboxes =
      (if m.isDefault then db.mailboxes.map fun o => { o with isDefault := false }
        else db.mailboxes) ++ [m] := by
  obtain ⟨_, -, hfresh, -⟩ := Db.insertMailbox_eq_some h
  refine ⟨fun o ho => (hfresh o ho).2, ?_⟩
  unfold Db.insertMailbox at h
  dsimp only at h
  generalize (if m.isDefault then db.mailboxes.map fun o => { o with isDefault := false }
    else db.mailboxes) = others at h ⊢
  split at h
  · cases h
  · cases h
    rfl

/-- A mailbox but for the flag, which goes from one to the next. -/
def Mailbox.unflagged (m : Mailbox) : Mailbox := { m with isDefault := false }

/-- The mailboxes are those that stand, and the flag is on the last
that was inserted with it. -/
structure Flagged (events : List MailboxEvent) (mailboxes : List Mailbox) : Prop where
  emails : Keyed Mailbox.email mailboxes
  rows : ∀ o, (∃ m ∈ mailboxes, m.unflagged = o) ↔ ∃ m, Stands events m ∧ m.unflagged = o
  flag : ∀ m, m ∈ mailboxes ∧ m.isDefault = true ↔
    lastDefault events = some m ∧ Stands events m

section
variable {events : List MailboxEvent} {mailboxes : List Mailbox}

theorem Flagged.nil : Flagged [] [] where
  emails := List.nodup_nil
  rows _ := iff_of_false (fun ⟨_, hm, _⟩ => nomatch hm) fun ⟨_, hm, _⟩ => hm.elim
  flag _ := iff_of_false (fun h => nomatch h.1) fun h => h.2.elim

theorem Mailbox.id_of_unflagged {m m' : Mailbox} (h : m.unflagged = m'.unflagged) :
    m.mailboxId = m'.mailboxId := by
  injection h

theorem Flagged.delete (h : Flagged events mailboxes) (mailboxId : Str) :
    Flagged (.deleted mailboxId :: events) (mailboxes.filter (·.mailboxId ≠ mailboxId)) where
  emails := h.emails.sublist List.filter_sublist
  rows o := by
    constructor
    · rintro ⟨m, hm, rfl⟩
      obtain ⟨hm, hid⟩ := List.mem_filter.mp hm
      obtain ⟨m', hstands, hsame⟩ := (h.rows m.unflagged).mp ⟨m, hm, rfl⟩
      exact ⟨m', ⟨by rw [Mailbox.id_of_unflagged hsame]; simpa using hid, hstands⟩, hsame⟩
    · rintro ⟨m, ⟨hid, hstands⟩, rfl⟩
      obtain ⟨m', hm', hsame⟩ := (h.rows m.unflagged).mpr ⟨m, hstands, rfl⟩
      exact ⟨m', List.mem_filter.mpr
        ⟨hm', by rw [Mailbox.id_of_unflagged hsame]; simpa using hid⟩, hsame⟩
  flag m := by
    have hflag := h.flag m
    rw [List.mem_filter, decide_eq_true_eq]
    show _ ↔ lastDefault events = some m ∧ m.mailboxId ≠ mailboxId ∧ Stands events m
    tauto

/-- Clearing the flags of the others takes no mailbox away. -/
theorem exists_unflagged_insert {db db' : Db} {m : Mailbox}
    (hdb : db.insertMailbox m = some db')
    (o : Mailbox) : (∃ m' ∈ db'.mailboxes, m'.unflagged = o) ↔
      m.unflagged = o ∨ ∃ m' ∈ db.mailboxes, m'.unflagged = o := by
  rw [(Db.insertMailbox_mailboxes hdb).2]
  cases m.isDefault with
  | false => simp [or_and_right, exists_or, or_comm]
  | true => simp [or_and_right, exists_or, or_comm, Mailbox.unflagged]

/-- An inserted default is the only one; another insertion leaves the flags. -/
theorem flagged_insert {db db' : Db} {m : Mailbox} (hdb : db.insertMailbox m = some db')
    (o : Mailbox) : o ∈ db'.mailboxes ∧ o.isDefault = true ↔
      if m.isDefault then o = m else o ∈ db.mailboxes ∧ o.isDefault = true := by
  rw [(Db.insertMailbox_mailboxes hdb).2]
  cases hm : m.isDefault with
  | false =>
      simp only [Bool.false_eq_true, if_false, List.mem_append, List.mem_singleton]
      refine and_congr_left fun ho => or_iff_left ?_
      rintro rfl
      cases ho.symm.trans hm
  | true =>
      simp only [if_true, List.mem_append, List.mem_singleton, List.mem_map]
      constructor
      · rintro ⟨⟨o', -, rfl⟩ | rfl, ho⟩
        · cases ho
        · rfl
      · rintro rfl
        exact ⟨Or.inr rfl, hm⟩

theorem Flagged.insert {db db' : Db} {m : Mailbox} (h : Flagged events db.mailboxes)
    (hdb : db.insertMailbox m = some db') : Flagged (.inserted m :: events) db'.mailboxes where
  emails := by
    obtain ⟨hfresh, hmailboxes⟩ := Db.insertMailbox_mailboxes hdb
    rw [hmailboxes]
    refine Keyed.concat ?_ fun o ho => ?_
    · split
      · exact h.emails.map fun _ => rfl
      · exact h.emails
    · split at ho
      · obtain ⟨o', ho', rfl⟩ := List.mem_map.mp ho
        exact hfresh o' ho'
      · exact hfresh o ho
  rows o := by
    rw [exists_unflagged_insert hdb, h.rows o]
    show _ ↔ ∃ m', (m = m' ∨ Stands events m') ∧ m'.unflagged = o
    simp [or_and_right, exists_or]
  flag o := by
    rw [flagged_insert hdb, h.flag o]
    show _ ↔ (if m.isDefault then some m else lastDefault events) = some o ∧
      (m = o ∨ Stands events o)
    cases hm : m.isDefault with
    | true =>
        simp only [if_true, Option.some.injEq]
        constructor
        · rintro rfl
          exact ⟨rfl, Or.inl rfl⟩
        · exact fun ho => ho.1.symm
    | false =>
        simp only [Bool.false_eq_true, if_false]
        refine and_congr_right fun ho => (or_iff_right ?_).symm
        -- the last default has the flag, this mailbox has not
        rintro rfl
        cases hm.symm.trans (lastDefault_isDefault ho)

/-- At most one mailbox is flagged. -/
theorem Flagged.length_le_one (h : Flagged events mailboxes) :
    (mailboxes.filter (·.isDefault)).length ≤ 1 := by
  have hnodup : (mailboxes.filter (·.isDefault)).Nodup :=
    (List.Nodup.of_map _ h.emails).filter _
  have hsame : ∀ m ∈ mailboxes.filter (·.isDefault), lastDefault events = some m :=
    fun m hm => ((h.flag m).mp (List.mem_filter.mp hm)).1
  generalize mailboxes.filter (·.isDefault) = flagged at hnodup hsame ⊢
  rcases flagged with _ | ⟨a, _ | ⟨b, rest⟩⟩
  · exact Nat.zero_le 1
  · exact Nat.le_refl 1
  · have heq := (hsame a (by simp)).symm.trans (hsame b (by simp))
    cases heq
    exact absurd List.mem_cons_self (List.nodup_cons.mp hnodup).1

theorem History.flagged_call {s : History} (h : Flagged s.events s.mailboxes)
    (c : MailboxCall) :
    Flagged (s.call c).events (s.call c).mailboxes := by
  unfold History.mailboxes at h ⊢
  cases c with
  | insert email isDefault =>
      unfold History.call
      dsimp only
      rcases exec_insertMailbox_cases email isDefault s.host with
        ⟨m, t, he, -, -, hdb⟩ | ⟨e, t, he, hworld⟩
      · rw [he]
        exact h.insert hdb
      · rw [he]
        dsimp only
        rw [hworld]
        exact h
  | delete mailboxId =>
      unfold History.call
      dsimp only
      rcases exec_write_cases s.host (.deleteMailbox mailboxId) with ⟨db, -, hdb, he⟩ | ⟨-, he⟩
      · cases hdb
        unfold deleteMailbox
        rw [he]
        exact h.delete mailboxId
      · unfold deleteMailbox
        rw [he]
        exact h

theorem History.flagged_after (h : Host) (hempty : h.world.db.mailboxes = [])
    (calls : List MailboxCall) :
    Flagged (History.after h calls).events (History.after h calls).mailboxes := by
  induction calls using List.reverseRecOn with
  | nil =>
      show Flagged [] h.world.db.mailboxes
      rw [hempty]
      exact Flagged.nil
  | append_singleton calls c ih =>
      have hlast : History.after h (calls ++ [c]) = (History.after h calls).call c :=
        List.foldl_concat ..
      rw [hlast]
      exact History.flagged_call ih c

end

/-! ## The default -/

/-- The query returns the last mailbox that was inserted as the default, if that has not been
deleted since, and else the one with the smallest email. -/
structure DefaultFound (s : History) (found : Option Mailbox) : Prop where
  kept : ∀ m, lastDefault s.events = some m → Stands s.events m → found = some m
  smallest : (∀ m, lastDefault s.events = some m → ¬ Stands s.events m) →
    ∀ m, found = some m → m ∈ s.mailboxes ∧ ∀ other ∈ s.mailboxes, m.email ≤ other.email
  nothing : found = none → s.mailboxes = []

/-- What is listed first is the default. -/
theorem Flagged.found {s : History} (h : Flagged s.events s.mailboxes) :
    DefaultFound s s.host.world.db.listMailboxes.head? where
  kept := by
    intro m hm hstands
    obtain ⟨hmem, hflag⟩ := (h.flag m).mpr ⟨hm, hstands⟩
    cases hhead : s.host.world.db.listMailboxes.head? with
    | none =>
        have hlisted := s.host.world.db.perm_listMailboxes.mem_iff.mpr hmem
        rw [List.head?_eq_none_iff.mp hhead] at hlisted
        cases hlisted
    | some first =>
        obtain ⟨hfirst, hbefore⟩ := Db.head_listMailboxes hhead
        have hdefault : first.isDefault = true := by
          rcases hbefore m hmem with hlt | ⟨heq, -⟩
          · exact (Bool.lt_iff.mp hlt).2
          · rw [heq]
            exact hflag
        rw [← hm, ((h.flag first).mp ⟨hfirst, hdefault⟩).1]
  smallest := by
    intro hgone m hm
    obtain ⟨hmem, hbefore⟩ := Db.head_listMailboxes hm
    refine ⟨hmem, fun other hother => ?_⟩
    rcases hbefore other hother with hlt | ⟨-, hle⟩
    · obtain ⟨hlast, hstands⟩ := (h.flag m).mp ⟨hmem, (Bool.lt_iff.mp hlt).2⟩
      exact absurd hstands (hgone m hlast)
    · exact hle
  nothing := by
    intro hnone
    have hperm := s.host.world.db.perm_listMailboxes
    rw [List.head?_eq_none_iff.mp hnone] at hperm
    exact List.nil_perm.mp hperm

/-- The mailboxes are those that were inserted and not deleted since, and at most one is the
default.  An insertion that succeeds adds its mailbox, one that fails leaves every mailbox as
it was.  And the query returns the default, unless the database fails. -/
theorem default_mailbox (h : Host) (hempty : h.world.db.mailboxes = [])
    (calls : List MailboxCall) :
    (∀ o, (∃ m ∈ (History.after h calls).mailboxes, m.unflagged = o) ↔
      ∃ m, Stands (History.after h calls).events m ∧ m.unflagged = o) ∧
    ((History.after h calls).mailboxes.filter (·.isDefault)).length ≤ 1 ∧
    (∀ email isDefault m t,
      exec perform (insertMailbox email isDefault) (History.after h calls).host = (.ok m, t) →
        m ∈ t.world.db.mailboxes ∧ m.email = email.normalised ∧ m.isDefault = isDefault) ∧
    (∀ email isDefault e t,
      exec perform (insertMailbox email isDefault)
        (History.after h calls).host = (.error e, t) →
        t.world.db.mailboxes = (History.after h calls).mailboxes) ∧
    ∃ found, exec performPage defaultMailbox (History.after h calls).host
        = ((History.after h calls).host.chance.give found, (History.after h calls).host.skip) ∧
      DefaultFound (History.after h calls) found := by
  have hflagged := History.flagged_after h hempty calls
  generalize History.after h calls = s at hflagged ⊢
  refine ⟨hflagged.rows, hflagged.length_le_one, ?_, ?_, _, ?_, hflagged.found⟩
  · intro email isDefault m t he
    rcases exec_insertMailbox_cases email isDefault s.host with
      ⟨m', t', he', hemail, hdefault, hdb⟩ | ⟨e', t', he', -⟩
    · cases he.symm.trans he'
      refine ⟨?_, hemail, hdefault⟩
      rw [(Db.insertMailbox_mailboxes hdb).2]
      exact List.mem_append_right _ List.mem_cons_self
    · cases he.symm.trans he'
  · intro email isDefault e t he
    rcases exec_insertMailbox_cases email isDefault s.host
      with ⟨m, t', he', -⟩ | ⟨e', t', he', hworld⟩
    · cases he.symm.trans he'
    · cases he.symm.trans he'
      rw [hworld]
      rfl
  · unfold defaultMailbox
    rw [exec_bind, exec_listMailboxes, Chance.give, Chance.give]
    cases s.host.chance.fails <;> rfl

/-- A mailbox, a default one, and another that fails. -/
def sampleCalls : List MailboxCall :=
  [.insert EmailAddress.shop false, .insert EmailAddress.me true,
    .insert EmailAddress.shop true]

/-- The default is found while it stands, and then the mailbox that is left. -/
theorem default_mailbox_sample :
    (∃ m, (exec performPage defaultMailbox
        (History.after (Host.calm ⟨Db.empty, [], []⟩) sampleCalls).host).1 = .ok (some m) ∧
      m.email = "me@personal.example".toList) ∧
    ∃ m, (exec performPage defaultMailbox (History.after (Host.calm ⟨Db.empty, [], []⟩)
        (sampleCalls ++ [.delete ['3']])).host).1 = .ok (some m) ∧
      m.email = "shop@example.com".toList := by
  let me : Mailbox := ⟨['3'], "me@personal.example", true, "2026-09-23T00:00:04+00:00"⟩
  let shop : Mailbox := ⟨['0'], "shop@example.com", false, "2026-09-23T00:00:01+00:00"⟩
  constructor
  · obtain ⟨-, -, -, -, found, he, hfound⟩ :=
      default_mailbox (Host.calm ⟨Db.empty, [], []⟩) rfl sampleCalls
    generalize hs : History.after (Host.calm ⟨Db.empty, [], []⟩) sampleCalls = s at he hfound ⊢
    have hcalm : s.host.chance.fails = false := by rw [← hs]; decide +kernel
    have hkept : found = some me :=
      hfound.kept me (by rw [← hs]; decide +kernel) (by rw [← hs]; decide +kernel)
    exact ⟨me, by rw [he, hkept, Chance.give, hcalm]; rfl, rfl⟩
  · obtain ⟨-, -, -, -, found, he, hfound⟩ :=
      default_mailbox (Host.calm ⟨Db.empty, [], []⟩) rfl (sampleCalls ++ [.delete ['3']])
    generalize hs : History.after (Host.calm ⟨Db.empty, [], []⟩)
      (sampleCalls ++ [.delete ['3']]) = s at he hfound ⊢
    have hcalm : s.host.chance.fails = false := by rw [← hs]; decide +kernel
    have hleft : s.mailboxes = [shop] := by rw [← hs]; decide +kernel
    have hlast : lastDefault s.events = some me := by rw [← hs]; decide +kernel
    have hgone : ¬ Stands s.events me := by rw [← hs]; decide +kernel
    cases found with
    | none => cases hleft.symm.trans (hfound.nothing rfl)
    | some m =>
        obtain ⟨hmem, -⟩ := hfound.smallest (fun m' hm' => by
          cases hlast.symm.trans hm'
          exact hgone) m rfl
        rw [hleft] at hmem
        rw [he, Chance.give, hcalm]
        exact ⟨m, rfl, by rw [List.mem_singleton.mp hmem]⟩

end Weiterleitung
