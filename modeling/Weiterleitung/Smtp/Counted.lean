/-
# `Smtp.Counted` — the counts of an alias, and its mail

`forward` and `reply` queue a message and count it after that; others act in between, and the
counting may fail.  So a count lags behind the rows of the outbox, by exactly the messages that
a call of the router has queued and is about to count, or has failed to count (`Owes`):

    a call of the router remembers what it has to count      (`settles_handle`)
    count + owed = rows is kept by each operation            (`balance_turn`)
    and holds in every order of turns                        (`counts_agree`)
-/
import Mathlib
import Weiterleitung.Delivery.Pass
import Weiterleitung.Lib.Memory
import Weiterleitung.Routes.Admin
import Weiterleitung.Smtp.Handle
import Weiterleitung.Store.Reachable

namespace Weiterleitung

open Prog

/-! ## Counts and rows -/

/-- A message of an alias: its direction, and the alias. -/
abbrev Receipt := Direction × Str

def Direction.counter : Direction → AliasCounter
  | .forward => .forwarded
  | .reply => .replied

/-- The count of an alias for a direction. -/
def Alias.counted (a : Alias) : Direction → Nat
  | .forward => a.forwardCount
  | .reply => a.replyCount

def OutboxRow.receipt (row : OutboxRow) : Option Receipt :=
  row.aliasId.map fun aliasId => (row.direction, aliasId)

/-- The messages of the outbox, as far as their aliases are still there. -/
def Db.receipts (db : Db) : List (Option Receipt) := db.outbox.map (·.receipt)

/-- Counts and rows differ by what is owed.  `ids` are the aliases there ever were. -/
structure Balance (db : Db) (ids : List Str) (owed : List (Option Receipt)) : Prop where
  keyed : (db.aliases.map (·.aliasId)).Nodup
  aliases : ∀ a ∈ db.aliases, a.aliasId ∈ ids
  rows : ∀ d aliasId, some (d, aliasId) ∈ db.receipts → aliasId ∈ ids
  debts : ∀ d aliasId, some (d, aliasId) ∈ owed → aliasId ∈ ids
  counts : ∀ a ∈ db.aliases, ∀ d,
    a.counted d + owed.count (some (d, a.aliasId)) = db.receipts.count (some (d, a.aliasId))

section
variable {db db' : Db} {ids : List Str} {owed before after : List (Option Receipt)}

theorem balance_empty : Balance Db.empty [] [] where
  keyed := List.nodup_nil
  aliases := fun a ha => by cases ha
  rows := fun d aliasId h => by cases h
  debts := fun d aliasId h => by cases h
  counts := fun a ha => by cases ha

/-- What neither moves a count nor a row. -/
theorem Balance.same (h : Balance db ids owed)
    (haliases : db'.aliases.map Alias.moved = db.aliases.map Alias.moved)
    (hrows : db'.receipts = db.receipts) : Balance db' ids owed := by
  have hids : db'.aliases.map (·.aliasId) = db.aliases.map (·.aliasId) := by
    have hfst := congrArg (List.map (·.1)) haliases
    rwa [List.map_map, List.map_map] at hfst
  have hold : ∀ a' ∈ db'.aliases, ∃ a ∈ db.aliases, a.moved = a'.moved := fun a' ha' =>
    List.mem_map.mp (haliases ▸ List.mem_map_of_mem ha')
  refine ⟨hids ▸ h.keyed, fun a' ha' => ?_, hrows ▸ h.rows, h.debts, fun a' ha' d => ?_⟩
  · obtain ⟨a, ha, hmoved⟩ := hold a' ha'
    have hid : a.aliasId = a'.aliasId := congrArg (·.1) hmoved
    exact hid ▸ h.aliases a ha
  · obtain ⟨a, ha, hmoved⟩ := hold a' ha'
    have hid : a.aliasId = a'.aliasId := congrArg (·.1) hmoved
    have hcounted : a.counted d = a'.counted d := by
      cases d with
      | forward => exact congrArg (·.2.1) hmoved
      | reply => exact congrArg (·.2.2) hmoved
    rw [hrows, ← hid, ← hcounted]
    exact h.counts a ha d

theorem count_map_filter {τ : Type} [BEq τ] [LawfulBEq τ] (keep : τ → Bool) (x : τ)
    (hx : keep x = true) (xs : List (Option τ)) :
    (xs.map (Option.filter keep)).count (some x) = xs.count (some x) := by
  rw [List.count_eq_countP, List.countP_map, List.count_eq_countP]
  refine List.countP_congr fun o _ => ?_
  simp only [Function.comp_apply, beq_iff_eq, Option.filter_eq_some_iff]
  exact ⟨And.left, fun h => ⟨h, hx⟩⟩

theorem receipts_removeAliases (db : Db) (p : Alias → Bool) : (db.removeAliases p).receipts =
    db.receipts.map (Option.filter fun r => r.2 ∉ (db.aliases.filter p).map (·.aliasId)) := by
  unfold Db.receipts Db.removeAliases
  rw [List.map_map, List.map_map]
  refine List.map_congr_left fun row _ => ?_
  show Option.map _ (Option.filter _ row.aliasId) = Option.filter _ (Option.map _ row.aliasId)
  rw [Option.filter_map]
  rfl

/-- Rows lose their reference to an alias that goes. -/
theorem Balance.removeAliases (h : Balance db ids owed)
    (p : Alias → Bool) (mailboxes : List Mailbox) :
    Balance { db.removeAliases p with mailboxes := mailboxes } ids owed := by
  have hreceipts := receipts_removeAliases db p
  refine ⟨h.keyed.sublist (List.filter_sublist.map _), fun a ha => h.aliases a
    (List.mem_of_mem_filter ha), ?_, h.debts, fun a ha d => ?_⟩
  · intro d aliasId hmem
    obtain ⟨o, ho, hkept⟩ := List.mem_map.mp (hreceipts ▸ hmem)
    exact h.rows d aliasId ((Option.filter_eq_some_iff.mp hkept).1 ▸ ho)
  · obtain ⟨ha, halive⟩ := List.mem_filter.mp ha
    have hkept : a.aliasId ∉ (db.aliases.filter p).map (·.aliasId) := by
      intro hdead
      obtain ⟨b, hb, hid⟩ := List.mem_map.mp hdead
      obtain ⟨hb, hpb⟩ := List.mem_filter.mp hb
      rw [List.inj_on_of_nodup_map h.keyed hb ha hid] at hpb
      simp [hpb] at halive
    have hcount : (db.removeAliases p).receipts.count (some (d, a.aliasId)) = db.receipts.count
        (some (d, a.aliasId)) := by
      rw [hreceipts]
      exact count_map_filter
        (fun r : Receipt => decide (r.2 ∉ (db.aliases.filter p).map (·.aliasId)))
        (d, a.aliasId) (decide_eq_true hkept) _
    exact (h.counts a ha d).trans hcount.symm

/-- A new alias has neither counts nor rows. -/
theorem Balance.insertAlias (h : Balance db ids owed) {a : Alias} (hnew : a.aliasId ∉ ids)
    (hzero : a.forwardCount = 0 ∧ a.replyCount = 0) :
    Balance { db with aliases := db.aliases ++ [a] } (a.aliasId :: ids) owed := by
  refine ⟨?_, ?_, fun d aliasId hmem => List.mem_cons_of_mem _ (h.rows d aliasId hmem),
    fun d aliasId hmem => List.mem_cons_of_mem _ (h.debts d aliasId hmem), ?_⟩
  · rw [List.map_append]
    refine h.keyed.append (List.nodup_singleton _) fun aliasId hold hone => ?_
    obtain ⟨b, hb, rfl⟩ := List.mem_map.mp hold
    have hid : b.aliasId = a.aliasId := List.mem_singleton.mp hone
    exact hnew (hid ▸ h.aliases b hb)
  · intro b hb
    rcases List.mem_append.mp hb with hb | hb
    · exact List.mem_cons_of_mem _ (h.aliases b hb)
    · rw [List.mem_singleton.mp hb]
      exact List.mem_cons_self
  · intro b hb d
    rcases List.mem_append.mp hb with hb | hb
    · exact h.counts b hb d
    · rw [List.mem_singleton.mp hb]
      have hcounted : a.counted d = 0 := by
        cases d with
        | forward => exact hzero.1
        | reply => exact hzero.2
      have howed : owed.count (some (d, a.aliasId)) = 0 :=
        List.count_eq_zero.mpr fun hmem => hnew (h.debts d a.aliasId hmem)
      have hrows : db.receipts.count (some (d, a.aliasId)) = 0 :=
        List.count_eq_zero.mpr fun hmem => hnew (h.rows d a.aliasId hmem)
      show a.counted d + owed.count (some (d, a.aliasId))
        = db.receipts.count (some (d, a.aliasId))
      omega

theorem alias_of_insertOutbox {row : OutboxRow} (h : db.insertOutbox row = some db')
    {aliasId : Str} (hid : row.aliasId = some aliasId) :
    ∃ a ∈ db.aliases, a.aliasId = aliasId := by
  unfold Db.insertOutbox at h
  split at h
  · cases h
  · split at h
    · cases h
    · next halias =>
        rw [hid] at halias
        simpa using halias

/-- A message is queued, and owed. -/
theorem Balance.insertOutbox (h : Balance db ids (before ++ none :: after)) {row : OutboxRow}
    (hrow : db.insertOutbox row = some db') :
    Balance db' ids (before ++ row.receipt :: after) := by
  have hknown : ∀ d aliasId, row.receipt = some (d, aliasId) → aliasId ∈ ids := by
    intro d aliasId hreceipt
    obtain ⟨i, hi, hpair⟩ := Option.map_eq_some_iff.mp hreceipt
    obtain ⟨a, ha, hid⟩ := alias_of_insertOutbox hrow hi
    cases hpair
    exact hid ▸ h.aliases a ha
  obtain ⟨-, rfl⟩ := Db.insertOutbox_eq_some hrow
  have hreceipts : Db.receipts { db with outbox := db.outbox ++ [row] } = db.receipts ++
      [row.receipt] := List.map_append
  refine ⟨h.keyed, h.aliases, ?_, ?_, ?_⟩
  · intro d aliasId hmem
    rw [hreceipts] at hmem
    rcases List.mem_append.mp hmem with hmem | hmem
    · exact h.rows d aliasId hmem
    · exact hknown d aliasId (List.mem_singleton.mp hmem).symm
  · intro d aliasId hmem
    rcases List.mem_append.mp hmem with hmem | hmem
    · exact h.debts d aliasId (List.mem_append_left _ hmem)
    · rcases List.mem_cons.mp hmem with hmem | hmem
      · exact hknown d aliasId hmem.symm
      · exact h.debts d aliasId (List.mem_append_right _ (List.mem_cons_of_mem _ hmem))
  · intro a ha d
    have hold := h.counts a ha d
    rw [hreceipts]
    simp only [List.count_append, List.count_cons, List.count_nil] at hold ⊢
    simp only [reduceCtorEq, beq_iff_eq, if_false] at hold ⊢
    omega

/-- What was owed is counted. -/
theorem Balance.record {r : Receipt} (h : Balance db ids (before ++ some r :: after))
    (now : Str) :
    Balance (db.recordAliasActivity r.2 r.1.counter now) ids (before ++ none :: after) := by
  have hcounted : ∀ a : Alias, ∀ d,
      (if a.aliasId = r.2 then a.record now r.1.counter else a).counted d =
      a.counted d + if r = (d, a.aliasId) then 1 else 0 := by
    obtain ⟨direction, aliasId⟩ := r
    intro a d
    by_cases hid : a.aliasId = aliasId
    · subst hid
      cases direction <;> cases d <;> simp [Alias.record, Alias.counted, Direction.counter]
    · simp [hid, Ne.symm hid]
  have hid : ∀ a : Alias, (if a.aliasId = r.2 then a.record now r.1.counter else a).aliasId
      = a.aliasId := by
    intro a
    split
    · cases r.1 <;> rfl
    · rfl
  refine ⟨?_, ?_, h.rows, ?_, ?_⟩
  · show ((db.aliases.map _).map _).Nodup
    rw [List.map_map, show (fun a : Alias => a.aliasId) ∘ _ = fun a : Alias =>
      a.aliasId from funext hid]
    exact h.keyed
  · intro a' ha'
    obtain ⟨a, ha, rfl⟩ := List.mem_map.mp ha'
    rw [hid]
    exact h.aliases a ha
  · intro d aliasId hmem
    refine h.debts d aliasId ?_
    rcases List.mem_append.mp hmem with hmem | hmem
    · exact List.mem_append_left _ hmem
    · rcases List.mem_cons.mp hmem with hmem | hmem
      · cases hmem
      · exact List.mem_append_right _ (List.mem_cons_of_mem _ hmem)
  · intro a' ha' d
    obtain ⟨a, ha, rfl⟩ := List.mem_map.mp ha'
    have hold := h.counts a ha d
    rw [hid, hcounted]
    show _ = db.receipts.count _
    simp only [List.count_append, List.count_cons] at hold ⊢
    simp only [reduceCtorEq, beq_iff_eq, if_false, Option.some.injEq] at hold ⊢
    omega

end

/-! ## What a call remembers -/

/-- What a call has queued and not counted: it will read the clock and count it, or
counting it has failed. -/
inductive Tally where
  | clear
  | queued (r : Receipt)
  | timed (r : Receipt)
  | refused (r : Receipt)

def Tally.owed : Tally → Option Receipt
  | .clear => none
  | .queued r | .timed r | .refused r => some r

/-- The message has just been queued. -/
def Tally.after : Option Receipt → Tally
  | none => .clear
  | some r => .queued r

theorem Tally.owed_after : ∀ r : Option Receipt, (Tally.after r).owed = r
  | none | some _ => rfl

def Tally.next : Tally → (o : Op) → Res o → Tally
  | .clear, .write (.insertOutbox row), .ok _ => .after row.receipt
  | .queued r, .now, _ => .timed r
  | .timed _, .write (.recordAliasActivity _ _ _), .ok _ => .clear
  | .timed r, .write (.recordAliasActivity _ _ _), .error _ => .refused r
  | t, _, _ => t

/-- No message is queued or counted, and counts start at zero. -/
def Idle : Op → Prop
  | .write (.insertOutbox _) => False
  | .write (.recordAliasActivity _ counter _) => counter = .blocked
  | .write (.insertAlias a) => a.forwardCount = 0 ∧ a.replyCount = 0
  | _ => True

/-- A message that has been queued is counted before anything else is done. -/
def tally : Memory Op Res Tally where
  next := Tally.next
  ok
    | .clear, .write (.insertOutbox _) => True
    | .clear, o => Idle o
    | .queued _, .now => True
    | .timed r, .write (.recordAliasActivity aliasId counter _) =>
        aliasId = r.2 ∧ counter = r.1.counter
    | _, _ => False

/-- Nothing is left to be counted; but counting may have failed. -/
def Tally.Closed : Tally → Prop
  | .clear | .refused _ => True
  | .queued _ | .timed _ => False

section
variable {ε α : Type}

theorem idle_clear {o : Op} (h : Idle o) :
    tally.ok .clear o ∧ ∀ r, tally.next .clear o r = .clear := by
  cases o with
  | write u =>
      cases u with
      | insertOutbox row => exact h.elim
      | _ => exact ⟨h, fun r => by cases r <;> rfl⟩
  | _ => exact ⟨h, fun _ => rfl⟩

theorem idle_of_clear {o : Op} (h : tally.ok .clear o)
    (hrow : ∀ row, o ≠ .write (.insertOutbox row)) : Idle o := by
  cases o with
  | write u =>
      cases u with
      | insertOutbox row => exact absurd rfl (hrow row)
      | _ => exact h
  | _ => exact h

/-- What is done besides queueing and counting. -/
theorem settles_idle {x : Fallible ε Op Res α} (hx : Uses Idle x.run) :
    Settles tally (fun _ t => t = .clear) Tally.Closed x .clear :=
  settles_of_uses (fun _ _ ht ho => ht ▸ idle_clear ho) (fun _ ht => ht ▸ trivial) hx rfl

theorem idle_of_aside {settings : AliasSettings} : ∀ o, Aside settings o → Idle o
  | .uuid, _ | .now, _ | .sample _, _ | .findAliasByAddress _, _ | .findContact _ _, _ =>
      trivial
  | .findContactByReverseAlias _, _ | .write (.insertContact _), _ => trivial
  | .write (.recordAliasActivity _ _ _), h => h

def NewOutboundMessage.receipt (message : NewOutboundMessage) : Option Receipt :=
  message.aliasId.map fun aliasId => (message.direction, aliasId)

theorem settles_enqueue (mailDir : Str) (message : NewOutboundMessage) :
    Settles tally (fun _ t => t = .after message.receipt) Tally.Closed
      (enqueue mailDir message) .clear := by
  unfold enqueue
  refine settles_seq (settles_idle (uses_mapErr ⟨trivial, fun _ => trivial⟩)) ?_
  rintro _ _ rfl
  refine settles_seq (settles_idle ⟨trivial, fun _ => trivial⟩) ?_
  rintro messageId _ rfl
  refine settles_seq (settles_idle (uses_mapErr ⟨trivial, fun _ => trivial⟩)) ?_
  rintro _ _ rfl
  refine settles_seq (settles_idle ⟨trivial, fun _ => trivial⟩) ?_
  rintro now _ rfl
  have hrow : Settles tally (fun _ t => t = .after message.receipt) Tally.Closed
      (context "Failed to enqueue the outbound message"
        (write (.insertOutbox (message.row mailDir messageId now.toRfc3339)))) .clear := by
    refine settles_mapErr ⟨trivial, fun r => ?_⟩
    cases r with
    | ok u => rfl
    | error e => trivial
  exact settles_seq hrow fun _ _ ht => ht

theorem settles_recordAliasActivity (r : Receipt) :
    Settles tally (fun _ t => t = .clear) Tally.Closed (recordAliasActivity r.2 r.1.counter)
      (.queued r) := by
  refine ⟨trivial, fun now => ⟨⟨rfl, rfl⟩, fun counted => ?_⟩⟩
  cases counted with
  | ok u => rfl
  | error e => trivial

end

namespace AliasRouter

variable (router : AliasRouter)

theorem settles_queueForward (aliasId aliasAddress : Str) (envelope : Envelope) :
    Settles tally (fun _ t => t = .queued (.forward, aliasId)) Tally.Closed
      (router.queueForward aliasId aliasAddress envelope) .clear := by
  unfold queueForward
  refine settles_seq (settles_idle trivial) ?_
  rintro address _ rfl
  refine settles_seq
    (settles_idle (uses_mono idle_of_aside (@uses_findAliasByAddress router.aliases _))) ?_
  rintro found _ rfl
  cases found with
  | none => trivial
  | some found =>
      refine settles_seq (settles_idle trivial) ?_
      rintro sender _ rfl
      refine settles_seq
        (settles_idle (uses_mono idle_of_aside (uses_getOrCreateContact router.aliases _ _ _)))
        ?_
      rintro contact _ rfl
      exact settles_seq (settles_enqueue _ _) fun _ _ ht => ht

theorem settles_queueReply (contactId aliasAddress contactEmail : Str) (envelope : Envelope) :
    Settles tally (fun aliasId t => t = .after (aliasId.map fun aliasId => (.reply, aliasId)))
      Tally.Closed (router.queueReply contactId aliasAddress contactEmail envelope)
        .clear := by
  unfold queueReply
  refine settles_seq (settles_idle trivial) ?_
  rintro address _ rfl
  refine settles_seq
    (settles_idle (uses_mono idle_of_aside (@uses_findAliasByAddress router.aliases _))) ?_
  rintro found _ rfl
  exact settles_seq (settles_enqueue _ _) fun _ _ ht => ht

theorem settles_handleRecipient (envelope : Envelope) (recipient : Str) :
    Settles tally (fun _ t => t = .clear) Tally.Closed
      (router.handleRecipient envelope recipient) .clear := by
  unfold handleRecipient
  refine settles_seq
    (settles_mapErr (settles_idle (uses_mono idle_of_aside (uses_route _ _ _)))) ?_
  rintro route _ rfl
  cases route with
  | forward aliasId aliasAddress =>
      refine settles_mapErr (settles_seq (router.settles_queueForward _ _ _) ?_)
      rintro _ _ rfl
      exact settles_recordAliasActivity (.forward, aliasId)
  | reply contactId aliasAddress contactEmail =>
      refine settles_mapErr (settles_seq (router.settles_queueReply _ _ _ _) ?_)
      rintro aliasId _ rfl
      cases aliasId with
      | none => exact rfl
      | some aliasId => exact settles_recordAliasActivity (.reply, aliasId)

theorem settles_handleAll (envelope : Envelope) (recipients : List Str) :
    Settles tally (fun _ t => t = .clear) Tally.Closed
      (router.handleAll envelope recipients) .clear := by
  induction recipients with
  | nil => exact rfl
  | cons recipient recipients ih =>
      refine settles_seq (router.settles_handleRecipient envelope recipient) ?_
      rintro _ _ rfl
      exact ih

/-- A call counts what it queues, or returns an error. -/
theorem settles_handle (envelope : Envelope) :
    Settles tally (fun _ t => t = .clear) Tally.Closed (router.handle envelope) .clear :=
  router.settles_handleAll envelope envelope.rcptTo

end AliasRouter

/-! ## Operations -/

/-- The aliases there ever were. -/
def everAliases : Op → List Str → List Str
  | .write (.insertAlias a), ids => a.aliasId :: ids
  | _, ids => ids

/-- An alias gets an identifier that no alias ever had. -/
def NewAlias : Op → List Str → Prop
  | .write (.insertAlias a), ids => a.aliasId ∉ ids
  | _, _ => True

section
variable {db db' : Db} {ids : List Str} {owed : List (Option Receipt)}

theorem everAliases_subset (o : Op) : ids ⊆ everAliases o ids := by
  unfold everAliases
  split
  · exact List.subset_cons_self _ _
  · exact List.Subset.refl _

theorem Balance.mono (h : Balance db ids owed) {ids' : List Str} (hids : ids ⊆ ids') :
    Balance db ids' owed :=
  ⟨h.keyed, fun a ha => hids (h.aliases a ha), fun d i hi => hids (h.rows d i hi),
    fun d i hi => hids (h.debts d i hi), h.counts⟩

theorem receipts_map {g : OutboxRow → OutboxRow} (hg : ∀ row, Marked row (g row)) :
    Db.receipts { db with outbox := db.outbox.map g } = db.receipts := by
  unfold Db.receipts
  rw [List.map_map]
  refine List.map_congr_left fun row _ => ?_
  obtain ⟨_, _, _, _, _, hmarked⟩ := hg row
  show (g row).receipt = row.receipt
  rw [hmarked]
  rfl

theorem moved_map {f : Alias → Alias} (hf : ∀ a, (f a).moved = a.moved) :
    (db.aliases.map f).map Alias.moved = db.aliases.map Alias.moved := by
  rw [List.map_map]
  exact List.map_congr_left fun a _ => hf a

theorem Balance.write {u : Write} (hidle : Idle (.write u)) (hnew : NewAlias (.write u) ids)
    (h : Balance db ids owed) (hdb : u.apply db = some db') :
    Balance db' (everAliases (.write u) ids) owed := by
  cases u with
  | insertOutbox row => exact hidle.elim
  | insertMailbox m =>
      obtain ⟨_, -, -, rfl⟩ := Db.insertMailbox_eq_some hdb
      exact h.same rfl rfl
  | insertAlias a =>
      obtain ⟨-, -, rfl⟩ := Db.insertAlias_eq_some hdb
      exact h.insertAlias hnew hidle
  | insertContact c =>
      rcases Db.insertContact_eq_some hdb with ⟨-, rfl⟩ | ⟨-, -, -, rfl⟩
      · exact h
      · exact h.same rfl rfl
  | deleteMailbox | deleteAlias =>
      cases hdb
      exact h.removeAliases _ _
  | setAliasEnabled aliasId enabled =>
      cases hdb
      exact h.same (moved_map fun a => by split <;> rfl) rfl
  | recordAliasActivity aliasId counter now =>
      obtain rfl : counter = .blocked := hidle
      cases hdb
      exact h.same (moved_map fun a => by split <;> rfl) rfl
  | requeueInterrupted now =>
      cases hdb
      exact h.same rfl (receipts_map fun row => by split <;> exact ⟨_, _, _, _, _, rfl⟩)
  | markDelivered | markFailed | markPending =>
      cases hdb
      exact h.same rfl (receipts_map fun row => by split <;> exact ⟨_, _, _, _, _, rfl⟩)

theorem Balance.idle {o : Op} (hidle : Idle o) (hnew : NewAlias o ids) (c : Chance) {w : World}
    (h : Balance w.db ids owed) : Balance (answer o c w).2.db (everAliases o ids) owed := by
  rcases answer_db_cases o c w with he | ⟨u, rfl, hu⟩ | ⟨now, n, rfl, f, hf, he⟩
  · rw [he]
    exact h.mono (everAliases_subset o)
  · exact h.write hidle hnew hu
  · rw [he]
    refine h.same rfl (receipts_map fun row => ?_)
    obtain ⟨status, hstatus⟩ := hf row
    exact ⟨status, _, _, _, _, hstatus⟩

/-- Whoever does what is in order, counts and rows differ by what is owed. -/
theorem balance_turn (w : World) {before after : List Tally} {t : Tally} {o : Op} (c : Chance)
    (hok : tally.ok t o) (hnew : NewAlias o ids)
    (h : Balance w.db ids ((before ++ t :: after).map Tally.owed)) :
    Balance (answer o c w).2.db (everAliases o ids)
      ((before ++ tally.next t o (answer o c w).1 :: after).map Tally.owed) := by
  rw [List.map_append, List.map_cons] at h ⊢
  cases t with
  | clear =>
      by_cases hrow : ∃ row, o = .write (.insertOutbox row)
      · obtain ⟨row, rfl⟩ := hrow
        rcases answer_write_cases (.insertOutbox row) c w with ⟨db, -, hdb, he⟩ | ⟨-, he⟩
        · rw [he]
          show Balance db ids (_ ++ (Tally.after row.receipt).owed :: _)
          rw [Tally.owed_after]
          exact h.insertOutbox hdb
        · rw [he]
          exact h
      · have hidle : Idle o := idle_of_clear hok fun row hrow' => hrow ⟨row, hrow'⟩
        rw [(idle_clear hidle).2]
        exact h.idle hidle hnew c
  | queued r =>
      cases o with
      | now => exact h
      | _ => exact hok.elim
  | timed r =>
      cases o with
      | write u =>
          cases u with
          | recordAliasActivity aliasId counter now =>
              obtain ⟨rfl, rfl⟩ := hok
              rcases answer_write_cases (.recordAliasActivity r.2 r.1.counter now) c w
                with ⟨db, -, hdb, he⟩ | ⟨-, he⟩
              · rw [he]
                cases hdb
                exact h.record now
              · rw [he]
                exact h
          | _ => exact hok.elim
      | _ => exact hok.elim
  | refused r => exact hok.elim

end

/-! ## Every order of statements -/

/-- Operations are answered, and the identifiers of aliases are noted. -/
def countingRules : Rules Op Res Chance (World × List Str) where
  answer o c s := ((answer o c s.1).1, (answer o c s.1).2, everAliases o s.2)
  inv _ := True
  rely _ _ := True
  may _ _ := True
  fair o _ s := NewAlias o s.2
  refl _ := trivial
  trans _ _ := trivial
  step _ _ _ := ⟨trivial, trivial⟩

/-- What runs: the calls of the router, the pages that make aliases, the passes of the worker,
and the single statements of everything else. -/
inductive CountingTask (router : AliasRouter) : Prog Op Res (Except Str Unit) → Prop
  | handle (envelope : Envelope) : CountingTask router (router.handle envelope).run
  | verifyRecipient (mailFrom recipient : Str) :
      CountingTask router
        (router.verifyRecipient mailFrom recipient >>= fun _ => .ret (.ok ()))
  | createAlias (form : CreateAliasForm) :
      CountingTask router (createAlias router.aliases form >>= fun _ => .ret (.ok ()))
  | pass (maxAttempts : Int) : CountingTask router
      (passOf maxAttempts >>= fun _ => .ret (.ok ()))
  | statement (o : Op) : Idle o → CountingTask router (.ask o fun _ => .ret (.ok ()))

/-- How a task ends: `Ok` with everything counted, or an error. -/
def EndsEven : Except Str Unit → Tally → Prop := EndsIn (fun _ t => t = .clear) Tally.Closed

theorem idle_createAlias (settings : AliasSettings) (form : CreateAliasForm) :
    Uses Idle (createAlias settings form) := by
  unfold createAlias
  refine uses_bind ?_ fun localPart => ?_
  · unfold chooseLocalPart
    split
    · exact ⟨trivial, fun _ => ⟨trivial, fun _ => ⟨trivial, fun _ => trivial⟩⟩⟩
    · trivial
  · split
    · trivial
    · refine uses_bind ⟨trivial, fun _ => trivial⟩ fun found => ?_
      split
      · trivial
      · trivial
      · refine uses_bind ⟨trivial, fun _ => ⟨trivial, fun _ => ⟨⟨rfl, rfl⟩, fun r => ?_⟩⟩⟩
          fun inserted => ?_
        · cases r <;> trivial
        · cases inserted <;> trivial

theorem idle_of_working {o : Op} (h : Working o) : Idle o := by
  rcases h with h | ⟨messageId, h⟩
  · cases o with
    | claimDue => trivial
    | _ => exact h.elim
  · cases o with
    | write u =>
        cases u with
        | markDelivered | markFailed | markPending => trivial
        | _ => exact h.elim
    | _ => trivial

theorem ends_of_uses {α : Type} {p : Prog Op Res α} (hp : Uses Idle p) :
    Minds tally EndsEven (p >>= fun _ => .ret (.ok ())) .clear :=
  minds_bind (fun _ _ ht => ht) (minds_of_uses (fun _ _ ht ho => ht ▸ idle_clear ho) hp rfl)

theorem CountingTask.minds {router : AliasRouter} {p : Prog Op Res (Except Str Unit)}
    (hp : CountingTask router p) :
    Minds tally EndsEven p .clear := by
  cases hp with
  | handle envelope => exact router.settles_handle envelope
  | verifyRecipient mailFrom recipient =>
      refine ends_of_uses
        (uses_bind (uses_mono idle_of_aside (AliasRouter.uses_route _ _ _)) fun r => ?_)
      cases r <;> trivial
  | createAlias form => exact ends_of_uses (idle_createAlias _ _)
  | pass maxAttempts =>
      exact ends_of_uses (uses_mono (fun _ => idle_of_working) working_passOf)
  | statement o ho =>
      refine ⟨(idle_clear ho).1, fun r => ?_⟩
      rw [(idle_clear ho).2]
      exact rfl

/-- What a task owes: it is about to count the message, or it has failed to. -/
inductive Owes : Prog Op Res (Except Str Unit) → Option Receipt → Prop
  | nothing (p : Prog Op Res (Except Str Unit)) : Owes p none
  | clock (r : Receipt) (k : Instant → Prog Op Res (Except Str Unit)) :
      (∀ now, ∃ at_ k', k now = .ask (.write (.recordAliasActivity r.2 r.1.counter at_)) k') →
      Owes (.ask .now k) (some r)
  | count (r : Receipt) (at_ : Str) (k : Except Str Unit → Prog Op Res (Except Str Unit)) :
      Owes (.ask (.write (.recordAliasActivity r.2 r.1.counter at_)) k) (some r)
  | failed (r : Receipt) (e : Str) : Owes (.ret (.error e)) (some r)

section
variable {p : Prog Op Res (Except Str Unit)} {r : Receipt}

theorem counts_of_timed (h : Minds tally EndsEven p (.timed r)) :
    ∃ at_ k, p = .ask (.write (.recordAliasActivity r.2 r.1.counter at_)) k := by
  cases p with
  | ret a =>
      cases a with
      | ok u => cases h
      | error e => exact h.elim
  | ask o k =>
      obtain ⟨hok, -⟩ := h
      cases o with
      | write u =>
          cases u with
          | recordAliasActivity aliasId counter at_ =>
              obtain ⟨rfl, rfl⟩ := hok
              exact ⟨at_, k, rfl⟩
          | _ => exact hok.elim
      | _ => exact hok.elim

theorem owes_of_minds {t : Tally} (h : Minds tally EndsEven p t) : Owes p t.owed := by
  cases t with
  | clear => exact .nothing p
  | timed r =>
      obtain ⟨at_, k, rfl⟩ := counts_of_timed h
      exact .count r at_ k
  | queued r =>
      cases p with
      | ret a =>
          cases a with
          | ok u => cases h
          | error e => exact h.elim
      | ask o k =>
          obtain ⟨hok, hnext⟩ := h
          cases o with
          | now => exact .clock r k fun now => counts_of_timed (hnext now)
          | _ => exact hok.elim
  | refused r =>
      cases p with
      | ret a =>
          cases a with
          | ok u => cases h
          | error e => exact .failed r e
      | ask o k => exact h.1.elim

theorem owes_none {tasks : List (Prog Op Res (Except Str Unit))} {owed : List (Option Receipt)}
    (h : List.Forall₂ Owes tasks owed) (hdone : ∀ p ∈ tasks, p = .ret (.ok ())) :
    ∀ o ∈ owed, o = none := by
  induction h with
  | nil => exact fun o ho => by cases ho
  | cons hp _ ih =>
      intro o ho
      rcases List.mem_cons.mp ho with rfl | ho
      · rw [hdone _ List.mem_cons_self] at hp
        cases hp
        rfl
      · exact ih (fun p hp => hdone p (List.mem_cons_of_mem _ hp)) o ho

end

/-- The tables, the aliases there ever were, and what runs on them. -/
abbrev Clerks := Crew Op Res (World × List Str) (Except Str Unit)

def Clerks.Run (router : AliasRouter) : Clerks → Clerks → Prop :=
  Crew.Run countingRules (CountingTask router) fun _ _ => False

/-- In every order of statements, whichever of them fail, and as long as no two aliases get the
same identifier: the counts of an alias and the rows of its mail differ by what the tasks owe
it, each at most one message.  So they are the same when every task has ended well. -/
theorem counts_agree (router : AliasRouter) (spool : Spool) (relayed : List Str) {s : Clerks}
    (hrun : Clerks.Run router ⟨(⟨Db.empty, spool, relayed⟩, []), []⟩ s) :
    (∃ owed, List.Forall₂ Owes s.tasks owed ∧ ∀ a ∈ s.state.1.db.aliases, ∀ d,
      a.counted d + owed.count (some (d, a.aliasId)) = s.state.1.db.receipts.count
        (some (d, a.aliasId))) ∧
    ((∀ p ∈ s.tasks, p = .ret (.ok ())) → ∀ a ∈ s.state.1.db.aliases, ∀ d,
      a.counted d = s.state.1.db.receipts.count (some (d, a.aliasId))) := by
  have hminded : Crew.Minded tally EndsEven
      (fun s ts => Balance s.1.db s.2 (ts.map Tally.owed)) s := by
    refine Crew.minded_run (fun p hp => CountingTask.minds hp) ?_ ?_
      (fun _ _ _ h => h.elim) ?_ hrun
    · exact fun s ts h => ⟨h.keyed, h.aliases, h.rows, fun d i hi => h.debts d i
        (by simpa [Tally.owed] using hi),
        fun a ha d => by simpa [Tally.owed] using h.counts a ha d⟩
    · exact fun s before t after o c hok hnew h => balance_turn s.1 c hok hnew h
    · exact ⟨[], .nil, balance_empty⟩
  obtain ⟨ts, htasks, hbalance⟩ := hminded
  have howes : List.Forall₂ Owes s.tasks (ts.map Tally.owed) :=
    List.forall₂_map_right_iff.mpr (htasks.imp fun _ _ => owes_of_minds)
  refine ⟨⟨_, howes, hbalance.counts⟩, fun hdone a ha d => ?_⟩
  have hnone : (ts.map Tally.owed).count (some (d, a.aliasId)) = 0 :=
    List.count_eq_zero.mpr fun hmem => by cases owes_none howes hdone _ hmem
  rw [← hbalance.counts a ha d, hnone, Nat.add_zero]

/-! ### A message and the reply to it -/

/-- The task has ended well. -/
def endedWell : Prog Op Res (Except Str Unit) → Bool
  | .ret (.ok _) => true
  | _ => false

theorem endedWell_iff {p : Prog Op Res (Except Str Unit)} :
    endedWell p = true ↔ p = .ret (.ok ()) := by
  constructor
  · intro h
    cases p with
    | ret a =>
        cases a with
        | ok u => rfl
        | error e => cases h
    | ask o k => cases h
  · rintro rfl
    rfl

instance : ∀ o ids, Decidable (NewAlias o ids)
  | .write (.insertAlias _), _ => inferInstanceAs (Decidable (¬ _))
  | .write (.insertMailbox _), _ | .write (.deleteMailbox _), _
  | .write (.setAliasEnabled _ _), _ => isTrue trivial
  | .write (.deleteAlias _), _ | .write (.recordAliasActivity _ _ _), _
  | .write (.insertContact _), _ => isTrue trivial
  | .write (.insertOutbox _), _ | .write (.requeueInterrupted _), _
  | .write (.markDelivered _ _), _ => isTrue trivial
  | .write (.markFailed _ _ _), _ | .write (.markPending _ _ _ _), _ => isTrue trivial
  | .uuid, _ | .now, _ | .sample _, _ | .findAliasByAddress _, _ | .findContact _ _, _ =>
      isTrue trivial
  | .findContactByReverseAlias _, _ | .claimDue _ _, _ | .createDirAll _, _
  | .writeFile _ _, _ => isTrue trivial
  | .readFile _, _ | .send _ _ _ _, _ => isTrue trivial

instance (o : Op) (c : Chance) (s : World × List Str) : Decidable (countingRules.fair o c s) :=
  inferInstanceAs (Decidable (NewAlias o s.2))

/-- A mailbox and an alias are made; mail to the alias, and what the mailbox writes back. -/
def fourTasks : Clerks :=
  ⟨(⟨Db.empty, [], []⟩, []),
    [(AliasRouter.sample.handle ⟨"me@personal.example", ["ct.pqrstuvwxyza@example.com".toList],
      []⟩).run,
      (AliasRouter.sample.handle ⟨"a@shop.example", ["shop@example.com".toList], []⟩).run,
      .ask (.write (.insertAlias ⟨['a'], EmailAddress.shop.normalised, ['m'], none, true, 0, 0,
        0, [], none⟩)) fun _ => .ret (.ok ()),
      .ask (.write (.insertMailbox ⟨['m'], EmailAddress.me.normalised, true, []⟩))
        fun _ => .ret (.ok ())]⟩

/-- Sixteen turns for the message, then nine for the reply. -/
def fourTurns : List (Nat × Chance) :=
  (3, Chance.calm 0) :: (2, Chance.calm 1) ::
    (List.range 25).map fun n => (if n < 16 then 1 else 0, Chance.calm (10 + n))

theorem run_fourTasks : Clerks.Run AliasRouter.sample ⟨(⟨Db.empty, [], []⟩, []), []⟩
    (fourTurns.foldl (Crew.turnOf countingRules) fourTasks) := by
  refine Relation.ReflTransGen.trans ?_
    (Crew.run_turns fourTurns fourTasks (by decide +kernel))
  refine .tail
    (.tail (.tail (.tail .refl (.join _ _ (.statement _ ?_))) (.join _ _ (.statement _ ?_)))
    (.join _ _ (.handle _))) (.join _ _ (.handle _))
  · trivial
  · exact ⟨rfl, rfl⟩

/-- One forwarded message and one reply, both queued and both counted. -/
theorem counts_agree_sample :
    let s := fourTurns.foldl (Crew.turnOf countingRules) fourTasks
    s.state.1.db.aliases.map (fun a => (a.forwardCount, a.replyCount)) = [(1, 1)] ∧
      ∀ a ∈ s.state.1.db.aliases, ∀ d, a.counted d = s.state.1.db.receipts.count
        (some (d, a.aliasId)) := by
  intro s
  have hdone : s.tasks.all endedWell = true := by decide +kernel
  refine ⟨by decide +kernel, (counts_agree AliasRouter.sample [] [] run_fourTasks).2
    fun p hp => ?_⟩
  exact endedWell_iff.mp (List.all_eq_true.mp hdone p hp)

end Weiterleitung
