/-
# `Delivery.Ledger` — every message of the outbox is a job

The ledger is the outbox without what delivery does not look at.  With the messages that
tasks hold and the calls of the relay it makes every message a job of `Lib.Job`
(`World.job`).  `Desk` ties the holders to the table: they hold different messages, and
each one is claimed there with the attempts the holder remembers.

    an answer outside the worker adds at most a pending row   (`ledger_of_inbound`)
    an answer within the protocol moves every job by a step   (`Desk.answer`)
    `requeue_interrupted` requeues every job                  (`Desk.requeue`)
-/
import Mathlib
import Weiterleitung.Lib.Job
import Weiterleitung.Lib.Keyed
import Weiterleitung.Delivery.Pass

namespace Weiterleitung

open Prog

/-! ## The ledger -/

/-- What delivery knows of a message. -/
structure Entry where
  messageId : Str
  status : Status
  attempts : Int

def OutboxRow.entry (row : OutboxRow) : Entry := ⟨row.messageId, row.status, row.attempts⟩

def Status.phase : Status → Job.Phase
  | .pending => .waiting
  | .sending => .claimed
  | .delivered => .done
  | .failed => .dropped

def Db.ledger (db : Db) : List Entry := db.outbox.map OutboxRow.entry

def Db.entryOf (messageId : Str) (db : Db) : Option Entry :=
  lookup Entry.messageId messageId db.ledger

/-- Whether the message is held, and has been sent by its holder. -/
def heldAs (held : Held) (messageId : Str) : Option Bool :=
  (lookup (fun e : QueuedMessage × Bool => e.1.messageId) messageId held).map (·.2)

def World.job (w : World) (held : Held) (messageId : Str) : Job :=
  match w.db.entryOf messageId with
  | none => ⟨.absent, 0, heldAs held messageId, w.relayed.count messageId⟩
  | some e => ⟨e.status.phase, e.attempts, heldAs held messageId, w.relayed.count messageId⟩

/-- The holders agree with the table. -/
structure Desk (w : World) (held : Held) : Prop where
  entries : Keyed Entry.messageId w.db.ledger
  holders : Keyed (fun e : QueuedMessage × Bool => e.1.messageId) held
  claimed : ∀ e ∈ held, ⟨e.1.messageId, .sending, e.1.attempts⟩ ∈ w.db.ledger

section
variable {limit : Int} {ready : Bool} {w w' : World} {held held' rest : Held} {id : Str}

theorem heldAs_cons {e : QueuedMessage × Bool} :
    heldAs (e :: held) id = if e.1.messageId = id then some e.2 else heldAs held id := by
  unfold heldAs
  rw [lookup_cons]
  split <;> rfl

theorem heldAs_eq_none : heldAs held id = none ↔ ∀ e ∈ held, e.1.messageId ≠ id := by
  unfold heldAs
  rw [Option.map_eq_none_iff, lookup_eq_none]

/-- A job is its entry, its holder and its sends. -/
theorem job_congr (hentry : w'.db.entryOf id = w.db.entryOf id)
    (hheld : heldAs held' id = heldAs held id)
    (hsent : w'.relayed.count id = w.relayed.count id) : w'.job held' id = w.job held id := by
  unfold World.job
  rw [hentry, hheld, hsent]

theorem job_of_entry {e : Entry} (h : w.db.entryOf id = some e) :
    w.job held id = ⟨e.status.phase, e.attempts, heldAs held id, w.relayed.count id⟩ := by
  unfold World.job
  rw [h]

theorem job_of_absent (h : w.db.entryOf id = none) :
    w.job held id = ⟨.absent, 0, heldAs held id, w.relayed.count id⟩ := by
  unfold World.job
  rw [h]

/-- Who holds a message is no matter for where its job stands. -/
theorem job_phase (held held' : Held) : (w.job held id).phase = (w.job held' id).phase := by
  unfold World.job
  split <;> rfl

namespace Desk

theorem perm (h : Desk w held) (hp : held.Perm held') : Desk w held' :=
  ⟨h.entries, h.holders.perm hp, fun e he => h.claimed e (hp.mem_iff.mpr he)⟩

theorem job_perm (h : Desk w held) (hp : held.Perm held') : w.job held' id = w.job held id :=
  job_congr rfl (congrArg (Option.map Prod.snd) (lookup_perm h.holders hp).symm) rfl

/-- The entry of a message that is held. -/
theorem entryOf_held {e : QueuedMessage × Bool} (h : Desk w held) (he : e ∈ held) :
    w.db.entryOf e.1.messageId = some ⟨e.1.messageId, .sending, e.1.attempts⟩ :=
  (lookup_eq_some h.entries).mpr ⟨h.claimed e he, rfl⟩

/-- What is not claimed is held by nobody. -/
theorem heldAs_of_entry {e : Entry} (h : Desk w held) (he : w.db.entryOf id = some e)
    (hs : e.status ≠ .sending) : heldAs held id = none := by
  refine heldAs_eq_none.mpr fun e' he' hid => hs ?_
  have hentry := h.entryOf_held he'
  rw [hid, he] at hentry
  cases hentry
  rfl

end Desk

/-! ## One answer -/

/-- The desk stays in order, and every job takes a step. -/
def Moves (limit : Int) (ready : Bool) (w : World) (held : Held) (w' : World) (held' : Held) :
    Prop :=
  Desk w' held' ∧ ∀ id, Job.Step limit ready (w.job held id) (w'.job held' id)

theorem moves_of_ledger_eq (h : Desk w held) (hl : w'.db.ledger = w.db.ledger)
    (hr : w'.relayed = w.relayed) : Moves limit ready w held w' held := by
  refine ⟨⟨hl ▸ h.entries, h.holders, fun e he => hl ▸ h.claimed e he⟩, fun id => ?_⟩
  have hjob : w'.job held id = w.job held id :=
    job_congr (congrArg (lookup Entry.messageId id) hl) rfl (by rw [hr])
  rw [hjob]
  exact .idle _

/-- A new row is a job that starts to wait. -/
theorem moves_of_added {new : Str} (h : Desk w held)
    (hfresh : ∀ e ∈ w.db.ledger, e.messageId ≠ new)
    (hl : w'.db.ledger = w.db.ledger ++ [⟨new, .pending, 0⟩]) (hr : w'.relayed = w.relayed) :
    Moves limit ready w held w' held := by
  have hentry : ∀ id, w'.db.entryOf id
      = if new = id then some ⟨new, .pending, 0⟩ else w.db.entryOf id := by
    intro id
    unfold Db.entryOf
    rw [hl]
    exact lookup_concat hfresh
  refine ⟨⟨hl ▸ h.entries.concat hfresh, h.holders, fun e he => ?_⟩, fun id => ?_⟩
  · rw [hl]
    exact List.mem_append_left _ (h.claimed e he)
  · by_cases hid : new = id
    · subst hid
      have hnone : heldAs held new = none :=
        heldAs_eq_none.mpr fun e he => hfresh _ (h.claimed e he)
      rw [job_of_absent (lookup_eq_none.mpr hfresh),
        job_of_entry ((hentry new).trans (if_pos rfl)), hnone, hr]
      exact .queue 0 _
    · have hjob : w'.job held id = w.job held id :=
        job_congr ((hentry id).trans (if_neg hid)) rfl (by rw [hr])
      rw [hjob]
      exact .idle _

/-! ## Answers outside the worker -/

theorem Db.ledger_updateRow {db : Db} {f : OutboxRow → OutboxRow} {g : Entry → Entry}
    (hf : ∀ row, (f row).entry = g row.entry) :
    (db.updateRow id f).ledger = db.ledger.map fun e => if e.messageId = id
      then g e else e := by
  unfold Db.ledger Db.updateRow
  rw [List.map_map, List.map_map]
  refine List.map_congr_left fun row _ => ?_
  show OutboxRow.entry (if row.messageId = id then f row else row)
    = if row.messageId = id then g row.entry else row.entry
  split
  · exact hf row
  · rfl

theorem Db.ledger_removeAliases (p : Alias → Bool) (db : Db) :
    (db.removeAliases p).ledger = db.ledger := by
  show (List.map _ db.outbox).map OutboxRow.entry = db.outbox.map OutboxRow.entry
  rw [List.map_map]
  rfl

theorem Write.ledger_of_inbound {u : Write} {db db' : Db} (hu : Inbound (.write u))
    (h : u.apply db = some db') :
    db'.ledger = db.ledger ∨ ∃ new, (∀ e ∈ db.ledger, e.messageId ≠ new) ∧
      db'.ledger = db.ledger ++ [⟨new, .pending, 0⟩] := by
  cases u with
  | insertMailbox m =>
      obtain ⟨f, -, -, rfl⟩ := Db.insertMailbox_eq_some h
      exact Or.inl rfl
  | deleteMailbox =>
      cases h
      exact Or.inl (Db.ledger_removeAliases _ _)
  | insertAlias a =>
      obtain ⟨-, -, rfl⟩ := Db.insertAlias_eq_some h
      exact Or.inl rfl
  | setAliasEnabled | recordAliasActivity =>
      cases h
      exact Or.inl rfl
  | deleteAlias =>
      cases h
      exact Or.inl (Db.ledger_removeAliases _ _)
  | insertContact c =>
      rcases Db.insertContact_eq_some h with ⟨-, rfl⟩ | ⟨-, -, -, rfl⟩
      · exact Or.inl rfl
      · exact Or.inl rfl
  | insertOutbox row =>
      obtain ⟨hfresh, rfl⟩ := Db.insertOutbox_eq_some h
      obtain ⟨hstatus, hattempts⟩ := hu
      refine Or.inr ⟨row.messageId, ?_, ?_⟩
      · intro e he
        obtain ⟨other, hother, rfl⟩ := List.mem_map.mp he
        exact hfresh other hother
      · show List.map OutboxRow.entry (db.outbox ++ [row]) = _
        rw [List.map_append, List.map_singleton, OutboxRow.entry, hstatus, hattempts]
        rfl
  | requeueInterrupted | markDelivered | markFailed | markPending => exact hu.elim

/-- Outside the worker the ledger stays, or gets a new pending entry. -/
theorem ledger_of_inbound {o : Op} (ho : Inbound o) (c : Chance) (w : World) :
    (answer o c w).2.relayed = w.relayed ∧
      ((answer o c w).2.db.ledger = w.db.ledger ∨
        ∃ new, (∀ e ∈ w.db.ledger, e.messageId ≠ new) ∧
          (answer o c w).2.db.ledger = w.db.ledger ++ [⟨new, .pending, 0⟩]) := by
  cases o with
  | claimDue | send => exact ho.elim
  | write u =>
      rcases answer_write_cases u c w with ⟨db, -, hdb, he⟩ | ⟨-, he⟩
      · rw [he]
        exact ⟨rfl, Write.ledger_of_inbound ho hdb⟩
      · rw [he]
        exact ⟨rfl, Or.inl rfl⟩
  | writeFile path raw =>
      cases hf : c.fails with
      | false => simp [answer, hf]
      | true => cases ht : c.torn <;> simp [answer, hf, ht]
  | readFile path => cases hr : w.spool.read path <;> simp [answer, hr]
  | _ => exact ⟨rfl, Or.inl rfl⟩

theorem moves_of_inbound {o : Op} (ho : Inbound o) (c : Chance) (h : Desk w held) :
    Moves limit ready w held (answer o c w).2 held := by
  obtain ⟨hr, hl | ⟨new, hfresh, hl⟩⟩ := ledger_of_inbound ho c w
  · exact moves_of_ledger_eq h hl hr
  · exact moves_of_added h hfresh hl hr

/-! ## Claiming -/

theorem Db.mem_dueRows {now : Str} {n : Int} {rank : Str → Nat} {db : Db} {row : OutboxRow}
    (h : row ∈ db.dueRows now n rank) :
    row ∈ db.outbox ∧ row.status = .pending ∧ row.nextAttemptAt ≤ now := by
  have hsorted : row ∈ (db.outbox.filter fun row =>
      row.status = .pending && row.nextAttemptAt ≤ now).insertionSort fun a b =>
        a.nextAttemptAt < b.nextAttemptAt ∨
          a.nextAttemptAt = b.nextAttemptAt ∧ rank a.messageId ≤ rank b.messageId := by
    unfold Db.dueRows at h
    dsimp only at h
    split at h
    · exact h
    · exact List.mem_of_mem_take h
  obtain ⟨hmem, hdue⟩ := List.mem_filter.mp ((List.mem_insertionSort _).mp hsorted)
  obtain ⟨hpending, htime⟩ := Bool.and_eq_true_iff.mp hdue
  exact ⟨hmem, of_decide_eq_true hpending, of_decide_eq_true htime⟩

theorem Db.keyed_dueRows {now : Str} {n : Int} {rank : Str → Nat} {db : Db}
    (h : Keyed OutboxRow.messageId db.outbox) :
    Keyed OutboxRow.messageId (db.dueRows now n rank) := by
  have hdue := (h.sublist (List.filter_sublist
    (p := fun row => row.status = .pending && row.nextAttemptAt ≤ now)))
  unfold Db.dueRows
  dsimp only
  split
  · exact hdue.perm (List.perm_insertionSort _ _).symm
  · exact (hdue.perm (List.perm_insertionSort _ _).symm).sublist (List.take_sublist _ _)

theorem Db.ledger_claimed (messages : List QueuedMessage) (db : Db) :
    (messages.foldl (fun db m => db.updateRow m.messageId fun row =>
      { row with status := .sending })
        db).ledger = db.ledger.map fun e =>
          if e.messageId ∈ messages.map (·.messageId) then { e with status := .sending }
            else e := by
  rw [Db.foldl_sending]
  unfold Db.ledger
  rw [List.map_map, List.map_map]
  refine List.map_congr_left fun row _ => ?_
  exact apply_ite OutboxRow.entry _ _ _

theorem Db.keyed_ledger {db : Db} : Keyed Entry.messageId db.ledger ↔
    Keyed OutboxRow.messageId db.outbox := by
  unfold Db.ledger Keyed
  rw [List.map_map]
  rfl

/-- The messages of a claim: different ones, all of them pending. -/
structure Claimable (w : World) (messages : List QueuedMessage) : Prop where
  distinct : Keyed QueuedMessage.messageId messages
  pending : ∀ m ∈ messages, ⟨m.messageId, .pending, m.attempts⟩ ∈ w.db.ledger

theorem claimable_claimDue (now : Str) (n : Int)
    (rank : Str → Nat) (h : Keyed Entry.messageId w.db.ledger) :
    Claimable w (w.db.claimDue now n rank).1 := by
  have hrows := Db.keyed_ledger.mp h
  refine ⟨?_, ?_⟩
  · show ((w.db.dueRows now n rank).map OutboxRow.queued |>.map QueuedMessage.messageId).Nodup
    rw [List.map_map]
    exact Db.keyed_dueRows hrows
  · intro m hm
    obtain ⟨row, hrow, rfl⟩ := List.mem_map.mp hm
    obtain ⟨hmem, hstatus, -⟩ := Db.mem_dueRows hrow
    refine List.mem_map.mpr ⟨row, hmem, ?_⟩
    rw [OutboxRow.entry, hstatus]
    rfl

theorem heldAs_append {more : Held} :
    heldAs (held ++ more) id = (heldAs held id).or (heldAs more id) := by
  unfold heldAs
  rw [lookup_append, Option.map_or]

/-- What is claimed is held and not sent. -/
theorem heldAs_claimed (messages : List QueuedMessage) :
    heldAs (messages.map fun m => (m, false)) id
      = if id ∈ messages.map (·.messageId) then some false else none := by
  induction messages with
  | nil => rfl
  | cons m messages ih =>
      rw [List.map_cons, heldAs_cons, ih, List.map_cons]
      by_cases hm : m.messageId = id
      · simp [hm]
      · simp only [hm, if_false, List.mem_cons, Ne.symm hm, false_or]

theorem moves_of_claim {messages : List QueuedMessage} (h : Desk w held)
    (hc : Claimable w messages) (hl : w'.db.ledger = w.db.ledger.map fun e =>
      if e.messageId ∈ messages.map (·.messageId) then { e with status := .sending } else e)
    (hr : w'.relayed = w.relayed) :
    Moves limit true w held w' ((messages.map fun m => (m, false)) ++ held) := by
  have hkeep : ∀ e : Entry, (if e.messageId ∈ messages.map (·.messageId)
      then { e with status := .sending } else e).messageId = e.messageId := by
    intro e
    split <;> rfl
  have hpending : ∀ m ∈ messages, w.db.entryOf m.messageId
      = some ⟨m.messageId, .pending, m.attempts⟩ :=
    fun m hm => (lookup_eq_some h.entries).mpr ⟨hc.pending m hm, rfl⟩
  have hfree : ∀ m ∈ messages, heldAs held m.messageId = none :=
    fun m hm => h.heldAs_of_entry (hpending m hm) (fun h0 => nomatch h0)
  refine ⟨⟨?_, ?_, ?_⟩, fun id => ?_⟩
  · rw [hl]
    exact h.entries.map hkeep
  · refine Keyed.append ?_ h.holders ?_
    · rw [Keyed, List.map_map]
      exact hc.distinct
    · intro e he e' he' hid
      obtain ⟨m, hm, rfl⟩ := List.mem_map.mp he
      exact heldAs_eq_none.mp (hfree m hm) e' he' hid.symm
  · intro e he
    rw [hl]
    rcases List.mem_append.mp he with he | he
    · obtain ⟨m, hm, rfl⟩ := List.mem_map.mp he
      exact List.mem_map.mpr ⟨_, hc.pending m hm, if_pos (List.mem_map_of_mem hm)⟩
    · exact List.mem_map.mpr ⟨_, h.claimed e he, by split <;> rfl⟩
  · have hentry : w'.db.entryOf id = (w.db.entryOf id).map fun e =>
        if e.messageId ∈ messages.map (·.messageId) then { e with status := .sending }
          else e := by
      unfold Db.entryOf
      rw [hl]
      exact lookup_map hkeep
    by_cases hid : id ∈ messages.map (·.messageId)
    · obtain ⟨m, hm, rfl⟩ := List.mem_map.mp hid
      rw [hpending m hm, Option.map_some, if_pos hid] at hentry
      rw [job_of_entry (hpending m hm), job_of_entry hentry, hfree m hm, heldAs_append,
        heldAs_claimed, if_pos hid, hr]
      exact .claim _ _ rfl
    · -- the entry is not touched
      have hsame : w'.db.entryOf id = w.db.entryOf id := by
        rw [hentry]
        cases hfound : w.db.entryOf id with
        | none => rfl
        | some e =>
            rw [← (lookup_some hfound).2] at hid
            rw [Option.map_some, if_neg hid]
      have hjob : w'.job ((messages.map fun m => (m, false)) ++ held) id = w.job held id :=
        job_congr hsame (by rw [heldAs_append, heldAs_claimed, if_neg hid, Option.none_or])
          (by rw [hr])
      rw [hjob]
      exact .idle _

/-! ## Sending and marking -/

section
variable {m : QueuedMessage} {sent : Bool}

/-- The job of a message that is held. -/
theorem Desk.job_held (h : Desk w ((m, sent) :: rest)) : w.job ((m, sent) :: rest) m.messageId
    = ⟨.claimed, m.attempts, some sent, w.relayed.count m.messageId⟩ := by
  rw [job_of_entry (h.entryOf_held List.mem_cons_self), heldAs_cons, if_pos rfl]
  rfl

/-- Nobody else holds it. -/
theorem Desk.heldAs_rest (h : Desk w ((m, sent) :: rest)) : heldAs rest m.messageId = none :=
  heldAs_eq_none.mpr fun e he hid =>
    (List.nodup_cons.mp h.holders).1 (List.mem_map.mpr ⟨e, he, hid⟩)

theorem moves_of_send (h : Desk w ((m, false) :: rest)) (hl : w'.db.ledger = w.db.ledger)
    (hr : w'.relayed = m.messageId :: w.relayed) :
    Moves limit ready w ((m, false) :: rest) w' ((m, true) :: rest) := by
  refine ⟨⟨hl ▸ h.entries, h.holders, ?_⟩, fun id => ?_⟩
  · intro e he
    rw [hl]
    rcases List.mem_cons.mp he with rfl | he
    · exact h.claimed (m, false) List.mem_cons_self
    · exact h.claimed e (List.mem_cons_of_mem _ he)
  · have hentry : ∀ id, w'.db.entryOf id = w.db.entryOf id :=
      fun id => congrArg (lookup Entry.messageId id) hl
    by_cases hid : m.messageId = id
    · subst hid
      rw [h.job_held, job_of_entry ((hentry _).trans (h.entryOf_held List.mem_cons_self)),
        heldAs_cons, if_pos rfl, hr, List.count_cons_self]
      exact .attempt _ _
    · have hjob : w'.job ((m, true) :: rest) id = w.job ((m, false) :: rest) id :=
        job_congr (hentry id) (by rw [heldAs_cons, heldAs_cons, if_neg hid, if_neg hid])
          (by rw [hr, List.count_cons_of_ne hid])
      rw [hjob]
      exact .idle _

/-- Letting go of a message: its entry may have changed, no other one has. -/
theorem moves_of_mark {status : Status} {attempts : Int} {g : Entry → Entry}
    (h : Desk w ((m, sent) :: rest))
    (hl : w'.db.ledger = w.db.ledger.map fun e => if e.messageId = m.messageId then g e else e)
    (hg : ∀ e, (g e).messageId = e.messageId)
    (hmark : g ⟨m.messageId, .sending, m.attempts⟩ = ⟨m.messageId, status, attempts⟩)
    (hr : w'.relayed = w.relayed)
    (hstep : ∀ n, Job.Step limit ready ⟨.claimed, m.attempts, some sent, n⟩
      ⟨status.phase, attempts, none, n⟩) :
    Moves limit ready w ((m, sent) :: rest) w' rest := by
  have hkeep : ∀ e : Entry, (if e.messageId = m.messageId then g e else e).messageId
      = e.messageId := by
    intro e
    split
    · exact hg e
    · rfl
  have hentry : ∀ id, w'.db.entryOf id
      = (w.db.entryOf id).map fun e => if e.messageId = m.messageId then g e else e := by
    intro id
    unfold Db.entryOf
    rw [hl]
    exact lookup_map hkeep
  refine ⟨⟨?_, (List.nodup_cons.mp h.holders).2, ?_⟩, fun id => ?_⟩
  · rw [hl]
    exact h.entries.map hkeep
  · intro e he
    rw [hl]
    refine List.mem_map.mpr ⟨_, h.claimed e (List.mem_cons_of_mem _ he), if_neg ?_⟩
    exact heldAs_eq_none.mp h.heldAs_rest e he
  · by_cases hid : m.messageId = id
    · subst hid
      have hnew : w'.db.entryOf m.messageId = some ⟨m.messageId, status, attempts⟩ := by
        rw [hentry, h.entryOf_held List.mem_cons_self, Option.map_some, if_pos rfl, hmark]
      rw [h.job_held, job_of_entry hnew, h.heldAs_rest, hr]
      exact hstep _
    · have hsame : w'.db.entryOf id = w.db.entryOf id := by
        rw [hentry]
        cases hfound : w.db.entryOf id with
        | none => rfl
        | some e =>
            rw [Option.map_some, if_neg ((lookup_some hfound).2.trans_ne (Ne.symm hid))]
      have hjob : w'.job rest id = w.job ((m, sent) :: rest) id :=
        job_congr hsame (by rw [heldAs_cons, if_neg hid]) (by rw [hr])
      rw [hjob]
      exact .idle _

/-- The outcome was not recorded. -/
theorem moves_of_lost (h : Desk w ((m, sent) :: rest)) :
    Moves limit ready w ((m, sent) :: rest) w rest :=
  moves_of_mark (g := id) h (by simp) (fun _ => rfl) rfl rfl fun n => .lose _ _ n

/-- A marking statement is `UPDATE … WHERE message_id = ?`; it may fail. -/
theorem moves_of_markWrite {u : Write} {f : OutboxRow → OutboxRow} {g : Entry → Entry}
    {status : Status} {attempts : Int} (c : Chance) (h : Desk w ((m, sent) :: rest))
    (hu : ∀ db, u.apply db = some (db.updateRow m.messageId f))
    (hf : ∀ row, (f row).entry = g row.entry) (hg : ∀ e, (g e).messageId = e.messageId)
    (hmark : g ⟨m.messageId, .sending, m.attempts⟩ = ⟨m.messageId, status, attempts⟩)
    (hstep : ∀ n, Job.Step limit ready ⟨.claimed, m.attempts, some sent, n⟩
      ⟨status.phase, attempts, none, n⟩) :
    Moves limit ready w ((m, sent) :: rest) (answer (.write u) c w).2 rest := by
  rcases answer_write_cases u c w with ⟨db, -, hdb, he⟩ | ⟨-, he⟩
  · rw [he]
    rw [hu] at hdb
    cases hdb
    exact moves_of_mark h (Db.ledger_updateRow hf) hg hmark rfl hstep
  · rw [he]
    exact moves_of_lost h

end

/-! ## An answer within the protocol -/

/-- Whoever keeps to the rules moves every job by a step of its own, also
with others at the desk. -/
theorem Desk.answer {o : Op} {next : Res o → Held → Prop} {others : Held} (c : Chance)
    (h : Desk w (held ++ others)) (hrule : Rule limit held o next)
    (hready : Claims o → ready = true) :
    ∃ held', next (answer o c w).1 held' ∧
      Moves limit ready w (held ++ others) (answer o c w).2 (held' ++ others) := by
  cases o with
  | claimDue now n =>
      obtain ⟨rfl, hnext⟩ := hrule
      obtain rfl := hready trivial
      refine ⟨_, hnext _, ?_⟩
      cases hf : c.fails with
      | true =>
          simp only [Weiterleitung.answer, hf, if_true]
          exact moves_of_ledger_eq h rfl rfl
      | false =>
          simp only [Weiterleitung.answer, hf]
          exact moves_of_claim h (claimable_claimDue now n c.rank h.entries)
            (Db.ledger_claimed _ _) rfl
  | send id from_ to_ raw =>
      obtain ⟨m, rest, rfl, rfl, hnext⟩ := hrule
      exact ⟨_, hnext _, moves_of_send h rfl rfl⟩
  | write u =>
      cases u with
      | markDelivered id now =>
          obtain ⟨m, rest, rfl, rfl, hnext⟩ := hrule
          exact ⟨_, hnext _, moves_of_markWrite (g := fun e => { e with status := .delivered })
            c h (fun _ => rfl) (fun _ => rfl) (fun _ => rfl) rfl fun n => .finish _ n⟩
      | markFailed id attempts error =>
          obtain ⟨m, sent, rest, rfl, rfl, hnext⟩ := hrule
          exact ⟨_, hnext _, moves_of_markWrite
            (g := fun e => { e with status := .failed, attempts := attempts }) c h
            (fun _ => rfl) (fun _ => rfl) (fun _ => rfl) rfl fun n => .drop _ _ _ n⟩
      | markPending id attempts error at_ =>
          obtain ⟨m, rest, rfl, rfl, rfl, hlt, hnext⟩ := hrule
          exact ⟨_, hnext _, moves_of_markWrite
            (g := fun e => { e with status := .pending, attempts := m.attempts + 1 }) c h
            (fun _ => rfl) (fun _ => rfl) (fun _ => rfl) rfl fun n => .retry _ n hlt⟩
      | _ => exact ⟨held, hrule.2 _, moves_of_inbound hrule.1 c h⟩
  | _ => exact ⟨held, hrule.2 _, moves_of_inbound hrule.1 c h⟩

/-! ## Restarts -/

theorem Desk.crash (h : Desk w held) : Desk w [] :=
  ⟨h.entries, List.nodup_nil, fun _ he => nomatch he⟩

theorem job_crash (held : Held) : w.job [] id = (w.job held id).crash := by
  unfold World.job
  split <;> rfl

/-- What `requeue_interrupted` does to the ledger. -/
theorem Db.ledger_requeueInterrupted (now : Str) (db : Db) : (db.requeueInterrupted now).ledger
    = db.ledger.map fun e => if e.status = .sending then { e with status := .pending }
      else e := by
  unfold Db.ledger Db.requeueInterrupted
  rw [List.map_map, List.map_map]
  refine List.map_congr_left fun row _ => ?_
  show OutboxRow.entry (if row.status = .sending then _ else row)
    = if row.status = .sending then _ else row.entry
  split <;> rfl

theorem Desk.requeue (h : Desk w []) (now : Str) :
    Desk { w with db := w.db.requeueInterrupted now } [] ∧
      ∀ id, World.job { w with db := w.db.requeueInterrupted now }
        [] id = (w.job [] id).requeue := by
  have hkeep : ∀ e : Entry, (if e.status = .sending then { e with status := .pending }
      else e).messageId = e.messageId := by
    intro e
    split <;> rfl
  refine ⟨⟨?_, List.nodup_nil, fun _ he => nomatch he⟩, fun id => ?_⟩
  · rw [Db.ledger_requeueInterrupted]
    exact h.entries.map hkeep
  · have hentry : (w.db.requeueInterrupted now).entryOf id = (w.db.entryOf id).map fun e =>
        if e.status = .sending then { e with status := .pending } else e := by
      unfold Db.entryOf
      rw [Db.ledger_requeueInterrupted]
      exact lookup_map hkeep
    unfold World.job
    rw [hentry]
    cases w.db.entryOf id with
    | none => rfl
    | some e =>
        obtain ⟨messageId, status, attempts⟩ := e
        cases status <;> rfl

end

end Weiterleitung
