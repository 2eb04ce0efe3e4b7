/-
# `Delivery.Release` — a pass lets go of what it claimed

A pass runs on a machine where other tasks of the process are answered between its
operations (`Busy`).  Whatever comes of reading and sending, each message of the pass ends
with one marking statement, and nothing else puts it out of `sending` before a restart.

    delivering a message asks for its mark last           (`releases_deliver`)
    a program like that releases the message iff the
      mark succeeds                                       (`releases_run`)
    a pass releases what it claimed iff every marking
      statement succeeds                                  (`released_iff`)
    one statement that fails strands the message          (`stranded_when_busy`)
-/
import Mathlib
import Weiterleitung.Delivery.Schedule

namespace Weiterleitung

open Prog

/-! ## A busy machine -/

/-- A machine, and what other tasks are answered before each of its operations. -/
structure Busy where
  host : Host
  others : Nat → List (Op × Chance)

def interfere (others : List (Op × Chance)) (w : World) :
    World := others.foldl (fun w e => (answer e.1 e.2 w).2) w

/-- The row of a message. -/
def Db.rowOf (messageId : Str) (db : Db) : Option OutboxRow :=
  lookup OutboxRow.messageId messageId db.outbox

namespace Busy

/-- The world the next operation meets. -/
def met (b : Busy) : World := interfere (b.others b.host.tick) b.host.world

/-- The others are not of the worker. -/
def Outside (b : Busy) : Prop := ∀ tick, ∀ e ∈ b.others tick, Inbound e.1

end Busy

def between : Prog.Handler Op Res Busy := fun o b =>
  ((answer o b.host.chance b.met).1,
    { b with host := b.host.after (answer o b.host.chance b.met).2 })

/-! ## Rows that stay -/

/-- The row of the message keeps its place in the schedule. -/
def Stays (id : Str) (db db' : Db) : Prop :=
  ∀ row, db.rowOf id = some row →
    ∃ row', db'.rowOf id = some row' ∧ row'.status = row.status ∧
    row'.nextAttemptAt = row.nextAttemptAt

/-- An operation that has nothing to do with the message. -/
def Foreign (id : Str) (o : Op) : Prop := ¬ Claims o ∧ ∀ r row row', row.messageId = id →
  ¬ Touched o r row row'

section
variable {id : Str} {db db' db'' : Db}

theorem Stays.refl (id : Str) (db : Db) : Stays id db db := fun row h => ⟨row, h, rfl, rfl⟩

theorem Stays.trans (h : Stays id db db') (h' : Stays id db' db'') : Stays id db db'' := by
  intro row hrow
  obtain ⟨row', hrow', hstatus', htime'⟩ := h row hrow
  obtain ⟨row'', hrow'', hstatus'', htime''⟩ := h' row' hrow'
  exact ⟨row'', hrow'', hstatus''.trans hstatus', htime''.trans htime'⟩

theorem stays_of_foreign {o : Op} (ho : Foreign id o) (c : Chance) (w : World) :
    Stays id w.db (answer o c w).2.db := by
  intro row hrow
  rcases rowsKept_answer (w := w) o c (fun h => absurd h ho.1)
    with ⟨new, -, he⟩ | ⟨g, he, hkept⟩
  · refine ⟨row, ?_, rfl, rfl⟩
    unfold Db.rowOf at hrow ⊢
    rw [he, lookup_append, hrow, Option.some_or]
  · obtain ⟨hmem, hid⟩ := lookup_some hrow
    obtain ⟨-, ⟨hstatus, htime⟩ | htouched⟩ := hkept row hmem
    · refine ⟨g row, ?_, hstatus, htime⟩
      unfold Db.rowOf at hrow ⊢
      rw [he, lookup_map_of_mem fun row hrow => (hkept row hrow).1, hrow, Option.map_some]
    · exact absurd htouched (ho.2 _ row _ hid)

theorem foreign_of_inbound {o : Op} (ho : Inbound o) : Foreign id o := by
  refine ⟨fun hc => ?_, fun r row row' _ htouched => ?_⟩
  · cases o with
    | claimDue => exact ho.elim
    | _ => exact hc.elim
  · cases o with
    | claimDue => exact ho.elim
    | write u => cases u <;> first | exact ho.elim | exact htouched.elim
    | _ => exact htouched.elim

theorem stays_interfere : ∀ {others : List (Op × Chance)}, (∀ e ∈ others, Inbound e.1) →
    ∀ w : World, Stays id w.db (interfere others w).db
  | [], _, w => Stays.refl id w.db
  | e :: _, h, w =>
      (stays_of_foreign (foreign_of_inbound (h e List.mem_cons_self)) e.2 w).trans
        (stays_interfere (fun e he => h e (List.mem_cons_of_mem _ he)) _)

theorem stays_met {b : Busy} (hb : b.Outside) : Stays id b.host.world.db b.met.db :=
  stays_interfere (hb _) _

theorem stays_between {b : Busy} {o : Op} (hb : b.Outside) (ho : Foreign id o) :
    Stays id b.host.world.db (between o b).2.host.world.db :=
  (stays_met hb).trans (stays_of_foreign ho b.host.chance b.met)

/-- Time passes, and the others and chance are what they are. -/
structure Busy.After (b b' : Busy) : Prop where
  others : b'.others = b.others
  oracle : b'.host.oracle = b.host.oracle
  tick : b.host.tick ≤ b'.host.tick

theorem after_run {α : Type} (p : Prog Op Res α) (b : Busy) : b.After (run between p b).2 :=
  run_rel between (P := fun _ => True) (R := Busy.After) (fun _ => ⟨rfl, rfl, le_rfl⟩)
    (fun h h' => ⟨h'.others.trans h.others, h'.oracle.trans h.oracle, h.tick.trans h'.tick⟩)
    (fun _ _ _ => ⟨rfl, rfl, Nat.le_succ _⟩) (uses_all (fun _ => trivial) p) b

theorem Busy.After.outside {b b' : Busy} (h : b.After b') (hb : b.Outside) : b'.Outside := by
  unfold Busy.Outside
  rw [h.others]
  exact hb

/-- A program that has nothing to do with the message. -/
theorem stays_run {α : Type} :
    ∀ {p : Prog Op Res α} {b : Busy}, Uses (Foreign id) p → b.Outside →
    Stays id b.host.world.db (run between p b).2.host.world.db
  | .ret _, b, _, _ => Stays.refl id b.host.world.db
  | .ask o k, b, hp, hb =>
      (stays_between hb hp.1).trans
        (stays_run (p := k (between o b).1) (b := (between o b).2) (hp.2 _) hb)

end

/-! ## Delivering one message -/

/-- The operation marks a message. -/
def Marks : Op → Prop
  | .write (.markDelivered _ _) | .write (.markFailed _ _ _) | .write (.markPending _ _ _ _) =>
      True
  | _ => False

instance : DecidablePred Marks
  | .write (.markDelivered _ _) | .write (.markFailed _ _ _) | .write (.markPending _ _ _ _) =>
      isTrue trivial
  | .write (.insertMailbox _) | .write (.deleteMailbox _) | .write (.insertAlias _) =>
      isFalse id
  | .write (.setAliasEnabled _ _) | .write (.deleteAlias _)
  | .write (.recordAliasActivity _ _ _) => isFalse id
  | .write (.insertContact _) | .write (.insertOutbox _) | .write (.requeueInterrupted _) =>
      isFalse id
  | .uuid | .now | .sample _ | .findAliasByAddress _ | .findContact _ _ => isFalse id
  | .findContactByReverseAlias _ | .claimDue _ _ | .createDirAll _ => isFalse id
  | .writeFile _ _ | .readFile _ | .send _ _ _ _ => isFalse id

/-- A statement that marks a message succeeds. -/
def MarksSucceed (o : Op) (b : Busy) : Prop := Marks o → b.host.chance.fails = false

instance (o : Op) (b : Busy) : Decidable (MarksSucceed o b) :=
  inferInstanceAs (Decidable (_ → _))

/-- The mark that ends the delivery of a message. -/
def Frees (id : Str) (clock : Option Instant) : Op → Prop
  | .write (.markDelivered i _) => i = id
  | .write (.markFailed i _ _) => i = id
  | .write (.markPending i _ _ at_) =>
      i = id ∧ ∃ t minutes, clock = some t ∧ 1 ≤ minutes ∧
        at_ = (t.addMinutes minutes).toRfc3339
  | _ => False

/-- The program asks for the mark of the message last, unless it panics. -/
def Releases (id : Str) : Option Instant → Prog Op Res (Except Failure Unit) → Prop
  | _, .ret r => r = .error .overflow
  | clock, .ask o k => (Frees id clock o ∧ ∀ r, ∃ a, k r = .ret a) ∨
      (Foreign id o ∧ ¬ Marks o ∧ ∀ r, Releases id (readClock clock o r) (k r))

theorem one_le_backoff (attempts : Int) : 1 ≤ backoff attempts := by
  refine le_min ?_ (by decide)
  exact one_le_pow₀ (by decide)

theorem releases_markAttemptFailed (id : Str) (clock : Option Instant)
    (attempts maxAttempts : Int) (error : Str) :
    Releases id clock (markAttemptFailed id attempts maxAttempts error).run := by
  unfold markAttemptFailed
  split
  · rfl
  · by_cases hge : attempts + 1 ≥ maxAttempts
    · simp only [if_pos hge]
      exact Or.inl ⟨rfl, fun r => ⟨_, rfl⟩⟩
    · simp only [if_neg hge]
      exact Or.inr ⟨foreign_of_inbound trivial, fun h => h, fun now =>
        Or.inl ⟨⟨rfl, now, _, rfl, one_le_backoff _, rfl⟩, fun r => ⟨_, rfl⟩⟩⟩

theorem releases_deliver (m : QueuedMessage) (maxAttempts : Int) (clock : Option Instant) :
    Releases m.messageId clock (deliver m maxAttempts).run := by
  refine Or.inr ⟨foreign_of_inbound trivial, fun h => h, fun raw => ?_⟩
  cases raw with
  | error e => exact releases_markAttemptFailed _ _ _ _ _
  | ok raw =>
      refine Or.inr ⟨⟨fun h => h, fun _ _ _ _ h => h⟩, fun h => h, fun sent => ?_⟩
      cases sent with
      | ok u =>
          exact Or.inr ⟨foreign_of_inbound trivial, fun h => h,
            fun now => Or.inl ⟨rfl, fun r => ⟨_, rfl⟩⟩⟩
      | error e => exact releases_markAttemptFailed _ _ _ _ _

/-! ## Released -/

/-- The row is delivered, failed, or waits for a time after one that was
read from tick `start` on. -/
def Free (start : Nat) (h : Host) (row : OutboxRow) : Prop :=
  row.status = .delivered ∨ row.status = .failed ∨ row.status = .pending ∧
    ∃ tick minutes, start ≤ tick ∧ tick < h.tick ∧ 1 ≤ minutes ∧
      row.nextAttemptAt = ((h.oracle tick).now.addMinutes minutes).toRfc3339

/-- The row of the message is free. -/
def Released (start : Nat) (h : Host) (id : Str) :
    Prop := ∃ row, h.world.db.rowOf id = some row ∧ Free start h row

def IsSending (id : Str) (db : Db) :
    Prop := ∃ row, db.rowOf id = some row ∧ row.status = .sending

section
variable {id : Str} {start : Nat} {b b' : Busy}

theorem IsSending.stays {db db' : Db} (h : IsSending id db) (hs : Stays id db db') :
    IsSending id db' := by
  obtain ⟨row, hrow, hsending⟩ := h
  obtain ⟨row', hrow', hstatus, -⟩ := hs row hrow
  exact ⟨row', hrow', hstatus.trans hsending⟩

theorem not_released {h : Host} (hs : IsSending id h.world.db) : ¬ Released start h id := by
  obtain ⟨row, hrow, hsending⟩ := hs
  rintro ⟨row', hrow', hfree⟩
  obtain rfl : row = row' := Option.some.inj (hrow.symm.trans hrow')
  unfold Free at hfree
  rw [hsending] at hfree
  rcases hfree with h0 | h0 | ⟨h0, -⟩ <;> cases h0

/-- What is released stays released. -/
theorem released_later (hafter : b.After b') (hs : Stays id b.host.world.db b'.host.world.db)
    (h : Released start b.host id) : Released start b'.host id := by
  obtain ⟨row, hrow, hfree⟩ := h
  obtain ⟨row', hrow', hstatus, htime⟩ := hs row hrow
  refine ⟨row', hrow', ?_⟩
  unfold Free
  rw [hstatus, htime, hafter.oracle]
  rcases hfree with h0 | h0 | ⟨h0, tick, minutes, hfrom, hto, hrest⟩
  · exact Or.inl h0
  · exact Or.inr (Or.inl h0)
  · exact Or.inr (Or.inr ⟨h0, tick, minutes, hfrom, hto.trans_le hafter.tick, hrest⟩)

/-- A marking statement frees the row, or fails. -/
theorem released_mark {u : Write} {f : OutboxRow → OutboxRow} (hb : b.Outside)
    (h : IsSending id b.host.world.db)
    (hmarks : Marks (.write u)) (hu : ∀ db, u.apply db = some (db.updateRow id f))
    (hf : ∀ row, (f row).messageId = row.messageId)
    (hfree : ∀ row, Free start (between (.write u) b).2.host (f row)) :
    (MarksSucceed (.write u) b ∧ Released start (between (.write u) b).2.host id) ∨
      (¬ MarksSucceed (.write u) b ∧ IsSending id (between (.write u) b).2.host.world.db) := by
  have hmet := h.stays (stays_met hb)
  rcases answer_write_cases u b.host.chance b.met with ⟨db, hf', hdb, he⟩ | ⟨hbad, he⟩
  · refine Or.inl ⟨fun _ => hf', ?_⟩
    obtain ⟨row, hrow, -⟩ := hmet
    refine ⟨f row, ?_, hfree row⟩
    show (Weiterleitung.answer (.write u) b.host.chance b.met).2.db.rowOf id = _
    rw [hu] at hdb
    cases hdb
    rw [he]
    unfold Db.rowOf Db.updateRow at *
    dsimp only
    rw [lookup_map_of_mem fun row _ => ?_, hrow, Option.map_some, if_pos (lookup_some hrow).2]
    split
    · exact hf row
    · rfl
  · have hfails : b.host.chance.fails = true := by
      refine hbad.resolve_right fun h0 => ?_
      rw [hu] at h0
      cases h0
    refine Or.inr ⟨fun h0 => ?_, ?_⟩
    · have hfails' := h0 hmarks
      rw [hfails] at hfails'
      cases hfails'
    · show IsSending id (Weiterleitung.answer (.write u) b.host.chance b.met).2.db
      rw [he]
      exact hmet

/-- A program that asks for the mark last releases the message, or the mark failed. -/
theorem releases_run :
    ∀ {p : Prog Op Res (Except Failure Unit)} {clock : Option Instant} {b : Busy},
    Releases id clock p → b.Outside → IsSending id b.host.world.db →
    (∀ t, clock = some t → ∃ tick, start ≤ tick ∧ tick < b.host.tick ∧
      (b.host.oracle tick).now = t) →
    start ≤ b.host.tick → (run between p b).1 ≠ .error .overflow →
    (Along between MarksSucceed p b ∧ Released start (run between p b).2.host id) ∨
      (¬ Along between MarksSucceed p b ∧ IsSending id (run between p b).2.host.world.db)
  | .ret _, _, _, hp, _, _, _, _, hret => absurd hp hret
  | .ask o k, clock, b, hp, hb, hsending, hclock, hstart, hret => by
      rcases hp with ⟨hfrees, hlast⟩ | ⟨hforeign, hmarks, hrest⟩
      · obtain ⟨a, ha⟩ := hlast (between o b).1
        have hrun : run between (.ask o k) b = (a, (between o b).2) := by
          rw [run_ask, ha]
          rfl
        have halong : Along between MarksSucceed (.ask o k) b ↔ MarksSucceed o b := by
          show MarksSucceed o b ∧ Along between MarksSucceed (k (between o b).1)
            (between o b).2 ↔ _
          rw [ha]
          exact and_iff_left trivial
        rw [hrun, halong]
        cases o with
        | write u =>
            cases u with
            | markDelivered i now =>
                obtain rfl : i = id := hfrees
                exact released_mark (f := fun row => { row with
                  status := .delivered, deliveredAt := some now, lastError := none })
                    hb hsending trivial
                  (fun _ => rfl) (fun _ => rfl) fun _ => Or.inl rfl
            | markFailed i attempts error =>
                obtain rfl : i = id := hfrees
                exact released_mark (f := fun row => { row with
                  status := .failed, attempts := attempts, lastError := some error })
                    hb hsending trivial
                  (fun _ => rfl) (fun _ => rfl) fun _ => Or.inr (Or.inl rfl)
            | markPending i attempts error at_ =>
                obtain ⟨rfl, t, minutes, ht, hminutes, rfl⟩ := hfrees
                obtain ⟨tick, hfrom, hto, hnow⟩ := hclock t ht
                refine released_mark (f := fun row => { row with
                  status := .pending, attempts := attempts, lastError := some error,
                  nextAttemptAt := (t.addMinutes minutes).toRfc3339 }) hb hsending trivial
                  (fun _ => rfl) (fun _ => rfl) fun row => ?_
                refine Or.inr
                  (Or.inr ⟨rfl, tick, minutes, hfrom, hto.trans (Nat.lt_succ_self _),
                    hminutes, ?_⟩)
                rw [← hnow]
                rfl
            | _ => exact hfrees.elim
        | _ => exact hfrees.elim
      · have halong : Along between MarksSucceed (.ask o k) b ↔
            Along between MarksSucceed (k (between o b).1) (between o b).2 :=
          and_iff_right fun h => absurd h hmarks
        rw [run_ask, halong]
        refine releases_run (hrest _) hb (hsending.stays (stays_between hb hforeign)) ?_
          (hstart.trans (Nat.le_succ _)) hret
        -- the tick of this operation is among those seen
        have hold : ∀ t, clock = some t → ∃ tick, start ≤ tick ∧ tick < b.host.tick + 1 ∧
            (b.host.oracle tick).now = t := by
          intro t ht
          obtain ⟨tick, hfrom, hto, hnow⟩ := hclock t ht
          exact ⟨tick, hfrom, hto.trans (Nat.lt_succ_self _), hnow⟩
        cases o with
        | now =>
            intro t ht
            exact ⟨b.host.tick, hstart, Nat.lt_succ_self _, Option.some.inj ht⟩
        | _ => exact hold

/-! ## A pass -/

/-- Delivering another message has nothing to do with this one. -/
theorem foreign_of_delivering {other : Str} (hne : other ≠ id) (o : Op)
    (ho : Delivering other o) : Foreign id o := by
  cases o with
  | now | readFile => exact foreign_of_inbound trivial
  | send => exact ⟨fun h => h, fun _ _ _ _ h => h⟩
  | write u =>
      cases u with
      | markDelivered i | markFailed i | markPending i =>
          obtain rfl : i = other := ho
          exact ⟨fun hc => hc.elim, fun _ _ _ hid htouched => hne (htouched.1.symm.trans hid)⟩
      | _ => exact ho.elim
  | _ => exact ho.elim

theorem foreign_deliver {m : QueuedMessage} (hne : m.messageId ≠ id) (maxAttempts : Int) :
    Uses (Foreign id) (deliver m maxAttempts).run :=
  uses_mono (foreign_of_delivering hne) (delivering_deliver m)

theorem foreign_deliverAll (maxAttempts : Int) {messages : List QueuedMessage}
    (hne : ∀ m ∈ messages, m.messageId ≠ id) :
    Uses (Foreign id) (deliverAll maxAttempts messages).run :=
  uses_deliverAll fun m hm => foreign_of_delivering (hne m hm)

/-- Unless it panics, the loop goes on with the rest. -/
theorem deliverAll_cons (maxAttempts : Int) (m : QueuedMessage)
    (messages : List QueuedMessage) :
    ∃ f : Except Failure Unit → Prog Op Res (Except Failure Unit),
      (deliverAll maxAttempts (m :: messages)).run = ((deliver m maxAttempts).run >>= f) ∧
      f (.error .overflow) = .ret (.error .overflow) ∧
      ∀ x, x ≠ .error .overflow → f x = (deliverAll maxAttempts messages).run := by
  refine ⟨_, run_lift_bind (deliver m maxAttempts).run _, rfl, fun x hx => ?_⟩
  rcases x with (e | -) | -
  · rfl
  · exact absurd rfl hx
  · rfl

/-- Delivering messages releases all of them iff every mark succeeds. -/
theorem released_all {maxAttempts : Int} : ∀ {messages : List QueuedMessage} {b : Busy},
    Keyed QueuedMessage.messageId messages → b.Outside →
    (∀ m ∈ messages, IsSending m.messageId b.host.world.db) → start ≤ b.host.tick →
    (run between (deliverAll maxAttempts messages).run b).1 ≠ .error .overflow →
    ((∀ m ∈ messages, Released start
      (run between (deliverAll maxAttempts messages).run b).2.host m.messageId) ↔
      Along between MarksSucceed (deliverAll maxAttempts messages).run b)
  | [], _, _, _, _, _, _ => iff_of_true (fun _ hm => nomatch hm) trivial
  | m :: messages, b, hkeyed, hb, hsending, hstart, hret => by
      obtain ⟨hfirst, hkeyed⟩ := List.nodup_cons.mp hkeyed
      have hne : ∀ m' ∈ messages, m'.messageId ≠ m.messageId :=
        fun m' hm' h0 => hfirst (h0 ▸ List.mem_map_of_mem hm')
      obtain ⟨f, hprog, hpanic, hrest⟩ := deliverAll_cons maxAttempts m messages
      rw [hprog, run_bind] at hret
      rw [hprog, run_bind, along_bind]
      set r := run between (deliver m maxAttempts).run b with hr
      have hafter : b.After r.2 := after_run _ b
      have hlater : r.1 ≠ .error .overflow := by
        intro h0
        rw [h0, hpanic] at hret
        exact hret rfl
      rw [hrest _ hlater] at hret ⊢
      have hsendingRest : ∀ m' ∈ messages, IsSending m'.messageId r.2.host.world.db :=
        fun m' hm' =>
        (hsending m' (List.mem_cons_of_mem m hm')).stays
          (stays_run (foreign_deliver (hne m' hm').symm maxAttempts) hb)
      have ih := released_all hkeyed (hafter.outside hb) hsendingRest
        (hstart.trans hafter.tick) hret
      have hstays : Stays m.messageId r.2.host.world.db
          (run between (deliverAll maxAttempts messages).run r.2).2.host.world.db :=
        stays_run (foreign_deliverAll maxAttempts hne) (hafter.outside hb)
      rw [List.forall_mem_cons, ih]
      refine and_congr_left fun _ => ?_
      rcases releases_run (releases_deliver m maxAttempts none) hb
        (hsending m List.mem_cons_self) (fun t ht => nomatch ht) hstart hlater
        with ⟨halong, hreleased⟩ | ⟨halong, hstill⟩
      · exact iff_of_true (released_later (after_run _ _) hstays hreleased) halong
      · exact iff_of_false (not_released (hstill.stays hstays)) halong

theorem keyed_interfere : ∀ {others : List (Op × Chance)}, (∀ e ∈ others, Inbound e.1) →
    ∀ {w : World}, Keyed Entry.messageId w.db.ledger →
      Keyed Entry.messageId (interfere others w).db.ledger
  | [], _, _, h => h
  | e :: _, ho, w, h => by
      refine keyed_interfere (fun e he => ho e (List.mem_cons_of_mem _ he)) ?_
      obtain ⟨-, hl | ⟨new, hfresh, hl⟩⟩ := ledger_of_inbound (ho e List.mem_cons_self) e.2 w
      · rw [hl]
        exact h
      · rw [hl]
        exact h.concat hfresh

/-- The messages a pass claims. -/
def claimedBy (b : Busy) : List QueuedMessage :=
  match (exec between (claimDue batchSize) b).1 with
  | .ok messages => messages
  | .error _ => []

/-- What a claim returns is `sending`. -/
theorem claimed_sending {messages : List QueuedMessage} (hb : b.Outside)
    (hkeyed : Keyed OutboxRow.messageId b.host.world.db.outbox)
    (h : exec between (claimDue batchSize) b = (.ok messages, b')) :
    Keyed QueuedMessage.messageId messages ∧ ∀ m ∈ messages,
    IsSending m.messageId b'.host.world.db := by
  let b₁ := (between .now b).2
  have hexec : exec between (claimDue batchSize) b
      = between (.claimDue b.host.chance.now.toRfc3339 batchSize) b₁ := rfl
  have hentries : Keyed Entry.messageId b₁.met.db.ledger :=
    keyed_interfere (hb _) (keyed_interfere (hb _) (Db.keyed_ledger.mpr hkeyed))
  rw [hexec] at h
  cases hf : b₁.host.chance.fails with
  | true =>
      simp only [between, answer, hf, if_true] at h
      cases h
  | false =>
      simp only [between, answer, hf] at h
      cases h
      have hclaim := claimable_claimDue b.host.chance.now.toRfc3339 batchSize
        b₁.host.chance.rank hentries
      refine ⟨hclaim.distinct, fun m hm => ?_⟩
      obtain ⟨row, hrow, rfl⟩ := List.mem_map.mp hm
      have hrows := Db.keyed_ledger.mp hentries
      refine ⟨{ row with status := .sending }, ?_, rfl⟩
      show lookup OutboxRow.messageId row.messageId (Db.claimDue _ _ _ b₁.met.db).2.outbox = _
      rw [congrArg Db.outbox (Db.claimDue_rows _ _ _ hrows), lookup_map_of_mem
        fun row _ => by split <;> rfl, (lookup_eq_some hrows).mpr
        ⟨(Db.mem_dueRows hrow).1, rfl⟩, Option.map_some, if_pos hrow]

end

/-- A pass claims, and delivers what it claimed. -/
theorem drainOutbox_cases (maxAttempts : Int) (b : Busy) :
    (∀ {e b'}, exec between (claimDue batchSize) b = (.error e, b') →
      Along between MarksSucceed (drainOutbox maxAttempts).run b) ∧
    (∀ {messages b'}, exec between (claimDue batchSize) b = (.ok messages, b') →
      ((exec between (drainOutbox maxAttempts) b).2 =
        (run between (deliverAll maxAttempts messages).run b').2 ∧
        ((run between (deliverAll maxAttempts messages).run b').1 = .error .overflow →
          (exec between (drainOutbox maxAttempts) b).1 = .error .overflow)) ∧
      (Along between MarksSucceed (drainOutbox maxAttempts).run b ↔
        Along between MarksSucceed (deliverAll maxAttempts messages).run b')) := by
  have hclaim : Along between MarksSucceed (mapErr Failure.error (claimDue batchSize)).run b :=
    ⟨fun h => h.elim, fun h => h.elim, trivial⟩
  have halong : Along between MarksSucceed (drainOutbox maxAttempts).run b ↔
      Along between MarksSucceed (ExceptT.bindCont (fun messages => do
        deliverAll maxAttempts messages
        return messages.length)
          (run between (mapErr Failure.error (claimDue batchSize)).run b).1)
        (run between (mapErr Failure.error (claimDue batchSize)).run b).2 :=
    along_bind.trans (and_iff_right hclaim)
  have hrun : ∀ {r b'}, exec between (claimDue batchSize) b = (r, b') →
      run between (mapErr Failure.error (claimDue batchSize)).run b
        = (r.mapError Failure.error, b') := by
    intro r b' h
    have hmap := exec_mapErr between Failure.error (claimDue batchSize) b
    rwa [h] at hmap
  refine ⟨fun h => ?_, fun {messages b'} h => ⟨?_, ?_⟩⟩
  · rw [halong, hrun h]
    trivial
  · have hexec : exec between (drainOutbox maxAttempts) b = exec between (do
        deliverAll maxAttempts messages
        return messages.length) b' := exec_bind_of_ok between (hrun h)
    rw [hexec, exec_bind]
    cases hall : exec between (deliverAll maxAttempts messages) b' with
    | mk r b'' =>
        rw [show run between (deliverAll maxAttempts messages).run b' = (r, b'') from hall]
        cases r with
        | error e =>
            refine ⟨rfl, fun h0 => ?_⟩
            obtain rfl : e = .overflow := Except.error.inj h0
            rfl
        | ok u => exact ⟨rfl, fun h0 => nomatch h0⟩
  · rw [halong, hrun h]
    have hlast : ∀ (r : Except Failure Unit) (b'' : Busy), Along between MarksSucceed
        (ExceptT.bindCont (fun _ => (pure messages.length : Fallible Failure Op Res Nat)) r)
        b'' := by
      intro r b''
      cases r <;> trivial
    exact along_bind.trans (and_iff_left (hlast _ _))

/-- A pass that returns has released every message it claimed, whatever else runs and
fails, iff every marking statement succeeded. -/
theorem released_iff {b : Busy} {maxAttempts : Int} (hb : b.Outside)
    (hkeyed : Keyed OutboxRow.messageId b.host.world.db.outbox)
    (hreturns : (exec between (drainOutbox maxAttempts) b).1 ≠ .error .overflow) :
    (∀ m ∈ claimedBy b, Released b.host.tick (exec between (drainOutbox maxAttempts) b).2.host
      m.messageId) ↔
      Along between MarksSucceed (drainOutbox maxAttempts).run b := by
  obtain ⟨hfailed, hclaimed⟩ := drainOutbox_cases maxAttempts b
  unfold claimedBy
  cases hr : exec between (claimDue batchSize) b with
  | mk r b₁ =>
      cases r with
      | error e => exact iff_of_true (fun _ hm => nomatch hm) (hfailed hr)
      | ok messages =>
          obtain ⟨hresult, halong⟩ := hclaimed hr
          obtain ⟨hdistinct, hsending⟩ := claimed_sending hb hkeyed hr
          have hafter : b.After b₁ := by
            have h := after_run (claimDue batchSize).run b
            rwa [show run between (claimDue batchSize).run b = (.ok messages, b₁) from hr] at h
          obtain ⟨hstate, hpanic⟩ := hresult
          rw [hstate, halong]
          refine released_all hdistinct (hafter.outside hb) hsending hafter.tick fun h0 => ?_
          exact hreturns (hpanic h0)

/-! ### A database that is busy once -/

/-- One message is queued. -/
def queuedWorld : World := (Chronicle.queuedOne 3).world

/-- Calm chance, but that the operation at one tick fails. -/
def failsAt (tick : Nat) (n : Nat) : Chance :=
  if n = tick then Chronicle.unlucky else Chance.calm 7

/-- The machine of one queued message, where others read while the pass runs. -/
def busyAt (tick : Nat) : Busy :=
  ⟨⟨queuedWorld, failsAt tick, 0⟩, fun _ => [(.findAliasByAddress [], Chance.calm 7)]⟩

theorem outside_busyAt (tick : Nat) : (busyAt tick).Outside := by
  intro n e he
  rw [List.mem_singleton.mp he]
  trivial

theorem ne_overflow {r : Except Failure Nat} (h : r.toBool = true) : r ≠ .error .overflow := by
  rintro rfl
  cases h

/-- The relay refuses the message, and it is released. -/
theorem released_iff_refused : claimedBy (busyAt 3) ≠ [] ∧
    ∀ m ∈ claimedBy (busyAt 3), Released 0 (exec between (drainOutbox 3) (busyAt 3)).2.host
      m.messageId := by
  refine ⟨by decide +kernel, ?_⟩
  exact (released_iff (outside_busyAt 3) (by decide +kernel)
    (ne_overflow (by decide +kernel))).mpr (by decide +kernel)

/-- The relay takes the message and the database is busy when it is marked. -/
theorem stranded_when_busy :
    ¬ ∀ (maxAttempts : Int) (b : Busy), b.Outside →
    Keyed OutboxRow.messageId b.host.world.db.outbox →
      (exec between (drainOutbox maxAttempts) b).1 ≠ .error .overflow →
      ∀ m ∈ claimedBy b, Released b.host.tick (exec between (drainOutbox maxAttempts) b).2.host
        m.messageId := by
  intro hall
  obtain ⟨m, hm⟩ : ∃ m, m ∈ claimedBy (busyAt 5) :=
    List.exists_mem_of_ne_nil _ (by decide +kernel)
  obtain ⟨row, hrow, hfree⟩ :=
    hall 3 (busyAt 5) (outside_busyAt 5) (by decide +kernel)
      (ne_overflow (by decide +kernel)) m hm
  have hsending : ∀ row ∈ (exec between (drainOutbox 3) (busyAt 5)).2.host.world.db.outbox,
      row.status = .sending := by
    decide +kernel
  exact not_released ⟨row, hrow, hsending row (lookup_some hrow).1⟩ ⟨row, hrow, hfree⟩

end Weiterleitung
