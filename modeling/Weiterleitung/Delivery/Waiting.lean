/-
# `Delivery.Waiting` — nobody waits behind the newcomers

The loop of the worker, pass after pass, while the rest of the process schedules what it likes
for later. A pass takes ten messages, the longest due first, so whatever comes in meanwhile a
message waits for those that were due with it and for no others: of `k` of them none waits
after `k / 10` claims, rounded up.

    nothing is put before the time that has passed        (`backlog_answer`)
    a claim takes ten of what was due then, or all        (`backlog_claimDue`)
    a pass                                                (`backlog_drainOutbox`)
    pass after pass                                       (`waits_in_turn`)
-/
import Mathlib
import Weiterleitung.Delivery.Release
import Weiterleitung.Delivery.Schedule
import Weiterleitung.Lib.Backlog

namespace Weiterleitung

open Prog

/-! ## The loop -/

/-- The passes of the loop, and what each of them reports.  A panic ends it. -/
def passes (maxAttempts : Int) : Nat → Prog Op Res (List (Except Failure Nat))
  | 0 => ret []
  | n + 1 => do
      let report ← (drainOutbox maxAttempts).run
      match report with
      | .error .overflow => return [report]
      | _ => return report :: (← passes maxAttempts n)

/-- `Ok(0) | Err(_)`: the worker sleeps before the next pass. -/
def sleeps : Except Failure Nat → Bool
  | .ok 0 | .error _ => true
  | .ok (_ + 1) => false

/-- The worker, for `n` passes. -/
def runDeliveryWorker (maxAttempts : Int) (n : Nat) : App (List (Except Failure Nat)) := do
  requeueInterrupted
  ExceptT.lift (passes maxAttempts n)

/-! ## What waits -/

/-- The message waits, and was due by then. -/
def waiting (due : Str) (row : OutboxRow) :
    Bool := row.status = .pending && row.nextAttemptAt ≤ due

theorem waiting_iff {due : Str} {row : OutboxRow} :
    waiting due row = true ↔ row.status = .pending ∧ row.nextAttemptAt ≤ due := by
  simp [waiting]

/-- How many messages wait that were due by then. -/
def Db.backlog (due : Str) (db : Db) : Nat := db.outbox.countP (waiting due)

/-- Nothing is scheduled for then. -/
def Late (due : Str) : Op → Prop
  | .write (.insertOutbox row) => due < row.nextAttemptAt
  | .write (.requeueInterrupted now) => due < now
  | .write (.markPending _ _ _ at_) => due < at_
  | _ => True

section
variable {due : Str}

theorem backlog_map {db db' : Db} {g : OutboxRow → OutboxRow}
    (hdb : db'.outbox = db.outbox.map g)
    (hg : ∀ row, (g row).status = .pending → (g row).nextAttemptAt ≤ due →
      row.status = .pending ∧ row.nextAttemptAt ≤ due) : db'.backlog due ≤ db.backlog due := by
  unfold Db.backlog
  rw [hdb]
  refine Backlog.countP_map_le _ fun row _ h => ?_
  obtain ⟨hpending, htime⟩ := waiting_iff.mp h
  exact waiting_iff.mpr (hg row hpending htime)

theorem backlog_updateRow (id : Str) (f : OutboxRow → OutboxRow) (db : Db)
    (hf : ∀ row, (f row).status = .pending → ¬ (f row).nextAttemptAt ≤ due) :
    (db.updateRow id f).backlog due ≤ db.backlog due := by
  refine backlog_map rfl fun row hpending htime => ?_
  split at hpending
  · next hid =>
      rw [if_pos hid] at htime
      exact absurd htime (hf row hpending)
  · next hid =>
      rw [if_neg hid] at htime
      exact ⟨hpending, htime⟩

theorem backlog_write {u : Write} {db db' : Db} (hlate : Late due (.write u))
    (h : u.apply db = some db') :
    db'.backlog due ≤ db.backlog due := by
  cases u with
  | insertMailbox m =>
      obtain ⟨f, -, -, rfl⟩ := Db.insertMailbox_eq_some h
      exact le_refl _
  | insertAlias a =>
      obtain ⟨-, -, rfl⟩ := Db.insertAlias_eq_some h
      exact le_refl _
  | insertContact c =>
      rcases Db.insertContact_eq_some h with ⟨-, rfl⟩ | ⟨-, -, -, rfl⟩
      · exact le_refl _
      · exact le_refl _
  | insertOutbox row =>
      obtain ⟨-, rfl⟩ := Db.insertOutbox_eq_some h
      have hnew : ¬ waiting due row = true := fun h => not_le_of_gt hlate (waiting_iff.mp h).2
      unfold Db.backlog
      dsimp only
      rw [List.countP_append, List.countP_singleton, if_neg hnew]
      exact le_refl _
  | deleteMailbox | deleteAlias =>
      cases h
      exact backlog_map rfl fun row hpending htime => ⟨hpending, htime⟩
  | setAliasEnabled | recordAliasActivity =>
      cases h
      exact le_refl _
  | requeueInterrupted now =>
      cases h
      refine backlog_map rfl fun row hpending htime => ?_
      split at htime
      · exact absurd htime (not_le_of_gt hlate)
      · next hsending =>
          rw [if_neg hsending] at hpending
          exact ⟨hpending, htime⟩
  | markDelivered id now =>
      cases h
      exact backlog_updateRow id _ db fun row hpending => by cases hpending
  | markFailed id attempts error =>
      cases h
      exact backlog_updateRow id _ db fun row hpending => by cases hpending
  | markPending id attempts error at_ =>
      cases h
      exact backlog_updateRow id _ db fun row _ => not_le_of_gt hlate

/-- Whoever counts rows that wait may count among those that are due. -/
theorem countP_due {now : Str} (hnow : due ≤ now) (left : OutboxRow → Bool)
    (rows : List OutboxRow) :
    (rows.filter (waiting now)).countP (fun row => left row && waiting due row) =
      rows.countP fun row => left row && waiting due row := by
  rw [List.countP_filter]
  refine List.countP_congr fun row _ => ?_
  simp only [Bool.and_eq_true, waiting_iff]
  constructor
  · rintro ⟨h, -⟩
    exact h
  · rintro ⟨hleft, hpending, htime⟩
    exact ⟨⟨hleft, hpending, htime⟩, hpending, le_trans htime hnow⟩

/-- A claim takes the first messages that were due by then; if it takes fewer
than it may, none is left. -/
theorem backlog_claimDue {now : Str} {limit : Int} (rank : Str → Nat) (hnow : due ≤ now)
    (hlimit : 0 ≤ limit) (db : Db) :
    (db.claimDue now limit rank).2.backlog due ≤ db.backlog due - limit.toNat ∧
      ((db.claimDue now limit rank).1.length < limit.toNat →
        (db.claimDue now limit rank).2.backlog due = 0) := by
  let work := db.outbox.filter (waiting now)
  let sorted : List OutboxRow :=
    work.insertionSort fun a b => a.nextAttemptAt < b.nextAttemptAt ∨
    a.nextAttemptAt = b.nextAttemptAt ∧ rank a.messageId ≤ rank b.messageId
  have hrows : db.dueRows now limit rank = sorted.take limit.toNat := if_neg (by omega)
  let ids := (db.claimDue now limit rank).1.map (·.messageId)
  let left (row : OutboxRow) : Bool := row.messageId ∉ ids
  have houtbox : (db.claimDue now limit rank).2.outbox = db.outbox.map fun row =>
      if row.messageId ∈ ids then { row with status := .sending } else row :=
    congrArg Db.outbox (Db.foldl_sending _ db)
  have hleft : (db.claimDue now limit rank).2.backlog due = work.countP fun row => left row &&
      waiting due row := by
    rw [countP_due hnow]
    unfold Db.backlog
    rw [houtbox, List.countP_map]
    refine List.countP_congr fun row _ => ?_
    by_cases hid : row.messageId ∈ ids
    · simp [left, hid, waiting]
    · simp [left, hid]
  have hall : work.countP (waiting due) = db.backlog due :=
    countP_due hnow (fun _ => true) db.outbox
  have hrest : work.countP (fun row => left row && waiting due row) ≤ work.countP
      (waiting due) - limit.toNat := by
    have hperm : sorted.Perm work := List.perm_insertionSort _ work
    refine Backlog.countP_rest_le (r := fun a b => a.status = .pending ∧
      a.nextAttemptAt ≤ b.nextAttemptAt)
      (fun row row' hle h => waiting_iff.mpr ⟨hle.1, le_trans hle.2 (waiting_iff.mp h).2⟩)
      hperm ?_ fun row hrow => ?_
    · refine (sorted_due rank work).imp_of_mem fun {a b} ha _ hle => ⟨?_, hle⟩
      exact (waiting_iff.mp (List.mem_filter.mp (hperm.subset ha)).2).1
    · have hid : row.messageId ∈ ids := by
        refine List.mem_map.mpr ⟨row.queued, List.mem_map_of_mem ?_, rfl⟩
        rw [hrows]
        exact hrow
      simp [left, hid]
  rw [hall] at hrest
  refine ⟨hleft ▸ hrest, fun hfew => ?_⟩
  have hlength : (db.claimDue now limit rank).1.length = min limit.toNat work.length := by
    unfold Db.claimDue
    rw [hrows, List.length_map, List.length_take, List.length_insertionSort]
  have hcount : db.backlog due ≤ work.length := hall ▸ List.countP_le_length
  rw [hleft]
  omega

theorem backlog_answer {o : Op} (ho : Late due o) (c : Chance) (w : World) :
    (answer o c w).2.db.backlog due ≤ w.db.backlog due := by
  cases o with
  | write u =>
      rcases answer_write_cases u c w with ⟨db, -, hdb, he⟩ | ⟨-, he⟩
      · rw [he]
        exact backlog_write ho hdb
      · rw [he]
  | claimDue now limit =>
      cases hf : c.fails with
      | true => simp [answer, hf]
      | false =>
          simp only [answer, hf, Bool.false_eq_true, if_false]
          refine backlog_map (congrArg Db.outbox (Db.foldl_sending _ w.db))
            fun row hpending htime => ?_
          split at hpending
          · cases hpending
          · next hid =>
              rw [if_neg hid] at htime
              exact ⟨hpending, htime⟩
  | writeFile path raw => rw [answer_writeFile_db]
  | readFile path => rw [answer_readFile_db]
  | _ => exact le_refl _

theorem backlog_interfere : ∀ {others : List (Op × Chance)}, (∀ e ∈ others, Late due e.1) →
    ∀ w : World, (interfere others w).db.backlog due ≤ w.db.backlog due
  | [], _, _ => le_refl _
  | e :: _, h, w => (backlog_interfere (fun e he => h e (List.mem_cons_of_mem _ he)) _).trans
      (backlog_answer (h e List.mem_cons_self) e.2 w)

end

/-! ## While time goes on -/

/-- The reading is after `due`, and before the end of the years that are written. -/
structure Beyond (due now : Instant) : Prop where
  passed : due < now
  years : now.InYears
  horizon : (now.addMinutes 360).InYears

/-- From now on the clock shows later times, and whatever the others write
is scheduled for later. -/
structure Busy.Past (due : Instant) (b : Busy) : Prop where
  years : due.InYears
  clock : ∀ tick, b.host.tick ≤ tick → Beyond due (b.host.oracle tick).now
  others : ∀ tick, ∀ e ∈ b.others tick, Late due.toRfc3339 e.1

section
variable {due : Instant} {b : Busy}

theorem Busy.Past.later {b' : Busy} (h : b.Past due) (hafter : b.After b') : b'.Past due where
  years := h.years
  clock := by
    intro tick htick
    rw [hafter.oracle]
    exact h.clock tick (hafter.tick.trans htick)
  others := by
    rw [hafter.others]
    exact h.others

/-- What is written by a clock that shows later times, is for later. -/
theorem late_of_onTime {clock : Option Instant} {o : Op} (ho : OnTime clock o)
    (hyears : due.InYears) (hclock : ∀ now, clock = some now → Beyond due now) :
    Late due.toRfc3339 o := by
  have hlater : ∀ {t u : Instant}, Beyond due t → u.InYears → t ≤ u →
      due.toRfc3339 < u.toRfc3339 :=
    fun ht hu htu => (Instant.toRfc3339_lt_iff hyears hu).mpr (lt_of_lt_of_le ht.passed htu)
  cases o with
  | write u =>
      cases u with
      | insertOutbox row =>
          obtain ⟨t, ht, htext⟩ := ho
          show _ < row.nextAttemptAt
          rw [htext]
          exact hlater (hclock t ht) (hclock t ht).years (le_refl t)
      | requeueInterrupted now =>
          obtain ⟨t, ht, rfl⟩ := ho
          exact hlater (hclock t ht) (hclock t ht).years (le_refl t)
      | markPending id attempts error at_ =>
          obtain ⟨t, ht, rfl⟩ := ho
          obtain ⟨hzero, hmax⟩ := backoff_bounds attempts
          have hle := Instant.le_addMinutes t hzero
          exact hlater (hclock t ht)
            ((hclock t ht).years.between (hclock t ht).horizon hle
              (Instant.addMinutes_le t hmax)) hle
      | _ => trivial
  | _ => trivial

theorem backlog_between {o : Op} (hb : b.Past due) (ho : Late due.toRfc3339 o) :
    (between o b).2.host.world.db.backlog due.toRfc3339
      ≤ b.host.world.db.backlog due.toRfc3339 :=
  (backlog_answer ho b.host.chance b.met).trans (backlog_interfere (hb.others _) b.host.world)

/-- A program that writes the times it reads. -/
theorem backlog_run {α : Type} :
    ∀ {p : Prog Op Res α} {clock : Option Instant} {b : Busy}, Punctual clock p →
    (∀ now, clock = some now → Beyond due now) → b.Past due →
    (run between p b).2.host.world.db.backlog due.toRfc3339
      ≤ b.host.world.db.backlog due.toRfc3339
  | .ret _, _, _, _, _, _ => le_refl _
  | .ask o k, clock, b, hp, hclock, hb => by
      have hnext : (between o b).2.Past due := hb.later (after_run (op o) b)
      refine (backlog_run (p := k (between o b).1) (hp.2 _) ?_ hnext).trans
        (backlog_between hb (late_of_onTime hp.1 hb.years hclock))
      cases o with
      | now =>
          intro now hnow
          obtain rfl : b.host.chance.now = now := Option.some.inj hnow
          exact hb.clock _ (le_refl _)
      | _ => exact hclock

/-! ## Passes -/

/-- The messages that a pass is sure to take. -/
def share : Except Failure Nat → Nat
  | .ok _ => 10
  | .error _ => 0

/-- The pass found less than it may take. -/
def Short : Except Failure Nat → Prop
  | .ok n => n < 10
  | .error _ => False

/-- A pass reads the clock, claims, and delivers what it claimed. -/
theorem drainOutbox_run (maxAttempts : Int) : (drainOutbox maxAttempts).run =
    ask .now fun now => ask (.claimDue now.toRfc3339 batchSize) fun claimed =>
      match claimed with
      | .error e => ret (.error (.error e))
      | .ok messages =>
          (deliverAll maxAttempts messages).run >>=
            fun r => ret (r.map fun _ => messages.length) := by
  refine congrArg (ask Op.now)
    (funext fun now => congrArg (ask (Op.claimDue now.toRfc3339 batchSize))
      (funext fun r => ?_))
  cases r with
  | error e => rfl
  | ok messages =>
      refine congrArg ((deliverAll maxAttempts messages).run >>= ·) (funext fun r => ?_)
      cases r <;> rfl

theorem backlog_claim {now : Instant} (hb : b.Past due) (hnow : Beyond due now) :
    (∃ e, (between (.claimDue now.toRfc3339 batchSize) b).1 = .error e) ∨
      ∃ messages, (between (.claimDue now.toRfc3339 batchSize) b).1 = .ok messages ∧
        (between (.claimDue now.toRfc3339 batchSize) b).2.host.world.db.backlog due.toRfc3339 ≤
          b.host.world.db.backlog due.toRfc3339 - 10 ∧
        (messages.length < 10 →
          (between (.claimDue now.toRfc3339 batchSize) b).2.host.world.db.backlog
            due.toRfc3339 = 0) := by
  have hmet : b.met.db.backlog due.toRfc3339 ≤ b.host.world.db.backlog due.toRfc3339 :=
    backlog_interfere (hb.others _) b.host.world
  have hle : due.toRfc3339 ≤ now.toRfc3339 :=
    le_of_lt ((Instant.toRfc3339_lt_iff hb.years hnow.years).mpr hnow.passed)
  obtain ⟨htaken, hshort⟩ := backlog_claimDue b.host.chance.rank hle
    (show 0 ≤ batchSize by decide) b.met.db
  unfold between
  cases hf : b.host.chance.fails with
  | true => exact .inl ⟨b.host.chance.text, by simp [answer, hf]⟩
  | false =>
      refine .inr ⟨(b.met.db.claimDue now.toRfc3339 batchSize b.host.chance.rank).1, by
        simp [answer, hf], ?_, ?_⟩
      · simp only [answer, hf, Bool.false_eq_true, if_false]
        exact htaken.trans (Nat.sub_le_sub_right hmet _)
      · simp only [answer, hf, Bool.false_eq_true, if_false]
        exact hshort

theorem backlog_drainOutbox (maxAttempts : Int) (hb : b.Past due) :
    (run between (drainOutbox maxAttempts).run b).2.host.world.db.backlog due.toRfc3339 ≤
        b.host.world.db.backlog due.toRfc3339 - share
          (run between (drainOutbox maxAttempts).run b).1 ∧
      (Short (run between (drainOutbox maxAttempts).run b).1 →
        (run between (drainOutbox maxAttempts).run b).2.host.world.db.backlog
          due.toRfc3339 = 0) := by
  have hread : Beyond due (between .now b).1 := hb.clock _ (le_refl _)
  have hpast : (between .now b).2.Past due := hb.later (after_run (op Op.now) b)
  have hbefore : (between .now b).2.host.world.db.backlog due.toRfc3339
      ≤ b.host.world.db.backlog due.toRfc3339 :=
    backlog_between (o := .now) hb trivial
  rw [drainOutbox_run, run_ask, run_ask]
  generalize between .now b = read at hread hpast hbefore ⊢
  obtain ⟨now, b₁⟩ := read
  dsimp only at hread hpast hbefore ⊢
  have hpast' : (between (.claimDue now.toRfc3339 batchSize) b₁).2.Past due :=
    hpast.later (after_run (op (Op.claimDue now.toRfc3339 batchSize)) b₁)
  have hfailed := backlog_between (o := .claimDue now.toRfc3339 batchSize) hpast trivial
  have hclaim := backlog_claim hpast hread
  generalize between (.claimDue now.toRfc3339 batchSize) b₁ = claim at hpast' hfailed hclaim ⊢
  obtain ⟨claimed, b₂⟩ := claim
  dsimp only at hpast' hfailed hclaim ⊢
  rcases hclaim with ⟨e, rfl⟩ | ⟨messages, rfl, htaken, hshort⟩
  · exact ⟨hfailed.trans hbefore, fun h => h.elim⟩
  · dsimp only
    rw [run_bind]
    have hdelivered := backlog_run (punctual_deliverAll maxAttempts messages _)
      (fun t ht => Option.some.inj ht ▸ hread) hpast'
    cases (run between (deliverAll maxAttempts messages).run b₂).1 with
    | error e =>
        exact ⟨(hdelivered.trans (htaken.trans (Nat.sub_le _ _))).trans hbefore,
          fun h => h.elim⟩
    | ok u =>
        refine ⟨hdelivered.trans (htaken.trans (Nat.sub_le_sub_right hbefore _)), fun h => ?_⟩
        exact Nat.le_zero.mp (hdelivered.trans (Nat.le_zero.mpr (hshort h)))

/-! ## Pass after pass -/

theorem backlog_passes (maxAttempts : Int) (n : Nat) : ∀ {b : Busy}, b.Past due →
    (run between (passes maxAttempts n) b).2.host.world.db.backlog due.toRfc3339 ≤
        b.host.world.db.backlog due.toRfc3339 -
          ((run between (passes maxAttempts n) b).1.map share).sum ∧
      (∀ last, (run between (passes maxAttempts n) b).1.getLast? = some last → Short last →
        (run between (passes maxAttempts n) b).2.host.world.db.backlog due.toRfc3339 = 0) := by
  induction n with
  | zero => exact fun _ => ⟨le_refl _, fun last h => by cases h⟩
  | succ n ih =>
      intro b hb
      obtain ⟨hle, hshort⟩ := backlog_drainOutbox maxAttempts hb
      have hpast : (run between (drainOutbox maxAttempts).run b).2.Past due :=
        hb.later (after_run _ b)
      unfold passes
      rw [run_bind]
      generalize run between (drainOutbox maxAttempts).run b = out at hle hshort hpast ⊢
      obtain ⟨report, b₁⟩ := out
      dsimp only at hle hshort hpast ⊢
      obtain ⟨hle', hshort'⟩ := ih hpast
      -- the passes after this one
      have hrest : (run between (passes maxAttempts n) b₁).2.host.world.db.backlog
          due.toRfc3339 ≤ b.host.world.db.backlog due.toRfc3339 -
            ((report :: (run between (passes maxAttempts n) b₁).1).map share).sum ∧
          (∀ last, (report :: (run between (passes maxAttempts n) b₁).1).getLast? = some last →
            Short last →
            (run between (passes maxAttempts n) b₁).2.host.world.db.backlog
              due.toRfc3339 = 0) := by
        rw [List.map_cons, List.sum_cons]
        refine ⟨by omega, fun last hlast hfew => ?_⟩
        generalize (run between (passes maxAttempts n) b₁).1 = reports at hle' hshort' hlast ⊢
        cases reports with
        | nil =>
            obtain rfl : report = last := Option.some.inj hlast
            have hnone := hshort hfew
            omega
        | cons next reports => exact hshort' last (List.getLast?_cons_cons ▸ hlast) hfew
      rcases report with (e | -) | k
      · rw [run_bind]
        exact hrest
      · refine ⟨hle, fun last hlast hfew => ?_⟩
        obtain rfl : Except.error Failure.overflow = last := Option.some.inj hlast
        exact hfew.elim
      · rw [run_bind]
        exact hrest

end

/-- Nobody waits behind the newcomers.  Whatever the others schedule for later while the loop
runs, of the messages that were due by a time that has passed each pass takes ten, or all; once
a pass finds fewer than ten messages none of them waits any more.  So the worker does not sleep
while one waits, but after an error. -/
theorem waits_in_turn (maxAttempts : Int) (due : Instant) (b : Busy)
    (hpast : b.Past due) (n : Nat) :
    let out := run between (passes maxAttempts n) b
    out.2.host.world.db.backlog due.toRfc3339 ≤ b.host.world.db.backlog due.toRfc3339 -
      (out.1.map share).sum ∧
      ∀ last, out.1.getLast? = some last →
        (Short last → out.2.host.world.db.backlog due.toRfc3339 = 0) ∧
        (sleeps last = true → (∃ e, last = .error e) ∨
          out.2.host.world.db.backlog due.toRfc3339 = 0) := by
  intro out
  obtain ⟨hle, hshort⟩ := backlog_passes maxAttempts n hpast
  refine ⟨hle, fun last hlast => ⟨hshort last hlast, fun hsleeps => ?_⟩⟩
  cases last with
  | error e => exact .inl ⟨e, rfl⟩
  | ok k =>
      cases k with
      | zero => exact .inr (hshort (.ok 0) hlast (Nat.succ_pos _))
      | succ k => cases hsleeps

/-- A message that comes in two minutes later. -/
def newcomer : OutboxRow where
  messageId := "new".toList
  direction := .forward
  envelopeFrom := "a@here.example".toList
  envelopeTo := "b@there.example".toList
  rawPath := "mail/new".toList
  aliasId := none
  contactId := none
  subject := none
  status := .pending
  attempts := 0
  nextAttemptAt := Chronicle.later.now.toRfc3339
  lastError := none
  createdAt := Chronicle.later.now.toRfc3339
  deliveredAt := none

/-- The machine of one queued message, two minutes later, and a newcomer. -/
def busyLater : Busy :=
  ⟨⟨queuedWorld, fun _ => Chronicle.later, 0⟩,
    fun _ => [(.write (.insertOutbox newcomer), Chronicle.later)]⟩

theorem waits_in_turn_one : busyLater.host.world.db.backlog (Chance.calm 7).now.toRfc3339 = 1 ∧
    (run between (passes 3 1) busyLater).2.host.world.db.outbox.length = 2 ∧
    (run between (passes 3 1) busyLater).2.host.world.db.backlog
      (Chance.calm 7).now.toRfc3339 = 0 := by
  have hone : busyLater.host.world.db.backlog (Chance.calm 7).now.toRfc3339 = 1 := by
    decide +kernel
  have hclock : Beyond (Chance.calm 7).now Chronicle.later.now :=
    ⟨by decide +kernel, by decide +kernel, by decide +kernel⟩
  have hpast : busyLater.Past (Chance.calm 7).now := by
    refine ⟨by decide +kernel, fun _ _ => hclock, fun _ e he => ?_⟩
    rw [List.mem_singleton.mp he]
    show (Chance.calm 7).now.toRfc3339 < newcomer.nextAttemptAt
    decide +kernel
  obtain ⟨hle, -⟩ := waits_in_turn 3 (Chance.calm 7).now busyLater hpast 1
  have hshare : ((run between (passes 3 1) busyLater).1.map share).sum = 10 := by
    decide +kernel
  rw [hone, hshare] at hle
  exact ⟨hone, by decide +kernel, Nat.le_zero.mp hle⟩

end Weiterleitung
