/-
# `Delivery.Schedule` — messages are claimed as they fall due

Every row is scheduled for an instant: the time it was queued or requeued, or the time it
was refused plus the backoff.

    a task writes the time it read last              (`punctual_passOf`, `punctual_of_mails`)
    in every run every row is scheduled              (`timed_run`)
    a refused message keeps its time until a claim
      takes it                                       (`waits_run`)
    so claims come in order, and not before the
      backoff is over                                (`claims_follow_time`)
-/
import Mathlib
import Weiterleitung.Delivery.Chronicle
import Weiterleitung.Delivery.Claim
import Weiterleitung.Delivery.Inbox

namespace Weiterleitung

open Prog

/-! ## Tasks write the time they read -/

/-- A time that is written is the one read last, or the backoff after it. -/
def OnTime (clock : Option Instant) : Op → Prop
  | .claimDue now _ => ∃ t, clock = some t ∧ now = t.toRfc3339
  | .write (.insertOutbox row) => ∃ t, clock = some t ∧ row.nextAttemptAt = t.toRfc3339
  | .write (.requeueInterrupted now) => ∃ t, clock = some t ∧ now = t.toRfc3339
  | .write (.markPending _ attempts _ at_) =>
      ∃ t, clock = some t ∧ at_ = (t.addMinutes (backoff attempts)).toRfc3339
  | _ => True

/-- The program writes the times it reads. -/
abbrev Punctual {α : Type} (clock : Option Instant) (p : Prog Op Res α) :
    Prop := Keeps readClock OnTime clock p

section
variable {α : Type} {clock : Option Instant}

theorem onTime_of_elsewhere {o : Op} (h : Elsewhere o) : OnTime clock o := by
  cases o with
  | claimDue => exact h.elim
  | write u => cases u <;> first | exact h.elim | trivial
  | _ => trivial

theorem punctual_enqueue (mailDir : Str) (message : NewOutboundMessage) :
    Punctual clock (enqueue mailDir message).run := by
  refine ⟨trivial, fun dir => ?_⟩
  cases dir with
  | error e => trivial
  | ok u =>
      refine ⟨trivial, fun messageId => ⟨trivial, fun file => ?_⟩⟩
      cases file with
      | error e => trivial
      | ok u =>
          refine ⟨trivial, fun now => ⟨⟨now, rfl, rfl⟩, fun row => ?_⟩⟩
          cases row <;> trivial

theorem punctual_of_mails {mailDir : Str} {p : Prog Op Res α} (h : Mails mailDir p) :
    Punctual clock p :=
  keeps_of_mails (fun _ _ => onTime_of_elsewhere) (fun _ => punctual_enqueue mailDir) h

theorem punctual_markAttemptFailed (messageId : Str) (attempts maxAttempts : Int)
    (error : Str) :
    Punctual clock (markAttemptFailed messageId attempts maxAttempts error).run := by
  unfold markAttemptFailed
  split
  · trivial
  · by_cases hge : attempts + 1 ≥ maxAttempts
    · simp only [if_pos hge]
      exact ⟨trivial, fun _ => trivial⟩
    · simp only [if_neg hge]
      exact ⟨trivial, fun now => ⟨⟨now, rfl, rfl⟩, fun _ => trivial⟩⟩

theorem punctual_deliver (m : QueuedMessage) (maxAttempts : Int) :
    Punctual clock (deliver m maxAttempts).run := by
  refine ⟨trivial, fun raw => ?_⟩
  cases raw with
  | error e => exact punctual_markAttemptFailed _ _ _ _
  | ok raw =>
      refine ⟨trivial, fun sent => ?_⟩
      cases sent with
      | ok u => exact ⟨trivial, fun now => ⟨trivial, fun _ => trivial⟩⟩
      | error e => exact punctual_markAttemptFailed _ _ _ _

theorem punctual_deliverAll (maxAttempts : Int) :
    ∀ (messages : List QueuedMessage) (clock : Option Instant),
    Punctual clock (deliverAll maxAttempts messages).run
  | [], _ => trivial
  | m :: messages, clock => by
      rw [deliverAll, run_lift_bind]
      refine keeps_bind (fun clock r => ?_) (punctual_deliver m maxAttempts)
      rcases r with (e | -) | -
      · exact punctual_deliverAll maxAttempts messages clock
      · trivial
      · exact punctual_deliverAll maxAttempts messages clock

theorem punctual_passOf (maxAttempts : Int) : Punctual clock (passOf maxAttempts) := by
  refine ⟨trivial, fun now => ⟨⟨now, rfl, rfl⟩, fun r => ?_⟩⟩
  cases r with
  | error e => trivial
  | ok messages =>
      show Punctual (some now) ((deliverAll maxAttempts messages).run >>= ExceptT.bindCont
        (fun _ => (pure messages.length : Fallible Failure Op Res Nat)) >>= fun _ => .ret ())
      rw [bind_assoc]
      refine keeps_bind (fun clock r => ?_) (punctual_deliverAll maxAttempts messages _)
      cases r <;> trivial

end

/-! ## The schedule of a run -/

/-- The text of an instant in the years 0 to 9999. -/
def Planned (text : Str) : Prop := ∃ t : Instant, t.InYears ∧ text = t.toRfc3339

/-- The reading, and every backoff after it, lies in the years 0 to 9999. -/
def InTime (clock : Option Instant) :
    Prop := ∀ t, clock = some t → t.InYears ∧ (t.addMinutes 360).InYears

/-- The clock shows the years 0 to 9999, and does not come near their end. -/
def Timely : Op → Chance → Chronicle → Prop
  | .now, c, _ => c.now.InYears ∧ (c.now.addMinutes 360).InYears
  | _, _, _ => True

/-- Tasks outside the worker that queue mail by `enqueue`. -/
def Queues (p : Task) : Prop := ∃ mailDir, Mails mailDir p

theorem backoff_natCast (k : Nat) : backoff k = min (2 ^ k) 360 := by
  have hexp : (max 0 (min (k : Int) 16)).toNat = min k 16 := by omega
  unfold backoff
  rw [hexp]
  rcases Nat.le_total k 16 with hk | hk
  · rw [min_eq_left hk]
  · -- both are beyond the cap
    have hpow : (2 : Int) ^ 16 ≤ 2 ^ k := pow_le_pow_right₀ (by decide) hk
    rw [min_eq_right hk, min_eq_right (by decide), min_eq_right (le_trans (by decide) hpow)]

theorem backoff_bounds (attempts : Int) : 0 ≤ backoff attempts ∧ backoff attempts ≤ 360 := by
  refine ⟨le_min ?_ (by decide), min_le_right _ _⟩
  positivity

section
variable {clock : Option Instant}

theorem InTime.backoff {t : Instant} (h : InTime clock) (ht : clock = some t)
    (attempts : Int) :
    (t.addMinutes (backoff attempts)).InYears := by
  obtain ⟨hzero, hmax⟩ := backoff_bounds attempts
  exact (h t ht).1.between (h t ht).2 (Instant.le_addMinutes t hzero)
    (Instant.addMinutes_le t hmax)

theorem InTime.read {o : Op} {c : Chance} {s : Chronicle} (h : InTime clock)
    (hfair : Timely o c s) :
    InTime (readClock clock o (answer o c s.world).1) := by
  cases o with
  | now =>
      intro t ht
      obtain rfl : c.now = t := Option.some.inj ht
      exact hfair
  | _ => exact h

/-- What was planned stays planned, and what is written is planned. -/
theorem planned_answer {o : Op} (c : Chance) {w : World}
    (hkeyed : Keyed OutboxRow.messageId w.db.outbox)
    (hclock : InTime clock) (ho : OnTime clock o)
    (h : ∀ row ∈ w.db.outbox, Planned row.nextAttemptAt) :
    ∀ row ∈ (answer o c w).2.db.outbox, Planned row.nextAttemptAt := by
  intro row' hrow'
  rcases rowsKept_answer o c (fun _ => hkeyed) with ⟨new, rfl, he⟩ | ⟨g, he, hkept⟩
  · rw [he] at hrow'
    rcases List.mem_append.mp hrow' with hrow' | hrow'
    · exact h row' hrow'
    · rw [List.mem_singleton.mp hrow']
      obtain ⟨t, ht, htext⟩ := ho
      exact ⟨t, (hclock t ht).1, htext⟩
  · rw [he] at hrow'
    obtain ⟨row, hrow, rfl⟩ := List.mem_map.mp hrow'
    rcases (hkept row hrow).2 with ⟨-, hsame⟩ | htouched
    · rw [hsame]
      exact h row hrow
    · cases o with
      | claimDue now limit =>
          cases hr : (answer (.claimDue now limit) c w).1 with
          | error e => rw [hr] at htouched; exact htouched.elim
          | ok messages =>
              rw [hr] at htouched
              rw [htouched.2]
              exact h row hrow
      | write u =>
          cases u with
          | requeueInterrupted now =>
              obtain ⟨t, ht, rfl⟩ := ho
              rw [htouched.2]
              exact ⟨t, (hclock t ht).1, rfl⟩
          | markDelivered | markFailed =>
              rw [htouched.2]
              exact h row hrow
          | markPending id attempts error at_ =>
              obtain ⟨t, ht, rfl⟩ := ho
              rw [htouched.2]
              exact ⟨_, hclock.backoff ht attempts, rfl⟩
          | _ => exact htouched.elim
      | _ => exact htouched.elim

end

theorem Booked.keyed_outbox {maxAttempts : Int} {s : Chronicle} {ts : List (Noted × Held)}
    (h : Booked maxAttempts s ts) :
    Keyed OutboxRow.messageId s.world.db.outbox := Db.keyed_ledger.mp h.staffed.desk.entries

namespace Chronicle

/-- Tasks are punctual by a clock in range, and every row is planned. -/
structure Timed (s : Chronicle) : Prop where
  tasks : ∀ n ∈ s.tasks, Punctual n.notes.clock n.task ∧ InTime n.notes.clock
  rows : ∀ row ∈ s.world.db.outbox, Planned row.nextAttemptAt

section
variable {maxAttempts : Int} {s s' : Chronicle} {ts : List (Noted × Held)}

theorem Timed.join {p : Task} (h : Timed s) (hp : Punctual none p) :
    Timed { s with tasks := ⟨p, .blank⟩ :: s.tasks } := by
  refine ⟨fun n hn => ?_, h.rows⟩
  rcases List.mem_cons.mp hn with rfl | hn
  · exact ⟨hp, fun t ht => nomatch ht⟩
  · exact h.tasks n hn

theorem timed_step (hb : Booked maxAttempts s ts) (h : Timed s)
    (hstep : Step Queues Timely maxAttempts s s') :
    Timed s' := by
  cases hstep with
  | inbound p _ hjoins =>
      obtain ⟨mailDir, hmails⟩ := hjoins
      exact h.join (punctual_of_mails hmails)
  | pass => exact h.join (punctual_passOf maxAttempts)
  | answer _ n o c hanswers hfair =>
      obtain ⟨before, after, k, htasks, rfl⟩ := hanswers
      obtain ⟨⟨ho, hk⟩, hfresh⟩ := h.tasks ⟨.ask o k, n⟩ (by rw [htasks]; simp)
      refine ⟨fun n' hn' => ?_, planned_answer c hb.keyed_outbox hfresh ho h.rows⟩
      rcases List.mem_append.mp hn' with hn' | hn'
      · exact h.tasks n' (by rw [htasks]; exact List.mem_append_left _ hn')
      · rcases List.mem_cons.mp hn' with rfl | hn'
        · exact ⟨hk _, hfresh.read hfair⟩
        · exact h.tasks n'
            (by rw [htasks]; exact List.mem_append_right _ (List.mem_cons_of_mem _ hn'))
  | crash => exact ⟨fun _ hn => (nomatch hn), h.rows⟩
  | requeue c c' _ hnow =>
      refine ⟨h.tasks, planned_answer c' hb.keyed_outbox ?_
        (show OnTime (some c.now) _ from ⟨c.now, rfl, rfl⟩) h.rows⟩
      intro t ht
      obtain rfl : c.now = t := Option.some.inj ht
      exact hnow

theorem timed_run {s₀ : Chronicle} (h₀ : s₀.Initial)
    (hrun : Run Queues Timely maxAttempts s₀ s) : Timed s := by
  induction hrun with
  | refl =>
      obtain ⟨⟨houtbox, -, htasks, -⟩, -⟩ := h₀
      refine ⟨fun n hn => ?_, fun row hrow => ?_⟩
      · rw [List.map_eq_nil_iff.mp (show s₀.tasks.map (·.task) = [] from htasks)] at hn
        cases hn
      · rw [show s₀.world.db.outbox = [] from houtbox] at hrow
        cases hrow
  | tail hrun hstep ih =>
      obtain ⟨ts, hb⟩ := booked_run h₀ hrun
      exact timed_step hb ih hstep

/-- Every row of a run is scheduled for some instant. -/
theorem Timed.scheduled (h : Timed s) : ∃ at_, Scheduled at_ s.world.db := by
  have hrow : ∀ row, ∃ t : Instant, row ∈ s.world.db.outbox → t.InYears ∧
      row.nextAttemptAt = t.toRfc3339 := by
    intro row
    by_cases hmem : row ∈ s.world.db.outbox
    · obtain ⟨t, ht⟩ := h.rows row hmem
      exact ⟨t, fun _ => ht⟩
    · exact ⟨⟨0, 0⟩, fun h0 => absurd h0 hmem⟩
  choose at_ hat using hrow
  exact ⟨at_, hat⟩

/-! ## Waiting -/

/-- The messages a claim takes. -/
def taken : (o : Op) → Res o → List Str
  | .claimDue _ _, .ok messages => messages.map (·.messageId)
  | _, _ => []

/-- A task that read the clock at `t` claims the message. -/
def ClaimedAt (id : Str) (t : Instant) (s s' : Chronicle) : Prop :=
  ∃ n o c, s.Answers s' n o c ∧ n.clock = some t ∧
    id ∈ taken o (Weiterleitung.answer o c s.world).1

/-- A task that read the clock at `t` records the `k`-th refusal of the message. -/
def RefusedAt (id : Str) (k : Nat) (t : Instant) (s s' : Chronicle) : Prop :=
  ∃ n o c, s.Answers s' n o c ∧ n.clock = some t ∧
    recorded o (Weiterleitung.answer o c s.world).1 n.finding = [(id, .refused)] ∧
    refusals s'.log id = k

/-- The message waits for its time. -/
def Waits (id text : Str) (s : Chronicle) : Prop :=
  ∃ row ∈ s.world.db.outbox, row.messageId = id ∧ row.status = .pending ∧
    row.nextAttemptAt = text

/-- A step in which nobody claims the message. -/
def Leaves (id : Str) (maxAttempts : Int) (s s' : Chronicle) : Prop :=
  Step Queues Timely maxAttempts s s' ∧ ∀ t, ¬ ClaimedAt id t s s'

variable {id text : Str}

theorem Waits.kept {o : Op} {r : Res o} (h : Waits id text s)
    (hkept : RowsKept o r s.world.db.outbox s'.world.db.outbox)
    (hnot : ∀ row ∈ s.world.db.outbox, row.messageId = id → row.status = .pending →
      ∀ row', ¬ Touched o r row row') :
    Waits id text s' := by
  obtain ⟨row, hrow, hid, hstatus, htext⟩ := h
  rcases hkept with ⟨new, -, he⟩ | ⟨g, he, hg⟩
  · exact ⟨row, by rw [he]; exact List.mem_append_left _ hrow, hid, hstatus, htext⟩
  · obtain ⟨hid', hsame | htouched⟩ := hg row hrow
    · exact ⟨g row, by rw [he]; exact List.mem_map_of_mem hrow, hid'.trans hid,
        hsame.1.trans hstatus, hsame.2.trans htext⟩
    · exact absurd htouched (hnot row hrow hid hstatus _)

/-- A message that waits is in nobody's hands, so only a claim ends its waiting. -/
theorem waits_step (hb : Booked maxAttempts s ts) (ht : Timed s) (h : Waits id text s)
    (hstep : Leaves id maxAttempts s s') : Waits id text s' := by
  obtain ⟨hstep, hleaves⟩ := hstep
  cases hstep with
  | inbound | pass | crash => exact h
  | answer _ n o c hanswers hfair =>
      obtain ⟨before, after, k, htasks, rfl⟩ := (show s.Answers s' n o c from hanswers)
      have hkept := rowsKept_answer o c fun _ => hb.keyed_outbox
      refine h.kept hkept fun row hrow hid hpending row' htouched => ?_
      have hfree : ∀ id, row.messageId = id → ¬ Touches id o := by
        intro id hid htouches
        obtain ⟨held, others, ⟨-, hrule⟩, hdesk⟩ := hb.turn_of htasks
        obtain ⟨e, he, heid⟩ := mem_held_of_touches hrule htouches
        have hsending := hdesk.entryOf_held (List.mem_append_left others he)
        rw [heid, ← hid, hb.entryOf hrow] at hsending
        have hstatus : row.status = .sending :=
          congrArg Entry.status (Option.some.inj hsending)
        rw [hpending] at hstatus
        cases hstatus
      cases o with
      | claimDue now limit =>
          obtain ⟨⟨⟨t, hclock, -⟩, -⟩, -⟩ :=
            ht.tasks ⟨.ask (.claimDue now limit) k, n⟩ (by rw [htasks]; simp)
          cases hr : (Weiterleitung.answer (.claimDue now limit) c s.world).1 with
          | error e => rw [hr] at htouched; exact htouched
          | ok messages =>
              rw [hr] at htouched
              refine hleaves t ⟨n, .claimDue now limit, c, hanswers, hclock, ?_⟩
              rw [hr]
              exact hid ▸ htouched.1
      | write u =>
          cases u with
          | requeueInterrupted now =>
              have hsending : row.status = .sending := htouched.1
              rw [hpending] at hsending
              cases hsending
          | markDelivered | markFailed | markPending => exact hfree _ htouched.1 rfl
          | _ => exact htouched
      | _ => exact htouched
  | requeue c c' =>
      have hkept := rowsKept_answer (.write (.requeueInterrupted c.now.toRfc3339)) c'
        fun _ => hb.keyed_outbox
      refine h.kept hkept fun row _ _ hpending row' htouched => ?_
      have hsending : row.status = .sending := htouched.1
      rw [hpending] at hsending
      cases hsending

/-- The `k`-th refusal is written down with its time. -/
theorem waits_of_refused {k : Nat} {t : Instant} (hb : Booked maxAttempts s ts) (ht : Timed s)
    (h : RefusedAt id k t s s') (hk : k < maxAttempts) :
    Waits id (t.addMinutes (min (2 ^ k) 360)).toRfc3339 s' := by
  obtain ⟨n, o, c, ⟨before, after, next, htasks, rfl⟩, hclock, hrecorded, hcount⟩ := h
  obtain ⟨held, others, ⟨hfrank, hrule⟩, hdesk⟩ := hb.turn_of htasks
  obtain ⟨⟨hontime, -⟩, -⟩ := ht.tasks ⟨.ask o next, n⟩ (by rw [htasks]; simp)
  have hlog : refusals (s.turn before after n o next c).log id = refusals s.log id + 1 := by
    unfold turn refusals
    rw [hrecorded, List.singleton_append, List.count_cons_self]
  -- what the desk says of a message that is held
  have hattempts : ∀ (m : QueuedMessage) (sent : Bool) (rest : Held), held = (m, sent) ::
      rest → m.messageId = id →
      m.attempts + 1 = k := by
    intro m sent rest hheld hid
    have hentry := hdesk.entryOf_held (e := (m, sent)) (by rw [hheld]; simp)
    have haccount := hb.accounts m.messageId
    rw [hentry, accounted_open (fun h0 : Status.sending = .failed => nomatch h0),
      hid] at haccount
    have hm : m.attempts = refusals s.log id := haccount.1
    omega
  cases o with
  | write u =>
      rcases answer_write_cases u c s.world with ⟨db, -, hdb, he⟩ | ⟨-, he⟩
      · rw [he] at hrecorded
        cases u with
        | markDelivered target now =>
            have hpair : (target, n.finding) = (id, .refused) :=
              List.singleton_inj.mp hrecorded
            rw [show n.finding = .accepted from hfrank] at hpair
            cases hpair
        | markFailed target attempts error =>
            have hpair : (target, n.finding) = (id, .refused) :=
              List.singleton_inj.mp hrecorded
            obtain ⟨rfl, hrefused⟩ := Prod.mk.inj hpair
            obtain ⟨m, sent, rest, hheld, hid, -⟩ := hrule
            rcases hfrank with ⟨-, hlimit, m', rest', hheld', hattempt⟩ | ⟨hunread, -⟩
            · rw [hheld] at hheld'
              cases hheld'
              have := hattempts m true rest hheld hid.symm
              omega
            · rw [hrefused] at hunread
              rcases hunread with h0 | h0 <;> cases h0
        | markPending target attempts error at_ =>
            have hpair : (target, n.finding) = (id, .refused) :=
              List.singleton_inj.mp hrecorded
            obtain ⟨rfl, -⟩ := Prod.mk.inj hpair
            obtain ⟨m, rest, hheld, hid, rfl, -⟩ := hrule
            have hk' := hattempts m true rest hheld hid.symm
            obtain ⟨t', ht', rfl⟩ := hontime
            obtain rfl : t = t' := Option.some.inj (hclock.symm.trans ht')
            have hentry := hdesk.entryOf_held (e := (m, true)) (by rw [hheld]; simp)
            obtain ⟨row, hrow, hre⟩ :=
              List.mem_map.mp ((lookup_eq_some hdesk.entries).mp hentry).1
            have hrid : row.messageId = target := (congrArg Entry.messageId hre).trans hid.symm
            cases hdb
            refine ⟨{ row with
              status := .pending, attempts := m.attempts + 1, lastError := some error,
              nextAttemptAt := (t.addMinutes (backoff (m.attempts + 1))).toRfc3339 },
                ?_, hrid, rfl, ?_⟩
            · show _ ∈ ((Weiterleitung.answer _ c s.world).2).db.outbox
              rw [he]
              exact List.mem_map.mpr ⟨row, hrow, if_pos hrid⟩
            · rw [← backoff_natCast, ← hk']
        | _ => cases hrecorded
      · rw [he] at hrecorded
        cases u <;> cases hrecorded
  | _ => cases hrecorded

/-- While nobody claims the message, it waits. -/
theorem waits_run {s₀ : Chronicle} (h₀ : s₀.Initial)
    (hrun : Run Queues Timely maxAttempts s₀ s) (h : Waits id text s)
    (hleaves : Relation.ReflTransGen (Leaves id maxAttempts) s s') :
    Run Queues Timely maxAttempts s₀ s' ∧ Waits id text s' := by
  induction hleaves with
  | refl => exact ⟨hrun, h⟩
  | tail _ hstep ih =>
      obtain ⟨hrun, h⟩ := ih
      obtain ⟨ts, hb⟩ := booked_run h₀ hrun
      exact ⟨hrun.tail hstep.1, waits_step hb (timed_run h₀ hrun) h hstep⟩

/-- A message that was claimed was due, and is `sending`. -/
theorem taken_cases {o : Op} {c : Chance} {w : World}
    (h : id ∈ taken o (Weiterleitung.answer o c w).1) :
    ∃ now limit, o = .claimDue now limit ∧
      (∃ row ∈ w.db.outbox, row.messageId = id ∧ row.nextAttemptAt ≤ now) ∧
      ∃ row ∈ (Weiterleitung.answer o c w).2.db.outbox, row.messageId = id ∧
        row.status = .sending := by
  cases o with
  | claimDue now limit =>
      cases hf : c.fails with
      | true =>
          simp only [Weiterleitung.answer, hf, if_true] at h
          cases h
      | false =>
          simp only [Weiterleitung.answer, hf] at h ⊢
          have hid : id ∈ (w.db.claimDue now limit c.rank).1.map (·.messageId) := h
          obtain ⟨m, hm, rfl⟩ := List.mem_map.mp hid
          obtain ⟨row, hrow, rfl⟩ := List.mem_map.mp hm
          obtain ⟨hmem, -, hdue⟩ := Db.mem_dueRows hrow
          refine ⟨now, limit, rfl, ⟨row, hmem, rfl, hdue⟩, ?_⟩
          have hentry :
              { row.entry with status := .sending } ∈
              (w.db.claimDue now limit c.rank).2.ledger := by
            rw [show (w.db.claimDue now limit c.rank).2.ledger = _ from Db.ledger_claimed _ _]
            exact List.mem_map.mpr ⟨row.entry, List.mem_map_of_mem hmem, if_pos hid⟩
          obtain ⟨row', hrow', he⟩ := List.mem_map.mp hentry
          exact ⟨row', hrow', congrArg Entry.messageId he, congrArg Entry.status he⟩
  | _ => cases h

/-- Who claims a waiting message has read a clock that has come to its time. -/
theorem time_of_claimed {t t' : Instant} (hb : Booked maxAttempts s ts) (ht : Timed s)
    (h : Waits id t.toRfc3339 s) (hyears : t.InYears) (hclaim : ClaimedAt id t' s s') :
    t ≤ t' := by
  obtain ⟨n, o, c, ⟨before, after, next, htasks, -⟩, hclock, htaken⟩ := hclaim
  obtain ⟨now, limit, rfl, ⟨row', hrow', hid', hdue⟩, -⟩ := taken_cases htaken
  obtain ⟨⟨⟨u, hu, rfl⟩, -⟩, hfresh⟩ :=
    ht.tasks ⟨.ask (.claimDue now limit) next, n⟩ (by rw [htasks]; simp)
  obtain rfl : t' = u := Option.some.inj (hclock.symm.trans hu)
  obtain ⟨row, hrow, hid, -, htext⟩ := h
  obtain rfl : row' = row := List.inj_on_of_nodup_map hb.keyed_outbox hrow' hrow
    (hid'.trans hid.symm)
  rw [htext] at hdue
  exact (Instant.toRfc3339_le_iff hyears (hfresh t' hclock).1).mp hdue

end

/-- Text order is the order of time.  So in every run, whatever interleaves, fails or
restarts, a claim takes the earliest messages that are due; and a message refused for the
`k`-th time is not claimed before its backoff is over. -/
theorem claims_follow_time :
    (∀ t u : Instant, t.InYears → u.InYears → (t.toRfc3339 < u.toRfc3339 ↔ t < u)) ∧
    (∀ (maxAttempts : Int) (s₀ s : Chronicle), s₀.Initial →
      Run Queues Timely maxAttempts s₀ s →
      ∃ at_, Scheduled at_ s.world.db ∧ ∀ (limit : Int) (h : Host), h.world = s.world →
        h.chance.now.InYears →
        0 ≤ limit → ClaimsInOrder at_ limit h) ∧
    (∀ (maxAttempts : Int) (s₀ s s₁ s₂ s₃ : Chronicle) (id : Str) (k : Nat) (t t' : Instant),
      s₀.Initial → Run Queues Timely maxAttempts s₀ s →
      Step Queues Timely maxAttempts s s₁ → RefusedAt id k t s s₁ → k < maxAttempts →
      Relation.ReflTransGen (Leaves id maxAttempts) s₁ s₂ →
      Step Queues Timely maxAttempts s₂ s₃ → ClaimedAt id t' s₂ s₃ →
      t.addMinutes (min (2 ^ k) 360) ≤ t') := by
  refine ⟨fun t u ht hu => Instant.toRfc3339_lt_iff ht hu, ?_, ?_⟩
  · intro maxAttempts s₀ s h₀ hrun
    obtain ⟨ts, hb⟩ := booked_run h₀ hrun
    obtain ⟨at_, hat⟩ := (timed_run h₀ hrun).scheduled
    refine ⟨at_, hat, fun limit h hw hnow hlimit => ?_⟩
    rw [← hw] at hat
    exact claims_in_order (by rw [hw]; exact hb.keyed_outbox) hat hnow hlimit
  · intro maxAttempts s₀ s s₁ s₂ s₃ id k t t' h₀ hrun hstep hrefused hk hleaves _ hclaimed
    obtain ⟨ts, hb⟩ := booked_run h₀ hrun
    have ht := timed_run h₀ hrun
    have hwaits := waits_of_refused hb ht hrefused hk
    obtain ⟨hrun₂, hwaits₂⟩ := waits_run h₀ (hrun.tail hstep) hwaits hleaves
    obtain ⟨ts₂, hb₂⟩ := booked_run h₀ hrun₂
    -- the time it waits for is in range, as the clock was
    have hyears : (t.addMinutes (min (2 ^ k) 360)).InYears := by
      obtain ⟨n, o, c, ⟨before, after, next, htasks, -⟩, hclock, -⟩ := hrefused
      rw [← backoff_natCast]
      exact (ht.tasks ⟨.ask o next, n⟩ (by rw [htasks]; simp)).2.backoff hclock k
    exact time_of_claimed hb₂ (timed_run h₀ hrun₂) hwaits₂ hyears hclaimed

/-! ### Refused once, claimed again -/

/-- The newest task asks something, and `P` holds of it. -/
def AtFront (P : Op → Notes → Prop) (s : Chronicle) : Prop :=
  match s.tasks with
  | ⟨.ask o _, n⟩ :: _ => P o n
  | _ => False

instance {P : Op → Notes → Prop} [∀ o n, Decidable (P o n)] (s : Chronicle) :
    Decidable (AtFront P s) :=
  match h : s.tasks with
  | ⟨.ask o _, n⟩ :: _ => decidable_of_iff (P o n) (by unfold AtFront; rw [h])
  | ⟨.ret _, _⟩ :: _ => isFalse (by unfold AtFront; rw [h]; exact id)
  | [] => isFalse (by unfold AtFront; rw [h]; exact id)

theorem answers_front {P : Op → Notes → Prop} {s : Chronicle} (c : Chance) (h : AtFront P s) :
    ∃ n o, s.Answers (s.front c) n o c ∧ P o n := by
  unfold AtFront at h
  split at h
  · next o k n tasks htasks =>
      exact ⟨n, o, ⟨[], tasks, k, htasks, by unfold front; rw [htasks]⟩, h⟩
  · exact h.elim

/-- Two minutes later. -/
def later : Chance := { Chance.calm 7 with now := (Chance.calm 7).now.addMinutes 2 }

instance : ∀ o c s, Decidable (Timely o c s)
  | .now, _, _ => inferInstanceAs (Decidable (_ ∧ _))
  | .uuid, _, _ | .sample _, _, _ | .findAliasByAddress _, _, _ | .findContact _ _, _, _ =>
      isTrue trivial
  | .findContactByReverseAlias _, _, _ | .write _, _, _ | .claimDue _ _, _, _ => isTrue trivial
  | .createDirAll _, _, _ | .writeFile _ _, _, _ | .readFile _, _, _ | .send _ _ _ _, _, _ =>
      isTrue trivial

theorem queues_queueing : Queues queueing :=
  ⟨"mail".toList, mails_bind (mails_enqueue _) fun _ => .ret ()⟩

/-- The one message of `queuedOne` has been refused, and the pass has read the clock. -/
def refusedOnce : Chronicle :=
  (queuedOne 3).fronts [.calm 7, .calm 7, .calm 7, unlucky, .calm 7]

/-- The refusal is recorded, and another pass begins. -/
def passAgain : Chronicle :=
  let s := refusedOnce.front (.calm 7)
  { s with tasks := ⟨passOf 3, .blank⟩ :: s.tasks }

theorem run_refusedOnce :
    ∃ s₀ : Chronicle, s₀.Initial ∧ Run Queues Timely 3 s₀ refusedOnce := by
  have hcalm : Timely .now (.calm 7) startedOne := by decide +kernel
  obtain ⟨s₀, h₀, -, hrun⟩ := run_queuedOne Queues Timely 3 queues_queueing (by decide +kernel)
    fun _ => ⟨hcalm, trivial⟩
  exact ⟨s₀, h₀, hrun.trans (run_fronts _ _ (by decide +kernel))⟩

theorem refusedAt_once : Step Queues Timely 3 refusedOnce (refusedOnce.front (.calm 7)) ∧
    RefusedAt ['7'] 1 (Chance.calm 7).now refusedOnce (refusedOnce.front (.calm 7)) := by
  obtain ⟨n, o, hanswers, hfair, hclock, hrecorded⟩ :=
    answers_front (s := refusedOnce) (.calm 7)
    (P := fun o n => Timely o (.calm 7) refusedOnce ∧ n.clock = some (Chance.calm 7).now ∧
      recorded o (Weiterleitung.answer o (.calm 7) refusedOnce.world).1 n.finding
        = [(['7'], .refused)])
    (by decide +kernel)
  exact ⟨.answer _ _ n o (.calm 7) hanswers hfair, n, o, .calm 7, hanswers, hclock,
    hrecorded, by decide +kernel⟩

/-- Where all messages are pending, none has just been claimed. -/
theorem not_claimedAt {s s' : Chronicle} {id : Str}
    (h : ∀ row ∈ s'.world.db.outbox, row.status = .pending) (t : Instant) :
    ¬ ClaimedAt id t s s' := by
  rintro ⟨n, o, c, ⟨before, after, k, -, rfl⟩, -, htaken⟩
  obtain ⟨-, -, -, -, row, hrow, -, hsending⟩ := taken_cases htaken
  rw [h row hrow] at hsending
  cases hsending

theorem leaves_again : Relation.ReflTransGen (Leaves ['7'] 3) (refusedOnce.front (.calm 7))
    (passAgain.front later) := by
  have hpass : Leaves ['7'] 3 (refusedOnce.front (.calm 7)) passAgain :=
    ⟨.pass _ (by decide +kernel), not_claimedAt (by decide +kernel)⟩
  obtain ⟨n, o, hanswers, hfair⟩ := answers_front (s := passAgain) later
    (P := fun o _ => Timely o later passAgain) (by decide +kernel)
  exact .tail (.single hpass) ⟨.answer _ _ n o later hanswers hfair,
    not_claimedAt (by decide +kernel)⟩

theorem claimedAt_again :
    Step Queues Timely 3 (passAgain.front later) ((passAgain.front later).front later) ∧
    ClaimedAt ['7'] later.now (passAgain.front later)
      ((passAgain.front later).front later) := by
  obtain ⟨n, o, hanswers, hfair, hclock, htaken⟩ :=
    answers_front (s := passAgain.front later) later
    (P := fun o n => Timely o later (passAgain.front later) ∧ n.clock = some later.now ∧
      ['7'] ∈ taken o (Weiterleitung.answer o later (passAgain.front later).world).1)
      (by decide +kernel)
  exact ⟨.answer _ _ n o later hanswers hfair, n, o, later, hanswers, hclock, htaken⟩

/-- The one message of `queuedOne` is refused, and claimed again two minutes later. -/
theorem claims_follow_time_retry :
    ∃ s s₁ s₂ s₃ : Chronicle, RefusedAt ['7'] 1 (Chance.calm 7).now s s₁ ∧
    ClaimedAt ['7'] later.now s₂ s₃ ∧ (Chance.calm 7).now.addMinutes
      (min (2 ^ 1) 360) ≤ later.now ∧
    (∃ at_, Scheduled at_ s.world.db ∧ ClaimsInOrder at_ 10 (Host.calm s.world)) ∧
    ((Chance.calm 7).now.toRfc3339 < later.now.toRfc3339 ↔
      (Chance.calm 7).now < later.now) := by
  obtain ⟨s₀, h₀, hrun⟩ := run_refusedOnce
  obtain ⟨hstep, hrefused⟩ := refusedAt_once
  obtain ⟨hlast, hclaimed⟩ := claimedAt_again
  obtain ⟨htext, horder, hbackoff⟩ := claims_follow_time
  obtain ⟨at_, hat, hclaims⟩ := horder 3 s₀ refusedOnce h₀ hrun
  have hnow : (Host.calm refusedOnce.world).chance.now.InYears := by decide +kernel
  exact ⟨_, _, _, _, hrefused, hclaimed,
    hbackoff 3 s₀ _ _ _ _ ['7'] 1 _ _ h₀ hrun hstep hrefused (by decide) leaves_again hlast
      hclaimed,
    ⟨at_, hat, hclaims 10 _ rfl hnow (by decide)⟩, htext _ _ (by decide +kernel)
      (by decide +kernel)⟩

end Chronicle

end Weiterleitung
