/-
# `Delivery.Chronicle` — the pool, with what its tasks have seen

The outbox keeps a counter and a status of each message, but not the story behind them.
Here every task keeps notes (`Notes`): what came of the last thing it tried for a message,
and when it last looked at the clock.  When a task marks a message, what it noted goes into
the log.  Notes and log decide nothing; forget them and the steps are those
of the pool (`step_toPool`).

    a pass marks a message for what it has seen of it   (`honest_passOf`)
    attempts are the refusals in the log, and `failed`
      has a reason there                                (`booked_step`, `booked_run`)
-/
import Mathlib
import Weiterleitung.Delivery.Pool

namespace Weiterleitung

open Prog

/-! ## Notes -/

/-- What came of the last thing a task tried for a message. -/
inductive Finding where
  | nothing
  /-- There is no spool file. -/
  | missing
  /-- There is a spool file, and reading it failed. -/
  | unreadable
  | accepted
  | refused
  deriving DecidableEq

def Finding.next (b : Finding) : (o : Op) → Res o → World → Finding
  | .readFile _, .ok _, _ => .nothing
  | .readFile path, .error _, w => if (w.spool.read path).isNone then .missing else .unreadable
  | .send _ _ _ _, .ok _, _ => .accepted
  | .send _ _ _ _, .error _, _ => .refused
  | _, _, _ => b

/-- The time that was read last. -/
def readClock (clock : Option Instant) : (o : Op) → Res o → Option Instant
  | .now, t => some t
  | _, _ => clock

/-- How far a task is with queueing a message. -/
inductive Draft where
  | none
  /-- It has an identifier. -/
  | named (messageId : Str)
  /-- And its file is written. -/
  | written (messageId : Str) (raw : Bytes)

def Draft.next : Draft → (o : Op) → Res o → Draft
  | _, .uuid, id => .named id
  | .named id, .writeFile _ raw, .ok _ => .written id raw
  | _, .writeFile _ _, _ => .none
  | _, .write (.insertOutbox _), _ => .none
  | d, _, _ => d

structure Notes where
  clock : Option Instant
  finding : Finding
  draft : Draft

def Notes.blank : Notes := ⟨none, .nothing, .none⟩

/-- The notes after an answer to `o` in the world `w`. -/
def Notes.next (n : Notes) (o : Op) (r : Res o) (w : World) : Notes :=
  ⟨readClock n.clock o r, n.finding.next o r w, n.draft.next o r⟩

/-- What goes into the log: the finding for a message that was marked. -/
def recorded : (o : Op) → Res o → Finding → List (Str × Finding)
  | .write (.markDelivered id _), .ok _, b => [(id, b)]
  | .write (.markFailed id _ _), .ok _, b => [(id, b)]
  | .write (.markPending id _ _ _), .ok _, b => [(id, b)]
  | _, _, _ => []

/-- The identifier that was drawn. -/
def named : (o : Op) → Res o → List Str
  | .uuid, id => [id]
  | _, _ => []

/-- The message that was queued, and the bytes its task had written for it. -/
def filed : (o : Op) → Res o → Draft → List (Str × Bytes)
  | .write (.insertOutbox row), .ok _, .written _ raw => [(row.messageId, raw)]
  | _, _, _ => []

structure Noted where
  task : Task
  notes : Notes

/-! ## The machine -/

/-- The pool, with notes, log, the identifiers that were drawn and
the bytes of the messages. -/
structure Chronicle where
  world : World
  tasks : List Noted
  ready : Bool
  restarts : Nat
  log : List (Str × Finding)
  drawn : List Str
  queued : List (Str × Bytes)

namespace Chronicle

/-- One turn: the answer to `o` in a world of its own chance. -/
def turn (s : Chronicle) (before after : List Noted) (n : Notes) (o : Op)
    (k : Res o → Task) (c : Chance) :
    Chronicle :=
  { s with
    world := (answer o c s.world).2
    tasks := before ++ ⟨k (answer o c s.world).1, n.next o (answer o c s.world).1 s.world⟩ ::
      after
    log := recorded o (answer o c s.world).1 n.finding ++ s.log
    drawn := named o (answer o c s.world).1 ++ s.drawn
    queued := filed o (answer o c s.world).1 n.draft ++ s.queued }

/-- The step is an answer to `o`, asked by a task with these notes. -/
def Answers (s s' : Chronicle) (n : Notes) (o : Op) (c : Chance) : Prop :=
  ∃ before after k, s.tasks = before ++ ⟨.ask o k, n⟩ :: after ∧
    s' = s.turn before after n o k c

/-- The steps of the pool.  `joins` says which tasks come in from outside the worker, and
`fair` what is assumed of chance. -/
inductive Step (joins : Task → Prop) (fair : Op → Chance → Chronicle →
      Prop) (maxAttempts : Int) :
    Chronicle → Chronicle → Prop
  | inbound (s : Chronicle) (p : Task) : Uses Inbound p → joins p →
      Step joins fair maxAttempts s { s with tasks := ⟨p, .blank⟩ :: s.tasks }
  | pass (s : Chronicle) : s.ready = true →
      Step joins fair maxAttempts s { s with tasks := ⟨passOf maxAttempts, .blank⟩ :: s.tasks }
  | answer (s s' : Chronicle) (n : Notes) (o : Op) (c : Chance) :
      s.Answers s' n o c → fair o c s → Step joins fair maxAttempts s s'
  | crash (s : Chronicle) :
      Step joins fair maxAttempts s
        { s with tasks := [], ready := false, restarts := s.restarts + 1 }
  | requeue (s : Chronicle) (c c' : Chance) : s.ready = false → fair .now c s →
      fair (.write (.requeueInterrupted c.now.toRfc3339)) c' s →
      Step joins fair maxAttempts s
        { s with
          world :=
            (Weiterleitung.answer (.write (.requeueInterrupted c.now.toRfc3339)) c' s.world).2
          ready :=
            (Weiterleitung.answer (.write (.requeueInterrupted c.now.toRfc3339))
              c' s.world).1.toBool }

def Run (joins : Task → Prop) (fair : Op → Chance → Chronicle → Prop) (maxAttempts : Int) :
    Chronicle → Chronicle → Prop := Relation.ReflTransGen (Step joins fair maxAttempts)

/-- The pool behind the chronicle. -/
def toPool (s : Chronicle) : Pool := ⟨s.world, s.tasks.map (·.task), s.ready, s.restarts⟩

/-- Nothing has been queued, sent or logged and nothing runs. -/
def Initial (s : Chronicle) :
    Prop := s.toPool.Initial ∧ s.log = [] ∧ s.drawn = [] ∧ s.queued = []

variable {joins : Task → Prop} {fair : Op → Chance → Chronicle → Prop} {maxAttempts : Int}
    {s s' : Chronicle}

/-- A step of the chronicle is one of the pool. -/
theorem step_toPool (h : Step joins fair maxAttempts s s') :
    Pool.Step maxAttempts s.toPool s'.toPool := by
  cases h with
  | inbound p hp => exact .inbound s.toPool p hp
  | pass hr => exact .pass s.toPool hr
  | answer _ n o c hanswers =>
      obtain ⟨before, after, k, htasks, rfl⟩ := hanswers
      have hstep : Pool.Step maxAttempts s.toPool _ := .turn s.toPool (before.map (·.task))
        (after.map (·.task)) (.ask o k) c (by simp [toPool, htasks])
      have hturn : (s.turn before after n o k c).toPool = { s.toPool with
          world := (Pool.turn c (.ask o k) s.world).2
          tasks := before.map (·.task) ++ (Pool.turn c (.ask o k) s.world).1 ::
            after.map (·.task) } := by
        simp [turn, toPool, Pool.turn, advance]
      rw [hturn]
      exact hstep
  | crash => exact .crash s.toPool
  | requeue c c' hr =>
      have hstep : Pool.Step maxAttempts s.toPool _ := .requeue s.toPool
        ⟨s.world, fun n => if n = 0 then c else c', 0⟩ rfl hr
      exact hstep

theorem run_toPool (h : Run joins fair maxAttempts s s') :
    Pool.Run maxAttempts s.toPool s'.toPool := by
  induction h with
  | refl => exact .refl
  | tail _ hstep ih => exact ih.tail (step_toPool hstep)

end Chronicle

/-! ## A pass marks a message for what it has seen of it -/

/-- The marks that the notes call for. -/
def Frank (maxAttempts : Int) (held : Held) (b : Finding) : Op → Prop
  | .write (.markDelivered _ _) => b = .accepted
  | .write (.markPending _ _ _ _) => b = .refused
  | .write (.markFailed _ attempts _) =>
      (b = .refused ∧ maxAttempts ≤ attempts ∧ ∃ m rest, held = (m, true) :: rest ∧
        attempts = m.attempts + 1) ∨
      ((b = .missing ∨ b = .unreadable) ∧ attempts = maxAttempts + 1)
  | _ => True

/-- The program keeps to the protocol, and marks messages as the notes call for. -/
def Honest {α : Type} (maxAttempts : Int) : Held → Notes → Prog Op Res α → Prop
  | _, _, .ret _ => True
  | held, n, .ask o k => Frank maxAttempts held n.finding o ∧
      Rule maxAttempts held o fun r held' => ∀ w, Honest maxAttempts held' (n.next o r w) (k r)

section
variable {α β : Type} {maxAttempts : Int}

theorem frank_of_inbound {held : Held} {b : Finding} {o : Op} (h : Inbound o) :
    Frank maxAttempts held b o := by
  cases o with
  | write u => cases u <;> first | exact h.elim | trivial
  | _ => trivial

theorem honest_of_uses : ∀ {p : Prog Op Res α} {n : Notes}, Uses Inbound p →
    Honest maxAttempts [] n p
  | .ret _, _, _ => trivial
  | .ask _ _, _, h =>
      ⟨frank_of_inbound h.1, rule_inbound h.1 fun r _ => honest_of_uses (h.2 r)⟩

/-- A failed attempt is marked for a refusal, or for a file that was not read. -/
theorem honest_markAttemptFailed {m : QueuedMessage} {sent : Bool} {rest : Held} {n : Notes}
    {attempts : Int} {error : Str} {k : Except Failure Unit → Prog Op Res β}
    (hreason : (n.finding = .refused ∧ sent = true ∧ attempts = m.attempts) ∨
      ((n.finding = .missing ∨ n.finding = .unreadable) ∧ attempts = maxAttempts))
    (hk : ∀ held n r, (held = rest ∨ r = .error .overflow) → Honest maxAttempts held n (k r)) :
    Honest maxAttempts ((m, sent) :: rest) n
      ((markAttemptFailed m.messageId attempts maxAttempts error).run >>= k) := by
  unfold markAttemptFailed
  split
  · exact hk _ _ _ (Or.inr rfl)
  · by_cases hge : attempts + 1 ≥ maxAttempts
    · simp only [if_pos hge]
      refine ⟨?_, m, sent, rest, rfl, rfl, fun r w => hk _ _ _ (Or.inl rfl)⟩
      rcases hreason with ⟨hrefused, rfl, rfl⟩ | ⟨hunread, rfl⟩
      · exact Or.inl ⟨hrefused, hge, m, rest, rfl, rfl⟩
      · exact Or.inr ⟨hunread, rfl⟩
    · rcases hreason with ⟨hrefused, rfl, rfl⟩ | ⟨-, rfl⟩
      · simp only [if_neg hge]
        refine ⟨trivial, trivial,
          fun now w => ⟨hrefused, m, rest, rfl, rfl, rfl, Int.lt_of_not_ge hge, ?_⟩⟩
        exact fun r w => hk _ _ _ (Or.inl rfl)
      · exact absurd (by omega) hge

theorem honest_deliver {m : QueuedMessage} {rest : Held} {n : Notes}
    {k : Except Failure Unit → Prog Op Res β}
    (hk : ∀ held n r, (held = rest ∨ r = .error .overflow) → Honest maxAttempts held n (k r)) :
    Honest maxAttempts ((m, false) :: rest) n ((deliver m maxAttempts).run >>= k) := by
  refine ⟨trivial, trivial, fun raw w => ?_⟩
  cases raw with
  | error e =>
      refine honest_markAttemptFailed (Or.inr ⟨?_, rfl⟩) hk
      show (if (w.spool.read m.rawPath).isNone then Finding.missing else Finding.unreadable) =
        _ ∨
        (if (w.spool.read m.rawPath).isNone then Finding.missing else Finding.unreadable) = _
      split
      · exact Or.inl rfl
      · exact Or.inr rfl
  | ok raw =>
      refine ⟨trivial, m, rest, rfl, rfl, fun sent w' => ?_⟩
      cases sent with
      | ok u =>
          exact ⟨trivial, trivial,
            fun now w => ⟨rfl, m, rest, rfl, rfl, fun r w => hk _ _ _ (Or.inl rfl)⟩⟩
      | error e => exact honest_markAttemptFailed (Or.inl ⟨rfl, rfl, rfl⟩) hk

theorem honest_deliverAll {k : Except Failure Unit → Prog Op Res β}
    (hk : ∀ held n r, Honest maxAttempts held n (k r)) :
    ∀ (messages : List QueuedMessage) (n : Notes),
    Honest maxAttempts (messages.map fun m => (m, false)) n
      ((deliverAll maxAttempts messages).run >>= k)
  | [], n => hk _ n _
  | m :: messages, n => by
      rw [deliverAll, run_lift_bind, bind_assoc]
      refine honest_deliver fun held n r hr => ?_
      rcases hr with rfl | rfl
      · rcases r with (e | -) | -
        · exact honest_deliverAll hk messages n
        · exact hk _ _ _
        · exact honest_deliverAll hk messages n
      · exact hk _ _ _

theorem honest_passOf (n : Notes) : Honest maxAttempts [] n (passOf maxAttempts) := by
  refine ⟨trivial, trivial, fun now w => ⟨trivial, rfl, fun r w => ?_⟩⟩
  cases r with
  | error e => trivial
  | ok messages =>
      show Honest maxAttempts (messages.map fun m => (m, false)) _
        ((deliverAll maxAttempts messages).run >>= ExceptT.bindCont
          (fun _ => (pure messages.length : Fallible Failure Op Res Nat)) >>= fun _ => .ret ())
      rw [bind_assoc]
      refine honest_deliverAll (fun held n r => ?_) messages _
      cases r with
      | ok u => trivial
      | error e => trivial

end

/-! ## The account of a message -/

/-- The refusals of a message that were recorded. -/
def refusals (log : List (Str × Finding)) (id : Str) : Nat := log.count (id, .refused)

/-- Attempts are recorded refusals.  A message that failed was refused as often as it may be,
or its file was not read, and then the counter is one beyond the limit. -/
def Accounted (limit : Int) (log : List (Str × Finding)) (id : Str) : Option Entry → Prop
  | none => refusals log id = 0
  | some e =>
      match e.status with
      | .failed =>
          (e.attempts = refusals log id ∧ e.attempts = max 1 limit) ∨
          (((id, .missing) ∈ log ∨ (id, .unreadable) ∈ log) ∧ e.attempts = limit + 1 ∧
            refusals log id < max 1 limit)
      | _ => e.attempts = refusals log id ∧ e.attempts < max 1 limit

section
variable {limit : Int} {log : List (Str × Finding)} {id : Str} {e : Entry} {w : World}
    {held others : Held}

theorem accounted_open (h : e.status ≠ .failed) :
    Accounted limit log id (some e) ↔ e.attempts = refusals log id ∧
    e.attempts < max 1 limit := by
  obtain ⟨messageId, status, attempts⟩ := e
  cases status with
  | failed => exact absurd rfl h
  | pending | sending | delivered => exact Iff.rfl

theorem accounted_failed (h : e.status = .failed) : Accounted limit log id (some e) ↔
    (e.attempts = refusals log id ∧ e.attempts = max 1 limit) ∨
      (((id, .missing) ∈ log ∨ (id, .unreadable) ∈ log) ∧ e.attempts = limit + 1 ∧
        refusals log id < max 1 limit) := by
  obtain ⟨messageId, status, attempts⟩ := e
  cases h
  exact Iff.rfl

/-- What is logged of another message is no matter. -/
theorem refusals_cons_ne {other : Str} {b : Finding} (h : other ≠ id) :
    refusals ((other, b) :: log) id = refusals log id := by
  unfold refusals
  exact List.count_cons_of_ne fun h0 => h (congrArg Prod.fst h0)

theorem accounted_cons_ne {other : Str} {b : Finding} {entry : Option Entry} (h : other ≠ id)
    (ha : Accounted limit log id entry) : Accounted limit ((other, b) :: log) id entry := by
  have hcount : refusals ((other, b) :: log) id = refusals log id := refusals_cons_ne h
  cases entry with
  | none => exact hcount.trans ha
  | some e =>
      by_cases hs : e.status = .failed
      · rw [accounted_failed hs] at ha ⊢
        rw [hcount]
        rcases ha with ha | ⟨hlog, ha⟩
        · exact Or.inl ha
        · exact Or.inr ⟨hlog.imp (List.mem_cons_of_mem _) (List.mem_cons_of_mem _), ha⟩
      · rw [accounted_open hs] at ha ⊢
        rw [hcount]
        exact ha

/-- A mark with the reason for it. -/
theorem accounted_mark {m : QueuedMessage} {b : Finding} {status : Status}
    {attempts : Int} (hm : m.attempts = refusals log m.messageId ∧ m.attempts < max 1 limit)
    (hcase : (b = .accepted ∧ status = .delivered ∧ attempts = m.attempts) ∨
      (b = .refused ∧ status = .pending ∧ attempts = m.attempts + 1 ∧ attempts < limit) ∨
      (b = .refused ∧ status = .failed ∧ attempts = m.attempts + 1 ∧ limit ≤ attempts) ∨
      ((b = .missing ∨ b = .unreadable) ∧ status = .failed ∧ attempts = limit + 1)) :
    Accounted limit ((m.messageId, b) :: log) m.messageId
      (some ⟨m.messageId, status, attempts⟩) := by
  obtain ⟨hcount, hlt⟩ := hm
  have hrefused : refusals ((m.messageId, .refused) :: log) m.messageId
      = refusals log m.messageId + 1 :=
    List.count_cons_self
  have hother : b ≠ .refused → refusals ((m.messageId, b) :: log) m.messageId
      = refusals log m.messageId :=
    fun hb => List.count_cons_of_ne fun h0 => hb (congrArg Prod.snd h0)
  rcases hcase with ⟨rfl, rfl, rfl⟩ | ⟨rfl, rfl, rfl, hlimit⟩ | ⟨rfl, rfl, rfl,
    hlimit⟩ | ⟨hb, rfl, rfl⟩
  · refine (accounted_open (fun h0 : Status.delivered = .failed => nomatch h0)).mpr ?_
    rw [hother (fun h0 => nomatch h0)]
    exact ⟨hcount, hlt⟩
  · refine (accounted_open (fun h0 : Status.pending = .failed => nomatch h0)).mpr ?_
    rw [hrefused]
    dsimp only
    omega
  · refine Or.inl ?_
    rw [hrefused]
    dsimp only
    omega
  · have hne : b ≠ .refused := by rcases hb with rfl | rfl <;> exact fun h0 => nomatch h0
    refine Or.inr ⟨?_, rfl, ?_⟩
    · rcases hb with rfl | rfl
      · exact Or.inl List.mem_cons_self
      · exact Or.inr List.mem_cons_self
    · rw [hother hne]
      omega

/-! ### One answer -/

theorem recorded_of_inbound {o : Op} (h : Inbound o) (r : Res o) (b : Finding) :
    recorded o r b = [] := by
  cases o with
  | write u => cases u <;> first | exact h.elim | rfl
  | _ => rfl

/-- Outside the worker accounts stay, and new messages start with an empty one. -/
theorem accounted_of_inbound {o : Op} {b : Finding} (ho : Inbound o) (c : Chance)
    (ha : ∀ id, Accounted limit log id (w.db.entryOf id)) (id : Str) :
    Accounted limit (recorded o (answer o c w).1 b ++ log) id
      ((answer o c w).2.db.entryOf id) := by
  rw [recorded_of_inbound ho, List.nil_append]
  obtain ⟨-, hl | ⟨new, hfresh, hl⟩⟩ := ledger_of_inbound ho c w
  · rw [show (answer o c w).2.db.entryOf id = w.db.entryOf id from congrArg
      (lookup Entry.messageId id) hl]
    exact ha id
  · have hentry : (answer o c w).2.db.entryOf id = if new = id then some ⟨new, .pending, 0⟩
        else w.db.entryOf id := by
      unfold Db.entryOf
      rw [hl]
      exact lookup_concat hfresh
    rw [hentry]
    by_cases hid : new = id
    · subst hid
      have hnone := ha new
      rw [show w.db.entryOf new = none from lookup_eq_none.mpr hfresh] at hnone
      have hzero : refusals log new = 0 := hnone
      rw [if_pos rfl, accounted_open (fun h0 : Status.pending = .failed => nomatch h0), hzero]
      exact ⟨rfl, by show (0 : Int) < max 1 limit; omega⟩
    · rw [if_neg hid]
      exact ha id

theorem Db.entryOf_updateRow {db : Db} {target : Str} {f : OutboxRow → OutboxRow}
    {g : Entry → Entry} (hf : ∀ row, (f row).entry = g row.entry)
    (hg : ∀ e, (g e).messageId = e.messageId) :
    (db.updateRow target f).entryOf id
      = (db.entryOf id).map fun e => if e.messageId = target then g e else e := by
  unfold Db.entryOf
  rw [Db.ledger_updateRow hf]
  refine lookup_map fun e => ?_
  split
  · exact hg e
  · rfl

/-- A mark, made or not. -/
theorem accounted_of_mark {u : Write} {m : QueuedMessage} {sent : Bool} {rest : Held}
    {b : Finding} {f : OutboxRow → OutboxRow} {g : Entry → Entry} {status : Status}
    {attempts : Int} (c : Chance)
    (hd : Desk w ((m, sent) :: rest))
    (hu : ∀ db, u.apply db = some (db.updateRow m.messageId f))
    (hf : ∀ row, (f row).entry = g row.entry) (hg : ∀ e, (g e).messageId = e.messageId)
    (hmark : g ⟨m.messageId, .sending, m.attempts⟩ = ⟨m.messageId, status, attempts⟩)
    (hrec : ∀ r, recorded (.write u) (.ok r) b = [(m.messageId, b)]) (hlost : ∀ e,
      recorded (.write u) (.error e) b = [])
    (hcase : (b = .accepted ∧ status = .delivered ∧ attempts = m.attempts) ∨
      (b = .refused ∧ status = .pending ∧ attempts = m.attempts + 1 ∧ attempts < limit) ∨
      (b = .refused ∧ status = .failed ∧ attempts = m.attempts + 1 ∧ limit ≤ attempts) ∨
      ((b = .missing ∨ b = .unreadable) ∧ status = .failed ∧ attempts = limit + 1))
    (ha : ∀ id, Accounted limit log id (w.db.entryOf id)) (id : Str) :
    Accounted limit (recorded (.write u) (answer (.write u) c w).1 b ++ log) id
      ((answer (.write u) c w).2.db.entryOf id) := by
  have hentry : w.db.entryOf m.messageId = some ⟨m.messageId, .sending, m.attempts⟩ :=
    hd.entryOf_held List.mem_cons_self
  rcases answer_write_cases u c w with ⟨db, -, hdb, he⟩ | ⟨-, he⟩
  · rw [hu] at hdb
    cases hdb
    rw [he, hrec, List.singleton_append]
    dsimp only
    rw [Db.entryOf_updateRow hf hg]
    by_cases hid : m.messageId = id
    · subst hid
      rw [hentry, Option.map_some, if_pos rfl, hmark]
      have hm := ha m.messageId
      rw [hentry, accounted_open (fun h0 : Status.sending = .failed => nomatch h0)] at hm
      exact accounted_mark hm hcase
    · have hsame : ((w.db.entryOf id).map fun e => if e.messageId = m.messageId then g e
          else e) = w.db.entryOf id := by
        cases hfound : w.db.entryOf id with
        | none => rfl
        | some e =>
            rw [Option.map_some, if_neg ((lookup_some hfound).2.trans_ne (Ne.symm hid))]
      rw [hsame]
      exact accounted_cons_ne hid (ha id)
  · rw [he, hlost, List.nil_append]
    exact ha id

/-- What a claimed message was, it was waiting. -/
theorem accounted_of_claim (now : Str) (n : Int) (rank : Str → Nat) (hd : Desk w held)
    (ha : ∀ id, Accounted limit log id (w.db.entryOf id)) (id : Str) :
    Accounted limit log id ((w.db.claimDue now n rank).2.entryOf id) := by
  have hclaim := claimable_claimDue now n rank hd.entries
  have hentry : (w.db.claimDue now n rank).2.entryOf id = (w.db.entryOf id).map fun e =>
      if e.messageId ∈ (w.db.claimDue now n rank).1.map (·.messageId)
        then { e with status := .sending } else e := by
    unfold Db.entryOf
    rw [show (w.db.claimDue now n rank).2.ledger = _ from Db.ledger_claimed _ _]
    refine lookup_map fun e => ?_
    split <;> rfl
  rw [hentry]
  have hid := ha id
  cases hfound : w.db.entryOf id with
  | none =>
      rw [hfound] at hid
      exact hid
  | some e =>
      rw [hfound] at hid
      rw [Option.map_some]
      split
      · next hmem =>
          obtain ⟨m, hm, hmid⟩ := List.mem_map.mp hmem
          have hpending : e.status = .pending := by
            have hm' := (lookup_eq_some hd.entries).mpr ⟨hclaim.pending m hm, rfl⟩
            rw [show m.messageId = id from hmid.trans (lookup_some hfound).2] at hm'
            have heq := hfound.symm.trans hm'
            cases heq
            rfl
          rw [accounted_open (by rw [hpending]; exact fun h0 => nomatch h0)] at hid
          exact (accounted_open (fun h0 : Status.sending = .failed => nomatch h0)).mpr hid
      · exact hid

/-- A message that is made to wait again keeps its account. -/
theorem accounted_of_requeue (now : Str) (ha : ∀ id, Accounted limit log id (w.db.entryOf id))
    (id : Str) :
    Accounted limit log id ((w.db.requeueInterrupted now).entryOf id) := by
  have hentry : (w.db.requeueInterrupted now).entryOf id = (w.db.entryOf id).map fun e =>
      if e.status = .sending then { e with status := .pending } else e := by
    unfold Db.entryOf
    rw [Db.ledger_requeueInterrupted]
    refine lookup_map fun e => ?_
    split <;> rfl
  have hid := ha id
  rw [hentry]
  cases hfound : w.db.entryOf id with
  | none =>
      rw [hfound] at hid
      exact hid
  | some e =>
      rw [hfound] at hid
      rw [Option.map_some]
      split
      · next hs =>
          rw [accounted_open (by rw [hs]; exact fun h0 => nomatch h0)] at hid
          exact (accounted_open (fun h0 : Status.pending = .failed => nomatch h0)).mpr hid
      · exact hid

/-- Whatever a task does that keeps to the protocol and is frank, the accounts stay right. -/
theorem accounted_answer {o : Op} {b : Finding} {next : Res o → Held → Prop} (c : Chance)
    (hd : Desk w (held ++ others)) (hfrank : Frank limit held b o)
    (hrule : Rule limit held o next)
    (ha : ∀ id, Accounted limit log id (w.db.entryOf id)) (id : Str) :
    Accounted limit (recorded o (answer o c w).1 b ++ log) id
      ((answer o c w).2.db.entryOf id) := by
  cases o with
  | claimDue now n =>
      cases hf : c.fails with
      | true =>
          simp only [answer, hf, if_true]
          exact ha id
      | false =>
          simp only [answer, hf]
          exact accounted_of_claim now n c.rank hd ha id
  | send => exact ha id
  | write u =>
      cases u with
      | markDelivered target now =>
          obtain ⟨m, rest, rfl, rfl, -⟩ := hrule
          exact accounted_of_mark (g := fun e => { e with status := .delivered }) c hd
            (fun _ => rfl) (fun _ => rfl) (fun _ => rfl) rfl (fun _ => rfl) (fun _ => rfl)
            (Or.inl ⟨hfrank, rfl, rfl⟩) ha id
      | markFailed target attempts error =>
          obtain ⟨m, sent, rest, rfl, rfl, -⟩ := hrule
          refine accounted_of_mark
            (g := fun e => { e with status := .failed, attempts := attempts }) c hd
            (fun _ => rfl) (fun _ => rfl) (fun _ => rfl) rfl
            (fun _ => rfl) (fun _ => rfl) ?_ ha id
          rcases hfrank with ⟨hb, hlimit, m', rest', heq, hattempts⟩ | ⟨hb, hattempts⟩
          · cases heq
            exact Or.inr (Or.inr (Or.inl ⟨hb, rfl, hattempts, hlimit⟩))
          · exact Or.inr (Or.inr (Or.inr ⟨hb, rfl, hattempts⟩))
      | markPending target attempts error at_ =>
          obtain ⟨m, rest, rfl, rfl, rfl, hlt, -⟩ := hrule
          exact accounted_of_mark
            (g := fun e => { e with status := .pending, attempts := m.attempts + 1 }) c hd
            (fun _ => rfl) (fun _ => rfl) (fun _ => rfl) rfl (fun _ => rfl) (fun _ => rfl)
            (Or.inr (Or.inl ⟨hfrank, rfl, rfl, hlt⟩)) ha id
      | _ => exact accounted_of_inbound hrule.1 c ha id
  | _ => exact accounted_of_inbound hrule.1 c ha id

end

/-! ## The invariant -/

/-- The tasks are honest with what they hold, the desk is in order, nothing is held before the
restart is complete, and every message is accounted for. -/
structure Booked (maxAttempts : Int) (s : Chronicle) (ts : List (Noted × Held)) : Prop where
  tasks : s.tasks = ts.map (·.1)
  staffed : Staffed (fun n held => Honest maxAttempts held n.notes n.task) s.world ts
  waiting : s.ready = false → ∀ t ∈ ts, t.2 = [] ∧ Uses Inbound t.1.task
  accounts : ∀ id, Accounted maxAttempts s.log id (s.world.db.entryOf id)

section
variable {maxAttempts : Int} {s : Chronicle} {ts : List (Noted × Held)} {row : OutboxRow}

/-- A row is the entry of its message. -/
theorem Booked.entryOf (hb : Booked maxAttempts s ts) (hrow : row ∈ s.world.db.outbox) :
    s.world.db.entryOf row.messageId = some row.entry :=
  (lookup_eq_some hb.staffed.desk.entries).mpr ⟨List.mem_map_of_mem hrow, rfl⟩

theorem Booked.account (hb : Booked maxAttempts s ts) (hrow : row ∈ s.world.db.outbox) :
    Accounted maxAttempts s.log row.messageId (some row.entry) := by
  rw [← hb.entryOf hrow]
  exact hb.accounts row.messageId

/-- Whose turn it is. -/
theorem Booked.turn_of {before after : List Noted} {x : Noted} (hb : Booked maxAttempts s ts)
    (htasks : s.tasks = before ++ x :: after) :
    ∃ held others, Honest maxAttempts held x.notes x.task ∧
      Desk s.world (held ++ others) := by
  obtain ⟨tb, tr, rfl, -, htr⟩ := List.map_eq_append_iff.mp (hb.tasks.symm.trans htasks)
  obtain ⟨⟨x', held⟩, ta, rfl, rfl, -⟩ := List.map_eq_cons_iff.mp htr
  exact ⟨held, _, hb.staffed.each (x', held) (by simp), hb.staffed.desk_of⟩

end

namespace Chronicle

section
variable {joins : Task → Prop} {fair : Op → Chance → Chronicle → Prop} {maxAttempts : Int}
    {s s' : Chronicle}
variable {ts : List (Noted × Held)}

theorem booked_initial (h : s.Initial) : Booked maxAttempts s [] := by
  obtain ⟨⟨houtbox, -, htasks, -⟩, hlog, -⟩ := h
  have hledger : s.world.db.ledger = [] := by
    rw [Db.ledger, show s.world.db.outbox = [] from houtbox]
    rfl
  refine ⟨List.map_eq_nil_iff.mp htasks,
    ⟨fun _ ht => absurd ht List.not_mem_nil, ?_, List.nodup_nil,
    fun _ he => absurd he List.not_mem_nil⟩, fun _ _ ht => absurd ht List.not_mem_nil,
    fun id => ?_⟩
  · rw [hledger]
    exact List.nodup_nil
  · have habsent : s.world.db.entryOf id = none := by rw [Db.entryOf, hledger]; rfl
    rw [habsent, hlog]
    rfl

/-- An answer within the rules, while others hold something. -/
theorem honest_answer {o : Op} {k : Res o → Task} {n : Notes} {held others : Held} {w : World}
    (c : Chance) (hd : Desk w (held ++ others)) (hh : Honest maxAttempts held n (.ask o k)) :
    ∃ held', Honest maxAttempts held' (n.next o (answer o c w).1 w) (k (answer o c w).1) ∧
      Moves maxAttempts true w (held ++ others) (answer o c w).2 (held' ++ others) := by
  obtain ⟨held', hnext, hmoves⟩ := hd.answer c hh.2 fun _ => rfl
  exact ⟨held', hnext w, hmoves⟩

variable (maxAttempts) in
/-- Outside the worker nobody takes hold of anything. -/
theorem honest_inbound {o : Op} {k : Res o → Task} {n : Notes} {others : Held} {w : World}
    (c : Chance) (hd : Desk w others) (hu : Uses Inbound (.ask o k)) :
    Honest maxAttempts [] (n.next o (answer o c w).1 w) (k (answer o c w).1) ∧
      Moves maxAttempts true w ([] ++ others) (answer o c w).2 ([] ++ others) :=
  ⟨honest_of_uses (hu.2 _), moves_of_inbound hu.1 c hd⟩

theorem booked_step (hb : Booked maxAttempts s ts) (h : Step joins fair maxAttempts s s') :
    ∃ ts', Booked maxAttempts s' ts' := by
  cases h with
  | inbound p hp =>
      refine ⟨(⟨p, .blank⟩, []) :: ts, ?_, hb.staffed.join (honest_of_uses hp),
        fun hr t ht => ?_, hb.accounts⟩
      · rw [List.map_cons, hb.tasks]
      · rcases List.mem_cons.mp ht with rfl | ht
        · exact ⟨rfl, hp⟩
        · exact hb.waiting hr t ht
  | pass hr =>
      refine ⟨(⟨passOf maxAttempts, .blank⟩, []) :: ts, ?_, hb.staffed.join (honest_passOf _),
        fun h0 => ?_, hb.accounts⟩
      · rw [List.map_cons, hb.tasks]
      · rw [show s.ready = false from h0] at hr
        cases hr
  | answer _ n o c hanswers hfair =>
      obtain ⟨before, after, k, htasks, rfl⟩ := hanswers
      obtain ⟨tb, tr, rfl, rfl, htr⟩ := List.map_eq_append_iff.mp (hb.tasks.symm.trans htasks)
      obtain ⟨⟨n', held⟩, ta, rfl, hn, rfl⟩ := List.map_eq_cons_iff.mp htr
      cases hn
      have hhonest : Honest maxAttempts held n (.ask o k) :=
        hb.staffed.each (⟨.ask o k, n⟩, held) (by simp)
      have hdesk := hb.staffed.desk_of
      obtain ⟨held', hh', hmoves, hwait⟩ : ∃ held',
          Honest maxAttempts held' (n.next o (answer o c s.world).1 s.world)
            (k (answer o c s.world).1) ∧
          Moves maxAttempts true s.world (held ++ (tb.flatMap (·.2) ++ ta.flatMap (·.2)))
            (answer o c s.world).2 (held' ++ (tb.flatMap (·.2) ++ ta.flatMap (·.2))) ∧
          (s.ready = false → held' = [] ∧ Uses Inbound (k (answer o c s.world).1)) := by
        cases hr : s.ready with
        | true =>
            obtain ⟨held', hh', hmoves⟩ := honest_answer c hdesk hhonest
            exact ⟨held', hh', hmoves, fun h0 => nomatch h0⟩
        | false =>
            obtain ⟨hnil, hu⟩ := hb.waiting hr (⟨.ask o k, n⟩, held) (by simp)
            have hnil' : held = [] := hnil
            subst hnil'
            obtain ⟨hh', hmoves⟩ := honest_inbound maxAttempts (n := n) c hdesk hu
            exact ⟨[], hh', hmoves, fun _ => ⟨rfl, hu.2 _⟩⟩
      have hstaffed : Staffed _ _ (tb ++
          ((⟨k (answer o c s.world).1, n.next o (answer o c s.world).1 s.world⟩ : Noted),
            held') :: ta) :=
        (hb.staffed.turn hh' hmoves).1
      refine ⟨_, by simp [turn], hstaffed, fun hr t ht => ?_,
        fun id => accounted_answer c hdesk hhonest.1 hhonest.2 hb.accounts id⟩
      rcases List.mem_append.mp ht with ht | ht
      · exact hb.waiting hr t (List.mem_append_left _ ht)
      · rcases List.mem_cons.mp ht with rfl | ht
        · exact hwait hr
        · exact hb.waiting hr t (List.mem_append_right _ (List.mem_cons_of_mem _ ht))
  | crash =>
      exact ⟨[], rfl, ⟨fun _ ht => (nomatch ht), hb.staffed.desk.crash⟩,
        fun _ _ ht => (nomatch ht), hb.accounts⟩
  | requeue c c' hr =>
      have hnil : ts.flatMap (·.2) = [] := List.flatMap_eq_nil_iff.mpr
        fun t ht => (hb.waiting hr t ht).1
      have hdesk := hb.staffed.desk
      rw [hnil] at hdesk
      refine ⟨ts, ?_⟩
      rcases answer_write_cases (.requeueInterrupted c.now.toRfc3339) c' s.world
        with ⟨db, -, hdb, he⟩ | ⟨-, he⟩
      · cases hdb
        rw [he]
        refine ⟨hb.tasks, ⟨hb.staffed.each, ?_⟩, fun h0 => (nomatch h0),
          accounted_of_requeue _ hb.accounts⟩
        rw [hnil]
        exact (hdesk.requeue _).1
      · rw [he]
        exact ⟨hb.tasks, hb.staffed, fun _ => hb.waiting hr, hb.accounts⟩

/-- In every run every message is accounted for. -/
theorem booked_run (h₀ : s.Initial) (hrun : Run joins fair maxAttempts s s') :
    ∃ ts, Booked maxAttempts s' ts := by
  induction hrun with
  | refl => exact ⟨[], booked_initial h₀⟩
  | tail _ hstep ih =>
      obtain ⟨ts, hb⟩ := ih
      exact booked_step hb hstep

end

/-! ## Runs of the newest task -/

/-- The newest task takes a turn. -/
def front (c : Chance) (s : Chronicle) : Chronicle :=
  match s.tasks with
  | ⟨.ask o k, n⟩ :: tasks => s.turn [] tasks n o k c
  | _ => s

/-- Is chance fair in that turn? -/
def FairFront (fair : Op → Chance → Chronicle → Prop) (c : Chance) (s : Chronicle) : Prop :=
  match s.tasks with
  | ⟨.ask o _, _⟩ :: _ => fair o c s
  | _ => True

/-- Turns of the newest task, and chance in each of them. -/
def fronts (cs : List Chance) (s : Chronicle) : Chronicle := cs.foldl (fun s c => s.front c) s

def FairFronts (fair : Op → Chance → Chronicle → Prop) : List Chance → Chronicle → Prop
  | [], _ => True
  | c :: cs, s => FairFront fair c s ∧ FairFronts fair cs (s.front c)

section
variable {joins : Task → Prop} {fair : Op → Chance → Chronicle → Prop} {maxAttempts : Int}

theorem run_front (c : Chance) (s : Chronicle) (hfair : FairFront fair c s) :
    Run joins fair maxAttempts s (s.front c) := by
  unfold FairFront at hfair
  unfold front
  split
  · next o k n tasks htasks =>
      rw [htasks] at hfair
      exact .single (.answer s _ n o c ⟨[], tasks, k, htasks, rfl⟩ hfair)
  · exact .refl

theorem run_fronts : ∀ (cs : List Chance) (s : Chronicle), FairFronts fair cs s →
    Run joins fair maxAttempts s (s.fronts cs)
  | [], _, _ => .refl
  | c :: cs, s, hfair => (run_front c s hfair.1).trans (run_fronts cs (s.front c) hfair.2)

instance [∀ o c s, Decidable (fair o c s)] (c : Chance) (s : Chronicle) :
    Decidable (FairFront fair c s) :=
  match h : s.tasks with
  | ⟨.ask o _, _⟩ :: _ => decidable_of_iff (fair o c s) (by unfold FairFront; rw [h])
  | ⟨.ret _, _⟩ :: _ => isTrue (by unfold FairFront; rw [h]; trivial)
  | [] => isTrue (by unfold FairFront; rw [h]; trivial)

instance FairFronts.decidable [∀ o c s, Decidable (fair o c s)] :
    ∀ (cs : List Chance) (s : Chronicle), Decidable (FairFronts fair cs s)
  | [], _ => isTrue trivial
  | c :: cs, s =>
      haveI := decidable cs (s.front c)
      inferInstanceAs (Decidable (_ ∧ _))

end

/-- A message to `me@b.example` is being queued. -/
def queueing : Task :=
  (enqueue "mail".toList
    { direction := .forward, envelopeFrom := "r@a.example".toList,
      envelopeTo := "me@b.example".toList,
      raw := [], aliasId := none, contactId := none, subject := none }).run >>=
        fun _ => .ret ()

theorem uses_queueing : Uses Inbound queueing := uses_bind (uses_enqueue _ _) fun _ => trivial

/-- Chance where everything fails that can. -/
def unlucky : Chance := { Chance.calm 7 with fails := true }

/-- The machine that starts with empty tables and queues the message. -/
def startedOne : Chronicle := ⟨⟨Db.empty, [], []⟩, [⟨queueing, .blank⟩], false, 0, [], [], []⟩

/-- The machine that has queued one message and begins a pass. -/
def queuedOne (maxAttempts : Int) : Chronicle :=
  let s : Chronicle := fronts (List.replicate 5 (Chance.calm 7)) startedOne
  { s with
    world := (Weiterleitung.answer (.write (.requeueInterrupted (Chance.calm 7).now.toRfc3339))
      (Chance.calm 7) s.world).2
    ready := true
    tasks := ⟨passOf maxAttempts, .blank⟩ :: s.tasks }

theorem run_queuedOne (joins : Task → Prop) (fair : Op → Chance → Chronicle → Prop)
    (maxAttempts : Int) (hjoins : joins queueing)
    (hfair : FairFronts fair (List.replicate 5 (Chance.calm 7)) startedOne)
    (hrequeue : ∀ s, fair .now (Chance.calm 7) s ∧
      fair (.write (.requeueInterrupted (Chance.calm 7).now.toRfc3339)) (Chance.calm 7) s) :
    ∃ s₀ : Chronicle, s₀.Initial ∧ s₀.world.spool = [] ∧ Run joins fair maxAttempts s₀
      (queuedOne maxAttempts) := by
  let s₀ : Chronicle := { startedOne with tasks := [] }
  refine ⟨s₀, ⟨⟨rfl, rfl, rfl, rfl, rfl⟩, rfl, rfl, rfl⟩, rfl, ?_⟩
  have hjoin : Run joins fair maxAttempts s₀ startedOne :=
    .single (.inbound s₀ queueing uses_queueing hjoins)
  have hqueue := hjoin.trans (run_fronts _ _ hfair)
  exact (hqueue.tail (.requeue _ (Chance.calm 7) (Chance.calm 7) rfl (hrequeue _).1
    (hrequeue _).2)).tail (.pass _ rfl)

end Chronicle

end Weiterleitung
