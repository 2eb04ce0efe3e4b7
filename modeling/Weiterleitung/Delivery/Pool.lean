/-
# `Delivery.Pool` — many passes over one outbox, with crashes

Passes of the worker take turns with each other and with everything else the process runs
(`Inbound`: the SMTP server and the administration).  One turn is one operation of one
task, and whether it fails is open.  A crash takes all tasks away, wherever they stand;
`requeue_interrupted` succeeds before new passes start.

    enqueueing is inbound, and so is handling mail          (`uses_enqueue`, `inbound_handle`)
    a step keeps every task to its protocol and every
      job accounted for                                     (`Safe.step`, `Safe.run`)
    in every run: rows stay, settled rows stay settled and
      are not claimed again, no two tasks hold a message,
      sends are bounded                                     (`outbox_run_safe`)
-/
import Mathlib
import Weiterleitung.Delivery.Ledger

namespace Weiterleitung

open Prog

/-! ## The pool -/

/-- The world and the tasks that run in it; `ready`: `requeue_interrupted` has succeeded
since the last restart. -/
structure Pool where
  world : World
  tasks : List Task
  ready : Bool
  restarts : Nat

namespace Pool

/-- One turn of one task. -/
def turn (c : Chance) (p : Task) (w : World) : Task × World :=
  advance (fun o w => answer o c w) p w

inductive Step (maxAttempts : Int) : Pool → Pool → Prop
  | inbound (s : Pool) (p : Task) : Uses Inbound p →
      Step maxAttempts s { s with tasks := p :: s.tasks }
  | pass (s : Pool) : s.ready = true →
      Step maxAttempts s { s with tasks := passOf maxAttempts :: s.tasks }
  | turn (s : Pool) (before after : List Task) (p : Task) (c : Chance) :
      s.tasks = before ++ p :: after →
      Step maxAttempts s
        { s with world := (Pool.turn c p s.world).2, tasks := before ++
          (Pool.turn c p s.world).1 :: after }
  | crash (s : Pool) :
      Step maxAttempts s { s with tasks := [], ready := false, restarts := s.restarts + 1 }
  | requeue (s : Pool) (h : Host) : h.world = s.world → s.ready = false →
      Step maxAttempts s
        { s with
          world := (exec perform requeueInterrupted h).2.world
          ready := (exec perform requeueInterrupted h).1.toBool }

/-- Nothing has been queued or sent and nothing runs. -/
def Initial (s : Pool) : Prop :=
  s.world.db.outbox = [] ∧ s.world.relayed = [] ∧ s.tasks = [] ∧
    s.ready = false ∧ s.restarts = 0

/-- A run: any steps in any order. -/
def Run (maxAttempts : Int) : Pool → Pool → Prop := Relation.ReflTransGen (Step maxAttempts)

end Pool

/-- Enqueueing is inbound. -/
theorem uses_enqueue (mailDir : Str) (message : NewOutboundMessage) :
    Uses Inbound (enqueue mailDir message).run :=
  uses_mono (inbound_of_routing ⟨[], []⟩) (routing_enqueue mailDir message)

/-! ## The invariant -/

/-- Each of the tasks is in order with what it holds, and so is the desk. -/
structure Staffed {τ : Type} (F : τ → Held → Prop) (w : World) (ts : List (τ × Held)) :
    Prop where
  each : ∀ t ∈ ts, F t.1 t.2
  desk : Desk w (ts.flatMap (·.2))

section
variable {τ : Type} {F : τ → Held → Prop} {w w' : World} {tb ta : List (τ × Held)}
    {x x' : τ} {held held' : Held}
variable {limit : Int} {ready : Bool}

/-- What one task holds, and what the others hold. -/
theorem held_perm (t : τ × Held) : ((tb ++ t :: ta).flatMap (·.2)).Perm
    (t.2 ++ (tb.flatMap (·.2) ++ ta.flatMap (·.2))) := by
  rw [List.flatMap_append, List.flatMap_cons]
  exact List.perm_append_comm_assoc _ _ _

theorem Staffed.desk_of (h : Staffed F w (tb ++ (x, held) :: ta)) :
    Desk w (held ++ (tb.flatMap (·.2) ++ ta.flatMap (·.2))) :=
  h.desk.perm (held_perm (x, held))

/-- A turn of one task, that moves every job by a step. -/
theorem Staffed.turn (h : Staffed F w (tb ++ (x, held) :: ta)) (hx : F x' held')
    (hm : Moves limit ready w (held ++ (tb.flatMap (·.2) ++ ta.flatMap (·.2))) w'
      (held' ++ (tb.flatMap (·.2) ++ ta.flatMap (·.2)))) :
    Staffed F w' (tb ++ (x', held') :: ta) ∧
      ∀ id, Job.Step limit ready (w.job ((tb ++ (x, held) :: ta).flatMap (·.2)) id)
        (w'.job ((tb ++ (x', held') :: ta).flatMap (·.2)) id) := by
  have hback : (held' ++ (tb.flatMap (·.2) ++ ta.flatMap (·.2))).Perm
      ((tb ++ (x', held') :: ta).flatMap (·.2)) :=
    (held_perm (x', held')).symm
  refine ⟨⟨fun u hu => ?_, hm.1.perm hback⟩, fun id => ?_⟩
  · rcases List.mem_append.mp hu with hu | hu
    · exact h.each u (List.mem_append_left _ hu)
    · rcases List.mem_cons.mp hu with rfl | hu
      · exact hx
      · exact h.each u (List.mem_append_right _ (List.mem_cons_of_mem _ hu))
  · rw [← h.desk.job_perm (held_perm (x, held)), hm.1.job_perm hback]
    exact hm.2 id

/-- A task that holds nothing joins. -/
theorem Staffed.join {ts : List (τ × Held)} (h : Staffed F w ts) (hx : F x []) :
    Staffed F w ((x, []) :: ts) := by
  refine ⟨fun t ht => ?_, h.desk⟩
  rcases List.mem_cons.mp ht with rfl | ht
  · exact hx
  · exact h.each t ht

end

/-- Every task keeps to the protocol with what it holds, the desk is in order, every job
is accounted for, and no pass runs before the restart is complete. -/
def Safe (maxAttempts : Int) (s : Pool) : Prop :=
  ∃ ts : List (Task × Held), s.tasks = ts.map (·.1) ∧
    (∀ t ∈ ts, Follows maxAttempts t.2 t.1) ∧
    Desk s.world (ts.flatMap (·.2)) ∧
    (∀ id, (s.world.job (ts.flatMap (·.2)) id).Ok maxAttempts s.restarts s.ready) ∧
    (s.ready = false → ∀ p ∈ s.tasks, Uses Inbound p)

section
variable {maxAttempts : Int} {s s' : Pool}

theorem safe_initial (h : s.Initial) : Safe maxAttempts s := by
  obtain ⟨houtbox, hrelayed, htasks, hready, hrestarts⟩ := h
  have hledger : s.world.db.ledger = [] := by rw [Db.ledger, houtbox]; rfl
  refine ⟨[], htasks, fun _ ht => (nomatch ht), ⟨?_, List.nodup_nil, fun _ he => (nomatch he)⟩,
    ?_, ?_⟩
  · rw [hledger]
    exact List.nodup_nil
  · intro id
    have habsent : s.world.db.entryOf id = none := by rw [Db.entryOf, hledger]; rfl
    rw [job_of_absent habsent, hrelayed]
    exact ⟨rfl, rfl⟩
  · intro _ p hp
    rw [htasks] at hp
    cases hp

/-- One turn: the task goes on within its protocol. -/
theorem turn_follows {p : Task} {held others : Held} {w : World} {ready : Bool} (c : Chance)
    (hf : Follows maxAttempts held p) (hd : Desk w (held ++ others))
    (hready : ready = false → Uses Inbound p) :
    ∃ held', Follows maxAttempts held' (Pool.turn c p w).1 ∧
      Moves maxAttempts ready w (held ++ others) (Pool.turn c p w).2 (held' ++ others) := by
  cases p with
  | ret a => exact ⟨held, hf, moves_of_ledger_eq hd rfl rfl⟩
  | ask o k =>
      refine hd.answer c hf fun hclaims => ?_
      cases ready with
      | true => rfl
      | false =>
          -- nothing but inbound tasks runs yet
          have ho : Inbound o := (hready rfl).1
          cases o with
          | claimDue => exact ho.elim
          | _ => exact hclaims.elim

/-- Before the restart is complete nothing is held. -/
theorem held_nil {w : World} {held : Held} {restarts : Nat} (hd : Desk w held)
    (hok : ∀ id, (w.job held id).Ok maxAttempts restarts false) : held = [] := by
  refine List.eq_nil_iff_forall_not_mem.mpr fun e he => ?_
  have hjob := hok e.1.messageId
  rw [job_of_entry (hd.entryOf_held he)] at hjob
  have hnone : heldAs held e.1.messageId = none := hjob.2.2.2 rfl
  exact heldAs_eq_none.mp hnone e he rfl

/-- What a restart does before new passes start. -/
theorem exec_requeueInterrupted_cases (h : Host) :
    (∃ now, (exec perform requeueInterrupted h).1.toBool = true ∧
      (exec perform requeueInterrupted h).2.world
        = { h.world with db := h.world.db.requeueInterrupted now }) ∨
    ((exec perform requeueInterrupted h).1.toBool = false ∧
      (exec perform requeueInterrupted h).2.world = h.world) := by
  unfold requeueInterrupted
  rw [exec_bind_of_ok perform (exec_utcNow h)]
  rcases exec_write_cases h.skip (.requeueInterrupted h.chance.now.toRfc3339) with
    ⟨db, -, hdb, he⟩ | ⟨-, he⟩
  · rw [he]
    cases hdb
    exact Or.inl ⟨_, rfl, rfl⟩
  · rw [he]
    exact Or.inr ⟨rfl, rfl⟩

theorem Safe.step (hs : Safe maxAttempts s) (h : Pool.Step maxAttempts s s') :
    Safe maxAttempts s' ∧ ∀ id, (s.world.job [] id).phase.Keeps
      (s'.world.job [] id).phase := by
  obtain ⟨ts, htasks, hfollows, hdesk, hok, hready⟩ := hs
  cases h with
  | inbound p hp =>
      refine ⟨⟨(p, []) :: ts, ?_, ?_, hdesk, hok, ?_⟩, fun id => .refl _⟩
      · rw [List.map_cons, htasks]
      · intro t ht
        rcases List.mem_cons.mp ht with rfl | ht
        · exact follows_of_uses hp
        · exact hfollows t ht
      · intro hr q hq
        rcases List.mem_cons.mp hq with rfl | hq
        · exact hp
        · exact hready hr q hq
  | pass hr =>
      refine ⟨⟨(passOf maxAttempts, []) :: ts, ?_, ?_, hdesk, hok, ?_⟩, fun id => .refl _⟩
      · rw [List.map_cons, htasks]
      · intro t ht
        rcases List.mem_cons.mp ht with rfl | ht
        · exact follows_passOf
        · exact hfollows t ht
      · intro h0
        rw [hr] at h0
        cases h0
  | turn before after p c hsplit =>
      obtain ⟨tb, tr, rfl, rfl, htr⟩ := List.map_eq_append_iff.mp (htasks.symm.trans hsplit)
      obtain ⟨⟨p', held⟩, ta, rfl, rfl, rfl⟩ := List.map_eq_cons_iff.mp htr
      have hstaffed : Staffed (fun p held => Follows maxAttempts held p) s.world
          (tb ++ (p', held) :: ta) :=
        ⟨hfollows, hdesk⟩
      have ht : p' ∈ s.tasks := by rw [hsplit]; simp
      obtain ⟨held', hf, hmoves⟩ := turn_follows c (hfollows (p', held) (by simp))
        hstaffed.desk_of (fun hr => hready hr p' ht)
      obtain ⟨hstaffed', hjobs⟩ := hstaffed.turn hf hmoves
      refine ⟨⟨tb ++ ((Pool.turn c p' s.world).1, held') :: ta, by simp, hstaffed'.each,
        hstaffed'.desk, fun id => Job.ok_step (hjobs id) (hok id), ?_⟩, fun id => ?_⟩
      · intro hr r hmem
        rcases List.mem_append.mp hmem with hmem | hmem
        · exact hready hr r (by rw [hsplit]; exact List.mem_append_left _ hmem)
        · rcases List.mem_cons.mp hmem with rfl | hmem
          · exact uses_advance _ (hready hr p' ht) _
          · exact hready hr r
              (by rw [hsplit]; exact List.mem_append_right _ (List.mem_cons_of_mem _ hmem))
      · have hkeeps := Job.keeps_step (hjobs id)
        rwa [job_phase _ [],
          job_phase ((tb ++ ((Pool.turn c p' s.world).1, held') :: ta).flatMap (·.2)) []]
          at hkeeps
  | crash =>
      refine ⟨⟨[], rfl, fun _ ht => (nomatch ht), hdesk.crash, fun id => ?_,
        fun _ _ hp => (nomatch hp)⟩, fun id => .refl _⟩
      rw [List.flatMap_nil, job_crash (ts.flatMap (·.2))]
      exact Job.ok_crash (hok id)
  | requeue h hw hr =>
      rw [hr] at hok
      have hnil := held_nil hdesk hok
      rw [hnil] at hdesk hok
      rcases exec_requeueInterrupted_cases h with ⟨now, hb, hworld⟩ | ⟨hb, hworld⟩
      · obtain ⟨hdesk', hjob⟩ := hdesk.requeue now
        rw [hb, hworld, hw]
        refine ⟨⟨ts, htasks, hfollows, by rw [hnil]; exact hdesk', fun id => ?_,
          fun h0 => nomatch h0⟩, fun id => ?_⟩
        · rw [hnil, hjob]
          exact Job.ok_requeue (hok id)
        · rw [hjob]
          exact Job.keeps_requeue
      · rw [hb, hworld, hw]
        refine ⟨⟨ts, htasks, hfollows, by rw [hnil]; exact hdesk, fun id => ?_,
          fun _ => hready hr⟩, fun id => .refl _⟩
        rw [hnil]
        exact hok id

theorem Safe.run (hs : Safe maxAttempts s) (h : Pool.Run maxAttempts s s') :
    Safe maxAttempts s' ∧ ∀ id, (s.world.job [] id).phase.Keeps
      (s'.world.job [] id).phase := by
  induction h with
  | refl => exact ⟨hs, fun id => .refl _⟩
  | tail _ hstep ih =>
      obtain ⟨hsafe, hkeeps⟩ := ih.1.step hstep
      exact ⟨hsafe, fun id => (ih.2 id).trans (hkeeps id)⟩

/-! ## What the invariant says -/

/-- The ledger has one entry for each message. -/
theorem Safe.entries (hs : Safe maxAttempts s) : Keyed Entry.messageId s.world.db.ledger := by
  obtain ⟨ts, -, -, hdesk, -⟩ := hs
  exact hdesk.entries

/-- A row is the job of its message. -/
theorem phase_of_row (hs : Safe maxAttempts s) {row : OutboxRow}
    (hrow : row ∈ s.world.db.outbox) :
    (s.world.job [] row.messageId).phase = row.status.phase := by
  have hentry : s.world.db.entryOf row.messageId = some row.entry :=
    (lookup_eq_some hs.entries).mpr ⟨List.mem_map_of_mem hrow, rfl⟩
  rw [job_of_entry hentry]
  rfl

theorem row_of_phase {id : Str} (h : (s.world.job [] id).phase ≠ .absent) :
    ∃ row ∈ s.world.db.outbox, row.messageId = id := by
  cases hentry : s.world.db.entryOf id with
  | none =>
      rw [job_of_absent hentry] at h
      exact absurd rfl h
  | some e =>
      obtain ⟨hmem, hid⟩ := lookup_some hentry
      obtain ⟨row, hrow, rfl⟩ := List.mem_map.mp hmem
      exact ⟨row, hrow, hid⟩

theorem Status.phase_inj {a b : Status} (h : a.phase = b.phase) : a = b := by
  cases a <;> cases b <;> first | rfl | cases h

/-- A task holds claimed messages only. -/
theorem Safe.sending_of_holds (hs : Safe maxAttempts s) {p : Task} {id : Str}
    (hp : p ∈ s.tasks) (hh : Holds id p) : ∀ row ∈ s.world.db.outbox, row.messageId = id →
    row.status = .sending := by
  have hsafe := hs
  obtain ⟨ts, htasks, hfollows, hdesk, -⟩ := hs
  rw [htasks] at hp
  obtain ⟨t, ht, rfl⟩ := List.mem_map.mp hp
  obtain ⟨e, he, rfl⟩ := mem_held_of_holds (hfollows t ht) hh
  have hentry := hdesk.entryOf_held (List.mem_flatMap.mpr ⟨t, ht, he⟩)
  intro row hrow hid
  have hphase := phase_of_row hsafe hrow
  rw [hid, job_of_entry hentry] at hphase
  exact Status.phase_inj hphase.symm

/-- Two tasks do not hold the same message. -/
theorem Safe.holds_unique (hs : Safe maxAttempts s) {before mid after : List Task} {p q : Task}
    {id : Str} (hsplit : s.tasks = before ++ p :: (mid ++ q :: after)) (hp : Holds id p) :
    ¬ Holds id q := by
  intro hq
  obtain ⟨ts, htasks, hfollows, hdesk, -⟩ := hs
  obtain ⟨tb, tr, rfl, -, htr⟩ := List.map_eq_append_iff.mp (htasks.symm.trans hsplit)
  obtain ⟨t, tr', rfl, rfl, htr'⟩ := List.map_eq_cons_iff.mp htr
  obtain ⟨tm, tu, rfl, -, htu⟩ := List.map_eq_append_iff.mp htr'
  obtain ⟨u, ta, rfl, rfl, -⟩ := List.map_eq_cons_iff.mp htu
  obtain ⟨e, he, hid⟩ := mem_held_of_holds (hfollows t (by simp)) hp
  obtain ⟨e', he', hid'⟩ := mem_held_of_holds (hfollows u (by simp)) hq
  have hkeyed := hdesk.holders
  rw [List.flatMap_append, List.flatMap_cons] at hkeyed
  have he'' : e' ∈ (tm ++ u :: ta).flatMap (·.2) := List.mem_flatMap.mpr ⟨u, by simp, he'⟩
  exact (hkeyed.sublist (List.sublist_append_right _ _)).ne_of_append he he''
    (hid.trans hid'.symm)

/-- A settled message is not due. -/
theorem not_claimed_of_settled (hs : Safe maxAttempts s) {row : OutboxRow}
    (hrow : row ∈ s.world.db.outbox)
    (hsettled : row.status ≠ .pending) (now : Str) (n : Int) (rank : Str → Nat) :
    ∀ m ∈ (s.world.db.claimDue now n rank).1, m.messageId ≠ row.messageId := by
  intro m hm hid
  have hpending := (claimable_claimDue now n rank hs.entries).pending m hm
  have hentry : s.world.db.entryOf row.messageId = some ⟨m.messageId, .pending, m.attempts⟩ :=
    (lookup_eq_some hs.entries).mpr ⟨hpending, hid⟩
  have hphase := phase_of_row hs hrow
  rw [job_of_entry hentry] at hphase
  exact hsettled (Status.phase_inj hphase.symm)

/-! ## Every run -/

/-- In every run, whatever fails and wherever it is cut off: rows stay, settled rows are
settled for good, no message is in two hands, and the relay is called for a message at most
as often as attempts are allowed, and once more for each restart. -/
theorem outbox_run_safe {s₀ : Pool} (h₀ : s₀.Initial) (hrun : Pool.Run maxAttempts s₀ s) :
    (∀ s', Pool.Run maxAttempts s s' → ∀ row ∈ s.world.db.outbox,
      (∃ row' ∈ s'.world.db.outbox, row'.messageId = row.messageId) ∧
      (row.status = .delivered ∨ row.status = .failed →
        (∀ row' ∈ s'.world.db.outbox, row'.messageId = row.messageId →
          row'.status = row.status) ∧
        (∀ now n rank, ∀ m ∈ (s'.world.db.claimDue now n rank).1,
          m.messageId ≠ row.messageId) ∧
        ∀ p ∈ s'.tasks, ¬ Holds row.messageId p)) ∧
    (∀ before mid after p q id, s.tasks = before ++ p :: (mid ++ q :: after) →
      Holds id p → ¬ Holds id q) ∧
    ∀ id, (s.world.relayed.count id : Int) ≤ max 1 maxAttempts + s.restarts := by
  have hsafe := ((safe_initial h₀).run hrun).1
  refine ⟨fun s' hrun' row hrow => ?_, fun _ _ _ _ _ _ hsplit hp => hsafe.holds_unique hsplit
    hp, fun id => ?_⟩
  · obtain ⟨hsafe', hkeeps⟩ := hsafe.run hrun'
    obtain ⟨hpresent, hsettled⟩ := hkeeps row.messageId
    rw [phase_of_row hsafe hrow] at hpresent hsettled
    have hstill := row_of_phase (hpresent (by cases row.status <;> exact fun h0 => nomatch h0))
    refine ⟨hstill, fun hstatus => ?_⟩
    have hphase := hsettled (hstatus.imp (fun h => by rw [h]; rfl) (fun h => by rw [h]; rfl))
    have hsame : ∀ row' ∈ s'.world.db.outbox, row'.messageId = row.messageId →
        row'.status = row.status := by
      intro row' hrow' hid
      rw [← hid, phase_of_row hsafe' hrow'] at hphase
      exact Status.phase_inj hphase
    obtain ⟨row', hrow', hid⟩ := hstill
    have hstatus' := hsame row' hrow' hid
    refine ⟨hsame, fun now n rank => ?_, fun p hp hholds => ?_⟩
    · rw [← hid]
      refine not_claimed_of_settled hsafe' hrow' ?_ now n rank
      rw [hstatus']
      rcases hstatus with h | h <;> rw [h] <;> exact fun h0 => nomatch h0
    · have hsending := hsafe'.sending_of_holds hp hholds row' hrow' hid
      rw [hstatus'] at hsending
      rcases hstatus with h | h <;> rw [h] at hsending <;> cases hsending
  · obtain ⟨ts, -, -, -, hok, -⟩ := hsafe
    have hle := Job.tries_le (hok id)
    unfold World.job at hle
    split at hle <;> exact hle

/-- The newest task takes a turn. -/
def Pool.front (c : Chance) (s : Pool) : Pool :=
  match s.tasks with
  | [] => s
  | p :: tasks =>
      { s with world := (turn c p s.world).2, tasks := (turn c p s.world).1 :: tasks }

theorem Pool.run_front (c : Chance) (n : Nat) (s : Pool) :
    Run maxAttempts s ((front c)^[n] s) := by
  induction n generalizing s with
  | zero => exact .refl
  | succ n ih =>
      refine Relation.ReflTransGen.trans ?_ (ih (front c s))
      cases htasks : s.tasks with
      | nil =>
          rw [front, htasks]
      | cons p tasks =>
          rw [front, htasks]
          exact .single (.turn s [] tasks p c htasks)

end

/-- A message is queued, sent, and marked; then the process restarts. -/
theorem outbox_run_safe_restarted :
    ∃ s : Pool, s.world.db.outbox.map (·.status) = [.delivered] ∧ s.restarts = 1 ∧
      s.world.relayed.count ['7'] = 1 ∧
      ∀ id, (s.world.relayed.count id : Int) ≤ max 1 3 + s.restarts := by
  let s₀ : Pool := ⟨⟨Db.empty, [], []⟩, [], false, 0⟩
  let message : NewOutboundMessage :=
    { direction := .forward, envelopeFrom := "r@a.example".toList,
      envelopeTo := "me@b.example".toList,
      raw := [], aliasId := none, contactId := none, subject := none }
  let p : Task := (enqueue "mail".toList message).run >>= fun _ => .ret ()
  let s₁ : Pool := { s₀ with tasks := [p] }
  let s₂ := (Pool.front (Chance.calm 7))^[5] s₁
  let s₃ : Pool := { s₂ with
    world := (exec perform requeueInterrupted (Host.calm s₂.world)).2.world
    ready := (exec perform requeueInterrupted (Host.calm s₂.world)).1.toBool }
  let s₄ : Pool := { s₃ with tasks := passOf 3 :: s₃.tasks }
  let s₅ := (Pool.front (Chance.calm 8))^[6] s₄
  let s₆ : Pool := { s₅ with tasks := [], ready := false, restarts := s₅.restarts + 1 }
  have hrun : Pool.Run 3 s₀ s₆ :=
    (((((Relation.ReflTransGen.single
      (.inbound s₀ p (uses_bind (uses_enqueue _ _) fun _ => trivial))).trans
      (Pool.run_front _ 5 s₁)).tail (.requeue s₂ (Host.calm s₂.world) rfl rfl)).tail
        (.pass s₃ (by decide +kernel))).trans (Pool.run_front _ 6 s₄)).tail (.crash s₅)
  exact ⟨s₆, by decide +kernel, rfl, by decide +kernel,
    (outbox_run_safe ⟨rfl, rfl, rfl, rfl, rfl⟩ hrun).2.2⟩

end Weiterleitung
