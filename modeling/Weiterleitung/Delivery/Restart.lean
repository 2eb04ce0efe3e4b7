/-
# `Delivery.Restart` — what was left open is delivered after a restart

However a run ended, with messages waiting, claimed or half-way through a pass, the next start
makes good for it.  On a machine where nothing fails and whose clock has come to the times that
were scheduled, the worker gives each open message to the relay, once, ten in a pass; it marks
it as delivered and touches no other:

    one message                                      (`exec_deliver_calm`)
    the messages of a pass                           (`exec_deliverAll_calm`)
    a pass takes ten that wait, or all               (`exec_drainOutbox_calm`)
    as many passes as it takes                       (`run_passes_calm`)
    from the end of any run                          (`restart_delivers`)
-/
import Mathlib
import Weiterleitung.Delivery.Claim
import Weiterleitung.Delivery.Files
import Weiterleitung.Delivery.Waiting
import Weiterleitung.Store.Luck

namespace Weiterleitung

open Text Prog

/-! ## Delivered rows -/

/-- The row of a message that was delivered; when it was scheduled may have changed before. -/
def DeliveredAs (row row' : OutboxRow) : Prop := ∃ scheduled delivered, row' =
  { row with
    status := .delivered
    nextAttemptAt := scheduled
    lastError := none
    deliveredAt := some delivered }

theorem DeliveredAs.trans {a b c : OutboxRow} (h : DeliveredAs a b) (h' : DeliveredAs b c) :
    DeliveredAs a c := by
  obtain ⟨_, _, rfl⟩ := h
  obtain ⟨scheduled, delivered, rfl⟩ := h'
  exact ⟨scheduled, delivered, rfl⟩

theorem DeliveredAs.messageId {row row' : OutboxRow} (h : DeliveredAs row row') :
    row'.messageId = row.messageId := by
  obtain ⟨_, _, rfl⟩ := h
  rfl

/-- These messages were given to the relay, in this order, and their rows are delivered; the
others are as they were. -/
structure Finishes (ids : List Str) (w w' : World) : Prop where
  spool : w'.spool = w.spool
  relayed : w'.relayed = ids.reverse ++ w.relayed
  rows : ∃ g : OutboxRow → OutboxRow, w'.db.outbox = w.db.outbox.map g ∧ ∀ row ∈ w.db.outbox,
    (row.messageId ∈ ids → DeliveredAs row (g row)) ∧ (row.messageId ∉ ids → g row = row)

namespace Finishes

variable {ids ids' : List Str} {w w' w'' : World}

theorem refl (w : World) : Finishes [] w w :=
  ⟨rfl, rfl, id, (List.map_id _).symm,
    fun _ _ => ⟨fun h => absurd h List.not_mem_nil, fun _ => rfl⟩⟩

theorem trans (h : Finishes ids w w') (h' : Finishes ids' w' w'') :
    Finishes (ids ++ ids') w w'' := by
  obtain ⟨g, hrows, hg⟩ := h.rows
  obtain ⟨g', hrows', hg'⟩ := h'.rows
  refine ⟨h'.spool.trans h.spool, ?_, g' ∘ g, ?_, fun row hrow => ?_⟩
  · rw [h'.relayed, h.relayed, List.reverse_append, List.append_assoc]
  · rw [hrows', hrows, List.map_map]
  · have hnext := hg' (g row) (hrows ▸ List.mem_map_of_mem hrow)
    rw [Function.comp_apply]
    refine ⟨fun hid => ?_, fun hid => ?_⟩
    · by_cases hfirst : row.messageId ∈ ids
      · have hdone := (hg row hrow).1 hfirst
        by_cases hsecond : (g row).messageId ∈ ids'
        · exact hdone.trans (hnext.1 hsecond)
        · rw [hnext.2 hsecond]
          exact hdone
      · rw [(hg row hrow).2 hfirst] at hnext ⊢
        exact hnext.1 ((List.mem_append.mp hid).resolve_left hfirst)
    · rw [List.mem_append, not_or] at hid
      rw [(hg row hrow).2 hid.1] at hnext ⊢
      exact hnext.2 hid.2

/-- Rows that are delivered may be marked, and scheduled, before that. -/
theorem marked (touch : OutboxRow → OutboxRow) (h : Finishes ids w' w'')
    (hspool : w'.spool = w.spool) (hrelayed : w'.relayed = w.relayed)
    (hrows : w'.db.outbox = w.db.outbox.map touch)
    (htouch : ∀ row ∈ w.db.outbox,
      (∃ status scheduled,
        touch row = { row with status := status, nextAttemptAt := scheduled }) ∧
      (row.messageId ∉ ids → touch row = row)) : Finishes ids w w'' := by
  obtain ⟨g, hrows', hg⟩ := h.rows
  refine ⟨h.spool.trans hspool, hrelayed ▸ h.relayed, g ∘ touch, ?_, fun row hrow => ?_⟩
  · rw [hrows', hrows, List.map_map]
  · have hnext := hg (touch row) (hrows ▸ List.mem_map_of_mem hrow)
    obtain ⟨⟨status, scheduled, hmarked⟩, hsame⟩ := htouch row hrow
    rw [Function.comp_apply]
    refine ⟨fun hid => ?_, fun hid => ?_⟩
    · rw [hmarked] at hnext ⊢
      obtain ⟨scheduled', delivered, hdone⟩ := hnext.1 hid
      exact ⟨scheduled', delivered, hdone⟩
    · rw [hsame hid] at hnext ⊢
      exact hnext.2 hid

end Finishes

/-! ## A machine where nothing fails -/

section
variable (maxAttempts : Int) {h : Host}

/-- The clock and the chances of a machine are given. -/
theorem onward_run {α : Type} (p : Prog Op Res α) (h : Host) :
    (run perform p h).2.oracle = h.oracle ∧ h.tick ≤ (run perform p h).2.tick :=
  run_rel perform (P := fun _ => True) (R := fun h h' => h'.oracle = h.oracle ∧
    h.tick ≤ h'.tick) (fun _ => ⟨rfl, le_refl _⟩)
      (fun h₁ h₂ => ⟨h₂.1.trans h₁.1, h₁.2.trans h₂.2⟩) (fun _ _ _ => ⟨rfl, Nat.le_succ _⟩)
    (uses_all (fun _ => trivial) p) h

theorem Calm.run {α : Type} (hc : Calm h) (p : Prog Op Res α) :
    Calm (Prog.run perform p h).2 := by
  intro i
  rw [(onward_run p h).1]
  exact hc i

theorem exec_deliver_calm (hc : Calm h) {m : QueuedMessage} {raw : Bytes}
    (hread : h.world.spool.read m.rawPath = some raw) :
    (exec perform (deliver m maxAttempts) h).1 = .ok () ∧
      Finishes [m.messageId] h.world (exec perform (deliver m maxAttempts) h).2.world := by
  -- the file is read and the relay takes the message
  let sent : Host := h.skip.after { h.world with relayed := m.messageId :: h.world.relayed }
  have hsent : exec perform (deliver m maxAttempts) h =
      exec perform (mapErr Failure.error (markDelivered m.messageId)) sent := by
    have hfile : run perform (readFile m.rawPath).run h = (.ok raw, h.skip) := by
      simp [readFile, perform, answer, hread, Chance.give, hc.chance, Host.skip]
    have htaken : run perform (Relay.send m raw).run h.skip = (.ok (), sent) := by
      simp [Relay.send, perform, answer, Chance.give, hc.skip.chance, sent]
    unfold deliver
    rw [exec_bind, exec_lift, hfile]
    dsimp only
    rw [exec_bind, exec_lift, htaken]
  have hmark : exec perform (markDelivered m.messageId) sent = (.ok (), sent.skip.after
      { sent.world with
        db := h.world.db.markDelivered m.messageId sent.chance.now.toRfc3339 }) := by
    unfold markDelivered
    rw [exec_bind_of_ok perform (exec_utcNow sent)]
    exact exec_write_ok _ (show Calm sent.skip from hc).chance rfl
  rw [hsent, exec_mapErr_ok perform hmark]
  refine ⟨rfl, rfl, rfl, _, rfl, fun row _ => ⟨fun hid => ?_, fun hid => ?_⟩⟩
  · rw [if_pos (List.mem_singleton.mp hid)]
    exact ⟨_, _, rfl⟩
  · rw [if_neg fun h => hid (List.mem_singleton.mpr h)]

theorem exec_deliverAll_calm (messages : List QueuedMessage) : ∀ {h : Host}, Calm h →
    (∀ m ∈ messages, ∃ raw, h.world.spool.read m.rawPath = some raw) →
    (exec perform (deliverAll maxAttempts messages) h).1 = .ok () ∧
      Finishes (messages.map (·.messageId)) h.world
        (exec perform (deliverAll maxAttempts messages) h).2.world := by
  induction messages with
  | nil => exact fun _ _ => ⟨rfl, .refl _⟩
  | cons m messages ih =>
      intro h hc hfiles
      obtain ⟨raw, hread⟩ := hfiles m List.mem_cons_self
      obtain ⟨hok, hfirst⟩ := exec_deliver_calm maxAttempts hc hread
      have hcalm := hc.run (deliver m maxAttempts).run
      rw [deliverAll, exec_bind, exec_lift]
      change (run perform (deliver m maxAttempts).run h).1 = _ at hok
      change Finishes _ _ (run perform (deliver m maxAttempts).run h).2.world at hfirst
      generalize run perform (deliver m maxAttempts).run h = next at hok hfirst hcalm ⊢
      obtain ⟨r, t⟩ := next
      subst hok
      obtain ⟨hrest, hfinish⟩ := ih hcalm fun m' hm' => by
        rw [hfirst.spool]
        exact hfiles m' (List.mem_cons_of_mem _ hm')
      exact ⟨hrest, hfirst.trans hfinish⟩

end

/-! ## Passes -/

/-- The messages that wait. -/
def Db.waitingIds (db : Db) : List Str :=
  (db.outbox.filter fun row => row.status = .pending).map (·.messageId)

theorem Finishes.waitingIds {ids : List Str} {w w' : World} (h : Finishes ids w w') :
    w'.db.waitingIds = w.db.waitingIds.filter fun id => id ∉ ids := by
  obtain ⟨g, hrows, hg⟩ := h.rows
  have hwaits : ∀ row ∈ w.db.outbox, ((g row).status = .pending ↔
      row.messageId ∉ ids ∧ row.status = .pending) := by
    intro row hrow
    by_cases hid : row.messageId ∈ ids
    · obtain ⟨_, _, hdone⟩ := (hg row hrow).1 hid
      rw [hdone]
      exact ⟨fun h => (by cases h), fun h => absurd hid h.1⟩
    · rw [(hg row hrow).2 hid]
      exact ⟨fun h => ⟨hid, h⟩, And.right⟩
  unfold Db.waitingIds
  rw [hrows, List.filter_map, List.filter_map, List.map_map, List.filter_filter]
  have hkept : w.db.outbox.filter ((fun row => decide (row.status = .pending)) ∘ g) =
      w.db.outbox.filter fun row => decide (row.messageId ∉ ids) && decide
        (row.status = .pending) := by
    refine List.filter_congr fun row hrow => ?_
    rw [← Bool.decide_and]
    exact decide_eq_decide.mpr (hwaits row hrow)
  rw [hkept]
  refine List.map_congr_left fun row hrow => ?_
  obtain ⟨hmem, hcond⟩ := List.mem_filter.mp hrow
  rw [← Bool.decide_and] at hcond
  rw [Function.comp_apply, (hg row hmem).2 (of_decide_eq_true hcond).1]

/-- Nothing fails, and what waits is due and has its file. -/
structure Ready (h : Host) : Prop where
  calm : Calm h
  keyed : Keyed OutboxRow.messageId h.world.db.outbox
  due : ∀ row ∈ h.world.db.outbox, row.status = .pending → ∀ tick, h.tick ≤ tick →
    row.nextAttemptAt ≤ (h.oracle tick).now.toRfc3339
  files : ∀ row ∈ h.world.db.outbox, row.status = .pending →
    ∃ raw, h.world.spool.read row.rawPath = some raw

theorem Ready.later {h h' : Host} {ids : List Str} (hr : Ready h)
    (horacle : h'.oracle = h.oracle)
    (htick : h.tick ≤ h'.tick) (hfinish : Finishes ids h.world h'.world) : Ready h' := by
  obtain ⟨g, hrows, hg⟩ := hfinish.rows
  -- what waits has waited
  have hwaits : ∀ row' ∈ h'.world.db.outbox, row'.status = .pending →
      row' ∈ h.world.db.outbox := by
    intro row' hrow' hpending
    rw [hrows] at hrow'
    obtain ⟨row, hrow, rfl⟩ := List.mem_map.mp hrow'
    by_cases hid : row.messageId ∈ ids
    · obtain ⟨_, _, hdone⟩ := (hg row hrow).1 hid
      rw [hdone] at hpending
      cases hpending
    · rw [(hg row hrow).2 hid]
      exact hrow
  refine ⟨fun i => ?_, ?_, fun row hrow hpending tick hle => ?_, fun row hrow hpending => ?_⟩
  · rw [horacle]
    exact hr.calm i
  · unfold Keyed
    rw [hrows, List.map_map, List.map_congr_left fun row hrow => ?_]
    · exact hr.keyed
    · by_cases hid : row.messageId ∈ ids
      · exact ((hg row hrow).1 hid).messageId
      · rw [Function.comp_apply, (hg row hrow).2 hid]
  · rw [horacle]
    exact hr.due row (hwaits row hrow hpending) hpending tick (htick.trans hle)
  · rw [hfinish.spool]
    exact hr.files row (hwaits row hrow hpending) hpending

section
variable {h : Host}

theorem answer_claimDue_ok (now : Str) (limit : Int) {c : Chance} {w : World}
    (hf : c.fails = false) :
    answer (.claimDue now limit) c w =
      (.ok (w.db.claimDue now limit c.rank).1,
        { w with db := (w.db.claimDue now limit c.rank).2 }) := by
  simp [answer, hf]

/-- A pass takes the first ten of what waits, or all, in the order of the claim. -/
theorem dueRows_ready (hr : Ready h) (rank : Str → Nat) : ∃ rest,
    ((h.world.db.dueRows h.chance.now.toRfc3339 batchSize rank).map (·.messageId) ++ rest).Perm
      h.world.db.waitingIds ∧
    (h.world.db.dueRows h.chance.now.toRfc3339 batchSize rank).length
      = min 10 h.world.db.waitingIds.length := by
  let waits : List OutboxRow := h.world.db.outbox.filter fun row => row.status = .pending
  let sorted : List OutboxRow := waits.insertionSort fun a b =>
    a.nextAttemptAt < b.nextAttemptAt ∨ a.nextAttemptAt = b.nextAttemptAt ∧
      rank a.messageId ≤ rank b.messageId
  have hperm : sorted.Perm waits := List.perm_insertionSort _ _
  have hdue : h.world.db.dueRows h.chance.now.toRfc3339 batchSize rank = sorted.take 10 := by
    have hfilter : (h.world.db.outbox.filter fun row =>
        row.status = .pending && row.nextAttemptAt ≤ h.chance.now.toRfc3339) = waits := by
      refine List.filter_congr fun row hrow => ?_
      by_cases hpending : row.status = .pending
      · have hpast : row.nextAttemptAt ≤ h.chance.now.toRfc3339 :=
          hr.due row hrow hpending h.tick (le_refl _)
        simp [hpending, hpast]
      · simp [hpending]
    unfold Db.dueRows
    rw [hfilter]
    rfl
  refine ⟨(sorted.drop 10).map (·.messageId), ?_, ?_⟩
  · rw [hdue, ← List.map_append, List.take_append_drop]
    exact hperm.map _
  · rw [hdue, List.length_take, hperm.length_eq, Db.waitingIds, List.length_map]

theorem exec_drainOutbox_calm (maxAttempts : Int) (hr : Ready h) : ∃ ids rest,
    (exec perform (drainOutbox maxAttempts) h).1 = .ok ids.length ∧
    Finishes ids h.world (exec perform (drainOutbox maxAttempts) h).2.world ∧
    (ids ++ rest).Perm h.world.db.waitingIds ∧
    ids.length = min 10 h.world.db.waitingIds.length := by
  let rows := h.world.db.dueRows h.chance.now.toRfc3339 batchSize h.skip.chance.rank
  let claimed : Host := h.skip.after
    { h.world with db := (h.world.db.claimDue h.chance.now.toRfc3339 batchSize
      h.skip.chance.rank).2 }
  obtain ⟨rest, hperm, hlength⟩ := dueRows_ready hr h.skip.chance.rank
  have hids : (rows.map OutboxRow.queued).map (·.messageId) = rows.map (·.messageId) :=
    List.map_map ..
  have hclaim : exec perform (drainOutbox maxAttempts) h =
      run perform ((deliverAll maxAttempts (rows.map OutboxRow.queued)).run >>= fun r =>
        ret (r.map fun _ => (rows.map OutboxRow.queued).length)) claimed := by
    have hanswer : perform (.claimDue h.chance.now.toRfc3339 batchSize) h.skip =
        (.ok (rows.map OutboxRow.queued), claimed) := by
      unfold perform
      rw [answer_claimDue_ok _ _ hr.calm.skip.chance]
      rfl
    unfold exec
    rw [drainOutbox_run, run_ask]
    show run perform (ask (.claimDue h.chance.now.toRfc3339 batchSize) _) h.skip = _
    rw [run_ask, hanswer]
  have hfiles : ∀ m ∈ rows.map OutboxRow.queued, ∃ raw,
      claimed.world.spool.read m.rawPath = some raw := by
    intro m hm
    obtain ⟨row, hrow, rfl⟩ := List.mem_map.mp hm
    obtain ⟨hmem, hpending, -⟩ := Db.mem_dueRows hrow
    exact hr.files row hmem hpending
  obtain ⟨hok, hfinish⟩ := exec_deliverAll_calm maxAttempts _
    (show Calm claimed from hr.calm) hfiles
  rw [hids] at hfinish
  refine ⟨rows.map (·.messageId), rest, ?_, ?_, hperm, ?_⟩
  · rw [hclaim, run_bind]
    change (run perform (deliverAll maxAttempts (rows.map OutboxRow.queued)).run claimed).1
      = _ at hok
    rw [hok]
    show Except.ok (rows.map OutboxRow.queued).length
      = Except.ok (rows.map (·.messageId)).length
    rw [List.length_map, List.length_map]
  · rw [hclaim, run_bind]
    -- the claim only marks the rows that are delivered after it
    have hsending : claimed.world.db.outbox = h.world.db.outbox.map fun row =>
        if row.messageId ∈ rows.map (·.messageId) then { row with status := .sending }
          else row := by
      rw [← hids]
      exact congrArg Db.outbox (Db.foldl_sending _ h.world.db)
    refine hfinish.marked _ rfl rfl hsending fun row _ => ⟨?_, fun hid => if_neg hid⟩
    split
    · exact ⟨_, _, rfl⟩
    · exact ⟨row.status, row.nextAttemptAt, rfl⟩
  · rw [List.length_map]
    exact hlength

theorem Ready.nodup_waitingIds (hr : Ready h) : h.world.db.waitingIds.Nodup :=
  hr.keyed.sublist List.filter_sublist

end

/-- What a pass leaves waits for the next one, until nothing does. -/
theorem run_passes_calm (maxAttempts : Int) (n : Nat) :
    ∀ {h : Host}, Ready h → h.world.db.waitingIds.length ≤ 10 * n →
    ∃ (counts : List Nat) (ids : List Str),
    (run perform (passes maxAttempts n) h).1 = counts.map .ok ∧
      counts.length = n ∧ counts.sum = ids.length ∧ ids.Perm h.world.db.waitingIds ∧
      Finishes ids h.world (run perform (passes maxAttempts n) h).2.world := by
  induction n with
  | zero =>
      intro h _ hfew
      have hnone : h.world.db.waitingIds = [] :=
        List.eq_nil_of_length_eq_zero (Nat.le_zero.mp hfew)
      exact ⟨[], [], rfl, rfl, rfl, hnone ▸ .refl _, .refl _⟩
  | succ n ih =>
      intro h hr hfew
      obtain ⟨ids, rest, hok, hfinish, hperm, hlength⟩ := exec_drainOutbox_calm maxAttempts hr
      change (run perform (drainOutbox maxAttempts).run h).1 = _ at hok
      change Finishes ids _ (run perform (drainOutbox maxAttempts).run h).2.world at hfinish
      obtain ⟨horacle, htick⟩ := onward_run (drainOutbox maxAttempts).run h
      have hready := hr.later horacle htick hfinish
      -- the rest of the first pass is what the others find
      have hrest : (run perform (drainOutbox maxAttempts).run h).2.world.db.waitingIds.Perm
          rest := by
        have hapart := List.nodup_append.mp (hperm.nodup_iff.mpr hr.nodup_waitingIds)
        have hdone : ids.filter (fun id => id ∉ ids) = [] := by simp
        have hleft : rest.filter (fun id => id ∉ ids) = rest :=
          List.filter_eq_self.mpr fun id hid => decide_eq_true fun hin =>
            hapart.2.2 id hin id hid rfl
        rw [hfinish.waitingIds]
        refine (hperm.symm.filter _).trans ?_
        rw [List.filter_append, hdone, hleft, List.nil_append]
      have htotal := hperm.length_eq
      rw [List.length_append] at htotal
      obtain ⟨counts, ids', hreports, hcount, hsum, hperm', hfinish'⟩ :=
        ih hready (by rw [hrest.length_eq]; omega)
      unfold passes
      rw [run_bind, hok]
      dsimp only
      rw [run_bind]
      refine ⟨ids.length :: counts, ids ++ ids', ?_, ?_, ?_, ?_, hfinish.trans hfinish'⟩
      · rw [hreports]
        rfl
      · rw [List.length_cons, hcount]
      · rw [List.sum_cons, List.length_append, hsum]
      · exact ((hperm'.trans hrest).append_left ids).trans hperm

/-! ## The restart -/

/-- The messages that are open: they wait, or a worker has taken them. -/
def Db.openIds (db : Db) : List Str :=
  (db.outbox.filter fun row => row.status = .pending || row.status = .sending).map
    (·.messageId)

/-- What is open waits again. -/
theorem Db.waitingIds_requeueInterrupted (now : Str) (db : Db) :
    (db.requeueInterrupted now).waitingIds = db.openIds := by
  unfold Db.waitingIds Db.openIds Db.requeueInterrupted
  rw [List.filter_map, List.map_map]
  have hopen : db.outbox.filter ((fun row => decide (row.status = .pending)) ∘ fun row =>
      if row.status = .sending then { row with status := .pending, nextAttemptAt := now }
        else row) =
      db.outbox.filter fun row => row.status = .pending || row.status = .sending := by
    refine List.filter_congr fun row _ => ?_
    rw [Function.comp_apply]
    split
    · next hsending => simp [hsending]
    · next hother => simp [hother]
  rw [hopen]
  refine List.map_congr_left fun row _ => ?_
  rw [Function.comp_apply]
  split <;> rfl

/-- The clock has come to the times that were scheduled, and is not set back. -/
structure CaughtUp (h : Host) : Prop where
  due : ∀ row ∈ h.world.db.outbox, row.status = .pending →
    row.nextAttemptAt ≤ h.chance.now.toRfc3339
  onward : ∀ tick, h.tick ≤ tick → h.chance.now.toRfc3339 ≤ (h.oracle tick).now.toRfc3339

/-- A worker that starts on a machine where nothing fails finds what it needs. -/
theorem exec_requeueInterrupted_calm {h : Host} (hc : Calm h) (hclock : CaughtUp h)
    (hkeyed : Keyed OutboxRow.messageId h.world.db.outbox)
    (hfiles : ∀ row ∈ h.world.db.outbox, ∃ raw, h.world.spool.read row.rawPath = some raw) :
    ∃ h', exec perform requeueInterrupted h = (.ok (), h') ∧ Ready h' ∧
      h'.world
        = { h.world with db := h.world.db.requeueInterrupted h.chance.now.toRfc3339 } := by
  let h' : Host :=
    h.skip.after { h.world with db := h.world.db.requeueInterrupted h.chance.now.toRfc3339 }
  have hkept : ∀ row' ∈ h'.world.db.outbox, ∃ row ∈ h.world.db.outbox,
      row'.rawPath = row.rawPath ∧
      (row'.nextAttemptAt = row.nextAttemptAt ∧ row'.status = row.status ∨
        row'.nextAttemptAt = h.chance.now.toRfc3339) := by
    intro row' hrow'
    obtain ⟨row, hrow, rfl⟩ := List.mem_map.mp hrow'
    refine ⟨row, hrow, ?_⟩
    split
    · exact ⟨rfl, .inr rfl⟩
    · exact ⟨rfl, .inl ⟨rfl, rfl⟩⟩
  refine ⟨h', ?_, ⟨hc, ?_, fun row' hrow' hpending tick hle => ?_, fun row' hrow' _ => ?_⟩,
    rfl⟩
  · unfold requeueInterrupted
    rw [exec_bind_of_ok perform (exec_utcNow h)]
    exact exec_write_ok h.skip hc.skip.chance rfl
  · refine hkeyed.map fun row => ?_
    split <;> rfl
  · have hlater := hclock.onward tick ((Nat.le_add_right _ 2).trans hle)
    obtain ⟨row, hrow, -, ⟨hwhen, hstatus⟩ | hwhen⟩ := hkept row' hrow'
    · rw [hwhen]
      exact (hclock.due row hrow (hstatus.symm.trans hpending)).trans hlater
    · rw [hwhen]
      exact hlater
  · obtain ⟨row, hrow, hpath, -⟩ := hkept row' hrow'
    rw [hpath]
    exact hfiles row hrow

/-- However a run ended, a worker that starts where nothing fails, when the clock has come to
what was scheduled, delivers what is open: `n` passes give each of up to `10 * n` open messages
to the relay, once, mark it as delivered, and touch no other row and no file. -/
theorem restart_delivers {mailDir : Str} {maxAttempts : Int} {s₀ s : Chronicle}
    (h₀ : s₀.Initial) (hspool : s₀.world.spool = [])
    (hrun : Chronicle.Run (fun p => Mails mailDir p) Unique maxAttempts s₀ s)
    {h : Host} (hworld : h.world = s.world) (hc : Calm h) (hclock : CaughtUp h) {n : Nat}
    (hfew : s.world.db.openIds.length ≤ 10 * n) : ∃ (counts : List Nat) (ids : List Str),
    (exec perform (runDeliveryWorker maxAttempts n) h).1 = .ok (counts.map .ok) ∧
    counts.length = n ∧ counts.sum = ids.length ∧ ids.Perm s.world.db.openIds ∧
    Finishes ids s.world (exec perform (runDeliveryWorker maxAttempts n) h).2.world := by
  obtain ⟨ts, hb⟩ := Chronicle.booked_run h₀ hrun
  have hstored := (Chronicle.filed_run h₀ hspool hrun).stored
  have hkeyed : Keyed OutboxRow.messageId h.world.db.outbox :=
    hworld ▸ Db.keyed_ledger.mp hb.staffed.desk.entries
  obtain ⟨h', hrequeue, hready, hworld'⟩ := exec_requeueInterrupted_calm hc hclock hkeyed
    fun row hrow => by
    rw [hworld] at hrow ⊢
    obtain ⟨-, raw, -, hread⟩ := hstored.rows row hrow
    exact ⟨raw, hread⟩
  have hwaiting : h'.world.db.waitingIds = s.world.db.openIds := by
    rw [hworld', hworld]
    exact Db.waitingIds_requeueInterrupted _ _
  obtain ⟨counts, ids, hreports, hcount, hsum, hperm, hfinish⟩ :=
    run_passes_calm maxAttempts n hready (hwaiting ▸ hfew)
  rw [hwaiting] at hperm
  have hworker : exec perform (runDeliveryWorker maxAttempts n) h =
      (.ok (counts.map .ok), (run perform (passes maxAttempts n) h').2) := by
    unfold runDeliveryWorker
    rw [exec_bind_of_ok perform hrequeue, exec_lift, hreports]
  rw [hworker]
  refine ⟨counts, ids, rfl, hcount, hsum, hperm, ?_⟩
  -- what is requeued was open, and is delivered
  refine hfinish.marked (fun row => if row.status = .sending then
    { row with status := .pending, nextAttemptAt := h.chance.now.toRfc3339 } else row) ?_ ?_ ?_
    fun row hrow => ⟨?_, fun hid => ?_⟩
  · rw [hworld', hworld]
  · rw [hworld', hworld]
  · rw [hworld', hworld]
    rfl
  · split
    · exact ⟨_, _, rfl⟩
    · exact ⟨row.status, row.nextAttemptAt, rfl⟩
  · refine if_neg fun hsending => hid (hperm.mem_iff.mpr ?_)
    exact List.mem_map.mpr ⟨row, List.mem_filter.mpr ⟨hrow, by simp [hsending]⟩, rfl⟩

/-- The relay has taken the message of `queuedOne`, whose row is still `sending`. -/
def brokenOff : Chronicle := (Chronicle.queuedOne 3).fronts (List.replicate 4 (Chance.calm 7))

/-- The machine of `brokenOff`, two minutes later. -/
def restarted : Host := ⟨brokenOff.world, fun _ => Chronicle.later, 0⟩

/-- The process ended before the row was marked: the message is given
to the relay once more. -/
theorem restart_delivers_sample :
    brokenOff.world.db.openIds = [['7']] ∧ brokenOff.world.relayed = [['7']] ∧
    (exec perform (runDeliveryWorker 3 1) restarted).2.world.relayed = [['7'], ['7']] := by
  have hopen : brokenOff.world.db.openIds = [['7']] := by decide +kernel
  have hrelayed : brokenOff.world.relayed = [['7']] := by decide +kernel
  obtain ⟨s₀, h₀, hspool, hqueued⟩ := Chronicle.run_queuedOne (fun p => Mails "mail".toList p)
    Unique 3 (mails_bind (mails_enqueue _) fun _ => .ret ()) (by decide +kernel)
      fun _ => ⟨trivial, trivial⟩
  have hrun : Chronicle.Run (fun p => Mails "mail".toList p) Unique 3 s₀ brokenOff :=
    hqueued.trans (Chronicle.run_fronts _ _ (by decide +kernel))
  have hclock : CaughtUp restarted := ⟨by decide +kernel, fun _ _ => le_refl _⟩
  obtain ⟨_, ids, -, -, -, hperm, hfinish⟩ :=
    restart_delivers h₀ hspool hrun (h := restarted) rfl (fun _ => rfl) hclock
      (n := 1) (by rw [hopen]; decide)
  rw [hopen, List.perm_singleton] at hperm
  refine ⟨hopen, hrelayed, ?_⟩
  rw [hfinish.relayed, hrelayed, hperm]
  rfl

end Weiterleitung
