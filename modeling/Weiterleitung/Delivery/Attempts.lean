/-
# `Delivery.Attempts` — what the counter of a message counts

`attempts` is meant to be the number of refused sends.  Every retry adds one for one refusal,
so it is, until a spool file cannot be read: then `deliver` marks the message failed with one
more than the limit, whether the file is gone or only could not be opened.

    while the worker reads the spool files, attempts are
      refusals, and only they make a message fail             (`attempts_right`)
    one read error ends a message that was never sent        (`attempts_wrong_when_unreadable`)

With a limit of -1 the wrong number is 0 again, and a missing file does no harm to the count.
-/
import Mathlib
import Weiterleitung.Delivery.Chronicle

namespace Weiterleitung

namespace Chronicle

/-- Attempts are refused sends, at most as many as allowed; a message failed because it was
refused that often or because its file was missing, and until then it did not. -/
structure AttemptsRight (maxAttempts : Int) (s : Chronicle) : Prop where
  counted : ∀ row ∈ s.world.db.outbox, row.attempts = refusals s.log row.messageId
  bounded : ∀ row ∈ s.world.db.outbox, row.attempts ≤ max 1 maxAttempts
  failed : ∀ row ∈ s.world.db.outbox, row.status = .failed →
    refusals s.log row.messageId = max 1 maxAttempts ∨ (row.messageId, .missing) ∈ s.log
  waiting : ∀ row ∈ s.world.db.outbox, row.status = .pending ∨ row.status = .sending →
    refusals s.log row.messageId < max 1 maxAttempts

/-- Every spool file is there and can be read; a missing one is harmless under the limit -1. -/
def ReadsFiles (maxAttempts : Int) : Op → Chance → Chronicle → Prop
  | .readFile path, c, s =>
      c.fails = false ∧ (s.world.spool.read path).isSome ∨ maxAttempts = -1 ∧
        (s.world.spool.read path).isNone
  | _, _, _ => True

instance (maxAttempts : Int) : ∀ o c s, Decidable (ReadsFiles maxAttempts o c s)
  | .readFile _, _, _ => inferInstanceAs (Decidable (_ ∨ _))
  | .uuid, _, _ | .now, _, _ | .sample _, _, _ | .findAliasByAddress _, _, _
  | .findContact _ _, _, _ => isTrue trivial
  | .findContactByReverseAlias _, _, _ | .write _, _, _ | .claimDue _ _, _, _ => isTrue trivial
  | .createDirAll _, _, _ | .writeFile _ _, _, _ | .send _ _ _ _, _, _ => isTrue trivial

/-- A finding that does no harm to the count. -/
def Harmless (maxAttempts : Int) (b : Finding) :
    Prop := b ≠ .unreadable ∧ (b = .missing → maxAttempts = -1)

section
variable {joins : Task → Prop} {maxAttempts : Int} {s s' : Chronicle}

theorem harmless_of_ne {b : Finding} (hunreadable : b ≠ .unreadable)
    (hmissing : b ≠ .missing) : Harmless maxAttempts b :=
  ⟨hunreadable, fun h => absurd h hmissing⟩

theorem harmless_next {n : Notes} {o : Op} {c : Chance} (h : Harmless maxAttempts n.finding)
    (hfair : ReadsFiles maxAttempts o c s) :
    Harmless maxAttempts (n.next o (Weiterleitung.answer o c s.world).1 s.world).finding := by
  cases o with
  | readFile path =>
      rcases hfair with ⟨hf, hsome⟩ | ⟨hlimit, hnone⟩
      · obtain ⟨raw, hraw⟩ := Option.isSome_iff_exists.mp hsome
        have hok : (Weiterleitung.answer (.readFile path) c s.world).1 = .ok raw := by
          simp [Weiterleitung.answer, hraw, Chance.give, hf]
        rw [hok]
        exact harmless_of_ne (b := .nothing) (by decide) (by decide)
      · have herror : (Weiterleitung.answer (.readFile path) c s.world).1 = .error c.text := by
          simp [Weiterleitung.answer, Option.isNone_iff_eq_none.mp hnone]
        rw [herror]
        refine ⟨?_, fun _ => hlimit⟩
        show (if (s.world.spool.read path).isNone then Finding.missing else Finding.unreadable)
          ≠ _
        rw [if_pos hnone]
        decide
  | send id from_ to_ raw =>
      cases hr : (Weiterleitung.answer (.send id from_ to_ raw) c s.world).1 with
      | ok u => exact harmless_of_ne (b := .accepted) (by decide) (by decide)
      | error e => exact harmless_of_ne (b := .refused) (by decide) (by decide)
  | _ => exact h

theorem finding_of_recorded {o : Op} {r : Res o} {b : Finding} {e : Str × Finding}
    (h : e ∈ recorded o r b) :
    e.2 = b := by
  unfold recorded at h
  split at h
  · rw [List.mem_singleton.mp h]
  · rw [List.mem_singleton.mp h]
  · rw [List.mem_singleton.mp h]
  · cases h

/-- What is noted and logged is harmless. -/
structure Tame (maxAttempts : Int) (s : Chronicle) : Prop where
  notes : ∀ n ∈ s.tasks, Harmless maxAttempts n.notes.finding
  log : ∀ e ∈ s.log, Harmless maxAttempts e.2

theorem tame_step (h : Tame maxAttempts s)
    (hstep : Step joins (ReadsFiles maxAttempts) maxAttempts s s') :
    Tame maxAttempts s' := by
  have hblank : Harmless maxAttempts Notes.blank.finding :=
    harmless_of_ne (by decide) (by decide)
  cases hstep with
  | inbound p | pass =>
      refine ⟨fun n hn => ?_, h.log⟩
      rcases List.mem_cons.mp hn with rfl | hn
      · exact hblank
      · exact h.notes n hn
  | answer _ n o c hanswers hfair =>
      obtain ⟨before, after, k, htasks, rfl⟩ := hanswers
      have hn : Harmless maxAttempts n.finding := h.notes ⟨.ask o k, n⟩ (by rw [htasks]; simp)
      refine ⟨fun n' hn' => ?_, fun e he => ?_⟩
      · rcases List.mem_append.mp hn' with hn' | hn'
        · exact h.notes n' (by rw [htasks]; exact List.mem_append_left _ hn')
        · rcases List.mem_cons.mp hn' with rfl | hn'
          · exact harmless_next hn hfair
          · exact h.notes n'
              (by rw [htasks]; exact List.mem_append_right _ (List.mem_cons_of_mem _ hn'))
      · rcases List.mem_append.mp he with he | he
        · rw [finding_of_recorded he]
          exact hn
        · exact h.log e he
  | crash => exact ⟨fun _ hn => (nomatch hn), h.log⟩
  | requeue => exact ⟨h.notes, h.log⟩

theorem tame_run {s₀ : Chronicle} (h₀ : s₀.Initial)
    (hrun : Run joins (ReadsFiles maxAttempts) maxAttempts s₀ s) :
    Tame maxAttempts s := by
  induction hrun with
  | refl =>
      obtain ⟨⟨-, -, htasks, -⟩, hlog, -⟩ := h₀
      rw [show s₀.toPool.tasks = s₀.tasks.map (·.task) from rfl, List.map_eq_nil_iff] at htasks
      refine ⟨fun n hn => ?_, fun e he => ?_⟩
      · rw [htasks] at hn
        cases hn
      · rw [hlog] at he
        cases he
  | tail _ hstep ih => exact tame_step ih hstep

/-- As long as the worker reads the spool files: in every run, however often sends and the
store fail and the process restarts, attempts are refused sends. -/
theorem attempts_right {s₀ : Chronicle} (h₀ : s₀.Initial)
    (hrun : Run joins (ReadsFiles maxAttempts) maxAttempts s₀ s) :
    AttemptsRight maxAttempts s := by
  obtain ⟨ts, hb⟩ := booked_run h₀ hrun
  have htame := tame_run h₀ hrun
  -- a file that was not read is missing, and then the limit is -1
  have hunread : ∀ id, ((id, .missing) ∈ s.log ∨ (id, .unreadable) ∈ s.log) →
      (id, .missing) ∈ s.log ∧ maxAttempts = -1 := by
    intro id h
    rcases h with h | h
    · exact ⟨h, (htame.log _ h).2 rfl⟩
    · exact absurd rfl (htame.log _ h).1
  have hcases : ∀ row ∈ s.world.db.outbox, row.attempts = refusals s.log row.messageId ∧
      row.attempts ≤ max 1 maxAttempts ∧
      (row.status = .failed → refusals s.log row.messageId = max 1 maxAttempts ∨
        (row.messageId, .missing) ∈ s.log) ∧
      (row.status ≠ .failed → row.attempts < max 1 maxAttempts) := by
    intro row hrow
    have hrow := hb.account hrow
    by_cases hs : row.status = .failed
    · rw [accounted_failed (e := row.entry) hs] at hrow
      rcases hrow with ⟨hcount, hmax⟩ | ⟨hlog, hattempts, hlt⟩
      · have hcount' : row.attempts = refusals s.log row.messageId := hcount
        have hmax' : row.attempts = max 1 maxAttempts := hmax
        exact ⟨hcount', le_of_eq hmax', fun _ => Or.inl (hcount'.symm.trans hmax'),
          fun h0 => absurd hs h0⟩
      · obtain ⟨hmissing, hlimit⟩ := hunread _ hlog
        have hattempts' : row.attempts = maxAttempts + 1 := hattempts
        exact ⟨by omega, by omega, fun _ => Or.inr hmissing, fun h0 => absurd hs h0⟩
    · obtain ⟨hcount, hlt⟩ := (accounted_open (e := row.entry) hs).mp hrow
      have hcount' : row.attempts = refusals s.log row.messageId := hcount
      have hlt' : row.attempts < max 1 maxAttempts := hlt
      exact ⟨hcount', le_of_lt hlt', fun h0 => absurd h0 hs, fun _ => hlt'⟩
  refine ⟨fun row hrow => (hcases row hrow).1, fun row hrow => (hcases row hrow).2.1,
    fun row hrow => (hcases row hrow).2.2.1, fun row hrow hopen => ?_⟩
  obtain ⟨hcount, -, -, hlt⟩ := hcases row hrow
  rw [← hcount]
  exact hlt (by rcases hopen with h | h <;> rw [h] <;> exact fun h0 => nomatch h0)

end

/-! ### One message, one attempt -/

/-- No statement and no query fails. -/
def StoreSucceeds : Op → Chance → Chronicle → Prop
  | .write _, c, _ | .claimDue _ _, c, _ => c.fails = false
  | .findAliasByAddress _, c, _ | .findContact _ _, c, _
  | .findContactByReverseAlias _, c, _ => c.fails = false
  | _, _, _ => True

instance : ∀ o c s, Decidable (StoreSucceeds o c s)
  | .write _, _, _ | .claimDue _ _, _, _ => inferInstanceAs (Decidable (_ = _))
  | .findAliasByAddress _, _, _ | .findContact _ _, _, _ => inferInstanceAs (Decidable (_ = _))
  | .findContactByReverseAlias _, _, _ => inferInstanceAs (Decidable (_ = _))
  | .uuid, _, _ | .now, _, _ | .sample _, _, _ | .createDirAll _, _, _ => isTrue trivial
  | .writeFile _ _, _, _ | .readFile _, _, _ | .send _ _ _ _, _, _ => isTrue trivial

/-- The one message of `queuedOne` is refused and waits for its second attempt. -/
theorem attempts_right_refused : ∃ s : Chronicle, s.world.db.outbox.map (·.attempts) = [1] ∧
    refusals s.log ['7'] = 1 ∧ AttemptsRight 3 s := by
  let cs : List Chance := [.calm 7, .calm 7, .calm 7, unlucky, .calm 7, .calm 7]
  obtain ⟨s₀, h₀, -, hrun⟩ := run_queuedOne (fun _ => True) (ReadsFiles 3) 3 trivial
    (by decide +kernel) fun _ => ⟨trivial, trivial⟩
  have hpass : Run (fun _ => True) (ReadsFiles 3) 3 (queuedOne 3) ((queuedOne 3).fronts cs) :=
    run_fronts cs _ (by decide +kernel)
  exact ⟨_, by decide +kernel, by decide +kernel, attempts_right h₀ (hrun.trans hpass)⟩

/-- Too many files are open when the worker reads the message: it is given up with four
attempts of three, and was never sent. -/
theorem attempts_wrong_when_unreadable :
    ¬ ∀ (maxAttempts : Int) (s₀ s : Chronicle), s₀.Initial →
      Run (fun _ => True) StoreSucceeds maxAttempts s₀ s → AttemptsRight maxAttempts s := by
  intro hall
  let cs : List Chance := [.calm 7, .calm 7, unlucky, .calm 7]
  obtain ⟨s₀, h₀, -, hrun⟩ := run_queuedOne (fun _ => True) StoreSucceeds 3 trivial
    (by decide +kernel) fun _ => ⟨trivial, rfl⟩
  have hpass : Run (fun _ => True) StoreSucceeds 3 (queuedOne 3) ((queuedOne 3).fronts cs) :=
    run_fronts cs _ (by decide +kernel)
  have hwrong : ¬ ∀ row ∈ ((queuedOne 3).fronts cs).world.db.outbox,
      row.attempts = refusals ((queuedOne 3).fronts cs).log row.messageId := by decide +kernel
  exact hwrong (hall 3 s₀ _ h₀ (hrun.trans hpass)).counted

end Chronicle

end Weiterleitung
