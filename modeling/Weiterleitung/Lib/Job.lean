/-
# `Lib.Job` — one job of a work queue whose workers may crash

A job waits, is claimed by a worker, is tried, and is then settled or waits again.  A
worker holds a job from the claim until it records the outcome; recording may fail, and
the job is then claimed by nobody who could go on with it.  A crash takes all workers
away; before new ones start, every claimed job is made to wait again.

    waiting --claim--> claimed --try--> claimed, tried --settle--> done, dropped
       ^                                     |
       +------------- retry, requeue --------+

A retry counts as an attempt and is refused from the limit on.  So the tries of a job are
bounded by the limit and the crashes (`Job.tries_le`), whatever happens in which order.
-/
import Mathlib

/-- Where a job stands; `absent` before it is queued. -/
inductive Job.Phase where
  | absent
  | waiting
  | claimed
  | done
  | dropped
  deriving DecidableEq

/-- A job with its recorded attempts, whether a worker holds it and has tried it, and how
often it has been tried. -/
structure Job where
  phase : Job.Phase
  attempts : Int
  held : Option Bool
  tries : Nat

namespace Job

/-- What happens to a job between crashes; claims wait until the queue is `ready`. -/
inductive Step (limit : Int) (ready : Bool) : Job → Job → Prop
  | idle (j : Job) : Step limit ready j j
  | queue (a : Int) (n : Nat) : Step limit ready ⟨.absent, a, none, n⟩ ⟨.waiting, 0, none, n⟩
  | claim (a : Int) (n : Nat) : ready = true →
      Step limit ready ⟨.waiting, a, none, n⟩ ⟨.claimed, a, some false, n⟩
  | attempt (a : Int) (n : Nat) :
      Step limit ready ⟨.claimed, a, some false, n⟩ ⟨.claimed, a, some true, n + 1⟩
  | finish (a : Int) (n : Nat) :
      Step limit ready ⟨.claimed, a, some true, n⟩ ⟨.done, a, none, n⟩
  | drop (a a' : Int) (b : Bool) (n : Nat) :
      Step limit ready ⟨.claimed, a, some b, n⟩ ⟨.dropped, a', none, n⟩
  | retry (a : Int) (n : Nat) : a + 1 < limit →
      Step limit ready ⟨.claimed, a, some true, n⟩ ⟨.waiting, a + 1, none, n⟩
  /-- The worker goes on without having recorded the outcome. -/
  | lose (a : Int) (b : Bool) (n : Nat) :
      Step limit ready ⟨.claimed, a, some b, n⟩ ⟨.claimed, a, none, n⟩

/-- The job when all workers are gone. -/
def crash (j : Job) : Job := { j with held := none }

/-- The job when claimed jobs are made to wait again. -/
def requeue (j : Job) : Job := if j.phase = .claimed then { j with phase := .waiting } else j

/-- The account of a job after `crashes` crashes; `ready`: claimed jobs have been made to
wait again since the last one. -/
def Ok (limit : Int) (crashes : Nat) (ready : Bool) (j : Job) : Prop :=
  match j.phase with
  | .absent => j.held = none ∧ j.tries = 0
  | .waiting => j.held = none ∧ j.attempts < max 1 limit ∧ j.tries ≤ j.attempts + crashes
  | .claimed =>
      j.attempts < max 1 limit ∧ j.tries ≤ j.attempts + crashes + 1 ∧
        (j.held = some false ∨ ready = false → j.tries ≤ j.attempts + crashes) ∧
        (ready = false → j.held = none)
  | .done | .dropped => j.held = none ∧ j.tries ≤ max 1 limit + crashes

variable {limit : Int} {crashes : Nat} {ready : Bool} {j j' : Job}

theorem ok_step (h : Step limit ready j j') (hj : Ok limit crashes ready j) :
    Ok limit crashes ready j' := by
  cases h with
  | idle => exact hj
  | queue a n =>
      obtain ⟨-, hn⟩ := hj
      have hn' : n = 0 := hn
      refine ⟨rfl, ?_, ?_⟩
      · show (0 : Int) < max 1 limit
        omega
      · show (n : Int) ≤ 0 + crashes
        omega
  | claim a n hready =>
      obtain ⟨-, ha, hn⟩ := hj
      refine ⟨ha, Int.le_add_one hn, fun _ => hn, fun h0 => ?_⟩
      rw [hready] at h0
      cases h0
  | attempt a n =>
      obtain ⟨ha, -, hn, hready⟩ := hj
      have hn' : (n : Int) ≤ a + crashes := hn (Or.inl rfl)
      refine ⟨ha, by show ((n + 1 : Nat) : Int) ≤ a + crashes + 1; omega, ?_, ?_⟩
      · rintro (h0 | h0)
        · cases h0
        · cases hready h0
      · intro h0
        cases hready h0
  | finish a n =>
      obtain ⟨ha, hn, -, -⟩ := hj
      have ha' : a < max 1 limit := ha
      have hn' : (n : Int) ≤ a + crashes + 1 := hn
      exact ⟨rfl, by show (n : Int) ≤ max 1 limit + crashes; omega⟩
  | drop a a' b n =>
      obtain ⟨ha, hn, -, -⟩ := hj
      have ha' : a < max 1 limit := ha
      have hn' : (n : Int) ≤ a + crashes + 1 := hn
      exact ⟨rfl, by show (n : Int) ≤ max 1 limit + crashes; omega⟩
  | retry a n hlt =>
      obtain ⟨-, hn, -, -⟩ := hj
      have hn' : (n : Int) ≤ a + crashes + 1 := hn
      refine ⟨rfl, ?_, ?_⟩
      · show a + 1 < max 1 limit
        omega
      · show (n : Int) ≤ a + 1 + crashes
        omega
  | lose a b n =>
      obtain ⟨ha, hn, hn', hready⟩ := hj
      refine ⟨ha, hn, ?_, fun _ => rfl⟩
      rintro (h0 | h0)
      · cases h0
      · cases hready h0

/-- A crash pays for the try that was not recorded. -/
theorem ok_crash (hj : Ok limit crashes ready j) : Ok limit (crashes + 1) false j.crash := by
  obtain ⟨phase, a, held, n⟩ := j
  cases phase with
  | absent => exact ⟨rfl, hj.2⟩
  | waiting =>
      obtain ⟨-, ha, hn⟩ := hj
      have hn' : (n : Int) ≤ a + crashes := hn
      exact ⟨rfl, ha, by show (n : Int) ≤ a + (crashes + 1 : Nat); omega⟩
  | claimed =>
      obtain ⟨ha, hn, -, -⟩ := hj
      have hn' : (n : Int) ≤ a + (crashes + 1 : Nat) := by
        have hn0 : (n : Int) ≤ a + crashes + 1 := hn
        omega
      exact ⟨ha, Int.le_add_one hn', fun _ => hn', fun _ => rfl⟩
  | done | dropped =>
      obtain ⟨-, hn⟩ := hj
      have hn' : (n : Int) ≤ max 1 limit + crashes := hn
      exact ⟨rfl, by show (n : Int) ≤ max 1 limit + (crashes + 1 : Nat); omega⟩

theorem ok_requeue (hj : Ok limit crashes false j) : Ok limit crashes true j.requeue := by
  obtain ⟨phase, a, held, n⟩ := j
  cases phase with
  | claimed =>
      obtain ⟨ha, -, hn, hheld⟩ := hj
      exact ⟨hheld rfl, ha, hn (Or.inr rfl)⟩
  | absent | waiting | done | dropped => exact hj

/-- However often a job is claimed, lost and claimed again: it is tried at most as often as
the limit allows, and once more for each crash. -/
theorem tries_le (hj : Ok limit crashes ready j) : j.tries ≤ max 1 limit + crashes := by
  obtain ⟨phase, a, held, n⟩ := j
  show (n : Int) ≤ max 1 limit + crashes
  cases phase with
  | absent =>
      have hn : n = 0 := hj.2
      omega
  | waiting =>
      obtain ⟨-, ha, hn⟩ := hj
      have ha' : a < max 1 limit := ha
      have hn' : (n : Int) ≤ a + crashes := hn
      omega
  | claimed =>
      obtain ⟨ha, hn, -, -⟩ := hj
      have ha' : a < max 1 limit := ha
      have hn' : (n : Int) ≤ a + crashes + 1 := hn
      omega
  | done | dropped => exact hj.2

/-! ## What never changes back -/

/-- A queued job stays queued, and a settled one as it was settled. -/
def Phase.Keeps (p p' : Phase) : Prop :=
  (p ≠ .absent → p' ≠ .absent) ∧ (p = .done ∨ p = .dropped → p' = p)

theorem Phase.Keeps.refl (p : Phase) : Keeps p p := ⟨fun h => h, fun _ => rfl⟩

theorem Phase.Keeps.trans {p q r : Phase} (hpq : Keeps p q) (hqr : Keeps q r) : Keeps p r := by
  refine ⟨fun h => hqr.1 (hpq.1 h), fun h => ?_⟩
  have hq := hpq.2 h
  rw [← hq] at h
  exact (hqr.2 h).trans hq

theorem keeps_step (h : Step limit ready j j') : j.phase.Keeps j'.phase := by
  cases h with
  | idle => exact Phase.Keeps.refl _
  | queue => exact ⟨fun h0 => absurd rfl h0, fun h0 => by rcases h0 with h0 | h0 <;> cases h0⟩
  | claim | attempt | finish | drop | retry | lose =>
      exact ⟨fun _ => (nomatch ·), fun h0 => by rcases h0 with h0 | h0 <;> cases h0⟩

theorem keeps_requeue : j.phase.Keeps j.requeue.phase := by
  unfold requeue
  split
  · next hclaimed =>
      rw [hclaimed]
      exact ⟨fun _ => (nomatch ·), fun h0 => by rcases h0 with h0 | h0 <;> cases h0⟩
  · exact Phase.Keeps.refl _

end Job
