/-
# `Delivery.Wired` — the worker, on the network

The worker whose `send` is what the relay does (`wire`), answered by whatever the tables, the
disk and the peers are.  It keeps to a discipline (`WorkerPermits`): what it transmits is the
file of a message that it claimed, under the envelope of that message; it marks the message as
delivered right after a peer took it, and it schedules it again, or gives it up, only if none
did, with the error that the relay returned.

    marking a failed attempt                      (`scripted_markAttemptFailed`)
    delivering a message                          (`scripted_wiredDeliver`)
    a pass, message after message                 (`scripted_wiredPass`)
    marked as delivered is taken, exactly once    (`delivered_is_taken`)
-/
import Mathlib
import Weiterleitung.Delivery.Sending
import Weiterleitung.Delivery.Waiting

namespace Weiterleitung

open Prog Outbound

/-! ## The worker and its relay -/

/-- What an operation of the worker is on the wire. -/
def wire (relay : Relay) : ∀ o : Op, Prog (Op ⊕ NetOp) (Answers Res NetRes) (Res o)
  | .send _ envelopeFrom envelopeTo raw =>
      embed Sum.inr (fun _ r => r) (relay.send envelopeFrom envelopeTo raw).run
  | o => ask (.inl o) ret

abbrev WorkerTrail := Trail (Op ⊕ NetOp) (Answers Res NetRes)

/-- The message was handed out by a claim. -/
def Claimed (trail : WorkerTrail) (m : QueuedMessage) : Prop :=
  ∃ now messages, ⟨.inl (.claimDue now batchSize), .ok messages⟩ ∈ trail ∧ m ∈ messages

theorem Claimed.lasts {trail trail' : WorkerTrail} {m : QueuedMessage} (h : Claimed trail m)
    (hp : trail <+: trail') :
    Claimed trail' m := by
  obtain ⟨now, messages, he, hm⟩ := h
  exact ⟨now, messages, hp.subset he, hm⟩

/-- The message was claimed, its file was read, and since then only its relay did something. -/
def Underway (m : QueuedMessage) (raw : Bytes) (net : Trail NetOp NetRes)
    (trail : WorkerTrail) : Prop :=
  ∃ before, trail = before ++ [⟨.inl (.readFile m.rawPath), .ok raw⟩] ++ called net ∧
    Claimed before m

/-- What the relay returned for the message, by the answers it was given,
and by whom it was taken. -/
def Returned (relay : Relay) (m : QueuedMessage) (raw : Bytes) (net : Trail NetOp NetRes)
    (r : Except Str Unit) : Prop :=
  Replays (relay.send m.envelopeFrom m.envelopeTo raw).run net r ∧ Relay.Honest net r

def unread (path e : Str) : Str := "Failed to read ".toList ++ path ++ ": ".toList ++ e

/-- What the worker may ask for after a trail. -/
def WorkerPermits (relay : Relay) (trail : WorkerTrail) : Op ⊕ NetOp → Prop
  | .inr o => ∃ m raw net, Underway m raw net trail ∧
      relay.Permits m.envelopeFrom m.envelopeTo raw net o
  | .inl (.claimDue _ limit) => limit = batchSize
  | .inl (.readFile path) => ∃ m, Claimed trail m ∧ path = m.rawPath
  | .inl (.write (.markDelivered id _)) =>
      ∃ m raw net before now, id = m.messageId ∧ trail = before ++ [⟨.inl .now, now⟩] ∧
        Underway m raw net before ∧ Returned relay m raw net (.ok ())
  | .inl (.write (.markPending id _ error _)) =>
      ∃ m raw net before now, id = m.messageId ∧ trail = before ++ [⟨.inl .now, now⟩] ∧
        Underway m raw net before ∧ Returned relay m raw net (.error error)
  | .inl (.write (.markFailed id _ error)) =>
      ∃ m, id = m.messageId ∧
        ((∃ raw net, Underway m raw net trail ∧ Returned relay m raw net (.error error)) ∨
          ∃ before e, trail = before ++ [⟨.inl (.readFile m.rawPath), .error e⟩] ∧
            Claimed before m ∧ error = unread m.rawPath e)
  | .inl (.write (.requeueInterrupted _)) => ∃ now, trail = [⟨.inl .now, now⟩]
  | .inl .now => True
  | .inl _ => False

section
variable {relay : Relay} {maxAttempts : Int} {m : QueuedMessage} {trail : WorkerTrail}

theorem scripted_markAttemptFailed {attempts : Int} {error : Str}
    (hgive : ∀ attempts', WorkerPermits relay trail
      (.inl (.write (.markFailed m.messageId attempts' error))))
    (hretry : attempts + 1 < maxAttempts → ∀ now attempts' at_,
      WorkerPermits relay (trail ++ [⟨.inl .now, now⟩])
        (.inl (.write (.markPending m.messageId attempts' error at_)))) :
    Scripted (WorkerPermits relay) (fun _ t => trail <+: t)
      (expand (wire relay) (markAttemptFailed m.messageId attempts maxAttempts error).run)
      trail := by
  unfold markAttemptFailed
  split
  · exact List.prefix_refl _
  · by_cases hge : attempts + 1 ≥ maxAttempts
    · simp only [if_pos hge]
      exact ⟨hgive (attempts + 1), fun _ => List.prefix_append _ _⟩
    · simp only [if_neg hge]
      refine ⟨trivial, fun now => ⟨?_, fun _ => ?_⟩⟩
      · exact hretry (Int.lt_of_not_ge hge) now (attempts + 1)
          (now.addMinutes (backoff (attempts + 1))).toRfc3339
      exact (List.prefix_append _ _).trans (List.prefix_append _ _)

theorem scripted_wiredDeliver (hm : Claimed trail m) :
    Scripted (WorkerPermits relay) (fun _ t => trail <+: t)
    (expand (wire relay) (deliver m maxAttempts).run) trail := by
  refine ⟨⟨m, hm, rfl⟩, fun raw => ?_⟩
  cases raw with
  | error e =>
      let read : WorkerTrail := trail ++ [⟨.inl (.readFile m.rawPath), .error e⟩]
      have hmark := @scripted_markAttemptFailed relay maxAttempts m read maxAttempts
        (unread m.rawPath e) (fun _ => ⟨m, rfl, .inr ⟨trail, e, rfl, hm, rfl⟩⟩)
        (fun h => by omega)
      exact minds_imp (fun _ _ h => (List.prefix_append _ _).trans h) hmark
  | ok raw =>
      let read : WorkerTrail := trail ++ [⟨.inl (.readFile m.rawPath), .ok raw⟩]
      have hnet : ∀ net o, relay.Permits m.envelopeFrom m.envelopeTo raw net o →
          WorkerPermits relay (read ++ called net) (.inr o) :=
        fun net _ ho => ⟨m, raw, net, ⟨trail, rfl, hm⟩, ho⟩
      have hsend := scripted_calls hnet
        (scripted_replays (Relay.scripted_send relay m.envelopeFrom m.envelopeTo raw))
      rw [show read ++ called [] = read from List.append_nil read] at hsend
      refine minds_bind (p := wire relay (.send m.messageId m.envelopeFrom m.envelopeTo raw))
        ?_ hsend
      rintro sent t ⟨net, rfl, ⟨-, hhonest⟩, _, rfl, hreplays⟩
      have hreturned : Returned relay m raw net sent := ⟨hreplays, hhonest⟩
      have hunderway : Underway m raw net (read ++ called net) := ⟨trail, rfl, hm⟩
      have hlater : trail <+: read ++ called net :=
        (List.prefix_append _ _).trans (List.prefix_append _ _)
      cases sent with
      | ok u =>
          refine ⟨trivial,
            fun now => ⟨⟨m, raw, net, _, now, rfl, rfl, hunderway, hreturned⟩, fun _ => ?_⟩⟩
          exact hlater.trans ((List.prefix_append _ _).trans (List.prefix_append _ _))
      | error e =>
          have hmark := @scripted_markAttemptFailed relay maxAttempts m (read ++ called net)
            m.attempts e (fun _ => ⟨m, rfl, .inl ⟨raw, net, hunderway, hreturned⟩⟩)
            (fun _ now _ _ => ⟨m, raw, net, _, now, rfl, rfl, hunderway, hreturned⟩)
          exact minds_imp (fun _ _ h => hlater.trans h) hmark

theorem scripted_wiredDeliverAll (messages : List QueuedMessage) :
    ∀ trail : WorkerTrail, (∀ m ∈ messages, Claimed trail m) →
    Scripted (WorkerPermits relay)
      (fun _ _ => True) (expand (wire relay) (deliverAll maxAttempts messages).run) trail := by
  induction messages with
  | nil => exact fun _ _ => trivial
  | cons m messages ih =>
      intro trail hclaimed
      rw [deliverAll, run_lift_bind]
      refine scripted_expand (scripted_wiredDeliver (hclaimed m List.mem_cons_self))
        fun r t hlater => ?_
      have hrest := ih t fun m' hm' => (hclaimed m' (List.mem_cons_of_mem _ hm')).lasts hlater
      rcases r with (e | -) | -
      · exact hrest
      · exact trivial
      · exact hrest

theorem scripted_wiredPass (trail : WorkerTrail) :
    Scripted (WorkerPermits relay) (fun _ _ => True)
    (expand (wire relay) (drainOutbox maxAttempts).run) trail := by
  rw [drainOutbox_run]
  refine ⟨trivial, fun now => ⟨rfl, fun r => ?_⟩⟩
  cases r with
  | error e => trivial
  | ok messages =>
      refine scripted_expand (p := (deliverAll maxAttempts messages).run)
        (scripted_wiredDeliverAll messages _ ?_) fun _ _ _ => trivial
      exact fun m hm =>
        ⟨now.toRfc3339, messages, List.mem_append_right _ List.mem_cons_self, hm⟩

theorem scripted_wiredPasses (n : Nat) :
    ∀ trail : WorkerTrail, Scripted (WorkerPermits relay) (fun _ _ => True)
    (expand (wire relay) (passes maxAttempts n)) trail := by
  induction n with
  | zero => exact fun _ => trivial
  | succ n ih =>
      intro trail
      unfold passes
      refine scripted_expand (scripted_wiredPass trail) fun r t _ => ?_
      rcases r with (e | -) | k
      · exact scripted_expand (ih t) fun _ _ _ => trivial
      · trivial
      · exact scripted_expand (ih t) fun _ _ _ => trivial

theorem scripted_wiredWorker (relay : Relay) (maxAttempts : Int) (n : Nat) :
    Scripted (WorkerPermits relay) (fun _ _ => True)
    (expand (wire relay) (runDeliveryWorker maxAttempts n).run) [] := by
  refine ⟨trivial, fun now => ⟨⟨now, rfl⟩, fun r => ?_⟩⟩
  cases r with
  | error e => trivial
  | ok u =>
      exact scripted_expand (p := passes maxAttempts n) (scripted_wiredPasses n _)
        fun _ _ _ => trivial

end

/-- Whatever the tables, the disk and the peers answer, and however many passes it makes, the
worker keeps to the discipline: a message that it marks as delivered was taken by a peer, as
its file says and under its envelope, and by one only; a message that it schedules again, or
gives up, was taken by none. -/
theorem delivered_is_taken {σ : Type} (relay : Relay) (maxAttempts : Int) (n : Nat)
    (handler : Handler (Op ⊕ NetOp) (Answers Res NetRes) σ) (s : σ) :
    Orderly ⟨WorkerPermits relay, fun _ _ => True⟩
      (run (noting handler) (expand (wire relay) (runDeliveryWorker maxAttempts n).run)
        (s, [])).2.2 :=
  (orderly_scripted handler (scripted_wiredWorker relay maxAttempts n) orderly_nil).1

end Weiterleitung
