/-
# `Delivery.Worker` — one pass over the outbox

`drain_outbox` claims what is due and delivers it, one message after the other.  Errors of
one delivery are reported and the pass goes on; a panic ends the pass.
-/
import Mathlib
import Weiterleitung.Delivery.Queue

namespace Weiterleitung

open Text Prog

def batchSize : Int := 10

/-- `Relay::send`. -/
def Relay.send (message : QueuedMessage) (raw : Bytes) : App Unit :=
  ExceptT.mk (op (Op.send message.messageId message.envelopeFrom message.envelopeTo raw))

/-- Delivers one claimed message. -/
def deliver (message : QueuedMessage) (maxAttempts : Int) : Fallible Failure Op Res Unit := do
  match ← ExceptT.lift (readFile message.rawPath).run with
  | .error e =>
      -- The spool file is gone; retrying cannot help.
      markAttemptFailed message.messageId maxAttempts maxAttempts
        ("Failed to read ".toList ++ message.rawPath ++ ": ".toList ++ e)
  | .ok raw =>
      match ← ExceptT.lift (Relay.send message raw).run with
      | .ok () => mapErr .error (markDelivered message.messageId)
      | .error e => markAttemptFailed message.messageId message.attempts maxAttempts e

/-- The loop of `drain_outbox`. -/
def deliverAll (maxAttempts : Int) : List QueuedMessage → Fallible Failure Op Res Unit
  | [] => return ()
  | message :: messages => do
      match ← ExceptT.lift (deliver message maxAttempts).run with
      | .error .overflow => throw .overflow
      | .error (.error _) | .ok () => deliverAll maxAttempts messages

/-- Delivers every message that is due right now and reports how many were claimed. -/
def drainOutbox (maxAttempts : Int) : Fallible Failure Op Res Nat := do
  let messages ← mapErr .error (claimDue batchSize)
  deliverAll maxAttempts messages
  return messages.length

end Weiterleitung
