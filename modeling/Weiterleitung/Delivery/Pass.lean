/-
# `Delivery.Pass` — a pass of the worker keeps to a protocol

What a pass may still do is a property of its program: `Follows held p` reads the program
as a protocol over the messages it holds.  It claims only with empty hands, sends a message
it has not sent, marks a message it has sent (or could not read) and lets go of it.

    claim      held = []                    -->  the claimed messages, unsent
    send m     held = (m, unsent) :: rest   -->  (m, sent) :: rest
    mark m     held = (m, _) :: rest        -->  rest

    a pass follows the protocol             (`follows_passOf`)
    what a program may still send or mark
      is among what it holds                (`mem_held_of_holds`)
-/
import Mathlib
import Weiterleitung.Delivery.Worker
import Weiterleitung.Store.Frame

namespace Weiterleitung

open Prog

/-! ## Programs that run side by side -/

/-- The operations of everything but the worker.  Only new rows enter the outbox. -/
def Inbound : Op → Prop
  | .claimDue _ _ => False
  | .send _ _ _ _ => False
  | .write (.requeueInterrupted _) => False
  | .write (.markDelivered _ _) => False
  | .write (.markFailed _ _ _) => False
  | .write (.markPending _ _ _ _) => False
  | .write (.insertOutbox row) => row.status = .pending ∧ row.attempts = 0
  | _ => True

/-- The router is among it. -/
theorem inbound_of_routing (settings : AliasSettings) : ∀ o, Routing settings o → Inbound o
  | .write (.recordAliasActivity _ _ _), _ | .write (.insertContact _), _ => trivial
  | .write (.insertOutbox _), hrow => hrow
  | .uuid, _ | .now, _ | .sample _, _ | .findAliasByAddress _, _ | .findContact _ _, _ =>
      trivial
  | .findContactByReverseAlias _, _ | .createDirAll _, _ | .writeFile _ _, _
  | .readFile _, _ => trivial

abbrev Task := Prog Op Res Unit

/-- A pass whose result nobody waits for. -/
def passOf (maxAttempts : Int) : Task := (drainOutbox maxAttempts).run >>= fun _ => .ret ()

/-- Does the operation send or mark the message? -/
def Touches (messageId : Str) : Op → Prop
  | .send id _ _ _ => id = messageId
  | .write (.markDelivered id _) => id = messageId
  | .write (.markFailed id _ _) => id = messageId
  | .write (.markPending id _ _ _) => id = messageId
  | _ => False

def Claims : Op → Prop
  | .claimDue _ _ => True
  | _ => False

/-- May the program, without claiming again, still send or mark the message? -/
def Holds {α : Type} (messageId : Str) : Prog Op Res α → Prop
  | .ret _ => False
  | .ask o k => Touches messageId o ∨ ¬ Claims o ∧ ∃ r, Holds messageId (k r)

/-! ## The operations of a pass -/

/-- The operations of delivering a message. -/
def Delivering (messageId : Str) : Op → Prop
  | .now | .readFile _ => True
  | o => Touches messageId o

/-- And the claim. -/
def Working (o : Op) : Prop := Claims o ∨ ∃ messageId, Delivering messageId o

section
variable {maxAttempts : Int}

theorem delivering_markAttemptFailed (messageId : Str) (attempts : Int) (error : Str) :
    Uses (Delivering messageId)
      (markAttemptFailed messageId attempts maxAttempts error).run := by
  unfold markAttemptFailed
  split
  · trivial
  · by_cases hge : attempts + 1 ≥ maxAttempts
    · simp only [if_pos hge]
      exact ⟨rfl, fun _ => trivial⟩
    · simp only [if_neg hge]
      exact ⟨trivial, fun _ => ⟨rfl, fun _ => trivial⟩⟩

theorem delivering_deliver (m : QueuedMessage) :
    Uses (Delivering m.messageId) (deliver m maxAttempts).run := by
  refine ⟨trivial, fun raw => ?_⟩
  cases raw with
  | error e => exact delivering_markAttemptFailed _ _ _
  | ok raw =>
      refine ⟨rfl, fun sent => ?_⟩
      cases sent with
      | ok u => exact ⟨trivial, fun _ => ⟨rfl, fun _ => trivial⟩⟩
      | error e => exact delivering_markAttemptFailed _ _ _

theorem uses_deliverAll {P : Op → Prop} : ∀ {messages : List QueuedMessage},
    (∀ m ∈ messages, ∀ o, Delivering m.messageId o → P o) →
    Uses P (deliverAll maxAttempts messages).run
  | [], _ => trivial
  | m :: messages, h => by
      rw [deliverAll, run_lift_bind]
      refine uses_bind (uses_mono (h m List.mem_cons_self) (delivering_deliver m)) fun r => ?_
      have hrest := uses_deliverAll fun m' hm' => h m' (List.mem_cons_of_mem m hm')
      rcases r with (e | -) | -
      · exact hrest
      · trivial
      · exact hrest

theorem working_passOf : Uses Working (passOf maxAttempts) := by
  refine uses_bind (uses_seq (uses_mapErr ?_) fun messages => ?_) fun _ => trivial
  · exact ⟨Or.inr ⟨[], trivial⟩, fun _ => ⟨Or.inl trivial, fun _ => trivial⟩⟩
  · refine uses_seq (uses_deliverAll fun m _ o ho => Or.inr ⟨m.messageId, ho⟩) fun _ => trivial

end

/-! ## The protocol of a pass -/

/-- The messages a task holds, each with whether it has been sent. -/
abbrev Held := List (QueuedMessage × Bool)

/-- The messages of a claim, none of them sent. -/
def claimedNow : Except Str (List QueuedMessage) → Held
  | .ok messages => messages.map fun m => (m, false)
  | .error _ => []

/-- The rule for one operation: what must be held for it, and what is held after. -/
def Rule (maxAttempts : Int) (held : Held) : (o : Op) → (Res o → Held → Prop) → Prop
  | .claimDue _ _, next => held = [] ∧ ∀ r, next r (claimedNow r)
  | .send id _ _ _, next =>
      ∃ m rest, held = (m, false) :: rest ∧ id = m.messageId ∧ ∀ r, next r ((m, true) :: rest)
  | .write (.markDelivered id _), next =>
      ∃ m rest, held = (m, true) :: rest ∧ id = m.messageId ∧ ∀ r, next r rest
  | .write (.markFailed id _ _), next =>
      ∃ m sent rest, held = (m, sent) :: rest ∧ id = m.messageId ∧ ∀ r, next r rest
  | .write (.markPending id attempts _ _), next =>
      ∃ m rest, held = (m, true) :: rest ∧ id = m.messageId ∧ attempts = m.attempts + 1 ∧
        attempts < maxAttempts ∧ ∀ r, next r rest
  | o, next => Inbound o ∧ ∀ r, next r held

/-- The program keeps to the rules, given what it holds. -/
def Follows {α : Type} (maxAttempts : Int) : Held → Prog Op Res α → Prop
  | _, .ret _ => True
  | held, .ask o k => Rule maxAttempts held o fun r held' => Follows maxAttempts held' (k r)

section
variable {α β : Type} {maxAttempts : Int}

theorem rule_inbound {held : Held} {o : Op} (h : Inbound o) {next : Res o → Held → Prop}
    (hnext : ∀ r, next r held) : Rule maxAttempts held o next := by
  cases o with
  | claimDue | send => exact h.elim
  | write u =>
      cases u with
      | requeueInterrupted | markDelivered | markFailed | markPending => exact h.elim
      | _ => exact ⟨h, hnext⟩
  | _ => exact ⟨trivial, hnext⟩

/-- The rest of the process holds nothing. -/
theorem follows_of_uses : ∀ {p : Prog Op Res α}, Uses Inbound p → Follows maxAttempts [] p
  | .ret _, _ => trivial
  | .ask _ _, h => rule_inbound h.1 fun r => follows_of_uses (h.2 r)

/-- An operation touches what is held. -/
theorem mem_held_of_touches {held : Held} {o : Op} {next : Res o → Held → Prop} {id : Str}
    (h : Rule maxAttempts held o next) (ht : Touches id o) :
    ∃ e ∈ held, e.1.messageId = id := by
  cases o with
  | send =>
      obtain ⟨m, rest, rfl, hid, -⟩ := h
      exact ⟨_, List.mem_cons_self, hid.symm.trans ht⟩
  | write u =>
      cases u with
      | markDelivered =>
          obtain ⟨m, rest, rfl, hid, -⟩ := h
          exact ⟨_, List.mem_cons_self, hid.symm.trans ht⟩
      | markFailed =>
          obtain ⟨m, sent, rest, rfl, hid, -⟩ := h
          exact ⟨_, List.mem_cons_self, hid.symm.trans ht⟩
      | markPending =>
          obtain ⟨m, rest, rfl, hid, -⟩ := h
          exact ⟨_, List.mem_cons_self, hid.symm.trans ht⟩
      | _ => exact ht.elim
  | _ => exact ht.elim

/-- Only a claim adds to what is held. -/
theorem rule_next {held : Held} {o : Op} {next : Res o → Held → Prop}
    (h : Rule maxAttempts held o next) (hc : ¬ Claims o) (r : Res o) :
    ∃ held', next r held' ∧ ∀ e ∈ held', ∃ e' ∈ held, e'.1.messageId = e.1.messageId := by
  have htail : ∀ {e₀ : QueuedMessage × Bool} {rest : Held}, ∀ e ∈ rest,
      ∃ e' ∈ e₀ :: rest, e'.1.messageId = e.1.messageId :=
    fun e he => ⟨e, List.mem_cons_of_mem _ he, rfl⟩
  cases o with
  | claimDue => exact absurd trivial hc
  | send =>
      obtain ⟨m, rest, rfl, -, hnext⟩ := h
      refine ⟨_, hnext r, fun e he => ?_⟩
      rcases List.mem_cons.mp he with rfl | he
      · exact ⟨_, List.mem_cons_self, rfl⟩
      · exact htail e he
  | write u =>
      cases u with
      | markDelivered =>
          obtain ⟨m, rest, rfl, -, hnext⟩ := h
          exact ⟨rest, hnext r, htail⟩
      | markFailed =>
          obtain ⟨m, sent, rest, rfl, -, hnext⟩ := h
          exact ⟨rest, hnext r, htail⟩
      | markPending =>
          obtain ⟨m, rest, rfl, -, -, -, hnext⟩ := h
          exact ⟨rest, hnext r, htail⟩
      | _ => exact ⟨held, h.2 r, fun e he => ⟨e, he, rfl⟩⟩
  | _ => exact ⟨held, h.2 r, fun e he => ⟨e, he, rfl⟩⟩

/-- What a program may still touch is among what it holds. -/
theorem mem_held_of_holds {id : Str} : ∀ {p : Prog Op Res α} {held : Held},
    Follows maxAttempts held p → Holds id p → ∃ e ∈ held, e.1.messageId = id
  | .ret _, _, _, h => h.elim
  | .ask o k, held, hf, h => by
      rcases h with htouch | ⟨hclaim, r, hr⟩
      · exact mem_held_of_touches hf htouch
      · obtain ⟨held', hnext, hsub⟩ := rule_next hf hclaim r
        obtain ⟨e, he, rfl⟩ := mem_held_of_holds hnext hr
        exact hsub e he

/-! ## A pass follows the rules -/

/-- Marking a failed attempt lets go of the message, unless it panics. -/
theorem follows_markAttemptFailed {m : QueuedMessage} {sent : Bool} {rest : Held}
    {attempts : Int} {error : Str} {k : Except Failure Unit → Prog Op Res β}
    (hretry : attempts + 1 < maxAttempts → sent = true ∧ attempts = m.attempts)
    (hpanic : Follows maxAttempts ((m, sent) :: rest) (k (.error .overflow)))
    (hnext : ∀ r, Follows maxAttempts rest (k r)) :
    Follows maxAttempts ((m, sent) :: rest)
      ((markAttemptFailed m.messageId attempts maxAttempts error).run >>= k) := by
  unfold markAttemptFailed
  split
  · exact hpanic
  · by_cases hge : attempts + 1 ≥ maxAttempts
    · simp only [if_pos hge]
      exact ⟨m, sent, rest, rfl, rfl, fun r => hnext _⟩
    · obtain ⟨rfl, rfl⟩ := hretry (Int.lt_of_not_ge hge)
      simp only [if_neg hge]
      exact ⟨trivial,
        fun now => ⟨m, rest, rfl, rfl, rfl, Int.lt_of_not_ge hge, fun r => hnext _⟩⟩

theorem follows_deliver {m : QueuedMessage} {rest : Held}
    {k : Except Failure Unit → Prog Op Res β}
    (hpanic : ∀ held, Follows maxAttempts held (k (.error .overflow)))
    (hnext : ∀ r, Follows maxAttempts rest (k r)) :
    Follows maxAttempts ((m, false) :: rest) ((deliver m maxAttempts).run >>= k) := by
  refine ⟨trivial, fun raw => ?_⟩
  cases raw with
  | error e =>
      exact follows_markAttemptFailed (fun h => absurd h (by omega)) (hpanic _) hnext
  | ok raw =>
      refine ⟨m, rest, rfl, rfl, fun sent => ?_⟩
      cases sent with
      | ok u => exact ⟨trivial, fun now => ⟨m, rest, rfl, rfl, fun r => hnext _⟩⟩
      | error e => exact follows_markAttemptFailed (fun _ => ⟨rfl, rfl⟩) (hpanic _) hnext

theorem follows_deliverAll {k : Except Failure Unit → Prog Op Res β}
    (hk : ∀ held r, Follows maxAttempts held (k r)) : ∀ messages : List QueuedMessage,
    Follows maxAttempts (messages.map fun m => (m, false))
      ((deliverAll maxAttempts messages).run >>= k)
  | [] => hk _ _
  | m :: messages => by
      have ih := follows_deliverAll hk messages
      rw [deliverAll, run_lift_bind, bind_assoc]
      refine follows_deliver (fun held => hk held _) fun r => ?_
      rcases r with (e | -) | -
      · exact ih
      · exact hk _ _
      · exact ih

/-- A pass over the outbox starts and ends with empty hands. -/
theorem follows_passOf : Follows maxAttempts [] (passOf maxAttempts) := by
  refine ⟨trivial, fun now => ⟨rfl, fun r => ?_⟩⟩
  cases r with
  | error e => trivial
  | ok messages =>
      show Follows maxAttempts (messages.map fun m => (m, false))
        ((deliverAll maxAttempts messages).run >>= ExceptT.bindCont
          (fun _ => (pure messages.length : Fallible Failure Op Res Nat)) >>= fun _ => .ret ())
      rw [bind_assoc]
      refine follows_deliverAll (fun held r => ?_) messages
      cases r with
      | ok u => trivial
      | error e => trivial

end

end Weiterleitung
