/-
# `Delivery.Inbox` — the rest of the process queues mail by `enqueue` only

A task outside the worker may ask for any inbound operation, but rows of the outbox and files
of the spool it makes by calling `enqueue` (`Mails`).  That is so of the router, whatever the
envelope (`mails_handle`), and passes through sequences (`mails_bind`).
-/
import Mathlib
import Weiterleitung.Smtp.Handle

namespace Weiterleitung

open Prog

/-- The inbound operations, but for those on outbox and spool. -/
def Elsewhere : Op → Prop
  | .write (.insertOutbox _) => False
  | .createDirAll _ | .writeFile _ _ | .readFile _ => False
  | o => Inbound o

/-- Outbox and spool are left to `enqueue`. -/
inductive Mails (mailDir : Str) {α : Type} : Prog Op Res α → Prop
  | ret (a : α) : Mails mailDir (.ret a)
  | ask (o : Op) (k : Res o → Prog Op Res α) : Elsewhere o → (∀ r, Mails mailDir (k r)) →
      Mails mailDir (.ask o k)
  | enqueue (message : NewOutboundMessage) (f : Except Str Str → Prog Op Res α) :
      (∀ r, Mails mailDir (f r)) → Mails mailDir ((enqueue mailDir message).run >>= f)

section
variable {mailDir : Str} {α β ε ε' : Type}

/-- What the router does aside from the queue. -/
theorem elsewhere_of_aside {settings : AliasSettings} : ∀ o, Aside settings o → Elsewhere o
  | .uuid, _ | .now, _ | .sample _, _ | .findAliasByAddress _, _ | .findContact _ _, _ =>
      trivial
  | .findContactByReverseAlias _, _ => trivial
  | .write (.recordAliasActivity _ _ _), _ | .write (.insertContact _), _ => trivial

theorem mails_of_uses : ∀ {p : Prog Op Res α}, Uses Elsewhere p → Mails mailDir p
  | .ret a, _ => .ret a
  | .ask o k, h => .ask o k h.1 fun r => mails_of_uses (h.2 r)

/-- What every `enqueue` keeps to, and the rest does not touch. -/
theorem keeps_of_mails {μ : Type} {next : μ → (o : Op) → Res o → μ} {ok : μ → Op → Prop}
    (helse : ∀ m o, Elsewhere o → ok m o)
    (henqueue : ∀ m message, Keeps next ok m (enqueue mailDir message).run) {p : Prog Op Res α}
    {m : μ} (h : Mails mailDir p) : Keeps next ok m p := by
  induction h generalizing m with
  | ret a => trivial
  | ask o k ho _ ih => exact ⟨helse m o ho, fun r => ih r⟩
  | enqueue message f _ ih => exact keeps_bind (fun m r => ih r) (henqueue m message)

theorem mails_bind {p : Prog Op Res α} {f : α → Prog Op Res β} (hp : Mails mailDir p)
    (hf : ∀ a, Mails mailDir (f a)) : Mails mailDir (p >>= f) := by
  induction hp with
  | ret a => exact hf a
  | ask o k ho _ ih => exact .ask o _ ho ih
  | enqueue message g _ ih =>
      rw [bind_assoc]
      exact .enqueue message _ ih

theorem mails_seq {x : Fallible ε Op Res α} {f : α → Fallible ε Op Res β}
    (hx : Mails mailDir x.run) (hf : ∀ a, Mails mailDir (f a).run) :
    Mails mailDir (x >>= f).run :=
  mails_bind hx fun r => by
    cases r with
    | ok a => exact hf a
    | error e => exact .ret _

theorem mails_mapErr {f : ε → ε'} {x : Fallible ε Op Res α} (hx : Mails mailDir x.run) :
    Mails mailDir (mapErr f x).run :=
  mails_bind hx fun _ => .ret _

theorem mails_enqueue (message : NewOutboundMessage) :
    Mails mailDir (enqueue mailDir message).run := by
  have h : Mails mailDir ((enqueue mailDir message).run >>= Prog.ret) :=
    .enqueue message _ fun r => .ret r
  rwa [bind_ret] at h

end

namespace AliasRouter

variable (router : AliasRouter)

theorem mails_queueForward (aliasId aliasAddress : Str) (envelope : Envelope) :
    Mails router.mailDir (router.queueForward aliasId aliasAddress envelope).run := by
  unfold queueForward
  refine mails_seq (.ret _) fun address => ?_
  refine mails_seq
    (mails_of_uses
      (uses_mono (show ∀ o, Aside router.aliases o → Elsewhere o from elsewhere_of_aside)
    (uses_findAliasByAddress _))) fun found => ?_
  cases found with
  | none => exact .ret _
  | some found =>
      refine mails_seq (.ret _) fun sender => ?_
      refine mails_seq
        (mails_of_uses (uses_mono elsewhere_of_aside (uses_getOrCreateContact _ _ _ _)))
        fun c => ?_
      exact mails_seq (mails_enqueue _) fun _ => .ret _

theorem mails_queueReply (contactId aliasAddress contactEmail : Str) (envelope : Envelope) :
    Mails router.mailDir
      (router.queueReply contactId aliasAddress contactEmail envelope).run := by
  unfold queueReply
  refine mails_seq (.ret _) fun address => ?_
  refine mails_seq
    (mails_of_uses
      (uses_mono (show ∀ o, Aside router.aliases o → Elsewhere o from elsewhere_of_aside)
    (uses_findAliasByAddress _))) fun found => ?_
  exact mails_seq (mails_enqueue _) fun _ => .ret _

theorem elsewhere_recordAliasActivity (aliasId : Str) (counter : AliasCounter) :
    Uses Elsewhere (recordAliasActivity aliasId counter).run :=
  ⟨trivial, fun _ => ⟨trivial, fun _ => trivial⟩⟩

theorem mails_handleRecipient (envelope : Envelope) (recipient : Str) :
    Mails router.mailDir (router.handleRecipient envelope recipient).run := by
  unfold handleRecipient
  refine mails_seq
    (mails_mapErr (mails_of_uses (uses_mono elsewhere_of_aside (uses_route _ _ _))))
    fun r => ?_
  cases r with
  | forward aliasId aliasAddress =>
      refine mails_mapErr (mails_seq (mails_queueForward router _ _ _) fun _ => ?_)
      exact mails_of_uses (elsewhere_recordAliasActivity _ _)
  | reply contactId aliasAddress contactEmail =>
      refine mails_mapErr (mails_seq (mails_queueReply router _ _ _ _) fun found => ?_)
      cases found with
      | none => exact .ret _
      | some aliasId => exact mails_of_uses (elsewhere_recordAliasActivity _ _)

theorem mails_handleAll (envelope : Envelope) : ∀ recipients : List Str,
    Mails router.mailDir (router.handleAll envelope recipients).run
  | [] => .ret _
  | _ :: recipients =>
      mails_seq (mails_handleRecipient router _ _) fun _ => mails_handleAll envelope recipients

/-- Handling mail queues it by `enqueue`. -/
theorem mails_handle (envelope : Envelope) :
    Mails router.mailDir (router.handle envelope).run :=
  mails_handleAll router envelope envelope.rcptTo

end AliasRouter

end Weiterleitung
