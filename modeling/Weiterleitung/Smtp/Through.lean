/-
# `Smtp.Through` — what leaves is what came in, rewritten

A call of the router writes a file and then a row; a pass claims the row, reads the file and
gives it to the relay, perhaps after a restart.  Whatever else happens in between, the relay is
given, under the addresses of the row, the bytes that were written for it:

    rows are inserted for what was written, and what was read
      is sent as it was claimed                           (`traced_handleAll`, `traced_passOf`)
    what is said of each message when it is queued, is true
      of it when it is sent                               (`traced_step`, `traced_run`)
    what is sent is an envelope that was handed over, rewritten
      with the addresses that it is sent under            (`sends_what_came`)
-/
import Mathlib
import Weiterleitung.Delivery.Files
import Weiterleitung.Lib.Memory
import Weiterleitung.Smtp.Acknowledged

namespace Weiterleitung

open Text Prog

/-! ## What a task has in hand -/

/-- The messages that were claimed, and the file that was read last. -/
structure Reading where
  claimed : List QueuedMessage
  read : Option (Str × Bytes)

def Reading.next (r : Reading) : (o : Op) → Res o → Reading
  | .claimDue _ _, .ok messages => ⟨messages, none⟩
  | .readFile path, .ok raw => ⟨r.claimed, some (path, raw)⟩
  | _, _ => r

def Reading.blank : Reading := ⟨[], none⟩

/-- Rows are inserted for files that were written, with bytes that are `right` for their
addresses; what is sent is a claimed message, as its file was read. -/
def tracing (right : Str → Str → Bytes → Prop) : Memory Op Res (Draft × Reading) where
  next m o r := (m.1.next o r, m.2.next o r)
  ok m
    | .write (.insertOutbox row) =>
        ∀ raw, m.1 = .written row.messageId raw → right row.envelopeFrom row.envelopeTo raw
    | .readFile path => ∃ q ∈ m.2.claimed, path = q.rawPath
    | .send messageId envelopeFrom envelopeTo raw =>
        ∃ q ∈ m.2.claimed, messageId = q.messageId ∧
            envelopeFrom = q.envelopeFrom ∧ envelopeTo = q.envelopeTo ∧
            m.2.read = some (q.rawPath, raw)
    | _ => True

/-- A task that minds what it has in hand. -/
def Traced {α : Type} (right : Str → Str → Bytes → Prop) (p : Prog Op Res α)
    (m : Draft × Reading) : Prop :=
  Minds (tracing right) (fun _ _ => True) p m

section
variable {right : Str → Str → Bytes → Prop} {α : Type} {m : Draft × Reading}

/-- What has to do with neither files nor rows. -/
theorem traced_of_elsewhere {p : Prog Op Res α} (hp : Uses Elsewhere p) :
    Heeds (tracing right) p := by
  refine heeds_of_uses (fun m o ho => ?_) hp
  cases o with
  | readFile | send => exact ho.elim
  | write u =>
      cases u with
      | insertOutbox => exact ho.elim
      | _ => trivial
  | _ => trivial

theorem traced_enqueue (mailDir : Str) (message : NewOutboundMessage)
    (hright : right message.envelopeFrom message.envelopeTo message.raw) :
    Heeds (tracing right) (enqueue mailDir message).run := by
  intro m
  refine ⟨trivial, fun dir => ?_⟩
  cases dir with
  | error e => exact trivial
  | ok u =>
      refine ⟨trivial, fun messageId => ⟨trivial, fun file => ?_⟩⟩
      cases file with
      | error e => exact trivial
      | ok u =>
          refine ⟨trivial, fun now => ⟨fun raw hwritten => ?_, fun row => ?_⟩⟩
          · -- the file was written under the identifier that was drawn before it
            have hraw : raw = message.raw := by
              obtain ⟨draft, reading⟩ := m
              cases draft <;> cases hwritten <;> rfl
            rw [hraw]
            exact hright
          · cases row <;> exact trivial

/-! ### The worker -/

/-- The operations of delivering a message that have to do with neither files nor the relay. -/
def Marking : Op → Prop
  | .now | .write (.markDelivered _ _) | .write (.markFailed _ _ _)
  | .write (.markPending _ _ _ _) => True
  | _ => False

theorem marking_ok {claimed : List QueuedMessage} (m : Draft × Reading) (o : Op)
    (hm : m.2.claimed = claimed) (ho : Marking o) :
    (tracing right).ok m o ∧ ∀ r, ((tracing right).next m o r).2.claimed = claimed := by
  cases o with
  | now => exact ⟨trivial, fun _ => hm⟩
  | write u =>
      cases u with
      | markDelivered | markFailed | markPending => exact ⟨trivial, fun _ => hm⟩
      | _ => exact ho.elim
  | _ => exact ho.elim

theorem marking_markAttemptFailed (messageId : Str) (attempts maxAttempts : Int)
    (error : Str) :
    Uses Marking (markAttemptFailed messageId attempts maxAttempts error).run := by
  unfold markAttemptFailed
  split
  · trivial
  · by_cases hge : attempts + 1 ≥ maxAttempts
    · simp only [if_pos hge]
      exact ⟨trivial, fun _ => trivial⟩
    · simp only [if_neg hge]
      exact ⟨trivial, fun _ => ⟨trivial, fun _ => trivial⟩⟩

/-- Delivering a claimed message sends it as its file was read. -/
theorem minds_deliver {q : QueuedMessage} {maxAttempts : Int} (hq : q ∈ m.2.claimed) :
    Minds (tracing right) (fun _ n => n.2.claimed = m.2.claimed)
      (deliver q maxAttempts).run m := by
  refine ⟨⟨q, hq, rfl⟩, fun raw => ?_⟩
  cases raw with
  | error e => exact minds_of_uses marking_ok (marking_markAttemptFailed _ _ _ _) rfl
  | ok raw =>
      refine ⟨⟨q, hq, rfl, rfl, rfl, rfl⟩, fun sent => ?_⟩
      cases sent with
      | ok u =>
          exact minds_of_uses marking_ok ⟨trivial, fun _ => ⟨trivial, fun _ => trivial⟩⟩ rfl
      | error e => exact minds_of_uses marking_ok (marking_markAttemptFailed _ _ _ _) rfl

theorem traced_deliverAll (maxAttempts : Int) (messages : List QueuedMessage) :
    ∀ m : Draft × Reading, messages ⊆ m.2.claimed →
      Traced right (deliverAll maxAttempts messages).run m := by
  induction messages with
  | nil => exact fun m _ => trivial
  | cons q messages ih =>
      intro m hclaimed
      rw [deliverAll, run_lift_bind]
      refine minds_bind (fun r n hn => ?_) (minds_deliver (hclaimed List.mem_cons_self))
      have hrest := ih n (hn ▸ fun q hq => hclaimed (List.mem_cons_of_mem _ hq))
      rcases r with (e | -) | -
      · exact hrest
      · exact trivial
      · exact hrest

theorem traced_passOf (maxAttempts : Int) : Heeds (tracing right) (passOf maxAttempts) := by
  intro m
  refine ⟨trivial, fun now => ⟨trivial, fun claimed => ?_⟩⟩
  cases claimed with
  | error e => exact trivial
  | ok messages =>
      show Traced right ((deliverAll maxAttempts messages).run >>= ExceptT.bindCont
        (fun _ => (pure messages.length : Fallible Failure Op Res Nat)) >>= fun _ => .ret ()) _
      rw [bind_assoc]
      refine minds_bind
        (fun r n _ => ?_) (traced_deliverAll maxAttempts messages _ fun _ h => h)
      cases r <;> exact trivial

end

/-! ### The router -/

/-- The envelope, rewritten for the addresses that it is sent under. -/
inductive Carries (envelope : Envelope) : Str → Str → Bytes → Prop
  | forward (params : ForwardRewrite) (envelopeTo : Str) (sender : EmailAddress) :
      envelopeSender envelope.mailFrom (headerValue (splitHeadersBody envelope.data).1 "from")
        = .ok sender →
      params.senderEmail = sender.toString →
      params.senderName = (headerValue (splitHeadersBody envelope.data).1 "from").bind
        displayName →
      Carries envelope params.reverseAlias envelopeTo (rewriteForForward envelope.data params)
  | reply (params : ReplyRewrite) :
      Carries envelope params.aliasAddress params.contactEmail
        (rewriteForReply envelope.data params)

namespace AliasRouter

variable (router : AliasRouter) {right : Str → Str → Bytes → Prop}

theorem traced_aside {ε α : Type} {x : Fallible ε Op Res α}
    (hx : Uses (Aside router.aliases) x.run) :
    Heeds (tracing right) x.run :=
  traced_of_elsewhere (uses_mono elsewhere_of_aside hx)

theorem traced_queueForward (aliasId aliasAddress : Str) (envelope : Envelope)
    (hright : ∀ sender receiver raw, Carries envelope sender receiver raw →
      right sender receiver raw) :
    Heeds (tracing right) (router.queueForward aliasId aliasAddress envelope).run := by
  unfold queueForward
  refine heeds_computed fun address _ =>
    heeds_seq (router.traced_aside (uses_findAliasByAddress _)) fun found => ?_
  cases found with
  | none => exact fun _ => trivial
  | some found =>
      refine heeds_computed fun sender hsender => ?_
      refine heeds_seq (router.traced_aside (uses_getOrCreateContact router.aliases _ _ _))
        fun contact => ?_
      refine heeds_seq (traced_enqueue _ _ (hright _ _ _ ?_)) fun _ _ => trivial
      let params : ForwardRewrite :=
        { aliasAddress := aliasAddress, reverseAlias := contact.reverseAlias,
          senderName :=
            (headerValue (splitHeadersBody envelope.data).1 "from").bind displayName,
          senderEmail := sender.toString }
      exact .forward params _ sender hsender rfl rfl

theorem traced_queueReply (contactId aliasAddress contactEmail : Str) (envelope : Envelope)
    (hright : ∀ sender receiver raw, Carries envelope sender receiver raw →
      right sender receiver raw) :
    Heeds (tracing right)
      (router.queueReply contactId aliasAddress contactEmail envelope).run := by
  unfold queueReply
  refine heeds_computed fun address _ =>
    heeds_seq (router.traced_aside (uses_findAliasByAddress _)) fun found => ?_
  exact heeds_seq (traced_enqueue _ _ (hright _ _ _ (.reply ⟨aliasAddress, contactEmail⟩)))
    fun _ _ => trivial

theorem traced_handleRecipient (envelope : Envelope) (recipient : Str)
    (hright : ∀ sender receiver raw, Carries envelope sender receiver raw →
      right sender receiver raw) :
    Heeds (tracing right) (router.handleRecipient envelope recipient).run := by
  unfold handleRecipient
  refine heeds_seq (heeds_mapErr (router.traced_aside (uses_route _ _ _))) fun route => ?_
  cases route with
  | forward aliasId aliasAddress =>
      refine heeds_mapErr (heeds_seq (router.traced_queueForward _ _ _ hright) fun _ => ?_)
      exact traced_of_elsewhere (elsewhere_recordAliasActivity _ _)
  | reply contactId aliasAddress contactEmail =>
      refine heeds_mapErr (heeds_seq (router.traced_queueReply _ _ _ _ hright) fun found => ?_)
      cases found with
      | none => exact fun _ => trivial
      | some aliasId => exact traced_of_elsewhere (elsewhere_recordAliasActivity _ _)

theorem traced_handleAll (envelope : Envelope) (recipients : List Str)
    (hright : ∀ sender receiver raw, Carries envelope sender receiver raw →
      right sender receiver raw) :
    Heeds (tracing right) (router.handleAll envelope recipients).run := by
  induction recipients with
  | nil => exact fun _ => trivial
  | cons recipient recipients ih =>
      exact heeds_seq (router.traced_handleRecipient envelope recipient hright) fun _ => ih

end AliasRouter

/-! ## Claims, files and rows -/

/-- The row of a claimed message. -/
structure Backs (row : OutboxRow) (q : QueuedMessage) : Prop where
  messageId : q.messageId = row.messageId
  envelopeFrom : q.envelopeFrom = row.envelopeFrom
  envelopeTo : q.envelopeTo = row.envelopeTo
  rawPath : q.rawPath = row.rawPath

theorem Backs.same {row row' : OutboxRow} {q : QueuedMessage} (h : Backs row q)
    (hsame : SameMail row row') :
    Backs row' q :=
  ⟨h.messageId.trans hsame.messageId.symm, h.envelopeFrom.trans hsame.envelopeFrom.symm,
    h.envelopeTo.trans hsame.envelopeTo.symm, h.rawPath.trans hsame.rawPath.symm⟩

namespace Chronicle

/-- Claimed messages have rows, and what was read for one are the bytes
that were queued with it. -/
structure Backed (w : World) (queued : List (Str × Bytes)) (r : Reading) : Prop where
  rows : ∀ q ∈ r.claimed, ∃ row ∈ w.db.outbox, Backs row q
  read : ∀ q ∈ r.claimed, ∀ raw, r.read = some (q.rawPath, raw) → (q.messageId, raw) ∈ queued

section
variable {right : Str → Str → Bytes → Prop} {mailDir : Str} {w w' : World} {drawn : List Str}
variable {queued queued' : List (Str × Bytes)} {r : Reading}

theorem backed_blank : Backed w queued .blank :=
  ⟨fun _ h => absurd h List.not_mem_nil, fun _ h => absurd h List.not_mem_nil⟩

theorem Backed.later (h : Backed w queued r) (hstays : MailStays w.db w'.db)
    (hqueued : queued ⊆ queued') :
    Backed w' queued' r where
  rows q hq := by
    obtain ⟨row, hrow, hbacks⟩ := h.rows q hq
    obtain ⟨row', hrow', hsame⟩ := hstays row hrow
    exact ⟨row', hrow', hbacks.same hsame⟩
  read q hq raw hread := hqueued (h.read q hq raw hread)

/-- What is claimed has rows, and what is read was queued. -/
theorem backed_answer (hstored : Stored mailDir w drawn queued) (h : Backed w queued r)
    (o : Op) (c : Chance) (hqueued : queued ⊆ queued') :
    Backed (answer o c w).2 queued' (r.next o (answer o c w).1) := by
  have hstays := mailStays_answer o c w
  have hlater := h.later hstays hqueued
  cases o with
  | claimDue now n =>
      cases hf : c.fails with
      | true =>
          have hres : (answer (.claimDue now n) c w).1 = .error c.text := by simp [answer, hf]
          rw [hres]
          exact hlater
      | false =>
          have hres : (answer (.claimDue now n) c w).1
              = .ok (w.db.claimDue now n c.rank).1 := by simp [answer, hf]
          rw [hres]
          refine ⟨fun q hq => ?_, fun q hq raw hread => by cases hread⟩
          obtain ⟨row, hrow, rfl⟩ := List.mem_map.mp hq
          obtain ⟨row', hrow', hsame⟩ := hstays row (Db.mem_dueRows hrow).1
          exact ⟨row', hrow', Backs.same ⟨rfl, rfl, rfl, rfl⟩ hsame⟩
  | readFile path =>
      generalize hres : (answer (.readFile path) c w).1 = res
      cases res with
      | error e => exact hlater
      | ok raw =>
          -- the file that was read is that of the row
          have hread : w.spool.read path = some raw := by
            cases hfile : w.spool.read path with
            | none => simp [answer, hfile] at hres
            | some raw' =>
                simp only [answer, hfile] at hres
                rw [give_eq_ok hres]
          refine ⟨hlater.rows, fun q hq raw' heq => hqueued ?_⟩
          obtain ⟨rfl, rfl⟩ := Prod.mk.inj (Option.some.inj heq)
          obtain ⟨row, hrow, hbacks⟩ := h.rows q hq
          obtain ⟨-, bytes, hbytes, hfile⟩ := hstored.rows row hrow
          rw [← hbacks.rawPath, hread] at hfile
          rw [hbacks.messageId, Option.some.inj hfile]
          exact hbytes
  | _ => exact hlater

/-- What is said of each message is true of it. -/
def Rightly (right : Str → Str → Bytes → Prop) (w : World) (queued : List (Str × Bytes)) :
    Prop :=
  ∀ row ∈ w.db.outbox, ∀ raw, (row.messageId, raw) ∈ queued →
    right row.envelopeFrom row.envelopeTo raw

theorem rightly_answer {draft : Draft} {o : Op} (hstored : Stored mailDir w drawn queued)
    (h : Rightly right w queued) (horder : InOrder mailDir draft o)
    (hok : (tracing right).ok (draft, r) o) (c : Chance) :
    Rightly right (answer o c w).2 (filed o (answer o c w).1 draft ++ queued) := by
  by_cases ho : ∃ row, o = .write (.insertOutbox row)
  · obtain ⟨row, rfl⟩ := ho
    cases draft with
    | none | named => exact horder.elim
    | written id bytes =>
        obtain ⟨rfl, -⟩ := horder
        rcases answer_write_cases (.insertOutbox row) c w with ⟨db, -, hdb, he⟩ | ⟨-, he⟩
        · obtain ⟨hfresh, rfl⟩ := Db.insertOutbox_eq_some hdb
          rw [he]
          intro other hother raw hraw
          rcases List.mem_append.mp hother with hold | hnew
          · rcases List.mem_cons.mp hraw with heq | hraw
            · exact absurd (congrArg Prod.fst heq) (hfresh other hold)
            · exact h other hold raw hraw
          · obtain rfl := List.mem_singleton.mp hnew
            rcases List.mem_cons.mp hraw with heq | hraw
            · rw [(Prod.mk.inj heq).2]
              exact hok bytes rfl
            · obtain ⟨old, hold, hid⟩ := hstored.listed _ hraw
              exact absurd hid (hfresh old hold)
        · rw [he]
          exact h
  · obtain ⟨g, hrows, hg⟩ := sameMail_of_answer o c w fun row h => ho ⟨row, h⟩
    have hnone : filed o (answer o c w).1 draft = [] := by
      cases o with
      | write u =>
          cases u with
          | insertOutbox row => exact absurd ⟨row, rfl⟩ ho
          | _ => rfl
      | _ => rfl
    rw [hnone]
    intro row' hrow' raw hraw
    rw [hrows] at hrow'
    obtain ⟨row, hrow, rfl⟩ := List.mem_map.mp hrow'
    rw [(hg row).messageId] at hraw
    rw [(hg row).envelopeFrom, (hg row).envelopeTo]
    exact h row hrow raw hraw

end

/-! ## Runs -/

/-- Tasks mind what they have in hand, and what is said of each message is true of it. -/
structure Faithful (right : Str → Str → Bytes → Prop) (s : Chronicle) : Prop where
  tasks : ∀ n ∈ s.tasks, ∃ r, Traced right n.task (n.notes.draft, r) ∧
    Backed s.world s.queued r
  rows : Rightly right s.world s.queued

section
variable {joins joins' : Task → Prop} {fair : Op → Chance → Chronicle → Prop}
    {right : Str → Str → Bytes → Prop}
variable {mailDir : Str} {maxAttempts : Int} {s s₀ s' : Chronicle}

theorem Faithful.join {p : Task} (h : Faithful right s) (hp : Heeds (tracing right) p) :
    Faithful right { s with tasks := ⟨p, .blank⟩ :: s.tasks } := by
  refine ⟨fun n hn => ?_, h.rows⟩
  rcases List.mem_cons.mp hn with rfl | hn
  · exact ⟨.blank, hp _, backed_blank⟩
  · exact h.tasks n hn

theorem traced_step (hjoins : ∀ p, joins p → Heeds (tracing right) p)
    (hfiled : Filed mailDir s) (h : Faithful right s)
    (hstep : Step joins fair maxAttempts s s') : Faithful right s' := by
  cases hstep with
  | inbound p _ hp => exact h.join (hjoins p hp)
  | pass => exact h.join (traced_passOf maxAttempts)
  | answer _ n o c hanswers =>
      obtain ⟨before, after, k, htasks, rfl⟩ := hanswers
      have hmem : (⟨.ask o k, n⟩ : Noted) ∈ s.tasks := by rw [htasks]; simp
      obtain ⟨r, ⟨hok, hk⟩, hbacked⟩ := h.tasks _ hmem
      obtain ⟨horder, -⟩ := hfiled.tasks _ hmem
      refine ⟨fun m hm => ?_, rightly_answer hfiled.stored h.rows horder hok c⟩
      rcases List.mem_append.mp hm with hm | hm
      · obtain ⟨r', hminds, hbacked'⟩ := h.tasks m (htasks ▸ List.mem_append_left _ hm)
        exact ⟨r', hminds, hbacked'.later (mailStays_answer o c s.world)
          (List.subset_append_right _ _)⟩
      · rcases List.mem_cons.mp hm with rfl | hm
        · exact ⟨_, hk _, backed_answer hfiled.stored hbacked o c
            (List.subset_append_right _ _)⟩
        · obtain ⟨r', hminds, hbacked'⟩ :=
            h.tasks m (htasks ▸ List.mem_append_right _ (List.mem_cons_of_mem _ hm))
          exact ⟨r', hminds, hbacked'.later (mailStays_answer o c s.world)
            (List.subset_append_right _ _)⟩
  | crash => exact ⟨fun n hn => absurd hn List.not_mem_nil, h.rows⟩
  | requeue c c' =>
      refine ⟨fun n hn => ?_, ?_⟩
      · obtain ⟨r, hminds, hbacked⟩ := h.tasks n hn
        exact ⟨r, hminds, hbacked.later (mailStays_answer _ c' s.world) (List.Subset.refl _)⟩
      · have horder : InOrder mailDir .none (.write (.requeueInterrupted c.now.toRfc3339)) :=
          trivial
        have hok : (tracing right).ok
            (.none, .blank) (.write (.requeueInterrupted c.now.toRfc3339)) := trivial
        exact rightly_answer hfiled.stored h.rows horder hok c'

theorem run_mono (hjoins : ∀ p, joins p → joins' p) (hrun : Run joins fair maxAttempts s s') :
    Run joins' fair maxAttempts s s' := by
  induction hrun with
  | refl => exact .refl
  | tail _ hstep ih =>
      refine ih.tail ?_
      cases hstep with
      | inbound p hp hj => exact .inbound _ p hp (hjoins p hj)
      | pass hr => exact .pass _ hr
      | answer _ n o c hanswers hfair => exact .answer _ _ n o c hanswers hfair
      | crash => exact .crash _
      | requeue c c' hr hnow hfair => exact .requeue _ c c' hr hnow hfair

/-- What is said of each message when it is queued stays true of it in every run. -/
theorem traced_run (hmails : ∀ p, joins p → Mails mailDir p)
    (hjoins : ∀ p, joins p → Heeds (tracing right) p)
    (h₀ : s₀.Initial) (hspool : s₀.world.spool = [])
    (hrun : Run joins Unique maxAttempts s₀ s) : Faithful right s := by
  induction hrun with
  | refl =>
      obtain ⟨⟨houtbox, -, htasks, -⟩, -⟩ := h₀
      have htasks' : s₀.tasks = [] := List.map_eq_nil_iff.mp htasks
      have houtbox' : s₀.world.db.outbox = [] := houtbox
      refine ⟨fun n hn => ?_, fun row hrow => ?_⟩
      · rw [htasks'] at hn
        exact absurd hn List.not_mem_nil
      · rw [houtbox'] at hrow
        exact absurd hrow List.not_mem_nil
  | tail hrun hstep ih =>
      exact traced_step hjoins (filed_run h₀ hspool (run_mono hmails hrun)) ih hstep

end

/-- The calls of the router for envelopes that came in, and what
leaves files and rows alone. -/
inductive Posts (router : AliasRouter) (came : Envelope → Prop) : Task → Prop
  | handle (envelope : Envelope) : came envelope →
      Posts router came ((router.handle envelope).run >>= fun _ => .ret ())
  | elsewhere (p : Task) : Uses Elsewhere p → Posts router came p

section
variable {router : AliasRouter} {came : Envelope → Prop} {p : Task}

theorem mails_posts (h : Posts router came p) : Mails router.mailDir p := by
  cases h with
  | handle envelope => exact mails_bind (router.mails_handle envelope) fun _ => .ret ()
  | elsewhere p hp => exact mails_of_uses hp

/-- Each message is a rewriting of an envelope that came in. -/
theorem traced_posts (h : Posts router came p) :
    Heeds (tracing fun sender receiver raw => ∃ envelope, came envelope ∧
      Carries envelope sender receiver raw) p := by
  cases h with
  | handle envelope hcame =>
      refine heeds_bind (router.traced_handleAll envelope envelope.rcptTo fun _ _ _ h => ?_)
        fun _ _ => ?_
      · exact ⟨envelope, hcame, h⟩
      · exact trivial
  | elsewhere p hp => exact traced_of_elsewhere hp

end

/-- In every run, over crashes and restarts and in any order of steps, as long as no identifier
is drawn twice: what the relay is given under two addresses is an envelope that came in,
rewritten with these addresses.  There is a row with this identifier and these addresses, and
its file holds it. -/
theorem sends_what_came (router : AliasRouter) (came : Envelope → Prop) (maxAttempts : Int)
    {s₀ s s' : Chronicle} (h₀ : s₀.Initial) (hspool : s₀.world.spool = [])
    (hrun : Run (Posts router came) Unique maxAttempts s₀ s)
    {n : Notes} {messageId sender receiver : Str} {raw : Bytes} {c : Chance}
    (hanswers : s.Answers s' n (.send messageId sender receiver raw) c) :
    (∃ envelope, came envelope ∧ Carries envelope sender receiver raw) ∧
    ∃ row ∈ s.world.db.outbox, row.messageId = messageId ∧ row.envelopeFrom = sender ∧
      row.envelopeTo = receiver ∧
      s.world.spool.read row.rawPath = some raw := by
  have hfiled := filed_run h₀ hspool (run_mono (fun _ => mails_posts) hrun)
  have hfaithful := traced_run (fun _ => mails_posts) (fun _ => traced_posts) h₀ hspool hrun
  obtain ⟨before, after, k, htasks, -⟩ := hanswers
  have hmem : (⟨.ask (.send messageId sender receiver raw) k, n⟩ : Noted) ∈ s.tasks := by
    rw [htasks]; simp
  obtain ⟨r, ⟨⟨q, hq, rfl, rfl, rfl, hread⟩, -⟩, hbacked⟩ := hfaithful.tasks _ hmem
  obtain ⟨row, hrow, hbacks⟩ := hbacked.rows q hq
  have hqueued : (row.messageId, raw) ∈ s.queued :=
    hbacks.messageId ▸ hbacked.read q hq raw hread
  obtain ⟨-, bytes, hbytes, hfile⟩ := hfiled.stored.rows row hrow
  have hsame : bytes = raw :=
    congrArg Prod.snd (List.inj_on_of_nodup_map hfiled.stored.once hbytes hqueued rfl)
  refine ⟨?_, row, hrow, hbacks.messageId.symm, hbacks.envelopeFrom.symm,
    hbacks.envelopeTo.symm, hsame ▸ hfile⟩
  rw [hbacks.envelopeFrom, hbacks.envelopeTo]
  exact hfaithful.rows row hrow raw hqueued

/-! ### A message and a restart -/

/-- What the newest task is about to send. -/
def sending (s : Chronicle) : Option (Str × Str × Str × Bytes) :=
  match s.tasks with
  | ⟨.ask (.send messageId envelopeFrom envelopeTo raw) _, _⟩ :: _ =>
      some (messageId, envelopeFrom, envelopeTo, raw)
  | _ => none

theorem answers_of_sending {s : Chronicle} {messageId sender receiver : Str} {raw : Bytes}
    (h : s.sending = some (messageId, sender, receiver, raw)) (c : Chance) :
    ∃ s' n, s.Answers s' n (.send messageId sender receiver raw) c := by
  unfold sending at h
  split at h
  · next messageId' sender' receiver' raw' k n tasks htasks =>
      cases h
      exact ⟨_, n, [], tasks, k, htasks, rfl⟩
  · cases h

/-- A mailbox, and an alias that forwards to it. -/
def setUpOne : Chronicle :=
  let mailbox : Mailbox := ⟨['m'], EmailAddress.me.normalised, true, []⟩
  let made : Alias :=
    ⟨['a'], EmailAddress.shop.normalised, ['m'], none, true, 0, 0, 0, [], none⟩
  ⟨⟨⟨[mailbox], [made], [], []⟩, [], []⟩, [], false, 0, [], [], []⟩

/-- A line of text without a header. -/
def shortEnvelope : Envelope :=
  ⟨"a@shop.example", ["shop@example.com".toList], [13, 10, 72, 105]⟩

def handingOver : Task := (AliasRouter.sample.handle shortEnvelope).run >>= fun _ => .ret ()

/-- The message is queued, the process is started again, and a pass begins. -/
def startedAgain : Chronicle :=
  let s : Chronicle := fronts ((List.range 14).map Chance.calm)
    { setUpOne with tasks := [⟨handingOver, .blank⟩] }
  let requeue : Op := .write (.requeueInterrupted (Chance.calm 20).now.toRfc3339)
  { s with
    world := (Weiterleitung.answer requeue (Chance.calm 20) s.world).2
    tasks := [⟨passOf 3, .blank⟩]
    ready := true
    restarts := s.restarts + 1 }

/-- The pass has read the file. -/
def readOne : Chronicle :=
  startedAgain.fronts ((List.range 3).map fun n => Chance.calm (30 + n))

theorem run_startedAgain :
    Run (Posts AliasRouter.sample fun envelope => envelope = shortEnvelope) Unique 3
      setUpOne startedAgain := by
  have huses : Uses Inbound handingOver :=
    uses_bind (AliasRouter.inbound_handle AliasRouter.sample shortEnvelope) fun _ => trivial
  have hjoin : Run (Posts AliasRouter.sample fun envelope => envelope = shortEnvelope) Unique
      3 setUpOne _ :=
    .single (.inbound setUpOne handingOver huses (.handle shortEnvelope rfl))
  have hqueued :=
    hjoin.trans (run_fronts ((List.range 14).map Chance.calm) _ (by decide +kernel))
  have hrequeued := (hqueued.tail (.crash _)).tail
    (.requeue _ (Chance.calm 20) (Chance.calm 20) rfl trivial trivial)
  exact hrequeued.tail (.pass _ rfl)

theorem run_readOne :
    Run (Posts AliasRouter.sample fun envelope => envelope = shortEnvelope) Unique
      3 setUpOne readOne :=
  run_startedAgain.trans (run_fronts _ _ (by decide +kernel))

/-- What was queued before the restart is sent after it. -/
theorem sends_what_came_sample : ∃ messageId sender receiver raw,
    readOne.sending = some (messageId, sender, receiver, raw) ∧
    Carries shortEnvelope sender receiver raw := by
  have hsome : readOne.sending.isSome = true := by decide +kernel
  obtain ⟨⟨messageId, sender, receiver, raw⟩, hsending⟩ := Option.isSome_iff_exists.mp hsome
  obtain ⟨s', n, hanswers⟩ := answers_of_sending hsending (Chance.calm 40)
  have hinitial : setUpOne.Initial := ⟨⟨rfl, rfl, rfl, rfl, rfl⟩, rfl, rfl, rfl⟩
  obtain ⟨⟨envelope, rfl, hcarries⟩, -⟩ := sends_what_came AliasRouter.sample _ 3 hinitial
    rfl run_readOne hanswers
  exact ⟨messageId, sender, receiver, raw, hsending, hcarries⟩

end Chronicle

end Weiterleitung
