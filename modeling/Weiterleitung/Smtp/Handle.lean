/-
# `Smtp.Handle` — all recipients of an envelope

`handle` takes one recipient after the other and returns with the first one that fails.
What it leaves behind:

    every row is justified by a recipient of the envelope       (`handle_justified`)
    recipients that went through have a row and a file each     (`Reaches.rows`)
    an envelope is accepted
      ⟺  its recipients are sound and no operation fails       (`handleAll_ok_iff`)
    accepted means all rows, refused means none
      ⟺  no row gets in, or nothing fails after it             (`handle_allOrNothing_iff`)
-/
import Mathlib
import Weiterleitung.Smtp.Sound
import Weiterleitung.Delivery.Pass

namespace Weiterleitung

open Text Prog

namespace AliasRouter

variable {router : AliasRouter}

/-! ## The operations of `handle` -/

theorem uses_queueForward (aliasId aliasAddress : Str) (envelope : Envelope) :
    Uses (Routing router.aliases) (router.queueForward aliasId aliasAddress envelope).run := by
  unfold queueForward
  refine uses_seq trivial fun address => ?_
  refine uses_seq (uses_mono routing_of_aside (uses_findAliasByAddress _)) fun found => ?_
  cases found with
  | none => trivial
  | some found =>
      refine uses_seq trivial fun sender => ?_
      refine uses_seq (uses_mono routing_of_aside (uses_getOrCreateContact _ _ _ _))
        fun c => ?_
      exact uses_seq (routing_enqueue _ _) fun _ => trivial

theorem uses_queueReply (contactId aliasAddress contactEmail : Str) (envelope : Envelope) :
    Uses (Routing router.aliases)
      (router.queueReply contactId aliasAddress contactEmail envelope).run := by
  unfold queueReply
  refine uses_seq trivial fun address => ?_
  refine uses_seq (uses_mono routing_of_aside (uses_findAliasByAddress _)) fun found => ?_
  exact uses_seq (routing_enqueue _ _) fun _ => trivial

theorem uses_place (envelope : Envelope) (recipient : Str) :
    Uses (Routing router.aliases) (router.place envelope recipient).run := by
  refine uses_seq (uses_mapErr (uses_mono routing_of_aside (uses_route _ _ _)))
    fun r => uses_mapErr ?_
  cases r with
  | forward aliasId aliasAddress => exact uses_seq (uses_queueForward _ _ _) fun _ => trivial
  | reply contactId aliasAddress contactEmail =>
      exact uses_seq (uses_queueReply _ _ _ _) fun _ => trivial

theorem uses_count (router : AliasRouter) (q : Option (Str × AliasCounter)) :
    Uses (Routing router.aliases) (count q).run := by
  cases q with
  | none => trivial
  | some q => exact uses_mapErr (uses_recordAliasActivity _ _)

theorem uses_handleRecipient (router : AliasRouter) (envelope : Envelope) (recipient : Str) :
    Uses (Routing router.aliases) (router.handleRecipient envelope recipient).run := by
  rw [handleRecipient_eq]
  exact uses_seq (uses_place _ _) (uses_count router)

theorem uses_handleAll (router : AliasRouter) (envelope : Envelope) : ∀ recipients : List Str,
    Uses (Routing router.aliases) (router.handleAll envelope recipients).run
  | [] => trivial
  | _ :: recipients =>
      uses_seq (uses_handleRecipient _ _ _) fun _ => uses_handleAll router envelope recipients

/-- Handling mail is one of the tasks that may run beside the worker. -/
theorem inbound_handle (router : AliasRouter) (envelope : Envelope) :
    Uses Inbound (router.handle envelope).run :=
  uses_mono (inbound_of_routing router.aliases)
    (uses_handleAll router envelope envelope.rcptTo)

/-! ## Every row is justified -/

/-- A turn that succeeds places and counts. -/
theorem handleRecipient_ok {envelope : Envelope} {recipient : Str} {h t : Host}
    (he : exec perform (router.handleRecipient envelope recipient) h = (.ok (), t)) :
    ∃ message, Justified router envelope h.world.db t.world.db recipient message.direction
        message.envelopeFrom message.envelopeTo ∧
      Rewritten envelope message.raw ∧ Queued router.mailDir message h.world t.world := by
  rw [handleRecipient_eq] at he
  obtain ⟨q, u, hplace, hcount⟩ := (exec_bind_ok perform).mp he
  rcases place_cases router envelope recipient h with
    ⟨e, t', he', -⟩ | ⟨q', t', message, he', hjust, hraw, messageId, now,
      hfresh, houtbox, hspool⟩
  · rw [hplace] at he'
    cases he'
  · rw [hplace] at he'
    cases he'
    have hquiet := count_quiet q u
    have hgrows := grows_exec (uses_count router q) u
    rw [hcount] at hquiet hgrows
    exact ⟨message, hjust.mono (Grows.refl _) hgrows, hraw, messageId, now, hfresh,
      hquiet.1.trans houtbox, hquiet.2.1.trans hspool⟩

/-- The rows a run has added are those of the first recipients, in their order, and each is
justified by its recipient. -/
def Adds (router : AliasRouter) (envelope : Envelope) (recipients : List Str) (w w' : World) :
    Prop :=
  ∃ added, w'.db.outbox = w.db.outbox ++ added ∧ added.length ≤ recipients.length ∧
    ∀ recipient row, (recipient, row) ∈ recipients.zip added →
      Justified router envelope w.db w'.db recipient row.direction
        row.envelopeFrom row.envelopeTo

theorem adds_handleRecipient (router : AliasRouter) (envelope : Envelope)
    (recipient : Str) (h : Host) :
    Adds router envelope [recipient] h.world
      (exec perform (router.handleRecipient envelope recipient) h).2.world := by
  rw [handleRecipient_eq]
  rcases place_cases router envelope recipient h with
    ⟨e, t, he, hun⟩ | ⟨q, t, message, he, hjust, -, messageId, now, -, houtbox, -⟩
  · rw [exec_bind_of_error perform he]
    exact ⟨[], by rw [List.append_nil]; exact hun.1, Nat.zero_le _,
      fun _ _ hmem => (nomatch hmem)⟩
  · rw [exec_bind_of_ok perform he]
    refine ⟨[message.row router.mailDir messageId now], (count_quiet q t).1.trans houtbox,
      le_refl _, ?_⟩
    intro recipient' row hmem
    cases List.mem_singleton.mp hmem
    exact hjust.mono (Grows.refl _) (grows_exec (uses_count router q) t)

theorem adds_handleAll (router : AliasRouter) (envelope : Envelope)
    (recipients : List Str) (h : Host) :
    Adds router envelope recipients h.world
      (exec perform (router.handleAll envelope recipients) h).2.world := by
  induction recipients generalizing h with
  | nil => exact ⟨[], (List.append_nil _).symm, le_refl _, fun _ _ hmem => (nomatch hmem)⟩
  | cons recipient recipients ih =>
      obtain ⟨added, houtbox, hlength, hjust⟩ :=
        adds_handleRecipient router envelope recipient h
      have hgrows := grows_exec (uses_handleRecipient router envelope recipient) h
      unfold handleAll
      rcases hrun : exec perform (router.handleRecipient envelope recipient) h with ⟨e | u, t⟩
      · rw [hrun] at houtbox hjust
        rw [exec_bind_of_error perform hrun]
        refine ⟨added, houtbox, hlength.trans (Nat.succ_le_succ (Nat.zero_le _)), ?_⟩
        intro recipient' row hmem
        -- there is one row at most
        cases added with
        | nil => cases hmem
        | cons other rest =>
            obtain rfl :=
              List.eq_nil_of_length_eq_zero (Nat.le_zero.mp (Nat.le_of_succ_le_succ hlength))
            rw [List.zip_cons_cons, List.zip_nil_right] at hmem
            exact hjust recipient' row hmem
      · obtain ⟨_, -, -, _, _, -, houtbox', -⟩ := handleRecipient_ok hrun
        rw [hrun] at houtbox hjust hgrows
        obtain rfl := List.append_cancel_left (houtbox.symm.trans houtbox')
        rw [exec_bind_of_ok perform hrun]
        obtain ⟨added', houtbox'', hlength', hjust'⟩ := ih t
        have hgrows' := grows_exec (uses_handleAll router envelope recipients) t
        refine ⟨_ :: added', by rw [houtbox'', houtbox, List.append_assoc]; rfl,
          Nat.succ_le_succ hlength', ?_⟩
        intro recipient' row hmem
        rcases List.mem_cons.mp hmem with hhead | hmem
        · exact (hjust recipient' row (List.mem_singleton.mpr hhead)).mono
            (Grows.refl _) hgrows'
        · exact (hjust' recipient' row hmem).mono hgrows (Grows.refl _)

/-- No open relay: whatever fails, every row that `handle` adds goes from an enabled alias to
its mailbox, or from the mailbox of an enabled alias through the alias to its contact, and
the recipient that asked for it is in the envelope and ours. -/
theorem handle_justified (router : AliasRouter) (envelope : Envelope) (h : Host) :
    ∃ added, (exec perform (router.handle envelope) h).2.world.db.outbox
        = h.world.db.outbox ++ added ∧
      ∀ row ∈ added, ∃ recipient ∈ envelope.rcptTo,
        Justified router envelope h.world.db
          (exec perform (router.handle envelope) h).2.world.db
          recipient row.direction row.envelopeFrom row.envelopeTo := by
  obtain ⟨added, houtbox, hlength, hjust⟩ := adds_handleAll router envelope envelope.rcptTo h
  refine ⟨added, houtbox, fun row hrow => ?_⟩
  -- no row is left without a recipient
  rw [← List.map_snd_zip hlength] at hrow
  obtain ⟨⟨recipient, row⟩, hmem, rfl⟩ := List.mem_map.mp hrow
  exact ⟨recipient, (List.of_mem_zip hmem).1, hjust recipient row hmem⟩

/-! ## Turns that succeed -/

/-- The turns of these recipients all succeed, from `h` to `t`. -/
def Reaches (router : AliasRouter) (envelope : Envelope) : List Str → Host → Host → Prop
  | [], h, t => t = h
  | recipient :: recipients, h, t =>
      ∃ u, exec perform (router.handleRecipient envelope recipient) h = (.ok (), u) ∧
        Reaches router envelope recipients u t

/-- After turns that succeed the loop goes on with the rest. -/
theorem exec_handleAll_append {envelope : Envelope} (rest : List Str) :
    ∀ {before : List Str} {h t : Host}, Reaches router envelope before h t →
      exec perform (router.handleAll envelope (before ++ rest)) h
        = exec perform (router.handleAll envelope rest) t
  | [], _, _, rfl => rfl
  | recipient :: before, h, t, ⟨u, he, hr⟩ => by
      show exec perform (router.handleRecipient envelope recipient >>= fun _ =>
        router.handleAll envelope (before ++ rest)) h = _
      rw [exec_bind_of_ok perform he]
      exact exec_handleAll_append rest hr

/-- All turns succeed, or there is a first one that fails. -/
theorem reaches_or_fails (router : AliasRouter) (envelope : Envelope) :
    ∀ (recipients : List Str) (h : Host), (∃ t, Reaches router envelope recipients h t) ∨
      ∃ before recipient after t e t', recipients = before ++ recipient :: after ∧
        Reaches router envelope before h t ∧
        exec perform (router.handleRecipient envelope recipient) t = (.error e, t')
  | [], h => Or.inl ⟨h, rfl⟩
  | recipient :: recipients, h => by
      rcases hrun : exec perform (router.handleRecipient envelope recipient) h with ⟨e | u, t⟩
      · exact Or.inr ⟨[], recipient, recipients, h, e, t, rfl, rfl, hrun⟩
      · rcases reaches_or_fails router envelope recipients t
          with ⟨t', hr⟩ | ⟨before, r, after, t', e, u', rfl, hr, he⟩
        · exact Or.inl ⟨t', t, hrun, hr⟩
        · exact Or.inr ⟨recipient :: before, r, after, t', e, u', rfl, ⟨t, hrun, hr⟩, he⟩

/-- The turns of all recipients succeed exactly if the loop does. -/
theorem reaches_iff_ok {envelope : Envelope} {recipients : List Str} {h t : Host} :
    Reaches router envelope recipients h t ↔
      exec perform (router.handleAll envelope recipients) h = (.ok (), t) := by
  constructor
  · intro hr
    have happend := exec_handleAll_append [] hr
    rw [List.append_nil] at happend
    exact happend
  · intro he
    rcases reaches_or_fails router envelope recipients h with
      ⟨t', hr⟩ | ⟨before, recipient, after, u, e, u', rfl, hr, hfail⟩
    · have happend := exec_handleAll_append [] hr
      rw [List.append_nil, he] at happend
      cases happend
      exact hr
    · rw [exec_handleAll_append _ hr] at he
      cases (exec_bind_of_error perform hfail).symm.trans he

/-! ## Rows and their files -/

/-- Each of the recipients has a row that it justifies, in the order of the
envelope, and each row its file. -/
def Delivered (router : AliasRouter) (envelope : Envelope) (recipients : List Str)
    (w w' : World) : Prop :=
  ∃ added : List (OutboxRow × Bytes), w'.db.outbox = w.db.outbox ++ added.map (·.1) ∧
    added.length = recipients.length ∧
    ∀ recipient x, (recipient, x) ∈ recipients.zip added →
      Justified router envelope w.db w'.db recipient x.1.direction x.1.envelopeFrom
          x.1.envelopeTo ∧
        Rewritten envelope x.2 ∧ x.1.rawPath = rawPath router.mailDir x.1.messageId ∧
        w'.spool.read x.1.rawPath = some x.2

/-- The file of a row that is in the outbox is not written again. -/
theorem Queued.read_eq {mailDir : Str} {message : NewOutboundMessage} {w w' : World}
    {row : OutboxRow} (h : Queued mailDir message w w') (hrow : row ∈ w.db.outbox)
    (hpath : row.rawPath = rawPath mailDir row.messageId) :
    row ∈ w'.db.outbox ∧ w'.spool.read row.rawPath = w.spool.read row.rawPath := by
  obtain ⟨messageId, now, hfresh, houtbox, hspool⟩ := h
  refine ⟨by rw [houtbox]; exact List.mem_append_left _ hrow, ?_⟩
  rw [hspool, hpath]
  exact Spool.read_write_ne _ _ fun h0 => hfresh row hrow (rawPath_inj h0).symm

/-- Turns that succeed leave the files of older rows. -/
theorem Reaches.read_eq {envelope : Envelope} {row : OutboxRow} :
    ∀ {recipients : List Str} {h t : Host}, Reaches router envelope recipients h t →
      row ∈ h.world.db.outbox → row.rawPath = rawPath router.mailDir row.messageId →
      t.world.spool.read row.rawPath = h.world.spool.read row.rawPath
  | [], _, _, rfl, _, _ => rfl
  | _ :: _, _, _, ⟨_, he, hr⟩, hrow, hpath => by
      obtain ⟨message, -, -, hqueued⟩ := handleRecipient_ok he
      obtain ⟨hrow', hread⟩ := hqueued.read_eq hrow hpath
      exact (Reaches.read_eq hr hrow' hpath).trans hread

/-- Recipients whose turns succeed have a row and a file each. -/
theorem Reaches.rows {envelope : Envelope} : ∀ {recipients : List Str} {h t : Host},
    Reaches router envelope recipients h t →
    Delivered router envelope recipients h.world t.world
  | [], _, _, rfl => ⟨[], by simp, rfl, fun _ _ hx => nomatch hx⟩
  | recipient :: recipients, h, t, ⟨u, he, hr⟩ => by
      have hgrows := grows_exec (uses_handleRecipient router envelope recipient) h
      have hgrows' := grows_exec (uses_handleAll router envelope recipients) u
      rw [he] at hgrows
      rw [reaches_iff_ok.mp hr] at hgrows'
      obtain ⟨message, hjust, hraw, messageId, now, hfresh, houtbox, hspool⟩ :=
        handleRecipient_ok he
      obtain ⟨added, houtbox', hlength, hfiles⟩ := Reaches.rows hr
      refine ⟨(message.row router.mailDir messageId now, message.raw) :: added, ?_, ?_, ?_⟩
      · rw [houtbox', houtbox, List.append_assoc]
        rfl
      · rw [List.length_cons, hlength, List.length_cons]
      · intro recipient' x hx
        rcases List.mem_cons.mp hx with hx | hx
        · cases hx
          refine ⟨hjust.mono (Grows.refl _) hgrows', hraw, rfl, ?_⟩
          have hmem : message.row router.mailDir messageId now ∈ u.world.db.outbox := by
            rw [houtbox]
            simp
          rw [Reaches.read_eq hr hmem rfl, hspool]
          exact Spool.read_write _ _ _
        · obtain ⟨hjust', hfile⟩ := hfiles recipient' x hx
          exact ⟨hjust'.mono hgrows (Grows.refl _), hfile⟩

/-! ## Envelopes that are accepted -/

/-- The tables that the turns of these recipients leave. -/
def tablesAfter (router : AliasRouter) (envelope : Envelope) (h : Host) (before : List Str) :
    Db :=
  (exec perform (router.handleAll envelope before) h).2.world.db

theorem tablesAfter_cons {envelope : Envelope} {recipient : Str} {before : List Str}
    {h u : Host}
    (hturn : exec perform (router.handleRecipient envelope recipient) h = (.ok (), u)) :
    tablesAfter router envelope h (recipient :: before) = tablesAfter router
      envelope u before := by
  unfold tablesAfter
  rw [handleAll, exec_bind_of_ok perform hturn]

/-- An envelope is accepted exactly if each recipient is sound when it is its turn
and no operation fails. -/
theorem handleAll_ok_iff {envelope : Envelope} {recipients : List Str} {h : Host} :
    (∃ t, exec perform (router.handleAll envelope recipients) h = (.ok (), t)) ↔
      Unfailing (router.handleAll envelope recipients) h ∧
        ∀ before recipient after, recipients = before ++ recipient :: after →
          router.Sound envelope (tablesAfter router envelope h before) recipient := by
  induction recipients generalizing h with
  | nil => exact ⟨fun _ => ⟨trivial, fun before _ _ h0 => by simp at h0⟩, fun _ => ⟨h, rfl⟩⟩
  | cons recipient recipients ih =>
      constructor
      · rintro ⟨t, he⟩
        refine ⟨along_of_strict (strict_handleAll router envelope _) he, ?_⟩
        obtain ⟨_, u, hturn, hrest⟩ := (exec_bind_ok perform).mp he
        intro before recipient' after hsplit
        cases before with
        | nil =>
            obtain ⟨rfl, -⟩ := List.cons.inj hsplit
            exact (handleRecipient_ok_iff.mp ⟨u, hturn⟩).1
        | cons r before =>
            obtain ⟨rfl, hafter⟩ := List.cons.inj hsplit
            rw [tablesAfter_cons hturn]
            exact (ih.mp ⟨t, hrest⟩).2 before recipient' after hafter
      · rintro ⟨hu, hsound⟩
        obtain ⟨hfirst, hu⟩ := along_seq hu
        obtain ⟨u, hturn⟩ :=
          handleRecipient_ok_iff.mpr ⟨hsound [] recipient recipients rfl, hfirst⟩
        obtain ⟨t, hrest⟩ := ih.mpr ⟨hu hturn, fun before recipient' after hsplit => by
          rw [← tablesAfter_cons hturn]
          exact hsound (recipient :: before) recipient' after (by rw [hsplit]; rfl)⟩
        exact ⟨t, (exec_bind_of_ok perform hturn).trans hrest⟩

/-- Does a recipient of the envelope name this address? -/
def NamesAddress (envelope : Envelope) (address : Str) : Prop :=
  ∃ recipient ∈ envelope.rcptTo,
    (EmailAddress.parse recipient).toOption.map (·.normalised) = some address

instance (envelope : Envelope) : DecidablePred (NamesAddress envelope) := fun address =>
  inferInstanceAs (Decidable (∃ recipient ∈ envelope.rcptTo,
    (EmailAddress.parse recipient).toOption.map (·.normalised) = some address))

/-- No reverse alias that is drawn is the address of a recipient. -/
abbrev DrawsApart (router : AliasRouter) (envelope : Envelope) (h : Host) : Prop :=
  Along perform (Draws router.aliases fun r => ¬ NamesAddress envelope r)
    (router.handle envelope).run h

/-- Where no recipient names what is drawn, the tables that there were decide. -/
theorem handleAll_ok_of_apart {envelope : Envelope} {db : Db} {recipients : List Str}
    {h : Host} (hmem : ∀ recipient ∈ recipients, recipient ∈ envelope.rcptTo)
    (hg : Grows db h.world.db) (hd : Drawn (fun r => ¬ NamesAddress envelope r) db h.world.db)
    (ha : Along perform (Draws router.aliases fun r => ¬ NamesAddress envelope r)
      (router.handleAll envelope recipients).run h) :
    (∃ t, exec perform (router.handleAll envelope recipients) h = (.ok (), t)) ↔
      Unfailing (router.handleAll envelope recipients) h ∧
        ∀ recipient ∈ recipients, router.Sound envelope db recipient := by
  induction recipients generalizing h with
  | nil => exact ⟨fun _ => ⟨trivial, fun _ h0 => nomatch h0⟩, fun _ => ⟨h, rfl⟩⟩
  | cons recipient recipients ih =>
      -- the recipient is as sound as before the envelope came
      have hfirst : router.Sound envelope h.world.db recipient ↔
          router.Sound envelope db recipient := by
        refine sound_iff_of_drawn hg hd fun address hparse hnot => hnot ?_
        exact ⟨recipient, hmem recipient List.mem_cons_self, by rw [hparse]; rfl⟩
      have hrest : ∀ {u}, exec perform (router.handleRecipient envelope recipient)
          h = (.ok (), u) →
          ((∃ t, exec perform (router.handleAll envelope recipients) u = (.ok (), t)) ↔
            Unfailing (router.handleAll envelope recipients) u ∧
              ∀ recipient ∈ recipients, router.Sound envelope db recipient) := by
        intro u hturn
        have hgrows := grows_exec (uses_handleRecipient router envelope recipient) h
        rw [hturn] at hgrows
        exact ih (fun r hr => hmem r (List.mem_cons_of_mem _ hr)) (hg.trans hgrows)
          (hd.trans (handleRecipient_drawn (along_seq ha).1 hturn)) ((along_seq ha).2 hturn)
      constructor
      · rintro ⟨t, he⟩
        refine ⟨along_of_strict (strict_handleAll router envelope _) he, fun r hr => ?_⟩
        obtain ⟨_, u, hturn, he⟩ := (exec_bind_ok perform).mp he
        rcases List.mem_cons.mp hr with rfl | hr
        · exact hfirst.mp (handleRecipient_ok_iff.mp ⟨u, hturn⟩).1
        · exact ((hrest hturn).mp ⟨t, he⟩).2 r hr
      · rintro ⟨hu, hsound⟩
        obtain ⟨hturn, hu⟩ := along_seq hu
        obtain ⟨u, hturn⟩ := handleRecipient_ok_iff.mpr
          ⟨hfirst.mpr (hsound recipient List.mem_cons_self), hturn⟩
        obtain ⟨t, he⟩ := (hrest hturn).mpr
          ⟨hu hturn, fun r hr => hsound r (List.mem_cons_of_mem _ hr)⟩
        exact ⟨t, (exec_bind_of_ok perform hturn).trans he⟩

/-! ## All or nothing -/

/-- Accepted means a row and a file for each recipient, refused means no row and no count. -/
def AllOrNothing (router : AliasRouter) (envelope : Envelope) (w : World) :
    Except Str Unit × Host → Prop
  | (.ok _, h) => Delivered router envelope envelope.rcptTo w h.world
  | (.error _, h) => Untouched w h.world

/-- A row gets in: the first recipient is sound, and no operation fails while
the outbox is as it was. -/
def Begins (router : AliasRouter) (envelope : Envelope) (h : Host) : Prop :=
  (∃ recipient ∈ envelope.rcptTo.head?, router.Sound envelope h.world.db recipient) ∧
    Along perform (fun o t => Succeeds Op.failed perform o t ∨
      t.world.db.outbox ≠ h.world.db.outbox) (router.handle envelope).run h

/-- A row gets in, and then an operation fails or a recipient is not sound, by the
tables that count for it. -/
def FailsLate (router : AliasRouter) (envelope : Envelope) (h : Host)
    (tables : List Str → Db) : Prop :=
  Begins router envelope h ∧ (¬ Unfailing (router.handle envelope) h ∨
    ∃ before recipient after, envelope.rcptTo = before ++ recipient :: after ∧
      ¬ router.Sound envelope (tables before) recipient)

/-- The states that a run of the router meets have the rows there were, and maybe others. -/
theorem along_outbox {α ε : Type} {x : Fallible ε Op Res α}
    (hx : Uses (Routing router.aliases) x.run)
    (h : Host) : Along perform (fun _ t => h.world.db.outbox <+: t.world.db.outbox ∧
      t.world.db.outbox <+: (exec perform x h).2.world.db.outbox) x.run h :=
  along_rel (R := fun (h h' : Host) => h.world.db.outbox <+: h'.world.db.outbox)
    (fun _ => List.prefix_refl _) List.IsPrefix.trans
    (fun _ ho (t : Host) => (grows_of_routing ho t.chance t.world).outbox) hx
    (List.prefix_refl _)

/-- The turn of the first recipient comes first. -/
theorem handle_of_cons {envelope : Envelope} {recipient : Str} {recipients : List Str}
    (hcons : envelope.rcptTo = recipient :: recipients) :
    router.handle envelope = router.place envelope recipient >>= fun q =>
      count q >>= fun _ => router.handleAll envelope recipients := by
  unfold handle
  rw [hcons, handleAll, handleRecipient_eq, bind_assoc]

theorem outbox_of_place {envelope : Envelope} {recipient : Str}
    {q : Option (Str × AliasCounter)}
    {h t : Host} (he : exec perform (router.place envelope recipient) h = (.ok q, t)) :
    t.world.db.outbox.length = h.world.db.outbox.length + 1 := by
  rcases place_cases router envelope recipient h with
    ⟨e, t', he', -⟩ | ⟨q', t', message, he', -, -, _, _, -, houtbox, -⟩
  · cases he.symm.trans he'
  · cases he.symm.trans he'
    rw [houtbox, List.length_append]
    rfl

/-- A row gets in exactly if the message to the first recipient is placed. -/
theorem begins_iff {envelope : Envelope} {recipient : Str} {recipients : List Str} {h : Host}
    (hcons : envelope.rcptTo = recipient :: recipients) :
    Begins router envelope h ↔
      ∃ q t, exec perform (router.place envelope recipient) h = (.ok q, t) := by
  unfold Begins
  rw [handle_of_cons hcons, hcons]
  constructor
  · rintro ⟨⟨_, hhead, hsound⟩, ha⟩
    cases hhead
    rcases place_cases router envelope recipient h with
      ⟨e, t, he, hun⟩ | ⟨q, t, _, he, -⟩
    · -- no row gets in, so no operation fails
      have houtbox := along_outbox (@uses_place router envelope recipient) h
      rw [he] at houtbox
      refine place_ok_iff.mpr ⟨hsound, along_mono ?_ (along_and (along_seq ha).1 houtbox)⟩
      rintro o t' ⟨hok | hne, hfirst, hlast⟩
      · exact hok
      · rw [hun.1] at hlast
        exact absurd (hlast.eq_of_length_le hfirst.length_le) hne
    · exact ⟨q, t, he⟩
  · rintro ⟨q, t, he⟩
    obtain ⟨hsound, hu⟩ := place_ok_iff.mp ⟨q, t, he⟩
    refine ⟨⟨recipient, rfl, hsound⟩, along_of_seq (along_mono (fun _ _ => Or.inl) hu) ?_⟩
    intro q' t' he'
    cases he.symm.trans he'
    -- from here on the row is in
    have huses : Uses (Routing router.aliases)
        (count q >>= fun _ => router.handleAll envelope recipients).run :=
      uses_seq (uses_count router q) fun _ => uses_handleAll router envelope recipients
    have hrest := along_outbox huses t
    refine along_mono (fun o u hu => Or.inr fun hsame => ?_) hrest
    have hlength := hu.1.length_le
    rw [hsame] at hlength
    exact absurd (outbox_of_place he) (by omega)

/-- A refused envelope has left nothing exactly if no row got in. -/
theorem untouched_iff {envelope : Envelope} {e : Str} {h t : Host}
    (he : exec perform (router.handle envelope) h = (.error e, t)) :
    Untouched h.world t.world ↔ ¬ Begins router envelope h := by
  cases hcons : envelope.rcptTo with
  | nil =>
      unfold handle at he
      rw [hcons] at he
      cases he
  | cons recipient recipients =>
      rw [begins_iff hcons]
      rw [handle_of_cons hcons] at he
      rcases place_cases router envelope recipient h with
        ⟨e', u, hplace, hun⟩ | ⟨q, u, _, hplace, -⟩
      · cases (exec_bind_of_error perform hplace).symm.trans he
        refine iff_of_true hun ?_
        rintro ⟨q, t', hplace'⟩
        cases hplace.symm.trans hplace'
      · refine iff_of_false (fun hun => ?_) (not_not.mpr ⟨q, u, hplace⟩)
        -- the row of the first recipient stays
        rw [exec_bind_of_ok perform hplace] at he
        have hgrows := grows_exec (uses_seq (uses_count router q) fun _ =>
          uses_handleAll router envelope recipients) u
        rw [he] at hgrows
        have hlength := hgrows.outbox.length_le
        rw [hun.1] at hlength
        exact absurd (outbox_of_place hplace) (by omega)

/-- Acceptance is all or nothing exactly if no row gets in, or nothing goes wrong after it. -/
theorem allOrNothing_iff_begins (router : AliasRouter) (envelope : Envelope) (h : Host) :
    AllOrNothing router envelope h.world (exec perform (router.handle envelope) h) ↔
      ¬ (Begins router envelope h ∧
        ¬ ∃ t, exec perform (router.handle envelope) h = (.ok (), t)) := by
  rcases hrun : exec perform (router.handle envelope) h with ⟨e | _, t⟩
  · rw [show AllOrNothing router envelope h.world (.error e, t) ↔ Untouched h.world t.world
      from Iff.rfl, untouched_iff hrun]
    simp
  · exact iff_of_true (reaches_iff_ok.mpr hrun).rows (by simp)

/-- An envelope fails late if a row gets in and it is not accepted. -/
theorem failsLate_iff {envelope : Envelope} {h : Host} {tables : List Str → Db}
    (hok : (∃ t, exec perform (router.handle envelope) h = (.ok (), t)) ↔
      Unfailing (router.handle envelope) h ∧ ∀ before recipient after,
        envelope.rcptTo = before ++ recipient :: after →
          router.Sound envelope (tables before) recipient) :
    FailsLate router envelope h tables ↔ Begins router envelope h ∧
      ¬ ∃ t, exec perform (router.handle envelope) h = (.ok (), t) := by
  unfold FailsLate
  rw [hok, not_and_or]
  simp only [not_forall, exists_prop]

/-- Acceptance is all or nothing if and only if nothing fails once a row is in.  Where no
recipient names a reverse alias that is drawn, the tables at the call decide who is sound;
otherwise each recipient finds those that the turns before its own have left. -/
theorem handle_allOrNothing_iff (router : AliasRouter) (envelope : Envelope) (h : Host) :
    (DrawsApart router envelope h →
      (AllOrNothing router envelope h.world (exec perform (router.handle envelope) h) ↔
        ¬ FailsLate router envelope h fun _ => h.world.db)) ∧
    (AllOrNothing router envelope h.world (exec perform (router.handle envelope) h) ↔
      ¬ FailsLate router envelope h (tablesAfter router envelope h)) := by
  rw [allOrNothing_iff_begins]
  refine ⟨fun hapart => ?_, not_congr (failsLate_iff handleAll_ok_iff).symm⟩
  refine not_congr (failsLate_iff ?_).symm
  have hok := handleAll_ok_of_apart (fun _ => id) (Grows.refl _) (fun _ => Or.inl) hapart
  refine hok.trans
    (and_congr_right' ⟨fun hall before recipient after hsplit => ?_, fun hall r hr => ?_⟩)
  · exact hall recipient (by rw [hsplit]; exact List.mem_append_right _ List.mem_cons_self)
  · obtain ⟨before, after, hsplit⟩ := List.append_of_mem hr
    exact hall before r after hsplit

/-- Two recipients of the alias that there is: both get their rows. -/
theorem handle_allOrNothing_sample :
    AllOrNothing sample
      ⟨"a@shop.example", ["shop@example.com".toList, "shop@example.com".toList], []⟩
      sampleHost.world (exec perform (sample.handle
        ⟨"a@shop.example", ["shop@example.com".toList, "shop@example.com".toList], []⟩)
          sampleHost) := by
  let envelope : Envelope :=
    ⟨"a@shop.example", ["shop@example.com".toList, "shop@example.com".toList], []⟩
  have hsound : sample.Sound envelope sampleHost.world.db "shop@example.com" :=
    ⟨.forward ['3'] "shop@example.com", by decide +kernel, ⟨.shop, by decide +kernel⟩,
      ⟨⟨"a", "shop.example", ⟨by decide +kernel, by decide +kernel⟩, by decide +kernel,
        by decide +kernel⟩, by decide +kernel⟩⟩
  refine ((handle_allOrNothing_iff sample envelope sampleHost).1 (by decide +kernel)).mpr ?_
  rintro ⟨-, hfails | ⟨before, recipient, after, hsplit, hnot⟩⟩
  · exact hfails (by decide +kernel)
  · have hmem : recipient ∈ envelope.rcptTo := by
      rw [hsplit]
      exact List.mem_append_right _ List.mem_cons_self
    obtain rfl : recipient = "shop@example.com".toList := by simpa [envelope] using hmem
    exact hnot hsound

/-- The second alias was deleted after `RCPT`: the message to the first one is queued, and the
client is told to send both again. -/
theorem handle_queues_then_refuses :
    ¬ ∀ (router : AliasRouter) (envelope : Envelope) (h : Host),
      AllOrNothing router envelope h.world (exec perform (router.handle envelope) h) := by
  intro hall
  let envelope : Envelope :=
    ⟨"a@shop.example", ["shop@example.com".toList, "gone@example.com".toList], []⟩
  have hresult : (exec perform (sample.handle envelope) sampleHost).1
      = .error (notRoutable "gone@example.com" "No such alias: gone@example.com") := by
        decide +kernel
  have hrows : (exec perform (sample.handle envelope) sampleHost).2.world.db.outbox.length
      = 1 := by
    decide +kernel
  have hall' := hall sample envelope sampleHost
  rcases hrun : exec perform (sample.handle envelope) sampleHost with ⟨result, t⟩
  rw [hrun] at hresult hrows hall'
  dsimp only at hresult hrows
  rw [hresult] at hall'
  rw [hall'.1] at hrows
  exact absurd hrows (by decide +kernel)

end AliasRouter

end Weiterleitung
