/-
# `Delivery.Files` — every row has its file

`enqueue` writes the file first and inserts the row after it.  When the insertion fails the
file stays, so files may be left without a row.  Rows without a file there are none.

    what `enqueue` leaves behind                         (`enqueue_effect`)
    a task inserts rows for files it has written         (`drafts_of_mails`, `drafts_passOf`)
    in every run every row has its file, with the bytes
      that were written for it, and no other row has     (`filed_run`)

Identifiers are drawn at random; that no two are the same is assumed (`Unique`).
-/
import Mathlib
import Weiterleitung.Delivery.Chronicle
import Weiterleitung.Delivery.Inbox
import Weiterleitung.Store.Reachable

namespace Weiterleitung

open Prog

/-! ## One call -/

/-- One pending row without attempts is new, and its file holds the message. -/
structure Enqueued (mailDir : Str) (message : NewOutboundMessage) (id : Str) (w w' : World) :
    Prop where
  fresh : ∀ row ∈ w.db.outbox, row.messageId ≠ id
  row : ∃ now, w'.db = { w.db with outbox := w.db.outbox ++ [message.row mailDir id now] }
  file : w'.spool.read (rawPath mailDir id) = some message.raw
  others : ∀ path, path ≠ rawPath mailDir id → w'.spool.read path = w.spool.read path

/-- No row is new, and at most the file of `id` is left behind. -/
structure Abandoned (mailDir id : Str) (w w' : World) : Prop where
  db : w'.db = w.db
  others : ∀ path, path ≠ rawPath mailDir id → w'.spool.read path = w.spool.read path

/-- What a call leaves behind, with the identifier it draws. -/
theorem enqueue_effect (mailDir : Str) (message : NewOutboundMessage) (h : Host) :
    (∃ h', exec perform (enqueue mailDir message) h = (.ok h.skip.chance.uuid, h') ∧
      Enqueued mailDir message h.skip.chance.uuid h.world h'.world) ∨
    ∃ e h', exec perform (enqueue mailDir message) h = (.error e, h') ∧
      Abandoned mailDir h.skip.chance.uuid h.world h'.world := by
  rcases enqueue_cases mailDir message h
    with ⟨now, db, h', he, hdb, hworld⟩ | ⟨e, h', he, hdb, hothers⟩
  · obtain ⟨hfresh, rfl⟩ := Db.insertOutbox_eq_some hdb
    refine Or.inl ⟨h', he, hfresh, ⟨now, by rw [hworld]⟩, ?_, fun path hne => ?_⟩
    · rw [hworld]
      exact Spool.read_write _ _ _
    · rw [hworld]
      exact Spool.read_write_ne _ _ hne.symm
  · exact Or.inr ⟨e, h', he, hdb, hothers⟩

/-! ## Drafts -/

/-- Rows are inserted for files that have been written, and files are written under identifiers
that have been drawn. -/
def InOrder (mailDir : Str) : Draft → Op → Prop
  | .named id, .writeFile path _ => path = rawPath mailDir id
  | _, .writeFile _ _ => False
  | .written id _, .write (.insertOutbox row) =>
      row.messageId = id ∧ row.rawPath = rawPath mailDir id
  | _, .write (.insertOutbox _) => False
  | _, _ => True

section
variable {mailDir : Str} {draft : Draft}

theorem inOrder_of_elsewhere {o : Op} (h : Elsewhere o) : InOrder mailDir draft o := by
  cases o with
  | writeFile => exact h.elim
  | write u => cases u <;> first | exact h.elim | cases draft <;> trivial
  | _ => cases draft <;> trivial

theorem inOrder_of_working {o : Op} (h : Working o) : InOrder mailDir draft o := by
  cases o with
  | writeFile =>
      rcases h with h | ⟨id, h⟩
      · exact h.elim
      · exact h.elim
  | write u =>
      cases u with
      | insertOutbox =>
          rcases h with h | ⟨id, h⟩
          · exact h.elim
          · exact h.elim
      | _ => cases draft <;> trivial
  | _ => cases draft <;> trivial

theorem drafts_enqueue (message : NewOutboundMessage) :
    Keeps Draft.next (InOrder mailDir) draft (enqueue mailDir message).run := by
  refine ⟨by cases draft <;> trivial, fun dir => ?_⟩
  cases dir with
  | error e => trivial
  | ok u =>
      refine ⟨by cases draft <;> trivial, fun messageId => ⟨rfl, fun file => ?_⟩⟩
      cases file with
      | error e => trivial
      | ok u =>
          refine ⟨trivial, fun now => ⟨⟨rfl, rfl⟩, fun row => ?_⟩⟩
          cases row <;> trivial

theorem drafts_of_mails {α : Type} {p : Prog Op Res α} (h : Mails mailDir p) :
    Keeps Draft.next (InOrder mailDir) draft p :=
  keeps_of_mails (fun _ _ => inOrder_of_elsewhere) (fun _ => drafts_enqueue) h

theorem drafts_passOf (maxAttempts : Int) :
    Keeps Draft.next (InOrder mailDir) draft (passOf maxAttempts) :=
  keeps_of_uses (fun _ _ => inOrder_of_working) working_passOf

end

/-! ## Rows and files -/

/-- The identifier of a draft. -/
def Draft.ids : Draft → List Str
  | .none => []
  | .named id | .written id _ => [id]

/-- A draft has an identifier that was drawn and is no row's, and its file
holds what was written. -/
structure Drafting (mailDir : Str) (w : World) (drawn : List Str) (draft : Draft) : Prop where
  named : ∀ id ∈ draft.ids, id ∈ drawn
  rowless : ∀ id ∈ draft.ids, ∀ row ∈ w.db.outbox, row.messageId ≠ id
  written : ∀ id raw, draft = .written id raw → w.spool.read (rawPath mailDir id) = some raw

/-- Every row has its file, with the bytes it was queued with, and every file an identifier. -/
structure Stored (mailDir : Str) (w : World) (drawn : List Str) (queued : List (Str × Bytes)) :
    Prop where
  named : ∀ row ∈ w.db.outbox, row.messageId ∈ drawn
  rows : ∀ row ∈ w.db.outbox, row.rawPath = rawPath mailDir row.messageId ∧
    ∃ raw, (row.messageId, raw) ∈ queued ∧ w.spool.read row.rawPath = some raw
  once : Keyed Prod.fst queued
  listed : ∀ e ∈ queued, ∃ row ∈ w.db.outbox, row.messageId = e.1
  files : ∀ path raw, w.spool.read path = some raw → ∃ id ∈ drawn, path = rawPath mailDir id

section
variable {mailDir : Str} {w w' : World} {drawn drawn' : List Str} {queued : List (Str × Bytes)}
    {draft : Draft}

theorem Draft.not_mem_ids_none {id : Str} : id ∉ Draft.none.ids := List.not_mem_nil

theorem Draft.ne_written_none {id : Str} {raw : Bytes} : Draft.none ≠ .written id raw := by
  rintro ⟨⟩

theorem Draft.ne_written_named {id id' : Str} {raw : Bytes} :
    Draft.named id ≠ .written id' raw := by
  rintro ⟨⟩

theorem drafting_none : Drafting mailDir w drawn .none :=
  ⟨fun _ h => absurd h Draft.not_mem_ids_none, fun _ h => absurd h Draft.not_mem_ids_none,
    fun _ _ h => absurd h Draft.ne_written_none⟩

/-- A draft goes on where identifiers are drawn, and rows and files come under other ones. -/
theorem Drafting.later (h : Drafting mailDir w drawn draft) (hdrawn : drawn ⊆ drawn')
    (hrows : ∀ row' ∈ w'.db.outbox, (∃ row ∈ w.db.outbox, row.messageId = row'.messageId) ∨
      row'.messageId ∉ draft.ids)
    (hfiles : ∀ id ∈ draft.ids, w'.spool.read (rawPath mailDir id)
      = w.spool.read (rawPath mailDir id)) :
    Drafting mailDir w' drawn' draft where
  named id hid := hdrawn (h.named id hid)
  rowless id hid row' hrow' h0 := by
    rcases hrows row' hrow' with ⟨row, hrow, he⟩ | hne
    · exact h.rowless id hid row hrow (he.trans h0)
    · exact hne (h0 ▸ hid)
  written id raw hd := by
    rw [hfiles id (by rw [hd]; exact List.mem_singleton_self id)]
    exact h.written id raw hd

/-- Rows that keep message and path. -/
theorem Stored.kept (h : Stored mailDir w drawn queued) (hspool : w'.spool = w.spool)
    (hrows : ∃ g : OutboxRow → OutboxRow, w'.db.outbox = w.db.outbox.map g ∧
      ∀ row, (g row).messageId = row.messageId ∧ (g row).rawPath = row.rawPath) :
    Stored mailDir w' drawn queued := by
  obtain ⟨g, he, hg⟩ := hrows
  refine ⟨fun row' hrow' => ?_, fun row' hrow' => ?_, h.once, fun e he' => ?_,
    fun path raw hread => ?_⟩
  · rw [he] at hrow'
    obtain ⟨row, hrow, rfl⟩ := List.mem_map.mp hrow'
    rw [(hg row).1]
    exact h.named row hrow
  · rw [he] at hrow'
    obtain ⟨row, hrow, rfl⟩ := List.mem_map.mp hrow'
    rw [(hg row).1, (hg row).2, hspool]
    exact h.rows row hrow
  · obtain ⟨row, hrow, hid⟩ := h.listed e he'
    refine ⟨g row, ?_, (hg row).1.trans hid⟩
    rw [he]
    exact List.mem_map_of_mem hrow
  · rw [hspool] at hread
    exact h.files path raw hread

/-- A file is written under an identifier that is no row's. -/
theorem Stored.wrote {id : Str} {raw : Bytes} (h : Stored mailDir w drawn queued)
    (hid : id ∈ drawn) (hrowless : ∀ row ∈ w.db.outbox, row.messageId ≠ id) :
    Stored mailDir { w with spool := w.spool.write (rawPath mailDir id) raw }
      drawn queued := by
  refine ⟨h.named, fun row hrow => ?_, h.once, h.listed, fun path bytes hread => ?_⟩
  · obtain ⟨hpath, bytes, hqueued, hread⟩ := h.rows row hrow
    refine ⟨hpath, bytes, hqueued, ?_⟩
    dsimp only
    rw [Spool.read_write_ne _ _ fun h0 => hrowless row hrow
      (rawPath_inj (h0.trans hpath)).symm]
    exact hread
  · by_cases hpath : rawPath mailDir id = path
    · exact ⟨id, hid, hpath.symm⟩
    · dsimp only at hread
      rw [Spool.read_write_ne _ _ hpath] at hread
      exact h.files path bytes hread

/-- A row is inserted for a file that was written. -/
theorem Stored.insert {row : OutboxRow} {raw : Bytes} (h : Stored mailDir w drawn queued)
    (hid : row.messageId ∈ drawn) (hrowless : ∀ other ∈ w.db.outbox,
      other.messageId ≠ row.messageId)
    (hpath : row.rawPath = rawPath mailDir row.messageId)
    (hread : w.spool.read row.rawPath = some raw) :
    Stored mailDir { w with db := { w.db with outbox := w.db.outbox ++ [row] } } drawn
      ((row.messageId, raw) :: queued) := by
  refine ⟨fun other hother => ?_, fun other hother => ?_, ?_, fun e he => ?_, h.files⟩
  · rcases List.mem_append.mp hother with hother | hother
    · exact h.named other hother
    · rw [List.mem_singleton.mp hother]
      exact hid
  · rcases List.mem_append.mp hother with hother | hother
    · obtain ⟨hpath', bytes, hqueued, hread'⟩ := h.rows other hother
      exact ⟨hpath', bytes, List.mem_cons_of_mem _ hqueued, hread'⟩
    · rw [List.mem_singleton.mp hother]
      exact ⟨hpath, raw, List.mem_cons_self, hread⟩
  · refine List.nodup_cons.mpr ⟨fun h0 => ?_, h.once⟩
    obtain ⟨e, he, he'⟩ := List.mem_map.mp h0
    obtain ⟨other, hother, hid'⟩ := h.listed e he
    exact hrowless other hother (hid'.trans he')
  · rcases List.mem_cons.mp he with rfl | he
    · exact ⟨row, List.mem_append_right _ (List.mem_singleton_self row), rfl⟩
    · obtain ⟨other, hother, hid'⟩ := h.listed e he
      exact ⟨other, List.mem_append_left _ hother, hid'⟩

/-- Another identifier is drawn. -/
theorem Stored.draw (h : Stored mailDir w drawn queued) (hdrawn : drawn ⊆ drawn') :
    Stored mailDir w drawn' queued where
  named row hrow := hdrawn (h.named row hrow)
  rows := h.rows
  once := h.once
  listed := h.listed
  files path raw hread := by
    obtain ⟨id, hid, hpath⟩ := h.files path raw hread
    exact ⟨id, hdrawn hid, hpath⟩

/-- What inserts no row keeps messages and paths. -/
theorem paths_of_answer (o : Op) (c : Chance) (w : World)
    (ho : ∀ row, o ≠ .write (.insertOutbox row)) :
    ∃ g : OutboxRow → OutboxRow, (answer o c w).2.db.outbox = w.db.outbox.map g ∧
      ∀ row, (g row).messageId = row.messageId ∧ (g row).rawPath = row.rawPath := by
  have hsame : ∀ db : Db, db.outbox = w.db.outbox → ∃ g : OutboxRow → OutboxRow,
      db.outbox = w.db.outbox.map g ∧
      ∀ row, (g row).messageId = row.messageId ∧ (g row).rawPath = row.rawPath :=
    fun db h => ⟨id, h.trans (List.map_id _).symm, fun _ => ⟨rfl, rfl⟩⟩
  rcases answer_db_cases o c w with he | ⟨u, rfl, hu⟩ | ⟨now, n, rfl, f, hf, he⟩
  · exact hsame _ (congrArg Db.outbox he)
  · generalize (answer (.write u) c w).2.db = db' at hu
    cases effect_of_write hu with
    | removes p mailboxes => exact ⟨_, rfl, fun _ => ⟨rfl, rfl⟩⟩
    | updates _ _ f g _ hg =>
        refine ⟨g, rfl, fun row => ?_⟩
        obtain ⟨_, _, _, _, _, hrow⟩ := hg row
        rw [hrow]
        exact ⟨rfl, rfl⟩
    | addsAlias | addsContact => exact hsame _ rfl
    | addsRow row => exact absurd rfl (ho row)
  · refine ⟨f, congrArg Db.outbox he, fun row => ?_⟩
    obtain ⟨status, hrow⟩ := hf row
    rw [hrow]
    exact ⟨rfl, rfl⟩

theorem spool_of_answer (o : Op) (c : Chance) (w : World)
    (ho : ∀ path raw, o ≠ .writeFile path raw) :
    (answer o c w).2.spool = w.spool := by
  cases o with
  | write u => rcases answer_write_cases u c w with ⟨db, -, -, he⟩ | ⟨-, he⟩ <;> rw [he]
  | claimDue now n => cases hf : c.fails <;> simp [answer, hf]
  | readFile path => cases hr : w.spool.read path <;> simp [answer, hr]
  | writeFile path raw => exact absurd rfl (ho path raw)
  | _ => rfl

end

/-! ## Runs -/

def draftIds (tasks : List Noted) : List Str := tasks.flatMap fun n => n.notes.draft.ids

/-- No identifier is drawn twice. -/
def Unique : Op → Chance → Chronicle → Prop
  | .uuid, c, s => c.uuid ∉ s.drawn
  | _, _, _ => True

namespace Chronicle

/-- Tasks work on drafts of their own, and every row has its file. -/
structure Filed (mailDir : Str) (s : Chronicle) : Prop where
  tasks : ∀ n ∈ s.tasks, Keeps Draft.next (InOrder mailDir) n.notes.draft n.task
  drafts : ∀ n ∈ s.tasks, Drafting mailDir s.world s.drawn n.notes.draft
  apart : (draftIds s.tasks).Nodup
  stored : Stored mailDir s.world s.drawn s.queued

section
variable {mailDir : Str} {maxAttempts : Int} {s s' : Chronicle}

theorem draftIds_perm (before after : List Noted) (n : Noted) :
    (draftIds (before ++ n :: after)).Perm
      (n.notes.draft.ids ++ draftIds (before ++ after)) := by
  unfold draftIds
  rw [List.flatMap_append, List.flatMap_cons, List.flatMap_append]
  exact List.perm_append_comm_assoc _ _ _

/-- A task that joins has no draft. -/
theorem Filed.join {p : Task} (h : Filed mailDir s)
    (hp : Keeps Draft.next (InOrder mailDir) .none p) :
    Filed mailDir { s with tasks := ⟨p, .blank⟩ :: s.tasks } := by
  refine ⟨fun n hn => ?_, fun n hn => ?_, h.apart, h.stored⟩
  · rcases List.mem_cons.mp hn with rfl | hn
    · exact hp
    · exact h.tasks n hn
  · rcases List.mem_cons.mp hn with rfl | hn
    · exact drafting_none
    · exact h.drafts n hn

/-- What a turn does to the draft of a task, its world and the files. -/
structure Drafts (mailDir : Str) (s : Chronicle) (draft : Draft) (w : World) (drawn : List Str)
    (queued : List (Str × Bytes)) (draft' : Draft) : Prop where
  own : Drafting mailDir w drawn draft'
  mine : ∀ id ∈ draft'.ids, id ∈ draft.ids ∨ id ∉ s.drawn
  grows : s.drawn ⊆ drawn
  rows : ∀ row' ∈ w.db.outbox, (∃ row ∈ s.world.db.outbox, row.messageId = row'.messageId) ∨
    row'.messageId ∈ draft.ids
  files : ∀ id ∉ draft.ids, w.spool.read (rawPath mailDir id)
    = s.world.spool.read (rawPath mailDir id)
  stored : Stored mailDir w drawn queued

/-- An operation that has to do with neither identifiers nor files nor new rows. -/
theorem drafts_other {o : Op} {c : Chance} {draft : Draft}
    (hstored : Stored mailDir s.world s.drawn s.queued)
    (hdraft : Drafting mailDir s.world s.drawn draft)
    (hrow : ∀ row, o ≠ .write (.insertOutbox row))
    (hfile : ∀ path raw, o ≠ .writeFile path raw) :
    Drafts mailDir s draft (Weiterleitung.answer o c s.world).2 s.drawn s.queued draft := by
  have hspool := spool_of_answer o c s.world hfile
  have hrows := paths_of_answer o c s.world hrow
  have hold : ∀ row' ∈ (Weiterleitung.answer o c s.world).2.db.outbox,
      ∃ row ∈ s.world.db.outbox, row.messageId = row'.messageId := by
    obtain ⟨g, he, hg⟩ := hrows
    intro row' hrow'
    rw [he] at hrow'
    obtain ⟨row, hrow, rfl⟩ := List.mem_map.mp hrow'
    exact ⟨row, hrow, (hg row).1.symm⟩
  exact {
    own := hdraft.later (fun _ h => h) (fun row' hrow' => Or.inl (hold row' hrow'))
      fun _ _ => by rw [hspool]
    mine := fun _ h => Or.inl h
    grows := fun _ h => h
    rows := fun row' hrow' => Or.inl (hold row' hrow')
    files := fun _ _ => by rw [hspool]
    stored := hstored.kept hspool hrows }

/-- A statement or a write that failed without a trace: the draft is given up. -/
theorem drafts_dropped (hstored : Stored mailDir s.world s.drawn s.queued) (draft : Draft) :
    Drafts mailDir s draft s.world s.drawn s.queued .none :=
  ⟨drafting_none, fun _ h => absurd h Draft.not_mem_ids_none, fun _ h => h,
    fun row' hrow' => Or.inl ⟨row', hrow', rfl⟩, fun _ _ => rfl, hstored⟩

/-- One operation that fits the draft. -/
theorem drafts_answer {o : Op} {c : Chance} {draft : Draft}
    (hstored : Stored mailDir s.world s.drawn s.queued)
    (hdraft : Drafting mailDir s.world s.drawn draft) (horder : InOrder mailDir draft o)
    (hunique : Unique o c s) :
    Drafts mailDir s draft (Weiterleitung.answer o c s.world).2
      (named o (Weiterleitung.answer o c s.world).1 ++ s.drawn)
      (filed o (Weiterleitung.answer o c s.world).1 draft ++ s.queued)
      (draft.next o (Weiterleitung.answer o c s.world).1) := by
  cases o with
  | uuid =>
      have hnext : draft.next .uuid c.uuid = .named c.uuid := by cases draft <;> rfl
      have hgrows : s.drawn ⊆ c.uuid :: s.drawn := List.subset_cons_self _ _
      show Drafts mailDir s draft s.world (c.uuid :: s.drawn) s.queued
        (draft.next .uuid c.uuid)
      rw [hnext]
      refine ⟨⟨fun id hid => ?_, fun id hid row hrow h0 => ?_,
        fun _ _ h0 => absurd h0 Draft.ne_written_named⟩, fun id hid => ?_, hgrows,
        fun row' hrow' => Or.inl ⟨row', hrow', rfl⟩, fun _ _ => rfl, hstored.draw hgrows⟩
      · rw [List.mem_singleton.mp hid]
        exact List.mem_cons_self
      · rw [List.mem_singleton.mp hid] at h0
        exact hunique (h0 ▸ hstored.named row hrow)
      · rw [List.mem_singleton.mp hid]
        exact Or.inr hunique
  | writeFile path raw =>
      cases draft with
      | none | written => exact horder.elim
      | named id =>
          obtain rfl : path = rawPath mailDir id := horder
          have hid := hdraft.named id (List.mem_singleton_self id)
          have hrowless := hdraft.rowless id (List.mem_singleton_self id)
          -- whatever was written, it is at this path
          have hwrote : ∀ (bytes : Bytes) (draft' : Draft), draft'.ids ⊆ [id] →
              (∀ i r, draft' = .written i r → i = id ∧ r = bytes) →
              Drafts mailDir s (.named id)
                { s.world with spool := s.world.spool.write (rawPath mailDir id) bytes }
                s.drawn s.queued draft' := by
            intro bytes draft' hids hdraft'
            refine ⟨⟨fun i hi => ?_, fun i hi => ?_, fun i r h0 => ?_⟩,
              fun i hi => Or.inl (hids hi), fun _ h => h,
              fun row' hrow' => Or.inl ⟨row', hrow', rfl⟩, fun i hi => ?_,
              hstored.wrote hid hrowless⟩
            · rw [List.mem_singleton.mp (hids hi)]
              exact hid
            · rw [List.mem_singleton.mp (hids hi)]
              exact hrowless
            · obtain ⟨rfl, rfl⟩ := hdraft' i r h0
              exact Spool.read_write _ _ _
            · exact Spool.read_write_ne _ _ fun h0 =>
                hi (List.mem_singleton.mpr (rawPath_inj h0).symm)
          cases hf : c.fails with
          | false =>
              simp only [Weiterleitung.answer, hf]
              exact hwrote raw (.written id raw) (fun _ h => h) fun i r h0 => by
                cases h0; exact ⟨rfl, rfl⟩
          | true =>
              cases ht : c.torn with
              | none =>
                  simp only [Weiterleitung.answer, hf, ht, if_true]
                  exact drafts_dropped hstored _
              | some n =>
                  simp only [Weiterleitung.answer, hf, ht, if_true]
                  exact hwrote _ .none (fun _ h => absurd h Draft.not_mem_ids_none)
                    fun _ _ h0 => absurd h0 Draft.ne_written_none
  | write u =>
      cases u with
      | insertOutbox row =>
          cases draft with
          | none | named => exact horder.elim
          | written id raw =>
              obtain ⟨rfl, hpath⟩ := horder
              have hrowless := hdraft.rowless _ (List.mem_singleton_self _)
              rcases answer_write_cases (.insertOutbox row) c s.world
                with ⟨db, -, hdb, he⟩ | ⟨-, he⟩
              · obtain ⟨-, rfl⟩ := Db.insertOutbox_eq_some hdb
                rw [he]
                have hread := hdraft.written _ _ rfl
                rw [← hpath] at hread
                refine ⟨drafting_none, fun _ h => absurd h Draft.not_mem_ids_none,
                  fun _ h => h, fun row' hrow' => ?_, fun _ _ => rfl,
                  hstored.insert (hdraft.named _ (List.mem_singleton_self _))
                    hrowless hpath hread⟩
                rcases List.mem_append.mp hrow' with hrow' | hrow'
                · exact Or.inl ⟨row', hrow', rfl⟩
                · rw [List.mem_singleton.mp hrow']
                  exact Or.inr (List.mem_singleton_self _)
              · rw [he]
                exact drafts_dropped hstored _
      | _ =>
          cases draft <;> exact drafts_other hstored hdraft (by rintro _ ⟨⟩) (by rintro _ _ ⟨⟩)
  | _ =>
      cases draft <;> exact drafts_other hstored hdraft (by rintro _ ⟨⟩) (by rintro _ _ ⟨⟩)

/-- A turn of one task; the others work on drafts of their own. -/
theorem Filed.turn {before after : List Noted} {n : Noted} {n' : Noted} {w : World}
    {drawn : List Str} {queued : List (Str × Bytes)} {log : List (Str × Finding)}
    (h : Filed mailDir s) (htasks : s.tasks = before ++ n :: after)
    (hn' : Keeps Draft.next (InOrder mailDir) n'.notes.draft n'.task)
    (hd : Drafts mailDir s n.notes.draft w drawn queued n'.notes.draft) :
    Filed mailDir { s with
      world := w, tasks := before ++ n' :: after, drawn := drawn, queued :=
    queued, log := log } := by
  have hmem : ∀ {m}, m ∈ before ++ after → m ∈ s.tasks := by
    intro m hm
    rw [htasks]
    rcases List.mem_append.mp hm with hm | hm
    · exact List.mem_append_left _ hm
    · exact List.mem_append_right _ (List.mem_cons_of_mem _ hm)
  have hsplit : ∀ {m x}, m ∈ before ++ x :: after → m = x ∨ m ∈ before ++ after := by
    intro m x hm
    rcases List.mem_append.mp hm with hm | hm
    · exact Or.inr (List.mem_append_left _ hm)
    · exact (List.mem_cons.mp hm).imp_right (List.mem_append_right _)
  have happart := h.apart
  rw [htasks, (draftIds_perm before after n).nodup_iff, List.nodup_append] at happart
  obtain ⟨-, hothers, hdisjoint⟩ := happart
  have hapart : ∀ m ∈ before ++ after, ∀ id ∈ m.notes.draft.ids, id ∉ n.notes.draft.ids :=
    fun m hm id hid h0 => hdisjoint id h0 id (List.mem_flatMap.mpr ⟨m, hm, hid⟩) rfl
  refine ⟨fun m hm => ?_, fun m hm => ?_, ?_, hd.stored⟩
  · rcases hsplit hm with rfl | hm
    · exact hn'
    · exact h.tasks m (hmem hm)
  · rcases hsplit hm with rfl | hm
    · exact hd.own
    · refine (h.drafts m (hmem hm)).later hd.grows (fun row' hrow' => ?_)
        fun id hid => hd.files id (hapart m hm id hid)
      exact (hd.rows row' hrow').imp_right fun hown h0 => hapart m hm _ h0 hown
  · show (draftIds (before ++ n' :: after)).Nodup
    rw [(draftIds_perm before after n').nodup_iff, List.nodup_append]
    refine ⟨?_, hothers, fun id hid other hother h0 => ?_⟩
    · cases n'.notes.draft with
      | none => exact List.nodup_nil
      | named | written => exact List.nodup_singleton _
    · subst h0
      rcases hd.mine id hid with hown | hnew
      · exact hdisjoint id hown id hother rfl
      · obtain ⟨m, hm, hid'⟩ := List.mem_flatMap.mp hother
        exact hnew ((h.drafts m (hmem hm)).named id hid')

theorem filed_step (h : Filed mailDir s)
    (hstep : Step (fun p => Mails mailDir p) Unique maxAttempts s s') :
    Filed mailDir s' := by
  cases hstep with
  | inbound p _ hmails => exact h.join (drafts_of_mails hmails)
  | pass => exact h.join (drafts_passOf maxAttempts)
  | answer _ n o c hanswers hunique =>
      obtain ⟨before, after, k, htasks, rfl⟩ := hanswers
      have hmem : (⟨.ask o k, n⟩ : Noted) ∈ s.tasks := by rw [htasks]; simp
      obtain ⟨horder, hk⟩ := h.tasks _ hmem
      exact h.turn htasks (hk _) (drafts_answer h.stored (h.drafts _ hmem) horder hunique)
  | crash =>
      exact ⟨fun _ hn => (nomatch hn), fun _ hn => (nomatch hn), List.nodup_nil, h.stored⟩
  | requeue c c' =>
      have hother : ∀ draft, Drafting mailDir s.world s.drawn draft →
          Drafts mailDir s draft _ s.drawn s.queued draft :=
        fun draft hdraft => drafts_other (o := .write (.requeueInterrupted c.now.toRfc3339))
          (c := c') h.stored hdraft (fun _ h0 => nomatch h0) (fun _ _ h0 => nomatch h0)
      exact ⟨h.tasks, fun n hn => (hother _ (h.drafts n hn)).own, h.apart,
        (hother _ drafting_none).stored⟩

/-- In every run every row has its file. -/
theorem filed_run {s₀ : Chronicle} (h₀ : s₀.Initial) (hspool : s₀.world.spool = [])
    (hrun : Run (fun p => Mails mailDir p) Unique maxAttempts s₀ s) : Filed mailDir s := by
  induction hrun with
  | refl =>
      obtain ⟨⟨houtbox, -, htasks, -⟩, -, -, hqueued⟩ := h₀
      have htasks' : s₀.tasks = [] := List.map_eq_nil_iff.mp htasks
      have houtbox' : s₀.world.db.outbox = [] := houtbox
      refine ⟨?_, ?_, ?_, ?_, ?_, ?_, ?_, ?_⟩
      · rw [htasks']; exact fun _ hn => nomatch hn
      · rw [htasks']; exact fun _ hn => nomatch hn
      · rw [htasks']; exact List.nodup_nil
      · rw [houtbox']; exact fun _ hrow => nomatch hrow
      · rw [houtbox']; exact fun _ hrow => nomatch hrow
      · rw [hqueued]; exact List.nodup_nil
      · rw [hqueued]; exact fun _ he => nomatch he
      · rw [hspool]; exact fun _ _ hread => nomatch hread
  | tail _ hstep ih => exact filed_step ih hstep

end

/-- A call that succeeds has added one pending row with a file of its own, that holds the
message; one that fails has added no row and at most a file.  In every run every row has its
file, with the bytes it was queued with, and no two rows share one; and a call that draws a
new identifier writes a new file. -/
theorem enqueue_files :
    (∀ (mailDir : Str) (message : NewOutboundMessage) (h h' : Host) (id : Str),
      exec perform (enqueue mailDir message) h = (.ok id, h') →
      Enqueued mailDir message id h.world h'.world) ∧
    (∀ (mailDir : Str) (message : NewOutboundMessage) (h h' : Host) (e : Str),
      exec perform (enqueue mailDir message) h = (.error e, h') →
        Abandoned mailDir h.skip.chance.uuid h.world h'.world) ∧
    ∀ (mailDir : Str) (maxAttempts : Int) (s₀ s : Chronicle), s₀.Initial →
      s₀.world.spool = [] →
      Run (fun p => Mails mailDir p) Unique maxAttempts s₀ s →
        (∀ row ∈ s.world.db.outbox, ∃ raw, s.world.spool.read row.rawPath = some raw ∧
          ∀ bytes, (row.messageId, bytes) ∈ s.queued ↔ bytes = raw) ∧
        (∀ row ∈ s.world.db.outbox, ∀ row' ∈ s.world.db.outbox, row.rawPath = row'.rawPath →
          row = row') ∧
        ∀ id, id ∉ s.drawn → s.world.spool.read (rawPath mailDir id) = none := by
  refine ⟨fun mailDir message h h' id he => ?_, fun mailDir message h h' e he => ?_, ?_⟩
  · rcases enqueue_effect mailDir message h with ⟨t, ht, henqueued⟩ | ⟨e, t, ht, -⟩
    · rw [he] at ht
      cases ht
      exact henqueued
    · rw [he] at ht
      cases ht
  · rcases enqueue_effect mailDir message h with ⟨t, ht, -⟩ | ⟨e', t, ht, habandoned⟩
    · rw [he] at ht
      cases ht
    · rw [he] at ht
      cases ht
      exact habandoned
  · intro mailDir maxAttempts s₀ s h₀ hspool hrun
    have hstored := (filed_run h₀ hspool hrun).stored
    obtain ⟨ts, hb⟩ := booked_run h₀ hrun
    refine ⟨fun row hrow => ?_, fun row hrow row' hrow' hpath => ?_, fun id hid => ?_⟩
    · obtain ⟨-, raw, hqueued, hread⟩ := hstored.rows row hrow
      refine ⟨raw, hread, fun bytes => ⟨fun h0 => ?_, fun h0 => h0 ▸ hqueued⟩⟩
      exact congrArg Prod.snd (List.inj_on_of_nodup_map hstored.once h0 hqueued rfl)
    · rw [(hstored.rows row hrow).1, (hstored.rows row' hrow').1] at hpath
      exact List.inj_on_of_nodup_map (Db.keyed_ledger.mp hb.staffed.desk.entries) hrow hrow'
        (rawPath_inj hpath)
    · cases hread : s.world.spool.read (rawPath mailDir id) with
      | none => rfl
      | some raw =>
          obtain ⟨id', hid', hpath⟩ := hstored.files _ raw hread
          exact absurd (rawPath_inj hpath ▸ hid') hid

/-! ### A message of an alias that is gone -/

instance : ∀ o c s, Decidable (Unique o c s)
  | .uuid, _, _ => inferInstanceAs (Decidable (¬ _))
  | .now, _, _ | .sample _, _, _ | .findAliasByAddress _, _, _ | .findContact _ _, _, _ =>
      isTrue trivial
  | .findContactByReverseAlias _, _, _ | .write _, _, _ | .claimDue _ _, _, _ => isTrue trivial
  | .createDirAll _, _, _ | .writeFile _ _, _, _ | .readFile _, _, _ | .send _ _ _ _, _, _ =>
      isTrue trivial

/-- A message for an alias, or for none. -/
def oneByte (aliasId : Option Str) : NewOutboundMessage :=
  { direction := .forward, envelopeFrom := [], envelopeTo := [], raw := [65],
    aliasId := aliasId, contactId := none,
    subject := none }

def emptyHost : Host := Host.calm ⟨Db.empty, [], []⟩

theorem oneByte_ok : exec perform (enqueue "mail".toList (oneByte none)) emptyHost =
    (.ok (emptyHost.skip.chance.uuid),
      (exec perform (enqueue "mail".toList (oneByte none)) emptyHost).2) := by
  rcases enqueue_effect "mail".toList (oneByte none) emptyHost
    with ⟨h', he, -⟩ | ⟨e, h', he, -⟩
  · rw [he]
  · have hok : (exec perform (enqueue "mail".toList (oneByte none)) emptyHost).1.toBool
        = true := by decide +kernel
    rw [he] at hok
    cases hok

theorem oneByte_error :
    ∃ e, exec perform (enqueue "mail".toList (oneByte (some ['1']))) emptyHost =
    (.error e, (exec perform (enqueue "mail".toList (oneByte (some ['1']))) emptyHost).2) := by
  rcases enqueue_effect "mail".toList (oneByte (some ['1'])) emptyHost
    with ⟨h', he, -⟩ | ⟨e, h', he, -⟩
  · have herror :
        (exec perform (enqueue "mail".toList (oneByte (some ['1']))) emptyHost).1.toBool
          = false := by
      decide +kernel
    rw [he] at herror
    cases herror
  · exact ⟨e, by rw [he]⟩

/-- A message is queued, one is not because its alias is gone, and the message of
`queuedOne` has its file. -/
theorem enqueue_files_sample :
    (exec perform (enqueue "mail".toList (oneByte none)) emptyHost).2.world.spool.read
      "mail/1.eml".toList = some [65] ∧
    (exec perform (enqueue "mail".toList (oneByte (some ['1']))) emptyHost).2.world.db =
      Db.empty ∧
    (queuedOne 3).world.db.outbox ≠ [] ∧ ∀ row ∈ (queuedOne 3).world.db.outbox, ∃ raw,
      (queuedOne 3).world.spool.read row.rawPath = some raw ∧
        ∀ bytes, (row.messageId, bytes) ∈ (queuedOne 3).queued ↔ bytes = raw := by
  obtain ⟨hok, herror, hrows⟩ := enqueue_files
  obtain ⟨s₀, h₀, hspool, hrun⟩ := run_queuedOne (fun p => Mails "mail".toList p) Unique 3
    (mails_bind (mails_enqueue _) fun _ => .ret ()) (by decide +kernel)
    fun _ => ⟨trivial, trivial⟩
  obtain ⟨e, he⟩ := oneByte_error
  have hfile := (hok _ _ _ _ _ oneByte_ok).file
  exact ⟨hfile, (herror _ _ _ _ _ he).db, by decide +kernel, (hrows _ 3 s₀ _ h₀ hspool hrun).1⟩

/-- The alias of the message is gone when its row is inserted: the call
fails and leaves a file. -/
theorem enqueue_leaves_file :
    ¬ ∀ (mailDir : Str) (message : NewOutboundMessage) (h h' : Host) (e : Str),
      exec perform (enqueue mailDir message) h = (.error e, h') →
        h'.world.db.outbox = h.world.db.outbox ∧ h'.world.spool = h.world.spool := by
  intro hall
  obtain ⟨e, he⟩ := oneByte_error
  have hleft :
      (exec perform (enqueue "mail".toList (oneByte (some ['1']))) emptyHost).2.world.spool
        ≠ [] := by
    decide +kernel
  exact hleft (hall _ _ _ _ _ he).2

end Chronicle

end Weiterleitung
