/-
# `Delivery.Claim` — a claim takes what is due, the earliest first

`claim_due` compares texts.  Where every row holds the text of an instant in the years 0
to 9999 (`Scheduled`), it takes the earliest rows that are due.

    a claim takes the earliest due rows, and changes
      their status and nothing else                      (`claims_in_order`)
    any operation adds a row, or keeps the rows in their
      places but those it claims, requeues or marks      (`rowsKept_answer`)
-/
import Mathlib
import Weiterleitung.Domain.Timestamp
import Weiterleitung.Delivery.Ledger

namespace Weiterleitung

open Prog

/-! ## The earliest -/

/-- `rows` are the first `n` of `due` by `key`, in order. -/
structure Earliest {α β : Type} [LinearOrder β] (key : α → β) (due : List α) (n : Nat)
    (rows : List α) : Prop where
  distinct : rows.Nodup
  among : rows ⊆ due
  count : rows.length = min n due.length
  ordered : rows.Pairwise fun a b => key a ≤ key b
  first : ∀ a ∈ rows, ∀ b ∈ due, b ∉ rows → key a ≤ key b

/-- The first part of a list that is sorted by more than the key. -/
theorem earliest_take {α β : Type} [LinearOrder β] {key : α → β} {due sorted : List α}
    (n : Nat) (hperm : sorted.Perm due) (hnodup : due.Nodup)
    (hsorted : sorted.Pairwise fun a b => key a ≤ key b) :
    Earliest key due n (sorted.take n) where
  distinct := (hperm.nodup_iff.mpr hnodup).sublist (List.take_sublist n sorted)
  among := fun a ha => hperm.subset (List.mem_of_mem_take ha)
  count := by rw [List.length_take, hperm.length_eq]
  ordered := hsorted.sublist (List.take_sublist n sorted)
  first := by
    intro a ha b hb hrest
    rw [← List.take_append_drop n sorted, List.pairwise_append] at hsorted
    have hb' := hperm.symm.subset hb
    rw [← List.take_append_drop n sorted] at hb'
    rcases List.mem_append.mp hb' with hb' | hb'
    · exact absurd hb' hrest
    · exact hsorted.2.2 a ha b hb'

/-! ## A claim -/

/-- Each row holds the text of an instant in the years 0 to 9999. -/
def Scheduled (at_ : OutboxRow → Instant) (db : Db) : Prop :=
  ∀ row ∈ db.outbox, (at_ row).InYears ∧ row.nextAttemptAt = (at_ row).toRfc3339

section
variable {db : Db} {at_ : OutboxRow → Instant}

/-- A claim sets the rows it takes to `sending`. -/
theorem Db.claimDue_rows (now : Str) (limit : Int) (rank : Str → Nat)
    (hkeyed : Keyed OutboxRow.messageId db.outbox) :
    (db.claimDue now limit rank).2 = { db with
      outbox := db.outbox.map fun row =>
        if row ∈ db.dueRows now limit rank then { row with status := .sending }
          else row } := by
  unfold Db.claimDue
  dsimp only
  rw [Db.foldl_sending]
  congr 1
  refine List.map_congr_left fun row hrow => if_congr ?_ rfl rfl
  rw [List.map_map]
  constructor
  · intro h
    obtain ⟨other, hother, hid⟩ := List.mem_map.mp h
    rw [List.inj_on_of_nodup_map hkeyed hrow (Db.mem_dueRows hother).1 hid.symm]
    exact hother
  · exact fun h => List.mem_map.mpr ⟨row, h, rfl⟩

/-- The order of the claim is one of the texts. -/
theorem sorted_due (rank : Str → Nat) (due : List OutboxRow) :
    (due.insertionSort fun a b => a.nextAttemptAt < b.nextAttemptAt ∨
      a.nextAttemptAt = b.nextAttemptAt ∧ rank a.messageId ≤ rank b.messageId).Pairwise
      fun a b => a.nextAttemptAt ≤ b.nextAttemptAt := by
  let key : OutboxRow → Lex (Str × Nat) :=
    fun row => toLex (row.nextAttemptAt, rank row.messageId)
  have hkey : ∀ a b, (a.nextAttemptAt < b.nextAttemptAt ∨
      a.nextAttemptAt = b.nextAttemptAt ∧ rank a.messageId ≤ rank b.messageId) ↔
      key a ≤ key b :=
    fun a b => (Prod.Lex.toLex_le_toLex (x := (a.nextAttemptAt, rank a.messageId))
      (y := (b.nextAttemptAt, rank b.messageId))).symm
  simp only [hkey]
  refine (pairwise_sorted key due).imp fun {a b} h => ?_
  rcases (hkey a b).mpr h with h | ⟨h, -⟩
  · exact le_of_lt h
  · exact le_of_eq h

/-- A claim takes the earliest of the rows that are due, at most `limit` of them. -/
theorem claimDue_earliest {now : Instant} {limit : Int} (rank : Str → Nat)
    (hkeyed : Keyed OutboxRow.messageId db.outbox) (hs : Scheduled at_ db) (hnow : now.InYears)
    (hlimit : 0 ≤ limit) :
    Earliest at_ (db.outbox.filter fun row => row.status = .pending ∧ at_ row ≤ now)
      limit.toNat (db.dueRows now.toRfc3339 limit rank) := by
  have hdue :
      (db.outbox.filter fun row => row.status = .pending && row.nextAttemptAt ≤ now.toRfc3339)
      = db.outbox.filter fun row => row.status = .pending ∧ at_ row ≤ now := by
    refine List.filter_congr fun row hrow => ?_
    obtain ⟨hyears, htext⟩ := hs row hrow
    rw [htext, Bool.decide_and]
    congr 1
    exact decide_eq_decide.mpr (Instant.toRfc3339_le_iff hyears hnow)
  unfold Db.dueRows
  rw [hdue]
  dsimp only
  rw [if_neg (by omega)]
  refine earliest_take limit.toNat (List.perm_insertionSort _ _) ?_ ?_
  · exact (List.Nodup.of_map _ hkeyed).filter _
  · refine (sorted_due rank _).imp_of_mem fun {a b} ha hb hab => ?_
    obtain ⟨hyearsa, htexta⟩ := hs a (List.mem_filter.mp ((List.mem_insertionSort _).mp ha)).1
    obtain ⟨hyearsb, htextb⟩ := hs b (List.mem_filter.mp ((List.mem_insertionSort _).mp hb)).1
    rw [htexta, htextb] at hab
    exact (Instant.toRfc3339_le_iff hyearsa hyearsb).mp hab

/-- `claim_due` takes the earliest due rows, or fails and changes nothing. -/
def ClaimsInOrder (at_ : OutboxRow → Instant) (limit : Int) (h : Host) : Prop :=
  if h.skip.chance.fails then
    ∃ e, (exec perform (claimDue limit) h).1 = .error e ∧
      (exec perform (claimDue limit) h).2.world = h.world
  else
    ∃ rows, Earliest at_ (h.world.db.outbox.filter fun row => row.status = .pending ∧
      at_ row ≤ h.chance.now) limit.toNat rows ∧
      (exec perform (claimDue limit) h).1 = .ok (rows.map OutboxRow.queued) ∧
      (exec perform (claimDue limit) h).2.world = { h.world with db := { h.world.db with
        outbox := h.world.db.outbox.map fun row =>
          if row ∈ rows then { row with status := .sending } else row } }

theorem claims_in_order {h : Host} {limit : Int}
    (hkeyed : Keyed OutboxRow.messageId h.world.db.outbox)
    (hs : Scheduled at_ h.world.db) (hnow : h.chance.now.InYears) (hlimit : 0 ≤ limit) :
    ClaimsInOrder at_ limit h := by
  have hexec : exec perform (claimDue limit) h =
      ((answer (.claimDue h.chance.now.toRfc3339 limit) h.skip.chance h.world).1,
        h.skip.after
          (answer (.claimDue h.chance.now.toRfc3339 limit) h.skip.chance h.world).2) := rfl
  unfold ClaimsInOrder
  rw [hexec]
  cases hf : h.skip.chance.fails with
  | true =>
      rw [if_pos rfl]
      exact ⟨h.skip.chance.text, by simp [answer, hf]⟩
  | false =>
      rw [if_neg Bool.false_ne_true]
      refine ⟨_, claimDue_earliest h.skip.chance.rank hkeyed hs hnow hlimit, by
        simp [answer, hf, Db.claimDue], ?_⟩
      simp only [answer, hf]
      exact congrArg (fun db : Db => { h.world with db := db })
        (Db.claimDue_rows _ limit _ hkeyed)

end

/-! ## What an operation does to a row -/

/-- A row is claimed, requeued or marked. -/
def Touched : (o : Op) → Res o → OutboxRow → OutboxRow → Prop
  | .claimDue _ _, .ok messages, row, row' =>
      row.messageId ∈ messages.map (·.messageId) ∧ row'.nextAttemptAt = row.nextAttemptAt
  | .write (.requeueInterrupted now), _, row, row' =>
      row.status = .sending ∧ row'.nextAttemptAt = now
  | .write (.markDelivered id _), _, row, row' =>
      row.messageId = id ∧ row'.nextAttemptAt = row.nextAttemptAt
  | .write (.markFailed id _ _), _, row, row' =>
      row.messageId = id ∧ row'.nextAttemptAt = row.nextAttemptAt
  | .write (.markPending id _ _ at_), _, row, row' =>
      row.messageId = id ∧ row'.nextAttemptAt = at_
  | _, _, _, _ => False

/-- The row keeps its message, and its place in the schedule unless it is touched. -/
def Kept (o : Op) (r : Res o) (row row' : OutboxRow) : Prop :=
  row'.messageId = row.messageId ∧
    (row'.status = row.status ∧ row'.nextAttemptAt = row.nextAttemptAt ∨ Touched o r row row')

theorem Kept.refl (o : Op) (r : Res o) (row : OutboxRow) : Kept o r row row :=
  ⟨rfl, Or.inl ⟨rfl, rfl⟩⟩

/-- A row is new, or all rows are kept. -/
def RowsKept (o : Op) (r : Res o) (rows rows' : List OutboxRow) : Prop :=
  (∃ row, o = .write (.insertOutbox row) ∧ rows' = rows ++ [row]) ∨
    ∃ g, rows' = rows.map g ∧ ∀ row ∈ rows, Kept o r row (g row)

theorem RowsKept.same (o : Op) (r : Res o) (rows : List OutboxRow) : RowsKept o r rows rows :=
  Or.inr ⟨id, (List.map_id _).symm, fun row _ => Kept.refl o r row⟩

theorem rowsKept_write {u : Write} {db db' : Db} (r : Except Str Unit)
    (h : u.apply db = some db') :
    RowsKept (.write u) r db.outbox db'.outbox := by
  -- `UPDATE outbox … WHERE message_id = ?`
  have hupdate : ∀ (id : Str) (f : OutboxRow → OutboxRow),
      (∀ row, row.messageId = id → Kept (.write u) r row (f row)) →
      RowsKept (.write u) r db.outbox (db.updateRow id f).outbox := by
    intro id f hf
    refine Or.inr ⟨_, rfl, fun row _ => ?_⟩
    split
    · next hid => exact hf row hid
    · exact Kept.refl (.write u) r row
  cases u with
  | insertMailbox m =>
      obtain ⟨f, -, -, rfl⟩ := Db.insertMailbox_eq_some h
      exact RowsKept.same _ r _
  | insertAlias a =>
      obtain ⟨-, -, rfl⟩ := Db.insertAlias_eq_some h
      exact RowsKept.same _ r _
  | insertContact c =>
      rcases Db.insertContact_eq_some h with ⟨-, rfl⟩ | ⟨-, -, -, rfl⟩
      · exact RowsKept.same _ r _
      · exact RowsKept.same _ r _
  | insertOutbox row =>
      obtain ⟨-, rfl⟩ := Db.insertOutbox_eq_some h
      exact Or.inl ⟨row, rfl, rfl⟩
  | deleteMailbox | deleteAlias =>
      cases h
      exact Or.inr ⟨_, rfl, fun row _ => ⟨rfl, Or.inl ⟨rfl, rfl⟩⟩⟩
  | setAliasEnabled | recordAliasActivity =>
      cases h
      exact RowsKept.same _ r _
  | requeueInterrupted now =>
      cases h
      refine Or.inr ⟨_, rfl, fun row _ => ?_⟩
      split
      · next hsending => exact ⟨rfl, Or.inr ⟨hsending, rfl⟩⟩
      · exact Kept.refl (.write (.requeueInterrupted now)) r row
  | markDelivered id now =>
      cases h
      exact hupdate id _ fun row hid => ⟨rfl, Or.inr ⟨hid, rfl⟩⟩
  | markFailed id attempts error =>
      cases h
      exact hupdate id _ fun row hid => ⟨rfl, Or.inr ⟨hid, rfl⟩⟩
  | markPending id attempts error at_ =>
      cases h
      exact hupdate id _ fun row hid => ⟨rfl, Or.inr ⟨hid, rfl⟩⟩

theorem rowsKept_answer (o : Op) (c : Chance) {w : World}
    (hkeyed : Claims o → Keyed OutboxRow.messageId w.db.outbox) :
    RowsKept o (answer o c w).1 w.db.outbox (answer o c w).2.db.outbox := by
  cases o with
  | write u =>
      rcases answer_write_cases u c w with ⟨db, -, hdb, he⟩ | ⟨-, he⟩
      · rw [he]
        exact rowsKept_write _ hdb
      · rw [he]
        exact RowsKept.same _ _ _
  | claimDue now limit =>
      cases hf : c.fails with
      | true =>
          simp only [answer, hf, if_true]
          exact RowsKept.same _ _ _
      | false =>
          simp only [answer, hf]
          refine Or.inr
            ⟨_, congrArg Db.outbox (Db.claimDue_rows now limit c.rank (hkeyed trivial)),
              fun row _ => ?_⟩
          by_cases hdue : row ∈ w.db.dueRows now limit c.rank
          · rw [if_pos hdue]
            exact ⟨rfl, Or.inr ⟨List.mem_map_of_mem (List.mem_map_of_mem hdue), rfl⟩⟩
          · rw [if_neg hdue]
            exact Kept.refl _ _ row
  | writeFile path raw =>
      rw [answer_writeFile_db]
      exact RowsKept.same _ _ _
  | readFile path =>
      rw [answer_readFile_db]
      exact RowsKept.same _ _ _
  | _ => exact RowsKept.same _ _ _

end Weiterleitung
