/-
# `Routes.Toggle` — are toggles of an alias lost?

A toggle reads the flag of the alias with one statement and writes its negation with another.
Requests take turns in between, so a request may write over what it has not read:

    a turn changes nothing that counts, or writes what a request read
      before, negated                                                  (`turn_cases`)
    the flag is the first one, flipped once for each request that was
      answered, and each answer tells the flag that its flip made
      ⟺  each write finds the flag as its request read it              (`toggles_kept_iff`)

Two requests that both read before one of them writes are the shortest run that loses a toggle
(`toggle_lost`).
-/
import Mathlib
import Weiterleitung.Routes.Admin
import Weiterleitung.Smtp.Agree
import Weiterleitung.Store.Listing

namespace Weiterleitung

open Text Prog Crew

/-! ## The source -/

/-- What the operator reads after a toggle of an alias that was `enabled`. -/
def toggledMessage (address : Str) (enabled : Bool) : Str :=
  address ++ " is now ".toList ++ (if enabled then "disabled" else "enabled").toList

/-- The answer, once the flag is written or not. -/
def toggleWritten (found : Alias) : Except Str Unit → Prog (Op ⊕ Query) PageRes Shown
  | .error _ => return .internalError "Failed to toggle the alias"
  | .ok _ => return .flashInfo (toggledMessage found.address found.enabled)

/-- The second statement. -/
def toggleFound (found : Alias) : Prog (Op ⊕ Query) PageRes Shown := do
  toggleWritten found (← lift (setAliasEnabled found.aliasId (!found.enabled)).run)

/-- What follows the first statement. -/
def toggleListed (aliasId : Str) :
    Except Str (List AliasWithMailbox) → Prog (Op ⊕ Query) PageRes Shown
  | .error _ => return .internalError "Failed to list the aliases"
  | .ok aliases =>
      match aliases.find? (·.toAlias.aliasId = aliasId) with
      | none => return .flashError "No such alias"
      | some found => toggleFound found.toAlias

def toggleAlias (aliasId : Str) : Prog (Op ⊕ Query) PageRes Shown := do
  toggleListed aliasId (← listAliases.run)

/-! ## Requests that take turns -/

/-- Pages are under no rules. -/
def pageRules : Rules (Op ⊕ Query) PageRes Chance World where
  answer := answerPage
  inv _ := True
  rely _ _ := True
  may _ _ := True
  fair _ _ _ := True
  refl _ := trivial
  trans _ _ := trivial
  step _ _ _ := ⟨trivial, trivial⟩

/-- The requests at work, and the tables. -/
abbrev Requests := Crew (Op ⊕ Query) PageRes World Shown

/-- `n` requests to toggle the alias, after the turns of a schedule. -/
def toggling (w : World) (aliasId : Str) (n : Nat) (schedule : List (Nat × Chance)) :
    Requests :=
  schedule.foldl (turnOf pageRules) ⟨w, List.replicate n (toggleAlias aliasId)⟩

/-- Is the alias enabled? -/
def Db.enabledOf (aliasId : Str) (db : Db) : Option Bool :=
  (lookup Alias.aliasId aliasId db.aliases).map (·.enabled)

def hasAnswered : Prog (Op ⊕ Query) PageRes Shown → Bool
  | .ret (.flashInfo _) => true
  | _ => false

def hasFailed : Prog (Op ⊕ Query) PageRes Shown → Bool
  | .ret (.internalError _) => true
  | _ => false

def hasReturned : Prog (Op ⊕ Query) PageRes Shown → Bool
  | .ret _ => true
  | .ask _ _ => false

/-- The requests that have told the operator of a toggle. -/
def answered (s : Requests) : Nat := s.tasks.countP hasAnswered

/-- A request that is answered in a turn has flipped the flag, and
tells the flag that it made. -/
def TellsFlip (a : Alias) (s s' : Requests) : Prop :=
  ∀ (i : Nat) message, s'.tasks[i]? = some (ret (Shown.flashInfo message)) →
    s.tasks[i]? = s'.tasks[i]? ∨
    ∃ enabled, s.state.db.enabledOf a.aliasId = some enabled ∧
      s'.state.db.enabledOf a.aliasId = some (!enabled) ∧
      message = toggledMessage a.address enabled

/-- No toggle is lost: the flag is flipped once for each request that was answered, which in
the end is every request if nothing fails. -/
structure TogglesKept (w : World) (a : Alias) (n : Nat) (schedule : List (Nat × Chance)) :
    Prop where
  enabled : (toggling w a.aliasId n schedule).state.db.enabledOf a.aliasId
    = some (not^[answered (toggling w a.aliasId n schedule)] a.enabled)
  tells : ∀ before turn, schedule = before ++ [turn] →
    TellsFlip a (toggling w a.aliasId n before) (toggling w a.aliasId n schedule)
  everyone : (∀ turn ∈ schedule, turn.2.fails = false) →
    (∀ p ∈ (toggling w a.aliasId n schedule).tasks, hasReturned p = true) →
      answered (toggling w a.aliasId n schedule) = n

/-- The flag that the request is about to write. -/
def toWrite : Prog (Op ⊕ Query) PageRes Shown → Option Bool
  | .ask (.inl (.write (.setAliasEnabled _ enabled))) _ => some enabled
  | _ => none

/-- If a write takes effect in this turn, the flag is as the request read it. -/
def AsRead (aliasId : Str) (s : Requests) (turn : Nat × Chance) : Prop :=
  ∀ enabled, s.tasks[turn.1]?.bind toWrite = some (!enabled) → turn.2.fails = false →
    s.state.db.enabledOf aliasId = some enabled

instance (aliasId : Str) (s : Requests) (turn : Nat × Chance) :
    Decidable (AsRead aliasId s turn) :=
  inferInstanceAs (Decidable (∀ _ : Bool, _ → _ → _))

/-! ## The tables while aliases are toggled -/

namespace Db

variable {db : Db} {a : Alias}

theorem setAliasEnabled_again (aliasId : Str) (b c : Bool) :
    (db.setAliasEnabled aliasId b).setAliasEnabled aliasId c
      = db.setAliasEnabled aliasId c := by
  unfold setAliasEnabled
  dsimp only
  rw [List.map_map]
  congr 1
  refine List.map_congr_left fun x _ => ?_
  by_cases hx : x.aliasId = aliasId
  · simp [hx]
  · simp [hx]

/-- Writing the flag that is there changes nothing. -/
theorem setAliasEnabled_same (hkeyed : Keyed Alias.aliasId db.aliases) (ha : a ∈ db.aliases) :
    db.setAliasEnabled a.aliasId a.enabled = db := by
  have hmap : (db.aliases.map fun x => if x.aliasId = a.aliasId
      then { x with enabled := a.enabled } else x) = db.aliases.map id := by
    refine List.map_congr_left fun x hx => ?_
    split
    · next hid =>
        rw [List.inj_on_of_nodup_map hkeyed hx ha hid]
        rfl
    · rfl
  unfold setAliasEnabled
  rw [hmap, List.map_id]

theorem aliasId_setEnabled (aliasId : Str) (b : Bool) (x : Alias) :
    (if x.aliasId = aliasId then { x with enabled := b } else x).aliasId = x.aliasId := by
  split <;> rfl

theorem enabledOf_setAliasEnabled (ha : a ∈ db.aliases) (b : Bool) :
    (db.setAliasEnabled a.aliasId b).enabledOf a.aliasId = some b := by
  unfold enabledOf setAliasEnabled
  dsimp only
  rw [lookup_map (aliasId_setEnabled a.aliasId b)]
  cases hfound : lookup Alias.aliasId a.aliasId db.aliases with
  | none => exact absurd rfl (lookup_eq_none.mp hfound a ha)
  | some x =>
      rw [Option.map_some, if_pos (lookup_some hfound).2]
      rfl

/-- The alias is listed as it is in the table. -/
theorem find_listAliases (hkeyed : Keyed Alias.aliasId db.aliases) (ha : a ∈ db.aliases)
    {m : Mailbox} (hm : db.mailboxOf a = some m) (rank : Str → Nat) :
    (db.listAliases rank).find? (·.toAlias.aliasId = a.aliasId) = some ⟨a, m.email⟩ := by
  unfold listAliases
  dsimp only
  generalize hsorted : (db.aliases.insertionSort fun a b =>
    b.createdAt < a.createdAt ∨ a.createdAt = b.createdAt ∧ rank a.aliasId ≤ rank b.aliasId)
      = sorted
  have hmem : ∀ x, x ∈ sorted ↔ x ∈ db.aliases := by
    intro x
    rw [← hsorted, List.mem_insertionSort]
  have hlisted : (⟨a, m.email⟩ : AliasWithMailbox) ∈
      sorted.filterMap fun a => (db.mailboxOf a).map
        fun m => (⟨a, m.email⟩ : AliasWithMailbox) :=
    List.mem_filterMap.mpr ⟨a, (hmem a).mpr ha, by rw [hm]; rfl⟩
  cases hfound :
    (sorted.filterMap fun a => (db.mailboxOf a).map
      fun m => (⟨a, m.email⟩ : AliasWithMailbox)).find?
      (fun found => decide (found.toAlias.aliasId = a.aliasId)) with
  | none => exact absurd (decide_eq_true rfl) (List.find?_eq_none.mp hfound _ hlisted)
  | some found =>
      have hid : found.toAlias.aliasId = a.aliasId := by simpa using List.find?_some hfound
      obtain ⟨x, hx, hfx⟩ := List.mem_filterMap.mp (List.mem_of_find?_eq_some hfound)
      obtain ⟨m', hm', rfl⟩ := Option.map_eq_some_iff.mp hfx
      obtain rfl := List.inj_on_of_nodup_map hkeyed ((hmem x).mp hx) ha hid
      rw [hm] at hm'
      cases hm'
      rfl

/-- A toggled alias is listed with its new flag. -/
theorem find_toggled (hkeyed : Keyed Alias.aliasId db.aliases) (ha : a ∈ db.aliases)
    {m : Mailbox} (hm : db.mailboxOf a = some m) (b : Bool) (rank : Str → Nat) :
    ((db.setAliasEnabled a.aliasId b).listAliases rank).find? (·.toAlias.aliasId = a.aliasId)
      = some ⟨{ a with enabled := b }, m.email⟩ := by
  have hmem : { a with enabled := b } ∈ (db.setAliasEnabled a.aliasId b).aliases :=
    List.mem_map.mpr ⟨a, ha, if_pos rfl⟩
  exact find_listAliases (hkeyed.map (aliasId_setEnabled a.aliasId b)) hmem hm rank

end Db

/-! ## One turn -/

/-- Where a request can be: before its read, between read and write, or answered. -/
inductive Phase (a : Alias) : Prog (Op ⊕ Query) PageRes Shown → Prop
  | waiting : Phase a (toggleAlias a.aliasId)
  | read (enabled : Bool) : Phase a (toggleFound { a with enabled := enabled })
  | failed (context : Str) : Phase a (.ret (.internalError context))
  | told (enabled : Bool) : Phase a (.ret (.flashInfo (toggledMessage a.address enabled)))

/-- The tables have one flag that may differ, and every request is somewhere. -/
structure Toggling (w : World) (a : Alias) (flag : Bool) (s : Requests) : Prop where
  db : s.state.db = w.db.setAliasEnabled a.aliasId flag
  tasks : ∀ p ∈ s.tasks, Phase a p

/-- What becomes of the request whose turn it is, with the tables after the turn: it has read
the flag, it failed and nothing was written, or it has written the negation of what it read. -/
inductive Move (w : World) (a : Alias) (flag : Bool) (c : Chance) (t : World) :
    Prog (Op ⊕ Query) PageRes Shown → Prog (Op ⊕ Query) PageRes Shown → Prop
  | listed : t.db = w.db.setAliasEnabled a.aliasId flag →
      Move w a flag c t (toggleAlias a.aliasId) (toggleFound { a with enabled := flag })
  | failed (p : Prog (Op ⊕ Query) PageRes Shown) (context : Str) : c.fails = true →
      hasAnswered p = false →
      t.db = w.db.setAliasEnabled a.aliasId flag →
      Move w a flag c t p (.ret (.internalError context))
  | written (enabled : Bool) : c.fails = false →
      t.db = w.db.setAliasEnabled a.aliasId (!enabled) →
      Move w a flag c t (toggleFound { a with enabled := enabled })
        (.ret (.flashInfo (toggledMessage a.address enabled)))

section
variable {w : World} {a : Alias} {flag : Bool} {s : Requests} {turn : Nat × Chance}

theorem turnOf_waiting (htask : s.tasks[turn.1]? = some (toggleAlias a.aliasId)) :
    turnOf pageRules s turn = ⟨s.state, s.tasks.set turn.1
      (toggleListed a.aliasId (turn.2.give (s.state.db.listAliases turn.2.rank)))⟩ := by
  unfold turnOf
  rw [htask]
  rfl

theorem turnOf_read {found : Alias} (htask : s.tasks[turn.1]? = some (toggleFound found)) :
    turnOf pageRules s turn =
      ⟨(answer (.write (.setAliasEnabled found.aliasId (!found.enabled))) turn.2 s.state).2,
        s.tasks.set turn.1
        (toggleWritten found
          (answer (.write (.setAliasEnabled found.aliasId (!found.enabled))) turn.2
            s.state).1)⟩ := by
  unfold turnOf
  rw [htask]
  rfl

/-- It is nobody's turn, or one request moves. -/
theorem turn_move (hkeyed : Keyed Alias.aliasId w.db.aliases) (ha : a ∈ w.db.aliases)
    {m : Mailbox} (hm : w.db.mailboxOf a = some m) (h : Toggling w a flag s)
    (turn : Nat × Chance) :
    (turnOf pageRules s turn = s ∧ s.tasks[turn.1]?.bind toWrite = none) ∨
    ∃ old new t, s.tasks[turn.1]? = some old ∧ Move w a flag turn.2 t old new ∧
      turnOf pageRules s turn = ⟨t, s.tasks.set turn.1 new⟩ := by
  have hidle : (∀ o k, s.tasks[turn.1]? ≠ some (ask o k)) → turnOf pageRules s turn = s := by
    intro hno
    unfold turnOf
    split
    · next o k htask => exact absurd htask (hno o k)
    · rfl
  cases htask : s.tasks[turn.1]? with
  | none => exact Or.inl ⟨hidle fun o k => by simp [htask], rfl⟩
  | some p =>
      have hphase := h.tasks p (List.mem_of_getElem? htask)
      cases hphase with
      | failed context => exact Or.inl ⟨hidle fun o k => by simp [htask], rfl⟩
      | told enabled => exact Or.inl ⟨hidle fun o k => by simp [htask], rfl⟩
      | waiting =>
          refine Or.inr ⟨_, _, _, rfl, ?_, turnOf_waiting htask⟩
          rw [Chance.give]
          split
          · next hfails => exact .failed _ _ hfails rfl h.db
          · unfold toggleListed
            dsimp only
            rw [h.db, Db.find_toggled hkeyed ha hm]
            exact .listed h.db
      | read enabled =>
          refine Or.inr ⟨_, _, _, rfl, ?_, turnOf_read htask⟩
          rcases answer_write_cases (.setAliasEnabled a.aliasId (!enabled)) turn.2 s.state with
            ⟨db, hcalm, hdb, he⟩ | ⟨hfails, he⟩
          · cases hdb
            rw [he]
            refine .written enabled hcalm ?_
            dsimp only
            rw [h.db, Db.setAliasEnabled_again]
          · rw [he]
            refine .failed _ _ ?_ rfl h.db
            rcases hfails with hfails | hnone
            · exact hfails
            · cases hnone

/-- A request goes on, with or without an answer. -/
theorem set_task (new : Prog (Op ⊕ Query) PageRes Shown)
    {old : Prog (Op ⊕ Query) PageRes Shown} {i : Nat}
    (htask : s.tasks[i]? = some old) (hold : hasAnswered old = false) :
    (s.tasks.set i new).countP hasAnswered = answered s + (if hasAnswered new then 1 else 0) ∧
      ∀ (j : Nat) message, (s.tasks.set i new)[j]? = some (ret (Shown.flashInfo message)) →
        s.tasks[j]? = (s.tasks.set i new)[j]? ∨ new = ret (Shown.flashInfo message) := by
  obtain ⟨hlt, hget⟩ := List.getElem?_eq_some_iff.mp htask
  constructor
  · rw [List.countP_set hlt, hget, hold]
    simp [answered]
  · intro j message hj
    by_cases hij : i = j
    · subst hij
      rw [List.getElem?_set_self hlt] at hj
      exact Or.inr (Option.some.inj hj)
    · rw [List.getElem?_set_ne hij]
      exact Or.inl rfl

/-- A turn in which nothing is written, or one in which the negation of what was read is. -/
theorem turn_cases (hkeyed : Keyed Alias.aliasId w.db.aliases) (ha : a ∈ w.db.aliases)
    {m : Mailbox} (hm : w.db.mailboxOf a = some m) (h : Toggling w a flag s)
    (turn : Nat × Chance) :
    (Toggling w a flag (turnOf pageRules s turn) ∧
      answered (turnOf pageRules s turn) = answered s ∧
      (∀ (i : Nat) message, (turnOf pageRules s turn).tasks[i]? =
        some (ret (Shown.flashInfo message)) →
        s.tasks[i]? = (turnOf pageRules s turn).tasks[i]?) ∧ AsRead a.aliasId s turn) ∨
    ∃ enabled, Toggling w a (!enabled) (turnOf pageRules s turn) ∧
      answered (turnOf pageRules s turn) = answered s + 1 ∧
      (∀ (i : Nat) message, (turnOf pageRules s turn).tasks[i]? =
        some (ret (Shown.flashInfo message)) →
        s.tasks[i]? = (turnOf pageRules s turn).tasks[i]? ∨
        message = toggledMessage a.address enabled) ∧
      (AsRead a.aliasId s turn ↔ enabled = flag) := by
  rcases turn_move hkeyed ha hm h turn with ⟨hidle, hno⟩ | ⟨old, new, t, htask, hmove, hturn⟩
  · rw [hidle]
    refine Or.inl ⟨h, rfl, fun _ _ _ => rfl, ?_⟩
    intro enabled hwrite
    rw [hno] at hwrite
    cases hwrite
  · have hphases : Phase a new → ∀ p ∈ s.tasks.set turn.1 new, Phase a p := by
      intro hnew p hp
      rcases List.mem_or_eq_of_mem_set hp with hp | rfl
      · exact h.tasks p hp
      · exact hnew
    rw [hturn]
    cases hmove with
    | listed hdb =>
        obtain ⟨hcount, hnews⟩ := set_task (toggleFound { a with enabled := flag }) htask rfl
        refine Or.inl ⟨⟨hdb, hphases (.read flag)⟩, hcount, ?_, ?_⟩
        · intro i message hi
          refine (hnews i message hi).resolve_right fun heq => ?_
          cases heq
        · intro enabled hwrite
          rw [htask] at hwrite
          cases hwrite
    | failed _ context hfails hold hdb =>
        obtain ⟨hcount, hnews⟩ := set_task (ret (.internalError context)) htask hold
        refine Or.inl ⟨⟨hdb, hphases (.failed context)⟩, hcount, ?_, ?_⟩
        · intro i message hi
          refine (hnews i message hi).resolve_right fun heq => ?_
          cases heq
        · intro enabled _ hcalm
          rw [hcalm] at hfails
          cases hfails
    | written enabled hcalm hdb =>
        obtain ⟨hcount, hnews⟩ :=
          set_task (ret (.flashInfo (toggledMessage a.address enabled))) htask rfl
        refine Or.inr ⟨enabled, ⟨hdb, hphases (.told enabled)⟩, hcount, ?_, ?_⟩
        · intro i message hi
          refine (hnews i message hi).imp_right fun heq => ?_
          cases heq
          rfl
        · unfold AsRead
          rw [h.db, Db.enabledOf_setAliasEnabled ha, htask]
          constructor
          · intro hall
            exact (Option.some.inj (hall enabled rfl hcalm)).symm
          · rintro rfl e hwrite _
            have hsame : (!enabled) = !e := Option.some.inj hwrite
            rw [Bool.not_inj hsame]

/-- In a turn without failure no request fails. -/
theorem turn_calm (hkeyed : Keyed Alias.aliasId w.db.aliases) (ha : a ∈ w.db.aliases)
    {m : Mailbox} (hm : w.db.mailboxOf a = some m) (h : Toggling w a flag s)
    {turn : Nat × Chance} (hcalm : turn.2.fails = false)
    (hall : ∀ p ∈ s.tasks, hasFailed p = false) :
    ∀ p ∈ (turnOf pageRules s turn).tasks, hasFailed p = false := by
  rcases turn_move hkeyed ha hm h turn with ⟨hidle, -⟩ | ⟨old, new, t, -, hmove, hturn⟩
  · rw [hidle]
    exact hall
  · rw [hturn]
    intro p hp
    rcases List.mem_or_eq_of_mem_set hp with hp | rfl
    · exact hall p hp
    · cases hmove with
      | listed => rfl
      | failed _ _ hfails =>
          rw [hcalm] at hfails
          cases hfails
      | written => rfl

theorem length_turnOf (s : Requests) (turn : Nat × Chance) :
    (turnOf pageRules s turn).tasks.length = s.tasks.length := by
  unfold turnOf
  split
  · exact List.length_set
  · rfl

end

/-! ## Runs -/

section
variable {w : World} {a : Alias} {n : Nat}

theorem toggling_concat (schedule : List (Nat × Chance)) (turn : Nat × Chance) :
    toggling w a.aliasId n (schedule ++ [turn]) = turnOf pageRules
      (toggling w a.aliasId n schedule) turn :=
  List.foldl_concat ..

variable (hkeyed : Keyed Alias.aliasId w.db.aliases) (ha : a ∈ w.db.aliases) {m : Mailbox}
  (hm : w.db.mailboxOf a = some m)

include hkeyed ha

theorem toggling_start : Toggling w a a.enabled (toggling w a.aliasId n []) where
  db := (Db.setAliasEnabled_same hkeyed ha).symm
  tasks := by
    intro p hp
    rw [List.eq_of_mem_replicate hp]
    exact .waiting

include hm

/-- Whatever the turns, the tables have one flag that may differ. -/
theorem exists_flag (schedule : List (Nat × Chance)) :
    ∃ flag, Toggling w a flag (toggling w a.aliasId n schedule) := by
  induction schedule using List.reverseRecOn with
  | nil => exact ⟨a.enabled, toggling_start hkeyed ha⟩
  | append_singleton schedule turn ih =>
      obtain ⟨flag, h⟩ := ih
      rw [toggling_concat]
      rcases turn_cases hkeyed ha hm h turn with ⟨hnext, -⟩ | ⟨enabled, hnext, -⟩
      · exact ⟨flag, hnext⟩
      · exact ⟨!enabled, hnext⟩

/-- If nothing fails, every request is answered in the end. -/
theorem answered_all {schedule : List (Nat × Chance)}
    (hcalm : ∀ turn ∈ schedule, turn.2.fails = false)
    (hall : ∀ p ∈ (toggling w a.aliasId n schedule).tasks, hasReturned p = true) :
    answered (toggling w a.aliasId n schedule) = n := by
  have hlength : (toggling w a.aliasId n schedule).tasks.length = n := by
    clear hcalm hall
    induction schedule using List.reverseRecOn with
    | nil => exact List.length_replicate
    | append_singleton schedule turn ih => rw [toggling_concat, length_turnOf, ih]
  have hfailed : ∀ p ∈ (toggling w a.aliasId n schedule).tasks, hasFailed p = false := by
    clear hlength hall
    induction schedule using List.reverseRecOn with
    | nil =>
        intro p hp
        rw [List.eq_of_mem_replicate hp]
        rfl
    | append_singleton schedule turn ih =>
        rw [toggling_concat]
        obtain ⟨flag, h⟩ := exists_flag hkeyed ha hm schedule
        exact turn_calm hkeyed ha hm h (hcalm turn (by simp))
          (ih fun turn hturn => hcalm turn (List.mem_append_left _ hturn))
  obtain ⟨flag, h⟩ := exists_flag hkeyed ha hm (n := n) schedule
  unfold answered
  rw [List.countP_eq_length.mpr, hlength]
  intro p hp
  have hphase := h.tasks p hp
  cases hphase with
  | waiting => cases hall _ hp
  | read enabled => cases hall _ hp
  | failed context => cases hfailed _ hp
  | told enabled => rfl

/-- If each write finds what was read, the flag is the first one, flipped for each answer. -/
theorem toggling_asRead {schedule : List (Nat × Chance)}
    (hread : ∀ done turn, done ++ [turn] <+: schedule →
    AsRead a.aliasId (toggling w a.aliasId n done) turn) :
    Toggling w a (not^[answered (toggling w a.aliasId n schedule)] a.enabled)
      (toggling w a.aliasId n schedule) := by
  induction schedule using List.reverseRecOn with
  | nil =>
      have hnone : answered (toggling w a.aliasId n []) = 0 := by
        refine List.countP_eq_zero.mpr fun p hp => ?_
        rw [List.eq_of_mem_replicate hp]
        exact Bool.false_ne_true
      rw [hnone]
      exact toggling_start hkeyed ha
  | append_singleton schedule turn ih =>
      have h := ih fun done turn' hp => hread done turn' (hp.trans (List.prefix_append _ _))
      rw [toggling_concat]
      rcases turn_cases hkeyed ha hm h turn
        with ⟨hnext, hcount, -⟩ | ⟨enabled, hnext, hcount, -, hiff⟩
      · rw [hcount]
        exact hnext
      · obtain rfl := hiff.mp (hread schedule turn (List.prefix_refl _))
        rw [hcount, Function.iterate_succ_apply']
        exact hnext

end

/-- No toggle is lost in any prefix of a run exactly if each write finds the flag
as its request read it. -/
theorem toggles_kept_iff {settings : AliasSettings} {w : World}
    (hreach : Reachable settings w.db) {a : Alias}
    (ha : a ∈ w.db.aliases) (n : Nat) (schedule : List (Nat × Chance)) :
    (∀ done, done <+: schedule → TogglesKept w a n done) ↔
      ∀ done turn, done ++ [turn] <+: schedule →
        AsRead a.aliasId (toggling w a.aliasId n done) turn := by
  have hkeyed := hreach.wf.aliasIds
  obtain ⟨m, hm⟩ : ∃ m, w.db.mailboxOf a = some m := by
    obtain ⟨owner, howner, hid⟩ := hreach.wf.owners a ha
    refine Option.ne_none_iff_exists'.mp fun hnone => ?_
    exact List.find?_eq_none.mp hnone owner howner (decide_eq_true hid)
  constructor
  · intro hkept done turn hprefix
    have hbefore := (hkept done ((List.prefix_append _ _).trans hprefix)).enabled
    have hafter := (hkept (done ++ [turn]) hprefix).enabled
    obtain ⟨flag, h⟩ := exists_flag hkeyed ha hm (n := n) done
    rw [toggling_concat] at hafter
    rcases turn_cases hkeyed ha hm h turn
      with ⟨-, -, -, hread⟩ | ⟨enabled, hnext, hcount, -, hiff⟩
    · exact hread
    · -- the flag is flipped by this turn, so what was read is what was there
      rw [h.db, Db.enabledOf_setAliasEnabled ha] at hbefore
      rw [hnext.db, Db.enabledOf_setAliasEnabled ha, hcount, Function.iterate_succ_apply',
        ← Option.some.inj hbefore] at hafter
      exact hiff.mpr (Bool.not_inj (Option.some.inj hafter))
  · intro hread done hprefix
    have hreads : ∀ before turn, before ++ [turn] <+: done →
        AsRead a.aliasId (toggling w a.aliasId n before) turn :=
      fun before turn hp => hread before turn (hp.trans hprefix)
    have h := toggling_asRead hkeyed ha hm hreads
    refine ⟨?_, ?_, answered_all hkeyed ha hm⟩
    · rw [h.db, Db.enabledOf_setAliasEnabled ha]
    · rintro before turn rfl i message hi
      have hbefore : ∀ b t, b ++ [t] <+: before →
          AsRead a.aliasId (toggling w a.aliasId n b) t := fun b t hp =>
        hreads b t (hp.trans (List.prefix_append _ _))
      have hearlier := toggling_asRead hkeyed ha hm hbefore
      rw [toggling_concat] at hi ⊢
      rcases turn_cases hkeyed ha hm hearlier turn
        with ⟨-, -, hnews, -⟩ | ⟨enabled, hnext, -, hnews, hiff⟩
      · exact Or.inl (hnews i message hi)
      · obtain rfl := hiff.mp (hreads before turn (List.prefix_refl _))
        refine (hnews i message hi).imp_right fun hmessage => ⟨_, ?_, ?_, hmessage⟩
        · rw [hearlier.db, Db.enabledOf_setAliasEnabled ha]
        · rw [hnext.db, Db.enabledOf_setAliasEnabled ha]

/-- Both requests read, then both write. -/
def overlapping : List (Nat × Chance) :=
  [(0, Chance.calm 0), (1, Chance.calm 1), (0, Chance.calm 2), (1, Chance.calm 3)]

/-- Of two toggles that overlap one is lost. -/
theorem toggle_lost :
    ¬ ∀ (settings : AliasSettings) (w : World), Reachable settings w.db → ∀ a ∈ w.db.aliases,
    ∀ n schedule, (∀ turn ∈ schedule, turn.2.fails = false) →
      (∀ p ∈ (toggling w a.aliasId n schedule).tasks, hasReturned p = true) →
      (toggling w a.aliasId n schedule).state.db.enabledOf a.aliasId
        = some (not^[n] a.enabled) := by
  intro hall
  have hlost : ∃ a ∈ AliasRouter.sampleHost.world.db.aliases,
      (toggling AliasRouter.sampleHost.world a.aliasId 2 overlapping).tasks.all
        hasReturned = true ∧
      (toggling AliasRouter.sampleHost.world a.aliasId 2 overlapping).state.db.enabledOf
        a.aliasId ≠ some (not^[2] a.enabled) := by decide +kernel
  obtain ⟨a, ha, hreturned, hne⟩ := hlost
  have hcalm : ∀ turn ∈ overlapping, turn.2.fails = false := by decide
  exact hne (hall AliasRouter.sample.aliases _ (AliasRouter.reachable_sampleHost _) a ha 2
    overlapping hcalm (List.all_eq_true.mp hreturned))

/-- The second request reads after the first has written. -/
def inTurn : List (Nat × Chance) :=
  [(0, Chance.calm 0), (0, Chance.calm 1), (1, Chance.calm 2), (1, Chance.calm 3)]

/-- Two toggles in turn are kept, and of two that overlap one is lost. -/
theorem toggles_kept_iff_sample : ∃ a ∈ AliasRouter.sampleHost.world.db.aliases,
    (∀ done, done <+: inTurn → TogglesKept AliasRouter.sampleHost.world a 2 done) ∧
    ¬ ∀ done, done <+: overlapping → TogglesKept AliasRouter.sampleHost.world a 2 done := by
  have hreach := AliasRouter.reachable_sampleHost AliasRouter.sample.aliases
  have hread : ∃ a ∈ AliasRouter.sampleHost.world.db.aliases,
      (∀ i (h : i < inTurn.length),
        AsRead a.aliasId (toggling AliasRouter.sampleHost.world a.aliasId 2 (inTurn.take i))
          inTurn[i]) ∧
      ¬ AsRead a.aliasId (toggling AliasRouter.sampleHost.world a.aliasId 2
        (overlapping.take 3)) overlapping[3] := by
    decide +kernel
  obtain ⟨a, ha, hturns, hlost⟩ := hread
  refine ⟨a, ha, (toggles_kept_iff hreach ha 2 inTurn).mpr ?_, fun hkept => hlost ?_⟩
  · rintro done turn ⟨rest, hsplit⟩
    have hturn := hturns done.length (by rw [← hsplit]; simp)
    simpa [← hsplit] using hturn
  · exact (toggles_kept_iff hreach ha 2 overlapping).mp hkept _ _
      (List.prefix_refl overlapping)

end Weiterleitung
