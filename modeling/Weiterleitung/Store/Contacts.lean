/-
# `Store.Contacts` — one contact for each alias and sender

`get_or_create_contact` looks for the contact, inserts one and looks again; in between any
number of other calls may do the same, and aliases may go.  What it returns is what the last
lookup found (`amids_getOrCreateContact`), so it is in the table in the state the call returns
in.  The table has one contact for each pair and one for each reverse alias, and a contact
stays as long as its alias does (`contact_stays`).  Hence

    what a call has returned is the row of its pair, as long as the alias exists
                                                          (`Answered.listed`)
    so calls for the same pair return the same contact    (`getOrCreateContact_agree`)
-/
import Mathlib
import Weiterleitung.Lib.Tasks
import Weiterleitung.Store.Reachable

namespace Weiterleitung

open Text Prog

/-! ## The table of contacts -/

/-- What `UNIQUE (alias_id, email)` keeps apart. -/
def Contact.pair (c : Contact) : Str × Str := (c.aliasId, c.email)

variable {settings : AliasSettings}

/-- A statement leaves contacts out, or adds one whose pair is new. -/
theorem contacts_of_write {u : Write} {db db' : Db} (h : u.apply db = some db') :
    db'.contacts.Sublist db.contacts ∨
      ∃ c, u = .insertContact c ∧ db.findContact c.aliasId c.email = none ∧
        db'.contacts = db.contacts ++ [c] := by
  cases effect_of_write h with
  | removes => exact Or.inl List.filter_sublist
  | addsContact c hnone => exact Or.inr ⟨c, rfl, hnone, rfl⟩
  | updates | addsAlias | addsRow => exact Or.inl (List.Sublist.refl _)

theorem pair_ne_of_findContact {db : Db} {aliasId email : Str}
    (h : db.findContact aliasId email = none) :
    ∀ d ∈ db.contacts, d.pair ≠ (aliasId, email) := by
  intro d hd heq
  have hnone := List.find?_eq_none.mp h d hd
  rw [Contact.pair, Prod.mk.injEq] at heq
  simp [heq.1, heq.2] at hnone

/-- The pairs stay apart. -/
theorem pairs_of_answer (o : Op) (c : Chance) {w : World}
    (h : Keyed Contact.pair w.db.contacts) :
    Keyed Contact.pair (answer o c w).2.db.contacts := by
  rcases answer_db_cases o c w with he | ⟨u, rfl, hu⟩ | ⟨now, n, rfl, f, -, he⟩
  · rw [he]
    exact h
  · rcases contacts_of_write hu with hsub | ⟨d, -, hnone, happend⟩
    · exact h.sublist hsub
    · rw [happend]
      exact h.concat (pair_ne_of_findContact hnone)
  · rw [he]
    exact h

/-- In every reachable store the pairs are apart. -/
theorem Reachable.pairs {db : Db} (h : Reachable settings db) :
    Keyed Contact.pair db.contacts := by
  induction h with
  | refl => exact List.nodup_nil
  | step w o c _ _ ih => exact pairs_of_answer o c ih

/-- A contact whose alias is left is left. -/
theorem mem_removeAliases {db : Db} (hwf : Wf settings db) {p : Alias → Bool} {c : Contact}
    (hc : c ∈ db.contacts) (halias : ∃ a ∈ (db.removeAliases p).aliases,
      a.aliasId = c.aliasId) : c ∈ (db.removeAliases p).contacts := by
  obtain ⟨a, ha, hid⟩ := halias
  obtain ⟨ha, hkept⟩ := List.mem_filter.mp ha
  refine List.mem_filter.mpr ⟨hc, decide_eq_true fun hdead => ?_⟩
  obtain ⟨b, hb, hbid⟩ := List.mem_map.mp hdead
  obtain ⟨hb, hp⟩ := List.mem_filter.mp hb
  obtain rfl : b = a := List.inj_on_of_nodup_map hwf.aliasIds hb ha (hbid.trans hid.symm)
  rw [hp] at hkept
  cases hkept

/-- A contact stays as long as its alias does. -/
theorem contact_stays (o : Op) (chance : Chance) {w : World} (hwf : Wf settings w.db)
    {c : Contact} (hc : c ∈ w.db.contacts) (halias : ∃ a ∈ (answer o chance w).2.db.aliases,
      a.aliasId = c.aliasId) :
    c ∈ (answer o chance w).2.db.contacts := by
  rcases answer_db_cases o chance w with he | ⟨u, rfl, hu⟩ | ⟨now, n, rfl, f, -, he⟩
  · rw [he]
    exact hc
  · generalize (answer (.write u) chance w).2.db = db' at hu halias
    cases effect_of_write hu with
    | removes => exact mem_removeAliases hwf hc halias
    | addsContact => exact List.mem_append_left _ hc
    | updates | addsAlias | addsRow => exact hc
  · rw [he]
    exact hc

/-! ## Getting a contact among others -/

section
variable {σ : Type}

/-- The operation inserts no row. -/
def RowFree : Op → Prop
  | .write (.insertOutbox _) => False
  | _ => True

/-- Rules for programs on a store: the state holds a world and maybe more, operations are
answered from that world, and whatever the router does but for inserting rows may be done. -/
structure OnStore (settings : AliasSettings) (R : Rules Op Res Chance σ) (world : σ → World) :
    Prop where
  answer : ∀ o c s, (R.answer o c s).1 = (answer o c (world s)).1
  world : ∀ o c s, world (R.answer o c s).2 = (Weiterleitung.answer o c (world s)).2
  may : ∀ o s, Routing settings o → RowFree o → R.may o s

theorem give_ok {α : Type} {c : Chance} {a b : α} (h : c.give a = .ok b) : a = b := by
  unfold Chance.give at h
  split at h
  · cases h
  · cases h
    rfl

/-- The contact is in the table, for this alias and this sender. -/
def Listed (aliasId email : Str) (c : Contact) (w : World) : Prop :=
  c ∈ w.db.contacts ∧ c.aliasId = aliasId ∧ c.email = email

variable {R : Rules Op Res Chance σ} {world : σ → World}

/-- An operation whatever its answer. -/
theorem OnStore.amid_routing (h : OnStore settings R world) {o : Op} (ho : Routing settings o)
    (hrow : RowFree o) (s : σ) : R.Amid (fun _ _ => True) (op o) s :=
  Rules.amid_op fun t _ _ => ⟨h.may o t ho hrow, fun _ _ _ _ => trivial⟩

theorem OnStore.amids_findContact (h : OnStore settings R world)
    (aliasId email : Str) (s : σ) :
    R.Amids (fun found s => ∀ c, found = some c → Listed aliasId email c (world s) ∧ R.inv s)
      (findContact aliasId email) s := by
  refine Rules.amid_op fun t _ _ =>
    ⟨h.may _ t trivial trivial, fun chance _ hinv _ found hfound c hc => ⟨?_, hinv⟩⟩
  subst hc
  rw [h.answer] at hfound
  rw [h.world]
  exact Db.findContact_some (give_ok hfound)

/-- A contact that is returned is in the table then. -/
theorem OnStore.amids_getOrCreateContact (h : OnStore settings R world) (aliasId : Str)
    (email : EmailAddress) (name : Option Str) (s : σ) :
    R.Amids (fun c s => Listed aliasId email.normalised c (world s) ∧ R.inv s)
      (getOrCreateContact aliasId email name settings.reverseAliasPrefix
        settings.defaultDomain) s := by
  unfold getOrCreateContact
  refine Rules.amids_seq (h.amids_findContact aliasId email.normalised s)
    fun found s _ hfound => ?_
  cases found with
  | some existing => exact Rules.amids_pure (hfound existing rfl)
  | none =>
      refine Rules.amids_seq (Rules.amids_lift (h.amid_routing (o := .uuid) trivial trivial s))
        fun contactId s _ _ => ?_
      refine Rules.amids_seq (m := fun token _ => ∃ symbols : Fin 12 → Fin 62,
        token = tokenOf symbols) ?_ ?_
      · exact Rules.amids_seq
          (Rules.amids_lift (h.amid_routing (o := .sample 12) trivial trivial s))
          fun symbols s _ _ =>
          Rules.amids_pure ⟨symbols, rfl⟩
      · rintro token s - ⟨symbols, rfl⟩
        refine Rules.amids_seq
          (Rules.amids_lift (h.amid_routing (o := .now) trivial trivial s))
          fun createdAt s _ _ => ?_
        refine Rules.amids_seq (m := fun _ _ => True) (Rules.amids_mapErr ?_) fun _ s _ _ => ?_
        · exact Rules.amid_op fun t _ _ => ⟨h.may _ t ⟨⟨email, rfl⟩, symbols, rfl⟩ trivial,
            fun _ _ _ _ _ _ => trivial⟩
        · -- whoever inserted it, the contact is what this lookup finds
          refine Rules.amids_seq (h.amids_findContact aliasId email.normalised s)
            fun again s _ hagain => ?_
          cases again with
          | some contact => exact Rules.amids_pure (hagain contact rfl)
          | none => exact Rules.amids_throw _ _

end

/-! ## Calls -/

/-- The program asks for legal operations, and so does everyone else. -/
def callRules (settings : AliasSettings) : Rules Op Res Chance World where
  answer := answer
  inv w := Wf settings w.db ∧ Keyed Contact.pair w.db.contacts
  rely _ _ := True
  may o _ := Legal settings o
  fair _ _ _ := True
  refl _ := trivial
  trans _ _ := trivial
  step h ho _ := ⟨⟨wf_of_legal ho _ h.1, pairs_of_answer _ _ h.2⟩, trivial⟩

theorem onStore_callRules (settings : AliasSettings) :
    OnStore settings (callRules settings) id where
  answer _ _ _ := rfl
  world _ _ _ := rfl
  may o _ ho _ := legal_of_routing o ho

/-- A call, with the pair it is for. -/
def call (settings : AliasSettings) (aliasId : Str) (email : EmailAddress)
    (name : Option Str) :
    Prog Op Res ((Str × Str) × Except Str Contact) :=
  (getOrCreateContact aliasId email name settings.reverseAliasPrefix
    settings.defaultDomain).run >>= fun r => .ret ((aliasId, email.normalised), r)

abbrev Calls := Crew Op Res World ((Str × Str) × Except Str Contact)

/-- Calls start at any time, and anything else the program does happens in between. -/
def CallStep (settings : AliasSettings) : Calls → Calls → Prop :=
  Crew.Step (callRules settings)
    (fun p => ∃ aliasId email name, p = call settings aliasId email name)
    fun w w' => ∃ o c, Legal settings o ∧ w' = (answer o c w).2

/-- The calls, and the tables, after any steps from a store that the program can make. -/
def Called (settings : AliasSettings) (s : Calls) : Prop :=
  ∃ w, Reachable settings w.db ∧ Relation.ReflTransGen (CallStep settings) ⟨w, []⟩ s

/-- A call for the pair has returned the contact, and the alias has been there ever since. -/
inductive Answered (settings : AliasSettings) (aliasId email : Str) (contact : Contact) :
    Calls → Prop
  | returned (w : World) (before after : List (Prog Op Res ((Str × Str) × Except Str Contact)))
      (o : Op) (k : Res o → Prog Op Res ((Str × Str) × Except Str Contact)) (c : Chance) :
      Called settings ⟨w, before ++ .ask o k :: after⟩ →
      k (answer o c w).1 = .ret ((aliasId, email), .ok contact) →
      Answered settings aliasId email contact
        ⟨(answer o c w).2, before ++ k (answer o c w).1 :: after⟩
  | since (s s' : Calls) : Answered settings aliasId email contact s → CallStep settings s s' →
      (∃ a ∈ s'.state.db.aliases, a.aliasId = aliasId) →
      Answered settings aliasId email contact s'

section
variable {aliasId email : Str} {contact : Contact} {s s' : Calls}

/-- What a call returns is listed under its pair. -/
def CallPost (r : (Str × Str) × Except Str Contact) (w : World) : Prop :=
  ∀ c, r.2 = .ok c → Listed r.1.1 r.1.2 c w

theorem amid_call (settings : AliasSettings) (aliasId : Str) (email : EmailAddress)
    (name : Option Str) (w : World) :
    (callRules settings).Amid CallPost (call settings aliasId email name) w :=
  Rules.amid_bind ((onStore_callRules settings).amids_getOrCreateContact aliasId email name w)
    fun _ _ _ hr c hc => (hr c hc).1

theorem Called.sound (h : Called settings s) : Crew.Sound (callRules settings) CallPost s := by
  obtain ⟨w, hreachable, hrun⟩ := h
  refine (Crew.sound_run ?_ ?_
    (Crew.sound_start (R := callRules settings) ⟨hreachable.wf, hreachable.pairs⟩) hrun).1
  · rintro p ⟨aliasId, email, name, rfl⟩ w -
    exact amid_call settings aliasId email name w
  · rintro w t h ⟨o, c, ho, rfl⟩
    exact (callRules settings).step h ho trivial

theorem Called.step (h : Called settings s) (hstep : CallStep settings s s') :
    Called settings s' := by
  obtain ⟨w, hreachable, hrun⟩ := h
  exact ⟨w, hreachable, hrun.tail hstep⟩

/-- The operation of a step, if the tables change at all. -/
theorem CallStep.answer (h : CallStep settings s s') :
    s'.state = s.state ∨ ∃ o c, s'.state = (answer o c s.state).2 := by
  cases h with
  | join s p hp => exact Or.inl rfl
  | turn w before after o k c => exact Or.inr ⟨o, c, rfl⟩
  | other s t ht =>
      obtain ⟨o, c, -, rfl⟩ := ht
      exact Or.inr ⟨o, c, rfl⟩

/-- What a program has returned, if it has. -/
def returned {α : Type} : Prog Op Res α → Option α
  | .ret a => some a
  | .ask _ _ => none

/-- A call returns in its turn. -/
theorem Called.answered_turnOf (h : Called settings s) {i : Nat} {c : Chance}
    (hopen : s.tasks[i]?.bind returned = none)
    (hret : (Crew.turnOf (callRules settings) s (i, c)).tasks[i]?.bind returned
      = some ((aliasId, email), .ok contact)) :
    Answered settings aliasId email contact (Crew.turnOf (callRules settings) s (i, c)) := by
  match htask : s.tasks[i]? with
  | none =>
      simp only [Crew.turnOf, htask, Option.bind_none] at hret
      cases hret
  | some (.ret a) =>
      rw [htask] at hopen
      cases hopen
  | some (.ask o k) =>
      obtain ⟨before, after, hs, hlength, hturn⟩ :=
        Crew.turnOf_ask (R := callRules settings) (c := c) htask
      rw [hturn] at hret ⊢
      rw [hs] at h
      refine .returned s.state before after o k c h ?_
      have hreturned : returned (k ((callRules settings).answer o c s.state).1)
          = some ((aliasId, email), .ok contact) := by
        simpa [← hlength] using hret
      show k ((callRules settings).answer o c s.state).1 = _
      cases hk : k ((callRules settings).answer o c s.state).1 with
      | ret r =>
          rw [hk] at hreturned
          exact congrArg Prog.ret (Option.some.inj hreturned)
      | ask o' k' =>
          rw [hk] at hreturned
          cases hreturned

/-- What has been returned is so after the turn of another call. -/
theorem Answered.turnOf (h : Answered settings aliasId email contact s) {i : Nat} {c : Chance}
    (halias : ∃ a ∈ (Crew.turnOf (callRules settings) s (i, c)).state.db.aliases,
      a.aliasId = aliasId) :
    Answered settings aliasId email contact (Crew.turnOf (callRules settings) s (i, c)) := by
  match htask : s.tasks[i]? with
  | some (.ask o k) =>
      obtain ⟨before, after, hs, -, hturn⟩ :=
        Crew.turnOf_ask (R := callRules settings) (c := c) htask
      rw [hturn] at halias ⊢
      rw [hs] at h
      exact h.since _ _ (.turn s.state before after o k c trivial) halias
  | none | some (.ret _) =>
      unfold Crew.turnOf
      simpa only [htask] using h

/-- A contact that has been returned is still listed. -/
theorem Answered.listed (h : Answered settings aliasId email contact s) :
    Called settings s ∧ Listed aliasId email contact s.state := by
  induction h with
  | returned w before after o k c hcalled hret =>
      refine ⟨hcalled.step (.turn w before after o k c trivial), ?_⟩
      have hpost := hcalled.sound.turn.2 c trivial
      have hlisted : CallPost ((aliasId, email), .ok contact) (answer o c w).2 := by
        change (callRules settings).Amid CallPost (k (answer o c w).1)
          (answer o c w).2 at hpost
        rw [hret] at hpost
        exact hpost
      exact hlisted contact rfl
  | since s s' _ hstep halias ih =>
      obtain ⟨hcalled, hmem, hid, hemail⟩ := ih
      refine ⟨hcalled.step hstep, ?_, hid, hemail⟩
      rcases hstep.answer with he | ⟨o, c, he⟩
      · rw [he]
        exact hmem
      · rw [he] at halias ⊢
        rw [← hid] at halias
        exact contact_stays o c hcalled.sound.inv.1 hmem halias

/-- Calls for one pair agree as long as its alias exists, and what they return is the row of
the pair; there is one contact for each pair, and one for each reverse alias. -/
theorem getOrCreateContact_agree (settings : AliasSettings) (s : Calls)
    (h : Called settings s) :
    (∀ aliasId email c c', Answered settings aliasId email c s →
      Answered settings aliasId email c' s → c = c') ∧
    (∀ aliasId email c, Answered settings aliasId email c s →
      c ∈ s.state.db.contacts ∧ c.aliasId = aliasId ∧ c.email = email) ∧
    (∀ c ∈ s.state.db.contacts, ∀ c' ∈ s.state.db.contacts, c.aliasId = c'.aliasId →
      c.email = c'.email → c = c') ∧
    ∀ c ∈ s.state.db.contacts, ∀ c' ∈ s.state.db.contacts, c.reverseAlias = c'.reverseAlias →
      c.aliasId = c'.aliasId ∧ c.email = c'.email := by
  obtain ⟨hwf, hpairs⟩ := h.sound.inv
  have hone : ∀ c ∈ s.state.db.contacts, ∀ c' ∈ s.state.db.contacts, c.aliasId = c'.aliasId →
      c.email = c'.email → c = c' := fun c hc c' hc' hid hemail =>
    List.inj_on_of_nodup_map hpairs hc hc' (Prod.ext hid hemail)
  refine ⟨?_, fun aliasId email c hc => hc.listed.2, hone, ?_⟩
  · intro aliasId email c c' hc hc'
    obtain ⟨-, hmem, hid, hemail⟩ := hc.listed
    obtain ⟨-, hmem', hid', hemail'⟩ := hc'.listed
    exact hone c hmem c' hmem' (hid.trans hid'.symm) (hemail.trans hemail'.symm)
  · intro c hc c' hc' hreverse
    rw [List.inj_on_of_nodup_map hwf.reverseAliases hc hc' hreverse]
    exact ⟨rfl, rfl⟩

end

/-! ### Two calls at once -/

def exampleSettings : AliasSettings := ⟨["example.com".toList], "ct".toList⟩

/-- The machine after a mailbox and an alias, with the identifier `3`. -/
def oneAlias : Host :=
  (exec perform (do
    let mailbox ← insertMailbox EmailAddress.me true
    insertAlias EmailAddress.me mailbox.mailboxId none) (Host.calm ⟨Db.empty, [], []⟩)).2

theorem reachable_oneAlias (settings : AliasSettings) : Reachable settings oneAlias.world.db :=
  later_exec (uses_seq (legal_insertMailbox EmailAddress.me true) fun mailbox =>
    legal_insertAlias EmailAddress.me mailbox.mailboxId none) (Host.calm ⟨Db.empty, [], []⟩)

/-- Two calls for the same pair, after as many operations of the two in turn. -/
def callsAfter (n : Nat) : Calls :=
  ((List.range n).map fun n => (n % 2, Chance.calm (10 + n))).foldl
    (Crew.turnOf (callRules exampleSettings))
    ⟨oneAlias.world, [call exampleSettings ['3'] EmailAddress.me none,
      call exampleSettings ['3'] EmailAddress.me none]⟩

theorem callsAfter_succ (n : Nat) : callsAfter (n + 1)
    = Crew.turnOf (callRules exampleSettings) (callsAfter n)
      (n % 2, Chance.calm (10 + n)) := by
  simp [callsAfter, List.range_succ]

/-- Each of them has done its six operations. -/
def twoCalls : Calls := callsAfter 12

theorem called_callsAfter (n : Nat) : Called exampleSettings (callsAfter n) := by
  refine ⟨oneAlias.world, reachable_oneAlias _, ?_⟩
  refine Relation.ReflTransGen.trans ?_
    (Crew.run_turns _ _ (Crew.fairTurns_of_fair (fun _ _ _ => trivial) _ _))
  have hjoin : ∀ s : Calls, CallStep exampleSettings s
      ⟨s.state, call exampleSettings ['3'] EmailAddress.me none :: s.tasks⟩ :=
      fun s => .join s _ ⟨_, _, _, rfl⟩
  exact (Relation.ReflTransGen.single (hjoin ⟨oneAlias.world, []⟩)).tail (hjoin _)

/-- The contact of the alias and the mailbox, as the first call to insert it has made it. -/
def contactMade : Contact where
  contactId := "12".toList
  aliasId := ['3']
  email := EmailAddress.me.normalised
  name := none
  reverseAlias := "ct.opqrstuvwxyz@example.com".toList
  createdAt := (Chance.calm 16).now.toRfc3339

/-- Each of the two calls has inserted, or found inserted, what both of them return. -/
theorem getOrCreateContact_agree_sample : ∃ c c',
    twoCalls.tasks.map returned = [some ((['3'], EmailAddress.me.normalised), .ok c),
      some ((['3'], EmailAddress.me.normalised), .ok c')] ∧
    c = c' ∧ c ∈ twoCalls.state.db.contacts ∧
    c.reverseAlias = "ct.opqrstuvwxyz@example.com".toList := by
  -- the first call returns in the eleventh turn, the second in the twelfth
  have hten := called_callsAfter 10
  have hfirst : Answered exampleSettings ['3'] EmailAddress.me.normalised contactMade
      (callsAfter 11) := by
    rw [callsAfter_succ]
    exact hten.answered_turnOf (by decide +kernel) (by decide +kernel)
  have hboth : Answered exampleSettings ['3'] EmailAddress.me.normalised contactMade
      (callsAfter 12) := by
    rw [callsAfter_succ]
    exact hfirst.turnOf (by decide +kernel)
  have hsecond : Answered exampleSettings ['3'] EmailAddress.me.normalised contactMade
      (callsAfter 12) := by
    rw [callsAfter_succ]
    exact (called_callsAfter 11).answered_turnOf (by decide +kernel) (by decide +kernel)
  obtain ⟨hagree, hrow, -⟩ := getOrCreateContact_agree exampleSettings twoCalls
    (called_callsAfter 12)
  exact ⟨contactMade, contactMade, by decide +kernel, hagree _ _ _ _ hboth hsecond,
    (hrow _ _ _ hsecond).1, rfl⟩

end Weiterleitung
