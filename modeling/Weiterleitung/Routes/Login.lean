/-
# `Routes.Login` — a login that is refused does not tell why

Whether a name has an account is not to be seen from outside.  Here the calls of
`verify_password_hash` are operations beside the others (`Watched`), so a run shows them.  Two
tables of users that both refuse a login lead to the same response, the same session and the
same operations; only the row that is looked up and the hash that is verified differ,
and that hash costs as much.

    carried out, the calls are those of the source        (`carryOut_login`)
    the table holds hashes of one cost                    (`booted_cost`)
    validating a refused login                            (`alike_validate`)
    a refused login                                       (`login_tells_nothing`)
-/
import Mathlib
import Weiterleitung.Lib.Twin
import Weiterleitung.Routes.Gate

namespace Weiterleitung

open Text Prog TypedSession

/-! ## Logins in which verifying is seen -/

/-- A call of `verify_password_hash`. -/
structure Verifying where
  passwordHash : Str
  candidate : Str

abbrev Verified (_ : Verifying) : Type := Except Str Unit

namespace Watched

def validateCredentials (username password : Str) :
    Fallible AuthError (UserOp ⊕ Verifying) (Answers UserRes Verified) Str := do
  let stored ← mapErr .unexpectedError (lifts (getStoredCredentials username))
  let (userId, expectedPasswordHash) :=
    match stored with
    | some (storedUserId, storedPasswordHash) => (some storedUserId, storedPasswordHash)
    | none => (none, dummyHash)
  let verified ← invoke ⟨expectedPasswordHash, password⟩
  computed (verified.mapError fun _ => .invalidCredentials "Invalid password")
  match userId with
  | some userId => return userId
  | none => throw (.invalidCredentials "Unknown username")

def ofAccount {α : Type} (p : Prog (UserOp ⊕ Verifying) (Answers UserRes Verified) α) :
    Prog (WebOp ⊕ Verifying) (Answers WebRes Verified) α :=
  @embed _ _ _ (Answers WebRes Verified) _ (Sum.map WebOp.account id)
    (fun
      | .inl _, r => r
      | .inr _, r => r) p

def login (form : LoginFormData) :
    Prog (WebOp ⊕ Verifying) (Answers WebRes Verified) Response := do
  match ← ofAccount (validateCredentials form.username form.password).run with
  | .ok userId =>
      match ← lift (insertUserId userId) with
      | .error _ =>
          lift (flashError "Could not start a session")
          return .redirect "/login"
      | .ok _ => return .redirect "/admin/dashboard"
  | .error (.invalidCredentials _) =>
      lift (flashError "Invalid credentials")
      return .redirect "/login"
  | .error (.unexpectedError _) =>
      lift (flashError "Something went wrong")
      return .redirect "/login"

end Watched

/-- The hash that a login is compared with. -/
def expectedHash (row : Option User) : Str := (row.map User.passwordHash).getD dummyHash

/-- What comes of it. -/
def validated (row : Option User) : Except Str Unit → Except AuthError Str
  | .error _ => .error (.invalidCredentials "Invalid password")
  | .ok _ =>
      match row with
      | some row => .ok row.userId
      | none => .error (.invalidCredentials "Unknown username")

/-- One lookup, and then one call. -/
theorem watched_validate (username password : Str) :
    Watched.ofAccount (Watched.validateCredentials username password).run =
    (op (Sum.inl (WebOp.account (UserOp.findUser username))) : Prog (WebOp ⊕ Verifying)
      (Answers WebRes Verified) _) >>= fun found =>
      match found with
      | .error _ => ret (.error (.unexpectedError "Failed to query the stored credentials"))
      | .ok row => op (Sum.inr ⟨expectedHash row, password⟩) >>= fun verified =>
          ret (validated row verified) := by
  refine congrArg (ask _) (funext fun found => ?_)
  cases found with
  | error e => rfl
  | ok row =>
      cases row with
      | none =>
          refine congrArg (ask _) (funext fun verified => ?_)
          cases verified <;> rfl
      | some row =>
          refine congrArg (ask _) (funext fun verified => ?_)
          cases verified <;> rfl

theorem plain_validate (argon2 : Argon2) (username password : Str) :
    (ofAccount (validateCredentials argon2 username password).run : Web _) =
      op (WebOp.account (UserOp.findUser username)) >>= fun found =>
        match found with
        | .error _ => ret (.error (.unexpectedError "Failed to query the stored credentials"))
        | .ok row =>
            ret (validated row (argon2.verifyPassword (expectedHash row) password)) := by
  refine congrArg (ask _) (funext fun found => ?_)
  have hverified : ∀ (userId : Option Str) (row : Option User), userId = row.map User.userId →
      ∀ verified : Except Str Unit, (ofAccount (ExceptT.run (do
        computed (verified.mapError fun _ => AuthError.invalidCredentials "Invalid password")
        match userId with
        | some userId => return userId
        | none => throw (.invalidCredentials "Unknown username"))) : Web _)
            = ret (validated row verified) := by
    rintro userId row rfl verified
    cases verified <;> cases row <;> rfl
  cases found with
  | error e => rfl
  | ok row =>
      cases row with
      | none => exact hverified none none rfl _
      | some row => exact hverified (some row.userId) (some row) rfl _

section
variable (site : Site)

theorem carryOut_validate (username password : Str) :
    carryOut (fun c => site.argon2.verifyPassword c.passwordHash c.candidate)
      (Watched.ofAccount (Watched.validateCredentials username password).run) =
    (ofAccount (validateCredentials site.argon2 username password).run : Web _) := by
  rw [watched_validate, plain_validate, carryOut_bind]
  refine congrArg (ask _) (funext fun found => ?_)
  cases found <;> rfl

/-- Carried out, the calls are those of the source. -/
theorem carryOut_login (form : LoginFormData) :
    carryOut (fun c => site.argon2.verifyPassword c.passwordHash c.candidate)
      (Watched.login form) = site.login form := by
  unfold Watched.login Site.login
  rw [carryOut_bind, carryOut_validate]
  refine congrArg (ofAccount _ >>= ·) (funext fun r => ?_)
  rcases r with (e | e) | userId
  · rfl
  · rfl
  · refine congrArg (ask _) (funext fun stored => ?_)
    cases stored <;> rfl

end

/-! ## Two tables -/

/-- What the configured hashing costs, as a PHC string tells it. -/
def costs : Str := "$argon2id$v=19$m=15000,t=2,p=1$"

theorem costs_dummyHash : costs <+: dummyHash := by decide

/-- The hashes that are made tell that cost. -/
def Argon2.Costs (argon2 : Argon2) : Prop :=
  ∀ salt password passwordHash, argon2.hashPassword salt password = .ok passwordHash →
    costs <+: passwordHash

theorem booted_cost {argon2 : Argon2} (hcosts : argon2.Costs) {boots : List (Str × Str)}
    {users : Users} (h : Booted argon2 boots users) (username : Str) :
    ∀ passwordHash, (findUser username users).map User.passwordHash = some passwordHash →
      costs <+: passwordHash := by
  induction h with
  | start => exact fun _ h => by cases h
  | @boot boots m m' name secret _ hseed ih =>
      obtain ⟨salt, new, hnew, hfind⟩ := seedAdminUser_ok hseed
      rw [hfind]
      intro passwordHash h
      split at h
      · cases h
        exact hcosts salt secret new hnew
      · exact ih passwordHash h

/-- A table that refuses the login, and whose hashes cost the same. -/
structure Refuses (argon2 : Argon2) (form : LoginFormData) (users : Users) : Prop where
  refused : ¬ Accepts argon2 users form.username form.password
  cost : costs <+: expectedHash (findUser form.username users)

theorem refuses_of_booted {argon2 : Argon2} (hcosts : argon2.Costs) {form : LoginFormData}
    {boots : List (Str × Str)} {users : Users} (h : Booted argon2 boots users)
    (hrefused : ¬ Accepts argon2 users form.username form.password) :
    Refuses argon2 form users := by
  refine ⟨hrefused, ?_⟩
  have hcost := booted_cost hcosts h form.username
  unfold expectedHash
  cases hrow : (findUser form.username users).map User.passwordHash with
  | none => exact costs_dummyHash
  | some passwordHash => exact hcost passwordHash hrow

/-- Beside the table of users anything is in the state, and anything answers. -/
def watching {σ : Type} (argon2 : Argon2) (lookup : Chance) (rest : Handler WebOp WebRes σ) :
    Handler (WebOp ⊕ Verifying) (Answers WebRes Verified) (Users × σ)
  | .inl (.account (.findUser username)), s => (lookup.give (findUser username s.1), s)
  | .inl o, s => ((rest o s.2).1, s.1, (rest o s.2).2)
  | .inr c, s => (argon2.verifyPassword c.passwordHash c.candidate, s)

/-- Nothing tells them apart but the row and the hash that it has. -/
inductive LooksLike : Asked (WebOp ⊕ Verifying) (Answers WebRes Verified) →
    Asked (WebOp ⊕ Verifying) (Answers WebRes Verified) → Prop
  | same (e : Asked (WebOp ⊕ Verifying) (Answers WebRes Verified)) : LooksLike e e
  | lookup (username : Str) (row row' : Option User) :
      LooksLike ⟨.inl (.account (.findUser username)), .ok row⟩
        ⟨.inl (.account (.findUser username)), .ok row'⟩
  | verify (candidate passwordHash passwordHash' : Str) (r r' : Except Str Unit) :
      costs <+: passwordHash →
      costs <+: passwordHash' →
      LooksLike ⟨.inr ⟨passwordHash, candidate⟩, r⟩ ⟨.inr ⟨passwordHash', candidate⟩, r'⟩

section
variable {σ : Type}

/-- Two runs of one login, so far. -/
structure Alongside (argon2 : Argon2) (form : LoginFormData)
    (s t : (Users × σ) × Trail (WebOp ⊕ Verifying) (Answers WebRes Verified)) : Prop where
  left : Refuses argon2 form s.1.1
  right : Refuses argon2 form t.1.1
  rest : s.1.2 = t.1.2
  trails : List.Forall₂ LooksLike s.2 t.2

/-- Refused, and for the client the same. -/
inductive RefusedAlike : Except AuthError Str → Except AuthError Str → Prop
  | invalid (reason reason' : Str) : RefusedAlike (.error (.invalidCredentials reason))
      (.error (.invalidCredentials reason'))
  | unexpected (reason : Str) : RefusedAlike (.error (.unexpectedError reason))
      (.error (.unexpectedError reason))

variable {argon2 : Argon2} {lookup : Chance} {rest : Handler WebOp WebRes σ}
    {form : LoginFormData}

theorem Alongside.noted
    {s t : (Users × σ) × Trail (WebOp ⊕ Verifying) (Answers WebRes Verified)}
    (h : Alongside argon2 form s t)
    {e e' : Asked (WebOp ⊕ Verifying) (Answers WebRes Verified)}
    (he : LooksLike e e') {u : σ} :
    Alongside argon2 form ((s.1.1, u), s.2 ++ [e]) ((t.1.1, u), t.2 ++ [e']) :=
  ⟨h.left, h.right, rfl, List.rel_append h.trails (.cons he .nil)⟩

/-- What is only in the session is answered alike. -/
theorem alike_session {α : Type} {p : Web α}
    (hp : Uses (fun o => ∃ o', o = WebOp.session o') p) :
    Alike (noting (watching argon2 lookup rest)) (Alongside argon2 form) Eq
      (lift p : Prog (WebOp ⊕ Verifying) (Answers WebRes Verified) α) (lift p) := by
  have huses : Uses (fun o : WebOp ⊕ Verifying => ∃ o', o = .inl (.session o'))
      (lift p : Prog (WebOp ⊕ Verifying) (Answers WebRes Verified) α) := by
    rw [lift_eq_embed]
    refine uses_embed (uses_mono ?_ hp)
    rintro o ⟨o', rfl⟩
    exact ⟨o', rfl⟩
  refine alike_uses ?_ huses
  rintro o ⟨o', rfl⟩ s t h
  have hnoted : ∀ a a' : WebRes (.session o') × σ, a = a' →
      a.1 = a'.1 ∧ Alongside argon2 form ((s.1.1, a.2), s.2 ++ [⟨.inl (.session o'), a.1⟩])
        ((t.1.1, a'.2), t.2 ++ [⟨.inl (.session o'), a'.1⟩]) := by
    rintro a _ rfl
    exact ⟨rfl, h.noted (.same _)⟩
  exact hnoted (rest (.session o') s.1.2) (rest (.session o') t.1.2) (congrArg _ h.rest)

/-- A row that the login does not fit. -/
def Unfit (argon2 : Argon2) (password : Str) (row : Option User) : Prop :=
  costs <+: expectedHash row ∧ ∀ u, row = some u →
    argon2.verifyPassword u.passwordHash password ≠ .ok ()

theorem Refuses.unfit {users : Users} (h : Refuses argon2 form users) :
    Unfit argon2 form.password (findUser form.username users) :=
  ⟨h.cost, fun u hu hok => h.refused ⟨u, hu, hok⟩⟩

theorem validated_unfit {password : Str} {row : Option User} (h : Unfit argon2 password row) :
    ∃ reason, validated row (argon2.verifyPassword (expectedHash row) password)
      = .error (.invalidCredentials reason) := by
  cases hverify : argon2.verifyPassword (expectedHash row) password with
  | error e => exact ⟨_, rfl⟩
  | ok u =>
      cases row with
      | none => exact ⟨_, rfl⟩
      | some row => exact absurd hverify (h.2 row rfl)

/-- A lookup fails on both sides, or finds rows that the login does not fit. -/
inductive FoundAlike (argon2 : Argon2) (password : Str) :
    Except Str (Option User) → Except Str (Option User) → Prop
  | failed (e : Str) : FoundAlike argon2 password (.error e) (.error e)
  | found (row row' : Option User) : Unfit argon2 password row → Unfit argon2 password row' →
      FoundAlike argon2 password (.ok row) (.ok row')

theorem alike_validate :
    Alike (noting (watching argon2 lookup rest)) (Alongside argon2 form) RefusedAlike
    (Watched.ofAccount (Watched.validateCredentials form.username form.password).run)
    (Watched.ofAccount (Watched.validateCredentials form.username form.password).run) := by
  rw [watched_validate]
  refine alike_bind (E := FoundAlike argon2 form.password) (fun s t h => ?_) fun r r' hr => ?_
  · have hnoted : ∀ r r' : Except Str (Option User),
        LooksLike ⟨.inl (.account (.findUser form.username)), r⟩
          ⟨.inl (.account (.findUser form.username)), r'⟩ →
        Alongside argon2 form (s.1, s.2 ++ [⟨.inl (.account (.findUser form.username)), r⟩])
          (t.1, t.2 ++ [⟨.inl (.account (.findUser form.username)), r'⟩]) :=
      fun r r' he => ⟨h.left, h.right, h.rest, List.rel_append h.trails (.cons he .nil)⟩
    show FoundAlike argon2 form.password (lookup.give (findUser form.username s.1.1))
      (lookup.give (findUser form.username t.1.1)) ∧ _
    refine ⟨?_, hnoted (lookup.give (findUser form.username s.1.1))
      (lookup.give (findUser form.username t.1.1)) ?_⟩
    all_goals
      unfold Chance.give
      cases lookup.fails
    · exact .found _ _ h.left.unfit h.right.unfit
    · exact .failed _
    · exact .lookup _ _ _
    · exact .same _
  · cases hr with
    | failed e => exact alike_ret (.unexpected _)
    | found row row' hrow hrow' =>
        refine alike_bind
          (E := fun v v' => v = argon2.verifyPassword (expectedHash row) form.password ∧
          v' = argon2.verifyPassword (expectedHash row') form.password) (fun s t h => ?_) ?_
        · exact ⟨⟨rfl, rfl⟩, ⟨h.left, h.right, h.rest,
            List.rel_append h.trails (.cons (.verify _ _ _ _ _ hrow.1 hrow'.1) .nil)⟩⟩
        · rintro v v' ⟨rfl, rfl⟩
          obtain ⟨reason, hreason⟩ := validated_unfit hrow
          obtain ⟨reason', hreason'⟩ := validated_unfit hrow'
          rw [hreason, hreason']
          exact alike_ret (.invalid _ _)

theorem alike_login : Alike (noting (watching argon2 lookup rest)) (Alongside argon2 form) Eq
    (Watched.login form) (Watched.login form) := by
  have hflash : ∀ content : Str, Uses (fun o => ∃ o', o = WebOp.session o')
      (flashError content) :=
    fun content => ⟨⟨_, rfl⟩, fun _ => ⟨⟨_, rfl⟩, fun _ => trivial⟩⟩
  unfold Watched.login
  refine alike_bind alike_validate fun r r' hr => ?_
  cases hr with
  | invalid reason reason' =>
      exact alike_bind (alike_session (hflash _)) fun _ _ _ => alike_ret rfl
  | unexpected reason => exact alike_bind (alike_session (hflash _)) fun _ _ _ => alike_ret rfl

end

/-- A login that two tables of users refuse is answered the same, leaves the same session, and
does the same: one lookup, and one call that costs the same.  So it does not tell whether the
name has an account. -/
theorem login_tells_nothing {σ : Type} (argon2 : Argon2) (hcosts : argon2.Costs)
    (form : LoginFormData) (lookup : Chance)
    (rest : Handler WebOp WebRes σ) (s : σ) {boots boots' : List (Str × Str)}
    {users users' : Users} (hbooted : Booted argon2 boots users)
    (hbooted' : Booted argon2 boots' users')
    (hrefused : ¬ Accepts argon2 users form.username form.password)
    (hrefused' : ¬ Accepts argon2 users' form.username form.password) :
    let out := run (noting (watching argon2 lookup rest)) (Watched.login form) ((users, s), [])
    let out' := run (noting (watching argon2 lookup rest)) (Watched.login form)
      ((users', s), [])
    out.1 = out'.1 ∧ out.2.1.2 = out'.2.1.2 ∧ List.Forall₂ LooksLike out.2.2 out'.2.2 := by
  intro out out'
  obtain ⟨hresponse, halongside⟩ := alike_login ((users, s), []) ((users', s), [])
    ⟨refuses_of_booted hcosts hbooted hrefused, refuses_of_booted hcosts hbooted' hrefused',
      rfl, .nil⟩
  exact ⟨hresponse, halongside.rest, halongside.trails⟩

/-! ### An unknown name, and a wrong password -/

/-- A hash that shows its cost and its password. -/
def Argon2.phc : Argon2 where
  hashPassword _ password := .ok (costs ++ password)
  verifyPassword passwordHash candidate :=
    if passwordHash = costs ++ candidate then .ok () else .error "password hash mismatch"

theorem Argon2.phc_costs : Argon2.phc.Costs := by
  intro salt password passwordHash h
  cases h
  exact List.prefix_append _ _

/-- The table after one boot. -/
def bootOnce : Accounts :=
  (exec answerUser (seedAdminUser Argon2.phc "admin" "right") ⟨[], Chance.calm, 0⟩).2

theorem booted_bootOnce :
    Booted Argon2.phc [("admin".toList, "right".toList)] bootOnce.users :=
  .boot (m := ⟨[], Chance.calm, 0⟩) .start (Prod.ext (by decide +kernel) rfl)

theorem login_tells_nothing_admin :
    (run (noting (watching Argon2.phc (Chance.calm 3) fun o s => answerWeb o
      (sessionOf ['1']) s)) (Watched.login ⟨"admin", "wrong"⟩)
      ((bootOnce.users, bootedState), [])).1 =
    (run (noting (watching Argon2.phc (Chance.calm 3) fun o s => answerWeb o
      (sessionOf ['1']) s)) (Watched.login ⟨"admin", "wrong"⟩) (([], bootedState), [])).1 := by
  refine (login_tells_nothing Argon2.phc Argon2.phc_costs ⟨"admin", "wrong"⟩ (Chance.calm 3)
    (fun o s => answerWeb o (sessionOf ['1']) s) bootedState booted_bootOnce .start ?_ ?_).1
  · rintro ⟨u, hu, hverify⟩
    have hone : findUser "admin".toList bootOnce.users =
      some ⟨['1'], "admin".toList, costs ++ "right".toList,
        (Chance.calm 2).now.toRfc3339⟩ := by decide +kernel
    rw [hone] at hu
    cases hu
    cases hverify
  · rintro ⟨u, hu, -⟩
    cases hu

end Weiterleitung
