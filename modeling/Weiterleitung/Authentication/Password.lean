/-
# `Authentication.Password` — the operator account

Every boot puts the configured account into the table of users, and a login is compared with
what is stored under its name.  The table is written by name: a boot with the name of an
earlier one replaces its password, a boot with another name leaves it.

    a login succeeds  ⟺  the last boot with that name had that password  (`Booted.accepts_iff`)
    only the last boot's account is accepted
      ⟺  every boot had its name                                          (`onlyLast_iff`)
-/
import Mathlib
import Weiterleitung.Store.Op

namespace Weiterleitung

open Prog

/-! ## The table of users -/

structure User where
  userId : Str
  username : Str
  passwordHash : Str
  createdAt : Str
  deriving DecidableEq

abbrev Users := List User

/-- `INSERT … ON CONFLICT (username) DO UPDATE SET password_hash`: the named conflict is looked
for first, any other one is an error. -/
def upsertUser (u : User) (users : Users) : Option Users :=
  if users.any (·.username = u.username) then
    some (users.map fun o => if o.username = u.username
      then { o with passwordHash := u.passwordHash } else o)
  else if users.any (·.userId = u.userId) then none
  else some (users ++ [u])

def findUser (username : Str) (users : Users) : Option User :=
  users.find? (·.username = username)

/-- The operations of the account functions. -/
inductive UserOp where
  | salt
  | uuid
  | now
  | findUser (username : Str)
  | upsertUser (u : User)

abbrev UserRes : UserOp → Type
  | .salt => Str
  | .uuid => Str
  | .now => Instant
  | .findUser _ => Except Str (Option User)
  | .upsertUser _ => Except Str Unit

/-- The table, and the chances of the operations to come. -/
structure Accounts where
  users : Users
  oracle : Nat → Chance
  tick : Nat

namespace Accounts

variable (m : Accounts)

def chance : Chance := m.oracle m.tick

/-- The machine after one operation. -/
def after (users : Users) : Accounts := { m with users := users, tick := m.tick + 1 }

@[simp] theorem after_users (users : Users) : (m.after users).users = users := rfl

end Accounts

def answerUser : Handler UserOp UserRes Accounts
  | .salt, m => (m.chance.text, m.after m.users)
  | .uuid, m => (m.chance.uuid, m.after m.users)
  | .now, m => (m.chance.now, m.after m.users)
  | .findUser username, m => (m.chance.give (findUser username m.users), m.after m.users)
  | .upsertUser u, m =>
      if m.chance.fails then (.error m.chance.text, m.after m.users)
      else
        match upsertUser u m.users with
        | none => (.error m.chance.text, m.after m.users)
        | some users => (.ok (), m.after users)

/-! ## The source -/

/-- The password hashing of the `argon2` crate: hashes are PHC strings, made with a salt. -/
structure Argon2 where
  hashPassword : (salt password : Str) → Except Str Str
  verifyPassword : (passwordHash candidate : Str) → Except Str Unit

inductive AuthError where
  | invalidCredentials (source : Str)
  | unexpectedError (source : Str)
  deriving DecidableEq

/-- A dummy hash keeps the timing of unknown usernames
indistinguishable from wrong passwords. -/
def dummyHash : Str :=
  "$argon2id$v=19$m=15000,t=2,p=1$gZiV/M1gPc22ElAH/Jh1Hw$CWOrkoo7oJBQ/iyh7uJ0LO2aLEfrHwTWllSAxT0zRno"

section
variable (argon2 : Argon2)

def getStoredCredentials (username : Str) :
    Fallible Str UserOp UserRes (Option (Str × Str)) := do
  let row ← mapErr (fun _ => "Failed to query the stored credentials".toList)
    (ExceptT.mk (op (UserOp.findUser username)))
  return row.map fun row => (row.userId, row.passwordHash)

def validateCredentials (username password : Str) : Fallible AuthError UserOp UserRes Str := do
  let stored ← mapErr .unexpectedError (getStoredCredentials username)
  let (userId, expectedPasswordHash) :=
    match stored with
    | some (storedUserId, storedPasswordHash) => (some storedUserId, storedPasswordHash)
    | none => (none, dummyHash)
  computed ((argon2.verifyPassword expectedPasswordHash password).mapError
    fun _ => .invalidCredentials "Invalid password")
  match userId with
  | some userId => return userId
  | none => throw (.invalidCredentials "Unknown username")

def computePasswordHash (salt password : Str) : Except Str Str :=
  argon2.hashPassword salt password

/-- Creates the single operator account, or resets its password, so the configuration stays
the source of truth across restarts. -/
def seedAdminUser (username password : Str) : Fallible Str UserOp UserRes Unit := do
  let salt ← ExceptT.lift (op UserOp.salt)
  let passwordHash ← computed (computePasswordHash argon2 salt password)
  let userId ← ExceptT.lift (op UserOp.uuid)
  let createdAt ← ExceptT.lift (op UserOp.now)
  mapErr (fun _ => "Failed to seed the admin user".toList)
    (ExceptT.mk (op (UserOp.upsertUser ⟨userId, username, passwordHash, createdAt.toRfc3339⟩)))

end

/-! ## One call -/

/-- A hash verifies its own password and no other one. -/
def Argon2.Ideal (argon2 : Argon2) : Prop :=
  ∀ salt password passwordHash, argon2.hashPassword salt password = .ok passwordHash →
    ∀ candidate, argon2.verifyPassword passwordHash candidate = .ok () ↔ candidate = password

/-- Is the login accepted, if the table answers? -/
def Accepts (argon2 : Argon2) (users : Users) (username password : Str) : Prop :=
  ∃ u, findUser username users = some u ∧
    argon2.verifyPassword u.passwordHash password = .ok ()

section
variable {argon2 : Argon2} {m m' : Accounts} {username password : Str}

theorem validateCredentials_ok_iff (hanswers : m.chance.fails = false) :
    (∃ userId, (exec answerUser (validateCredentials argon2 username password) m).1 =
      .ok userId) ↔
      Accepts argon2 m.users username password := by
  have hfind :
      exec answerUser (mapErr AuthError.unexpectedError (getStoredCredentials username)) m
      = (.ok ((findUser username m.users).map fun u => (u.userId, u.passwordHash)),
        m.after m.users) := by
    unfold getStoredCredentials
    refine exec_mapErr_ok answerUser ?_
    have hrow :
        exec answerUser (mapErr (fun _ => "Failed to query the stored credentials".toList)
        (ExceptT.mk (op (UserOp.findUser username)))) m = (.ok (findUser username m.users),
        m.after m.users) := by
      refine exec_mapErr_ok answerUser ?_
      show (m.chance.give (findUser username m.users), m.after m.users) = _
      rw [Chance.give, hanswers]
      rfl
    rw [exec_bind_of_ok answerUser hrow]
    rfl
  unfold validateCredentials Accepts
  rw [exec_bind_of_ok answerUser hfind]
  cases findUser username m.users with
  | none =>
      -- the dummy hash may fit, but no one is behind it
      refine iff_of_false ?_ (by simp)
      rintro ⟨userId, h⟩
      dsimp only [Option.map_none] at h
      cases hverify : argon2.verifyPassword dummyHash password with
      | ok _ => rw [hverify] at h; cases h
      | error _ => rw [hverify] at h; cases h
  | some u =>
      dsimp only [Option.map_some]
      cases hverify : argon2.verifyPassword u.passwordHash password with
      | ok _ => exact iff_of_true ⟨u.userId, rfl⟩ ⟨u, rfl, hverify⟩
      | error e =>
          refine iff_of_false ?_ ?_
          · rintro ⟨userId, h⟩
            cases h
          · rintro ⟨u', hu', h⟩
            cases hu'
            rw [hverify] at h
            cases h

/-- The name has the new hash, other names what they had. -/
theorem findUser_upsertUser {u : User} {users users' : Users}
    (h : upsertUser u users = some users') (username : Str) :
    (findUser username users').map User.passwordHash
      = if u.username = username then some u.passwordHash else (findUser username users).map
        User.passwordHash := by
  unfold upsertUser at h
  split at h
  · next hknown =>
      cases h
      unfold findUser
      have hname : ∀ o : User,
          (if o.username = u.username then { o with passwordHash := u.passwordHash }
            else o).username = o.username := by
        intro o
        split <;> rfl
      have hpred : ((fun o : User => decide (o.username = username)) ∘ fun o =>
          if o.username = u.username then { o with passwordHash := u.passwordHash } else o)
          = fun o => decide (o.username = username) := funext fun o => by
        rw [Function.comp_apply, hname]
      rw [List.find?_map, hpred, Option.map_map]
      split
      · next heq =>
          subst heq
          obtain ⟨o, ho⟩ :=
            Option.isSome_iff_exists.mp (List.find?_isSome.mpr (List.any_eq_true.mp hknown))
          have hsame : o.username = u.username := by simpa using List.find?_some ho
          rw [ho, Option.map_some, Function.comp_apply, if_pos hsame]
      · next hne =>
          cases hfound : users.find? (fun o => decide (o.username = username)) with
          | none => rfl
          | some o =>
              have hsame : o.username = username := by simpa using List.find?_some hfound
              rw [Option.map_some, Function.comp_apply,
                if_neg fun e => hne (e.symm.trans hsame), Option.map_some]
  · next hnew =>
      split at h
      · cases h
      · cases h
        unfold findUser
        rw [List.find?_append]
        split
        · next heq =>
            subst heq
            have hnone : users.find? (fun o => decide (o.username = u.username)) = none := by
              refine List.find?_eq_none.mpr fun o ho hsame => hnew ?_
              exact List.any_eq_true.mpr ⟨o, ho, hsame⟩
            rw [hnone, Option.none_or, List.find?_cons_of_pos (by simp)]
            rfl
        · next hne =>
            rw [List.find?_cons_of_neg (by simpa using hne), List.find?_nil, Option.or_none]

theorem upsertUser_exec_ok {f : Str → Str} {u : User}
    (h : exec answerUser (mapErr f (ExceptT.mk (op (UserOp.upsertUser u)))) m = (.ok (), m')) :
    upsertUser u m.users = some m'.users := by
  have hexec : exec answerUser (ExceptT.mk (op (UserOp.upsertUser u))) m
      = answerUser (.upsertUser u) m := rfl
  rw [exec_mapErr, hexec] at h
  dsimp only [answerUser] at h
  split at h
  · cases h
  · split at h
    · cases h
    · next users hupsert =>
        cases h
        exact hupsert

theorem seedAdminUser_ok
    (h : exec answerUser (seedAdminUser argon2 username password) m = (.ok (), m')) :
    ∃ salt passwordHash, argon2.hashPassword salt password = .ok passwordHash ∧ ∀ other,
      (findUser other m'.users).map User.passwordHash
        = if username = other then some passwordHash else (findUser other m.users).map
          User.passwordHash := by
  unfold seedAdminUser at h
  rw [exec_bind_of_ok answerUser (exec_lift answerUser _ m)] at h
  obtain ⟨passwordHash, t, hhash, h⟩ := (exec_bind_ok answerUser).mp h
  rw [exec_computed] at hhash
  cases (Prod.mk.inj hhash).2
  rw [exec_bind_of_ok answerUser (exec_lift answerUser _ _), exec_bind_of_ok answerUser
    (exec_lift answerUser _ _)] at h
  exact ⟨_, passwordHash, (Prod.mk.inj hhash).1, findUser_upsertUser (upsertUser_exec_ok h)⟩

end

/-! ## Boots -/

/-- The table after boots with these names and passwords. -/
inductive Booted (argon2 : Argon2) : List (Str × Str) → Users → Prop
  | start : Booted argon2 [] []
  | boot {boots : List (Str × Str)} {m m' : Accounts} {username password : Str} :
      Booted argon2 boots m.users →
      exec answerUser (seedAdminUser argon2 username password) m = (.ok (), m') →
      Booted argon2 (boots ++ [(username, password)]) m'.users

/-- The password of the last boot with this name. -/
def lastPassword (username : Str) (boots : List (Str × Str)) : Option Str :=
  (boots.reverse.find? (·.1 = username)).map (·.2)

theorem lastPassword_concat (username : Str) (boots : List (Str × Str)) (boot : Str × Str) :
    lastPassword username (boots ++ [boot])
      = if boot.1 = username then some boot.2 else lastPassword username boots := by
  unfold lastPassword
  rw [List.reverse_append, List.reverse_singleton, List.singleton_append, List.find?_cons]
  by_cases h : boot.1 = username <;> simp [h]

section
variable {argon2 : Argon2} {boots : List (Str × Str)} {users : Users}

theorem accepts_iff_hash {username password : Str} : Accepts argon2 users username password ↔
    ∃ passwordHash, (findUser username users).map User.passwordHash = some passwordHash ∧
      argon2.verifyPassword passwordHash password = .ok () := by
  unfold Accepts
  cases findUser username users <;> simp

/-- A login is accepted exactly if the last boot with its name had its password. -/
theorem Booted.accepts_iff (h : Booted argon2 boots users) (hideal : argon2.Ideal)
    (username password : Str) :
    Accepts argon2 users username password ↔ lastPassword username boots = some password := by
  induction h with
  | start =>
      refine iff_of_false ?_ (fun h => nomatch h)
      rintro ⟨u, hu, -⟩
      cases hu
  | @boot boots m m' name secret hbooted hseed ih =>
      obtain ⟨salt, passwordHash, hhash, hfind⟩ := seedAdminUser_ok hseed
      rw [accepts_iff_hash, hfind, lastPassword_concat]
      split
      · simp only [Option.some.injEq, exists_eq_left']
        rw [hideal salt secret passwordHash hhash]
        exact eq_comm
      · rw [← accepts_iff_hash]
        exact ih

theorem lastPassword_mem {username password : Str}
    (h : lastPassword username boots = some password) :
    (username, password) ∈ boots := by
  obtain ⟨boot, hfind, rfl⟩ := Option.map_eq_some_iff.mp h
  have hname : boot.1 = username := by simpa using List.find?_some hfind
  subst hname
  exact List.mem_reverse.mp (List.mem_of_find?_eq_some hfind)

/-- After any sequence of boots the last one's account is the only one that is accepted, if and
only if every boot had its name. -/
theorem onlyLast_iff (hideal : argon2.Ideal) (hbooted : Booted argon2 boots users)
    {username password : Str} (hlast : boots.getLast? = some (username, password)) :
    (∀ (name candidate : Str) (m : Accounts), m.users = users → m.chance.fails = false →
      ((∃ userId, (exec answerUser (validateCredentials argon2 name candidate) m).1 =
        .ok userId) ↔
        name = username ∧ candidate = password)) ↔
    ∀ boot ∈ boots, boot.1 = username := by
  obtain ⟨before, rfl⟩ := List.getLast?_eq_some_iff.mp hlast
  have hnow : lastPassword username (before ++ [(username, password)]) = some password := by
    rw [lastPassword_concat, if_pos rfl]
  constructor
  · intro hall boot hboot
    -- the name of any boot has a password that is accepted
    obtain ⟨candidate, hcandidate⟩ : ∃ candidate, lastPassword boot.1
        (before ++ [(username, password)]) = some candidate := by
      refine Option.isSome_iff_exists.mp ?_
      unfold lastPassword
      rw [Option.isSome_map, List.find?_isSome]
      exact ⟨boot, List.mem_reverse.mpr hboot, decide_eq_true rfl⟩
    have haccepts := (hbooted.accepts_iff hideal boot.1 candidate).mpr hcandidate
    exact ((hall boot.1 candidate ⟨users, Chance.calm, 0⟩ rfl rfl).mp
      ((validateCredentials_ok_iff rfl).mpr haccepts)).1
  · intro hsame name candidate m hm hanswers
    rw [validateCredentials_ok_iff hanswers, hm, hbooted.accepts_iff hideal]
    constructor
    · intro h
      obtain rfl : name = username := hsame _ (lastPassword_mem h)
      rw [hnow] at h
      exact ⟨rfl, (Option.some.inj h).symm⟩
    · rintro ⟨rfl, rfl⟩
      exact hnow

end

/-! ### Two boots -/

/-- A hash that shows its password. -/
def Argon2.plain : Argon2 where
  hashPassword _ password := .ok ("$argon2id$".toList ++ password)
  verifyPassword passwordHash candidate :=
    if passwordHash = "$argon2id$".toList ++ candidate then .ok ()
      else .error "password hash mismatch"

theorem Argon2.plain_ideal : Argon2.plain.Ideal := by
  intro salt password passwordHash hhash candidate
  cases hhash
  show (if "$argon2id$".toList ++ password = "$argon2id$".toList ++ candidate then _ else _) =
    _ ↔ _
  split
  · next h => exact iff_of_true rfl (List.append_cancel_left h).symm
  · next h => exact iff_of_false (fun h => nomatch h) fun e => h (by rw [e])

/-- The table after two boots. -/
def bootTwice (first second : Str × Str) : Accounts :=
  let m : Accounts := ⟨[], Chance.calm, 0⟩
  let m := (exec answerUser (seedAdminUser Argon2.plain first.1 first.2) m).2
  (exec answerUser (seedAdminUser Argon2.plain second.1 second.2) m).2

theorem booted_bootTwice {first second : Str × Str}
    (hfirst : (exec answerUser (seedAdminUser Argon2.plain first.1 first.2)
      ⟨[], Chance.calm, 0⟩).1 = .ok ())
    (hsecond : (exec answerUser (seedAdminUser Argon2.plain second.1 second.2)
      (exec answerUser (seedAdminUser Argon2.plain first.1 first.2) ⟨[], Chance.calm, 0⟩).2).1
        = .ok ()) :
    Booted Argon2.plain [first, second] (bootTwice first second).users :=
  .boot (.boot (m := ⟨[], Chance.calm, 0⟩) .start (Prod.ext hfirst rfl)) (Prod.ext hsecond rfl)

theorem onlyLast_iff_sample :
    (∃ userId, (exec answerUser (validateCredentials Argon2.plain "admin" "new")
      (bootTwice ("admin".toList, "old".toList) ("admin".toList, "new".toList))).1 =
        .ok userId) ↔
    "admin".toList = "admin".toList ∧ "new".toList = "new".toList :=
  (onlyLast_iff Argon2.plain_ideal
    (@booted_bootTwice ("admin".toList, "old".toList) ("admin".toList, "new".toList)
    (by decide +kernel) (by decide +kernel)) rfl).mpr (by decide) _ _ _ rfl (by decide +kernel)

/-- The configured name changes, and the old login stays valid. -/
theorem old_login_stays :
    ¬ ∀ (argon2 : Argon2) (boots : List (Str × Str)) (users : Users)
    (username password name candidate : Str)
      (m : Accounts), argon2.Ideal → Booted argon2 boots users →
      boots.getLast? = some (username, password) →
      m.users = users → m.chance.fails = false →
      ((∃ userId, (exec answerUser (validateCredentials argon2 name candidate) m).1 =
        .ok userId) ↔
        name = username ∧ candidate = password) := by
  intro h
  have hbooted := @booted_bootTwice ("admin".toList, "old".toList) ("operator".toList,
    "new".toList) (by decide +kernel) (by decide +kernel)
  have haccepts := (hbooted.accepts_iff Argon2.plain_ideal "admin" "old").mpr (by decide)
  have hold :=
    (h Argon2.plain _ _ "operator" "new" "admin" "old" _ Argon2.plain_ideal hbooted rfl rfl
    (by decide +kernel)).mp ((validateCredentials_ok_iff (by decide +kernel)).mpr haccepts)
  exact absurd hold.1 (by decide)

end Weiterleitung
