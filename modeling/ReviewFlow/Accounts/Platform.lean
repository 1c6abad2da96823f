import ReviewFlow.Accounts.Team

/-!
# Several merchants and one table of users

A transaction sees the rows of its merchant and all the users. Those of one merchant wait for
each other at the lock on the Merchant row; two that meet at a user wait at the unique address or
at the lock on the User row, so each runs on what the one before committed.
-/

namespace ReviewFlow.Accounts

open Savepoint Tables Program Interleaving

structure MerchantRows where
  active : Bool
  members : Members
  locations : List Uuid
  assigned : List (Uuid × Uuid)
  audit : List AuditLog

structure Platform where
  users : Table User User.Clash
  nextId : Uuid
  merchants : List MerchantRows
  /-- All requests so far, each with its merchant. None is one that is done. -/
  requests : List (Option (ℕ × Pending))
  /-- The tokens that were signed. -/
  issued : List Invite

def Platform.empty : Platform := ⟨Table.empty, 0, [], [], []⟩

def Platform.view (w : Platform) (r : MerchantRows) : Database :=
  ⟨r.active, w.users, r.members, r.locations, r.assigned, r.audit, w.nextId⟩

def Database.rows (db : Database) : MerchantRows :=
  ⟨db.active, db.members, db.locations, db.assigned, db.audit⟩

inductive TeamEvent where
  | quiet
  | issued (token : Invite)
  | accepted (token : Invite)
  deriving DecidableEq

def TeamEvent.member : TeamEvent → Option Uuid
  | .quiet => none
  | .issued token => some token.member
  | .accepted token => some token.member

def TeamEvent.tokens : TeamEvent → List Invite
  | .issued token => [token]
  | _ => []

def Pending.act : Pending → TeamM TeamEvent
  | .change actor (.invite address role) => do
    let out ← inviteTeamMember actor address role
    pure (out.2.elim .quiet .issued)
  | .change actor request => do
    request.program actor
    pure .quiet
  | .accept invite password => do
    acceptInvite invite password
    pure (.accepted invite)

def Pending.perform (p : Pending) (env : Env) (db : Database) : TeamEvent × Database :=
  match (savepoint p.act).run env ⟨db, ()⟩ with
  | (.ok event, t) => (event, t.data)
  | (.error _, _) => (.quiet, db)

inductive PlatformChoice where
  | createMerchantWithOwner (email password : String) (now : Time)
  | createUser (email : String) (password : Option String)
  | check (merchant : ℕ) (userId : Uuid) (request : TeamRequest)
  | lookup (token : Invite) (password : String)
  | perform (i : ℕ) (env : Env)
  | elsewhere (merchant : ℕ) (active : Bool) (locations : List Uuid)

def Platform.createMerchantWithOwner (w : Platform) (email password : String)
    (now : Time) : Platform :=
  match w.users.insert? ⟨w.nextId, email, some password⟩ with
  | some users => { w with
      users := users
      nextId := w.nextId + 2
      merchants := w.merchants ++
        [⟨true, ⟨[⟨w.nextId + 1, w.nextId, .owner, none, some now⟩], List.pairwise_singleton _ _⟩,
          [], [], []⟩] }
  | none => w

def Platform.createUser (w : Platform) (email : String) (password : Option String) : Platform :=
  match w.users.insert? ⟨w.nextId, email, password⟩ with
  | some users => { w with users := users, nextId := w.nextId + 1 }
  | none => w

/-- The first transaction of `accept_invite`: only what was signed has a good signature. -/
def Platform.lookup (w : Platform) (token : Invite) : Option ℕ :=
  if token ∈ w.issued then w.merchants.findIdx? fun r =>
    (lookupInvite (w.view r) (some token)).isSome
  else none

def Platform.wait (w : Platform) (merchant : ℕ) (p : Pending) : Platform :=
  { w with requests := w.requests ++ [some (merchant, p)] }

def Platform.commit (w : Platform) (merchant i : ℕ) (out : TeamEvent × Database) : Platform where
  users := out.2.users
  nextId := out.2.nextId
  merchants := w.merchants.set merchant out.2.rows
  requests := w.requests.set i none
  issued := w.issued ++ out.1.tokens

def Platform.act (w : Platform) : PlatformChoice → TeamEvent × Platform
  | .createMerchantWithOwner email password now =>
    (.quiet, w.createMerchantWithOwner email password now)
  | .createUser email password => (.quiet, w.createUser email password)
  | .check merchant userId request =>
    match w.merchants[merchant]?.bind fun r => isOwnerOrAdmin (w.view r) userId with
    | some actor => (.quiet, w.wait merchant (.change actor request))
    | none => (.quiet, w)
  | .lookup token password =>
    match w.lookup token with
    | some merchant => (.quiet, w.wait merchant (.accept token password))
    | none => (.quiet, w)
  | .perform i env =>
    match w.requests[i]? with
    | some (some (merchant, p)) =>
      match w.merchants[merchant]? with
      | some r => ((p.perform env (w.view r)).1, w.commit merchant i (p.perform env (w.view r)))
      | none => (.quiet, w)
    | _ => (.quiet, w)
  | .elsewhere merchant active locations =>
    (.quiet, { w with merchants := w.merchants.modify merchant fun r =>
      { r with active := active, locations := locations } })

abbrev PlatformTransition := Transition Platform PlatformChoice

def Platform.step (w : Platform) (choice : PlatformChoice) : Platform := (w.act choice).2

def PlatformTransition.event (t : PlatformTransition) : TeamEvent := (t.before.act t.label).1

def passwordOf (users : Table User User.Clash) (k : Uuid) : Option String :=
  (users.find? (·.id == k)).bind (·.password)

theorem passwordOf_eq_some {users : Table User User.Clash} {k : Uuid} {p : String} :
    passwordOf users k = some p ↔ ∃ u ∈ users, u.id = k ∧ u.password = some p := by
  unfold passwordOf
  rw [Option.bind_eq_some_iff]
  constructor
  · rintro ⟨u, hfind, hp⟩
    obtain ⟨hu, hk⟩ := Table.mem_of_find? hfind
    exact ⟨u, hu, beq_iff_eq.mp hk, hp⟩
  · rintro ⟨u, hu, hk, hp⟩
    have key : ∀ a b : User, (a.id == k) = true → (b.id == k) = true → a.Clash b := by
      intro a b ha hb
      exact .inl ((beq_iff_eq.mp ha).trans (beq_iff_eq.mp hb).symm)
    exact ⟨u, Table.find?_eq_some_of_mem (p := (·.id == k)) User.Clash.symm hu
      (beq_iff_eq.mpr hk) key, hp⟩

def KeepsPasswords (users users' : Table User User.Clash) : Prop :=
  ∀ k p, passwordOf users k = some p → passwordOf users' k = some p

section Passwords

variable {users users' users'' : Table User User.Clash} {user : User} {password : String}

theorem KeepsPasswords.refl (users : Table User User.Clash) : KeepsPasswords users users :=
  fun _ _ h => h

theorem insert_keepsPasswords (h : users.insert? user = some users') :
    KeepsPasswords users users' := by
  intro k p hp
  obtain ⟨u, hu, hk, hpw⟩ := passwordOf_eq_some.mp hp
  exact passwordOf_eq_some.mpr ⟨u, (Table.mem_insert? h).mpr (.inl hu), hk, hpw⟩

theorem setPassword_keepsPasswords (hu : user ∈ users) (hnone : user.password = none) :
    KeepsPasswords users (setPassword users user.id password) := by
  intro k p hp
  obtain ⟨u, hu', hk, hpw⟩ := passwordOf_eq_some.mp hp
  have hne : u.id ≠ user.id := by
    intro hid
    rw [Table.eq_of_clash User.Clash.symm hu' hu (.inl hid), hnone] at hpw
    cases hpw
  exact passwordOf_eq_some.mpr ⟨u, Table.mem_update.mpr ⟨u, hu', if_neg hne⟩, hk, hpw⟩

end Passwords

end ReviewFlow.Accounts
