import ReviewFlow.Accounts.Models

/-!
# The team operations

Each is the body of one transaction that begins with the lock on the Merchant row. An
`IntegrityError` is raised inside a savepoint of its own, and the handler runs after it.
-/

namespace ReviewFlow.Accounts

open Savepoint Tables Program

def auditInvited : String := "team_member.invited"
def auditRoleChanged : String := "team_member.role_changed"
def auditRemoved : String := "team_member.removed"
def auditAccepted : String := "team_member.accepted"
def auditLocationsChanged : String := "team_member.locations_changed"

def Role.value : Role → String
  | .owner => "OWNER"
  | .admin => "ADMIN"
  | .manager => "MANAGER"
  | .viewer => "VIEWER"

/-- `IsOwnerOrAdmin.roles`. -/
def Role.manages : Role → Bool
  | .owner | .admin => true
  | .manager | .viewer => false

def Member.accepted (m : Member) : Bool := m.acceptedAt.isSome

def isOwnerOrAdmin (db : Database) (userId : Uuid) : Option Member :=
  (db.members.find? fun m => m.userId == userId && m.accepted && db.active).filter (·.role.manages)

def lockTeam (actor : Member) : TeamM Member := do
  let db ← get
  match (db.members.byId actor.id).filter (·.accepted) with
  | some actor => pure actor
  | none => raise .teamPermissionDenied

def checkCanManage (actor target : Member) (newRole : Option Role) : TeamM Unit := do
  whenever (target.id = actor.id) (raise .teamPermissionDenied)
  whenever (actor.role ≠ .owner ∧ (target.role = .owner ∨ newRole = some .owner))
    (raise .teamPermissionDenied)

def checkCanGrantOwner (actor : Member) (role : Role) : TeamM Unit :=
  whenever (role = .owner ∧ actor.role ≠ .owner) (raise .teamPermissionDenied)

def Member.isOwner (m : Member) : Bool := m.role == .owner && m.accepted

def wouldOrphanOwners (db : Database) (target : Member) : Bool :=
  target.role == .owner && !db.members.rows.any fun m => m.isOwner && m.id != target.id

def lockTarget (memberId : Uuid) : TeamM Member := do
  let db ← get
  match db.members.byId memberId with
  | some member => pure member
  | none => raise .teamMemberNotFound

/-- `auditlog.services.record`. -/
def record (action : String) (actor : Uuid) (target : Uuid)
    (metadata : List (String × List String)) :
    TeamM Unit :=
  savepoint do
    let db ← get
    whenever (db.members.rows.all fun m => !(m.userId == actor && m.accepted))
      (raise .actorNotMember)
    modify fun db => { db with audit := db.audit ++ [⟨action, actor, target, metadata⟩] }

def Database.newUser (db : Database) (email : String) : User := ⟨db.nextId, email, none⟩

def Database.newMember (db : Database) (user : User) (role : Role) (now : Time) : Member :=
  ⟨db.nextId, user.id, role, some now, none⟩

/-- `User.objects.create_user(email, None)`. -/
def createUser (email : String) : TeamM User :=
  query fun env db =>
    match db.users.insert? (db.newUser (env.normalizeEmail email)) with
    | some users => (.ok (db.newUser (env.normalizeEmail email)),
        { db with users := users, nextId := db.nextId + 1 })
    | none => (.error .integrityError, db)

def getUser (email : String) : TeamM User := do
  let db ← get
  match db.users.find? (·.email == email) with
  | some user => pure user
  | none => raise .doesNotExist

/-- `TeamMember.objects.create`. -/
def createMember (user : User) (role : Role) : TeamM Member :=
  query fun env db =>
    match db.members.insert? (db.newMember user role env.now) with
    | some members => (.ok (db.newMember user role env.now),
        { db with members := members, nextId := db.nextId + 1 })
    | none => (.error .integrityError, db)

def saveMember (k : Uuid) (fields : MemberFields) : TeamM Unit :=
  modify fun db => { db with members := db.members.save k fields }

/-- The handler of `invite_team_member` for a user who has a membership. -/
def reinvite (user : User) (role : Role) : TeamM Member := do
  let env ← ask
  let db ← get
  match db.members.find? (·.userId == user.id) with
  | none => raise .doesNotExist
  | some member =>
    whenever (member.accepted = true) (raise .alreadyMember)
    saveMember member.id ⟨some role, some env.now, none⟩
    pure { member with role := role, invitedAt := some env.now }

def onIntegrityError {α : Type} (handler : TeamM α) (e : Error) : TeamM α :=
  if e = .integrityError then handler else raise e

/-- `create_user`, or the user of the address. -/
def inviteUser (email : String) : TeamM User :=
  handle (savepoint (createUser email)) (onIntegrityError (getUser email))

/-- `TeamMember.objects.create`, or the pending membership of the user. -/
def inviteMember (user : User) (role : Role) : TeamM Member :=
  handle (savepoint (createMember user role)) (onIntegrityError (reinvite user role))

structure Invite where
  member : Uuid
  user : Uuid
  invitedAt : Time
  deriving DecidableEq

def makeInviteToken (m : Member) : Option Invite := m.invitedAt.map fun iat => ⟨m.id, m.userId, iat⟩

def inviteTeamMember (actor : Member) (address : String) (role : Role) :
    TeamM (Member × Option Invite) := do
  let env ← ask
  let email := env.normalizeEmail address
  let actor ← lockTeam actor
  checkCanGrantOwner actor role
  let user ← inviteUser email
  let member ← inviteMember user role
  record auditInvited actor.userId member.id [("role", [role.value])]
  pure (member, makeInviteToken member)

def changeTeamMemberRole (actor : Member) (memberId : Uuid) (role : Role) : TeamM Unit := do
  let actor ← lockTeam actor
  let member ← lockTarget memberId
  checkCanManage actor member (some role)
  whenever (member.role ≠ role) do
    let db ← get
    whenever (member.role = .owner ∧ role ≠ .owner ∧ wouldOrphanOwners db member = true)
      (raise .lastOwner)
    saveMember member.id ⟨some role, none, none⟩
    whenever (member.role = .manager ∧ role ≠ .manager)
      (modify fun db => { db with assigned := db.assigned.filter fun p => p.1 != member.id })
    record auditRoleChanged actor.userId member.id
      [("role_from", [member.role.value]), ("role_to", [role.value])]

def revokeTeamMember (actor : Member) (memberId : Uuid) : TeamM Unit := do
  let actor ← lockTeam actor
  let member ← lockTarget memberId
  checkCanManage actor member none
  let db ← get
  whenever (wouldOrphanOwners db member = true) (raise .lastOwner)
  record auditRemoved actor.userId member.id [("role", [member.role.value])]
  -- The assignments go with the membership.
  modify fun db => { db with
    members := db.members.delete (·.id == member.id)
    assigned := db.assigned.filter fun p => p.1 != member.id }

def onlyManagers : Error :=
  .validationError "location_ids" ["Only MANAGER team members can be assigned locations."]

def locationsNotFound : Error :=
  .validationError "location_ids" ["One or more locations were not found."]

def Database.locationsOf (db : Database) (member : Uuid) : List Uuid :=
  (db.assigned.filter fun p => p.1 == member).map Prod.snd

def setTeamMemberLocations (actor : Member) (memberId : Uuid)
    (locationIds : List Uuid) : TeamM Unit := do
  let actor ← lockTeam actor
  whenever (actor.role.manages = false) (raise .teamPermissionDenied)
  let member ← lockTarget memberId
  whenever (member.role ≠ .manager) (raise onlyManagers)
  let wanted := locationIds.dedup
  let db ← get
  whenever (¬ wanted ⊆ db.locations) (raise locationsNotFound)
  let current := db.locationsOf member.id
  whenever (¬ (current ⊆ wanted ∧ wanted ⊆ current)) do
    modify fun db => { db with
      assigned := (db.assigned.filter fun p => p.1 != member.id || wanted.contains p.2) ++
        (wanted.filter fun l => !current.contains l).map fun l => (member.id, l) }
    record auditLocationsChanged actor.userId member.id
      [("location_ids", (wanted.map toString).mergeSort)]

/-- The lookup of `accept_invite`. The signature, the age and the form of the token are
checked before: none is a token that fails there. -/
def lookupInvite (db : Database) (token : Option Invite) : Option Invite :=
  token.filter fun invite =>
    db.active && db.members.rows.any fun m =>
      m.id == invite.member && m.userId == invite.user && !m.accepted

def setPassword (users : Table User User.Clash) (k : Uuid) (password : String) :
    Table User User.Clash :=
  users.update (fun u => if u.id = k then { u with password := some password } else u)
      fun a b h => by
    simp only [User.Clash] at h ⊢
    split at h <;> split at h <;> exact h

/-- The second transaction of `accept_invite`. -/
def acceptInvite (invite : Invite) (password : String) : TeamM Unit := do
  let env ← ask
  let db ← get
  whenever (db.active = false) (raise .invalidInvite)
  match db.members.find? fun m =>
    m.id == invite.member && m.userId == invite.user && !m.accepted with
  | none => raise .invalidInvite
  | some member =>
    whenever (member.invitedAt ≠ some invite.invitedAt) (raise .invalidInvite)
    match db.users.find? (·.id == invite.user) with
    | none => raise .doesNotExist
    | some user =>
      match user.password with
      | some current => whenever (current ≠ password) (raise .invalidInvite)
      | none =>
        whenever (env.passwordErrors password ≠ [])
          (raise (.validationError "password" (env.passwordErrors password)))
        modify fun db => { db with users := setPassword db.users user.id password }
      saveMember member.id ⟨none, none, some env.now⟩
      record auditAccepted user.id member.id []

end ReviewFlow.Accounts
