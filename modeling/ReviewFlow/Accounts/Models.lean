import ReviewFlow.Savepoint
import ReviewFlow.Table
import ReviewFlow.Values

/-!
# The team of a merchant

The rows are those of one merchant, as its row policies show them; the users are
global. New primary keys come from a counter: a key is never used twice.
-/

namespace ReviewFlow.Accounts

open Savepoint Tables

abbrev Uuid := ℕ

inductive Role where
  | owner
  | admin
  | manager
  | viewer
  deriving DecidableEq

structure User where
  id : Uuid
  email : String
  /-- None is an unusable password. -/
  password : Option String
  deriving DecidableEq

def User.Clash (a b : User) : Prop := a.id = b.id ∨ a.email = b.email

structure Member where
  id : Uuid
  userId : Uuid
  role : Role
  invitedAt : Option Time
  acceptedAt : Option Time
  deriving DecidableEq

/-- The primary key and `uniq_teammember_merchant_user`. -/
def Member.Clash (a b : Member) : Prop := a.id = b.id ∨ a.userId = b.userId

instance : DecidableRel User.Clash := fun _ _ => inferInstanceAs (Decidable (_ ∨ _))
instance : DecidableRel Member.Clash := fun _ _ => inferInstanceAs (Decidable (_ ∨ _))

abbrev Members := Table Member Member.Clash

structure MemberFields where
  role : Option Role
  invitedAt : Option Time
  acceptedAt : Option Time

def Member.saved (k : Uuid) (fields : MemberFields) (m : Member) : Member :=
  if m.id = k then
    { m with
      role := fields.role.getD m.role
      invitedAt := fields.invitedAt.or m.invitedAt
      acceptedAt := fields.acceptedAt.or m.acceptedAt }
  else m

structure AuditLog where
  action : String
  actor : Uuid
  target : Uuid
  metadata : List (String × List String)
  deriving DecidableEq

structure Database where
  /-- `Merchant.status` is ACTIVE. -/
  active : Bool
  users : Table User User.Clash
  members : Members
  locations : List Uuid
  /-- `TeamMemberLocation`, as pairs of a member and a location. -/
  assigned : List (Uuid × Uuid)
  audit : List AuditLog
  nextId : Uuid

inductive Error where
  | teamPermissionDenied
  | teamMemberNotFound
  | alreadyMember
  | lastOwner
  | invalidInvite
  | validationError (field : String) (messages : List String)
  | actorNotMember
  | integrityError
  | doesNotExist
  deriving DecidableEq

/-- What a transaction is given: the clock, `strip().lower()` on addresses and
`validate_password`. -/
structure Env where
  now : Time
  normalizeEmail : String → String
  normalize_normalize : ∀ email, normalizeEmail (normalizeEmail email) = normalizeEmail email
  passwordErrors : String → List String

abbrev TeamM := Program Env Error Database Unit

section Members

variable {k : Uuid} {fields : MemberFields} {m : Member} {members : Members}

@[simp] theorem Member.saved_id : (m.saved k fields).id = m.id := by
  unfold Member.saved
  split <;> rfl

@[simp] theorem Member.saved_userId : (m.saved k fields).userId = m.userId := by
  unfold Member.saved
  split <;> rfl

theorem Member.saved_of_ne (h : m.id ≠ k) : m.saved k fields = m := if_neg h

theorem Member.Clash.symm (a b : Member) (h : a.Clash b) : b.Clash a := h.imp Eq.symm Eq.symm

theorem User.Clash.symm (a b : User) (h : a.Clash b) : b.Clash a := h.imp Eq.symm Eq.symm

theorem members_eq {a b : Member} (ha : a ∈ members) (hb : b ∈ members) (h : a.id = b.id) : a = b :=
  Table.eq_of_clash Member.Clash.symm ha hb (.inl h)

def Members.save (members : Members) (k : Uuid) (fields : MemberFields) : Members :=
  members.update (·.saved k fields) fun a b h => by simpa [Member.Clash] using h

def Members.byId (members : Members) (k : Uuid) : Option Member := members.find? (·.id == k)

theorem Members.mem_save {b : Member} :
    b ∈ members.save k fields ↔ ∃ a ∈ members, a.saved k fields = b := Table.mem_update

theorem Members.byId_eq_some : members.byId k = some m ↔ m ∈ members ∧ m.id = k := by
  constructor
  · intro h
    obtain ⟨hm, hk⟩ := Table.mem_of_find? h
    exact ⟨hm, beq_iff_eq.mp hk⟩
  · rintro ⟨hm, rfl⟩
    have key : ∀ a b : Member, (a.id == m.id) = true → (b.id == m.id) = true → a.Clash b := by
      intro a b ha hb
      exact .inl ((beq_iff_eq.mp ha).trans (beq_iff_eq.mp hb).symm)
    exact Table.find?_eq_some_of_mem (p := (·.id == m.id)) Member.Clash.symm hm
      (beq_self_eq_true _) key

theorem Members.byId_eq_none : members.byId k = none ↔ ∀ m ∈ members, m.id ≠ k := by
  simp [byId, Table.find?_eq_none]

theorem Members.byId_save (j : Uuid) :
    (members.save k fields).byId j = (members.byId j).map (·.saved k fields) := by
  unfold byId save Table.update Table.find?
  rw [List.find?_map]
  congr 2
  funext b
  simp

theorem Members.byId_append {members' : Members}
    (h : members'.rows = members.rows ++ [m]) (j : Uuid) :
    members'.byId j = (members.byId j).or (if m.id = j then some m else none) := by
  unfold byId Table.find?
  rw [h, List.find?_append, List.find?_singleton]
  simp

theorem Members.byId_delete {j : Uuid} (h : j ≠ k) :
    Members.byId (members.delete (·.id == k)) j = members.byId j := by
  unfold byId Table.delete Table.find?
  rw [List.find?_filter]
  congr 1
  funext b
  by_cases hb : b.id = j
  · simp [hb, h]
  · simp [hb]

end Members

end ReviewFlow.Accounts
