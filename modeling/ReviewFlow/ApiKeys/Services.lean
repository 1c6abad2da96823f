import ReviewFlow.Accounts.Models

/-!
# The keys of the public API

The rows of all merchants, with the part of the accounts that the services read. A function of
a merchant is given it as the argument that its tenant context holds; the digest of a key is a
parameter.
-/

namespace ReviewFlow.ApiKeys

open Tables Accounts

inductive Scope where
  | salesWrite
  | reviewsRead
  | transactionsRead
  deriving DecidableEq

def Scope.value : Scope → String
  | .salesWrite => "sales:write"
  | .reviewsRead => "reviews:read"
  | .transactionsRead => "transactions:read"

/-- `ApiKey.Scope.values`. -/
def Scope.values : List String := [Scope.salesWrite, .reviewsRead, .transactionsRead].map value

inductive MerchantStatus where
  | active
  | suspended
  | deleted
  deriving DecidableEq

structure ApiKey where
  id : Uuid
  merchantId : Uuid
  keyHash : String
  scopesJson : List String
  isActive : Bool
  lastUsedAt : Option Time
  deriving DecidableEq

/-- The primary key and `apikeys_apikey_key_hash_uniq`. -/
def ApiKey.Clash (a b : ApiKey) : Prop := a.id = b.id ∨ a.keyHash = b.keyHash

instance : DecidableRel ApiKey.Clash := fun _ _ => inferInstanceAs (Decidable (_ ∨ _))

structure TeamMember where
  merchantId : Uuid
  userId : Uuid
  role : Role
  deriving DecidableEq

inductive Action where
  | created (scopes : List String)
  | revoked
  deriving DecidableEq

structure AuditRow where
  merchantId : Uuid
  actor : Uuid
  target : Uuid
  action : Action
  deriving DecidableEq

structure Database where
  keys : Table ApiKey ApiKey.Clash
  status : Uuid → MerchantStatus
  teamMembers : List TeamMember
  audit : List AuditRow

inductive Error where
  | invalidScopes (message : String)
  | apiKeyNotFound
  | actorNotMember
  | integrityError
  deriving DecidableEq

def validateScopes : Json → Except Error (List String)
  | .arr [] => .error (.invalidScopes "scopes must be a non-empty list.")
  | .arr (item :: items) => match (item :: items).mapM Json.str? with
    | none => .error (.invalidScopes "Unknown API key scope.")
    | some scopes =>
      if !scopes.all (Scope.values.contains ·) then
        .error (.invalidScopes "Unknown API key scope.")
      else if ¬ scopes.Nodup then .error (.invalidScopes "Duplicate API key scopes.")
      else .ok scopes
  | _ => .error (.invalidScopes "scopes must be a non-empty list.")

def Database.record (db : Database) (merchantId actor target : Uuid) (action : Action) :
    Except Error Database :=
  if db.teamMembers.any fun m => m.merchantId == merchantId && m.userId == actor then
    .ok { db with audit := db.audit ++ [⟨merchantId, actor, target, action⟩] }
  else .error .actorNotMember

/-- `raw` and `id` are what `secrets` and `uuid` return. -/
def Database.createApiKey (hash : String → String) (db : Database) (merchantId actor : Uuid)
    (scopes : Json) (raw : String) (id : Uuid) : Except Error Database := do
  let scopes ← validateScopes scopes
  match db.keys.insert? ⟨id, merchantId, hash raw, scopes, true, none⟩ with
  | none => .error .integrityError
  | some keys => Database.record { db with keys := keys } merchantId actor id (.created scopes)

/-- `get_api_key`: a row of another merchant is not found. -/
def Database.getApiKey (db : Database) (merchantId keyId : Uuid) : Except Error ApiKey :=
  match db.keys.find? fun key => key.merchantId == merchantId && key.id == keyId with
  | none => .error .apiKeyNotFound
  | some key => .ok key

/-- `UPDATE` of `is_active` and `last_used_at`. -/
def Database.updateKeys (db : Database) (f : ApiKey → ApiKey) (hid : ∀ k, (f k).id = k.id)
    (hhash : ∀ k, (f k).keyHash = k.keyHash) : Database :=
  { db with
    keys := db.keys.update f fun a b h => by
      simpa only [ApiKey.Clash, hid, hhash] using h }

def ApiKey.revoked (merchantId keyId : Uuid) (key : ApiKey) : ApiKey :=
  if key.merchantId = merchantId ∧ key.id = keyId ∧ key.isActive = true then
    { key with isActive := false }
  else key

/-- `UPDATE ... WHERE last_used_at IS NULL OR last_used_at < now - 60 s`. -/
def ApiKey.touched (merchantId keyId : Uuid) (now stamp : Time) (key : ApiKey) : ApiKey :=
  if key.merchantId = merchantId ∧ key.id = keyId ∧
      key.lastUsedAt.all (· < now - 60 * 1000000) = true then
    { key with lastUsedAt := some stamp }
  else key

section Columns

variable {merchantId keyId : Uuid} {now stamp : Time} {key : ApiKey}

@[simp] theorem ApiKey.revoked_id : (key.revoked merchantId keyId).id = key.id := by
  unfold ApiKey.revoked
  split <;> rfl

@[simp] theorem ApiKey.revoked_keyHash :
    (key.revoked merchantId keyId).keyHash = key.keyHash := by
  unfold ApiKey.revoked
  split <;> rfl

@[simp] theorem ApiKey.touched_id : (key.touched merchantId keyId now stamp).id = key.id := by
  unfold ApiKey.touched
  split <;> rfl

@[simp] theorem ApiKey.touched_keyHash :
    (key.touched merchantId keyId now stamp).keyHash = key.keyHash := by
  unfold ApiKey.touched
  split <;> rfl

end Columns

/-- `revoke_api_key`, of the row that `get_api_key` gave. -/
def Database.revokeApiKey (db : Database) (merchantId actor keyId : Uuid) :
    Except Error Database :=
  let updated := db.keys.rows.any fun key =>
    key.merchantId == merchantId && key.id == keyId && key.isActive
  if updated then
    (db.updateKeys (·.revoked merchantId keyId) (fun _ => ApiKey.revoked_id)
      fun _ => ApiKey.revoked_keyHash).record merchantId actor keyId .revoked
  else .ok db

def isKeyChar (c : Char) : Bool := c.isAlphanum || c == '_' || c == '-'

/-- `^rf_live_[A-Za-z0-9_-]{32}$` with `match`: a newline may follow. -/
def isKey (raw : String) : Bool :=
  let rest := raw.toList.drop 8
  raw.toList.take 8 == "rf_live_".toList && (rest.take 32).length == 32 &&
    (rest.take 32).all isKeyChar && (rest.drop 32 == [] || rest.drop 32 == ['\n'])

def Database.authenticateApiKey (hash : String → String) (db : Database) (raw : String) :
    Option ApiKey :=
  if isKey raw then
    (db.keys.find? (·.keyHash == hash raw)).filter fun key =>
      key.isActive && db.status key.merchantId == .active
  else none

/-- `touch_last_used`: the clock is read for the filter and then for the value. -/
def Database.touchLastUsed (db : Database) (key : ApiKey) (now stamp : Time) : Database :=
  db.updateKeys (·.touched key.merchantId key.id now stamp) (fun _ => ApiKey.touched_id)
    fun _ => ApiKey.touched_keyHash

end ReviewFlow.ApiKeys
