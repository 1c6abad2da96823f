import ReviewFlow.Integrations.Schemas
import ReviewFlow.Interleaving
import ReviewFlow.Table

/-!
# The location mappings of an integration

Each operation is one transaction that begins with the lock on the Integration row, so it is a
function of the row and its mappings, and where it raises they stay.
-/

namespace ReviewFlow.Mappings

open Python Tables Interleaving
open Integrations (Json Dict)

abbrev Uuid := ℕ

structure Mapping where
  location : Uuid
  configJson : Json
  isActive : Bool

/-- `uniq_integrationlocationmapping_integration_location`. -/
def Mapping.Clash (a b : Mapping) : Prop := a.location = b.location

instance : DecidableRel Mapping.Clash :=
  fun a b => inferInstanceAs (Decidable (a.location = b.location))

inductive Status where
  | connected
  | error
  | disconnected
  deriving DecidableEq

structure Integration where
  merchantId : Uuid
  status : Status
  credentialsEncrypted : Option String
  mappings : Table Mapping Mapping.Clash

inductive Error where
  | validationError (field message : String)
  | mappingExists
  | integrityError
  | attributeError
  | auditFailed
  | locationUnresolved
  deriving DecidableEq

/-- What a transaction is given: the tenant, the merchants of the locations that are there, and
whether the audit row is written. -/
structure Env where
  currentMerchant : Uuid
  merchantOf : Uuid → Option Uuid
  recorded : Bool

def externalKey : Str := text "external_location_id"

/-- `config_json.get("external_location_id")`. -/
def getExternalId : Json → Except Error Json
  | .dict d => .ok (Dict.get d externalKey)
  | _ => .error .attributeError

/-- `(config_json or {}).get("external_location_id")`. -/
def externalId (config : Json) : Except Error Json :=
  if config.truthy then getExternalId config else .ok .null

/-- `config_json -> 'external_location_id'` in the database. -/
def Mapping.external (m : Mapping) : Json :=
  match m.configJson with
  | .dict d => Dict.get d externalKey
  | _ => .null

def isText (v : Json) (s : Str) : Bool :=
  match v with
  | .str t => t == s
  | _ => false

/-- `==` on JSON values. On a `str` it is equality, and a `str` equals nothing else. -/
structure Equality where
  equal : Json → Json → Bool
  equal_str : ∀ v s, equal v (.str s) = isText v s

def notFound (field : String) : Error :=
  .validationError field "One or more locations were not found."

def assertSameMerchant (env : Env) (i : Integration) (merchants : List Uuid) (field : String) :
    Except Error Unit :=
  if merchants.any fun m => i.merchantId != env.currentMerchant || m != env.currentMerchant then
    .error (notFound field)
  else .ok ()

def validateExternalLocationId (i : Integration) (config : Json) (isActive : Bool)
    (exclude : Option Uuid) :
    Except Error Unit :=
  if isActive = false ∨ config.truthy = false then .ok ()
  else do
    match ← getExternalId config with
    | .null => pure ()
    | .str ext =>
      if i.mappings.rows.any fun m =>
        m.isActive && isText m.external ext && exclude != some m.location then
        .error (.validationError "config_json"
          "external_location_id must be unique among the active mappings.")
      else pure ()
    | _ => .error (.validationError "config_json" "external_location_id must be a string.")

def addLocationMapping (env : Env) (i : Integration) (locationId : Uuid) (config : Json)
    (isActive : Bool) :
    Except Error Integration :=
  match env.merchantOf locationId with
  | none => .error (notFound "location_id")
  | some merchant => do
    assertSameMerchant env i [merchant] "location_id"
    validateExternalLocationId i config isActive none
    match i.mappings.insert? ⟨locationId, config, isActive⟩ with
    | some mappings => pure { i with mappings := mappings }
    | none => .error .mappingExists

/-- One of the requested mappings. A missing `config_json` is null. -/
structure Item where
  locationId : Uuid
  configJson : Json
  isActive : Option Bool

def Item.active (m : Item) : Bool := m.isActive.getD true

def Item.row (m : Item) : Mapping := ⟨m.locationId, m.configJson, m.active⟩

def checkExternalIds (seen : List Str) : List Item → Except Error Unit
  | [] => .ok ()
  | m :: rest =>
    if m.active = false then checkExternalIds seen rest
    else do
      match ← externalId m.configJson with
      | .null => checkExternalIds seen rest
      | .str ext =>
        if ext ∈ seen then
          .error (.validationError "mappings"
          "external_location_id must be unique among active mappings.")
        else checkExternalIds (ext :: seen) rest
      | _ => .error (.validationError "mappings" "external_location_id must be a string.")

theorem checkExternalIds_cons (seen : List Str) (m : Item) (rest : List Item) :
    checkExternalIds seen (m :: rest) =
      (if m.active = false then checkExternalIds seen rest
      else do
        match ← externalId m.configJson with
        | .null => checkExternalIds seen rest
        | .str ext =>
          if ext ∈ seen then
            .error (.validationError "mappings"
            "external_location_id must be unique among active mappings.")
          else checkExternalIds (ext :: seen) rest
        | _ => .error (.validationError "mappings" "external_location_id must be a string.")) := rfl

/-- `row.save(update_fields=["config_json", "is_active", "updated_at"])`. -/
def saveItem (mappings : Table Mapping Mapping.Clash) (m : Item) : Table Mapping Mapping.Clash :=
  mappings.update (fun r => if r.location = m.locationId then m.row else r) fun a b h => by
    simp only [Mapping.Clash] at h ⊢
    split at h <;> split at h <;> simp_all [Item.row]

def writeItems (existing : List Uuid) : List Item → Table Mapping Mapping.Clash →
    Except Error (Table Mapping Mapping.Clash)
  | [], mappings => .ok mappings
  | m :: rest, mappings =>
    if m.locationId ∈ existing then writeItems existing rest (saveItem mappings m)
    else match mappings.insert? m.row with
      | some mappings => writeItems existing rest mappings
      | none => .error .integrityError

def raiseIf (c : Prop) [Decidable c] (message : String) : Except Error Unit :=
  if c then .error (.validationError "mappings" message) else .ok ()

def replaceLocationMappings (env : Env) (i : Integration) (items : List Item) :
    Except Error Integration := do
  let locationIds := items.map Item.locationId
  raiseIf (¬ locationIds.Nodup) "Duplicate location_id in the request."
  let merchants := locationIds.filterMap env.merchantOf
  raiseIf (merchants.length ≠ locationIds.length) "One or more locations were not found."
  assertSameMerchant env i merchants "mappings"
  checkExternalIds [] items
  let mappings ← writeItems (i.mappings.rows.map Mapping.location) items i.mappings
  pure { i with mappings := mappings.delete fun r => r.location ∉ locationIds }

def disconnectIntegration (env : Env) (i : Integration) : Except Error Integration :=
  if i.status = .disconnected then .ok i
  else if env.recorded = false then .error .auditFailed
  else .ok { i with
    status := .disconnected
    credentialsEncrypted := none
    mappings := i.mappings.update (fun r => { r with isActive := false }) fun _ _ h => h }

/-- The active mapping that has no external id, where it is the only one. -/
def soleLocation : List Mapping → Except Error (Option Uuid)
  | [m] => do
    let ext ← externalId m.configJson
    pure (if ext.truthy then none else some m.location)
  | _ => .ok none

def matching (py : Equality) (externalLocationId : Json) :
    List Mapping → Except Error (List Mapping)
  | [] => .ok []
  | m :: rest => do
    let ext ← externalId m.configJson
    let others ← matching py externalLocationId rest
    pure (if py.equal ext externalLocationId then m :: others else others)

def matchedLocation (py : Equality) (active : List Mapping) (externalLocationId : Json) :
    Except Error Uuid :=
  if externalLocationId.truthy then do
    match ← matching py externalLocationId active with
    | [m] => pure m.location
    | _ => .error .locationUnresolved
  else .error .locationUnresolved

def resolveLocation (py : Equality) (active : List Mapping) (externalLocationId : Json) :
    Except Error Uuid := do
  match ← soleLocation active with
  | some location => pure location
  | none => matchedLocation py active externalLocationId

def Integration.active (i : Integration) : List Mapping := i.mappings.rows.filter Mapping.isActive

inductive Operation where
  | add (locationId : Uuid) (config : Json) (isActive : Bool)
  | replace (items : List Item)
  | disconnect

def Operation.run (env : Env) (i : Integration) : Operation → Except Error Integration
  | .add locationId config isActive => addLocationMapping env i locationId config isActive
  | .replace items => replaceLocationMappings env i items
  | .disconnect => disconnectIntegration env i

def step (i : Integration) (label : Operation × Env) : Integration :=
  match label.1.run label.2 i with
  | .ok i' => i'
  | .error _ => i

abbrev MappingTransition := Transition Integration (Operation × Env)

def connected (merchantId : Uuid) (credentialsEncrypted : Option String) : Integration :=
  ⟨merchantId, .connected, credentialsEncrypted, Table.empty⟩

end ReviewFlow.Mappings
