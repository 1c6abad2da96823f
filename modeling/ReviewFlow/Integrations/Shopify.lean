import ReviewFlow.Integrations.Schemas
import ReviewFlow.Savepoint

/-!
# Linking a Shopify shop

The link request inserts its Integration in a savepoint and calls Shopify from inside it. The
savepoint takes the row back; what Shopify was asked to create stays until it is asked to delete it.
-/

namespace ReviewFlow.Shopify

open Python Savepoint
open Integrations (Json Dict)

inductive Fault where
  | attributeError
  | typeError
  | keyError
  | integrityError
  | tenantContextError
  | actorNotMember
  | other (name : String)
  deriving DecidableEq

/-- `createdIds` is the attribute that `register_webhooks` adds to its exception. -/
inductive Error where
  | installExpired
  | installInvalid
  | unavailable (createdIds : Option (List Json))
  | fault (fault : Fault)

abbrev Result := Except Error

inductive Query where
  | shopIdentity
  | webhookSubscriptionCreate (topic uri : Str)
  | webhookSubscriptionDelete (id : Json)

structure Request where
  shop : Str
  accessToken : Json
  query : Query

/-- What comes of one request: one of the exceptions that `_shopify_post` expects, another
exception, or an answer, whose body is none where it is not JSON. -/
inductive Response where
  | transportError
  | raises (fault : Fault)
  | answered (status : ℕ) (body : Option Json)

structure Call where
  request : Request
  response : Response

structure Journal where
  calls : List Call

instance : Preorder Journal where
  le a b := a.calls <+: b.calls
  le_refl a := List.prefix_refl a.calls
  le_trans _ _ _ h h' := h.trans h'

structure Pending where
  shop : Str
  credentialsFernet : String
  issuedAt : ℤ

structure Integration where
  id : Str
  merchantId : ℕ
  provider : String
  status : String
  credentialsEncrypted : String
  configJson : Dict

structure AuditRow where
  merchantId : ℕ
  actorUser : ℕ
  action : String
  targetType : String
  targetId : Str
  metadataJson : Dict

/-- The session is no part of the savepoint, which opens after its only change. -/
structure Database where
  shopifyPending : Option Pending
  integrations : List Integration
  auditLog : List AuditRow

inductive Statement where
  | createIntegration
  | saveConfig
  | readMembers
  | createAudit
  deriving DecidableEq

/-- What a request meets. `shopify` answers by the number of the calls before; `encrypt` and
`decrypt` are `core.crypto` on the JSON text of a value. -/
structure Env where
  now : ℤ
  webhookBase : Str
  currentMerchantId : Option ℕ
  members : List ℕ
  newId : Str
  encrypt : Json → Except Fault String
  decrypt : String → Except Fault Json
  refused : Statement → Option Fault
  shopify : ℕ → Request → Response

abbrev Prog := Program Env Error Database Journal

abbrev State := Store Database Journal

def attempt {α : Type} (r : Result α) : Prog α := Program.query fun _ db => (r, db)

def raised {α : Type} : Except Fault α → Result α
  | .ok a => .ok a
  | .error fault => .error (.fault fault)

/-- `v.get(key)`. -/
def get (v : Json) (key : String) : Result Json :=
  match v with
  | .dict items => .ok (Dict.get items (text key))
  | _ => .error (.fault .attributeError)

def orEmpty (v : Json) : Json := v.orElse (.dict [])

/-- `v[key]`. -/
def subscript (v : Json) (key : String) : Result Json :=
  match v with
  | .dict items => match items.find? fun p => p.1 == text key with
    | some p => .ok p.2
    | none => .error (.fault .keyError)
  | _ => .error (.fault .typeError)

def Response.json : Response → Result Json
  | .transportError => .error (.unavailable none)
  | .raises fault => .error (.fault fault)
  | .answered status body =>
    if status ≠ 200 then .error (.unavailable none)
    else match body with
      | some v => .ok v
      | none => .error (.unavailable none)

def State.called (s : State) (call : Call) : State := ⟨s.data, ⟨s.journal.calls ++ [call]⟩⟩

def shopifyPost (request : Request) : Prog Json where
  run env s :=
    let response := env.shopify s.journal.calls.length request
    (response.json, State.called s ⟨request, response⟩)
  grows _ s := List.prefix_append s.journal.calls _

/-- What `_graphql` makes of the answer. -/
def graphqlData (result : Json) : Result Json := do
  let errors ← get result "errors"
  if errors.truthy then .error (.unavailable none)
  else do
    let data ← get result "data"
    .ok (orEmpty data)

def graphql (request : Request) : Prog Json := do
  let result ← shopifyPost request
  attempt (graphqlData result)

def pendingMaxAge : ℤ := 15 * 60

/-- `_SHOP_GID_RE.match`: the group, if it matches. -/
def shopGid? (id : Str) : Option Str :=
  let gid := text "gid://shopify/Shop/"
  let digits := (beforeEnd id).drop gid.length
  if gid <+: beforeEnd id ∧ digits ≠ [] ∧ digits.all isDecimal then some digits else none

/-- What `fetch_shop_identity` makes of the data. -/
def shopIdentity (shop : Str) (data : Json) : Result Str := do
  let shopField ← get data "shop"
  let domain ← get (orEmpty shopField) "myshopifyDomain"
  match domain with
  | .str found =>
    if found ≠ shop then .error .installInvalid
    else do
      let id ← get (orEmpty shopField) "id"
      match id.orElse (.str []) with
      | .str gid => match shopGid? gid with
        | some shopId => .ok shopId
        | none => .error .installInvalid
      | _ => .error (.fault .typeError)
  | _ => .error .installInvalid

def fetchShopIdentity (shop : Str) (accessToken : Json) : Prog Str := do
  let data ← graphql ⟨shop, accessToken, .shopIdentity⟩
  attempt (shopIdentity shop data)

/-- What `register_webhooks` makes of the data of one answer. -/
def subscriptionId (data : Json) : Result Json := do
  let created ← get data "webhookSubscriptionCreate"
  let userErrors ← get (orEmpty created) "userErrors"
  if userErrors.truthy then .error (.unavailable none)
  else do
    let subscription ← get (orEmpty created) "webhookSubscription"
    let id ← get (orEmpty subscription) "id"
    if id.truthy then .ok id else .error (.unavailable none)

def registerWebhook (shop : Str) (accessToken : Json) (uri topic : Str) (createdIds : List Json) :
    Prog Json :=
  Program.handle
    (do
      let data ← graphql ⟨shop, accessToken, .webhookSubscriptionCreate topic uri⟩
      attempt (subscriptionId data))
    fun e => match e with
      | .unavailable _ => Program.raise (.unavailable (some createdIds))
      | e => Program.raise e

def registerTopics (shop : Str) (accessToken : Json) (uri : Str) :
    List Str → List Json → Prog (List Json)
  | [], createdIds => pure createdIds
  | topic :: topics, createdIds => do
    let id ← registerWebhook shop accessToken uri topic createdIds
    registerTopics shop accessToken uri topics (createdIds ++ [id])

def ordersPaid : Str := text "ORDERS_PAID"

def appUninstalled : Str := text "APP_UNINSTALLED"

def Env.uri (env : Env) (integrationId : Str) : Str :=
  env.webhookBase ++ text "/api/v1/webhooks/shopify/" ++ integrationId

def registerWebhooks (shop : Str) (accessToken : Json) (integrationId : Str) :
    Prog (List Json) := do
  let env ← Program.ask
  registerTopics shop accessToken (env.uri integrationId) [ordersPaid, appUninstalled] []

def deleteUserErrors (data : Json) : Result Json := do
  let deleted ← get data "webhookSubscriptionDelete"
  get (orEmpty deleted) "userErrors"

def deleteWebhook (shop : Str) (accessToken : Json) (id : Json) : Prog Unit :=
  Program.handle
    (do
      let data ← graphql ⟨shop, accessToken, .webhookSubscriptionDelete id⟩
      let _ ← attempt (deleteUserErrors data)
      pure ())
    fun _ => pure ()

def deleteWebhooks (shop : Str) (accessToken : Json) : List Json → Prog Unit
  | [] => pure ()
  | id :: ids => do
    deleteWebhook shop accessToken id
    deleteWebhooks shop accessToken ids

def statement {α : Type} (kind : Statement) (f : Env → Database → Result α × Database) : Prog α :=
  Program.query fun env db => match env.refused kind with
    | some fault => (.error (.fault fault), db)
    | none => f env db

def createIntegration (shop shopId : Str) (credentialsEncrypted : String) : Prog Integration :=
  statement .createIntegration fun env db => match env.currentMerchantId with
    | none => (.error (.fault .tenantContextError), db)
    | some merchantId =>
      if env.newId ∈ db.integrations.map (·.id) then (.error (.fault .integrityError), db)
      else
        let integration : Integration :=
          ⟨env.newId, merchantId, "shopify", "CONNECTED", credentialsEncrypted,
            [(text "shop_domain", .str shop), (text "shop_id", .str shopId)]⟩
        (.ok integration, { db with integrations := db.integrations ++ [integration] })

/-- `integration.save(update_fields=["config_json", "updated_at"])`. -/
def saveConfig (integration : Integration) : Prog Unit :=
  statement .saveConfig fun _ db =>
    (.ok (), { db with integrations := db.integrations.map fun row =>
      if row.id = integration.id then { row with configJson := integration.configJson } else row })

def auditConnected : String := "integration.connected"

/-- `auditlog.services.record`. -/
def record (action : String) (actor : ℕ) (target : Integration) (metadata : Dict) : Prog Unit := do
  let env ← Program.ask
  match env.currentMerchantId with
  | none => Program.raise (.fault .tenantContextError)
  | some merchantId => do
    let member ← statement .readMembers fun env db => (.ok (decide (actor ∈ env.members)), db)
    if member = false then Program.raise (.fault .actorNotMember)
    else statement .createAudit fun _ db =>
      (.ok (), { db with auditLog := db.auditLog ++
        [⟨merchantId, actor, action, "integrations.integration", target.id, metadata⟩] })

def connect (actor : ℕ) (shop : Str) (credentials accessToken : Json) (shopId : Str) :
    Prog Integration := do
  let env ← Program.ask
  let credentialsEncrypted ← attempt (raised (env.encrypt credentials))
  let integration ← createIntegration shop shopId credentialsEncrypted
  let subscriptionIds ← registerWebhooks shop accessToken integration.id
  let integration := { integration with
    configJson := integration.configJson ++
      [(text "webhook_subscription_ids", .list subscriptionIds)] }
  saveConfig integration
  record auditConnected actor integration
    [(text "provider", .str (text "shopify")), (text "shop_domain", .str shop)]
  pure integration

/-- `getattr(exc, "created_ids", [])`. -/
def Error.createdIds : Error → List Json
  | .unavailable (some ids) => ids
  | _ => []

/-- `session.pop("shopify_pending", None)`. -/
def popPending : Prog (Option Pending) :=
  Program.query fun _ db => (.ok db.shopifyPending, { db with shopifyPending := none })

def freshPending (now : ℤ) : Option Pending → Result Pending
  | none => .error .installExpired
  | some pending =>
    if pendingMaxAge < now - pending.issuedAt then .error .installExpired else .ok pending

def linkShopifyInstallation (actor : ℕ) : Prog Integration := do
  let env ← Program.ask
  let popped ← popPending
  let pending ← attempt (freshPending env.now popped)
  let credentials ← attempt (raised (env.decrypt pending.credentialsFernet))
  let accessToken ← attempt (subscript credentials "access_token")
  let shopId ← fetchShopIdentity pending.shop accessToken
  Program.handle
    (Program.savepoint (connect actor pending.shop credentials accessToken shopId)) fun e => do
    deleteWebhooks pending.shop accessToken e.createdIds
    Program.raise (.unavailable none)

end ReviewFlow.Shopify
