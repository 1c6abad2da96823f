import ReviewFlow.Integrations.CsvRuns
import ReviewFlow.Interleaving

/-!
# How events come in

The webhook receivers, `POST /sales` and the CSV import, up to the rows of the inbox, beside the
requests that connect, configure and disconnect integrations. A delivery looks its integration up in
one transaction and records or disconnects in another, so what it has verified may be out of date by
then. The import records each row in a transaction of its own.
-/

namespace ReviewFlow.Integrations.Intake

open Python Tables Interleaving
open Events (Uuid)
open Events.Receipts (Connection Event Call recordEvent)
open CsvRuns (FileRow FileReader Bytes startCsvImport rowsOf)

inductive Provider where
  | webhook
  | shopify
  | api
  | csv
  deriving DecidableEq

/-- The `config_json` that the provider reads. -/
inductive Config where
  | webhook (config : Webhook.Config)
  | shopify (shopDomain shopId : Option Str)
  | api
  | csv

def Config.provider : Config → Provider
  | .webhook _ => .webhook
  | .shopify _ _ => .shopify
  | .api => .api
  | .csv => .csv

structure Integration extends Connection where
  secret : Option Str
  config : Config

def Integration.provider (i : Integration) : Provider := i.config.provider

def Integration.Clash (a b : Integration) : Prop :=
  a.id = b.id ∨ a.provider = .api ∧ b.provider = .api ∧ a.merchantId = b.merchantId ∧
    a.status = .connected ∧ b.status = .connected

instance : DecidableRel Integration.Clash := fun _ _ => inferInstanceAs (Decidable (_ ∨ _))

inductive Encoding where
  | hex
  | base64

/-- `json.loads`, none for its ValueError, HMAC-SHA256 in an encoding, the settings and the reader
of files. -/
structure Platform where
  py : Runtime
  loads : Bytes → Option Json
  digest : Encoding → Str → Bytes → Str
  shopifyClientSecret : Str
  shopifyClientSecretPrevious : Str
  files : FileReader

/-- A delivery to a receiver. The integration of the path is none if it is no UUID. -/
structure Request where
  provider : Provider
  integrationId : Option Uuid
  signature : Str
  shopifyHmac : Str
  shopDomain : Str
  topic : Option Str
  webhookId : Str
  body : Bytes

inductive Payload where
  | json (payload : Dict)
  | row (row : FileRow)

abbrev Inbox := Events.Receipts.Inbox Str Payload

variable (web : Platform)

def verifyHmacSha256 (secret : Str) (body : Bytes) (signature : Str) (encoding : Encoding) : Bool :=
  signature != [] && secret != [] && web.digest encoding secret body == signature

def sigPrefix : Str := text "sha256="

def GenericWebhookAdapter.verify (i : Integration) (r : Request) : Bool :=
  sigPrefix.isPrefixOf r.signature && i.secret.any fun secret =>
    verifyHmacSha256 web secret r.body (r.signature.drop sigPrefix.length) .hex

def shopifySigned (r : Request) : Bool :=
  verifyHmacSha256 web web.shopifyClientSecret r.body r.shopifyHmac .base64 ||
    verifyHmacSha256 web web.shopifyClientSecretPrevious r.body r.shopifyHmac .base64

def ShopifyAdapter.verify (shopDomain : Option Str) (r : Request) : Bool :=
  shopifySigned web r && some r.shopDomain == shopDomain

def Integration.verify (i : Integration) (r : Request) : Bool :=
  match i.config with
  | .webhook _ => GenericWebhookAdapter.verify web i r
  | .shopify shopDomain _ => ShopifyAdapter.verify web shopDomain r
  | .api | .csv => false

def Integration.isUninstallEvent (i : Integration) (r : Request) : Bool :=
  i.provider == .shopify && r.topic == some (text "app/uninstalled")

def Integration.isSaleEvent (i : Integration) (r : Request) : Bool :=
  i.provider != .shopify || r.topic == some (text "orders/paid")

def orderOnlyKeys : List String := ["line_items", "order_number", "financial_status", "total_price"]

def Integration.uninstallPayloadMatches (i : Integration) (payload : Dict) : Bool :=
  match i.config, payload.get (text "id") with
  | .shopify _ shopId, .int n =>
    !(orderOnlyKeys.any fun key => payload.any fun p => p.1 == text key) &&
      shopId == some (str web.py (.int n))
  | _, _ => false

def Integration.externalEventId (i : Integration) (r : Request) (payload : Dict) : Result Str :=
  match i.config with
  | .webhook config => Webhook.getExternalEventId web.py config payload
  | .shopify _ _ => Shopify.getExternalEventId r.webhookId
  | .api => Api.getExternalEventId web.py payload
  | .csv => .error .attributeError

/-- How a receiver answers: a server error is an exception that it does not catch. -/
inductive Answer where
  | ok
  | webhookRejected
  | invalidWebhookPayload
  | payloadRejected (code : String)
  | serverError
  deriving DecidableEq

inductive Decision where
  | answer (a : Answer)
  | uninstall
  | record (externalEventId : Str) (payload : Dict)

def Integration.decideUninstall (i : Integration) (r : Request) : Decision :=
  if r.webhookId = [] then .answer .webhookRejected
  else match web.loads r.body with
    | some (.dict payload) =>
      if !i.uninstallPayloadMatches web payload then .answer .webhookRejected
      else if i.status = .disconnected then .answer .ok
      else .uninstall
    | _ => .answer .webhookRejected

def Integration.decideSale (i : Integration) (r : Request) : Decision :=
  if i.status = .disconnected then .answer .webhookRejected
  else if !i.isSaleEvent r then .answer .ok
  else match web.loads r.body with
    | some (.dict payload) => match i.externalEventId web r payload with
      | .ok key => .record key payload
      | .error (.payloadValidation code) => .answer (.payloadRejected code)
      | .error .webhookRejected => .answer .webhookRejected
      | .error _ => .answer .serverError
    | _ => .answer .invalidWebhookPayload

def Integration.decide (i : Integration) (r : Request) : Decision :=
  if i.provider ≠ r.provider then .answer .webhookRejected
  else if !i.verify web r then .answer .webhookRejected
  else if i.isUninstallEvent r then i.decideUninstall web r
  else i.decideSale web r

inductive Delivery where
  | arrived (r : Request)
  | decided (r : Request) (i : Integration) (d : Decision)
  | answered (r : Request) (a : Answer)

/-- A run of the import: the integration as it was read, the rows still to record, and whether the
reader raises after them. -/
structure Import where
  integration : Integration
  tenant : Uuid
  key : Str
  rows : List FileRow
  broken : Bool

/-- What `import_csv` is enqueued with. -/
structure Message where
  merchantId : Uuid
  integrationId : Uuid
  key : Str
  deriving DecidableEq

structure Disconnected where
  integrationId : Uuid
  actor : Option Uuid
  reason : Option String
  deriving DecidableEq

structure Store where
  integrations : Table Integration Integration.Clash
  events : Inbox
  audit : List Disconnected
  /-- The staged objects by their keys. -/
  objects : List (Str × Bytes)
  messages : List Message
  deliveries : List Delivery
  imports : List Import

def Store.integration? (s : Store) (id : Uuid) : Option Integration :=
  s.integrations.find? (·.id == id)

def Store.ownIntegration? (s : Store) (merchantId id : Uuid) : Option Integration :=
  (s.integration? id).filter (·.merchantId == merchantId)

def Store.lookUp (s : Store) (r : Request) : Delivery :=
  match r.integrationId.bind s.integration? with
  | none => .answered r .webhookRejected
  | some i => match i.decide web r with
    | .answer a => .answered r a
    | d => .decided r i d

def Integration.disconnect (i : Integration) : Integration :=
  { i with status := .disconnected, secret := none }

theorem disconnect_clash {id : Uuid} (a b : Integration)
    (h : Integration.Clash (if a.id = id then a.disconnect else a)
      (if b.id = id then b.disconnect else b)) : Integration.Clash a b := by
  simp only [Integration.Clash] at h ⊢
  split at h <;> split at h <;>
    simp_all [Integration.disconnect, Integration.provider]

/-- `disconnect_integration`, under the lock on the row. -/
def Store.disconnect (s : Store) (row : Disconnected) : Store :=
  match s.integration? row.integrationId with
  | none => s
  | some i =>
    if i.status = .disconnected then s
    else { s with
      integrations := s.integrations.update
        (fun i => if i.id = row.integrationId then i.disconnect else i) disconnect_clash
      audit := s.audit ++ [row] }

def Store.settle (s : Store) (n : ℕ) (eventId : Uuid) : Store :=
  match s.deliveries[n]? with
  | some (.decided r i .uninstall) =>
    let s := s.disconnect ⟨i.id, none, some "app_uninstalled"⟩
    { s with deliveries := s.deliveries.set n (.answered r .ok) }
  | some (.decided r i (.record key payload)) =>
    match recordEvent s.events ⟨some i.merchantId, i.toConnection, eventId, key, .json payload⟩ with
    | .ok (_, events) =>
      { s with events := events, deliveries := s.deliveries.set n (.answered r .ok) }
    | .error .integrationDisconnected =>
      { s with deliveries := s.deliveries.set n (.answered r .webhookRejected) }
    | .error _ => { s with deliveries := s.deliveries.set n (.answered r .serverError) }
  | _ => s

/-- `ingest_api_sale` up to `record_event`, in the tenant of a key: the integration, the key of the
event and the payload, if nothing raises. `located` is whether the location is resolved. -/
def Store.apiSale (s : Store) (merchantId : Uuid) (payload : Json) (located : Bool) :
    Option (Integration × Str × Dict) :=
  match payload with
  | .dict payload =>
    match s.integrations.find? fun i =>
      i.provider == .api && i.status == .connected && i.merchantId == merchantId with
    | none => none
    | some i => match Api.normalize web.py (Api.parse payload) with
      | .error _ => none
      | .ok _ =>
        if !located then none
        else match Api.getExternalEventId web.py payload with
          | .error _ => none
          | .ok key => some (i, key, payload)
  | _ => none

def Store.ingestApiSale (s : Store) (merchantId : Uuid) (payload : Json) (located : Bool)
    (eventId : Uuid) : Store :=
  match s.apiSale web merchantId payload located with
  | none => s
  | some (i, key, payload) =>
    match recordEvent s.events ⟨some merchantId, i.toConnection, eventId, key, .json payload⟩ with
    | .ok (_, events) => { s with events := events }
    | .error _ => s

/-- `start_csv_import`, whose key is drawn for it alone. -/
def Store.stage (s : Store) (merchantId integrationId : Uuid) (file : Option Bytes) (key : Str) :
    Store :=
  match s.ownIntegration? merchantId integrationId, file with
  | some i, some raw =>
    match startCsvImport web.py web.files (i.provider == .csv) i.toConnection (some raw) with
    | .error _ => s
    | .ok _ =>
      if s.messages.any (·.key == key) then s
      else { s with
        objects := s.objects ++ [(key, raw)]
        messages := s.messages ++ [⟨merchantId, integrationId, key⟩] }
  | _, _ => s

/-- `import_csv_rows` to the loop, for the message at a position, however often it is delivered. -/
def Store.beginImport (s : Store) (n : ℕ) : Store :=
  match s.messages[n]? with
  | none => s
  | some m =>
    match s.objects.lookup m.key, s.ownIntegration? m.merchantId m.integrationId with
    | some raw, some i =>
      match (web.files.decode raw).bind web.files.dictReader with
      | none => s
      | some reading =>
        { s with imports := s.imports ++ [⟨i, m.merchantId, m.key, reading.rows, reading.broken⟩] }
    | _, _ => s

def Store.deleteObject (s : Store) (key : Str) : Store :=
  { s with objects := s.objects.filter fun p => p.1 != key }

def Store.importRow (s : Store) (n : ℕ) (eventId : Uuid) : Store :=
  match s.imports[n]? with
  | none => s
  | some run => match run.rows with
    | [] =>
      if run.broken then { s with imports := s.imports.eraseIdx n }
      else { s.deleteObject run.key with imports := s.imports.eraseIdx n }
    | row :: rows =>
      match CsvImport.getExternalEventId web.py row.fields with
      | .error _ => { s with imports := s.imports.eraseIdx n }
      | .ok key =>
        match recordEvent s.events
          ⟨some run.tenant, run.integration.toConnection, eventId, key, .row row⟩ with
        | .ok (_, events) =>
          { s with
            events := events
            imports := s.imports.set n { run with rows := rows } }
        | .error .integrationDisconnected =>
          { s.deleteObject run.key with imports := s.imports.eraseIdx n }
        | .error _ => { s with imports := s.imports.eraseIdx n }

/-- `connect_integration`, or the link of a shop. An `IntegrityError` is `IntegrationExists`. -/
def Store.connect (s : Store) (i : Integration) : Store :=
  match s.integrations.insert? { i with status := .connected } with
  | some integrations => { s with integrations := integrations }
  | none => s

theorem configure_clash {id : Uuid} {config : Config} (a b : Integration)
    (h : Integration.Clash
      (if a.id = id ∧ a.provider = config.provider then { a with config } else a)
      (if b.id = id ∧ b.provider = config.provider then { b with config } else b)) :
    Integration.Clash a b := by
  simp only [Integration.Clash] at h ⊢
  split at h <;> split at h <;> simp_all [Integration.provider]

def Store.configure (s : Store) (integrationId : Uuid) (config : Config) : Store :=
  { s with
    integrations := s.integrations.update
      (fun i =>
        if i.id = integrationId ∧ i.provider = config.provider then { i with config } else i)
      configure_clash }

/-- A transaction of a request or of a task. The tenant of `apiSale` is that of an API key with the
scope, and the actors of the others are owners or admins. -/
inductive Label where
  | arrive (r : Request)
  | lookUp (n : ℕ)
  | settle (n : ℕ) (eventId : Uuid)
  | apiSale (merchantId : Uuid) (payload : Json) (located : Bool) (eventId : Uuid)
  | stage (merchantId integrationId : Uuid) (file : Option Bytes) (key : Str)
  | beginImport (n : ℕ)
  | importRow (n : ℕ) (eventId : Uuid)
  | killImport (n : ℕ)
  | connect (i : Integration)
  | configure (integrationId : Uuid) (config : Config)
  | disconnect (integrationId actor : Uuid)

def Store.step (s : Store) : Label → Store
  | .arrive r => { s with deliveries := s.deliveries ++ [.arrived r] }
  | .lookUp n => match s.deliveries[n]? with
    | some (.arrived r) => { s with deliveries := s.deliveries.set n (s.lookUp web r) }
    | _ => s
  | .settle n eventId => s.settle n eventId
  | .apiSale merchantId payload located eventId =>
    s.ingestApiSale web merchantId payload located eventId
  | .stage merchantId integrationId file key => s.stage web merchantId integrationId file key
  | .beginImport n => s.beginImport web n
  | .importRow n eventId => s.importRow web n eventId
  | .killImport n => { s with imports := s.imports.eraseIdx n }
  | .connect i => s.connect i
  | .configure integrationId config => s.configure integrationId config
  | .disconnect integrationId actor => s.disconnect ⟨integrationId, some actor, none⟩

def Store.empty : Store := ⟨.empty, .empty, [], [], [], [], []⟩

end ReviewFlow.Integrations.Intake
